import Chip8.Main
import Chip8.Proofs.Step
import Chip8.Proofs.CallStack
import Chip8.Proofs.BoundedStack
import Chip8.Proofs.Frame
import Chip8.Proofs.Effect
import Chip8.Proofs.Display
import Chip8.Proofs.Run
import Chip8.Proofs.Invariant
import Chip8.Proofs.KeyWait
import Chip8.Proofs.Subroutine
import Chip8.Proofs.Footprint
import Chip8.Proofs.Pattern
import Chip8.Proofs.Masks
import Chip8.Proofs.Failure
import Chip8.Proofs.Load
import Chip8.Proofs.Aside
import Chip8.Proofs.Dialects
import Chip8.Proofs.Countdown
import Chip8.Proofs.HostEvents
import Chip8.Proofs.Interleaving
import Chip8.Proofs.RandomStream
import Chip8.Proofs.Usable
import Chip8.Proofs.Pacing.Course
import Chip8.Proofs.Pacing.Agenda
import Chip8.Proofs.Pacing.Exact
import Chip8.Proofs.Pacing.Payment
import Chip8.Proofs.Pacing.Decoupled
import Chip8.Proofs.Pacing.Bookkeeping
import Chip8.Proofs.Sprite
import Chip8.Proofs.Arithmetic
import Chip8.Proofs.Checked
import Chip8.Proofs.Window.Responses
import Chip8.Proofs.Window.Shown
import Chip8.Proofs.Window.Buzzer
import Chip8.Proofs.Json.Ascii
import Chip8.Proofs.Json.Reading
import Chip8.Proofs.Json.Numbers
import Chip8.Proofs.Json.RoundTrip
import Chip8.Proofs.SettingsFile
import Chip8.Proofs.ControlFlow
import Chip8.Proofs.Redraw
import Chip8.Proofs.Layers
import Chip8.Proofs.Views
import Chip8.Proofs.RegisterBlock
import Chip8.Proofs.ByteMap
import Chip8.Proofs.Overrides
import Chip8.Proofs.Pacing.Rounding
import Chip8.Proofs.Pacing.Progress
