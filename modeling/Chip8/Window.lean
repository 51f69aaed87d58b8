import Chip8.Fault
import Chip8.Json.Basic
import Chip8.Pacing
import Chip8.Settings.Basic

set_option autoImplicit false
set_option relaxedAutoImplicit false

namespace Chip8.Window

/-- A key of a host's keyboard. -/
inductive HostKey where
  | escape
  | f1
  | f2
  /-- A letter, in upper case, or a digit of the top row. -/
  | character (c : Char)
  | other
  deriving DecidableEq, Repr

/-- The host's characters for the keys of the pad, from 0 to F. On both sides they lie in a
square of four rows. -/
def padCharacters : Vector Char 16 :=
  #v['X', '1', '2', '3', 'Q', 'W', 'E', 'A', 'S', 'D', 'Z', 'C', '4', 'R', 'F', 'V']

/-- The key of the pad that a host key stands for. -/
def HostKey.padKey? : HostKey → Option (Fin 16)
  | character c => (List.finRange 16).find? fun k => padCharacters.get k = c
  | _ => none

end Chip8.Window

namespace Chip8.Picture

/-- The bytes of a pixel: white if lit, else black, always opaque. -/
def pixel (isLit : Bool) : ByteArray :=
  let level : UInt8 := if isLit then 255 else 0
  ⟨#[level, level, level, 255]⟩

/-- Bytes with others appended a number of times. -/
def appendTimes (acc bytes : ByteArray) : Nat → ByteArray
  | 0 => acc
  | n + 1 => appendTimes (acc ++ bytes) bytes n

/-- Bytes with those of a row appended, each pixel `scale` times. -/
def appendRow (scale : Nat) (acc : ByteArray) : List Bool → ByteArray
  | [] => acc
  | p :: ps => appendRow scale (appendTimes acc (pixel p) scale) ps

/-- Bytes with those of rows appended, each row `scale` times. -/
def appendRows (scale : Nat) (acc : ByteArray) : List (List Bool) → ByteArray
  | [] => acc
  | row :: rows =>
    appendRows scale (appendTimes acc (appendRow scale .empty row) scale) rows

/-- The picture of the rows of a display, given from the top. -/
def render (rows : List (List Bool)) (scale : Nat) : ByteArray :=
  appendRows scale .empty rows.reverse

/-- The size of the squares that a scale asks for. One is one in whatever form. -/
def side (scale : Json) : Except Misuse Nat :=
  match scale.number? with
  | some (.int n) => if n < 0 then .error .negativeScale else .ok n.toNat
  | some (.float x) => if x == 1.0 then .ok 1 else .error .fractionalScale
  | none => .error .fractionalScale

end Chip8.Picture

namespace Chip8

/-- What the clock of the desktop calls for a window. -/
inductive Window.Callback where
  /-- Tell the window how much time has passed. -/
  | update
  /-- Tell it that its statistics are due. -/
  | measure
  deriving DecidableEq, Repr

/-- A window and the machine behind it. -/
structure Window where
  session : Watched
  pacer : Pacer Float
  width : Number
  height : Number
  /-- The size of the square that a pixel of the display is enlarged to. -/
  side : Nat
  /-- Whether the buzzer was last told to play. -/
  playing : Bool
  /-- How often the window was drawn since the statistics were last taken. -/
  frames : Nat
  /-- The cycles that the pacer had counted when the statistics were last taken. -/
  counted : Nat
  framesText : String
  cyclesText : String
  showStats : Bool
  /-- What the clock still calls. -/
  scheduled : List Window.Callback
  closed : Bool

namespace Window

/-- What a window asks of the desktop. -/
inductive Call where
  /-- Make a window. -/
  | window (width height : Number) (title : Json)
  /-- Make a picture. -/
  | image (width height : Number) (data : ByteArray)
  /-- Make the sound of the buzzer. -/
  | sine
  /-- Hand the sound to a player. -/
  | queue
  /-- Make a line of text. -/
  | label (text : String) (x : Nat) (y : Number)
  /-- Empty the window. -/
  | clear
  /-- Replace the content of the picture. -/
  | setData (pitch : Number) (data : ByteArray)
  /-- Show the picture. -/
  | blit
  /-- Show a line of text. -/
  | drawLabel (text : String)
  /-- Start the player. -/
  | play
  /-- Stop the player. -/
  | pause
  /-- Give the player back. -/
  | delete
  /-- Close the window. -/
  | close

/-- What a window has the clock call from its opening on. -/
def callbacks : List Callback := [.update, .measure]

def machine (w : Window) : Machine := w.session.machine

/-- The picture of the display as it is now. -/
def picture (w : Window) : ByteArray := Picture.render w.machine.display.rows w.side

/-- How far the lines of text start from the left edge. -/
def labelLeft : Nat := 5

/-- How far below the upper edge the frame count stands. -/
def framesDrop : Nat := 15

/-- How far below the upper edge the cycle count stands. -/
def cyclesDrop : Nat := 30

def pitch (w : Window) : Number := w.width.times 4

def openingCalls (w : Window) (title : Json) : List Call :=
  [ .window w.width w.height title, .image w.width w.height w.picture, .sine, .queue,
    .label w.framesText labelLeft (w.height.minus framesDrop),
    .label w.cyclesText labelLeft (w.height.minus cyclesDrop) ]

/-- A window on a machine. The rates are looked at before the scale. -/
def opened (session : Watched) (settings : Settings) : Except Misuse Window := do
  let scale ← match settings.scale.number? with
    | some n => .ok n
    | none => .error .fractionalScale
  let pacer ← settings.pacer
  let side ← Picture.side settings.scale
  return {
    session
    pacer
    width := scale.times displayWidth
    height := scale.times displayHeight
    side
    playing := false
    frames := 0
    counted := 0
    framesText := "FPS: 0"
    cyclesText := "Cycles/s: 0"
    showStats := false
    scheduled := callbacks
    closed := false }

end Window

end Chip8

/-!
What a window does when something happens: time passes, the statistics are due, it has to be
drawn, a key goes down or up, it is closed. Each response is the window after it, what was asked
of the desktop on the way, and the trouble that ended it early.
-/

namespace Chip8.Window

/-- Something that happens to a window. The clock tells of the first two as long as they are
scheduled. -/
inductive Event where
  /-- Seconds have passed. -/
  | update (elapsed : Float)
  /-- The statistics of a stretch of seconds are due. -/
  | measure (elapsed : Float)
  | draw
  | press (key : HostKey)
  | release (key : HostKey)
  | close

/-- What ends a response early. -/
inductive Trouble where
  | misuse (reason : Misuse)
  | count (reason : WholeError)
  /-- The pacer would never come to an end. -/
  | endless
  deriving DecidableEq, Repr

/-- The window after an event, the calls made, and the trouble if there was any. -/
structure Response where
  window : Window
  calls : List Call
  /-- The callbacks that the clock was told to forget. -/
  unscheduled : List Callback
  trouble : Option Trouble

def answer (w : Window) (calls : List Call) : Response := ⟨w, calls, [], none⟩

def refuse (w : Window) (reason : Trouble) : Response := ⟨w, [], [], some reason⟩

/-- Closes the window, once. -/
def close (w : Window) : Response :=
  if w.closed then w.answer []
  else
    let scheduled := w.scheduled.filter (· ∉ callbacks)
    ⟨{ w with scheduled, closed := true }, [.delete, .close], callbacks, none⟩

/-- Starts or stops the player when the buzzer has to change. -/
def buzz (w : Window) : Response :=
  let active := w.machine.soundActive
  let calls : List Call :=
    if active && !w.playing then [.play]
    else if !active && w.playing then [.pause]
    else []
  { w with playing := active }.answer calls

def faultNote (fault : Fault) : Note :=
  ⟨.error, .window, "Emulation error: " ++ fault.message⟩

/-- Lets the machine run for a stretch of time. A fault closes the window and leaves the buzzer as
it is. -/
def update (w : Window) (elapsed : Float) : Response :=
  if .update ∉ w.scheduled then w.answer []
  else
    match w.session.advance w.pacer elapsed with
    | none => w.refuse .endless
    | some ⟨pacer, session, .ok _⟩ => { w with pacer, session }.buzz
    | some ⟨pacer, session, .error .backwards⟩ =>
      { w with pacer, session }.refuse (.misuse .negativeTime)
    | some ⟨pacer, session, .error (.step fault)⟩ =>
      { w with pacer, session := session.note [faultNote fault] }.close

/-- Takes the statistics of a stretch of time: cycles and frames per second. -/
def measure (w : Window) (elapsed : Float) : Response :=
  if .measure ∉ w.scheduled then w.answer []
  else if elapsed == 0.0 then w.refuse (.misuse .noTime)
  else
    match Decimal.nearest (Float.ofNat (w.pacer.cycles - w.counted) / elapsed) with
    | .error reason => w.refuse (.count (.ofNotWhole reason))
    | .ok speed =>
      { w with
        cyclesText := "Cycles/s: " ++ toString speed
        framesText := "FPS: " ++ Decimal.fixed 1 (Float.ofNat w.frames / elapsed)
        counted := w.pacer.cycles
        frames := 0 }.answer []

def withMachine (w : Window) (m : Machine) : Window := { w with session := w.session.update m }

/-- Draws the window. The picture is made anew only if the display may have changed. -/
def draw (w : Window) : Response :=
  let display := w.machine.display
  let renewal : List Call := if display.dirty then [.setData w.pitch w.picture] else []
  let stats : List Call :=
    if w.showStats then [.drawLabel w.framesText, .drawLabel w.cyclesText] else []
  let w := w.withMachine { w.machine with display := { display with dirty := false } }
  { w with frames := w.frames + 1 }.answer (Call.clear :: renewal ++ Call.blit :: stats)

def toggleTracing (w : Window) : Window :=
  let journal := w.session.journal
  let tracing := journal.keeps .debug
  let journal : Journal := { journal with threshold := if tracing then .info else .debug }
  let note : Note := ⟨.info, .window, if tracing then "Tracing off" else "Tracing on"⟩
  { w with session := { w.session with journal := journal.add note } }

/-- Reports a key of the pad as down or up. -/
def setKey (w : Window) (key : Option (Fin 16)) (down : Bool) : Window :=
  match key with
  | some k => w.withMachine (w.machine.setKey k down)
  | none => w

def press (w : Window) (key : HostKey) : Response :=
  match key with
  | .escape => w.close
  | .f1 => w.toggleTracing.answer []
  | .f2 => { w with showStats := !w.showStats }.answer []
  | key => (w.setKey key.padKey? true).answer []

def release (w : Window) (key : HostKey) : Response := (w.setKey key.padKey? false).answer []

def respond (w : Window) : Event → Response
  | .update elapsed => w.update elapsed
  | .measure elapsed => w.measure elapsed
  | .draw => w.draw
  | .press key => w.press key
  | .release key => w.release key
  | .close => w.close

/-- The responses to events that happen one after the other. -/
def respondAll (w : Window) : List Event → List Response
  | [] => []
  | e :: es =>
    let r := w.respond e
    r :: r.window.respondAll es

/-- The window after events that happen one after the other. -/
def after (w : Window) (events : List Event) : Window :=
  events.foldl (fun w e => (w.respond e).window) w

end Chip8.Window
