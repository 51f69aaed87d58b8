import Chip8.Proofs.Frame
import Chip8.Proofs.Pacing.Payment
import Chip8.Proofs.Run
import Chip8.Proofs.Window.Responses

set_option autoImplicit false
set_option relaxedAutoImplicit false

namespace Chip8

namespace Machine

variable {m m' m'' : Machine}

/-- The second machine has the display of the first, or one that is marked as changed. -/
def Marks (m m' : Machine) : Prop := m'.display = m.display ∨ m'.display.dirty = true

theorem Marks.trans (first : Marks m m') (second : Marks m' m'') : Marks m m'' := by
  rcases second with same | marked
  · unfold Marks
    rw [same]
    exact first
  · exact .inr marked

private theorem marks_of_run {i : Instruction} (run : (perform i).run m = .ok ⟨⟩ m') :
    Marks m m' := by
  by_cases clear : i.opcode = .clearScreen
  · rw [perform, clear] at run
    cases run
    exact .inr rfl
  by_cases draw : i.opcode = .draw
  · rw [perform, draw] at run
    obtain ⟨rows, -, rest⟩ := run_ask_bind run
    cases rest
    exact .inr rfl
  · exact .inl ((perform_effect run).kept.display clear draw)

private theorem marks_step (m : Machine) : Marks m m.step.1 := by
  cases m.stepped with
  | unfetched cause fetched result =>
    rw [result]
    exact .inl rfl
  | refused word cause fetched run result =>
    rw [result]
    exact .inl rfl
  | done word after fetched run result =>
    rw [result]
    have past : Marks m m.past := .inl rfl
    have performed : Marks m.past after := marks_of_run run
    exact past.trans performed

private theorem dirty_reset (m : Machine) : m.reset.display.dirty = true := by
  simp only [reset]
  rfl

private theorem marks_reset (m : Machine) : Marks m m.reset := .inr (dirty_reset m)

private theorem marks_load (m : Machine) (program : List UInt8) : Marks m (m.load program).1 := by
  unfold load
  dsimp only
  split
  · exact marks_reset m
  · exact .inr (dirty_reset m)

private theorem marks_next (m : Machine) (e : Event) : Marks m (m.next e) := by
  cases e with
  | step => exact marks_step m
  | tick => exact .inl rfl
  | key key down =>
    obtain ⟨keys, pressed, result, -⟩ := next_key_kept m key down
    rw [result]
    exact .inl rfl

private theorem marks_obey (m : Machine) (c : Command) : Marks m (m.obey c) := by
  cases c with
  | load program => exact marks_load m program
  | reset => exact marks_reset m
  | event e => exact marks_next m e

end Machine

open Machine (Marks)

namespace Watched

private theorem device_step (session : Watched) :
    (device.step session).1.machine = session.machine.step.1 := by
  have stepped : (device.step session).1 = session.step.1 := by
    unfold device
    dsimp only
    split
    · rename_i result
      rw [result]
    · rename_i result
      rw [result]
  rw [stepped]
  rfl

/-- However a pacer drives a machine, the display stays the same or is marked. -/
theorem preserves_marks (m : Machine) :
    device.Preserves fun session => Marks m session.machine := by
  constructor
  · intro session marks
    exact marks.trans (.inl rfl)
  · intro session marks
    rw [device_step]
    exact marks.trans (Machine.marks_step session.machine)

private theorem marks_advance {session : Watched} {p : Pacer Float} {elapsed : Float}
    {o : Pacer.Outcome Float Watched Fault} (ran : session.advance p elapsed = some o) :
    Marks session.machine o.device.machine := by
  have noted : Marks session.machine
      (session.note (p.advanceNotes session.machine.halted elapsed)).machine := .inl rfl
  exact Pacer.device_advance (preserves_marks session.machine) noted ran

end Watched

namespace Window

/-- The data of a picture that a call gives to the desktop. -/
def Call.data? : Call → Option ByteArray
  | .image _ _ data => some data
  | .setData _ data => some data
  | _ => none

def shown (calls : List Call) : Option ByteArray := (calls.filterMap Call.data?).getLast?

private theorem shown_append (calls more : List Call) :
    shown (calls ++ more) = (shown more).or (shown calls) := by
  rw [shown, List.filterMap_append, List.getLast?_append]
  rfl

inductive Happening where
  | window (e : Event)
  | machine (c : Machine.Command)

def meet (w : Window) : Happening → Window × List Call
  | .window e => ((w.respond e).window, (w.respond e).calls)
  | .machine c => (w.withMachine (w.machine.obey c), [])

def meetAll (w : Window) : List Happening → Window × List Call
  | [] => (w, [])
  | h :: hs =>
    let (w, calls) := w.meet h
    let (w, more) := w.meetAll hs
    (w, calls ++ more)

variable {w : Window} {calls : List Call}

/-- After these calls the picture shown is that of the display, unless the display is marked. -/
def Coherent (w : Window) (calls : List Call) : Prop :=
  ∃ data, shown calls = some data ∧ (w.machine.display.dirty = false → data = w.picture)

/-- A window of the same scale whose display stays the same or is marked; no picture is given. -/
structure Untouched (w : Window) (next : Window × List Call) : Prop where
  side : next.1.side = w.side
  marks : Marks w.machine next.1.machine
  shown : shown next.2 = none

theorem Coherent.untouched {next : Window × List Call} (coherent : w.Coherent calls)
    (untouched : w.Untouched next) : next.1.Coherent (calls ++ next.2) := by
  obtain ⟨data, last, current⟩ := coherent
  refine ⟨data, ?_, fun clean => ?_⟩
  · rw [shown_append, untouched.shown, Option.none_or, last]
  · rcases untouched.marks with same | marked
    · rw [same] at clean
      rw [current clean, picture, picture, same, untouched.side]
    · rw [clean] at marked
      cases marked

section Respond

variable (w)

private theorem untouched_same (calls : List Call) (quiet : shown calls = none) :
    w.Untouched (w, calls) := ⟨rfl, .inl rfl, quiet⟩

private theorem untouched_close : w.Untouched (w.close.window, w.close.calls) := by
  unfold close
  split
  · exact w.untouched_same [] rfl
  · exact ⟨rfl, .inl rfl, rfl⟩

private theorem untouched_buzz : w.Untouched (w.buzz.window, w.buzz.calls) := by
  refine ⟨rfl, .inl rfl, ?_⟩
  unfold buzz
  dsimp only
  split
  · rfl
  · split <;> rfl

private theorem untouched_updated {elapsed : Float} {r : Response} (updated : Updated w elapsed r) :
    w.Untouched (r.window, r.calls) := by
  cases updated with
  | unscheduled | endless => exact w.untouched_same [] rfl
  | @ran pacer session made on ran =>
    have marks := Watched.marks_advance ran
    have buzzed := untouched_buzz { w with pacer, session }
    exact ⟨buzzed.side, marks.trans buzzed.marks, buzzed.shown⟩
  | backwards on ran =>
    have marks := Watched.marks_advance ran
    exact ⟨rfl, marks, rfl⟩
  | @failed pacer session fault on ran =>
    have marks := Watched.marks_advance ran
    have closed :=
      untouched_close { w with pacer, session := session.note [faultNote fault] }
    exact ⟨closed.side, marks.trans closed.marks, closed.shown⟩

private theorem untouched_meet (h : Happening) (other : h ≠ .window .draw) :
    w.Untouched (w.meet h) := by
  cases h with
  | machine c => exact ⟨rfl, Machine.marks_obey w.machine c, rfl⟩
  | window e =>
    have responded := w.responded e
    rw [meet]
    generalize w.respond e = r at responded ⊢
    cases responded with
    | update updated => exact w.untouched_updated updated
    | draw => exact absurd rfl other
    | close => exact w.untouched_close
    | silent silent => exact ⟨silent.side, .inl silent.display, congrArg shown silent.calls⟩

end Respond

private theorem picture_draw (w : Window) : w.draw.window.picture = w.picture := rfl

private theorem shown_draw (w : Window) :
    shown w.draw.calls = if w.machine.display.dirty then some w.picture else none := by
  unfold draw
  dsimp only
  split <;> split <;> rfl

theorem Coherent.draw (coherent : w.Coherent calls) :
    shown (calls ++ w.draw.calls) = some w.picture := by
  obtain ⟨data, last, current⟩ := coherent
  rw [shown_append, shown_draw]
  split
  · rfl
  · rename_i clean
    rw [Option.none_or, last, current (Bool.eq_false_iff.mpr clean)]

private theorem Coherent.meet (coherent : w.Coherent calls) (h : Happening) :
    (w.meet h).1.Coherent (calls ++ (w.meet h).2) := by
  by_cases draw : h = .window .draw
  · subst draw
    exact ⟨w.picture, coherent.draw, fun _ => (picture_draw w).symm⟩
  · exact coherent.untouched (w.untouched_meet h draw)

private theorem Coherent.meetAll (coherent : w.Coherent calls) (hs : List Happening) :
    (w.meetAll hs).1.Coherent (calls ++ (w.meetAll hs).2) := by
  induction hs generalizing w calls with
  | nil =>
    rw [Window.meetAll, List.append_nil]
    exact coherent
  | cons h hs ih =>
    have rest := ih (coherent.meet h)
    rw [List.append_assoc] at rest
    exact rest

private theorem side_meetAll (w : Window) (hs : List Happening) :
    (w.meetAll hs).1.side = w.side := by
  induction hs generalizing w with
  | nil => rfl
  | cons h hs ih =>
    refine (ih (w.meet h).1).trans ?_
    by_cases draw : h = .window .draw
    · subst draw
      rfl
    · exact (w.untouched_meet h draw).side

private theorem meetAll_append (w : Window) (hs more : List Happening) :
    w.meetAll (hs ++ more) =
      (((w.meetAll hs).1.meetAll more).1,
        (w.meetAll hs).2 ++ ((w.meetAll hs).1.meetAll more).2) := by
  induction hs generalizing w with
  | nil => rfl
  | cons h hs ih =>
    rw [List.cons_append]
    simp only [meetAll, ih, List.append_assoc]

private theorem coherent_opened (w : Window) (title : Json) : w.Coherent (w.openingCalls title) :=
  ⟨w.picture, rfl, fun _ => rfl⟩

private theorem side_of_opened {session : Watched} {settings : Settings}
    (opening : opened session settings = .ok w) : Picture.side settings.scale = .ok w.side :=
  (opened_ok opening).1

/-- Whatever has happened to a window since it was opened, once it is drawn the picture last given
to the desktop is that of the display as it is now, at the scale that the window was opened with. -/
theorem drawn_shows_display {session : Watched} {settings : Settings}
    (opening : opened session settings = .ok w) (hs : List Happening) :
    let (w', calls) := w.meetAll (hs ++ [.window .draw])
    shown (w.openingCalls settings.title ++ calls) =
        some (Picture.render w'.machine.display.rows w.side) ∧
      Picture.side settings.scale = .ok w.side := by
  have coherent := (coherent_opened w settings.title).meetAll hs
  have drawn := coherent.draw
  rw [meetAll_append]
  refine ⟨?_, side_of_opened opening⟩
  rw [← side_meetAll w hs, ← List.append_assoc]
  have last : ((w.meetAll hs).1.meetAll [.window .draw]).2 = (w.meetAll hs).1.draw.calls :=
    List.append_nil _
  rw [last, drawn]
  rfl

private theorem opened_of_paced {settings : Settings} {p : Pacer Float} {n : Int}
    (session : Watched)
    (paced : settings.pacer = .ok p) (scale : settings.scale = .int n) (sign : 0 ≤ n) :
    ∃ w, opened session settings = .ok w ∧ w.session = session := by
  have side : Picture.side settings.scale = .ok n.toNat := by
    rw [scale]
    exact if_neg (by omega)
  unfold opened
  rw [side, paced, scale]
  exact ⟨_, rfl, rfl⟩

/-- A machine whose program clears the display and draws a zero. -/
def zeroDrawer : Watched :=
  ⟨Machine.loaded [0x00, 0xE0, 0xD0, 0x05], .empty .warning⟩

/-- The machine of a window that was drawn, after two steps. -/
def drawnThenTwoSteps (m : Machine) : Machine :=
  Machine.after { m with display := { m.display with dirty := false } } [.step, .step]

theorem zero_drawn_shown :
    ∃ w, opened zeroDrawer .default = .ok w ∧
      let (w', calls) := w.meetAll
        ([.window .draw, .machine (.event .step), .machine (.event .step)] ++ [.window .draw])
      shown (w.openingCalls Settings.default.title ++ calls) =
          some (Picture.render w'.machine.display.rows w.side) ∧
        Picture.side Settings.default.scale = .ok w.side ∧
        w'.machine.display.lit 0 0 = true := by
  have valid : Settings.default.validate = .ok () := rfl
  have usable : Settings.default.Usable := by decide +kernel
  obtain ⟨p, paced⟩ := (Settings.pacer_built_iff valid).mpr ⟨usable.steps, usable.ticks⟩
  have scale : Settings.default.scale = .int 10 := rfl
  obtain ⟨w, opening, session⟩ := opened_of_paced zeroDrawer paced scale (by decide)
  obtain ⟨last, side⟩ := drawn_shows_display opening
    [.window .draw, .machine (.event .step), .machine (.event .step)]
  refine ⟨w, opening, last, side, ?_⟩
  have drawn : (drawnThenTwoSteps zeroDrawer.machine).display.lit 0 0 = true := by decide +kernel
  rw [← session] at drawn
  exact drawn

end Window

end Chip8
