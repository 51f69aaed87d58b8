import Mathlib.Tactic.Common
import Chip8.Proofs.Usable
import Chip8.Window

set_option autoImplicit false
set_option relaxedAutoImplicit false

namespace Chip8.Window

variable {w : Window}

theorem opened_ok {session : Watched} {settings : Settings}
    (opening : opened session settings = .ok w) :
    Picture.side settings.scale = .ok w.side ∧ w.playing = false ∧ w.closed = false ∧
      w.scheduled = callbacks := by
  unfold opened at opening
  split at opening
  · obtain ⟨scale, -, opening⟩ := bind_eq_ok.mp opening
    obtain ⟨pacer, -, opening⟩ := bind_eq_ok.mp opening
    obtain ⟨side, measured, same⟩ := bind_eq_ok.mp opening
    cases same
    exact ⟨measured, rfl, rfl, rfl⟩
  · cases opening

inductive Updated (w : Window) (elapsed : Float) : Response → Prop where
  | unscheduled (off : .update ∉ w.scheduled) : Updated w elapsed (w.answer [])
  | endless (on : .update ∈ w.scheduled) (ran : w.session.advance w.pacer elapsed = none) :
      Updated w elapsed (w.refuse .endless)
  | ran {pacer : Pacer Float} {session : Watched} {made : Nat} (on : .update ∈ w.scheduled)
      (ran : w.session.advance w.pacer elapsed = some ⟨pacer, session, .ok made⟩) :
      Updated w elapsed { w with pacer, session }.buzz
  | backwards {pacer : Pacer Float} {session : Watched} (on : .update ∈ w.scheduled)
      (ran : w.session.advance w.pacer elapsed = some ⟨pacer, session, .error .backwards⟩) :
      Updated w elapsed ({ w with pacer, session }.refuse (.misuse .negativeTime))
  | failed {pacer : Pacer Float} {session : Watched} {fault : Fault} (on : .update ∈ w.scheduled)
      (ran : w.session.advance w.pacer elapsed = some ⟨pacer, session, .error (.step fault)⟩) :
      Updated w elapsed { w with pacer, session := session.note [faultNote fault] }.close

theorem updated (w : Window) (elapsed : Float) : Updated w elapsed (w.update elapsed) := by
  unfold update
  split
  · rename_i off
    exact .unscheduled off
  · rename_i on
    rw [Decidable.not_not] at on
    split
    · rename_i ran
      exact .endless on ran
    · rename_i ran
      exact .ran on ran
    · rename_i ran
      exact .backwards on ran
    · rename_i ran
      exact .failed on ran

/-- A response that asks nothing of the desktop and leaves what it shows, plays and calls as it
is. -/
structure Silent (w : Window) (r : Response) : Prop where
  calls : r.calls = []
  unscheduled : r.unscheduled = []
  display : r.window.machine.display = w.machine.display
  side : r.window.side = w.side
  playing : r.window.playing = w.playing
  scheduled : r.window.scheduled = w.scheduled
  closed : r.window.closed = w.closed

private theorem silent_measure (w : Window) (elapsed : Float) : w.Silent (w.measure elapsed) := by
  unfold measure
  split
  · exact ⟨rfl, rfl, rfl, rfl, rfl, rfl, rfl⟩
  · split
    · exact ⟨rfl, rfl, rfl, rfl, rfl, rfl, rfl⟩
    · split <;> exact ⟨rfl, rfl, rfl, rfl, rfl, rfl, rfl⟩

private theorem silent_setKey (w : Window) (key : Option (Fin 16)) (down : Bool) :
    w.Silent ((w.setKey key down).answer []) := by
  cases key <;> exact ⟨rfl, rfl, rfl, rfl, rfl, rfl, rfl⟩

inductive Responded (w : Window) : Event → Response → Prop where
  | update {elapsed : Float} {r : Response} (updated : Updated w elapsed r) :
      Responded w (.update elapsed) r
  | draw : Responded w .draw w.draw
  | close {e : Event} (asked : e = .close ∨ e = .press .escape) : Responded w e w.close
  | silent {e : Event} {r : Response} (silent : w.Silent r) : Responded w e r

theorem responded (w : Window) (e : Event) : Responded w e (w.respond e) := by
  cases e with
  | update elapsed => exact .update (w.updated elapsed)
  | measure elapsed => exact .silent (w.silent_measure elapsed)
  | draw => exact .draw
  | press key =>
    cases key with
    | escape => exact .close (.inr rfl)
    | f1 | f2 => exact .silent ⟨rfl, rfl, rfl, rfl, rfl, rfl, rfl⟩
    | character | other => exact .silent (w.silent_setKey _ true)
  | release key => exact .silent (w.silent_setKey key.padKey? false)
  | close => exact .close (.inl rfl)

end Chip8.Window
