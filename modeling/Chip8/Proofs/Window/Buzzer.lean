import Mathlib.Tactic.Common
import Chip8.Proofs.Run
import Chip8.Proofs.Window.Responses

set_option autoImplicit false
set_option relaxedAutoImplicit false

namespace Chip8.Window

/-- What the player of the buzzer is told once it has its sound. -/
inductive Order where
  | play
  | pause
  | delete
  deriving DecidableEq

def Call.order? : Call → Option Order
  | .play => some .play
  | .pause => some .pause
  | .delete => some .delete
  | _ => none

def Call.closes : Call → Bool
  | .close => true
  | _ => false

def orders (calls : List Call) : List Order := calls.filterMap Call.order?

/-- The first orders of a player that plays and pauses in turns. -/
def turns (n : Nat) : List Order :=
  (List.range n).map fun k => if k % 2 = 0 then .play else .pause

def Sounding (calls : List Call) : Prop := (orders calls).getLast? = some .play

private theorem orders_append (calls more : List Call) :
    orders (calls ++ more) = orders calls ++ orders more := List.filterMap_append

private theorem turns_succ (n : Nat) :
    turns (n + 1) = turns n ++ [if n % 2 = 0 then .play else .pause] := by
  rw [turns, List.range_succ, List.map_append]
  rfl

private theorem getLast?_turns (n : Nat) : (turns n).getLast? = some .play ↔ n % 2 = 1 := by
  cases n with
  | zero => decide
  | succ n =>
    rw [turns_succ, List.getLast?_concat]
    split
    · rename_i even
      exact iff_of_true rfl (by omega)
    · rename_i odd
      exact iff_of_false nofun (by omega)

section Responses

variable {w : Window} {elapsed : Float}

def Fails (w : Window) (elapsed : Float) : Prop :=
  ∃ pacer session fault,
    w.session.advance w.pacer elapsed = some ⟨pacer, session, .error (.step fault)⟩

private theorem close_of_open (running : w.closed = false) :
    w.close = ⟨{ w with scheduled := w.scheduled.filter (· ∉ callbacks), closed := true },
      [.delete, .close], callbacks, none⟩ := by
  rw [close, running]
  rfl

private theorem closed_close (w : Window) : w.close.window.closed = true := by
  unfold close
  split
  · assumption
  · rfl

private theorem closed_update_iff (running : w.closed = false) (on : .update ∈ w.scheduled) :
    (w.update elapsed).window.closed = true ↔ w.Fails elapsed := by
  have updated := w.updated elapsed
  generalize w.update elapsed = r at updated ⊢
  unfold Fails
  cases updated with
  | unscheduled off => exact absurd on off
  | endless _ ran =>
    rw [ran]
    simp [refuse, running]
  | ran _ ran =>
    rw [ran]
    simp [buzz, answer, running]
  | backwards _ ran =>
    rw [ran]
    simp [refuse, running]
  | failed _ ran => exact ⟨fun _ => ⟨_, _, _, ran⟩, fun _ => closed_close _⟩

private theorem playing_update (on : .update ∈ w.scheduled)
    (still : (w.update elapsed).window.closed = false) (fine : (w.update elapsed).trouble = none) :
    (w.update elapsed).window.playing = (w.update elapsed).window.machine.soundActive := by
  have updated := w.updated elapsed
  generalize w.update elapsed = r at updated still fine ⊢
  cases updated with
  | unscheduled off => exact absurd on off
  | endless | backwards => cases fine
  | ran => rfl
  | failed =>
    rw [closed_close] at still
    cases still

/-- A response that closes nothing: it tells the player something only to change the buzzer, and
only if the window is open. -/
structure Stays (w : Window) (r : Response) : Prop where
  closed : r.window.closed = w.closed
  scheduled : r.window.scheduled = w.scheduled
  closings : r.calls.countP Call.closes = 0
  unscheduled : r.unscheduled = []
  player : r.window.playing = w.playing ∧ orders r.calls = [] ∨
    w.closed = false ∧ r.window.playing = !w.playing ∧
      orders r.calls = [if r.window.playing then .play else .pause]

structure Shuts (w : Window) (r : Response) : Prop where
  before : w.closed = false
  after : r.window.closed = true
  playing : r.window.playing = w.playing
  scheduled : r.window.scheduled = w.scheduled.filter (· ∉ callbacks)
  closings : r.calls.countP Call.closes = 1
  unscheduled : r.unscheduled = callbacks
  player : orders r.calls = [.delete]

theorem Silent.stays {r : Response} (silent : w.Silent r) : w.Stays r where
  closed := silent.closed
  scheduled := silent.scheduled
  closings := congrArg (List.countP Call.closes) silent.calls
  unscheduled := silent.unscheduled
  player := .inl ⟨silent.playing, congrArg Window.orders silent.calls⟩

private theorem stays_or_shuts_close (w : Window) : w.Stays w.close ∨ w.Shuts w.close := by
  cases running : w.closed with
  | true =>
    have done : w.close = w.answer [] := if_pos running
    rw [done]
    exact .inl ⟨rfl, rfl, rfl, rfl, .inl ⟨rfl, rfl⟩⟩
  | false =>
    rw [close_of_open running]
    exact .inr ⟨running, rfl, rfl, rfl, rfl, rfl, rfl⟩

private theorem stays_buzz (running : w.closed = false) : w.Stays w.buzz := by
  refine ⟨rfl, rfl, ?_, rfl, ?_⟩
  · unfold buzz
    dsimp only
    split
    · rfl
    · split <;> rfl
  · cases active : w.machine.soundActive <;> cases playing : w.playing <;>
      simp [buzz, answer, active, playing, orders, Call.order?, running]

private theorem stays_or_shuts_updated {r : Response} (updated : Updated w elapsed r)
    (clock : .update ∈ w.scheduled → w.closed = false) : w.Stays r ∨ w.Shuts r := by
  cases updated with
  | unscheduled | endless | backwards =>
    exact .inl ⟨rfl, rfl, rfl, rfl, .inl ⟨rfl, rfl⟩⟩
  | @ran pacer session made on ran =>
    have buzzed : Stays { w with pacer, session } _ := stays_buzz (clock on)
    exact .inl ⟨buzzed.closed, buzzed.scheduled, buzzed.closings, buzzed.unscheduled, buzzed.player⟩
  | @failed pacer session fault on ran =>
    rcases stays_or_shuts_close { w with pacer, session := session.note [faultNote fault] } with
      stays | shuts
    · exact .inl ⟨stays.closed, stays.scheduled, stays.closings, stays.unscheduled, stays.player⟩
    · exact .inr ⟨shuts.before, shuts.after, shuts.playing, shuts.scheduled, shuts.closings,
        shuts.unscheduled, shuts.player⟩

private theorem stays_draw (w : Window) : w.Stays w.draw := by
  refine ⟨rfl, rfl, ?_, rfl, .inl ⟨rfl, ?_⟩⟩
  all_goals
    unfold draw
    dsimp only
    split <;> split <;> rfl

/-- Only time passing turns the buzzer on or off, and nothing closes a window twice. -/
theorem stays_or_shuts (clock : .update ∈ w.scheduled → w.closed = false) (e : Event) :
    w.Stays (w.respond e) ∨ w.Shuts (w.respond e) := by
  have responded := w.responded e
  generalize w.respond e = r at responded ⊢
  cases responded with
  | update updated => exact stays_or_shuts_updated updated clock
  | draw => exact .inl w.stays_draw
  | close => exact w.stays_or_shuts_close
  | silent silent => exact .inl silent.stays

end Responses

/-- How a window stands to what it has asked of the desktop since its opening: the player was told
to play and to pause in turns, the last time as the window remembers it, and then was given back if
the window is closed; and the clock calls all of its callbacks until it is told to forget them. -/
structure Accounts (w : Window) (calls : List Call) (unscheduled : List Callback) : Prop where
  player : ∃ n, orders calls = turns n ++ (if w.closed then [.delete] else []) ∧
    (w.playing = true ↔ n % 2 = 1)
  closings : calls.countP Call.closes = if w.closed then 1 else 0
  scheduled : w.scheduled = if w.closed then [] else callbacks
  unscheduled : unscheduled = if w.closed then callbacks else []

namespace Accounts

variable {w : Window} {calls : List Call} {unscheduled : List Callback}

private theorem on_of_open (accounts : w.Accounts calls unscheduled) (running : w.closed = false) :
    .update ∈ w.scheduled := by
  rw [accounts.scheduled, running]
  decide

private theorem open_of_on (accounts : w.Accounts calls unscheduled) (on : .update ∈ w.scheduled) :
    w.closed = false := by
  rw [accounts.scheduled] at on
  cases closed : w.closed with
  | false => rfl
  | true =>
    rw [closed] at on
    cases on

theorem stays {r : Response} (accounts : w.Accounts calls unscheduled) (stays : w.Stays r) :
    r.window.Accounts (calls ++ r.calls) (unscheduled ++ r.unscheduled) := by
  obtain ⟨n, told, odd⟩ := accounts.player
  refine ⟨?_, ?_, ?_, ?_⟩
  · rw [orders_append, told, stays.closed]
    rcases stays.player with ⟨playing, silent⟩ | ⟨running, turned, changed⟩
    · exact ⟨n, by rw [silent, List.append_nil], by rw [playing, odd]⟩
    · refine ⟨n + 1, ?_, ?_⟩
      · rw [changed, running, turned, turns_succ]
        by_cases playing : w.playing = true
        · simp [playing, odd.mp playing]
        · have even : n % 2 = 0 := by
            rw [odd] at playing
            omega
          simp [playing, even]
      · rw [turned, Bool.not_eq_true', ← Bool.not_eq_true, odd]
        omega
  · rw [List.countP_append, accounts.closings, stays.closings, stays.closed, Nat.add_zero]
  · rw [stays.scheduled, accounts.scheduled, stays.closed]
  · rw [stays.unscheduled, List.append_nil, accounts.unscheduled, stays.closed]

private theorem shuts {r : Response} (accounts : w.Accounts calls unscheduled) (shuts : w.Shuts r) :
    r.window.Accounts (calls ++ r.calls) (unscheduled ++ r.unscheduled) := by
  obtain ⟨n, told, odd⟩ := accounts.player
  have closings := accounts.closings
  have scheduled := accounts.scheduled
  have before := accounts.unscheduled
  rw [shuts.before] at told closings scheduled before
  refine ⟨⟨n, ?_, ?_⟩, ?_, ?_, ?_⟩
  · rw [orders_append, told, shuts.player, shuts.after]
    exact congrArg (· ++ _) (List.append_nil _)
  · rw [shuts.playing, odd]
  · rw [List.countP_append, closings, shuts.closings, shuts.after]
    rfl
  · rw [shuts.scheduled, scheduled, shuts.after]
    rfl
  · rw [before, shuts.unscheduled, shuts.after]
    rfl

theorem respond (accounts : w.Accounts calls unscheduled) (e : Event) :
    (w.respond e).window.Accounts (calls ++ (w.respond e).calls)
      (unscheduled ++ (w.respond e).unscheduled) :=
  (stays_or_shuts accounts.open_of_on e).elim accounts.stays accounts.shuts

theorem respondAll (accounts : w.Accounts calls unscheduled) (events : List Event) :
    (w.after events).Accounts (calls ++ (w.respondAll events).flatMap Response.calls)
      (unscheduled ++ (w.respondAll events).flatMap Response.unscheduled) := by
  induction events generalizing w calls unscheduled with
  | nil =>
    rw [Window.respondAll, List.flatMap_nil, List.flatMap_nil, List.append_nil, List.append_nil]
    exact accounts
  | cons e events ih =>
    have rest := ih (accounts.respond e)
    rw [List.append_assoc, List.append_assoc] at rest
    exact rest

/-- While the window is open, the player is playing exactly if the window takes it to be. -/
theorem sounding_iff (accounts : w.Accounts calls unscheduled) (running : w.closed = false) :
    Sounding calls ↔ w.playing = true := by
  obtain ⟨n, told, odd⟩ := accounts.player
  rw [running] at told
  rw [Sounding, told, odd, ← getLast?_turns]
  exact iff_of_eq (congrArg (fun row => row.getLast? = some Order.play) (List.append_nil _))

end Accounts

private theorem accounts_of_opened {session : Watched} {settings : Settings} {w : Window}
    (opening : opened session settings = .ok w) (title : Json) :
    w.Accounts (w.openingCalls title) [] := by
  obtain ⟨-, playing, running, scheduled⟩ := opened_ok opening
  refine ⟨⟨0, ?_, ?_⟩, ?_, ?_, ?_⟩
  · rw [running]
    rfl
  · rw [playing]
    simp
  · rw [running]
    rfl
  · rw [running, scheduled]
    rfl
  · rw [running]
    rfl

/-- Whatever happens to a window after its opening, its player is told to play and to pause in
turns, play first, and nothing after it was given back. A window that is closed, by a failing
machine or by any number of requests, has been closed once, has given its player back once and has
had the clock forget each of its callbacks once; one that is open has done none of this. After an
update that comes back without trouble and leaves the window open, the player is playing exactly if
the sound timer runs; and an update of an open window closes it exactly if the machine fails. -/
theorem buzzer_follows_timer {session : Watched} {settings : Settings} {w : Window}
    (opening : opened session settings = .ok w) (events : List Event) :
    let w' := w.after events
    let calls := w.openingCalls settings.title ++ (w.respondAll events).flatMap Response.calls
    (∃ n, orders calls = turns n ++ if w'.closed then [.delete] else []) ∧
      calls.countP Call.closes = (if w'.closed then 1 else 0) ∧
      (w.respondAll events).flatMap Response.unscheduled = (if w'.closed then callbacks else []) ∧
      w'.scheduled = (if w'.closed then [] else callbacks) ∧
      w'.close.window.closed = true ∧
      ∀ elapsed : Float, w'.closed = false →
        let r := w'.update elapsed
        (r.window.closed = true ↔ w'.Fails elapsed) ∧
          (r.window.closed = false → r.trouble = none →
            (Sounding (calls ++ r.calls) ↔ r.window.machine.soundActive = true)) := by
  intro w' calls
  have accounts : w'.Accounts calls _ :=
    (accounts_of_opened opening settings.title).respondAll events
  obtain ⟨n, told, -⟩ := accounts.player
  refine ⟨⟨n, told⟩, accounts.closings, accounts.unscheduled, accounts.scheduled, w'.closed_close,
    fun elapsed running => ⟨?_, fun still fine => ?_⟩⟩
  · exact closed_update_iff running (accounts.on_of_open running)
  · have next := accounts.respond (.update elapsed)
    rw [← playing_update (accounts.on_of_open running) still fine]
    exact next.sounding_iff still

/-- A machine whose program sets the sound timer to one, does nothing for a while and then comes to
a word without an operation. -/
def shortBeeper : Watched :=
  ⟨Machine.loaded ([0x60, 0x01, 0xF0, 0x18] ++ List.replicate 22 0 ++ [0xFF, 0xFF]),
    .empty .warning⟩

/-- A beep, its end, an instruction that fails, and then two requests to close the window. -/
def beepThenFailure : List Event :=
  [.update 0.005, .update 0.02, .update 0.02, .press .escape, .update 0.02, .close]

theorem short_beep_ends :
    ∃ w, opened shortBeeper .default = .ok w ∧
      let setup := w.openingCalls Settings.default.title
      let first := w.update 0.005
      let responses := w.respondAll beepThenFailure
      let calls := setup ++ responses.flatMap Response.calls
      first.window.machine.soundActive = true ∧ Sounding (setup ++ first.calls) ∧
        (w.after beepThenFailure).closed = true ∧ orders calls = [.play, .pause, .delete] ∧
        calls.countP Call.closes = 1 ∧ responses.flatMap Response.unscheduled = callbacks := by
  have shown : ∃ w ∈ (opened shortBeeper .default).toOption,
      (w.closed = false ∧ (w.update 0.005).window.closed = false ∧
        (w.update 0.005).trouble = none ∧
        (w.update 0.005).window.machine.soundActive = true) ∧
      (w.after beepThenFailure).closed = true ∧
      orders (w.openingCalls Settings.default.title ++
        (w.respondAll beepThenFailure).flatMap Response.calls) = [.play, .pause, .delete] := by
    decide +kernel
  obtain ⟨w, mem, ⟨running, still, fine, active⟩, closed, told⟩ := shown
  have opening : opened shortBeeper .default = .ok w := mem_toOption.mp mem
  obtain ⟨-, -, -, -, -, agrees⟩ := buzzer_follows_timer opening []
  obtain ⟨-, closings, forgotten, -⟩ := buzzer_follows_timer opening beepThenFailure
  rw [closed] at closings forgotten
  have sounding := ((agrees 0.005 running).2 still fine).mpr active
  exact ⟨w, opening, active, sounding, closed, told, closings, forgotten⟩

end Chip8.Window
