import Chip8.Pacing

set_option autoImplicit false
set_option relaxedAutoImplicit false

namespace Chip8

inductive Pacer.Call where
  | tick
  | step
  deriving DecidableEq

/-- A device after some calls: those that it came back from, and how the one after them failed. -/
structure Course (σ ε : Type) where
  device : σ
  done : List Pacer.Call
  fault : Option ε

variable {σ ε : Type}

namespace Course

def made (c : Course σ ε) : List Pacer.Call :=
  match c.fault with
  | none => c.done
  | some _ => c.done ++ [.step]

def following (earlier : List Pacer.Call) (c : Course σ ε) : Course σ ε :=
  { c with done := earlier ++ c.done }

section Following

variable (earlier : List Pacer.Call) (c : Course σ ε)

@[simp]
theorem device_following : (c.following earlier).device = c.device := rfl

@[simp]
theorem done_following : (c.following earlier).done = earlier ++ c.done := rfl

@[simp]
theorem fault_following : (c.following earlier).fault = c.fault := rfl

@[simp]
theorem made_following : (c.following earlier).made = earlier ++ c.made := by
  rw [made, made, fault_following, done_following]
  cases c.fault with
  | none => rfl
  | some fault => exact List.append_assoc ..

end Following

variable {c : Course σ ε}

theorem made_of_no_fault (fine : c.fault = none) : c.made = c.done := by
  rw [made, fine]

theorem made_of_fault {fault : ε} (failed : c.fault = some fault) : c.made = c.done ++ [.step] := by
  rw [made, failed]

end Course

namespace Device

/-- A device that is halted by a step that fails, and by nothing else. -/
structure Lawful (d : Device σ ε) : Prop where
  tick : ∀ s, d.halted s = false → d.halted (d.tick s) = false
  step : ∀ s, d.halted s = false → d.halted (d.step s).1 = (d.step s).2.isSome

/-- What holds of a device on and on, however often it ticks and steps. -/
structure Preserves (d : Device σ ε) (P : σ → Prop) : Prop where
  tick : ∀ s, P s → P (d.tick s)
  step : ∀ s, P s → P (d.step s).1

/-- Makes calls one after another, up to the first that fails. -/
def course (d : Device σ ε) : σ → List Pacer.Call → Course σ ε
  | s, [] => ⟨s, [], none⟩
  | s, .tick :: calls => (d.course (d.tick s) calls).following [.tick]
  | s, .step :: calls =>
    match d.step s with
    | (s, some fault) => ⟨s, [], some fault⟩
    | (s, none) => (d.course s calls).following [.step]

variable {d : Device σ ε} {s : σ} {calls : List Pacer.Call} {fault : ε}

theorem course_of_fault {s' : σ} (failed : d.step s = (s', some fault))
    (calls : List Pacer.Call) : d.course s (.step :: calls) = ⟨s', [], some fault⟩ := by
  rw [course, failed]

theorem course_of_step {s' : σ} (stepped : d.step s = (s', none)) (calls : List Pacer.Call) :
    d.course s (.step :: calls) = (d.course s' calls).following [.step] := by
  rw [course, stepped]

/-- Induction along the calls of a course. -/
theorem course_induction {motive : σ → List Pacer.Call → Prop} (d : Device σ ε)
    (nil : ∀ s, motive s [])
    (tick : ∀ s calls, motive (d.tick s) calls → motive s (.tick :: calls))
    (fault : ∀ s s' fault calls, d.step s = (s', some fault) → motive s (.step :: calls))
    (step : ∀ s s' calls, d.step s = (s', none) → motive s' calls → motive s (.step :: calls))
    (s : σ) (calls : List Pacer.Call) : motive s calls := by
  induction calls generalizing s with
  | nil => exact nil s
  | cons call calls ih =>
    cases call with
    | tick => exact tick s calls (ih _)
    | step =>
      cases stepped : d.step s with
      | mk s' failure =>
        cases failure with
        | none => exact step s s' calls stepped (ih s')
        | some found => exact fault s s' found calls stepped

theorem Preserves.course {P : σ → Prop} (preserves : d.Preserves P) (holds : P s) :
    P (d.course s calls).device := by
  induction s, calls using course_induction d with
  | nil s => exact holds
  | tick s calls ih => exact ih (preserves.tick s holds)
  | fault s s' fault calls failed =>
    have stepped := preserves.step s holds
    rw [failed] at stepped
    rw [course_of_fault failed]
    exact stepped
  | step s s' calls stepped ih =>
    have kept := preserves.step s holds
    rw [stepped] at kept
    rw [course_of_step stepped]
    exact ih kept

theorem done_of_no_fault (fine : (d.course s calls).fault = none) :
    (d.course s calls).done = calls := by
  induction s, calls using course_induction d with
  | nil s => rfl
  | tick s calls ih => exact congrArg _ (ih fine)
  | fault s s' fault calls failed =>
    rw [course_of_fault failed] at fine
    cases fine
  | step s s' calls stepped ih =>
    rw [course_of_step stepped] at fine ⊢
    exact congrArg _ (ih fine)

theorem made_prefix (d : Device σ ε) (s : σ) (calls : List Pacer.Call) :
    (d.course s calls).made <+: calls := by
  induction s, calls using course_induction d with
  | nil s => exact List.nil_prefix
  | tick s calls ih =>
    rw [course, Course.made_following]
    exact List.cons_prefix_cons.mpr ⟨rfl, ih⟩
  | fault s s' fault calls failed =>
    rw [course_of_fault failed]
    exact List.cons_prefix_cons.mpr ⟨rfl, List.nil_prefix⟩
  | step s s' calls stepped ih =>
    rw [course_of_step stepped, Course.made_following]
    exact List.cons_prefix_cons.mpr ⟨rfl, ih⟩

theorem course_append_of_fault (failed : (d.course s calls).fault = some fault)
    (more : List Pacer.Call) : d.course s (calls ++ more) = d.course s calls := by
  induction s, calls using course_induction d with
  | nil s => cases failed
  | tick s calls ih => rw [List.cons_append, course, course, ih failed]
  | fault s s' found calls here =>
    rw [List.cons_append, course_of_fault here, course_of_fault here]
  | step s s' calls stepped ih =>
    rw [course_of_step stepped] at failed
    rw [List.cons_append, course_of_step stepped, course_of_step stepped, ih failed]

theorem course_append_of_no_fault (fine : (d.course s calls).fault = none)
    (more : List Pacer.Call) :
    d.course s (calls ++ more) =
      (d.course (d.course s calls).device more).following calls := by
  induction s, calls using course_induction d with
  | nil s => rfl
  | tick s calls ih =>
    rw [List.cons_append, course, course, ih fine]
    rfl
  | fault s s' fault calls failed =>
    rw [course_of_fault failed] at fine
    cases fine
  | step s s' calls stepped ih =>
    rw [course_of_step stepped] at fine
    rw [List.cons_append, course_of_step stepped, course_of_step stepped, ih fine]
    rfl

theorem Lawful.halted_course (lawful : d.Lawful) (running : d.halted s = false)
    (calls : List Pacer.Call) :
    d.halted (d.course s calls).device = (d.course s calls).fault.isSome := by
  induction s, calls using course_induction d with
  | nil s => exact running
  | tick s calls ih => exact ih (lawful.tick s running)
  | fault s s' fault calls failed =>
    rw [course_of_fault failed]
    simpa [failed] using lawful.step s running
  | step s s' calls stepped ih =>
    rw [course_of_step stepped]
    exact ih (by simpa [stepped] using lawful.step s running)

def recorded (d : Device σ ε) : Device (σ × List Pacer.Call) ε where
  halted s := d.halted s.1
  tick s := (d.tick s.1, s.2 ++ [.tick])
  step s := (((d.step s.1).1, s.2 ++ [.step]), (d.step s.1).2)

theorem Lawful.recorded (lawful : d.Lawful) : d.recorded.Lawful :=
  ⟨fun s => lawful.tick s.1, fun s => lawful.step s.1⟩

theorem recorded_course (d : Device σ ε) (s : σ) (past calls : List Pacer.Call) :
    d.recorded.course (s, past) calls =
      ⟨((d.course s calls).device, past ++ (d.course s calls).made), (d.course s calls).done,
        (d.course s calls).fault⟩ := by
  induction s, calls using course_induction d generalizing past with
  | nil s => rw [course, course, Course.made, List.append_nil]
  | tick s calls ih =>
    have next := ih (past ++ [.tick])
    rw [List.append_assoc] at next
    rw [course, course, Course.made_following]
    exact congrArg _ next
  | fault s s' fault calls failed =>
    have recorded : d.recorded.step (s, past) = ((s', past ++ [.step]), some fault) := by
      simp only [Device.recorded, failed]
    rw [course_of_fault failed, course_of_fault recorded]
    rfl
  | step s s' calls stepped ih =>
    have recorded : d.recorded.step (s, past) = ((s', past ++ [.step]), none) := by
      simp only [Device.recorded, stepped]
    have next := ih (past ++ [.step])
    rw [List.append_assoc] at next
    rw [course_of_step stepped, course_of_step recorded, Course.made_following]
    exact congrArg _ next

end Device

namespace Pacer

variable {τ : Type}

def Outcome.failures (o : Outcome τ σ ε) : List (Failure ε) :=
  match o.result with
  | .error failure => [failure]
  | .ok _ => []

/-- A pacer and its device after some advances, and the failures on the way. -/
structure Fed (τ σ ε : Type) where
  pacer : Pacer τ
  device : σ
  failures : List (Failure ε)

def Outcome.fed (o : Outcome τ σ ε) : Fed τ σ ε := ⟨o.pacer, o.device, o.failures⟩

section Settle

variable [OfNat τ 0] [Sub τ] [LE τ] [DecidableLE τ] {d : Device σ ε} {p : Pacer τ} {s s' : σ}

theorem settle_of_nothing (due : p.due = .nothing) (limit made : Nat) :
    settle d (limit + 1) p s made = some ⟨p, s, .ok made⟩ := by
  rw [settle.eq_def]
  simp only [due]

theorem settle_of_tick (due : p.due = .tick) (limit made : Nat) :
    settle d (limit + 1) p s made = settle d limit p.payTick.countTick (d.tick s) made := by
  rw [settle.eq_def]
  simp only [due]

theorem settle_of_fault {fault : ε} (due : p.due = .step) (failed : d.step s = (s', some fault))
    (limit made : Nat) :
    settle d (limit + 1) p s made = some ⟨p.payStep.reset, s', .error (.step fault)⟩ := by
  rw [settle.eq_def]
  simp only [due, failed]

theorem settle_of_step (due : p.due = .step) (stepped : d.step s = (s', none))
    (limit made : Nat) :
    settle d (limit + 1) p s made = settle d limit p.payStep.countStep s' (made + 1) := by
  rw [settle.eq_def]
  simp only [due, stepped]

end Settle

variable [OfNat τ 0] [Add τ] [Sub τ] [LE τ] [LT τ] [DecidableLE τ] [DecidableLT τ]

def feed (d : Device σ ε) (limit : Nat) (p : Pacer τ) (s : σ) : List τ → Option (Fed τ σ ε)
  | [] => some ⟨p, s, []⟩
  | elapsed :: samples =>
    match advance d limit p s elapsed with
    | none => none
    | some o =>
      (feed d limit o.pacer o.device samples).map fun r =>
        { r with failures := o.failures ++ r.failures }

theorem feed_of_halted {d : Device σ ε} {s : σ} (halted : d.halted s = true) (limit : Nat)
    (p : Pacer τ) (samples : List τ) : feed d limit p s samples = some ⟨p, s, []⟩ := by
  induction samples with
  | nil => rfl
  | cons elapsed samples ih =>
    rw [feed, advance, if_pos halted]
    exact congrArg (Option.map _) ih

end Pacer

end Chip8
