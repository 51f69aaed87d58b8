import Mathlib.Logic.Function.Iterate
import Chip8.Proofs.Frame
import Chip8.Proofs.Run

set_option autoImplicit false
set_option relaxedAutoImplicit false

namespace Chip8

namespace Twister

def skip (t : Twister) (count : Nat) : Twister := (fun t => t.nextByte.2)^[count] t

def byteAt (t : Twister) (count : Nat) : UInt8 := (t.skip count).nextByte.1

private theorem skip_succ (t : Twister) (count : Nat) :
    t.skip (count + 1) = t.nextByte.2.skip count :=
  Function.iterate_succ_apply _ _ _

private theorem byteAt_succ (t : Twister) (count : Nat) :
    t.byteAt (count + 1) = t.nextByte.2.byteAt count := by
  rw [byteAt, skip_succ]
  rfl

end Twister

namespace Machine

variable {m b : Machine} {i : Instruction} {c : Command} {value : UInt8}

def obeyAll (m : Machine) (cs : List Command) : Machine := cs.foldl obey m

/-- The instruction that a command has draw from the random stream, if it does, with what its
register holds after it. -/
def draw? (m : Machine) : Command → Option (Instruction × UInt8)
  | .event .step =>
    match m.step with
    | (after, .ok i) => if i.opcode = .random then some (i, after.v i.x) else none
    | (_, .error _) => none
  | _ => none

def draws (m : Machine) : List Command → List (Instruction × UInt8)
  | [] => []
  | c :: cs => (m.draw? c).toList ++ (m.obey c).draws cs

private theorem step_of_draw (drawn : m.draw? c = some (i, value)) :
    c = .event .step ∧ m.step.2 = .ok i ∧ i.opcode = .random ∧ value = m.step.1.v i.x := by
  unfold draw? at drawn
  split at drawn
  · split at drawn
    · rename_i after i' result
      split at drawn
      · rename_i op
        cases drawn
        rw [result]
        exact ⟨rfl, rfl, op, rfl⟩
      · cases drawn
    · cases drawn
  · cases drawn

private theorem random_of_draw (drawn : m.draw? c = some (i, value)) :
    value = m.random.nextByte.1 &&& i.nn ∧ (m.obey c).random = m.random.nextByte.2 := by
  obtain ⟨rfl, done, op, rfl⟩ := step_of_draw drawn
  obtain ⟨word, after, -, -, run, result⟩ := run_of_step done
  rw [perform, op] at run
  cases run
  rw [obey, next, result]
  exact ⟨(v_setV _ i.x i.x _).trans (if_pos rfl), rfl⟩

private theorem random_reset (m : Machine) : m.reset.random = m.random := by
  simp only [reset]

private theorem random_load (m : Machine) (p : List UInt8) : (m.load p).1.random = m.random := by
  unfold load
  dsimp only
  split
  · exact random_reset m
  · dsimp only
    exact random_reset m

private theorem random_of_no_draw (undrawn : m.draw? c = none) : (m.obey c).random = m.random := by
  cases c with
  | load p => exact random_load m p
  | reset => exact random_reset m
  | event e =>
    cases e with
    | tick => rfl
    | key key down =>
      obtain ⟨keys, pressed, result, -⟩ := next_key_kept m key down
      rw [obey, result]
    | step =>
      rw [obey, next]
      cases m.stepped with
      | unfetched cause fetched result =>
        rw [result]
        rfl
      | refused word cause fetched run result =>
        rw [result]
        rfl
      | done word after fetched run result =>
        have op : (Instruction.decode word.toNat).opcode ≠ .random := by
          intro random
          rw [draw?, result] at undrawn
          simp [random] at undrawn
        rw [result]
        exact (perform_effect run).kept.random op

/-- The stream has moved on by one byte for every draw. -/
theorem random_after (m : Machine) (cs : List Command) :
    (m.obeyAll cs).random = m.random.skip (m.draws cs).length := by
  induction cs generalizing m with
  | nil => rfl
  | cons c cs ih =>
    rw [obeyAll, List.foldl_cons, ← obeyAll, ih, draws]
    cases drawn : m.draw? c with
    | none => rw [random_of_no_draw drawn, Option.toList_none, List.nil_append]
    | some draw =>
      rw [(random_of_draw drawn).2, Option.toList_some, List.singleton_append, List.length_cons,
        Twister.skip_succ]

/-- The draws take the bytes of the stream one after the other. -/
theorem draws_take_stream (m : Machine) (cs : List Command) {k : Nat}
    (drawn : (m.draws cs)[k]? = some (i, value)) : value = m.random.byteAt k &&& i.nn := by
  induction cs generalizing m k with
  | nil => simp [draws] at drawn
  | cons c cs ih =>
    rw [draws] at drawn
    cases first : m.draw? c with
    | none =>
      rw [first, Option.toList_none, List.nil_append] at drawn
      rw [← random_of_no_draw first]
      exact ih (m.obey c) drawn
    | some draw =>
      rw [first, Option.toList_some, List.singleton_append] at drawn
      cases k with
      | zero =>
        cases drawn
        exact (random_of_draw first).1
      | succ k =>
        rw [Twister.byteAt_succ, ← (random_of_draw first).2]
        exact ih (m.obey c) drawn

private theorem random_of_seed {s : Settings} {seed : Int} (built : s.machine = .ok b)
    (seeded : s.seed.number? = some (.int seed)) : b.random = .ofSeed seed := by
  have stream : Settings.randomOf s.seed = .ok (.ofSeed seed) := by
    cases given : s.seed <;> rw [given] at seeded <;> cases seeded <;> rfl
  unfold Settings.machine at built
  rw [stream] at built
  cases slots : Settings.stackOf s.stackDepth with
  | error reason =>
    rw [slots] at built
    cases built
  | ok stack =>
    rw [slots] at built
    cases built
    rfl

/-- Over all that is done with a machine, loads and resets included, the instructions that draw get
the bytes of the stream of its seed one after the other, each under its own mask, and nothing else
takes a byte. So machines of the same seed get the same byte for the same number of draws, whatever
they run. -/
theorem draws_follow_seed {s : Settings} {seed : Int} (built : s.machine = .ok b)
    (seeded : s.seed.number? = some (.int seed)) (cs : List Command) :
    (∀ k i value, (b.draws cs)[k]? = some (i, value) →
        value = (Twister.ofSeed seed).byteAt k &&& i.nn) ∧
      (b.obeyAll cs).random = (Twister.ofSeed seed).skip (b.draws cs).length ∧
      (∀ c, (b.obeyAll cs).draw? c = none →
        ((b.obeyAll cs).obey c).random = (b.obeyAll cs).random) ∧
      ∀ (s' : Settings) (b' : Machine) (cs' : List Command), s'.machine = .ok b' →
        s'.seed.number? = some (.int seed) →
          ∀ (k : Nat) (i i' : Instruction) (value value' : UInt8),
            (b.draws cs)[k]? = some (i, value) → (b'.draws cs')[k]? = some (i', value') →
              ∃ byte, value = byte &&& i.nn ∧ value' = byte &&& i'.nn := by
  have start := random_of_seed built seeded
  have law (k : Nat) (i : Instruction) (value : UInt8)
      (drawn : (b.draws cs)[k]? = some (i, value)) :
      value = (Twister.ofSeed seed).byteAt k &&& i.nn := by
    rw [← start]
    exact draws_take_stream b cs drawn
  refine ⟨law, ?_, fun c undrawn => random_of_no_draw undrawn, ?_⟩
  · rw [← start]
    exact random_after b cs
  · intro s' b' cs' built' seeded' k i i' value value' drawn drawn'
    refine ⟨_, law k i value drawn, ?_⟩
    rw [← random_of_seed built' seeded']
    exact draws_take_stream b' cs' drawn'

/-- A program that draws under an empty mask and fails to return from no call, and one that draws
once a tick has passed. -/
def drawsAcrossLoads : List Command :=
  [.load [0xC1, 0x00, 0x00, 0xEE], .event .step, .event .step, .load [0xC3, 0x0F], .event .tick,
    .event .step]

def drawsInOneLoad : List Command :=
  [.load [0xC0, 0xFF, 0xC4, 0xF0], .event .step, .event (.key 2 true), .event .step]

theorem second_draws_share_byte :
    ∃ byte value value',
      ((fresh .modern .halt (.empty 16) (.ofSeed 7)).draws drawsAcrossLoads)[1]? =
          some (.decode 0xC30F, value) ∧
        ((fresh .cosmacVip .skip (.empty 2) (.ofSeed 7)).draws drawsInOneLoad)[1]? =
            some (.decode 0xC4F0, value') ∧
          value = byte &&& 0x0F ∧ value' = byte &&& 0xF0 := by
  have second : (((fresh .modern .halt (.empty 16) (.ofSeed 7)).draws drawsAcrossLoads)[1]?).map
      Prod.fst = some (.decode 0xC30F) := by decide +kernel
  have second' : (((fresh .cosmacVip .skip (.empty 2) (.ofSeed 7)).draws drawsInOneLoad)[1]?).map
      Prod.fst = some (.decode 0xC4F0) := by decide +kernel
  have built : Settings.machine { Settings.default with seed := .int 7 } =
      .ok (fresh .modern .halt (.empty 16) (.ofSeed 7)) := rfl
  have built' : Settings.machine
      ⟨.int 500, .int 60, .int 2, .skip, .int 7, .cosmacVip, .int 10, .null⟩ =
        .ok (fresh .cosmacVip .skip (.empty 2) (.ofSeed 7)) := rfl
  obtain ⟨⟨i, value⟩, drawn, rfl⟩ := Option.map_eq_some_iff.mp second
  obtain ⟨⟨i', value'⟩, drawn', rfl⟩ := Option.map_eq_some_iff.mp second'
  obtain ⟨-, -, -, shared⟩ := draws_follow_seed built rfl drawsAcrossLoads
  obtain ⟨byte, masked, masked'⟩ :=
    shared _ _ drawsInOneLoad built' rfl 1 _ _ value value' drawn drawn'
  exact ⟨byte, value, value', drawn, drawn', masked, masked'⟩

end Machine

end Chip8
