import Chip8.Machine.Watched
import Chip8.Proofs.Invariant

/-!
Loading erases history. Of what has happened to a machine, a reset keeps the settings that it was
built from and the random stream only, so that loading a program leads to the same state from
everywhere.
-/

set_option autoImplicit false
set_option relaxedAutoImplicit false

namespace Chip8.Cartridge

theorem read_eq_ok_iff {path : String} {content bytes : List UInt8} :
    read path content = .ok bytes ↔ content.length ≤ programRoom ∧ bytes = content := by
  unfold read
  split
  · rename_i long
    constructor
    · intro refused
      cases refused
    · rintro ⟨fits, -⟩
      exact absurd long (Nat.not_lt.mpr fits)
  · rename_i fits
    constructor
    · intro accepted
      cases accepted
      exact ⟨Nat.le_of_not_lt fits, rfl⟩
    · rintro ⟨-, rfl⟩
      rfl

end Chip8.Cartridge

namespace Chip8.Machine

variable {m b : Machine} {p : List UInt8}

private theorem reset_eq_fresh (size : m.memory.size = memorySize) :
    m.reset = fresh m.dialect m.policy (.empty m.regs.stack.depth) m.random := by
  rw [reset, fresh, size, Registers.reset, Registers.initial, CallStack.clear, CallStack.clear,
    CallStack.depth_empty]
  rfl

private theorem settings_reset (m : Machine) :
    m.reset.dialect = m.dialect ∧ m.reset.policy = m.policy := by
  simp only [reset, and_self]

private theorem settings_load (m : Machine) (p : List UInt8) :
    (m.load p).1.dialect = m.dialect ∧ (m.load p).1.policy = m.policy := by
  unfold load
  dsimp only
  split
  · exact settings_reset m
  · dsimp only
    exact settings_reset m

private theorem settings_step (m : Machine) :
    m.step.1.dialect = m.dialect ∧ m.step.1.policy = m.policy := by
  cases m.stepped with
  | unfetched cause fetched result =>
    rw [result]
    exact ⟨rfl, rfl⟩
  | refused word cause fetched run result =>
    rw [result]
    exact ⟨rfl, rfl⟩
  | done word after fetched run result =>
    rw [result]
    have kept := (perform_effect run).kept
    exact ⟨kept.dialect, kept.policy⟩

theorem settings_obey (m : Machine) (c : Command) :
    (m.obey c).dialect = m.dialect ∧ (m.obey c).policy = m.policy := by
  cases c with
  | load program => exact settings_load m program
  | reset => exact settings_reset m
  | event e =>
    cases e with
    | step => exact settings_step m
    | tick => exact ⟨rfl, rfl⟩
    | key key down =>
      obtain ⟨keys, pressed, result, -⟩ := next_key_kept m key down
      rw [obey, result]
      exact ⟨rfl, rfl⟩

theorem Reached.settings {s : Settings} (reached : Reached s m) :
    m.dialect = s.dialect ∧ m.policy = s.policy := by
  induction reached with
  | built build random =>
    obtain ⟨depth, random', -, rfl⟩ := Settings.machine_ok build
    exact ⟨rfl, rfl⟩
  | @obeyed n reached c ih =>
    obtain ⟨dialect, policy⟩ := settings_obey n c
    exact ⟨dialect.trans ih.1, policy.trans ih.2⟩

/-- Whatever has happened to a machine, a reset takes it back to what was built, but for the random
stream. -/
theorem Reached.reset_eq {s : Settings} (reached : Reached s m) (built : s.machine = .ok b) :
    m.reset = { b with random := m.random } := by
  obtain ⟨dialect, policy⟩ := reached.settings
  obtain ⟨depth, random, asked, rfl⟩ := Settings.machine_ok built
  have deep : m.regs.stack.depth = depth := by
    have same := reached.depth
    rw [asked] at same
    cases same
    rfl
  rw [reset_eq_fresh reached.sound.size, dialect, policy, deep]
  rfl

private theorem load_of_fits (size : m.memory.size = memorySize) (fits : p.length ≤ programRoom) :
    m.load p =
      ({ m.reset with memory := (bareMemory memorySize).withBlock programStart p }, none) := by
  have bare := reset_memory size
  have room : programStart + p.length ≤ m.reset.memory.size := by
    rw [bare, size_bareMemory]
    change p.length ≤ 4096 - 512 at fits
    change 512 + p.length ≤ 4096
    omega
  have placed : m.reset.memory.place p programStart =
      .ok ((bareMemory memorySize).withBlock programStart p) := by
    rw [Memory.place_of_fits room, bare]
  simp only [load, placed]

private theorem load_of_long (size : m.memory.size = memorySize) (long : programRoom < p.length) :
    m.load p = (m.reset, some (.programTooLong programStart p.length programRoom)) := by
  have bare : m.reset.memory.size = memorySize := by rw [reset_memory size, size_bareMemory]
  have full : m.reset.memory.size < programStart + p.length := by
    rw [bare]
    change 4096 - 512 < p.length at long
    change 4096 < 512 + p.length
    omega
  have refused : m.reset.memory.place p programStart =
      .error (.programTooLong programStart p.length programRoom) := by
    rw [Memory.place_of_long full, bare]
    rfl
  simp only [load, refused]

/-- What memory holds with a program in place: the 80 bytes of the glyphs at its start, the program
from address 512 on, and zero everywhere else. -/
structure Image (memory : Memory) (p : List UInt8) : Prop where
  size : memory.size = 4096
  glyphs : ∀ a < 80, memory.cells[a]? = glyphs[a]?
  program : ∀ k < p.length, memory.cells[512 + k]? = p[k]?
  zero : ∀ a, 80 ≤ a → a < 4096 → (a < 512 ∨ 512 + p.length ≤ a) → memory.cells[a]? = some 0

private theorem length_glyphs : glyphs.length = 80 := rfl

private theorem image_bare : Image (bareMemory memorySize) [] where
  size := size_bareMemory
  glyphs a low := by
    have inside : a < glyphs.length := by rwa [length_glyphs]
    have found := Memory.getElem?_withBlock_inside glyphs_within inside
    have place : (glyphStart : Int).toNat + a = a := Nat.zero_add a
    rw [place] at found
    rw [bareMemory, found]
  program k absurd := nomatch absurd
  zero a low high _ := by
    have inside : a < memorySize := high
    have outside : (glyphStart : Int) + glyphs.length ≤ a := by
      rw [length_glyphs, glyphStart]
      omega
    rw [bareMemory, Memory.getElem?_withBlock_outside glyphs_within (.inr outside),
      Memory.zeroed, Array.getElem?_replicate, if_pos inside]

private theorem image_of_fits (fits : p.length ≤ programRoom) :
    Image ((bareMemory memorySize).withBlock programStart p) p := by
  have within : (bareMemory memorySize).Within programStart p.length := by
    rw [Memory.Within, size_bareMemory]
    change p.length ≤ 4096 - 512 at fits
    change (0 : Int) ≤ 512 ∧ (0 : Int) ≤ p.length ∧ 512 + (p.length : Int) ≤ 4096
    omega
  have kept {a : Nat} (outside : a < 512 ∨ 512 + p.length ≤ a) :
      ((bareMemory memorySize).withBlock programStart p).cells[a]? =
        (bareMemory memorySize).cells[a]? := by
    refine Memory.getElem?_withBlock_outside within ?_
    change (a : Int) < 512 ∨ 512 + (p.length : Int) ≤ a
    omega
  refine ⟨(Memory.size_withBlock within).trans size_bareMemory, fun a low => ?_,
    fun k inside => ?_, fun a low high outside => ?_⟩
  · exact (kept (.inl (Nat.lt_trans low (by decide)))).trans (image_bare.glyphs a low)
  · exact Memory.getElem?_withBlock_inside within inside
  · exact (kept outside).trans (image_bare.zero a low high (Nat.lt_or_ge a 512))

/-- Loading a program that fits leads to the machine just built with the program in place, from
wherever it is done; one that does not fit is refused and leaves the machine as a reset does, with
no byte of it in memory. A program file is accepted exactly if its content can be loaded. In all
this only the random stream tells of what was before. -/
theorem load_forgets {s : Settings} (reached : Reached s m) (built : s.machine = .ok b)
    (path : String) (p : List UInt8) :
    (p.length ≤ 3584 →
      (m.load p).2 = none ∧
        (m.load p).1 = { (b.load p).1 with random := m.random } ∧
        (m.load p).1 = { b with random := m.random, memory := (m.load p).1.memory } ∧
        (m.load p).1.regs.pc = 0x200 ∧ Image (m.load p).1.memory p) ∧
      (3584 < p.length →
        ∃ cause, m.load p = (m.reset, some cause) ∧ cause.kind = .outOfBounds ∧
          cause.extent = some (0x200, (p.length : Int)) ∧ m.reset = { b with random := m.random } ∧
          Image m.reset.memory []) ∧
      ((∃ bytes, Cartridge.read path p = .ok bytes) ↔ (m.load p).2 = none) ∧
      ∀ bytes, Cartridge.read path p = .ok bytes → bytes = p := by
  have size := reached.sound.size
  have size' := (Reached.built built b.random).sound.size
  have back := reached.reset_eq built
  have again : b.reset = b := (Reached.built built b.random).reset_eq built
  have pc : b.regs.pc = 0x200 := by
    rw [← again, reset]
    rfl
  refine ⟨fun fits => ?_, fun long => ?_, ⟨?_, ?_⟩, fun bytes accepted => ?_⟩
  · rw [load_of_fits size fits, load_of_fits size' fits, back, again]
    exact ⟨rfl, rfl, rfl, pc, image_of_fits fits⟩
  · have bare := reset_memory size
    refine ⟨_, load_of_long size long, rfl, rfl, back, ?_⟩
    rw [bare]
    exact image_bare
  · rintro ⟨bytes, accepted⟩
    rw [load_of_fits size (Cartridge.read_eq_ok_iff.mp accepted).1]
  · intro loaded
    rcases Nat.lt_or_ge programRoom p.length with long | fits
    · rw [load_of_long size long] at loaded
      cases loaded
    · exact ⟨p, Cartridge.read_eq_ok_iff.mpr ⟨fits, rfl⟩⟩
  · exact (Cartridge.read_eq_ok_iff.mp accepted).2

/-- A machine inside a call that has overwritten a glyph, started a timer, and been given the key
that it waits for. -/
def worn : Machine :=
  (loaded [0x60, 0x2A, 0xF0, 0x33, 0xF0, 0x15, 0x22, 0x08, 0xF3, 0x0A]).after
    [.step, .step, .step, .step, .step, .key 7 true]

set_option maxRecDepth 20000 in
theorem worn_forgets :
    worn.memory.cells[0]? = some 0 ∧ worn.timers.delay = 42 ∧ worn.regs.stack.sp = 1 ∧
      worn.pressed = some 7 ∧
      (worn.load [0x12, 0x00]).1 =
        { ((fresh .modern .halt (.empty 16) (.ofSeed 0)).load [0x12, 0x00]).1 with
          random := worn.random } := by
  have reached : Reached .default worn := (reached_loaded _).after _
  have built : Settings.default.machine =
      .ok (fresh .modern .halt (.empty 16) (.ofSeed 0)) := rfl
  obtain ⟨fits, -⟩ := load_forgets reached built "maze.ch8" [0x12, 0x00]
  exact ⟨rfl, rfl, rfl, rfl, (fits (by decide)).2.1⟩

end Chip8.Machine
