import Mathlib.Data.List.Induction
import Chip8.Proofs.Memory

set_option autoImplicit false
set_option relaxedAutoImplicit false

namespace Chip8.Memory

inductive Access where
  | read (address : Int)
  | write (address value : Int)
  | readWord (address : Int)
  | readBlock (address length : Int)
  | writeBlock (address : Int) (values : List Int)
  | loadProgram (program : List Int) (offset : Int)
  | loadFonts (font : List Int) (base : Int)
  | clear
  deriving DecidableEq

inductive Reply where
  | done
  | byte (b : UInt8)
  | word (w : UInt16)
  | bytes (bs : List UInt8)
  deriving DecidableEq

/-- Memory as changing it leaves it, cut short or not. -/
def change (m : Memory) (work : Work Refusal Unit) : Memory × Except Refusal Reply :=
  leaving (fun _ => .done) m work

def serve (m : Memory) : Access → Memory × Except Refusal Reply
  | .read a => (m, ((m.read a).map .byte).mapError .fault)
  | .write a v => m.change ((writing a v).adaptExcept .fault)
  | .readWord a => (m, ((m.readWord a).map .word).mapError .fault)
  | .readBlock a n => (m, ((m.readBlock a n).map .bytes).mapError .fault)
  | .writeBlock a vs => m.change (writingBlock a vs)
  | .loadProgram vs a => m.change (loadingProgram vs a)
  | .loadFonts vs a => m.change (writingBlock a vs)
  | .clear => (m.clear, .ok .done)

def after (m : Memory) (history : List Access) : Memory :=
  history.foldl (fun m c => (m.serve c).1) m

namespace Access

/-- Where an access writes numbers, and which. A single number is cut to a byte. -/
def stores? : Access → Option (Int × List Int)
  | write a v => some (a, [v % 256])
  | writeBlock a vs => some (a, vs)
  | loadProgram vs a => some (a, vs)
  | loadFonts vs a => some (a, vs)
  | _ => none

def span? : Access → Option (Int × Int)
  | read a => some (a, 1)
  | readWord a => some (a, 2)
  | readBlock a n => some (a, n)
  | clear => none
  | c => c.stores?.map fun (a, vs) => (a, vs.length)

def AllBytes (c : Access) : Prop := ∀ block ∈ c.stores?, ∀ v ∈ block.2, 0 ≤ v ∧ v < 256

def Inside (size : Nat) (c : Access) : Prop :=
  ∀ span ∈ c.span?, 0 ≤ span.1 ∧ 0 ≤ span.2 ∧ span.1 + span.2 ≤ size

def Granted (size : Nat) (c : Access) : Prop := c.AllBytes ∧ c.Inside size

instance (c : Access) : Decidable c.AllBytes := inferInstanceAs (Decidable (∀ _ ∈ _, _))

instance (size : Nat) (c : Access) : Decidable (c.Inside size) :=
  inferInstanceAs (Decidable (∀ _ ∈ _, _))

instance (size : Nat) (c : Access) : Decidable (c.Granted size) :=
  inferInstanceAs (Decidable (_ ∧ _))

/-- What an access writes at an address if it is granted. Clearing writes a zero everywhere. -/
def writes? (c : Access) (address : Int) : Option Int :=
  if c = clear then some 0
  else c.stores?.bind fun (a, vs) => if a ≤ address then vs[(address - a).toNat]? else none

/-- A reply to an access that finds the given numbers in memory. -/
def Answers (found : Int → Int) : Access → Reply → Prop
  | read a, .byte b => (b.toNat : Int) = found a
  | readWord a, .word w => (w.toNat : Int) = 256 * found a + found (a + 1)
  | readBlock a n, .bytes bs =>
    (bs.length : Int) = n ∧ ∀ k : Nat, ∀ b ∈ bs[k]?, (b.toNat : Int) = found (a + k)
  | write _ _, .done | writeBlock _ _, .done | loadProgram _ _, .done | loadFonts _ _, .done
  | clear, .done => True
  | _, _ => False

end Access

/-- What the last granted access to write at an address has written there; zero if there is none. -/
def lastWritten (size : Nat) (history : List Access) (address : Int) : Int :=
  ((history.reverse.filter fun c => c.Granted size).findSome? (·.writes? address)).getD 0

private theorem lastWritten_snoc_of_granted {size : Nat} {c : Access} (granted : c.Granted size)
    (history : List Access) :
    lastWritten size (history ++ [c]) =
      fun a => (c.writes? a).getD (lastWritten size history a) := by
  funext a
  unfold lastWritten
  rw [List.reverse_append, List.reverse_singleton, List.singleton_append,
    List.filter_cons_of_pos (by simpa using granted), List.findSome?_cons]
  cases c.writes? a <;> rfl

private theorem lastWritten_snoc_of_refused {size : Nat} {c : Access} (refused : ¬ c.Granted size)
    (history : List Access) :
    lastWritten size (history ++ [c]) = lastWritten size history := by
  funext a
  unfold lastWritten
  rw [List.reverse_append, List.reverse_singleton, List.singleton_append,
    List.filter_cons_of_neg (by simpa using refused)]

private theorem after_snoc (m : Memory) (history : List Access) (c : Access) :
    m.after (history ++ [c]) = ((m.after history).serve c).1 := by
  rw [after, List.foldl_append]
  rfl

/-- Memory of this size in which these numbers are found. -/
structure Shows (m : Memory) (size : Nat) (found : Int → Int) : Prop where
  size_eq : m.size = size
  found_at : ∀ a : Int, 0 ≤ a → a < size → ∃ b, m.get? a = some b ∧ (b.toNat : Int) = found a

inductive Stored (m : Memory) (address : Int) (values : List Int) :
    EStateM.Result Refusal Memory Unit → Prop where
  | notBytes : (¬ ∀ v ∈ values, 0 ≤ v ∧ v < 256) →
      Stored m address values (.error (.misuse .notBytes) m)
  | outside {cause : Cause} : (∀ v ∈ values, 0 ≤ v ∧ v < 256) →
      ¬ m.Within address values.length → cause.kind = .outOfBounds →
      cause.extent = some (address, (values.length : Int)) →
      Stored m address values (.error (.fault cause) m)
  | done {bytes : List UInt8} {m' : Memory} : bytes.map (fun b => (b.toNat : Int)) = values →
      m.store address bytes = .ok m' → Stored m address values (.ok () m')

inductive Served (size : Nat) (found : Int → Int) (m : Memory) (c : Access) :
    Memory × Except Refusal Reply → Prop where
  | notBytes : ¬ c.AllBytes → Served size found m c (m, .error (.misuse .notBytes))
  | outside {cause : Cause} : c.AllBytes → ¬ c.Inside size → cause.kind = .outOfBounds →
      cause.extent = c.span? → Served size found m c (m, .error (.fault cause))
  | granted {m' : Memory} {reply : Reply} : c.Granted size → c.Answers found reply →
      m'.Shows size (fun a => (c.writes? a).getD (found a)) →
      Served size found m c (m', .ok reply)

theorem toNat_ofInt (v : Int) : ((UInt8.ofInt v).toNat : Int) = v % 256 := by
  have whole : (2 : Int) ^ 8 = 256 := rfl
  rw [UInt8.ofInt, whole, UInt8.toNat_ofNat']
  omega

private theorem byte_of_toNat (b : UInt8) : 0 ≤ (b.toNat : Int) ∧ (b.toNat : Int) < 256 := by
  have bound := b.toNat_lt
  omega

private theorem bytesOf?_eq_some {values : List Int} (bytes : ∀ v ∈ values, 0 ≤ v ∧ v < 256) :
    ∃ bs, bytesOf? values = some bs ∧ bs.map (fun b => (b.toNat : Int)) = values := by
  induction values with
  | nil => exact ⟨[], rfl, rfl⟩
  | cons v vs ih =>
    rw [List.forall_mem_cons] at bytes
    obtain ⟨bs, some_bs, map_bs⟩ := ih bytes.2
    refine ⟨UInt8.ofInt v :: bs, ?_, ?_⟩
    · rw [bytesOf?, if_pos bytes.1, some_bs]
      rfl
    · rw [List.map_cons, map_bs, toNat_ofInt, Int.emod_eq_of_lt bytes.1.1 bytes.1.2]

private theorem bytesOf?_eq_none {values : List Int} (other : ¬ ∀ v ∈ values, 0 ≤ v ∧ v < 256) :
    bytesOf? values = none := by
  induction values with
  | nil => exact absurd (List.forall_mem_nil _) other
  | cons v vs ih =>
    rw [bytesOf?]
    split
    · rename_i byte
      rw [ih fun rest => other (List.forall_mem_cons.mpr ⟨byte, rest⟩)]
      rfl
    · rfl

section Storing

variable {m : Memory} {address : Int} {values : List Int}

/-- Bytes are stored where they lie within memory; else nothing is changed before that is seen. -/
theorem Stored.of_storing {bytes : List UInt8}
    (map : bytes.map (fun b => (b.toNat : Int)) = values) :
    Stored m address values ((storing address bytes).adaptExcept .fault m) := by
  subst map
  have bytes_all : ∀ v ∈ bytes.map (fun b => (b.toNat : Int)), 0 ≤ v ∧ v < 256 :=
    List.forall_mem_map.mpr fun b _ => byte_of_toNat b
  have stored := store_eq m address bytes
  by_cases within : m.Within address bytes.length
  · rw [adapt_of_ok (storing_of_within within)]
    rw [if_pos within] at stored
    exact .done rfl stored
  · rw [adapt_of_error (storing_of_not_within within)]
    refine .outside bytes_all ?_ rfl ?_
    · rwa [List.length_map]
    · rw [List.length_map]
      rfl

private theorem stored_writing (m : Memory) (address value : Int) :
    Stored m address [value % 256] ((writing address value).adaptExcept .fault m) := by
  refine .of_storing ?_
  rw [List.map_singleton, toNat_ofInt]

private theorem stored_writingBlock (m : Memory) (address : Int) (values : List Int) :
    Stored m address values (writingBlock address values m) := by
  unfold writingBlock
  by_cases bytes : ∀ v ∈ values, 0 ≤ v ∧ v < 256
  · obtain ⟨bs, some_bs, map_bs⟩ := bytesOf?_eq_some bytes
    rw [some_bs]
    exact .of_storing map_bs
  · rw [bytesOf?_eq_none bytes]
    exact .notBytes bytes

private theorem stored_loadingProgram (m : Memory) (address : Int) (program : List Int) :
    Stored m address program (loadingProgram program address m) := by
  unfold loadingProgram
  by_cases bytes : ∀ v ∈ program, 0 ≤ v ∧ v < 256
  · obtain ⟨bs, some_bs, map_bs⟩ := bytesOf?_eq_some bytes
    have length : program.length = bs.length := by rw [← map_bs, List.length_map]
    rw [some_bs]
    dsimp only
    by_cases fits : address + bs.length ≤ m.size
    · have placing := placing_of_fits fits
      have stored : Stored m address program ((storing address bs).adaptExcept .fault m) :=
        .of_storing map_bs
      rw [EStateM.adaptExcept] at stored ⊢
      rwa [placing]
    · -- a program too long is one kind of access outside memory
      rw [adapt_of_error (placing_of_long (by omega))]
      refine .outside bytes ?_ rfl ?_
      · rintro ⟨-, -, inside⟩
        omega
      · rw [length]
        rfl
  · rw [bytesOf?_eq_none bytes]
    exact .notBytes bytes

end Storing

private theorem serve_of_stores (m : Memory) {c : Access} {address : Int} {values : List Int}
    (stores : c.stores? = some (address, values)) :
    ∃ work : Work Refusal Unit, Stored m address values (work m) ∧ m.serve c = m.change work := by
  cases c with
  | write a v =>
    cases stores
    exact ⟨_, stored_writing m address v, rfl⟩
  | writeBlock a vs | loadFonts vs a =>
    cases stores
    exact ⟨_, stored_writingBlock m address values, rfl⟩
  | loadProgram vs a =>
    cases stores
    exact ⟨_, stored_loadingProgram m address values, rfl⟩
  | _ => cases stores

namespace Access

variable {size : Nat} {c : Access} {address : Int} {values : List Int}

private theorem allBytes_iff (stores : c.stores? = some (address, values)) :
    c.AllBytes ↔ ∀ v ∈ values, 0 ≤ v ∧ v < 256 := by
  simp [AllBytes, stores]

private theorem span?_of_stores (stores : c.stores? = some (address, values)) :
    c.span? = some (address, (values.length : Int)) := by
  cases c <;> cases stores <;> rfl

private theorem inside_iff {length : Int} (span : c.span? = some (address, length)) :
    c.Inside size ↔ 0 ≤ address ∧ 0 ≤ length ∧ address + length ≤ size := by
  simp [Inside, span]

private theorem writes?_of_stores (stores : c.stores? = some (address, values)) (a : Int) :
    c.writes? a = if address ≤ a then values[(a - address).toNat]? else none := by
  have other : c ≠ clear := by
    rintro rfl
    cases stores
  rw [writes?, if_neg other, stores]
  rfl

private theorem answers_done (stores : c.stores? = some (address, values)) (found : Int → Int) :
    c.Answers found .done := by
  cases c <;> trivial

end Access

private theorem shows_zeroed (size : Nat) : (zeroed size).Shows size fun _ => 0 where
  size_eq := Array.size_replicate ..
  found_at a low high := by
    have inside : a.toNat < size := by omega
    refine ⟨0, get?_eq_some_iff.mpr ⟨low, ?_⟩, rfl⟩
    exact (Array.getElem?_replicate ..).trans (if_pos inside)

namespace Shows

variable {m : Memory} {size : Nat} {found : Int → Int}

private theorem within_iff (shows : m.Shows size found) {address length : Int} :
    m.Within address length ↔ 0 ≤ address ∧ 0 ≤ length ∧ address + length ≤ size := by
  rw [Within, shows.size_eq]

theorem store (shows : m.Shows size found) {c : Access} {address : Int} {bytes : List UInt8}
    {m' : Memory} (stores : c.stores? = some (address, bytes.map fun b => (b.toNat : Int)))
    (store : m.store address bytes = .ok m') :
    m'.Shows size fun a => (c.writes? a).getD (found a) where
  size_eq := (size_store store).trans shows.size_eq
  found_at a low high := by
    rw [Access.writes?_of_stores stores]
    by_cases covered : address ≤ a ∧ a < address + bytes.length
    · obtain ⟨k, rfl⟩ : ∃ k : Nat, a = address + k := ⟨(a - address).toNat, by omega⟩
      have inside : k < bytes.length := by omega
      have place : (address + k - address).toNat = k := by omega
      refine ⟨bytes[k], ?_, ?_⟩
      · rw [get?_store_inside store inside, List.getElem?_eq_getElem inside]
      · rw [if_pos covered.1, place, List.getElem?_map, List.getElem?_eq_getElem inside]
        rfl
    · obtain ⟨b, there, value⟩ := shows.found_at a low high
      refine ⟨b, (get?_store_outside store (by omega)).trans there, value.trans ?_⟩
      split
      · rw [List.getElem?_eq_none (by rw [List.length_map]; omega)]
        rfl
      · rfl

private theorem served_of_stores (shows : m.Shows size found) {c : Access} {address : Int}
    {values : List Int} (stores : c.stores? = some (address, values)) :
    Served size found m c (m.serve c) := by
  have span := Access.span?_of_stores stores
  obtain ⟨work, stored, eq⟩ := serve_of_stores m stores
  rw [eq, change, leaving]
  generalize work m = result at stored
  cases stored with
  | notBytes other => exact .notBytes fun bytes => other ((Access.allBytes_iff stores).mp bytes)
  | outside bytes outside kind extent =>
    rw [shows.within_iff] at outside
    exact .outside ((Access.allBytes_iff stores).mpr bytes)
      (fun inside => outside ((Access.inside_iff span).mp inside)) kind (extent.trans span.symm)
  | @done bytes m' map store =>
    subst map
    have within : m.Within address (bytes.length : Int) := by
      by_contra outside
      rw [store_of_not_within outside] at store
      cases store
    refine .granted ⟨?_, ?_⟩ (Access.answers_done stores found) (shows.store stores store)
    · rw [Access.allBytes_iff stores]
      exact List.forall_mem_map.mpr fun b _ => byte_of_toNat b
    · rw [Access.inside_iff span, List.length_map]
      exact shows.within_iff.mp within

private theorem served_of_reads {α : Type} (shows : m.Shows size found) {c : Access}
    {address length : Int} (span : c.span? = some (address, length)) (stores : c.stores? = none)
    {result : Except Cause α} {wrap : α → Reply}
    (serve : m.serve c = (m, (result.map wrap).mapError .fault))
    (ok : ∀ x, result = .ok x → m.Within address length ∧ c.Answers found (wrap x))
    (error : ∀ cause, result = .error cause →
      cause = .outOfBounds address length ∧ ¬ m.Within address length) :
    Served size found m c (m.serve c) := by
  have bytes : c.AllBytes := by simp [Access.AllBytes, stores]
  have writes (a : Int) : c.writes? a = none := by
    have other : c ≠ .clear := by
      rintro rfl
      cases span
    rw [Access.writes?, if_neg other, stores]
    rfl
  rw [serve]
  cases result with
  | ok x =>
    obtain ⟨within, answers⟩ := ok x rfl
    refine .granted ⟨bytes, (Access.inside_iff span).mpr (shows.within_iff.mp within)⟩ answers ?_
    simpa only [writes, Option.getD_none] using shows
  | error cause =>
    obtain ⟨rfl, outside⟩ := error cause rfl
    refine .outside bytes (fun inside => outside ?_) rfl span.symm
    exact shows.within_iff.mpr ((Access.inside_iff span).mp inside)

private theorem found_eq (shows : m.Shows size found) {a : Int} {b : UInt8}
    (there : m.get? a = some b) :
    (b.toNat : Int) = found a := by
  obtain ⟨low, cell⟩ := get?_eq_some_iff.mp there
  obtain ⟨inside, -⟩ := Array.getElem?_eq_some_iff.mp cell
  have size_eq : m.cells.size = size := shows.size_eq
  obtain ⟨b', there', value⟩ := shows.found_at a low (by omega)
  rw [there] at there'
  cases there'
  exact value

private theorem served_clear (shows : m.Shows size found) :
    Served size found m .clear (m.serve .clear) := by
  have same : m.clear = zeroed size := by rw [clear, shows.size_eq]
  refine .granted ⟨by simp [Access.AllBytes, Access.stores?], by simp [Access.Inside, Access.span?]⟩
    trivial ?_
  rw [same]
  exact shows_zeroed size

private theorem served (shows : m.Shows size found) (c : Access) :
    Served size found m c (m.serve c) := by
  cases c with
  | read a =>
    refine shows.served_of_reads rfl rfl rfl (fun b read => ?_) fun _ => read_error
    obtain ⟨within, there⟩ := read_ok read
    exact ⟨within, shows.found_eq there⟩
  | readWord a =>
    refine shows.served_of_reads rfl rfl rfl (fun word read => ?_) fun _ => readWord_error
    obtain ⟨high, low, first, second, value⟩ := readWord_eq_ok_iff.mp read
    refine ⟨readWord_ok read, ?_⟩
    rw [Access.Answers, ← shows.found_eq first, ← shows.found_eq second]
    omega
  | readBlock a n =>
    refine shows.served_of_reads rfl rfl rfl (fun bs read => ?_) fun _ => readBlock_error
    refine ⟨readBlock_ok read, length_readBlock read, fun k b there => shows.found_eq ?_⟩
    have inside : k < bs.length := (List.getElem?_eq_some_iff.mp there).1
    exact (getElem?_readBlock read inside).symm.trans there
  | write | writeBlock | loadProgram | loadFonts => exact shows.served_of_stores rfl
  | clear => exact shows.served_clear

end Shows

/-- A row of accesses leaves at each address what the last of them to write there has written. -/
theorem shows_after (size : Nat) (history : List Access) :
    ((zeroed size).after history).Shows size (lastWritten size history) := by
  induction history using List.reverseRecOn with
  | nil => exact shows_zeroed size
  | append_singleton history c ih =>
    rw [after_snoc]
    have served := ih.served c
    generalize ((zeroed size).after history).serve c = outcome at served ⊢
    cases served with
    | notBytes other =>
      rw [lastWritten_snoc_of_refused fun granted => other granted.1]
      exact ih
    | outside _ outside =>
      rw [lastWritten_snoc_of_refused fun granted => outside granted.2]
      exact ih
    | granted granted _ next =>
      rw [lastWritten_snoc_of_granted granted]
      exact next

/-- Memory is a map from the addresses below its size to bytes. After any row of accesses, the next
one is refused for a number that is no byte, else for lying outside, and is otherwise answered from
what was last written at its addresses. A refusal leaves memory as it was. -/
theorem serve_after (size : Nat) (history : List Access) (c : Access) :
    let m := (zeroed size).after history
    ofSize size = .ok (zeroed size) ∧ m.size = size ∧
      (¬ c.AllBytes → m.serve c = (m, .error (.misuse .notBytes))) ∧
      (c.AllBytes → ¬ c.Inside size → ∃ cause : Cause, cause.kind = .outOfBounds ∧
        cause.extent = c.span? ∧ m.serve c = (m, .error (.fault cause))) ∧
      (c.AllBytes → c.Inside size → ∃ m' reply, m.serve c = (m', .ok reply) ∧ m'.size = size ∧
        c.Answers (lastWritten size history) reply) := by
  intro m
  have shows : m.Shows size (lastWritten size history) := shows_after size history
  have served := shows.served c
  refine ⟨if_neg (by omega), shows.size_eq, ?_⟩
  generalize m.serve c = outcome at served ⊢
  cases served with
  | notBytes other =>
    exact ⟨fun _ => rfl, fun bytes => absurd bytes other, fun bytes => absurd bytes other⟩
  | outside bytes outside kind extent =>
    exact ⟨fun other => absurd bytes other, fun _ _ => ⟨_, kind, extent, rfl⟩,
      fun _ inside => absurd inside outside⟩
  | granted granted answers next =>
    exact ⟨fun other => absurd granted.1 other, fun _ outside => absurd granted.2 outside,
      fun _ _ => ⟨_, _, rfl, next.size_eq, answers⟩⟩

theorem read_past_refused_writes :
    let history : List Access := [.writeBlock 2 [1, 2, 3], .write 3 (-1), .writeBlock 6 [9, 9, 9],
      .loadProgram [7] (-1), .writeBlock 2 [256], .loadFonts [] 8]
    (Access.readBlock 1 4).AllBytes ∧ (Access.readBlock 1 4).Inside 8 ∧
      (List.range 4).map (fun k : Nat => lastWritten 8 history (1 + k)) = [0, 1, 255, 3] ∧
      ∃ m' reply, ((zeroed 8).after history).serve (.readBlock 1 4) = (m', .ok reply) ∧
        m'.size = 8 ∧ (Access.readBlock 1 4).Answers (lastWritten 8 history) reply := by
  intro history
  have bytes : (Access.readBlock 1 4).AllBytes := by decide
  have inside : (Access.readBlock 1 4).Inside 8 := by decide
  exact ⟨bytes, inside, by decide +kernel,
    (serve_after 8 history (.readBlock 1 4)).2.2.2.2 bytes inside⟩

end Chip8.Memory
