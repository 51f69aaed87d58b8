import Chip8.Proofs.Json.RoundTrip
import Chip8.Proofs.Usable

/-!
Which values are settings, and what becomes of them. An object is read in layers: a preset over the
defaults, flags over the preset, fields over the defaults. Each layer has a check of its own, and
the checks are made in a fixed order, so the first layer that is wrong decides how reading fails.
-/

set_option autoImplicit false
set_option relaxedAutoImplicit false

namespace Chip8

namespace Json

variable {members more : List (String × Json)} {name : String} {v : Json}

private theorem find?_cons (m : String × Json) (members : List (String × Json)) (name : String) :
    find? (m :: members) name = if m.1 = name then some m.2 else find? members name := by
  unfold find?
  rw [List.find?_cons]
  by_cases same : m.1 = name
  · rw [if_pos same, decide_eq_true same]
    rfl
  · rw [if_neg same, decide_eq_false same]

private theorem mem_of_find? (found : find? members name = some v) : (name, v) ∈ members := by
  induction members with
  | nil => cases found
  | cons m members ih =>
    rw [find?_cons] at found
    split at found
    · rename_i same
      cases found
      rw [← same]
      exact List.mem_cons_self
    · exact List.mem_cons_of_mem m (ih found)

private theorem find?_of_mem (distinct : (members.map Prod.fst).Nodup) (mem : (name, v) ∈ members) :
    find? members name = some v := by
  induction members with
  | nil => cases mem
  | cons m members ih =>
    obtain ⟨fresh, rest⟩ := List.nodup_cons.mp distinct
    rw [find?_cons]
    rcases List.mem_cons.mp mem with rfl | later
    · exact if_pos rfl
    · rw [if_neg, ih rest later]
      rintro rfl
      exact fresh (List.mem_map.mpr ⟨_, later, rfl⟩)

private theorem find?_insert (members : List (String × Json)) (k : String) (v : Json)
    (name : String) :
    find? (insert members k v) name = if k = name then some v else find? members name := by
  induction members with
  | nil => exact find?_cons (k, v) [] name
  | cons m members ih =>
    unfold insert
    split
    · rename_i same
      rw [find?_cons, find?_cons, same]
      split <;> rfl
    · rename_i other
      rw [find?_cons, find?_cons, ih]
      split
      · rename_i here
        rw [if_neg]
        rintro rfl
        exact other here
      · rfl

/-- Of members put over others, those on top are found first. -/
theorem find?_foldl_insert (distinct : (more.map Prod.fst).Nodup)
    (members : List (String × Json)) (name : String) :
    find? (more.foldl (fun acc m => insert acc m.1 m.2) members) name =
      (find? more name).or (find? members name) := by
  induction more generalizing members with
  | nil => rfl
  | cons m more ih =>
    obtain ⟨fresh, rest⟩ := List.nodup_cons.mp distinct
    rw [List.foldl_cons, ih rest, find?_insert, find?_cons]
    split
    · rename_i same
      have unfound : find? more name = none := by
        rw [Option.eq_none_iff_forall_ne_some]
        intro v found
        exact fresh (List.mem_map.mpr ⟨_, mem_of_find? found, same.symm⟩)
      rw [unfound]
      rfl
    · rfl

private theorem mem_insert {m : String × Json} {k : String} (mem : m ∈ insert members k v) :
    m = (k, v) ∨ m ∈ members := by
  induction members with
  | nil => exact .inl (List.mem_singleton.mp mem)
  | cons first members ih =>
    unfold insert at mem
    split at mem
    · rcases List.mem_cons.mp mem with rfl | later
      · rename_i same
        exact .inl (by rw [← same])
      · exact .inr (List.mem_cons_of_mem first later)
    · rcases List.mem_cons.mp mem with rfl | later
      · exact .inr List.mem_cons_self
      · exact (ih later).imp id (List.mem_cons_of_mem first)

private theorem mem_foldl_insert {m : String × Json}
    (mem : m ∈ more.foldl (fun acc m => insert acc m.1 m.2) members) : m ∈ more ∨ m ∈ members := by
  induction more generalizing members with
  | nil => exact .inr mem
  | cons first more ih =>
    rcases ih mem with later | below
    · exact .inl (List.mem_cons_of_mem first later)
    · rcases mem_insert below with rfl | under
      · exact .inl List.mem_cons_self
      · exact .inr under

private theorem find?_erase {other : String} (apart : name ≠ other)
    (members : List (String × Json)) :
    find? (erase members other) name = find? members name := by
  unfold find? erase
  rw [List.find?_filter]
  congr 2
  funext m
  grind

end Json

namespace Number

def Finite : Number → Prop
  | int _ => True
  | float x => x.isFinite = true

def Above : Number → Prop
  | int n => 0 < n
  | float x => 0.0 < x

instance (n : Number) : Decidable n.Above :=
  match n with
  | int n => inferInstanceAs (Decidable (0 < n))
  | float x => inferInstanceAs (Decidable (0.0 < x))

private theorem unpack_zero : (0.0 : Float).toModel.unpack = .zero .positive := rfl

private theorem float_le_iff (x y : Float) : x ≤ y ↔ x.toModel.unpack.le y.toModel.unpack = true :=
  decide_eq_true_iff

private theorem float_lt_iff (x y : Float) : x < y ↔ x.toModel.unpack.lt y.toModel.unpack = true :=
  decide_eq_true_iff

private theorem nonPositive_eq_false_iff {n : Number} (finite : n.Finite) :
    n.nonPositive = false ↔ n.Above := by
  cases n with
  | int n => simp [nonPositive, Above]
  | float x =>
    rw [nonPositive, Above, decide_eq_false_iff_not, float_le_iff, float_lt_iff, unpack_zero]
    change x.toModel.unpack.isFinite = true at finite
    cases shape : x.toModel.unpack with
    | notANumber =>
      rw [shape] at finite
      cases finite
    | infinity sign => cases sign <;> decide
    | zero sign => cases sign <;> decide
    | finite sign mantissa exponent positive =>
      cases sign with
      | positive => exact iff_of_true Bool.false_ne_true rfl
      | negative => exact iff_of_false (fun high => high rfl) Bool.false_ne_true

end Number

def Json.Finite (v : Json) : Prop := ∃ n, v.number? = some n ∧ n.Finite

def Json.Above (v : Json) : Prop := ∃ n, v.number? = some n ∧ n.Above

namespace Settings

variable {members flags : List (String × Json)} {base dialect : Dialect} {s : Settings}

/-- The dialect that the flags of an object are put over. -/
inductive StartsFrom (members : List (String × Json)) : Dialect → Prop where
  | unset (absent : Json.find? members "preset" = none) : StartsFrom members .modern
  | null (given : Json.find? members "preset" = some .null) : StartsFrom members .modern
  | empty (given : Json.find? members "preset" = some (.string "")) : StartsFrom members .modern
  | preset {name : String} {dialect : Dialect}
      (given : Json.find? members "preset" = some (.string name))
      (known : (name, dialect) ∈ Dialect.presets) : StartsFrom members dialect

def givenFlags (members : List (String × Json)) : List (String × Json) :=
  match Json.find? members "quirks" with
  | some (.object flags) => flags
  | _ => []

def FlagsKnown (flags : List (String × Json)) : Prop :=
  ∀ flag ∈ flags, flag.1 ∈ Dialect.flagNames ∧ ∃ b, flag.2 = .bool b

def NamesKnown (members : List (String × Json)) : Prop :=
  ∀ m ∈ members, m.1 = "quirks" ∨ m.1 = "preset" ∨ m.1 ∈ fieldNames

def numberFields : List (String × Json) :=
  [("cpu_hz", .int 500), ("timer_hz", .int 60), ("stack_depth", .int 16), ("scale", .int 10)]

structure ValuesFit (members : List (String × Json)) : Prop where
  policy : fieldOf members "unknown_opcode" (.string "halt") = .string "halt" ∨
    fieldOf members "unknown_opcode" (.string "halt") = .string "skip"
  numbers : ∀ f ∈ numberFields, (fieldOf members f.1 f.2).Above

def Overlaid (flags : List (String × Json)) (base dialect : Dialect) : Prop :=
  ∀ flag ∈ dialect.flags, Json.find? flags flag.1 = some (.bool flag.2) ∨
    (Json.find? flags flag.1 = none ∧ flag ∈ base.flags)

/-- Each field is as given, or as usual if it is not given. -/
structure FieldsOf (members : List (String × Json)) (s : Settings) : Prop where
  cpuHz : s.cpuHz = fieldOf members "cpu_hz" (.int 500)
  timerHz : s.timerHz = fieldOf members "timer_hz" (.int 60)
  stackDepth : s.stackDepth = fieldOf members "stack_depth" (.int 16)
  policy : .string s.policy.name = fieldOf members "unknown_opcode" (.string "halt")
  seed : s.seed = fieldOf members "seed" .null
  scale : s.scale = fieldOf members "scale" (.int 10)
  title : s.title = fieldOf members "title" (.string "CHIP-8 Emulator")

/-- An object, in which no name comes twice, whose preset is a text or null, whose flags are an
object and whose numbers are finite numbers. -/
structure Regular (members : List (String × Json)) : Prop where
  distinct : (members.map Prod.fst).Nodup
  preset : ∀ v, Json.find? members "preset" = some v →
    v = .null ∨ (∃ name, v = .string name) ∨ ∃ text, v = .broken text
  flags : ∀ v, Json.find? members "quirks" = some v →
    ∃ flags, v = .object flags ∧ (flags.map Prod.fst).Nodup
  numbers : ∀ f ∈ numberFields, ∀ v, Json.find? members f.1 = some v → v.Finite

/-- A stage of reading that gives what is wanted, or fails with a value that is refused. -/
inductive Judged {α : Type} (wanted : α → Prop) (wrong : Prop) : Except Error α → Prop where
  | granted (a : α) (right : wanted a) : Judged wanted wrong (.ok a)
  | refused (reason : Error) (family : reason.family = .value) (fails : wrong) :
      Judged wanted wrong (.error reason)

theorem Judged.imp {α : Type} {wanted wanted' : α → Prop} {wrong wrong' : Prop}
    {result : Except Error α} (judged : Judged wanted wrong result)
    (right : ∀ a, wanted a → wanted' a) (fails : wrong → wrong') :
    Judged wanted' wrong' result := by
  cases judged with
  | granted a good => exact .granted a (right a good)
  | refused reason family bad => exact .refused reason family (fails bad)

theorem Judged.bind {α β : Type} {wanted : α → Prop} {wanted' : β → Prop} {wrong : Prop}
    {result : Except Error α} {next : α → Except Error β} (first : Judged wanted wrong result)
    (second : ∀ a, wanted a → Judged wanted' wrong (next a)) :
    Judged wanted' wrong (result >>= next) := by
  cases first with
  | granted a right => exact second a right
  | refused reason family fails => exact .refused reason family fails

def start (members : List (String × Json)) : Except Error Dialect :=
  let name := fieldOf members "preset" .null
  if name.truthy then preset name else .ok default.dialect

private theorem start_judged (regular : Regular members) :
    Judged (StartsFrom members) (∀ base, ¬ StartsFrom members base) (start members) := by
  unfold start fieldOf
  cases found : Json.find? members "preset" with
  | none => exact .granted _ (.unset found)
  | some v =>
    rcases regular.preset v found with rfl | ⟨name, rfl⟩ | ⟨text, rfl⟩
    · exact .granted _ (.null found)
    · by_cases empty : name = ""
      · subst empty
        exact .granted _ (.empty found)
      · have truthy : (Json.string name).truthy = true := decide_eq_true empty
        dsimp only [Option.getD_some]
        rw [if_pos truthy, preset]
        split
        · rename_i p known
          have same : p.1 = name := by simpa using List.find?_some known
          refine .granted _ (.preset found ?_)
          rw [← same]
          exact List.mem_of_find?_eq_some known
        · rename_i unknown
          refine .refused _ rfl fun base starts => ?_
          cases starts with
          | unset absent => simp [found] at absent
          | null given => simp [found] at given
          | empty given => simp [found, empty] at given
          | preset given known =>
            rw [found] at given
            cases given
            have other := List.find?_eq_none.mp unknown _ known
            simp at other
    · refine .refused (.unknownPreset (.broken text)) rfl fun base starts => ?_
      cases starts <;> simp_all

def overlay (base : Dialect) (flags : List (String × Json)) : List (String × Json) :=
  flags.foldl (fun acc m => Json.insert acc m.1 m.2)
    (base.flags.map fun (name, b) => (name, .bool b))

private theorem mem_overlay_of_mem (distinct : (flags.map Prod.fst).Nodup) (base : Dialect)
    {m : String × Json} (mem : m ∈ flags) : m ∈ overlay base flags := by
  have found : Json.find? (overlay base flags) m.1 = some m.2 := by
    rw [overlay, Json.find?_foldl_insert distinct, Json.find?_of_mem distinct mem]
    rfl
  exact Json.mem_of_find? found

private theorem flagsKnown_overlay_iff (distinct : (flags.map Prod.fst).Nodup) (base : Dialect) :
    FlagsKnown (overlay base flags) ↔ FlagsKnown flags := by
  constructor
  · intro known flag mem
    exact known flag (mem_overlay_of_mem distinct base mem)
  · intro known m mem
    rcases Json.mem_foldl_insert mem with given | below
    · exact known m given
    · obtain ⟨⟨name, b⟩, listed, rfl⟩ := List.mem_map.mp below
      exact ⟨List.mem_map_of_mem (f := Prod.fst) listed, b, rfl⟩

private theorem unknownFlags_eq_nil_iff {names : List String} :
    unknownFlags names = [] ↔ ∀ name ∈ names, name ∈ Dialect.flagNames := by
  have listed (name : String) :
      name ∈ unknownFlags names ↔ name ∈ names ∧ name ∉ Dialect.flagNames := by
    simp [unknownFlags, distinctNames, sortNames, List.mem_eraseDups]
  rw [List.eq_nil_iff_forall_not_mem]
  refine forall_congr' fun name => ?_
  rw [listed, not_and, Decidable.not_not]

private theorem isFlag_iff {v : Json} : isFlag v = true ↔ ∃ b, v = .bool b := by
  cases v <;> simp [isFlag]

def dialectOf (members : List (String × Json)) : Dialect where
  clipSprites := flagOf members "clip_sprites" Dialect.modern.clipSprites
  logicClearsFlag := flagOf members "vf_reset" Dialect.modern.logicClearsFlag
  shiftReadsY := flagOf members "shift_uses_vy" Dialect.modern.shiftReadsY
  jumpReadsX := flagOf members "jump_uses_vx" Dialect.modern.jumpReadsX
  blockMovesIndex := flagOf members "load_store_increments_index" Dialect.modern.blockMovesIndex
  indexSetsFlag := flagOf members "index_overflow_flag" Dialect.modern.indexSetsFlag

private theorem dialectOfMembers_judged (members : List (String × Json)) :
    Judged (fun dialect => FlagsKnown members ∧ dialect = dialectOf members) (¬ FlagsKnown members)
      ((dialectOfMembers ⟨members, []⟩).mapError .flags) := by
  unfold dialectOfMembers checkNames
  dsimp only
  by_cases named : unknownFlags (members.map Prod.fst) = []
  · rw [named]
    have names := unknownFlags_eq_nil_iff.mp named
    by_cases booleans : (members.filter fun m => !isFlag m.2) = []
    · rw [booleans]
      refine .granted _ ⟨fun flag mem => ⟨names _ (List.mem_map_of_mem mem), ?_⟩, rfl⟩
      have flag := List.filter_eq_nil_iff.mp booleans flag mem
      exact isFlag_iff.mp (by simpa using flag)
    · cases bad : members.filter fun m => !isFlag m.2 with
      | nil => exact absurd bad booleans
      | cons m ms =>
        refine .refused _ rfl fun known => booleans ?_
        rw [List.filter_eq_nil_iff]
        intro m mem
        rw [isFlag_iff.mpr (known m mem).2]
        decide
  · cases unknown : unknownFlags (members.map Prod.fst) with
    | nil => exact absurd unknown named
    | cons name names =>
      refine .refused _ rfl fun known => named ?_
      rw [unknownFlags_eq_nil_iff]
      rintro _ mem
      obtain ⟨flag, listed, rfl⟩ := List.mem_map.mp mem
      exact (known flag listed).1

private theorem flagOf_overlay (distinct : (flags.map Prod.fst).Nodup) (known : FlagsKnown flags)
    {name : String} (named : name ∈ Dialect.flagNames) (base : Dialect) (usual : Bool) :
    Json.find? flags name = some (.bool (flagOf (overlay base flags) name usual)) ∨
      (Json.find? flags name = none ∧
        (name, flagOf (overlay base flags) name usual) ∈ base.flags) := by
  have names : Dialect.flagNames = base.flags.map Prod.fst := rfl
  rw [names] at named
  obtain ⟨⟨name, b⟩, below, rfl⟩ := List.mem_map.mp named
  have under : Json.find? (base.flags.map fun (name, b) => (name, Json.bool b)) name =
      some (.bool b) :=
    Json.find?_of_mem (by simp [Dialect.flags]) (List.mem_map.mpr ⟨_, below, rfl⟩)
  have found : Json.find? (overlay base flags) name =
      (Json.find? flags name).or (some (.bool b)) := by
    rw [overlay, Json.find?_foldl_insert distinct, under]
  unfold flagOf
  rw [found]
  cases given : Json.find? flags name with
  | none => exact .inr ⟨rfl, below⟩
  | some v =>
    obtain ⟨c, same⟩ := (known _ (Json.mem_of_find? given)).2
    cases same
    exact .inl rfl

private theorem overlaid_overlay (distinct : (flags.map Prod.fst).Nodup) (known : FlagsKnown flags)
    (base : Dialect) : Overlaid flags base (dialectOf (overlay base flags)) := by
  intro flag mem
  have named : flag.1 ∈ (dialectOf (overlay base flags)).flags.map Prod.fst :=
    List.mem_map_of_mem mem
  simp only [Dialect.flags, List.mem_cons, List.not_mem_nil, or_false] at mem
  rcases mem with rfl | rfl | rfl | rfl | rfl | rfl
  all_goals exact flagOf_overlay distinct known named base _

private theorem overlay_judged (distinct : (flags.map Prod.fst).Nodup) (base : Dialect) :
    Judged (fun dialect => FlagsKnown flags ∧ Overlaid flags base dialect) (¬ FlagsKnown flags)
      ((dialectOfMembers ⟨overlay base flags, []⟩).mapError .flags) := by
  refine (dialectOfMembers_judged (overlay base flags)).imp ?_ ?_
  · rintro dialect ⟨known, rfl⟩
    have known := (flagsKnown_overlay_iff distinct base).mp known
    exact ⟨known, overlaid_overlay distinct known base⟩
  · exact fun unknown known => unknown ((flagsKnown_overlay_iff distinct base).mpr known)

def plain (members : List (String × Json)) : List (String × Json) :=
  Json.erase (Json.erase members "quirks") "preset"

private theorem mem_plain_iff {m : String × Json} :
    m ∈ plain members ↔ m ∈ members ∧ m.1 ≠ "quirks" ∧ m.1 ≠ "preset" := by
  unfold plain Json.erase
  grind

private theorem namesKnown_iff : NamesKnown members ↔ ∀ m ∈ plain members, m.1 ∈ fieldNames := by
  simp only [NamesKnown, mem_plain_iff]
  grind

private theorem fieldOf_plain {name : String} (field : name ∈ fieldNames) (usual : Json) :
    fieldOf (plain members) name usual = fieldOf members name usual := by
  have flags : name ≠ "quirks" := by rintro rfl; revert field; decide
  have preset : name ≠ "preset" := by rintro rfl; revert field; decide
  rw [fieldOf, plain, Json.find?_erase preset, Json.find?_erase flags, fieldOf]

private theorem family_misnamed (name : String) : (misnamed name).family = .type := by
  unfold misnamed
  split <;> rfl

private theorem unknown_name (dialect : Dialect) (unknown : ¬ NamesKnown members) :
    ∃ name, ofFields dialect ⟨plain members, []⟩ = .error (misnamed name) := by
  unfold ofFields
  cases found : (plain members).find? fun m => !fieldNames.contains m.1 with
  | none =>
    refine absurd (namesKnown_iff.mpr fun m mem => ?_) unknown
    simpa using List.find?_eq_none.mp found m mem
  | some m => exact ⟨m.1, rfl⟩

private theorem policyOf_judged (value : Json) :
    Judged (fun policy => .string policy.name = value)
      (¬ (value = .string "halt" ∨ value = .string "skip")) (policyOf value) := by
  unfold policyOf
  split
  · rename_i name
    split
    · rename_i policy found
      have same : policy.name = name := by simpa using List.find?_some found
      exact .granted _ (congrArg Json.string same)
    · rename_i unfound
      refine .refused _ rfl fun policy => ?_
      rcases policy with same | same
      all_goals
        cases same
        cases unfound
  · rename_i other
    refine .refused _ rfl fun policy => ?_
    rcases policy with rfl | rfl
    all_goals exact other _ rfl

private theorem checkPositive_judged {value : Json} {otherwise : Error} {wrong : Prop}
    (finite : value.Finite) (family : otherwise.family = .value) (fails : ¬ value.Above → wrong) :
    Judged (fun _ => value.Above) wrong (checkPositive value otherwise) := by
  obtain ⟨n, number, finite⟩ := finite
  have sign : n.nonPositive = false ↔ value.Above := by
    rw [Number.nonPositive_eq_false_iff finite]
    refine ⟨fun above => ⟨n, number, above⟩, ?_⟩
    rintro ⟨m, same, above⟩
    obtain rfl : n = m := Option.some.inj (number.symm.trans same)
    exact above
  unfold checkPositive
  rw [number]
  dsimp only
  split
  · rename_i low
    refine .refused _ family (fails fun above => ?_)
    rw [sign.mpr above] at low
    cases low
  · rename_i high
    exact .granted () (sign.mp (Bool.not_eq_true _ ▸ high))

def checked (s : Settings) : List Json := [s.cpuHz, s.timerHz, s.stackDepth, s.scale]

private theorem validate_judged (finite : ∀ v ∈ s.checked, v.Finite) :
    Judged (fun _ => ∀ v ∈ s.checked, v.Above) (¬ ∀ v ∈ s.checked, v.Above) s.validate := by
  have check {v : Json} (mem : v ∈ s.checked) {otherwise : Error}
      (family : otherwise.family = .value) :
      Judged (fun _ => v.Above) (¬ ∀ v ∈ s.checked, v.Above) (checkPositive v otherwise) :=
    checkPositive_judged (finite v mem) family fun low all => low (all v mem)
  refine .bind (check (by simp [checked]) rfl) fun _ steps => ?_
  refine .bind (check (by simp [checked]) rfl) fun _ ticks => ?_
  refine .bind (check (by simp [checked]) rfl) fun _ depth => ?_
  refine (check (by simp [checked]) rfl).imp (fun _ scale => ?_) id
  simp only [checked, List.forall_mem_cons]
  exact ⟨steps, ticks, depth, scale, nofun⟩

private theorem finite_fieldOf (regular : Regular members) {f : String × Json}
    (mem : f ∈ numberFields) :
    (fieldOf members f.1 f.2).Finite := by
  unfold fieldOf
  cases found : Json.find? members f.1 with
  | some v => exact regular.numbers f mem v found
  | none =>
    simp only [numberFields, List.mem_cons, List.not_mem_nil, or_false] at mem
    rcases mem with rfl | rfl | rfl | rfl
    all_goals exact ⟨_, rfl, trivial⟩

def filled (members : List (String × Json)) (dialect : Dialect) (policy : UnknownPolicy) :
    Settings where
  cpuHz := fieldOf members "cpu_hz" (.int 500)
  timerHz := fieldOf members "timer_hz" (.int 60)
  stackDepth := fieldOf members "stack_depth" (.int 16)
  policy
  seed := fieldOf members "seed" .null
  dialect
  scale := fieldOf members "scale" (.int 10)
  title := fieldOf members "title" (.string "CHIP-8 Emulator")

private theorem checked_filled (dialect : Dialect) (policy : UnknownPolicy) :
    (filled members dialect policy).checked = numberFields.map fun f => fieldOf members f.1 f.2 :=
  rfl

private theorem ofFields_plain (known : NamesKnown members) (dialect : Dialect) :
    ofFields dialect ⟨plain members, []⟩ =
      (do
        let policy ← policyOf (fieldOf members "unknown_opcode" (.string "halt"))
        (filled members dialect policy).validate
        return filled members dialect policy) := by
  have names : (plain members).find? (fun m => !fieldNames.contains m.1) = none := by
    rw [List.find?_eq_none]
    intro m mem
    simpa using namesKnown_iff.mp known m mem
  unfold ofFields
  dsimp only
  rw [names]
  simp (disch := decide) only [fieldOf_plain]
  rfl

private theorem fields_judged (regular : Regular members) (known : NamesKnown members)
    (dialect : Dialect) :
    Judged (fun s => ValuesFit members ∧ FieldsOf members s ∧ s.dialect = dialect)
      (¬ ValuesFit members) (ofFields dialect ⟨plain members, []⟩) := by
  rw [ofFields_plain known]
  refine ((policyOf_judged _).imp (fun _ => id) fun bad fit => bad fit.policy).bind ?_
  intro policy named
  have finite : ∀ v ∈ (filled members dialect policy).checked, v.Finite := by
    rw [checked_filled, List.forall_mem_map]
    exact fun f mem => finite_fieldOf regular mem
  refine ((validate_judged finite).imp (fun _ => id) fun bad fit => bad ?_).bind ?_
  · rw [checked_filled, List.forall_mem_map]
    exact fit.numbers
  · intro _ above
    rw [checked_filled, List.forall_mem_map] at above
    have policies : Json.string policy.name = .string "halt" ∨
        Json.string policy.name = .string "skip" := by
      cases policy with
      | halt => exact .inl rfl
      | skip => exact .inr rfl
    rw [named] at policies
    exact .granted _ ⟨⟨policies, above⟩, ⟨rfl, rfl, rfl, named, rfl, rfl, rfl⟩, rfl⟩

/-- Reading goes through the layers one after the other. -/
theorem ofJson_object (regular : Regular members) :
    ofJson (.object members) = (do
      let base ← start members
      let dialect ← (dialectOfMembers ⟨overlay base (givenFlags members), []⟩).mapError .flags
      ofFields dialect ⟨plain members, []⟩) := by
  have read : Members.ofJson (.object members) = .ok ⟨members, []⟩ := by
    have together :=
      Json.foldl_insert (show (([] ++ members).map Prod.fst).Nodup from regular.distinct)
    rw [Members.ofJson, Members.merge, together, List.nil_append]
  have flags : fieldOf members "quirks" (.object []) = .object (givenFlags members) := by
    unfold fieldOf givenFlags
    cases found : Json.find? members "quirks" with
    | none => rfl
    | some v =>
      obtain ⟨flags, rfl, -⟩ := regular.flags v found
      rfl
  have intact {α : Type} (a : α) : (Except.ok a).mapError Error.members = .ok a := rfl
  have merged (base : Dialect) :
      Members.merge ⟨base.flags.map fun (name, b) => (name, .bool b), []⟩
        (.object (givenFlags members)) = .ok ⟨overlay base (givenFlags members), []⟩ := rfl
  unfold ofJson start
  rw [read]
  simp only [bind, Except.bind, flags, merged, intact]
  split <;> rfl

/-- The layers under the fields are in order. -/
def LayersKnown (members : List (String × Json)) : Prop :=
  (∃ base, StartsFrom members base) ∧ FlagsKnown (givenFlags members)

/-- How reading ends: with the first layer that is wrong, or with settings if none is. -/
inductive Outcome (members : List (String × Json)) : Except Error Settings → Prop where
  | badLayer (reason : Error) (family : reason.family = .value) (bad : ¬ LayersKnown members) :
      Outcome members (.error reason)
  | badName (reason : Error) (family : reason.family = .type) (layers : LayersKnown members)
      (bad : ¬ NamesKnown members) : Outcome members (.error reason)
  | badValue (reason : Error) (family : reason.family = .value) (names : NamesKnown members)
      (bad : ¬ ValuesFit members) : Outcome members (.error reason)
  | accepted (s : Settings) (layers : LayersKnown members) (names : NamesKnown members)
      (values : ValuesFit members) (fields : FieldsOf members s)
      (dialect : ∃ base, StartsFrom members base ∧ Overlaid (givenFlags members) base s.dialect) :
      Outcome members (.ok s)

private theorem distinct_givenFlags (regular : Regular members) :
    ((givenFlags members).map Prod.fst).Nodup := by
  unfold givenFlags
  split
  · rename_i flags found
    obtain ⟨_, ⟨⟩, distinct⟩ := regular.flags _ found
    exact distinct
  · exact List.nodup_nil

theorem outcome_ofJson (regular : Regular members) :
    Outcome members (ofJson (.object members)) := by
  rw [ofJson_object regular]
  have started := start_judged regular
  generalize start members = first at started
  cases started with
  | refused reason family unstarted =>
    exact .badLayer reason family fun layers => layers.1.elim unstarted
  | granted base starts =>
    have laid := overlay_judged (distinct_givenFlags regular) base
    dsimp only [bind, Except.bind]
    generalize (dialectOfMembers ⟨overlay base (givenFlags members), []⟩).mapError Error.flags =
      second at laid
    cases laid with
    | refused reason family unknown =>
      exact .badLayer reason family fun layers => unknown layers.2
    | granted dialect right =>
      obtain ⟨flags, laid⟩ := right
      have layers : LayersKnown members := ⟨⟨base, starts⟩, flags⟩
      by_cases names : NamesKnown members
      · have filled := fields_judged regular names dialect
        dsimp only
        generalize ofFields dialect ⟨plain members, []⟩ = third at filled
        cases filled with
        | refused reason family unfit => exact .badValue reason family names unfit
        | granted s settled =>
          obtain ⟨values, fields, rfl⟩ := settled
          exact .accepted s layers names values fields ⟨base, starts, laid⟩
      · obtain ⟨name, unknown⟩ := unknown_name dialect names
        dsimp only
        rw [unknown]
        exact .badName _ (family_misnamed name) layers names

/-- An object is read in layers. It is settings exactly if its preset is known, its flags are flags,
its other members are fields and its values fit; each flag is then as given, or as in the preset,
and each field is as given, or as usual. A name that is no field is the only fault of type, and only
if the preset and the flags are in order. -/
theorem read_in_layers (regular : Regular members) :
    ((∃ s, ofJson (.object members) = .ok s) ↔
      (∃ base, StartsFrom members base) ∧ FlagsKnown (givenFlags members) ∧ NamesKnown members ∧
        ValuesFit members) ∧
    (∀ s, ofJson (.object members) = .ok s →
      FieldsOf members s ∧
        ∃ base, StartsFrom members base ∧ Overlaid (givenFlags members) base s.dialect) ∧
    ∀ reason, ofJson (.object members) = .error reason →
      (reason.family = .type ↔
        (∃ base, StartsFrom members base) ∧ FlagsKnown (givenFlags members) ∧
          ¬ NamesKnown members) ∧
      (reason.family ≠ .type → reason.family = .value) := by
  have outcome := outcome_ofJson regular
  generalize ofJson (.object members) = result at outcome
  refine ⟨⟨?_, ?_⟩, ?_, ?_⟩
  · rintro ⟨s, rfl⟩
    cases outcome with
    | accepted s layers names values => exact ⟨layers.1, layers.2, names, values⟩
  · rintro ⟨starts, flags, names, values⟩
    cases outcome with
    | badLayer reason family bad => exact absurd ⟨starts, flags⟩ bad
    | badName reason family layers bad => exact absurd names bad
    | badValue reason family names bad => exact absurd values bad
    | accepted s => exact ⟨s, rfl⟩
  · rintro s rfl
    cases outcome with
    | accepted s layers names values fields dialect => exact ⟨fields, dialect⟩
  · rintro reason rfl
    cases outcome with
    | badLayer reason family bad =>
      refine ⟨⟨fun type => ?_, fun fine => absurd ⟨fine.1, fine.2.1⟩ bad⟩, fun _ => family⟩
      rw [family] at type
      cases type
    | badName reason family layers bad =>
      exact ⟨⟨fun _ => ⟨layers.1, layers.2, bad⟩, fun _ => family⟩,
        fun other => absurd family other⟩
    | badValue reason family names bad =>
      refine ⟨⟨fun type => ?_, fun fine => absurd names fine.2.2⟩, fun _ => family⟩
      rw [family] at type
      cases type

/-- A historical dialect that wraps sprites around, at an odd rate. -/
def wrappingVip : List (String × Json) :=
  [("cpu_hz", .float 540.5), ("quirks", .object [("clip_sprites", .bool false)]),
    ("preset", .string "cosmac-vip")]

theorem wrappingVip_reads :
    Regular wrappingVip ∧ ∃ s, ofJson (.object wrappingVip) = .ok s ∧ s.cpuHz = .float 540.5 ∧
      s.timerHz = .int 60 ∧ s.dialect = ⟨false, true, true, false, true, false⟩ := by
  have regular : Regular wrappingVip := by
    refine ⟨by decide, fun v given => ?_, fun v given => ?_, ?_⟩
    · cases given
      exact .inr (.inl ⟨_, rfl⟩)
    · cases given
      exact ⟨_, rfl, by decide⟩
    · simp only [numberFields, List.forall_mem_cons]
      refine ⟨fun v given => ?_, nofun, nofun, nofun, nofun⟩
      cases given
      exact ⟨_, rfl, rfl⟩
  have flags : FlagsKnown (givenFlags wrappingVip) := by
    rintro flag (_ | ⟨_, ⟨⟩⟩)
    exact ⟨by decide, _, rfl⟩
  have names : NamesKnown wrappingVip := by
    unfold NamesKnown wrappingVip
    decide
  have values : ValuesFit wrappingVip := by
    refine ⟨.inl rfl, ?_⟩
    simp only [numberFields, List.forall_mem_cons]
    exact ⟨⟨_, rfl, by decide⟩, ⟨_, rfl, by decide⟩, ⟨_, rfl, by decide⟩, ⟨_, rfl, by decide⟩,
      nofun⟩
  refine ⟨regular, ?_⟩
  obtain ⟨accepted, settled, -⟩ := read_in_layers regular
  have starts : StartsFrom wrappingVip .cosmacVip := .preset rfl (by decide)
  obtain ⟨s, read⟩ := accepted.mpr ⟨⟨_, starts⟩, flags, names, values⟩
  obtain ⟨fields, base, starts, laid⟩ := settled s read
  refine ⟨s, read, fields.cpuHz, fields.timerHz, ?_⟩
  obtain rfl : base = .cosmacVip := by
    cases starts with
    | preset given known =>
      cases given
      revert known
      simp [Dialect.presets]
    | unset given | null given => cases given
    | empty given => simp [wrappingVip, Json.find?] at given
  generalize s.dialect = dialect at laid
  obtain ⟨clip, logic, shift, jump, block, index⟩ := dialect
  simpa [Overlaid, Dialect.flags, Dialect.cosmacVip, givenFlags, wrappingVip, Json.find?] using laid

end Settings

end Chip8
