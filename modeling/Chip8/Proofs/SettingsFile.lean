import Chip8.Proofs.Json.RoundTrip
import Chip8.Proofs.Usable
import Chip8.Settings.Basic

set_option autoImplicit false
set_option relaxedAutoImplicit false

namespace Chip8

namespace Settings

open Json (Legible)

variable {s : Settings} {d : Json}

def AllLegible (members : List (String × Json)) : Prop := ∀ m ∈ members, m.2.Legible

theorem AllLegible.insert {members : List (String × Json)} (legible : AllLegible members)
    {v : Json} (value : v.Legible) (name : String) : AllLegible (Json.insert members name v) := by
  induction members with
  | nil => exact List.forall_mem_singleton.mpr value
  | cons m members ih =>
    obtain ⟨first, others⟩ := List.forall_mem_cons.mp legible
    unfold Json.insert
    split
    · exact List.forall_mem_cons.mpr ⟨value, others⟩
    · exact List.forall_mem_cons.mpr ⟨first, ih others⟩

theorem AllLegible.erase {members : List (String × Json)} (legible : AllLegible members)
    (name : String) : AllLegible (Json.erase members name) :=
  fun m mem => legible m (List.mem_filter.mp mem).1

theorem AllLegible.fieldOf {members : List (String × Json)} (legible : AllLegible members)
    (name : String) {otherwise : Json} (default : otherwise.Legible) :
    (fieldOf members name otherwise).Legible := by
  unfold Settings.fieldOf Json.find?
  cases found : members.find? fun m => m.1 = name with
  | none => exact default
  | some m => exact legible m (List.mem_of_find?_eq_some found)

private theorem legible_ofPieces (ps : List Text.Piece) : (Json.ofPieces ps).Legible := by
  unfold Json.ofPieces
  split
  · exact .string _
  · exact .broken _

private theorem legible_of_walk {v : Json} {items : List Json} (legible : v.Legible)
    (walked : Members.walk? v = some items) : ∀ w ∈ items, w.Legible := by
  cases legible with
  | array each =>
    cases walked
    exact each
  | string t =>
    cases walked
    exact fun w mem => by
      obtain ⟨c, -, rfl⟩ := List.mem_map.mp mem
      exact .string _
  | broken text =>
    cases walked
    exact fun w mem => by
      obtain ⟨p, -, rfl⟩ := List.mem_map.mp mem
      exact legible_ofPieces [p]
  | object distinct each =>
    cases walked
    exact fun w mem => by
      obtain ⟨m, -, rfl⟩ := List.mem_map.mp mem
      exact .string _
  | _ => cases walked

private theorem legible_of_put {ms ms' : Members} {name v : Json} (legible : AllLegible ms.named)
    (value : v.Legible) (placed : ms.put name v = .ok ms') : AllLegible ms'.named := by
  unfold Members.put at placed
  split at placed
  · cases placed
    exact legible.insert value _
  · cases placed
    exact legible.insert value _
  · split at placed
    · cases placed
      exact legible
    · cases placed

private theorem legible_of_putPairs {ms ms' : Members} {items : List Json} {index : Nat}
    (legible : AllLegible ms.named) (each : ∀ w ∈ items, w.Legible)
    (placed : ms.putPairs index items = .ok ms') : AllLegible ms'.named := by
  induction items generalizing ms index with
  | nil =>
    cases placed
    exact legible
  | cons item items ih =>
    obtain ⟨first, others⟩ := List.forall_mem_cons.mp each
    unfold Members.putPairs at placed
    split at placed
    · cases placed
    · rename_i name value walked
      obtain ⟨ms'', one, rest⟩ := bind_eq_ok.mp placed
      have parts := legible_of_walk first walked
      exact ih (legible_of_put legible (parts value (by simp)) one) others rest
    · cases placed

private theorem legible_of_members {ms : Members} (legible : d.Legible)
    (read : Members.ofJson d = .ok ms) : AllLegible ms.named := by
  have none : AllLegible [] := nofun
  unfold Members.ofJson Members.merge at read
  split at read
  · rename_i members
    cases read
    cases legible with
    | object distinct each =>
      have together := Json.foldl_insert (show (([] ++ members).map Prod.fst).Nodup from distinct)
      dsimp only
      rw [together]
      exact each
  · split at read
    · cases read
    · rename_i items walked
      exact legible_of_putPairs none (legible_of_walk legible walked) read

private theorem fields_of_ofFields {dialect : Dialect} {ms : Members}
    (accepted : ofFields dialect ms = .ok s) :
    ∃ policy, s = {
      cpuHz := fieldOf ms.named "cpu_hz" default.cpuHz
      timerHz := fieldOf ms.named "timer_hz" default.timerHz
      stackDepth := fieldOf ms.named "stack_depth" default.stackDepth
      policy
      seed := fieldOf ms.named "seed" default.seed
      dialect
      scale := fieldOf ms.named "scale" default.scale
      title := fieldOf ms.named "title" default.title } := by
  unfold ofFields at accepted
  split at accepted
  · cases accepted
  · split at accepted
    · cases accepted
    · obtain ⟨policy, -, accepted⟩ := bind_eq_ok.mp accepted
      obtain ⟨-, same⟩ := then_eq_ok.mp accepted
      cases same
      exact ⟨policy, rfl⟩

private theorem legible_dialect (dialect : Dialect) : dialect.toJson.Legible := by
  refine .object (by simp [Dialect.flags]) ?_
  simp only [Dialect.flags, List.map_cons, List.map_nil, List.forall_mem_cons]
  exact ⟨.bool _, .bool _, .bool _, .bool _, .bool _, .bool _, nofun⟩

private theorem legible_toMembers {dialect : Dialect} {ms : Members} (legible : AllLegible ms.named)
    (accepted : ofFields dialect ms = .ok s) : AllLegible s.toMembers := by
  obtain ⟨policy, rfl⟩ := fields_of_ofFields accepted
  have short : ∀ n ∈ [500, 60, 16, 10], (Json.int n).Legible := by
    intro n mem
    refine .int ?_
    revert n
    decide
  simp only [AllLegible, toMembers, List.forall_mem_cons]
  exact ⟨legible.fieldOf _ (short 500 (by decide)), legible.fieldOf _ (short 60 (by decide)),
    legible.fieldOf _ (short 16 (by decide)), .string _, legible.fieldOf _ .null,
    legible_dialect dialect, legible.fieldOf _ (short 10 (by decide)),
    legible.fieldOf _ (.string _), nofun⟩

private theorem distinct_toMembers (s : Settings) : (s.toMembers.map Prod.fst).Nodup := by
  simp [toMembers]

/-- Settings that come from a legible value are written as one. -/
theorem legible_toJson (legible : d.Legible) (accepted : ofJson d = .ok s) : s.toJson.Legible := by
  obtain ⟨ms, read, accepted⟩ := bind_eq_ok.mp accepted
  have members := legible_of_members legible (mapError_eq_ok.mp read)
  have fields := (members.erase "quirks").erase "preset"
  dsimp only at accepted
  refine .object s.distinct_toMembers ?_
  split at accepted
  all_goals
    obtain ⟨base, -, accepted⟩ := bind_eq_ok.mp accepted
    obtain ⟨merged, -, accepted⟩ := bind_eq_ok.mp accepted
    obtain ⟨dialect, -, accepted⟩ := bind_eq_ok.mp accepted
    exact legible_toMembers fields accepted

private theorem checkNames_flags : checkNames Dialect.flagNames [] = .ok () := by
  have known : unknownFlags Dialect.flagNames = [] := by decide +kernel
  simp only [checkNames, known]

private theorem dialect_of_flags (dialect : Dialect) :
    dialectOfMembers ⟨dialect.flags.map fun (name, b) => (name, .bool b), []⟩ = .ok dialect := by
  have names : (dialect.flags.map fun (name, b) => (name, Json.bool b)).map Prod.fst =
      Dialect.flagNames := rfl
  have flags : ((dialect.flags.map fun (name, b) => (name, Json.bool b)).filter
      fun m => !isFlag m.2) = [] := rfl
  simp only [dialectOfMembers, names, checkNames_flags, flags]
  rfl

private theorem merge_flags (base dialect : Dialect) :
    Members.merge ⟨base.flags.map fun (name, b) => (name, .bool b), []⟩ dialect.toJson =
      .ok ⟨dialect.flags.map fun (name, b) => (name, .bool b), []⟩ := by
  simp [Members.merge, Dialect.toJson, Dialect.flags, Json.insert]

private theorem policyOf_name (policy : UnknownPolicy) :
    policyOf (.string policy.name) = .ok policy := by
  cases policy <;> rfl

def plainMembers (s : Settings) : List (String × Json) :=
  Json.erase (Json.erase s.toMembers "quirks") "preset"

private theorem ofFields_plainMembers (valid : s.validate = .ok ()) :
    ofFields s.dialect ⟨s.plainMembers, []⟩ = .ok s := by
  have shape : s.plainMembers =
      [ ("cpu_hz", s.cpuHz), ("timer_hz", s.timerHz), ("stack_depth", s.stackDepth),
        ("unknown_opcode", .string s.policy.name), ("seed", s.seed), ("scale", s.scale),
        ("title", s.title) ] := by
    simp [plainMembers, Json.erase, toMembers]
  have known : s.plainMembers.find? (fun m => !fieldNames.contains m.1) = none := by
    simp [shape, fieldNames]
  have policy : fieldOf s.plainMembers "unknown_opcode" (.string default.policy.name) =
      .string s.policy.name := by
    simp [shape, fieldOf, Json.find?]
  have same : ({
      cpuHz := fieldOf s.plainMembers "cpu_hz" default.cpuHz
      timerHz := fieldOf s.plainMembers "timer_hz" default.timerHz
      stackDepth := fieldOf s.plainMembers "stack_depth" default.stackDepth
      policy := s.policy
      seed := fieldOf s.plainMembers "seed" default.seed
      dialect := s.dialect
      scale := fieldOf s.plainMembers "scale" default.scale
      title := fieldOf s.plainMembers "title" default.title } : Settings) = s := by
    simp [shape, fieldOf, Json.find?]
  simp only [ofFields, List.isEmpty_nil, Bool.not_true, Bool.false_eq_true, if_false, known]
  refine bind_eq_ok.mpr ⟨s.policy, ?_, ?_⟩
  · rw [policy]
    exact policyOf_name s.policy
  · rw [same]
    exact then_eq_ok.mpr ⟨valid, rfl⟩

/-- Valid settings are what is read from the value that they are written as. -/
theorem ofJson_toJson (valid : s.validate = .ok ()) : ofJson s.toJson = .ok s := by
  have members : Members.ofJson s.toJson = .ok ⟨s.toMembers, []⟩ := by
    have all : (([] ++ s.toMembers).map Prod.fst).Nodup := s.distinct_toMembers
    have together := Json.foldl_insert all
    simp only [Members.ofJson, Members.merge, toJson, together, List.nil_append]
  have flags : fieldOf s.toMembers "quirks" (.object []) = s.dialect.toJson := by
    simp [fieldOf, Json.find?, toMembers]
  have preset : fieldOf s.toMembers "preset" .null = .null := by
    simp [fieldOf, Json.find?, toMembers]
  refine bind_eq_ok.mpr ⟨_, mapError_eq_ok.mpr members, ?_⟩
  dsimp only
  -- There is no preset, so the flags are put over those of the default dialect, all of them.
  rw [flags, preset, if_neg (by decide)]
  refine bind_eq_ok.mpr ⟨default.dialect, rfl, ?_⟩
  refine bind_eq_ok.mpr ⟨_, mapError_eq_ok.mpr (merge_flags default.dialect s.dialect), ?_⟩
  refine bind_eq_ok.mpr ⟨_, mapError_eq_ok.mpr (dialect_of_flags s.dialect), ?_⟩
  exact ofFields_plainMembers valid

def saved (s : Settings) : List UInt8 := s.save.toUTF8.data.toList

private theorem load_of_text {bytes : List UInt8} {text : String} {value : Json}
    (decoded : Text.Utf8.decode bytes = .ok text)
    (lines : String.ofList (Text.Utf8.unifyLines text.toList) = text)
    (read : Json.read text = .ok value) : load bytes = (ofJson value).mapError .settings := by
  have parsed : parse text = (ofJson value).mapError .settings := by
    unfold parse
    dsimp only
    rw [lines, read]
    rfl
  unfold load
  rw [decoded]
  exact parsed

/-- Settings that were read from a value are read from the value that they are written as, and if
reading their text undoes writing it, from the file that they are saved to. It does so for the text
of every value that can be told from its text. -/
theorem saved_settings_load (accepted : ofJson d = .ok s) :
    ofJson s.toJson = .ok s ∧
      (Json.read s.save = .ok s.toJson →
        ∃ t, load s.saved = .ok t ∧ t = s ∧ t.toJson = s.toJson) ∧
      (d.Legible → Json.read s.save = .ok s.toJson) := by
  have valid := valid_of_ofJson accepted
  have back := ofJson_toJson valid
  refine ⟨back, fun undone => ⟨s, ?_, rfl, rfl⟩, fun legible => ?_⟩
  · have text : Text.Utf8.decode s.saved = .ok s.save := Json.decode_renderIndented s.toJson
    have lines : String.ofList (Text.Utf8.unifyLines s.save.toList) = s.save :=
      Json.unifyLines_renderIndented s.toJson
    rw [load_of_text text lines undone, back]
    rfl
  · exact Json.read_renderIndented (legible_toJson legible accepted)

private theorem legible_half : (Json.float 2.5).Legible := by
  have value : Decimal.scale 25 (-1) = 2.5 := by
    have digits : (Nat.toDigits 10 25).length = 2 := by decide
    simp only [Decimal.scale, digits]
    rw [if_neg (by decide), if_neg (by decide), if_neg (by decide)]
    rfl
  have parts : Json.NumberText.of "2.5".toList = ⟨[], ['2'], ['.', '5'], []⟩ := rfl
  have spells : Json.Spells "2.5".toList (.float 2.5) := by
    refine ⟨List.all_eq_true.mp rfl, 3, ?_⟩
    rw [Json.numberAt_eq, parts, ← value]
    rfl
  have text : Json.renderFloat 2.5 = "2.5" := by decide +kernel
  refine .float ?_
  rw [text]
  exact spells.read

/-- A preset with one flag changed, a title outside of ASCII, and values of odd types. -/
def oddSettings : Json :=
  .object
    [ ("preset", .string "cosmac-vip"), ("quirks", .object [("clip_sprites", .bool false)]),
      ("title", .string "Größe \"😀\""), ("scale", .float 2.5),
      ("seed", .array [.null, .int (-7)]) ]

private theorem legible_oddSettings : oddSettings.Legible := by
  refine .object (by decide) ?_
  simp only [List.forall_mem_cons]
  refine ⟨.string _, .object (by decide) ?_, .string _, legible_half, .array ?_, nofun⟩
  · simp only [List.forall_mem_cons]
    exact ⟨.bool _, nofun⟩
  · simp only [List.forall_mem_cons]
    exact ⟨.null, .int (by decide), nofun⟩

theorem odd_settings_load :
    ∃ s, ofJson oddSettings = .ok s ∧ ofJson s.toJson = .ok s ∧
      ∃ t, load s.saved = .ok t ∧ t = s ∧ t.toJson = s.toJson := by
  have accepted : (ofJson oddSettings).toOption.isSome = true := by decide +kernel
  cases result : ofJson oddSettings with
  | error reason =>
    rw [result] at accepted
    cases accepted
  | ok s =>
    obtain ⟨back, loads, undone⟩ := saved_settings_load result
    exact ⟨s, rfl, back, loads (undone legible_oddSettings)⟩

end Settings

end Chip8
