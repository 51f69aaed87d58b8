import Chip8.Proofs.Layers
import Chip8.Proofs.Usable

set_option autoImplicit false
set_option relaxedAutoImplicit false

namespace Chip8

/-- The bytes of a file are the text of a value. -/
def Settings.Spells (bytes : List UInt8) (value : Json) : Prop :=
  ∃ text, Text.Utf8.decode bytes = .ok text ∧
    Json.read (String.ofList (Text.Utf8.unifyLines text.toList)) = .ok value

private theorem Settings.ofJson_of_load {bytes : List UInt8} {value : Json} {s : Settings}
    (spells : Spells bytes value) (loaded : load bytes = .ok s) : ofJson value = .ok s := by
  obtain ⟨text, decoded, read⟩ := spells
  obtain ⟨text', decoded', parsed⟩ := bind_eq_ok.mp loaded
  rw [decoded] at decoded'
  cases decoded'
  obtain ⟨value', read', settled⟩ := bind_eq_ok.mp parsed
  rw [read] at read'
  cases read'
  exact mapError_eq_ok.mp settled

namespace CommandLine

variable {c : Choices} {files : Files} {below s : Settings}

/-- The name of the file of settings, if there is to be one. An empty name is that of no file. -/
def Choices.file? (c : Choices) : Option String := c.config.filter (· ≠ "")

/-- The settings below the flags. -/
inductive Below (c : Choices) (files : Files) : Settings → Prop where
  | usual : c.file? = none → Below c files .default
  | file {name : String} {bytes : List UInt8} {s : Settings} : c.file? = some name →
      files name = .ok bytes → Settings.load bytes = .ok s → Below c files s

/-- A value that comes from a flag if it is given, else from below. -/
structure Topmost {α β : Type} (flag : Option α) (read : α → β) (below value : β) : Prop where
  given : ∀ a, flag = some a → value = read a
  missing : flag = none → value = below

structure Combined (c : Choices) (below s : Settings) : Prop where
  cpuHz : Topmost c.cpuHz .int below.cpuHz s.cpuHz
  scale : Topmost c.scale .int below.scale s.scale
  seed : Topmost c.seed .int below.seed s.seed
  policy : Topmost c.policy id below.policy s.policy
  dialect : Topmost c.dialect id below.dialect s.dialect
  timerHz : s.timerHz = below.timerHz
  stackDepth : s.stackDepth = below.stackDepth
  title : s.title = below.title

private theorem topmost_iff {α β : Type} {flag : Option α} {read : α → β} {below value : β} :
    Topmost flag read below value ↔ value = (flag.map read).getD below := by
  constructor
  · rintro ⟨given, missing⟩
    cases flag with
    | none => exact missing rfl
    | some a => exact given a rfl
  · rintro rfl
    cases flag with
    | none => exact ⟨nofun, fun _ => rfl⟩
    | some a => exact ⟨fun _ same => congrArg read (Option.some.inj same), nofun⟩

private theorem combined_iff : Combined c below s ↔ s = c.over below := by
  constructor
  · rintro ⟨cpuHz, scale, seed, policy, dialect, timerHz, stackDepth, title⟩
    rw [topmost_iff] at cpuHz scale seed policy dialect
    rw [Option.map_id] at policy dialect
    cases s
    rw [Choices.over, Settings.mk.injEq]
    exact ⟨cpuHz, timerHz, stackDepth, policy, seed, dialect, scale, title⟩
  · rintro rfl
    refine ⟨topmost_iff.mpr rfl, topmost_iff.mpr rfl, topmost_iff.mpr rfl, ?_, ?_, rfl, rfl, rfl⟩
    · rw [topmost_iff, Option.map_id]
      rfl
    · rw [topmost_iff, Option.map_id]
      rfl

private theorem file?_eq_some_iff {name : String} :
    c.file? = some name ↔ c.config = some name ∧ name ≠ "" := by
  simp [Choices.file?, Option.filter_eq_some_iff]

private theorem base_of_unnamed (unnamed : c.file? = none) : c.base files = .ok .default := by
  rw [Choices.file?] at unnamed
  unfold Choices.base
  cases given : c.config with
  | none => rfl
  | some name =>
    rw [given] at unnamed
    have empty : name = "" := by simpa using unnamed
    exact if_pos empty

private theorem base_of_named {name : String} (named : c.file? = some name) :
    c.base files = (do
      let bytes ← (files name).mapError (.file name)
      (Settings.load bytes).mapError .content) := by
  obtain ⟨given, other⟩ := file?_eq_some_iff.mp named
  unfold Choices.base
  rw [given]
  exact if_neg other

private theorem base_eq_ok_iff : c.base files = .ok below ↔ Below c files below := by
  cases named : c.file? with
  | none =>
    rw [base_of_unnamed named]
    refine ⟨fun same => ?_, fun lies => ?_⟩
    · cases same
      exact .usual named
    · cases lies with
      | usual => rfl
      | file given => exact nomatch named.symm.trans given
  | some name =>
    rw [base_of_named named]
    refine ⟨fun settled => ?_, fun lies => ?_⟩
    · obtain ⟨bytes, found, loaded⟩ := bind_eq_ok.mp settled
      exact .file named (mapError_eq_ok.mp found) (mapError_eq_ok.mp loaded)
    · cases lies with
      | usual unnamed => exact nomatch named.symm.trans unnamed
      | file given found loaded =>
        cases named.symm.trans given
        exact bind_eq_ok.mpr ⟨_, mapError_eq_ok.mpr found, mapError_eq_ok.mpr loaded⟩

inductive Refused (c : Choices) (files : Files) : LayersError → Prop where
  | file {name : String} {reason : FileError} : c.file? = some name →
      files name = .error reason → Refused c files (.file name reason)
  | content {name : String} {bytes : List UInt8} {reason : Settings.LoadError} :
      c.file? = some name → files name = .ok bytes → Settings.load bytes = .error reason →
      Refused c files (.content reason)
  | settings {below s : Settings} {reason : Settings.Error} : Below c files below →
      Combined c below s → s.validate = .error reason → Refused c files (.settings reason)

private theorem settings_eq_ok_iff :
    c.settings files = .ok s ↔
      s.validate = .ok () ∧ ∃ below, Below c files below ∧ Combined c below s := by
  rw [Choices.settings, bind_eq_ok]
  simp only [then_eq_ok, base_eq_ok_iff, mapError_eq_ok, combined_iff]
  constructor
  · rintro ⟨below, lies, valid, same⟩
    cases same
    exact ⟨valid, below, lies, rfl⟩
  · rintro ⟨valid, below, lies, rfl⟩
    exact ⟨below, lies, valid, rfl⟩

private theorem refused_of_base {reason : LayersError} (failed : c.base files = .error reason) :
    Refused c files reason := by
  cases named : c.file? with
  | none =>
    rw [base_of_unnamed named] at failed
    cases failed
  | some name =>
    rw [base_of_named named, bind_eq_error] at failed
    obtain missing | ⟨bytes, found, failed⟩ := failed
    · obtain ⟨reason, refused, rfl⟩ := mapError_eq_error.mp missing
      exact .file named refused
    · obtain ⟨reason, refused, rfl⟩ := mapError_eq_error.mp failed
      exact .content named (mapError_eq_ok.mp found) refused

private theorem settings_eq_error_iff {reason : LayersError} :
    c.settings files = .error reason ↔ Refused c files reason := by
  constructor
  · intro failed
    obtain failed | ⟨below, lies, failed⟩ := bind_eq_error.mp failed
    · exact refused_of_base failed
    · obtain failed | ⟨-, -, done⟩ := bind_eq_error.mp failed
      · obtain ⟨reason, invalid, rfl⟩ := mapError_eq_error.mp failed
        exact .settings (base_eq_ok_iff.mp lies) (combined_iff.mpr rfl) invalid
      · cases done
  · intro refused
    refine bind_eq_error.mpr ?_
    cases refused with
    | file named missing =>
      left
      rw [base_of_named named, missing]
      rfl
    | content named found failed =>
      left
      rw [base_of_named named]
      exact bind_eq_error.mpr (.inr ⟨_, mapError_eq_ok.mpr found,
        mapError_eq_error.mpr ⟨_, failed, rfl⟩⟩)
    | settings lies combined invalid =>
      right
      rw [combined_iff] at combined
      subst combined
      exact ⟨_, base_eq_ok_iff.mpr lies,
        bind_eq_error.mpr (.inl (mapError_eq_error.mpr ⟨_, invalid, rfl⟩))⟩

private theorem preset_of_named {name : String} {dialect : Dialect}
    (known : (name, dialect) ∈ Dialect.presets) :
    Settings.preset (.string name) = .ok dialect := by
  have lone : Dialect.presets.find? (fun p => p.1 = name) = some (name, dialect) := by
    simp only [Dialect.presets, List.mem_cons, List.not_mem_nil, or_false] at known
    obtain ⟨⟨⟩⟩ | ⟨⟨⟩⟩ := known <;> rfl
  rw [Settings.preset, lone]

private theorem settings_of_preset {name : String} {dialect : Dialect}
    (known : (name, dialect) ∈ Dialect.presets) :
    Settings.ofPreset (.string name) [] = .ok { Settings.default with dialect } := by
  unfold Settings.ofPreset
  rw [preset_of_named known]
  rfl

private theorem give_preset {name : String} {c' : Choices} (given : c.give .preset name = .ok c') :
    ∃ s, Settings.ofPreset (.string name) [] = .ok s ∧
      c' = { c with dialect := some s.dialect } := by
  obtain ⟨⟨name', dialect⟩, chosen, same⟩ := bind_eq_ok.mp given
  cases found : Dialect.presets.find? fun p => p.1 = name with
  | none =>
    rw [found] at chosen
    cases chosen
  | some p =>
    rw [found] at chosen
    cases chosen
    cases same
    obtain rfl : name' = name := by simpa using List.find?_some found
    exact ⟨_, settings_of_preset (List.mem_of_find?_eq_some found), rfl⟩

/-- The settings of a run, or why there are none. A value of the file is as the file gives it, or as
usual, and the reading of the disputed instructions is that of its flags over its preset. -/
theorem settings_layered (c : Choices) (files : Files) :
    (∀ reason, c.settings files = .error reason ↔ Refused c files reason) ∧
    (∀ s, c.settings files = .ok s ↔
      s.validate = .ok () ∧ ∃ below, Below c files below ∧ Combined c below s) ∧
    (∀ name bytes members below, c.file? = some name → files name = .ok bytes →
      Settings.Spells bytes (.object members) → Settings.Regular members → Below c files below →
        Settings.FieldsOf members below ∧ ∃ base, Settings.StartsFrom members base ∧
          Settings.Overlaid (Settings.givenFlags members) base below.dialect) ∧
    ∀ name c', c.give .preset name = .ok c' →
      ∃ s, Settings.ofPreset (.string name) [] = .ok s ∧
        c' = { c with dialect := some s.dialect } := by
  refine ⟨fun _ => settings_eq_error_iff, fun _ => settings_eq_ok_iff, ?_,
    fun _ _ => give_preset⟩
  intro name bytes members below named found spells regular lies
  cases lies with
  | usual unnamed => exact nomatch named.symm.trans unnamed
  | file named' found' loaded =>
    cases named.symm.trans named'
    cases found.symm.trans found'
    have outcome := Settings.outcome_ofJson regular
    rw [Settings.ofJson_of_load spells loaded] at outcome
    cases outcome with
    | accepted _ _ _ _ fields dialect => exact ⟨fields, dialect⟩

def almostVip : List UInt8 :=
  ("\x7b\"cpu_hz\": 700, \"seed\": 5, \"preset\": \"cosmac-vip\", " ++
    "\"quirks\": \x7b\"vf_reset\": false\x7d\x7d").toUTF8.toList

def modernOver (name : String) : Choices where
  config := some name
  dialect := some .modern
  cpuHz := none
  scale := none
  seed := some 0
  policy := none
  headless := none
  level := .warning

private theorem load_almostVip :
    ∃ s, Settings.load almostVip = .ok s ∧ Settings.quote s.cpuHz = "700" ∧
      s.dialect = ⟨true, false, true, false, true, false⟩ := by
  have loads : ∃ s ∈ (Settings.load almostVip).toOption, Settings.quote s.cpuHz = "700" ∧
      s.dialect = ⟨true, false, true, false, true, false⟩ := by
    decide +kernel
  obtain ⟨s, loaded, values⟩ := loads
  exact ⟨s, mem_toOption.mp loaded, values⟩

theorem modern_over_almostVip :
    ∃ s, (modernOver "machine.json").settings (besideLoop almostVip) = .ok s ∧
      Settings.quote s.cpuHz = "700" ∧ s.seed = .int 0 ∧ s.dialect = .modern := by
  obtain ⟨below, loaded, rate, -⟩ := load_almostVip
  have lies : Below (modernOver "machine.json") (besideLoop almostVip) below :=
    .file rfl rfl loaded
  obtain ⟨-, settled, -⟩ := settings_layered (modernOver "machine.json") (besideLoop almostVip)
  -- none of the flags is among what is checked
  have same : ((modernOver "machine.json").over below).validate = below.validate := rfl
  have valid := same.trans (Settings.valid_of_load loaded)
  exact ⟨(modernOver "machine.json").over below,
    (settled _).mpr ⟨valid, below, lies, combined_iff.mpr rfl⟩, rate, rfl, rfl⟩

end CommandLine

end Chip8
