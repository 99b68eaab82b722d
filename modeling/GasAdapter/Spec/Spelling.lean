import GasAdapter.Spec.Reading

/-! # Writing a command line down

A word is an item together with the surface form it is written in: how many dashes, and for a
Required option whether its value is attached or a separate argument. Reading the arguments of a
word from the resting state gives its item and returns to the resting state, so a list of words
is read back as the list of their items.
-/

namespace GasAdapter

open CommandLine Reading

/-- An item and its surface form. An option is written with one dash more than `extra`. -/
inductive Word where
  | positional (text : PlatformString)
  | flag (opt : CommandLineOption) (extra : ℕ) (suffix : Option PlatformString)
  | attached (opt : CommandLineOption) (extra : ℕ) (value : PlatformString)
  | separate (opt : CommandLineOption) (extra : ℕ) (value : PlatformString)
deriving DecidableEq, Repr

namespace Word

/-- The dashes and the name. -/
def dashed (extra : ℕ) (name : PlatformString) : PlatformString :=
  List.replicate (extra + 1) dash ++ name

/-- The arguments a word is written as. -/
def spell : Word → List PlatformString
  | positional text => [text]
  | flag opt extra none => [dashed extra opt.name]
  | flag opt extra (some suffix) => [dashed extra opt.name ++ equals :: suffix]
  | attached opt extra value => [dashed extra opt.name ++ equals :: value]
  | separate opt extra value => [dashed extra opt.name, value]

/-- What a word says. -/
def item : Word → Item
  | positional text => .positional text
  | flag opt _ suffix => .option opt (suffix.getD [])
  | attached opt _ value | separate opt _ value => .option opt value

/-- The option is the first with its name that the table has for the architecture. -/
def Names (targetArch : TargetArchitecture) (options : List CommandLineOption)
    (opt : CommandLineOption) : Prop := lookup targetArch options opt.name = some opt

/-- A word is well formed when its positional is neither empty nor dashed, its option is in the
table, and it has a nonempty value exactly if the option requires one. -/
def Valid (targetArch : TargetArchitecture) (options : List CommandLineOption) : Word → Prop
  | positional text => text ≠ [] ∧ isDashed text = false
  | flag opt _ _ => Names targetArch options opt ∧ opt.argument = .notRequired
  | attached opt _ value | separate opt _ value =>
      Names targetArch options opt ∧ opt.argument = .required ∧ value ≠ []

instance (targetArch : TargetArchitecture) (options : List CommandLineOption) (word : Word) :
    Decidable (word.Valid targetArch options) :=
  match word with
  | positional _ => inferInstanceAs (Decidable (_ ∧ _))
  | flag .. => inferInstanceAs (Decidable (_ = _ ∧ _))
  | attached .. => inferInstanceAs (Decidable (_ = _ ∧ _ ∧ _))
  | separate .. => inferInstanceAs (Decidable (_ = _ ∧ _ ∧ _))

end Word

/-- The names of a table can be written between dashes and an `=`. -/
def WellNamed (options : List CommandLineOption) : Prop :=
  ∀ opt ∈ options, opt.name ≠ [] ∧ equals ∉ opt.name ∧ isDashed opt.name = false

instance (options : List CommandLineOption) : Decidable (WellNamed options) :=
  inferInstanceAs (Decidable (∀ opt ∈ options, _))

namespace Word

/-! ## Reading a word back -/

theorem isDashed_dashed (extra : ℕ) (name rest : PlatformString) :
    isDashed (dashed extra name ++ rest) = true := by
  rw [dashed, List.replicate_succ]
  rfl

private theorem dropWhile_dashed (extra : ℕ) {name : PlatformString} (plain : isDashed name = false)
    (rest : PlatformString) (stops : isDashed rest = false) :
    (dashed extra name ++ rest).dropWhile (· == dash) = name ++ rest := by
  have all : ∀ c ∈ List.replicate (extra + 1) dash, (c == dash) = true := by
    intro c member
    rw [List.eq_of_mem_replicate member]
    rfl
  rw [dashed, List.append_assoc, List.dropWhile_append_of_pos all]
  cases name with
  | nil =>
    cases rest with
    | nil => rfl
    | cons c rest => exact List.dropWhile_cons_of_neg (by simpa [isDashed] using stops)
  | cons c name => exact List.dropWhile_cons_of_neg (by simpa [isDashed] using plain)

/-- The name is what stands between the dashes and the first `=`. -/
theorem optionName_dashed (extra : ℕ) {name : PlatformString} (plain : isDashed name = false)
    (noEquals : equals ∉ name) : optionName (dashed extra name) = name := by
  have all : ∀ c ∈ name, (c != equals) = true := by
    intro c member
    simpa using fun same : c = equals => noEquals (same ▸ member)
  have dropped := dropWhile_dashed extra plain [] rfl
  rw [List.append_nil, List.append_nil] at dropped
  rw [optionName, dropped, List.takeWhile_eq_self_iff.mpr all]

theorem optionName_dashed_equals (extra : ℕ) {name : PlatformString} (plain : isDashed name = false)
    (noEquals : equals ∉ name) (value : PlatformString) :
    optionName (dashed extra name ++ equals :: value) = name := by
  have all : ∀ c ∈ name, (c != equals) = true := by
    intro c member
    simpa using fun same : c = equals => noEquals (same ▸ member)
  rw [optionName, dropWhile_dashed extra plain _ rfl, List.takeWhile_append_of_pos all]
  simp

private theorem mem_dashed {extra : ℕ} {name : PlatformString} (noEquals : equals ∉ name) :
    ∀ c ∈ dashed extra name, (c != equals) = true := by
  intro c member
  rcases List.mem_append.mp member with inDashes | inName
  · rw [List.eq_of_mem_replicate inDashes]
    rfl
  · simpa using fun same : c = equals => noEquals (same ▸ inName)

theorem attachedValue_dashed (extra : ℕ) {name : PlatformString} (noEquals : equals ∉ name) :
    attachedValue (dashed extra name) = [] := by
  rw [attachedValue, List.dropWhile_eq_nil_iff.mpr (mem_dashed noEquals)]
  rfl

theorem attachedValue_dashed_equals (extra : ℕ) {name : PlatformString} (noEquals : equals ∉ name)
    (value : PlatformString) : attachedValue (dashed extra name ++ equals :: value) = value := by
  rw [attachedValue, List.dropWhile_append_of_pos (mem_dashed noEquals)]
  simp

section Reads

variable {targetArch : TargetArchitecture} {options : List CommandLineOption} (named : WellNamed options)
  {opt : CommandLineOption} (names : Names targetArch options opt)

include named names

private theorem readable : isDashed opt.name = false ∧ equals ∉ opt.name := by
  have listed := List.mem_of_find?_eq_some names
  exact ⟨(named opt listed).2.2, (named opt listed).2.1⟩

/-- Without an `=`, the option is found and has no attached value. -/
theorem reads_bare (extra : ℕ) :
    isDashed (dashed extra opt.name) = true ∧
      lookup targetArch options (optionName (dashed extra opt.name)) = some opt ∧
      attachedValue (dashed extra opt.name) = [] := by
  obtain ⟨plain, noEquals⟩ := readable named names
  have dashes := isDashed_dashed extra opt.name []
  rw [List.append_nil] at dashes
  rw [optionName_dashed extra plain noEquals]
  exact ⟨dashes, names, attachedValue_dashed extra noEquals⟩

/-- With an `=`, the option is found with the text after the first of them. -/
theorem reads_equals (extra : ℕ) (value : PlatformString) :
    isDashed (dashed extra opt.name ++ equals :: value) = true ∧
      lookup targetArch options (optionName (dashed extra opt.name ++ equals :: value)) = some opt ∧
      attachedValue (dashed extra opt.name ++ equals :: value) = value := by
  obtain ⟨plain, noEquals⟩ := readable named names
  rw [optionName_dashed_equals extra plain noEquals]
  exact ⟨isDashed_dashed extra opt.name _, names, attachedValue_dashed_equals extra noEquals value⟩

end Reads

/-- From the resting state, the arguments of a word are read as its item. -/
theorem run_spell {targetArch : TargetArchitecture} {options : List CommandLineOption}
    (named : WellNamed options) {word : Word} (valid : word.Valid targetArch options) :
    (reader targetArch options).run none word.spell = (none, [word.item]) := by
  cases word with
  | positional text =>
    rw [spell, run_positional valid.1 valid.2]
    rfl
  | flag opt extra suffix =>
    obtain ⟨names, notRequired⟩ := valid
    have complete (value : PlatformString) : opt.argument = .required → value ≠ [] := by
      intro required
      rw [notRequired] at required
      cases required
    cases suffix with
    | none =>
      obtain ⟨dashes, known, bare⟩ := reads_bare named names extra
      rw [spell, run_option dashes known (complete _), bare]
      rfl
    | some suffix =>
      obtain ⟨dashes, known, given⟩ := reads_equals named names extra suffix
      rw [spell, run_option dashes known (complete _), given]
      rfl
  | attached opt extra value =>
    obtain ⟨names, -, full⟩ := valid
    obtain ⟨dashes, known, given⟩ := reads_equals named names extra value
    rw [spell, run_option dashes known (fun _ => given.symm ▸ full), given]
    rfl
  | separate opt extra value =>
    obtain ⟨names, required, full⟩ := valid
    obtain ⟨dashes, known, bare⟩ := reads_bare named names extra
    rw [spell, run_waits dashes known required bare, run_value opt full]
    rfl

/-- A command line written from words says their items, and leaves nothing waiting. -/
theorem items_spell {targetArch : TargetArchitecture} {options : List CommandLineOption}
    (named : WellNamed options) {words : List Word} (valid : ∀ word ∈ words, word.Valid targetArch options) :
    items targetArch options (words.flatMap spell) = words.map item ∧
      pending targetArch options (words.flatMap spell) = none := by
  have whole := (reader targetArch options).run_flatMap spell item none words
    (fun word member => run_spell named (valid word member))
  rw [items, pending, whole]
  exact ⟨rfl, rfl⟩

end Word

end GasAdapter
