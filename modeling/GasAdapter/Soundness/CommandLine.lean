import GasAdapter.Model.Gas
import GasAdapter.Proofs.CommandLine
import GasAdapter.Spec.Spelling

/-! # What the parser makes of a command line

Whatever is written down word by word is read back: the callback is called once for every item,
with its option and value, and the positional arguments are numbered from zero. How a Required
option finds its value is the same rule for every argument list, up to empty values.
-/

namespace GasAdapter.CommandLine

open Reading

/-! ## Round trip -/

/-- The item a callback is told. -/
def callItem : Call → Option Item
  | (.positional _, .string text) => some (.positional text)
  | (.option opt, .string value) => some (.option opt value)
  | (_, .bool _) => none

/-- The number a positional argument is given. -/
def callNumber : Call → Option UInt32
  | (.positional count, _) => some count
  | (.option _, _) => none

theorem calls_items (count : UInt32) (words : List Word) :
    (calls count (words.map Word.item)).map callItem = words.map fun word => some word.item := by
  induction words generalizing count with
  | nil => rfl
  | cons word rest ih =>
    cases word
    case positional text => exact congrArg (_ :: ·) (ih (count + 1))
    all_goals exact congrArg (_ :: ·) (ih count)

/-- As long as the counter does not wrap, positional arguments are numbered one after the other. -/
theorem calls_numbers (first : ℕ) (items : List Item) (few : first + positionalCount items ≤ UInt32.size) :
    ((calls (UInt32.ofNat first) items).filterMap callNumber).map UInt32.toNat =
      List.range' first (positionalCount items) := by
  induction items generalizing first with
  | nil => rfl
  | cons item rest ih =>
    cases item with
    | positional text =>
      rw [positionalCount_cons_positional] at few ⊢
      have tail := ih (first + 1) (by omega)
      have small : (UInt32.ofNat first).toNat = first := UInt32.toNat_ofNat_of_lt' (by omega)
      have next : UInt32.ofNat first + 1 = UInt32.ofNat (first + 1) := (UInt32.ofNat_add first 1).symm
      rw [Nat.add_comm 1, List.range'_succ, ← tail, ← next, ← small]
      simp [calls, callNumber, small]
    | option opt value => exact ih first few
    | unrecognized arg => exact ih first few

/-- Parsing undoes writing: for every table with proper names and every list of words in any surface
form, one callback per word, in order, with positional arguments numbered from 0. -/
theorem recorded_spell {targetArch : TargetArchitecture} {options : List CommandLineOption}
    (named : WellNamed options) {words : List Word} (valid : ∀ word ∈ words, word.Valid targetArch options)
    (few : positionalCount (words.map Word.item) < UInt32.size) (program : PlatformString) :
    ∃ made, recorded targetArch options (program :: words.flatMap Word.spell) = (true, made) ∧
      made.map callItem = words.map (fun word => some word.item) ∧
      (made.filterMap callNumber).map UInt32.toNat = List.range (positionalCount (words.map Word.item)) := by
  obtain ⟨said, rest⟩ := Word.items_spell named valid
  refine ⟨calls 0 (words.map Word.item), ?_, calls_items 0 words, ?_⟩
  · rw [recorded_eq, List.drop_one, List.tail_cons, said, rest]
    rfl
  · rw [List.range_eq_range']
    exact calls_numbers 0 _ (by omega)

/-- A positional, a flag with a suffix and a separate value that looks like an option, for the
wrapper's own table. -/
theorem recorded_spell_three :
    let output : CommandLineOption := { name := pstr "o", id := .o, argument := .required }
    let debug : CommandLineOption := { name := pstr "g", id := .g }
    ∃ made, recorded .x64 Gas.allOptions
        [pstr "as", pstr "a.s", pstr "--g=x=y", pstr "-o", pstr "-g"] = (true, made) ∧
      made.map callItem = [some (.positional (pstr "a.s")), some (.option debug (pstr "x=y")),
        some (.option output (pstr "-g"))] ∧
      (made.filterMap callNumber).map UInt32.toNat = [0] := by
  intro output debug
  have words : ∀ word ∈ [Word.positional (pstr "a.s"), .flag debug 1 (some (pstr "x=y")),
      .separate output 0 (pstr "-g")], word.Valid .x64 Gas.allOptions := by decide
  exact recorded_spell (by decide) words (by decide) (pstr "as")

/-! ## The value of a Required option -/

/-- The value the argument of a Required option asks for, with the arguments that remain: the text
after the first `=`, or else the next argument, whatever it is. -/
def verbatimValue (arg : PlatformString) (after : List PlatformString) :
    Option (PlatformString × List PlatformString) :=
  if equals ∈ arg then some (attachedValue arg, after)
  else
    match after with
    | [] => none
    | next :: rest => some (next, rest)

/-- The number of positional arguments among some calls. -/
def positionals (made : List Call) : ℕ := (made.filterMap callNumber).length

/-- What the parser does with more arguments after some calls. -/
def resumed (targetArch : TargetArchitecture) (options : List CommandLineOption) (made : List Call)
    (args : List PlatformString) : Bool × List Call :=
  (parseLoop targetArch options recordCall unheard { positionalCount := UInt32.ofNat (positionals made) } args).run []

/-- The parser gives `opt`, named by `arg`, exactly the value that `arg` asks for, and reads the
arguments that remain as it would read them by themselves. -/
def TakesVerbatim (targetArch : TargetArchitecture) (options : List CommandLineOption)
    (program : PlatformString) (before : List PlatformString) (arg : PlatformString)
    (after : List PlatformString) (opt : CommandLineOption) : Prop :=
  let made := (recorded targetArch options (program :: before)).2
  recorded targetArch options (program :: (before ++ arg :: after)) =
    match verbatimValue arg after with
    | none => (false, made)
    | some (value, rest) =>
        let later := resumed targetArch options made rest
        (later.1, made ++ (.option opt, .string value) :: later.2)

instance (targetArch : TargetArchitecture) (options : List CommandLineOption) (program : PlatformString)
    (before : List PlatformString) (arg : PlatformString) (after : List PlatformString)
    (opt : CommandLineOption) :
    Decidable (TakesVerbatim targetArch options program before arg after opt) :=
  inferInstanceAs (Decidable (recorded .. = _))

section Verbatim

variable {targetArch : TargetArchitecture} {options : List CommandLineOption} {program : PlatformString}
  {before : List PlatformString}

theorem positionals_calls (count : UInt32) (items : List Item) :
    positionals (calls count items) = positionalCount items := by
  induction items generalizing count with
  | nil => rfl
  | cons item rest ih =>
    cases item with
    | positional text =>
      rw [positionalCount_cons_positional, ← ih (count + 1), Nat.add_comm]
      rfl
    | option opt value => exact ih count
    | unrecognized arg => exact ih count

theorem mem_calls {opt : CommandLineOption} {value : PlatformString} {count : UInt32} {items : List Item}
    (member : (CallbackOption.option opt, OptionValue.string value) ∈ calls count items) :
    Item.option opt value ∈ items := by
  induction items generalizing count with
  | nil => contradiction
  | cons item rest ih =>
    cases item with
    | positional text =>
      rcases List.mem_cons.mp member with same | later
      · cases same
      · exact List.mem_cons_of_mem _ (ih later)
    | option other text =>
      rcases List.mem_cons.mp member with same | later
      · cases same
        exact List.mem_cons_self ..
      · exact List.mem_cons_of_mem _ (ih later)
    | unrecognized arg => exact List.mem_cons_of_mem _ (ih member)

/-- A Required option is never given an empty value. -/
theorem empty_not_mem_recorded {opt : CommandLineOption} (required : opt.argument = .required)
    (args : List PlatformString) :
    (CallbackOption.option opt, OptionValue.string []) ∉ (recorded targetArch options args).2 := by
  rw [recorded_eq]
  intro member
  exact ((items_wellRead targetArch options (args.drop 1)).2 _ (mem_calls member)).2 required rfl

theorem resumed_eq (items : List Item) (args : List PlatformString) :
    resumed targetArch options (calls 0 items) args =
      ((pending targetArch options args).isNone,
        calls (UInt32.ofNat (positionalCount items)) (Reading.items targetArch options args)) := by
  rw [resumed, positionals_calls]
  exact parseLoop_recordCall targetArch options _ args

/-- After arguments that leave nothing waiting, the parser goes on with the next ones. -/
theorem recorded_append (position : (recorded targetArch options (program :: before)).1 = true)
    (args : List PlatformString) :
    recorded targetArch options (program :: (before ++ args)) =
      ((pending targetArch options args).isNone,
        (recorded targetArch options (program :: before)).2 ++
          calls (UInt32.ofNat (positionalCount (items targetArch options before)))
            (items targetArch options args)) := by
  rw [recorded_eq] at position ⊢
  rw [recorded_eq]
  simp only [List.drop_one, List.tail_cons] at position ⊢
  have rested : ((reader targetArch options).run none before).1 = none := by simpa [pending] using position
  have whole := (reader targetArch options).run_append none before args
  rw [rested] at whole
  rw [items, pending, whole, calls_append, UInt32.zero_add]
  rfl

theorem attachedValue_bare {arg : PlatformString} (noEquals : equals ∉ arg) : attachedValue arg = [] := by
  have all : ∀ c ∈ arg, (c != equals) = true := by
    intro c member
    simpa using fun same : c = equals => noEquals (same ▸ member)
  rw [attachedValue, List.dropWhile_eq_nil_iff.mpr all]
  rfl

/-- An argument whose value is taken is read as its option, and the rest as by itself. -/
private theorem recorded_taken {arg value : PlatformString} {after rest : List PlatformString}
    {opt : CommandLineOption} (position : (recorded targetArch options (program :: before)).1 = true)
    (taken : (reader targetArch options).run none (arg :: after) =
      (((reader targetArch options).run none rest).1,
        .option opt value :: ((reader targetArch options).run none rest).2)) :
    let made := (recorded targetArch options (program :: before)).2
    let later := resumed targetArch options made rest
    recorded targetArch options (program :: (before ++ arg :: after)) =
      (later.1, made ++ (.option opt, .string value) :: later.2) := by
  have made : (recorded targetArch options (program :: before)).2 =
      calls 0 (items targetArch options before) := by
    rw [recorded_eq]
    rfl
  have said : items targetArch options (arg :: after) = .option opt value :: items targetArch options rest := by
    rw [items, taken]
    rfl
  have left : pending targetArch options (arg :: after) = pending targetArch options rest := by
    rw [pending, taken]
    rfl
  rw [recorded_append position, left, said, made]
  simp only [resumed_eq]
  rfl

/-- Which values are taken verbatim: all but an empty text after an `=` and an empty next argument,
which are both skipped. -/
theorem takesVerbatim_iff {arg : PlatformString} {after : List PlatformString} {opt : CommandLineOption}
    (position : (recorded targetArch options (program :: before)).1 = true) (dashed : isDashed arg = true)
    (known : lookup targetArch options (optionName arg) = some opt) (required : opt.argument = .required) :
    TakesVerbatim targetArch options program before arg after opt ↔
      (equals ∈ arg → attachedValue arg ≠ []) ∧ (equals ∉ arg → after.head? ≠ some []) := by
  -- an empty value would have to be among the callbacks, but a Required option never gets one
  have never : (CallbackOption.option opt, OptionValue.string []) ∉
      (recorded targetArch options (program :: (before ++ arg :: after))).2 :=
    empty_not_mem_recorded required _
  unfold TakesVerbatim verbatimValue
  by_cases given : equals ∈ arg
  · rw [if_pos given]
    by_cases empty : attachedValue arg = []
    · constructor
      · intro verbatim
        rw [verbatim, empty] at never
        exact (never (List.mem_append_right _ (List.mem_cons_self ..))).elim
      · rintro ⟨full, -⟩
        exact (full given empty).elim
    · constructor
      · rintro -
        exact ⟨fun _ => empty, fun bare => (bare given).elim⟩
      · rintro -
        exact recorded_taken position (run_option dashed known (fun _ => empty))
  · have bare := attachedValue_bare given
    rw [if_neg given]
    cases after with
    | nil =>
      constructor
      · rintro -
        exact ⟨fun has => (given has).elim, by simp⟩
      · rintro -
        have waits : (reader targetArch options).run none [arg] = (some opt, []) :=
          run_waits dashed known required bare
        have said : items targetArch options [arg] = [] := by rw [items, waits]
        have left : pending targetArch options [arg] = some opt := by rw [pending, waits]
        rw [recorded_append position, said, left]
        simp [calls]
    | cons next rest =>
      by_cases empty : next = []
      · subst empty
        constructor
        · intro verbatim
          rw [verbatim] at never
          exact (never (List.mem_append_right _ (List.mem_cons_self ..))).elim
        · rintro ⟨-, full⟩
          exact (full given rfl).elim
      · constructor
        · rintro -
          exact ⟨fun has => (given has).elim, fun _ => by simpa using empty⟩
        · rintro -
          refine recorded_taken position ?_
          rw [run_waits dashed known required bare, run_value opt empty]

end Verbatim

/-- `-o -g` takes `-g`. -/
theorem takesVerbatim_dashed :
    TakesVerbatim .x64 Gas.allOptions (pstr "as") [pstr "a.s"] (pstr "-o") [pstr "-g", pstr "b.s"]
      { name := pstr "o", id := .o, argument := .required } :=
  (takesVerbatim_iff rfl rfl rfl rfl).mpr ⟨by decide, by decide⟩

/-- After `-o=` and after `-o` with an empty argument the next input file becomes the output. -/
theorem not_takesVerbatim :
    ¬TakesVerbatim .x64 Gas.allOptions (pstr "as") [] (pstr "-o=") [pstr "a.s"]
        { name := pstr "o", id := .o, argument := .required } ∧
      ¬TakesVerbatim .x64 Gas.allOptions (pstr "as") [] (pstr "-o") [[], pstr "a.s"]
        { name := pstr "o", id := .o, argument := .required } ∧
      recorded .x64 Gas.allOptions [pstr "as", pstr "-o=", pstr "a.s"] =
        (true, [(.option { name := pstr "o", id := .o, argument := .required }, .string (pstr "a.s"))]) := by
  refine ⟨by decide, by decide, by decide⟩

end GasAdapter.CommandLine
