import GasAdapter.Proofs.Accepted
import GasAdapter.Spec.Spelling

/-! # Which part of a command line matters

A run is the script of its request, and of the request it only uses the inputs, the last output,
the floating-point units and which flags were read. Two command lines that agree on these run
alike, so their words may be moved and ignored options inserted or removed.
-/

namespace GasAdapter

open Reading Request

/-- Two lists of items agree on everything a run uses. -/
structure SameProjection (first second : List Item) : Prop where
  inputs : first.filterMap inputOf = second.filterMap inputOf
  output : (valuesNamed (pstr "o") first).getLast? = (valuesNamed (pstr "o") second).getLast?
  fpus : valuesNamed (pstr "mfpu") first = valuesNamed (pstr "mfpu") second
  debug : readsNamed [pstr "g", pstr "gen-debug"] first = readsNamed [pstr "g", pstr "gen-debug"] second
  help : readsNamed [pstr "h", pstr "help"] first = readsNamed [pstr "h", pstr "help"] second
  version : readsNamed [pstr "V"] first = readsNamed [pstr "V"] second
  versionExit : readsNamed [pstr "version"] first = readsNamed [pstr "version"] second

/-- Items with the same projection lead to the same script. -/
theorem Plan.ofItems_congr (os : Platform) (env : Environment) (programDir : FsPath)
    (target : Gas.Target) (complete : Bool) {first second : List PlatformString}
    (same : SameProjection (said target first) (said target second)) :
    ofItems os env programDir target (said target first) complete =
      ofItems os env programDir target (said target second) complete := by
  simp only [ofItems, ofItems_said, Request.output, Request.settings, same.inputs, same.output, same.fpus,
    same.debug, same.help, same.version, same.versionExit]

namespace Gas

/-! ## Command lines written from words -/

/-- A name that selects a target is given by the architecture parameter. -/
theorem selector_isPrefix {os : Platform} {program selector : PlatformString} {rest : List PlatformString}
    {target : Target}
    (selected : selectTarget os (requestedName (program :: selector :: rest)) = some target) :
    Constants.archHackParam <+: selector := by
  by_contra other
  have generic : requestedName (program :: selector :: rest) = genericGasName := by
    have noPrefix : Constants.archHackParam.isPrefixOf selector = false :=
      eq_false_of_ne_true (mt List.isPrefixOf_iff_prefix.mp other)
    simp [requestedName, noPrefix]
  rw [generic] at selected
  cases os <;> cases selected

/-- The architecture parameter says nothing else. -/
theorem said_words {os : Platform} {program selector : PlatformString} {target : Target}
    (selected : selectTarget os (requestedName [program, selector]) = some target) {words : List Word}
    (valid : ∀ word ∈ words, word.Valid target.arch allOptions) :
    Plan.said target (program :: selector :: words.flatMap Word.spell) =
        .positional selector :: words.map Word.item ∧
      Plan.complete target (program :: selector :: words.flatMap Word.spell) = true := by
  obtain ⟨rest, rfl⟩ := selector_isPrefix selected
  obtain ⟨said, nothing⟩ := Word.items_spell (by decide : WellNamed allOptions) valid
  have read := @run_positional target.arch allOptions (Constants.archHackParam ++ rest)
    (words.flatMap Word.spell) (by simp [Constants.archHackParam, pstr]) rfl
  rw [items] at said
  rw [pending] at nothing
  rw [Plan.said, Plan.complete, items, pending, List.drop_one, List.tail_cons, read, said, nothing]
  exact ⟨rfl, rfl⟩

theorem determineProgramDir_cons (os : Platform) (env : Environment) (program : PlatformString)
    (rest : List PlatformString) :
    determineProgramDir os env (program :: rest) = determineProgramDir os env [program] := by
  cases os <;> rfl

end Gas

/-! ## Projections -/

namespace SameProjection

theorem cons_positional {selector : PlatformString} {first second : List Item}
    (same : SameProjection first second) :
    SameProjection (.positional selector :: first) (.positional selector :: second) where
  inputs := by rw [List.filterMap_cons, List.filterMap_cons, same.inputs]
  output := same.output
  fpus := same.fpus
  debug := same.debug
  help := same.help
  version := same.version
  versionExit := same.versionExit

/-- A change in the middle keeps the projection when it keeps the outputs there as well. -/
theorem middle {first second : List Item} (same : SameProjection first second)
    (outputs : valuesNamed (pstr "o") first = valuesNamed (pstr "o") second) (before after : List Item) :
    SameProjection (before ++ (first ++ after)) (before ++ (second ++ after)) where
  inputs := by simp only [List.filterMap_append, same.inputs]
  output := by simp only [valuesNamed_append, outputs]
  fpus := by simp only [valuesNamed_append, same.fpus]
  debug := by simp only [readsNamed_append, same.debug]
  help := by simp only [readsNamed_append, same.help]
  version := by simp only [readsNamed_append, same.version]
  versionExit := by simp only [readsNamed_append, same.versionExit]

end SameProjection

namespace Word

/-- An option the wrapper ignores, or `--warn`. -/
def Ignored : Word → Prop
  | flag opt _ _ => opt.id = .ignore ∨ opt.id = .warn
  | _ => False

/-- The name of the option, if the word is one. -/
def optionNamed : Word → Option PlatformString
  | positional _ => none
  | flag opt _ _ | attached opt _ _ | separate opt _ _ => some opt.name

/-- Reading the two words in either order gives the same values: they are not both `-o` and not
both `-mfpu`. -/
def Independent (first second : Word) : Prop :=
  ∀ name ∈ [pstr "o", pstr "mfpu"], first.optionNamed = some name → second.optionNamed ≠ some name

theorem ignored_sameProjection {targetArch : TargetArchitecture} {word : Word}
    (valid : word.Valid targetArch Gas.allOptions) (ignored : word.Ignored) :
    SameProjection [word.item] [] ∧ valuesNamed (pstr "o") [word.item] = [] := by
  have unused : ∀ opt ∈ Gas.allOptions, opt.id = .ignore ∨ opt.id = .warn →
      opt.name ∉ [pstr "o", pstr "mfpu", pstr "g", pstr "gen-debug", pstr "h", pstr "help", pstr "V",
        pstr "version"] := by decide
  cases word with
  | positional text => exact ignored.elim
  | attached opt extra value => exact ignored.elim
  | separate opt extra value => exact ignored.elim
  | flag opt extra suffix =>
    have listed := List.mem_of_find?_eq_some valid.1
    have other := unused opt listed ignored
    simp only [List.mem_cons, List.not_mem_nil, or_false, not_or] at other
    refine ⟨?_, by simp [item, valuesNamed, other]⟩
    constructor <;> simp [item, valuesNamed, readsNamed, inputOf, other]

private theorem valuesNamed_item {name : PlatformString} {word : Word} (other : word.optionNamed ≠ some name) :
    valuesNamed name [word.item] = [] := by
  cases word with
  | positional text => rfl
  | flag opt extra suffix => simpa [item, valuesNamed, optionNamed] using other
  | attached opt extra value => simpa [item, valuesNamed, optionNamed] using other
  | separate opt extra value => simpa [item, valuesNamed, optionNamed] using other

private theorem valuesNamed_swap {name : PlatformString} {first second : Word}
    (apart : first.optionNamed = some name → second.optionNamed ≠ some name) :
    valuesNamed name [first.item, second.item] = valuesNamed name [second.item, first.item] := by
  have split (first second : Word) : valuesNamed name [first.item, second.item] =
      valuesNamed name [first.item] ++ valuesNamed name [second.item] := valuesNamed_append name [_] [_]
  rw [split, split]
  by_cases same : first.optionNamed = some name
  · rw [valuesNamed_item (apart same), List.append_nil, List.nil_append]
  · rw [valuesNamed_item same, List.append_nil, List.nil_append]

private theorem readsNamed_swap (names : List PlatformString) (first second : Item) :
    readsNamed names [first, second] = readsNamed names [second, first] := by
  have split (first second : Item) : readsNamed names [first, second] =
      (readsNamed names [first] || readsNamed names [second]) := readsNamed_append names [_] [_]
  rw [split, split, Bool.or_comm]

/-- An option may be moved past another word unless both set the same value. -/
theorem swap_sameProjection {first second : Word} (option : first.optionNamed.isSome = true)
    (independent : first.Independent second) :
    SameProjection [first.item, second.item] [second.item, first.item] ∧
      valuesNamed (pstr "o") [first.item, second.item] = valuesNamed (pstr "o") [second.item, first.item] := by
  have outputs : valuesNamed (pstr "o") [first.item, second.item] =
      valuesNamed (pstr "o") [second.item, first.item] :=
    valuesNamed_swap (independent _ (List.mem_cons_self ..))
  have noInput : inputOf first.item = none := by
    cases first with
    | positional text => contradiction
    | flag opt extra suffix => rfl
    | attached opt extra value => rfl
    | separate opt extra value => rfl
  refine ⟨?_, outputs⟩
  constructor
  · simp only [List.filterMap_cons, noInput]
  · rw [outputs]
  · exact valuesNamed_swap (independent _ (List.mem_cons_of_mem _ (List.mem_cons_self ..)))
  all_goals exact readsNamed_swap ..

end Word

namespace Gas

/-- A command line with its program and architecture parameter. -/
def written (program selector : PlatformString) (words : List Word) : List PlatformString :=
  program :: selector :: words.flatMap Word.spell

/-- An unknown architecture ends the run before the command line is read. -/
theorem run_unselected (os : Platform) (env : Environment) {program selector : PlatformString}
    (unselected : selectTarget os (requestedName [program, selector]) = none) (words : List Word) :
    Plan.ofArguments os env (written program selector words) =
      match determineProgramDir os env [program] with
      | .error e => [.fail e]
      | .ok _ => [.stop 1] := by
  have name : requestedName (written program selector words) = requestedName [program, selector] := rfl
  rw [Plan.ofArguments, written, determineProgramDir_cons]
  cases determineProgramDir os env [program] with
  | error e => rfl
  | ok programDir =>
    rw [written] at name
    simp only [name, unselected]

/-- Only the projection of a command line matters to a run. -/
theorem run_congr (os : Platform) (env : Environment) {program selector : PlatformString}
    {arch : TargetArchitecture}
    (selects : ∀ target, selectTarget os (requestedName [program, selector]) = some target →
      target.arch = arch)
    {first second : List Word} (firstValid : ∀ word ∈ first, word.Valid arch allOptions)
    (secondValid : ∀ word ∈ second, word.Valid arch allOptions)
    (same : SameProjection (first.map Word.item) (second.map Word.item)) :
    run os env (written program selector first) = run os env (written program selector second) := by
  have plan : Plan.ofArguments os env (written program selector first) =
      Plan.ofArguments os env (written program selector second) := by
    cases selected : selectTarget os (requestedName [program, selector]) with
    | none => rw [run_unselected os env selected, run_unselected os env selected]
    | some target =>
      obtain rfl := selects target selected
      obtain ⟨firstSaid, firstComplete⟩ := said_words selected firstValid
      obtain ⟨secondSaid, secondComplete⟩ := said_words selected secondValid
      have name (words : List Word) :
          requestedName (written program selector words) = requestedName [program, selector] := rfl
      have located (words : List Word) : determineProgramDir os env (written program selector words) =
          determineProgramDir os env [program] := determineProgramDir_cons os env program _
      simp only [Plan.ofArguments, name, located, selected]
      cases determineProgramDir os env [program] with
      | error e => rfl
      | ok programDir =>
        simp only [written, firstComplete, secondComplete]
        apply Plan.ofItems_congr
        rw [firstSaid, secondSaid]
        exact same.cons_positional
  funext started
  rw [run_eq, run_eq, plan]

/-- Only the projection of a command line matters to a run: words that agree on the inputs, the last
output, the floating-point units and the flags run alike. So an ignored option may be inserted or
removed between any two words, and an option may be moved past any word that does not set the same
value. The words are those of the selected architecture, if one is selected. -/
theorem run_projection (os : Platform) (env : Environment) {program selector : PlatformString}
    {arch : TargetArchitecture}
    (selects : ∀ target, selectTarget os (requestedName [program, selector]) = some target →
      target.arch = arch) :
    (∀ first second : List Word, (∀ word ∈ first, word.Valid arch allOptions) →
      (∀ word ∈ second, word.Valid arch allOptions) →
      SameProjection (first.map Word.item) (second.map Word.item) →
      run os env (written program selector first) = run os env (written program selector second)) ∧
    (∀ before word after, (∀ w ∈ before ++ word :: after, w.Valid arch allOptions) →
      word.Ignored →
      run os env (written program selector (before ++ word :: after)) =
        run os env (written program selector (before ++ after))) ∧
    (∀ before first second after,
      (∀ word ∈ before ++ first :: second :: after, word.Valid arch allOptions) →
      first.optionNamed.isSome = true → first.Independent second →
      run os env (written program selector (before ++ first :: second :: after)) =
        run os env (written program selector (before ++ second :: first :: after))) := by
  refine ⟨fun first second firstValid secondValid same =>
    run_congr os env selects firstValid secondValid same, ?_, ?_⟩
  · intro before word after valid ignored
    obtain ⟨same, outputs⟩ := Word.ignored_sameProjection (valid word (by simp)) ignored
    apply run_congr os env selects valid
    · intro other member
      apply valid other
      simp only [List.mem_append, List.mem_cons] at member ⊢
      tauto
    · simpa using same.middle outputs (before.map Word.item) (after.map Word.item)
  · intro before first second after valid option independent
    obtain ⟨same, outputs⟩ := Word.swap_sameProjection option independent
    apply run_congr os env selects valid
    · intro other member
      apply valid other
      simp only [List.mem_append, List.mem_cons] at member ⊢
      tauto
    · simpa using same.middle outputs (before.map Word.item) (after.map Word.item)

/-- `-o x a.s --warn` and `a.s -o=x` run alike. -/
theorem run_projection_moved :
    run .posix .ready [pstr "/ndk/as", pstr "@gas-arch=x86_64-linux-android-as", pstr "-o", pstr "x",
        pstr "a.s", pstr "--warn"] =
      run .posix .ready [pstr "/ndk/as", pstr "@gas-arch=x86_64-linux-android-as", pstr "a.s",
        pstr "-o=x"] := by
  let output : CommandLineOption := { name := pstr "o", id := .o, argument := .required }
  let warn : CommandLineOption := { name := pstr "warn", id := .warn }
  have same : SameProjection
      ([Word.separate output 0 (pstr "x"), .positional (pstr "a.s"), .flag warn 1 none].map Word.item)
      ([Word.positional (pstr "a.s"), .attached output 0 (pstr "x")].map Word.item) := by
    constructor <;> decide
  have selects : ∀ target, selectTarget .posix (requestedName [pstr "/ndk/as",
      pstr "@gas-arch=x86_64-linux-android-as"]) = some target → target.arch = .x64 := by
    rintro target selected
    cases selected
    rfl
  exact (run_projection .posix .ready selects).1 _ _ (by decide) (by decide) same

end Gas

end GasAdapter
