import GasAdapter.Spec.Settings

/-! # Runner operations on settings

Each public operation of the runner, applied to a store that represents some settings, leaves a
store that represents the changed settings, or throws and leaves it as it was. The arguments
`run` appends are those of the settings.
-/

namespace GasAdapter.LlvmMcRunner

open Settings

/-- A single-valued option is overwritten. -/
theorem setOption_single (argument : LlvmMcArgument) (value : PlatformString) (runner : LlvmMcRunner)
    (single : knownOptions.lookup argument = some false) (notArch : argument ≠ .arch) :
    setOption argument value runner =
      .ok () { runner with
        arguments := Function.update runner.arguments argument (some (.string value)) } := by
  have check : (argument == .arch) = false := by simpa using notArch
  simp only [setOption, getOptionDesc, single, check]
  rfl

/-- What happens to an option that may be set several times. -/
private def setAgain (argument : LlvmMcArgument) (value : PlatformString) :
    Option ProcessArgument → RunnerM Unit
  | some (.list values) => store argument (.list (values ++ [value]))
  | some (.string _) => throw .badVariantAccess
  | none => store argument (.list [value])

/-- A multiple-valued option grows at the end. -/
theorem setOption_multiple (argument : LlvmMcArgument) (value : PlatformString)
    (runner : LlvmMcRunner) (values : List PlatformString)
    (multiple : knownOptions.lookup argument = some true) (notArch : argument ≠ .arch)
    (present : runner.arguments argument = stored values) :
    setOption argument value runner =
      .ok () { runner with
        arguments := Function.update runner.arguments argument (stored (values ++ [value])) } := by
  have check : (argument == .arch) = false := by simpa using notArch
  have unfolded : setOption argument value runner =
      setAgain argument value (runner.arguments argument) runner := by
    simp only [setOption, getOptionDesc, multiple, check]
    rfl
  rw [unfolded]
  cases values with
  | nil =>
    have absent : runner.arguments argument = none := present
    rw [absent]
    rfl
  | cons first rest =>
    have found : runner.arguments argument = some (.list (first :: rest)) := present
    rw [found]
    rfl

/-- Setting a single-valued option leads from one runner to another that differs in its key. -/
private theorem setOption_single_runner {settings changed : Settings} {argument : LlvmMcArgument}
    {value : PlatformString} (single : knownOptions.lookup argument = some false)
    (notArch : argument ≠ .arch)
    (updated : Function.update settings.arguments argument (some (.string value)) = changed.arguments)
    (sameKind : settings.kind = changed.kind) (sameInput : settings.input = changed.input) :
    setOption argument value settings.runner = .ok () changed.runner := by
  rw [setOption_single _ _ _ single notArch]
  simp only [Settings.runner, updated, sameKind, sameInput]

/-- Setting an option with several values leads to a runner with one value more. -/
private theorem setOption_multiple_runner {settings changed : Settings} {argument : LlvmMcArgument}
    {value : PlatformString} {values : List PlatformString}
    (multiple : knownOptions.lookup argument = some true) (notArch : argument ≠ .arch)
    (present : settings.arguments argument = stored values)
    (updated : Function.update settings.arguments argument (stored (values ++ [value])) = changed.arguments)
    (sameKind : settings.kind = changed.kind) (sameInput : settings.input = changed.input) :
    setOption argument value settings.runner = .ok () changed.runner := by
  rw [setOption_multiple _ _ _ values multiple notArch present]
  simp only [Settings.runner, updated, sameKind, sameInput]

theorem setOutputFilePath_runner (settings : Settings) (filePath : FsPath) :
    setOutputFilePath filePath settings.runner =
      .ok () { settings with output := some filePath.native }.runner := by
  refine setOption_single_runner rfl (by decide) ?_ rfl rfl
  refine Function.update_eq_iff.mpr ⟨rfl, ?_⟩
  intro other different
  cases other <;> first | rfl | exact (different rfl).elim

theorem generateDebugInfo_runner (settings : Settings) :
    generateDebugInfo settings.runner = .ok () { settings with debug := true }.runner := by
  refine setOption_single_runner rfl (by decide) ?_ rfl rfl
  refine Function.update_eq_iff.mpr ⟨rfl, ?_⟩
  intro other different
  cases other <;> first | rfl | exact (different rfl).elim

theorem addIncludePath_runner (settings : Settings) (includePath : FsPath)
    (nonempty : includePath.isEmpty = false) :
    addIncludePath includePath settings.runner =
      .ok () { settings with includeDirs := settings.includeDirs ++ [includePath.native] }.runner := by
  rw [addIncludePath, if_neg (by simp [nonempty])]
  refine setOption_multiple_runner rfl (by decide) rfl ?_ rfl rfl
  refine Function.update_eq_iff.mpr ⟨rfl, ?_⟩
  intro other different
  cases other <;> first | rfl | exact (different rfl).elim

theorem appendAttribute_runner (settings : Settings) (newAttr : PlatformString) :
    appendAttribute newAttr settings.runner =
      .ok () { settings with attributes := settings.attributes ++ [newAttr] }.runner := by
  refine setOption_multiple_runner rfl (by decide) rfl ?_ rfl rfl
  refine Function.update_eq_iff.mpr ⟨rfl, ?_⟩
  intro other different
  cases other <;> first | rfl | exact (different rfl).elim

theorem appendAttributes_runner (settings : Settings) (newAttrs : List PlatformString) :
    appendAttributes newAttrs settings.runner =
      .ok () { settings with attributes := settings.attributes ++ newAttrs }.runner := by
  induction newAttrs generalizing settings with
  | nil => rw [List.append_nil]; rfl
  | cons newAttr rest ih =>
    change (appendAttribute newAttr >>= fun _ => appendAttributes rest) settings.runner = _
    simp only [bind, EStateM.bind, appendAttribute_runner, ih, List.append_assoc,
      List.singleton_append]

theorem fpuTypeMap_lookup_nil : fpuTypeMap.lookup [] = none := by decide

/-- `map_option` for `-mfpu`: the attributes of a mapped value are appended, and a value that is
not mapped throws and changes nothing. -/
theorem mapOptionArm32_runner (os : Platform) (settings : Settings) (value : PlatformString) :
    mapOptionArm32 os (pstr "mfpu") value settings.runner =
      match fpuAttributes os value with
      | .ok attributes =>
          .ok () { settings with attributes := settings.attributes ++ attributes }.runner
      | .error e => .error e settings.runner := by
  unfold mapOptionArm32 fpuAttributes
  rw [if_neg (by simp)]
  by_cases empty : value.isEmpty = true
  · rw [if_pos empty, if_pos empty]
    rfl
  · rw [if_neg empty, if_neg empty]
    cases found : fpuTypeMap.lookup value with
    | none => rfl
    | some attributes =>
      cases attributes with
      | nil => rfl
      | cons first rest => exact appendAttributes_runner settings (first :: rest)

/-- The constructors leave exactly the initial settings. -/
theorem create_eq (kind : LlvmMcArchitecture) : create kind = .ok (initial kind).runner := by
  have same (arguments : LlvmMcArgument → Option ProcessArgument)
      (agree : ∀ key, arguments key = (initial kind).arguments key) :
      (⟨kind, arguments, ⟨[]⟩, Settings.triple kind⟩ : LlvmMcRunner) = (initial kind).runner := by
    rw [funext agree]
    rfl
  cases kind
  all_goals
    refine congrArg Except.ok (same _ ?_)
    intro key
    cases key <;> rfl

theorem setInputFilePath_runner (os : Platform) (settings : Settings) (filePath : FsPath)
    (derive : Bool) (nonempty : filePath.isEmpty = false) (named : filePath.hasFilename os = true) :
    setInputFilePath os filePath derive settings.runner =
      .ok () { settings with
        input := filePath
        output := if derive then some (makeOutputFilePath os filePath).native
          else settings.output }.runner := by
  have stored := setOutputFilePath_runner { settings with input := filePath } (makeOutputFilePath os filePath)
  cases derive with
  | false =>
    simp only [setInputFilePath, nonempty, named]
    rfl
  | true =>
    simp only [setInputFilePath, nonempty, named]
    exact stored

theorem setInputFilePath_complaint (os : Platform) (runner : LlvmMcRunner) (filePath : FsPath)
    (derive : Bool) {e : Exception} (wrong : inputComplaint os filePath = some e) :
    setInputFilePath os filePath derive runner = .error e runner := by
  unfold inputComplaint at wrong
  split at wrong
  · next empty =>
    cases wrong
    simp only [setInputFilePath, empty]
    rfl
  · next nonempty =>
    split at wrong
    · next unnamed =>
      cases wrong
      have full : filePath.isEmpty = false := by simpa using nonempty
      have bare : filePath.hasFilename os = false := by simpa using unnamed
      simp only [setInputFilePath, full, bare]
      rfl
    · cases wrong

theorem inputComplaint_eq_none {os : Platform} {filePath : FsPath} :
    inputComplaint os filePath = none ↔
      filePath.isEmpty = false ∧ filePath.hasFilename os = true := by
  unfold inputComplaint
  split
  · next empty => simp [empty]
  · next nonempty => simp [nonempty]

/-- It throws nothing else, whatever the runner. -/
theorem setInputFilePath_error {os : Platform} {runner failed : LlvmMcRunner} {filePath : FsPath}
    {derive : Bool} {e : Exception} (threw : setInputFilePath os filePath derive runner = .error e failed) :
    inputComplaint os filePath = some e := by
  cases wrong : inputComplaint os filePath with
  | some other =>
    rw [setInputFilePath_complaint os runner filePath derive wrong] at threw
    cases threw
    rfl
  | none =>
    obtain ⟨nonempty, named⟩ := inputComplaint_eq_none.mp wrong
    have stores := setOption_single .output (makeOutputFilePath os filePath).native
      { runner with inputFilePath := filePath } rfl (by decide)
    simp only [setInputFilePath, nonempty, named] at threw
    cases derive with
    | false => cases threw
    | true =>
      have stored := stores.symm.trans threw
      cases stored

/-! ## The process -/

/-- The arguments `run` appends to its process are those of the settings. -/
theorem process_runner (os : Platform) (settings : Settings) (executablePath : FsPath) :
    settings.runner.process os executablePath =
      ⟨executablePath.lexicallyNormal os, settings.llvmMcArguments os⟩ := by
  obtain ⟨kind, debug, includeDirs, attributes, mcpu, output, input⟩ := settings
  -- neither name is empty, so both are written as values
  have archNamed : ∃ c rest, (architectureNames kind).1 = c :: rest := by cases kind <;> exact ⟨_, _, rfl⟩
  have tripleNamed : ∃ c rest, Settings.triple kind = c :: rest := by cases kind <;> exact ⟨_, _, rfl⟩
  obtain ⟨a, arch, archText⟩ := archNamed
  obtain ⟨t, triple, tripleText⟩ := tripleNamed
  simp only [process, Settings.runner, Settings.arguments, llvmMcArguments, sharedArguments, outputArguments,
    archText, tripleText]
  cases debug <;> rcases attributes with _ | ⟨first, rest⟩ <;> rcases output with _ | _ | ⟨c, output⟩ <;> rfl

/-- `run` starts at most one process, and only when `llvm-mc` is there. -/
theorem run_runner {σ : Type} (outside : Outside σ) (os : Platform) (env : Environment) (settings : Settings)
    (executablePath : FsPath) (state : σ) :
    run outside os env executablePath (settings.runner, state) =
      match env.fileExists executablePath with
      | .error e => .error e (settings.runner, state)
      | .ok false => .ok Constants.wrapperExecFailedErrorCode
          (settings.runner, outside.say (.missing executablePath) state)
      | .ok true =>
          let ended := outside.runProcess ⟨executablePath.lexicallyNormal os, settings.llvmMcArguments os⟩ state
          .ok ended.1 ({ settings with input := settings.input.makePreferred os }.runner, ended.2) := by
  rw [← process_runner]
  unfold run
  cases env.fileExists executablePath with
  | error e => rfl
  | ok present => cases present <;> rfl

end GasAdapter.LlvmMcRunner
