import GasAdapter.Proofs.McArguments

/-! # The option store of a runner

The store is a map of strings and lists of strings that one function writes by a descriptor table, and
another function writes out by hand, key by key. Whatever a runner goes through, the store keeps its
types, and an operation that throws changes nothing. What is written out is the whole store only when no
include directory was added, which is written nowhere, and when the output is not the empty path.
-/

namespace GasAdapter

open Settings McArguments

namespace LlvmMcRunner

/-! ## Types of stored values -/

/-- Every stored value is of the kind its key is described with, and no stored list is empty. -/
def WellTyped (runner : LlvmMcRunner) : Prop :=
  ∀ key value, runner.arguments key = some value →
    match value with
    | .list values => knownOptions.lookup key = some true ∧ values ≠ []
    | .string _ => knownOptions.lookup key = some false

private theorem stored_eq_some {values : List PlatformString} {value : ProcessArgument}
    (present : stored values = some value) : value = .list values ∧ values ≠ [] := by
  unfold stored at present
  split at present
  · cases present
  · next full =>
    cases present
    exact ⟨rfl, by simpa using full⟩

theorem wellTyped_runner (settings : Settings) : settings.runner.WellTyped := by
  intro key value present
  cases key with
  | arch => cases present; rfl
  | fileType => cases present; rfl
  | generateDebug =>
    change (if settings.debug then some (.string []) else none) = some value at present
    split at present <;> cases present
    rfl
  | includeDir =>
    obtain ⟨rfl, full⟩ := stored_eq_some present
    exact ⟨rfl, full⟩
  | mattr =>
    obtain ⟨rfl, full⟩ := stored_eq_some present
    exact ⟨rfl, full⟩
  | mcpu =>
    obtain ⟨text, -, rfl⟩ := Option.map_eq_some_iff.mp present
    rfl
  | output =>
    obtain ⟨text, -, rfl⟩ := Option.map_eq_some_iff.mp present
    rfl

/-- Only the architecture cannot be set again. -/
theorem setOption_error {settings : Settings} {key : LlvmMcArgument} {value : PlatformString}
    {e : Exception} {failed : LlvmMcRunner} (threw : setOption key value settings.runner = .error e failed) :
    key = .arch ∧ e = .invalidOperationError (pstr "Architecture can be set only once") := by
  cases key with
  | arch =>
    cases threw
    exact ⟨rfl, rfl⟩
  | includeDir =>
    rw [setOption_multiple _ _ _ settings.includeDirs rfl (by decide) rfl] at threw
    cases threw
  | mattr =>
    rw [setOption_multiple _ _ _ settings.attributes rfl (by decide) rfl] at threw
    cases threw
  | fileType => rw [setOption_single _ _ _ rfl (by decide)] at threw; cases threw
  | generateDebug => rw [setOption_single _ _ _ rfl (by decide)] at threw; cases threw
  | mcpu => rw [setOption_single _ _ _ rfl (by decide)] at threw; cases threw
  | output => rw [setOption_single _ _ _ rfl (by decide)] at threw; cases threw

/-- After any operations on a new runner the store is well typed, so that setting an option never finds
a value of the wrong kind or a key without a description; the architecture, the file type and the triple
are the constructor's, and the output is the one set or derived last. An operation that throws then
leaves the runner as it is. -/
theorem execute_store (os : Platform) (kind : LlvmMcArchitecture) (operations : List Operation) :
    ∃ fresh, create kind = .ok fresh ∧
      let runner := fresh.execute os operations
      runner.WellTyped ∧
      (∀ key value e failed, setOption key value runner = .error e failed →
        key = .arch ∧ e = .invalidOperationError (pstr "Architecture can be set only once")) ∧
      runner.arguments .arch = fresh.arguments .arch ∧
      runner.arguments .fileType = fresh.arguments .fileType ∧ runner.triple = fresh.triple ∧
      runner.arguments .output = (Operation.lastOutput os operations).map .string ∧
      ∀ (operation : Operation) (e : Exception) (failed : LlvmMcRunner),
        operation.perform os runner = .error e failed →
          failed.arguments = runner.arguments ∧ failed.inputFilePath = runner.inputFilePath ∧
            failed.triple = runner.triple := by
  obtain ⟨settings, heard, executed⟩ := execute_create os kind operations
  obtain ⟨rfl, -, -, -, output⟩ := heard
  refine ⟨_, create_eq settings.kind, ?_⟩
  intro runner
  have same : runner = settings.runner := executed
  rw [same]
  refine ⟨wellTyped_runner settings, fun _ _ _ _ => setOption_error, rfl, rfl, rfl, ?_, ?_⟩
  · rw [← output]
    rfl
  · intro operation e failed threw
    rw [perform_error threw]
    exact ⟨rfl, rfl, rfl⟩

/-- A bad `-mfpu` value throws and leaves the output derived before. -/
theorem execute_store_bad :
    ∃ fresh e failed, create .arm32 = .ok fresh ∧
      let runner := fresh.execute .posix [.setInputFilePath ⟨pstr "a.s"⟩ true,
        .mapOption (pstr "mfpu") (pstr "neon")]
      (Operation.mapOption (pstr "mfpu") (pstr "vfp")).perform .posix runner = .error e failed ∧
        failed.arguments .output = some (.string (pstr "a.o")) := by
  obtain ⟨fresh, created, -, -, -, -, -, output, atomic⟩ := execute_store .posix .arm32
    [.setInputFilePath ⟨pstr "a.s"⟩ true, .mapOption (pstr "mfpu") (pstr "neon")]
  have threw : ∃ e failed, (Operation.mapOption (pstr "mfpu") (pstr "vfp")).perform .posix
      (fresh.execute .posix [.setInputFilePath ⟨pstr "a.s"⟩ true,
        .mapOption (pstr "mfpu") (pstr "neon")]) = .error e failed := by
    cases created
    exact ⟨_, _, rfl⟩
  obtain ⟨e, failed, threw⟩ := threw
  refine ⟨fresh, e, failed, created, threw, ?_⟩
  rw [(atomic _ e failed threw).1, output]
  rfl

/-! ## What is written out -/

/-- The arguments of the next run represent the option store exactly when no include directory was added
and the output set or derived last is not the empty path. -/
theorem execute_readsBack_iff (os : Platform) (kind : LlvmMcArchitecture) (operations : List Operation)
    (executablePath : FsPath) :
    ∃ fresh, create kind = .ok fresh ∧
      let runner := fresh.execute os operations
      (ReadsBack os (runner.process os executablePath).args runner ↔
        (∀ operation ∈ operations, operation.includeDir = none) ∧
          Operation.lastOutput os operations ≠ some []) := by
  obtain ⟨settings, heard, executed⟩ := execute_create os kind operations
  obtain ⟨rfl, includeDirs, attributes, mcpu, output⟩ := heard
  refine ⟨_, create_eq settings.kind, ?_⟩
  intro runner
  have same : runner = settings.runner := executed
  have full : ∀ attr ∈ settings.attributes, attr ≠ [] := by
    rw [attributes]
    exact attributesAfter_full settings.kind operations
  rw [same, process_runner, readsBack_runner os full mcpu, includeDirs, output, List.filterMap_eq_nil_iff]

/-- An include directory is stored and not written out, and an empty output makes `-o` take the input. -/
theorem not_readsBack :
    ∃ fresh, create .x64 = .ok fresh ∧
      (let runner := fresh.execute .posix [.addIncludePath ⟨pstr "inc"⟩, .setInputFilePath ⟨pstr "a.s"⟩ true]
      ¬ReadsBack .posix (runner.process .posix ⟨pstr "llvm-mc"⟩).args runner) ∧
      let runner := fresh.execute .posix [.setInputFilePath ⟨pstr "a.s"⟩ true, .setOutputFilePath ⟨[]⟩]
      (runner.process .posix ⟨pstr "llvm-mc"⟩).args.drop 4 = [pstr "-o", pstr "a.s"] ∧
        ¬ReadsBack .posix (runner.process .posix ⟨pstr "llvm-mc"⟩).args runner := by
  refine ⟨_, rfl, ?_, rfl, ?_⟩
  · intro runner
    rintro ⟨options, read, agree, -⟩
    obtain ⟨-, rfl⟩ := Prod.mk.inj read
    have dirs := agree .includeDir
    cases dirs
  · rintro ⟨options, read, -⟩
    cases read

end LlvmMcRunner

end GasAdapter
