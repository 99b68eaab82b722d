import GasAdapter.Proofs.LlvmMcRunner
import GasAdapter.Spec.Operations

/-! # Operations keep to their settings

Every operation on a runner that has been told some settings does what the operation does to the
settings, or throws and leaves the runner as it was. A freshly constructed runner has been told its
initial settings, so a runner always represents settings, whatever sequence of operations it has been
through. `Heard` says which settings these are.
-/

namespace GasAdapter

open Settings

/-! ## One operation -/

/-- An accepted `-mfpu` value adds its entry of the table, and only such values have one. -/
theorem Settings.fpuAttributes_eq (os : Platform) (value : PlatformString) :
    match fpuAttributes os value with
    | .ok attributes => (Operation.mapOption (pstr "mfpu") value).attributes = attributes ∧ attributes ≠ []
    | .error _ => (Operation.mapOption (pstr "mfpu") value).attributes = [] := by
  cases value with
  | nil => simp [fpuAttributes, Operation.attributes, LlvmMcRunner.fpuTypeMap_lookup_nil]
  | cons c value =>
    simp only [fpuAttributes, Operation.attributes, List.isEmpty_cons, Bool.false_eq_true, ↓reduceIte,
      BEq.rfl]
    rcases LlvmMcRunner.fpuTypeMap.lookup (c :: value) with _ | _ | ⟨first, rest⟩ <;> simp

theorem LlvmMcRunner.mem_fpuTypeMap {value : PlatformString} {entry : List PlatformString}
    (found : fpuTypeMap.lookup value = some entry) : (value, entry) ∈ fpuTypeMap := by
  obtain ⟨before, after, split, -⟩ := List.lookup_eq_some_iff.mp found
  rw [split]
  exact List.mem_append_right _ (List.mem_cons_self ..)

/-- No attribute of the table is empty. -/
theorem Operation.attributes_full (operation : Operation) : ∀ attr ∈ operation.attributes, attr ≠ [] := by
  have table : ∀ entry ∈ LlvmMcRunner.fpuTypeMap, ∀ attr ∈ entry.2, attr ≠ [] := by decide
  intro attr member
  cases operation with
  | mapOption gasName value =>
    simp only [attributes] at member
    split at member
    · cases found : LlvmMcRunner.fpuTypeMap.lookup value with
      | none => rw [found] at member; cases member
      | some entry =>
        rw [found] at member
        exact table _ (LlvmMcRunner.mem_fpuTypeMap found) attr member
    · cases member
  | _ => cases member

/-- An ARM32 runner complains about the `-mfpu` values without an entry, and about nothing else it is
asked to map. -/
theorem Settings.complaint_mapOption {settings : Settings} (arm : settings.kind = .arm32) (os : Platform)
    (gasName value : PlatformString) :
    (settings.complaint os (.mapOption gasName value)).isSome = true ↔
      gasName = pstr "mfpu" ∧ (Operation.mapOption gasName value).attributes = [] := by
  by_cases fpu : gasName = pstr "mfpu"
  · subst fpu
    have entry := fpuAttributes_eq os value
    simp only [complaint, arm, and_self, ↓reduceIte, true_and]
    cases meaning : fpuAttributes os value with
    | ok attributes =>
      rw [meaning] at entry
      simp [entry.1, entry.2]
    | error e =>
      rw [meaning] at entry
      simpa using entry
  · simp [complaint, fpu]

theorem Settings.told_of_complaint {os : Platform} {settings : Settings} {operation : Operation}
    {e : Exception} (wrong : settings.complaint os operation = some e) :
    settings.told os operation = settings := by
  cases operation with
  | setInputFilePath filePath derive =>
    have complained : inputComplaint os filePath = some e := wrong
    simp only [told, complained, Option.isSome_some, ↓reduceIte]
  | setOutputFilePath filePath => cases wrong
  | addIncludePath includePath => cases wrong
  | generateDebugInfo => cases wrong
  | mapOption gasName value =>
    simp only [complaint] at wrong
    split at wrong
    · next fpu =>
      obtain ⟨arm, rfl⟩ := fpu
      have entry := fpuAttributes_eq os value
      cases meaning : fpuAttributes os value with
      | ok attributes => rw [meaning] at wrong; cases wrong
      | error other =>
        rw [meaning] at entry
        simp only at entry
        simp only [told, entry, List.append_nil, ite_self]
    · cases wrong
  | run env executablePath started =>
    cases found : env.fileExists executablePath with
    | ok present => simp only [complaint, found] at wrong; cases wrong
    | error other => simp only [told, found]

namespace LlvmMcRunner

private theorem setInputFilePath_told (os : Platform) (settings : Settings) (filePath : FsPath)
    (derive : Bool) :
    setInputFilePath os filePath derive settings.runner =
      match inputComplaint os filePath with
      | some e => .error e settings.runner
      | none => .ok () (settings.told os (.setInputFilePath filePath derive)).runner := by
  cases wrong : inputComplaint os filePath with
  | some e => exact setInputFilePath_complaint os settings.runner filePath derive wrong
  | none =>
    obtain ⟨nonempty, named⟩ := inputComplaint_eq_none.mp wrong
    rw [setInputFilePath_runner os settings filePath derive nonempty named]
    simp only [told, wrong]
    rfl

private theorem addIncludePath_told (os : Platform) (settings : Settings) (includePath : FsPath) :
    addIncludePath includePath settings.runner =
      .ok () (settings.told os (.addIncludePath includePath)).runner := by
  cases empty : includePath.isEmpty with
  | true => simp only [addIncludePath, told, Operation.includeDir, empty, ↓reduceIte, Option.toList_none,
      List.append_nil]; rfl
  | false =>
    rw [addIncludePath_runner settings includePath empty]
    simp only [told, Operation.includeDir, empty]
    rfl

private theorem mapOption_told (os : Platform) (settings : Settings) (gasName value : PlatformString) :
    mapOption os gasName value settings.runner =
      match settings.complaint os (.mapOption gasName value) with
      | some e => .error e settings.runner
      | none => .ok () (settings.told os (.mapOption gasName value)).runner := by
  have dispatch : mapOption os gasName value settings.runner =
      if settings.kind = .arm32 then mapOptionArm32 os gasName value settings.runner
      else .ok () settings.runner := by
    cases settings with
    | mk kind debug includeDirs attributes mcpu output input => cases kind <;> rfl
  rw [dispatch]
  by_cases arm : settings.kind = .arm32
  · by_cases fpu : gasName = pstr "mfpu"
    · subst fpu
      have entry := fpuAttributes_eq os value
      rw [if_pos arm, mapOptionArm32_runner]
      cases meaning : fpuAttributes os value with
      | error e => simp only [complaint, arm, meaning, and_self, ↓reduceIte]
      | ok attributes =>
        rw [meaning] at entry
        simp only [complaint, told, arm, meaning, entry.1, and_self, ↓reduceIte]
    · have ignored : mapOptionArm32 os gasName value settings.runner = .ok () settings.runner := by
        rw [mapOptionArm32, if_pos (by simpa using fpu)]
        rfl
      have noEntry : (Operation.mapOption gasName value).attributes = [] := by
        simp [Operation.attributes, fpu]
      rw [if_pos arm, ignored]
      simp only [complaint, told, fpu, noEntry, and_false, ↓reduceIte, List.append_nil, ite_self]
  · simp only [complaint, told, arm, false_and, ↓reduceIte]

private theorem run_told (os : Platform) (settings : Settings) (env : Environment) (executablePath : FsPath)
    (started : List Process) :
    (Operation.run env executablePath started).perform os settings.runner =
      match settings.complaint os (.run env executablePath started) with
      | some e => .error e settings.runner
      | none => .ok () (settings.told os (.run env executablePath started)).runner := by
  simp only [Operation.perform, run_runner, complaint, told]
  cases env.fileExists executablePath with
  | error e => rfl
  | ok present => cases present <;> rfl

/-- An operation does what it does to the settings, or throws and changes nothing. -/
theorem perform_runner (os : Platform) (settings : Settings) (operation : Operation) :
    operation.perform os settings.runner =
      match settings.complaint os operation with
      | some e => .error e settings.runner
      | none => .ok () (settings.told os operation).runner := by
  cases operation with
  | setInputFilePath filePath derive => exact setInputFilePath_told os settings filePath derive
  | setOutputFilePath filePath => exact setOutputFilePath_runner settings filePath
  | addIncludePath includePath => exact addIncludePath_told os settings includePath
  | generateDebugInfo => exact generateDebugInfo_runner settings
  | mapOption gasName value => exact mapOption_told os settings gasName value
  | run env executablePath started => exact run_told os settings env executablePath started

/-- What throws has changed nothing. -/
theorem perform_error {os : Platform} {settings : Settings} {operation : Operation} {e : Exception}
    {failed : LlvmMcRunner} (threw : operation.perform os settings.runner = .error e failed) :
    failed = settings.runner := by
  rw [perform_runner] at threw
  split at threw <;> cases threw
  rfl

theorem perform_throws_iff (os : Platform) (settings : Settings) (operation : Operation) :
    (∃ e failed, operation.perform os settings.runner = .error e failed) ↔
      (settings.complaint os operation).isSome = true := by
  rw [perform_runner]
  cases settings.complaint os operation <;> simp

theorem after_runner (os : Platform) (settings : Settings) (operation : Operation) :
    settings.runner.after os operation = (settings.told os operation).runner := by
  rw [after, perform_runner]
  cases wrong : settings.complaint os operation with
  | none => rfl
  | some e => rw [told_of_complaint wrong]

/-- Any sequence of operations leaves a runner that represents the settings after it. -/
theorem execute_runner (os : Platform) (settings : Settings) (operations : List Operation) :
    settings.runner.execute os operations = (operations.foldl (told os) settings).runner := by
  induction operations generalizing settings with
  | nil => rfl
  | cons operation rest ih =>
    rw [execute, List.foldl_cons, after_runner]
    exact ih (settings.told os operation)

end LlvmMcRunner

/-! ## What an operation changes -/

namespace Settings

variable (os : Platform) (settings : Settings) (operation : Operation)

theorem told_kind : (settings.told os operation).kind = settings.kind := by
  cases operation <;> simp only [told] <;> split <;> rfl

theorem told_mcpu : (settings.told os operation).mcpu = settings.mcpu := by
  cases operation <;> simp only [told] <;> split <;> rfl

theorem told_includeDirs :
    (settings.told os operation).includeDirs = settings.includeDirs ++ operation.includeDir.toList := by
  cases operation with
  | addIncludePath includePath => rfl
  | setOutputFilePath filePath => exact (List.append_nil _).symm
  | generateDebugInfo => exact (List.append_nil _).symm
  | setInputFilePath filePath derive =>
    simp only [told]
    split <;> exact (List.append_nil _).symm
  | mapOption gasName value =>
    simp only [told]
    split <;> exact (List.append_nil _).symm
  | run env executablePath started =>
    simp only [told]
    split <;> exact (List.append_nil _).symm

theorem told_attributes :
    (settings.told os operation).attributes =
      settings.attributes ++ if settings.kind = .arm32 then operation.attributes else [] := by
  cases operation with
  | mapOption gasName value =>
    simp only [told]
    split <;> simp
  | setOutputFilePath filePath => simp [told, Operation.attributes]
  | addIncludePath includePath => simp [told, Operation.attributes]
  | generateDebugInfo => simp [told, Operation.attributes]
  | setInputFilePath filePath derive =>
    simp only [told]
    split <;> simp [Operation.attributes]
  | run env executablePath started =>
    simp only [told]
    split <;> simp [Operation.attributes]

theorem told_output :
    (settings.told os operation).output = (operation.output os).or settings.output := by
  cases operation with
  | setInputFilePath filePath derive =>
    simp only [told, Operation.output]
    cases inputComplaint os filePath <;> cases derive <;> rfl
  | setOutputFilePath filePath => rfl
  | addIncludePath includePath => rfl
  | generateDebugInfo => rfl
  | mapOption gasName value =>
    simp only [told]
    split <;> rfl
  | run env executablePath started =>
    simp only [told]
    split <;> rfl

end Settings

/-! ## Sequences of operations -/

namespace Settings

/-- The attributes a runner has after some operations; only the ARM32 runner maps any. -/
def attributesAfter (kind : LlvmMcArchitecture) (operations : List Operation) : List PlatformString :=
  baseAttributes kind ++ if kind = .arm32 then operations.flatMap Operation.attributes else []

theorem attributesAfter_full (kind : LlvmMcArchitecture) (operations : List Operation) :
    ∀ attr ∈ attributesAfter kind operations, attr ≠ [] := by
  have base : ∀ attr ∈ baseAttributes kind, attr ≠ [] := by cases kind <;> decide
  rw [attributesAfter, List.forall_mem_append]
  refine ⟨base, ?_⟩
  split
  · intro attr member
    obtain ⟨operation, -, added⟩ := List.mem_flatMap.mp member
    exact operation.attributes_full attr added
  · simp

/-- The settings of a runner constructed as `kind` that has been through the operations. -/
structure Heard (os : Platform) (kind : LlvmMcArchitecture) (operations : List Operation)
    (settings : Settings) : Prop where
  sameKind : settings.kind = kind
  includeDirs : settings.includeDirs = operations.filterMap Operation.includeDir
  attributes : settings.attributes = attributesAfter kind operations
  mcpu : settings.mcpu = none
  output : settings.output = Operation.lastOutput os operations

theorem heard_initial (os : Platform) (kind : LlvmMcArchitecture) : Heard os kind [] (initial kind) where
  sameKind := rfl
  includeDirs := rfl
  attributes := by cases kind <;> rfl
  mcpu := rfl
  output := rfl

/-- One more operation. -/
theorem Heard.told {os : Platform} {kind : LlvmMcArchitecture} {operations : List Operation}
    {settings : Settings} (heard : Heard os kind operations settings) (operation : Operation) :
    Heard os kind (operations ++ [operation]) (settings.told os operation) := by
  obtain ⟨rfl, includeDirs, attributes, mcpu, output⟩ := heard
  constructor
  · exact told_kind os settings operation
  · rw [told_includeDirs, includeDirs, List.filterMap_append]
    cases adds : operation.includeDir <;> simp [adds]
  · rw [told_attributes, attributes, attributesAfter, attributesAfter, List.append_assoc]
    split <;> simp
  · rw [told_mcpu, mcpu]
  · rw [told_output, output, Operation.lastOutput, Operation.lastOutput, List.filterMap_append,
      List.getLast?_append]
    cases sets : operation.output os <;> simp [sets]

/-- All operations so far. -/
theorem heard_foldl (os : Platform) (kind : LlvmMcArchitecture) (operations : List Operation) :
    Heard os kind operations (operations.foldl (Settings.told os) (initial kind)) := by
  induction operations using List.reverseRecOn with
  | nil => exact heard_initial os kind
  | append_singleton operations operation ih =>
    rw [List.foldl_concat]
    exact ih.told operation

end Settings

namespace LlvmMcRunner

/-- A runner that was constructed and has been through some operations represents the settings that
have heard them. -/
theorem execute_create (os : Platform) (kind : LlvmMcArchitecture) (operations : List Operation) :
    ∃ settings, Heard os kind operations settings ∧
      (initial kind).runner.execute os operations = settings.runner :=
  ⟨_, heard_foldl os kind operations, execute_runner os (initial kind) operations⟩

end LlvmMcRunner

end GasAdapter
