import GasAdapter.Proofs.McArguments
import GasAdapter.Soundness.StartedProcesses

/-! # The features of an FPU

`-mfpu` values are looked up in a table of attributes, which are appended to the runner's store and
joined by commas for `llvm-mc`. The features of the joined text are those of the entries, in order. One
entry of the table lacks a sign, so a command line that names it passes an unsigned feature.
-/

namespace GasAdapter

open McArguments Reading Settings

namespace LlvmMcRunner

/-- No feature is lost, duplicated or reordered. Whatever an ARM32 runner goes through, the next run
builds one `--mattr` argument; its features are those of `+armv7-a` and then, call by call, those of the
table's entry for each accepted `-mfpu` value. The values that throw are the ones without an entry, and
a run in between changes nothing. -/
theorem execute_features (os : Platform) (operations : List Operation) (executablePath : FsPath) :
    ∃ fresh, create .arm32 = .ok fresh ∧
      let runner := fresh.execute os operations
      (∃ value, mattrArguments (runner.process os executablePath).args.dropLast = [pstr "--mattr=" ++ value] ∧
        features value = features (pstr "+armv7-a") ++
          operations.flatMap fun operation => operation.attributes.flatMap features) ∧
      (∀ gasName value, (∃ e failed, mapOption os gasName value runner = .error e failed) ↔
        gasName = pstr "mfpu" ∧ (Operation.mapOption gasName value).attributes = []) ∧
      ∀ env path started,
        mattrArguments ((runner.after os (.run env path started)).process os executablePath).args.dropLast =
          mattrArguments (runner.process os executablePath).args.dropLast := by
  obtain ⟨settings, heard, executed⟩ := execute_create os .arm32 operations
  refine ⟨_, create_eq .arm32, ?_⟩
  intro runner
  have same : runner = settings.runner := executed
  have attributes : settings.attributes =
      pstr "+armv7-a" :: operations.flatMap Operation.attributes := heard.attributes
  have full : ∀ attr ∈ settings.attributes, attr ≠ [] := by
    rw [heard.attributes]
    exact attributesAfter_full .arm32 operations
  have given : settings.attributes ≠ [] := by simp [attributes]
  rw [same]
  refine ⟨⟨Process.valueList settings.attributes, mattrArguments_process os executablePath given, ?_⟩, ?_, ?_⟩
  · rw [features_valueList given full, attributes, List.flatMap_cons, List.flatMap_assoc]
  · intro gasName value
    rw [← complaint_mapOption heard.sameKind os gasName value]
    exact perform_throws_iff os settings (.mapOption gasName value)
  · intro env path started
    have kept : (settings.told os (.run env path started)).attributes = settings.attributes := by
      rw [told_attributes]
      simp [Operation.attributes]
    rw [after_runner, mattrArguments_process os executablePath (by rw [kept]; exact given), kept,
      mattrArguments_process os executablePath given]

end LlvmMcRunner

/-! ## Signs -/

/-- The value whose entry has a feature without a sign. -/
def unsignedFpu : PlatformString := pstr "vfpv3-d16-fp16"

/-- All features of a value's entry are signed, for every value but one. -/
theorem Operation.attributes_signed_iff (value : PlatformString) :
    (∀ attr ∈ (Operation.mapOption (pstr "mfpu") value).attributes, ∀ feature ∈ features attr,
      isSigned feature = true) ↔ value ≠ unsignedFpu := by
  have table : ∀ entry ∈ LlvmMcRunner.fpuTypeMap, (∀ attr ∈ entry.2, ∀ feature ∈ features attr,
      isSigned feature = true) ↔ entry.1 ≠ unsignedFpu := by decide +kernel
  have listed : (LlvmMcRunner.fpuTypeMap.lookup unsignedFpu).isSome = true := by decide
  rw [Operation.attributes, if_pos BEq.rfl]
  cases found : LlvmMcRunner.fpuTypeMap.lookup value with
  | some entry => exact table _ (LlvmMcRunner.mem_fpuTypeMap found)
  | none =>
    constructor
    · rintro - rfl
      rw [found] at listed
      cases listed
    · rintro - attr member
      cases member

/-- The attributes of some `-mfpu` values are their entries, in order. -/
theorem Request.attributes_eq {os : Platform} {values attributes : List PlatformString}
    (mapped : Request.attributes os values = .ok attributes) :
    attributes = values.flatMap fun value => (Operation.mapOption (pstr "mfpu") value).attributes := by
  induction values generalizing attributes with
  | nil =>
    cases mapped
    rfl
  | cons value rest ih =>
    have entry := fpuAttributes_eq os value
    rw [Request.attributes] at mapped
    cases meaning : fpuAttributes os value with
    | error e => rw [meaning] at mapped; cases mapped
    | ok first =>
      rw [meaning] at mapped entry
      cases later : Request.attributes os rest with
      | error e => rw [later] at mapped; cases mapped
      | ok others =>
        rw [later] at mapped
        cases mapped
        rw [List.flatMap_cons, entry.1, ih later]

/-- An input that is read as one is no attribute argument. -/
theorem mattrArguments_plain {text : PlatformString} (plain : isDashed text = false) :
    mattrArguments [text] = [] := by
  cases text with
  | nil => rfl
  | cons c rest =>
    have apart : ('-' == c) = false := by simpa [isDashed, CommandLine.dash, BEq.comm] using plain
    simp [mattrArguments, pstr, List.isPrefixOf, apart]

namespace AcceptedRun

variable {os : Platform} {env : Environment} {args : List PlatformString}

/-- The features an `llvm-mc` of an ARM32 run is given, in one argument. -/
theorem mattrArguments_assembler (accepted : AcceptedRun os env args) (arm : accepted.target.arch = .arm32)
    {attributes : List PlatformString} (agrees : accepted.Agrees attributes) (output : PlatformString)
    {input : FsPath} (listed : input ∈ accepted.gas.inputFiles) :
    ∃ value, mattrArguments (accepted.assembler (accepted.shared attributes) output input).args =
        [pstr "--mattr=" ++ value] ∧
      features value = features (pstr "+armv7-a") ++
        (valuesNamed (pstr "mfpu") accepted.items).flatMap fun fpu =>
          (Operation.mapOption (pstr "mfpu") fpu).attributes.flatMap features := by
  have fpus : accepted.request.fpus = valuesNamed (pstr "mfpu") accepted.items := by
    rw [request, items, ofItems_said]
  have entries := Request.attributes_eq agrees.mapped
  rw [fpus] at entries
  have runner : accepted.target.runner = .arm32 := (Gas.selectTarget_paired accepted.selected).2.mp arm
  have stored : (accepted.request.settings accepted.target.runner attributes).attributes =
      pstr "+armv7-a" :: attributes := by
    rw [runner]
    rfl
  have full : ∀ attr ∈ pstr "+armv7-a" :: attributes, attr ≠ [] := by
    rw [List.forall_mem_cons, entries]
    refine ⟨by decide, ?_⟩
    intro attr member
    obtain ⟨fpu, -, added⟩ := List.mem_flatMap.mp member
    exact Operation.attributes_full _ attr added
  have front : mattrArguments (accepted.shared attributes) =
      [pstr "--mattr=" ++ Process.valueList (pstr "+armv7-a" :: attributes)] := by
    rw [← stored]
    exact mattrArguments_shared (by rw [stored]; exact List.cons_ne_nil _ _)
  have back : mattrArguments [pstr "-o=" ++ output, (input.makePreferred os).native] = [] := by
    apply mattrArguments_plain
    rw [isDashed_makePreferred os]
    exact (accepted.inputFiles_wellRead input listed).2
  refine ⟨Process.valueList (pstr "+armv7-a" :: attributes), ?_, ?_⟩
  · rw [assembler, mattrArguments_append, front, back, List.append_nil]
  · rw [features_valueList (List.cons_ne_nil _ _) full, List.flatMap_cons, entries, List.flatMap_assoc]

/-- All features of an `llvm-mc` of an ARM32 run are signed unless the one value was read. -/
theorem featuresSigned_assembler_iff (accepted : AcceptedRun os env args)
    (arm : accepted.target.arch = .arm32) {attributes : List PlatformString}
    (agrees : accepted.Agrees attributes) (output : PlatformString) {input : FsPath}
    (listed : input ∈ accepted.gas.inputFiles) :
    FeaturesSigned (accepted.assembler (accepted.shared attributes) output input).args ↔
      unsignedFpu ∉ valuesNamed (pstr "mfpu") accepted.items := by
  obtain ⟨value, given, meaning⟩ := accepted.mattrArguments_assembler arm agrees output listed
  have base : ∀ feature ∈ features (pstr "+armv7-a"), isSigned feature = true := by decide
  have signed : (∀ feature ∈ features value, isSigned feature = true) ↔
      ∀ fpu ∈ valuesNamed (pstr "mfpu") accepted.items, fpu ≠ unsignedFpu := by
    rw [meaning, List.forall_mem_append]
    constructor
    · rintro ⟨-, entries⟩ fpu read
      rw [← Operation.attributes_signed_iff]
      intro attr member feature named
      exact entries feature (List.mem_flatMap.mpr ⟨fpu, read, List.mem_flatMap.mpr ⟨attr, member, named⟩⟩)
    · intro others
      refine ⟨base, ?_⟩
      intro feature member
      obtain ⟨fpu, read, inEntry⟩ := List.mem_flatMap.mp member
      obtain ⟨attr, inAttributes, named⟩ := List.mem_flatMap.mp inEntry
      exact (Operation.attributes_signed_iff fpu).mpr (others fpu read) attr inAttributes feature named
  have unread : unsignedFpu ∉ valuesNamed (pstr "mfpu") accepted.items ↔
      ∀ fpu ∈ valuesNamed (pstr "mfpu") accepted.items, fpu ≠ unsignedFpu :=
    List.forall_mem_ne'.symm
  rw [unread, ← signed, FeaturesSigned, given]
  constructor
  · rintro ⟨other, same, fine⟩
    rw [List.append_cancel_left (List.singleton_inj.mp same)]
    exact fine
  · intro fine
    exact ⟨value, rfl, fine⟩

end AcceptedRun

namespace Gas

/-- Every feature that an ARM32 command line passes to `llvm-mc` is signed exactly when the one value with
an unsigned feature was not read, or `llvm-mc` is not run at all. -/
theorem featuresSigned_iff {os : Platform} {env : Environment} {args : List PlatformString} {target : Target}
    (selected : selectTarget os (requestedName args) = some target) (arm : target.arch = .arm32) :
    (∀ process ∈ llvmMcRuns os env args, FeaturesSigned process.args) ↔
      unsignedFpu ∉ valuesNamed (pstr "mfpu") (Plan.said target args) ∨ ¬StartsLlvmMc os env args target := by
  rw [← llvmMcRuns_ne_nil_iff selected, not_not]
  cases runs : llvmMcRuns os env args with
  | nil => simp
  | cons first rest =>
    obtain ⟨accepted, rfl⟩ := accepted_of_llvmMcRuns selected (by rw [runs]; exact List.cons_ne_nil first rest)
    obtain ⟨attributes, agrees⟩ := accepted.agrees
    have signed {process : Process} (member : process ∈ first :: rest) :
        FeaturesSigned process.args ↔ unsignedFpu ∉ valuesNamed (pstr "mfpu") accepted.items := by
      rw [← runs, accepted.llvmMcRuns_eq, List.mem_filter, beq_iff_eq] at member
      obtain ⟨input, listed, output, -, rfl⟩ := accepted.mem_started_llvmMc agrees member.1 member.2
      exact accepted.featuresSigned_assembler_iff arm agrees output listed
    constructor
    · intro all
      exact .inl ((signed (List.mem_cons_self ..)).mp (all first (List.mem_cons_self ..)))
    · rintro (unread | none)
      · intro process member
        exact (signed member).mpr unread
      · cases none

/-- With a value whose features are all signed, so are those that `llvm-mc` is given. -/
theorem featuresSigned_neon :
    let args := [pstr "/ndk/as", pstr "@gas-arch=arm-linux-androideabi-as", pstr "-mfpu=neon", pstr "a.s"]
    ∀ process ∈ llvmMcRuns .posix .ready args, FeaturesSigned process.args := by
  intro args
  have selected : selectTarget .posix (requestedName args) =
      some ⟨.arm32, .arm32, arm32ArchPrefix ++ genericLdName .posix⟩ := rfl
  exact (featuresSigned_iff selected rfl).mpr (.inl (by decide))

/-- An accepted `-mfpu` value for which `llvm-mc` is given a feature without a sign. -/
theorem not_featuresSigned :
    let args := [pstr "/ndk/as", pstr "@gas-arch=arm-linux-androideabi-as", pstr "-mfpu=vfpv3-d16-fp16",
      pstr "a.s"]
    ∃ process ∈ llvmMcRuns .posix .ready args,
      pstr "--mattr=+armv7-a,vfp3d16,+fp16" ∈ process.args ∧ ¬FeaturesSigned process.args := by
  intro args
  let process : Process := ⟨⟨pstr "/ndk/llvm-mc"⟩, [pstr "--arch=arm", pstr "--triple=arm-linux-gnu",
    pstr "--assemble", pstr "--filetype=obj", pstr "--mattr=+armv7-a,vfp3d16,+fp16", pstr "-o=a.out",
    pstr "a.s"]⟩
  have runs : llvmMcRuns .posix .ready args = [process] := by decide
  have given : mattrArguments process.args = [pstr "--mattr=" ++ pstr "+armv7-a,vfp3d16,+fp16"] := by decide
  have unsigned : pstr "vfp3d16" ∈ features (pstr "+armv7-a,vfp3d16,+fp16") := by decide
  refine ⟨process, by rw [runs]; exact List.mem_singleton_self _, by decide, ?_⟩
  rintro ⟨value, same, signed⟩
  rw [given] at same
  rw [← List.append_cancel_left (List.singleton_inj.mp same)] at signed
  exact absurd (signed _ unsigned) (by decide)

end Gas

end GasAdapter
