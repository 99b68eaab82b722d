import GasAdapter.Proofs.Course
import GasAdapter.Soundness.ProcessSequence

/-! # The processes a run starts

However a run ends, and whether it throws, what it has started is the front of its script: `llvm-mc` on
some of the inputs, and at most one `ld` at the end. The two are different executables, so a process is
known by the one it runs.
-/

namespace GasAdapter

open Reading

namespace Gas

/-- What a whole run starts. -/
def started (os : Platform) (env : Environment) (args : List PlatformString) : List Process :=
  Script.startedAfter (run os env args [])

/-- The processes of a whole run that execute `llvm-mc`. -/
def llvmMcRuns (os : Platform) (env : Environment) (args : List PlatformString) : List Process :=
  match determineProgramDir os env args with
  | .error _ => []
  | .ok programDir => (started os env args).filter fun process =>
      process.executablePath == (programDir.append os (Constants.llvmMcName os)).lexicallyNormal os

/-- The command line is readable, nothing but assembling is asked for, and the first input has a file
name and `llvm-mc` to assemble it. -/
def StartsLlvmMc (os : Platform) (env : Environment) (args : List PlatformString) (target : Target) : Prop :=
  ∃ programDir, determineProgramDir os env args = .ok programDir ∧ Plan.FpusKnown target args ∧
    Plan.asksInformation target args = false ∧ Plan.complete target args = true ∧
    (∃ first, (Plan.inputs target args).head? = some first ∧ first.hasFilename os = true) ∧
    env.fileExists (programDir.append os (Constants.llvmMcName os)) = .ok true

end Gas

/-! ## Scripts -/

namespace Plan

variable {os : Platform} {env : Environment} {programDir : FsPath} {ldName : PlatformString}
  {settings : Settings} {output : PlatformString} {inputs : List FsPath} {process : Process}

/-- A script only starts `llvm-mc` on an input, with the final output or the input's object, and `ld`. -/
theorem start_mem_assembly
    (member : .start process ∈ assembly os env programDir ldName settings output inputs) :
    (∃ input ∈ inputs, ∃ object, (object = output ∨ object = (objectPath os input).native) ∧
      process = llvmMcProcess os (programDir.append os (Constants.llvmMcName os)) settings object input) ∨
      process = ldProcess os (programDir.append os ldName) output inputs := by
  have starts {object : PlatformString} {input : FsPath}
      (same : inputAction os env (programDir.append os (Constants.llvmMcName os)) settings object input =
        .start process) :
      process = llvmMcProcess os (programDir.append os (Constants.llvmMcName os)) settings object input := by
    obtain ⟨fine, present⟩ := inputAction_start same
    simp only [inputAction, fine, present] at same
    cases same
    rfl
  rcases inputs with _ | ⟨input, _ | ⟨second, others⟩⟩
  · cases List.mem_singleton.mp member
  · exact .inl ⟨input, List.mem_singleton_self _, output, .inl rfl,
      starts (List.mem_singleton.mp member).symm⟩
  · rcases List.mem_append.mp member with input | ld
    · obtain ⟨input, listed, same⟩ := List.mem_map.mp input
      exact .inl ⟨input, listed, _, .inr rfl, starts same⟩
    · cases List.mem_singleton.mp ld
      exact .inr rfl

end Plan

/-! ## Accepted runs -/

namespace AcceptedRun

variable {os : Platform} {env : Environment} {args : List PlatformString}

/-- An accepted run starts `llvm-mc` on some of its inputs, with an output that is not empty, and `ld`. -/
theorem mem_started (accepted : AcceptedRun os env args) {attributes : List PlatformString}
    (agrees : accepted.Agrees attributes) {process : Process} (member : process ∈ Gas.started os env args) :
    (∃ input ∈ accepted.gas.inputFiles, ∃ output, output ≠ [] ∧
      process = accepted.assembler (accepted.shared attributes) output input) ∨
      process = accepted.linker := by
  rw [Gas.started, accepted.run_eq agrees] at member
  obtain ⟨commands, final, front⟩ := Script.run_started env.exitCode (Plan.assembly os env
    accepted.programDir accepted.target.ldName (accepted.request.settings accepted.target.runner attributes)
    accepted.request.output accepted.request.inputs) []
  rw [final, List.nil_append] at member
  have action := front.subset (List.mem_map_of_mem member)
  rcases Plan.start_mem_assembly action with ⟨input, listed, output, written, rfl⟩ | rfl
  · rw [← agrees.inputs] at listed
    have nonempty : output ≠ [] := by
      rcases written with rfl | rfl
      · rw [request_output]
        exact accepted.finalOutput_ne_nil
      · exact LlvmMcRunner.makeOutputFilePath_ne_nil os input
    exact .inl ⟨input, listed, output, nonempty, accepted.llvmMcProcess_eq attributes nonempty input⟩
  · right
    rw [Plan.ldProcess, linker, agrees.inputs, request_output]
    rfl

/-- A process of the run that executes `llvm-mc` is one of the assemblers. -/
theorem mem_started_llvmMc (accepted : AcceptedRun os env args) {attributes : List PlatformString}
    (agrees : accepted.Agrees attributes) {process : Process} (member : process ∈ Gas.started os env args)
    (assembles : process.executablePath = accepted.llvmMc.lexicallyNormal os) :
    ∃ input ∈ accepted.gas.inputFiles, ∃ output, output ≠ [] ∧
      process = accepted.assembler (accepted.shared attributes) output input := by
  rcases accepted.mem_started agrees member with assembler | rfl
  · exact assembler
  · exact (Gas.llvmMc_ne_ld accepted.selected accepted.programDir assembles.symm).elim

theorem inputFiles_wellRead (accepted : AcceptedRun os env args) :
    ∀ input ∈ accepted.gas.inputFiles, input.native ≠ [] ∧ isDashed input.native = false := by
  obtain ⟨attributes, agrees⟩ := accepted.agrees
  rw [agrees.inputs]
  exact accepted.inputs_wellRead

theorem assembler_full (accepted : AcceptedRun os env args) (attributes : List PlatformString)
    (output : PlatformString) {input : FsPath} (listed : input ∈ accepted.gas.inputFiles) :
    ∀ arg ∈ (accepted.assembler (accepted.shared attributes) output input).args, arg ≠ [] := by
  have full := (accepted.inputFiles_wellRead input listed).1
  have preferred : (input.makePreferred os).native ≠ [] := by
    simpa [FsPath.makePreferred, Pathname.Grammar.makePreferred] using full
  intro arg member
  rcases List.mem_append.mp member with front | back
  · exact Settings.sharedArguments_full _ arg front
  · rcases List.mem_pair.mp back with rfl | rfl
    · simp [pstr]
    · exact preferred

theorem linker_full (accepted : AcceptedRun os env args) : ∀ arg ∈ accepted.linker.args, arg ≠ [] := by
  have output := accepted.finalOutput_ne_nil
  intro arg member
  rcases List.mem_append.mp member with front | object
  · simp only [List.mem_cons, List.not_mem_nil, or_false] at front
    rcases front with rfl | rfl | rfl
    · decide
    · exact output
    · decide
  · obtain ⟨input, -, rfl⟩ := List.mem_map.mp object
    exact LlvmMcRunner.makeOutputFilePath_ne_nil os input

private theorem assembler_bare (accepted : AcceptedRun os env args) (attributes : List PlatformString)
    (output : PlatformString) {input : FsPath} (listed : input ∈ accepted.gas.inputFiles) :
    pstr "-o" ∉ (accepted.assembler (accepted.shared attributes) output input).args := by
  have plain := (accepted.inputFiles_wellRead input listed).2
  intro member
  rcases List.mem_append.mp member with front | back
  · exact Settings.not_mem_sharedArguments_o _ front
  · rcases List.mem_pair.mp back with same | same
    · simp [pstr] at same
    · rw [← isDashed_makePreferred os, ← same] at plain
      cases plain

theorem llvmMcRuns_eq (accepted : AcceptedRun os env args) :
    Gas.llvmMcRuns os env args = (Gas.started os env args).filter fun process =>
      process.executablePath == accepted.llvmMc.lexicallyNormal os := by
  rw [Gas.llvmMcRuns, accepted.located]
  rfl

/-- `llvm-mc` is run when the first input has a file name and `llvm-mc` is there. -/
theorem llvmMcRuns_ne_nil_iff (accepted : AcceptedRun os env args) :
    Gas.llvmMcRuns os env args ≠ [] ↔
      (∃ first, (Plan.inputs accepted.target args).head? = some first ∧ first.hasFilename os = true) ∧
        env.fileExists accepted.llvmMc = .ok true := by
  cases inputs : Plan.inputs accepted.target args with
  | nil =>
    have nothing : Gas.started os env args = [] := by
      rw [Gas.started, accepted.run_noInputs inputs]
      rfl
    simp [accepted.llvmMcRuns_eq, nothing]
  | cons first rest =>
    obtain ⟨settings, output, later, script⟩ := accepted.run_first inputs
    have listed : first ∈ accepted.request.inputs := by
      change first ∈ Plan.inputs accepted.target args
      rw [inputs]
      exact List.mem_cons_self ..
    have head : (∃ other, (first :: rest).head? = some other ∧ other.hasFilename os = true) ↔
        first.hasFilename os = true := by simp
    rw [head, accepted.llvmMcRuns_eq, Gas.started, script, Plan.inputAction]
    cases wrong : Settings.inputComplaint os first with
    | some e =>
      have unnamed : first.hasFilename os ≠ true := by
        intro named
        rw [accepted.inputComplaint_eq_none listed named] at wrong
        cases wrong
      simp [Script.startedAfter, unnamed]
    | none =>
      have named := (LlvmMcRunner.inputComplaint_eq_none.mp wrong).2
      cases present : env.fileExists accepted.llvmMc with
      | error e => simp [Script.startedAfter]
      | ok there =>
        cases there with
        | false => simp [Script.startedAfter]
        | true =>
          refine ⟨fun _ => ⟨named, rfl⟩, fun _ => ?_⟩
          apply List.ne_nil_of_mem
          exact List.mem_filter.mpr ⟨Script.mem_run_start env.exitCode _ later [], beq_self_eq_true _⟩

/-- Once `parse_arguments` tells the run to go on, there is an output and no input is empty: the tests of
the output in `run` come out one way, and no input is complained about as empty. No argument of any
process is empty, and `llvm-mc` is never given a bare `-o`. -/
theorem output_known (accepted : AcceptedRun os env args) :
    accepted.gas.gasOutputFile.isEmpty = false ∧
      (∀ input ∈ accepted.gas.inputFiles, input.isEmpty = false ∧
        ∀ derive runner failed, LlvmMcRunner.setInputFilePath os input derive runner ≠
          .error (.invalidArgumentError (pstr "Argument 'file_path' must not be empty")) failed) ∧
      ∀ process ∈ Gas.started os env args,
        (∀ arg ∈ process.args, arg ≠ []) ∧
        (process.executablePath = accepted.llvmMc.lexicallyNormal os →
          pstr "-o" ∉ process.args ∧ ∃ output, output ≠ [] ∧ pstr "-o=" ++ output ∈ process.args) := by
  obtain ⟨attributes, agrees⟩ := accepted.agrees
  refine ⟨?_, ?_, ?_⟩
  · rw [agrees.output, accepted.request_output]
    simpa [FsPath.isEmpty] using accepted.finalOutput_ne_nil
  · intro input listed
    have full := (accepted.inputFiles_wellRead input listed).1
    have nonempty : input.isEmpty = false := by simpa [FsPath.isEmpty] using full
    refine ⟨nonempty, ?_⟩
    intro derive runner failed threw
    have complaint := LlvmMcRunner.setInputFilePath_error threw
    rw [Settings.inputComplaint, nonempty, if_neg Bool.false_ne_true] at complaint
    split at complaint
    · -- the other complaint has another text
      injection Option.some.inj complaint with texts
      exact absurd texts (by decide)
    · cases complaint
  · intro process member
    constructor
    · rcases accepted.mem_started agrees member with ⟨input, listed, output, -, rfl⟩ | rfl
      · exact accepted.assembler_full attributes output listed
      · exact accepted.linker_full
    · intro assembles
      obtain ⟨input, listed, output, nonempty, rfl⟩ := accepted.mem_started_llvmMc agrees member assembles
      exact ⟨accepted.assembler_bare attributes output listed, output, nonempty, by simp [assembler]⟩

/-- With an explicitly empty `-o` value before the output, two inputs are linked into that output. -/
theorem output_known_two :
    let args := [pstr "/ndk/as", pstr "@gas-arch=x86_64-linux-android-as", pstr "-o=", pstr "-v", pstr "a.s",
      pstr "b.s"]
    ∃ accepted : AcceptedRun .posix .ready args, accepted.gas.gasOutputFile = ⟨pstr "-v"⟩ ∧
      ∃ first second ld, Gas.started .posix .ready args = [first, second, ld] ∧
        (∀ arg ∈ ld.args, arg ≠ []) ∧ pstr "-o" ∉ second.args := by
  intro args
  let accepted : AcceptedRun .posix .ready args := ofRequest rfl rfl rfl rfl rfl
  let assembler (output input : PlatformString) : Process :=
    ⟨⟨pstr "/ndk/llvm-mc"⟩, [pstr "--arch=x86-64", pstr "--triple=x86_64-linux-gnu", pstr "--assemble",
      pstr "--filetype=obj", pstr "-o=" ++ output, input]⟩
  let ld : Process := ⟨⟨pstr "/ndk/x86_64-linux-android-ld"⟩,
    [pstr "-o", pstr "-v", pstr "--relocatable", pstr "a.o", pstr "b.o"]⟩
  let second := assembler (pstr "b.o") (pstr "b.s")
  have started : Gas.started .posix .ready args = [assembler (pstr "a.o") (pstr "a.s"), second, ld] := by
    decide
  obtain ⟨-, -, processes⟩ := output_known accepted
  have linked := (processes ld (by rw [started]; simp)).1
  have assembled := (processes second (by rw [started]; simp)).2 (by decide)
  exact ⟨accepted, rfl, _, second, ld, started, linked, assembled.1⟩

end AcceptedRun

namespace Gas

variable {os : Platform} {env : Environment} {args : List PlatformString} {target : Target}

theorem llvmMcRuns_of_fail {e : Exception} (plan : Plan.ofArguments os env args = [.fail e]) :
    llvmMcRuns os env args = [] := by
  rw [llvmMcRuns, started, run_of_fail plan]
  split <;> rfl

theorem llvmMcRuns_of_stop {code : Int} (plan : Plan.ofArguments os env args = [.stop code]) :
    llvmMcRuns os env args = [] := by
  rw [llvmMcRuns, started, run_of_stop plan]
  split <;> rfl

/-- A run that starts `llvm-mc` is accepted. -/
theorem accepted_of_llvmMcRuns (selected : selectTarget os (requestedName args) = some target)
    (runs : llvmMcRuns os env args ≠ []) : ∃ accepted : AcceptedRun os env args, accepted.target = target := by
  cases course selected with
  | unlocated e missing plan => exact (runs (llvmMcRuns_of_fail plan)).elim
  | unmapped e bad plan => exact (runs (llvmMcRuns_of_fail plan)).elim
  | informs programDir located known asks plan => exact (runs (llvmMcRuns_of_stop plan)).elim
  | incomplete programDir located known asks waits plan => exact (runs (llvmMcRuns_of_stop plan)).elim
  | proceeds accepted same => exact ⟨accepted, same⟩

/-- Which command lines run `llvm-mc` at all. -/
theorem llvmMcRuns_ne_nil_iff (selected : selectTarget os (requestedName args) = some target) :
    llvmMcRuns os env args ≠ [] ↔ StartsLlvmMc os env args target := by
  constructor
  · intro runs
    obtain ⟨accepted, rfl⟩ := accepted_of_llvmMcRuns selected runs
    obtain ⟨named, present⟩ := accepted.llvmMcRuns_ne_nil_iff.mp runs
    exact ⟨accepted.programDir, accepted.located, accepted.known, accepted.asksInformation,
      accepted.complete, named, present⟩
  · rintro ⟨programDir, located, known, silent, complete, named, present⟩
    cases course selected with
    | unlocated e missing plan =>
      rw [missing] at located
      cases located
    | unmapped e bad plan => exact (bad known).elim
    | informs programDir located known asks plan =>
      rw [asks] at silent
      cases silent
    | incomplete programDir located known asks waits plan =>
      rw [waits] at complete
      cases complete
    | proceeds accepted same =>
      obtain rfl := same
      rw [accepted.located] at located
      obtain rfl := Except.ok.inj located
      exact accepted.llvmMcRuns_ne_nil_iff.mpr ⟨named, present⟩

end Gas

end GasAdapter
