import GasAdapter.Proofs.Accepted

/-! # The processes of a run

One runner is reused for every input, and the object names are computed twice: before each
`llvm-mc` run and again for `ld`. Because each run's arguments are those of the same settings with
another output and input, the whole run is a fixed list of processes, cut at the first failure.
-/

namespace GasAdapter

open Reading

/-- No platform separates names with dashes, so a preferred spelling is dashed when the path was. -/
theorem isDashed_makePreferred (os : Platform) (path : FsPath) :
    isDashed (path.makePreferred os).native = isDashed path.native := by
  have apart : os.pathGrammar.isSeparator CommandLine.dash = false := by cases os <;> rfl
  rw [Bool.eq_iff_iff, isDashed, isDashed, beq_iff_eq, beq_iff_eq]
  exact os.pathGrammar.head?_makePreferred path.native apart

theorem FsPath.makePreferred_posix (path : FsPath) : path.makePreferred .posix = path :=
  congrArg FsPath.mk (Pathname.posix_makePreferred path.native)

namespace LlvmMcRunner

/-- An object path ends in `.o`, so it is never empty. -/
theorem makeOutputFilePath_ne_nil (os : Platform) (input : FsPath) :
    (makeOutputFilePath os input).native ≠ [] := by
  intro empty
  have lengths := congrArg List.length empty
  simp [makeOutputFilePath, FsPath.makePreferred, FsPath.replaceExtension, pstr,
    Pathname.Grammar.makePreferred, Pathname.Grammar.replaceExtension_eq] at lengths

end LlvmMcRunner

namespace AcceptedRun

variable {os : Platform} {env : Environment} {args : List PlatformString}

/-- An `llvm-mc` process that differs from the others in its output and input only. -/
def assembler (accepted : AcceptedRun os env args) (shared : List PlatformString)
    (output : PlatformString) (input : FsPath) : Process :=
  ⟨accepted.llvmMc.lexicallyNormal os, shared ++ [pstr "-o=" ++ output, (input.makePreferred os).native]⟩

/-- The `llvm-mc` processes for several inputs, in the order of the command line. -/
def assemblers (accepted : AcceptedRun os env args) (shared : List PlatformString) : List Process :=
  accepted.gas.inputFiles.map fun input =>
    accepted.assembler shared (LlvmMcRunner.makeOutputFilePath os input).native input

/-- The `ld` process on the objects of several inputs. -/
def linker (accepted : AcceptedRun os env args) : Process :=
  ⟨accepted.ld.lexicallyNormal os, [pstr "-o", accepted.finalOutput, pstr "--relocatable"] ++
    accepted.gas.inputFiles.map fun input => (LlvmMcRunner.makeOutputFilePath os input).native⟩

/-- All processes of the run when every child succeeds. -/
def sequence (accepted : AcceptedRun os env args) (shared : List PlatformString) : List Process :=
  match accepted.gas.inputFiles with
  | [] => []
  | [input] => [accepted.assembler shared accepted.finalOutput input]
  | _ :: _ :: _ => accepted.assemblers shared ++ [accepted.linker]

theorem sequence_one {accepted : AcceptedRun os env args} {input : FsPath}
    (only : accepted.gas.inputFiles = [input]) (shared : List PlatformString) :
    accepted.sequence shared = [accepted.assembler shared accepted.finalOutput input] := by
  simp only [sequence, only]

theorem sequence_several {accepted : AcceptedRun os env args}
    (several : 2 ≤ accepted.gas.inputFiles.length) (shared : List PlatformString) :
    accepted.sequence shared = accepted.assemblers shared ++ [accepted.linker] := by
  unfold sequence
  split
  · next none =>
    rw [none] at several
    contradiction
  · next only =>
    rw [only] at several
    contradiction
  · rfl

/-- The arguments every `llvm-mc` of the run is given, when the `-mfpu` values mean `attributes`. -/
def shared (accepted : AcceptedRun os env args) (attributes : List PlatformString) : List PlatformString :=
  (accepted.request.settings accepted.target.runner attributes).sharedArguments

theorem llvmMcProcess_eq (accepted : AcceptedRun os env args) (attributes : List PlatformString)
    {output : PlatformString} (nonempty : output ≠ []) (input : FsPath) :
    Plan.llvmMcProcess os accepted.llvmMc (accepted.request.settings accepted.target.runner attributes)
      output input = accepted.assembler (accepted.shared attributes) output input := by
  rw [Plan.llvmMcProcess, Settings.llvmMcArguments_output os _ input nonempty]
  rfl

/-- The plan's processes, written with the shared arguments. -/
theorem processes_eq (accepted : AcceptedRun os env args) {attributes : List PlatformString}
    (agrees : accepted.Agrees attributes) :
    accepted.processes attributes = accepted.sequence (accepted.shared attributes) := by
  have written {output : PlatformString} (nonempty : output ≠ []) (input : FsPath) :=
    accepted.llvmMcProcess_eq attributes nonempty input
  unfold llvmMc at written
  simp only [processes, Plan.processes, sequence, assemblers, linker, ld, Plan.ldProcess, Plan.objectPath,
    ← agrees.inputs, request_output]
  rcases accepted.gas.inputFiles with _ | ⟨input, _ | ⟨second, others⟩⟩
  · rfl
  · simp only [written accepted.finalOutput_ne_nil]
  · simp only [written (LlvmMcRunner.makeOutputFilePath_ne_nil os _)]

/-- `-g` is passed exactly when it was asked for: neither an output nor an input looks like it. -/
theorem mem_assembler_g (accepted : AcceptedRun os env args) {attributes : List PlatformString}
    (agrees : accepted.Agrees attributes) (output : PlatformString) {input : FsPath}
    (member : input ∈ accepted.gas.inputFiles) :
    pstr "-g" ∈ (accepted.assembler (accepted.shared attributes) output input).args ↔
      readsNamed [pstr "g", pstr "gen-debug"] accepted.items = true := by
  have debug : accepted.request.debug = readsNamed [pstr "g", pstr "gen-debug"] accepted.items := by
    rw [request, items, ofItems_said]
  have notOutput : pstr "-g" ≠ pstr "-o=" ++ output := by simp [pstr]
  have notInput : pstr "-g" ≠ (input.makePreferred os).native := by
    rw [agrees.inputs] at member
    obtain ⟨nonempty, plain⟩ := accepted.inputs_wellRead input member
    intro same
    rw [← isDashed_makePreferred os, ← same] at plain
    contradiction
  simp only [assembler, shared, List.mem_append, List.mem_cons, List.not_mem_nil, notOutput, notInput, or_false,
    Settings.mem_sharedArguments_g]
  rw [← debug]
  rfl

/-- The processes of a run, for every list of inputs and every way the children may end: one
`llvm-mc` for a single input; for several, one after the other until the first failure, and `ld`
on all objects when there is none. The `llvm-mc` runs share all arguments but the output and the
input, which is passed in the platform's preferred spelling: the same path, and on POSIX the same
text. -/
theorem run_processes (accepted : AcceptedRun os env args)
    (present : env.fileExists accepted.llvmMc = .ok true) (nonempty : accepted.gas.inputFiles ≠ [])
    (named : ∀ input ∈ accepted.gas.inputFiles, input.hasFilename os = true) :
    (∀ input ∈ accepted.gas.inputFiles,
      os.pathGrammar.normalForm (input.makePreferred os).native = os.pathGrammar.normalForm input.native ∧
        (os = .posix → input.makePreferred os = input)) ∧
    ∃ shared : List PlatformString,
      (∀ output, ∀ input ∈ accepted.gas.inputFiles,
        pstr "-g" ∈ (accepted.assembler shared output input).args ↔
          readsNamed [pstr "g", pstr "gen-debug"] accepted.items = true) ∧
      (∀ input started, accepted.gas.inputFiles = [input] →
        Gas.run os env args started =
          .ok (env.exitCode started (accepted.assembler shared accepted.finalOutput input))
            (started ++ [accepted.assembler shared accepted.finalOutput input])) ∧
      (2 ≤ accepted.gas.inputFiles.length → ∀ started,
        (∀ before process after, accepted.assemblers shared = before ++ process :: after →
          Script.Succeed env.exitCode started before → env.exitCode (started ++ before) process ≠ 0 →
          Gas.run os env args started =
            .ok (env.exitCode (started ++ before) process) (started ++ before ++ [process])) ∧
        (Script.Succeed env.exitCode started (accepted.assemblers shared) →
          Gas.run os env args started =
            .ok (env.exitCode (started ++ accepted.assemblers shared) accepted.linker)
              (started ++ accepted.assemblers shared ++ [accepted.linker]))) := by
  obtain ⟨attributes, agrees⟩ := accepted.agrees
  have script := accepted.run_eq_start agrees present (by rwa [← agrees.inputs])
    (by rwa [← agrees.inputs])
  have processes := accepted.processes_eq agrees
  refine ⟨?_, _, fun output input member => accepted.mem_assembler_g agrees output member, ?_, ?_⟩
  · intro input _
    refine ⟨os.pathGrammar.normalForm_makePreferred input.native, ?_⟩
    rintro rfl
    exact input.makePreferred_posix
  · intro input started only
    rw [script, processes, sequence_one only]
    exact Script.run_singleton ..
  · intro several started
    rw [script, processes, sequence_several several, List.map_append]
    constructor
    · rintro before process after split succeed fails
      rw [split]
      exact Script.run_append_of_fails env.exitCode _ succeed fails
    · intro succeed
      rw [Script.run_append_of_succeed env.exitCode _ succeed]
      exact Script.run_singleton ..

/-- Two inputs, all children successful: three processes, the first two with `-g`. -/
theorem run_processes_two :
    let args := [pstr "/ndk/as", pstr "@gas-arch=x86_64-linux-android-as", pstr "-g", pstr "a.s", pstr "b.s"]
    ∃ first second third, Gas.run .posix .ready args [] = .ok 0 [first, second, third] ∧
      pstr "-g" ∈ first.args ∧ second.args.getLast? = some (pstr "b.s") := by
  intro args
  let accepted : AcceptedRun .posix .ready args := ofRequest rfl rfl rfl rfl rfl
  obtain ⟨-, shared, debug, -, several⟩ := run_processes accepted rfl (by decide) (by decide)
  have run := (several (by decide) []).2 (fun _ _ _ _ => rfl)
  refine ⟨_, _, _, run, (debug _ _ (List.mem_cons_self ..)).mpr rfl, ?_⟩
  exact (List.getLast?_append_of_ne_nil _ (by simp)).trans rfl

end AcceptedRun

end GasAdapter
