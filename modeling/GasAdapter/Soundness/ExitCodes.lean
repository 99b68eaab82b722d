import Mathlib.Data.List.Forall2
import GasAdapter.Proofs.Course
import GasAdapter.Soundness.ProcessSequence

/-! # What an exit code tells

A zero should mean that everything asked for was assembled, and a command line that cannot be
carried out should be refused with a non-zero code before any child is started. Each of the three
properties below holds on some command lines and fails on others; the theorems say on which.
-/

namespace GasAdapter.Gas

open Reading

/-! ## Refusals -/

/-- The run returns a non-zero code and starts nothing, whatever its children would do. -/
def Refuses (os : Platform) (env : Environment) (args : List PlatformString) : Prop :=
  ∃ code, code ≠ 0 ∧ ∀ started, run os env args started = .ok code started

/-- Something keeps an otherwise readable command line from starting a child: an option without its
value, no input, or no `llvm-mc` for a first input that has a file name. -/
def NothingStarts (os : Platform) (env : Environment) (programDir : FsPath) (target : Target)
    (args : List PlatformString) : Prop :=
  Plan.complete target args = false ∨ Plan.inputs target args = [] ∨
    ((∃ first, (Plan.inputs target args).head? = some first ∧ first.hasFilename os = true) ∧
      env.fileExists (programDir.append os (Constants.llvmMcName os)) = .ok false)

variable {os : Platform} {env : Environment} {args : List PlatformString} {target : Target}

theorem Refuses.returns (refuses : Refuses os env args) (started : List Process) :
    ∃ code final, run os env args started = .ok code final := by
  obtain ⟨code, -, result⟩ := refuses
  exact ⟨code, started, result started⟩

theorem not_returns_of_fail {e : Exception} (plan : Plan.ofArguments os env args = [.fail e]) :
    ¬∀ started, ∃ code final, run os env args started = .ok code final := by
  intro returns
  obtain ⟨code, final, result⟩ := returns []
  rw [run_of_fail plan] at result
  cases result

theorem not_refuses_of_fail {e : Exception} (plan : Plan.ofArguments os env args = [.fail e]) :
    ¬Refuses os env args := by
  intro refused
  exact not_returns_of_fail plan refused.returns

theorem refuses_of_stop {code : Int} (plan : Plan.ofArguments os env args = [.stop code]) :
    Refuses os env args ↔ code ≠ 0 := by
  constructor
  · rintro ⟨other, fails, refused⟩
    have result := refused []
    rw [run_of_stop plan] at result
    cases result
    exact fails
  · intro fails
    exact ⟨code, fails, run_of_stop plan⟩

/-- An accepted run is refused exactly when nothing starts: with an input, it is the first input
that decides. -/
theorem refuses_accepted_iff (accepted : AcceptedRun os env args) :
    Refuses os env args ↔ NothingStarts os env accepted.programDir accepted.target args := by
  constructor
  · rintro ⟨code, fails, refused⟩
    right
    cases inputs : Plan.inputs accepted.target args with
    | nil => exact .inl rfl
    | cons first rest =>
      obtain ⟨settings, output, later, script⟩ := accepted.run_first inputs
      have result := refused []
      rw [script, Plan.inputAction] at result
      cases wrong : Settings.inputComplaint os first with
      | some e => rw [wrong] at result; cases result
      | none =>
        rw [wrong] at result
        cases present : env.fileExists accepted.llvmMc with
        | error e => simp only [present] at result; cases result
        | ok there =>
          simp only [present] at result
          cases there with
          | true => exact (Script.run_start_ne env.exitCode result).elim
          | false => exact .inr ⟨⟨first, rfl, (LlvmMcRunner.inputComplaint_eq_none.mp wrong).2⟩, present⟩
  · rintro (waits | none | ⟨⟨first, head, named⟩, missing⟩)
    · rw [accepted.complete] at waits
      cases waits
    · exact ⟨1, by decide, accepted.run_noInputs none⟩
    · obtain ⟨rest, inputs⟩ := List.head?_eq_some_iff.mp head
      obtain ⟨settings, output, later, script⟩ := accepted.run_first inputs
      have fine := accepted.inputComplaint_eq_none (List.mem_of_head? head) named
      refine ⟨Constants.wrapperExecFailedErrorCode, by decide, fun started => ?_⟩
      rw [script, Plan.inputAction, fine]
      simp only [AcceptedRun.llvmMc, missing]
      rfl

/-- A command line is refused exactly when it is readable, asks for no information, and nothing
starts. -/
theorem refuses_iff (selected : selectTarget os (requestedName args) = some target) :
    Refuses os env args ↔ ∃ programDir, determineProgramDir os env args = .ok programDir ∧
      Plan.FpusKnown target args ∧ Plan.asksInformation target args = false ∧
      NothingStarts os env programDir target args := by
  cases course selected with
  | unlocated e missing plan =>
    constructor
    · intro refused
      exact (not_refuses_of_fail plan refused).elim
    · rintro ⟨programDir, located, -⟩
      rw [missing] at located
      cases located
  | unmapped e bad plan =>
    constructor
    · intro refused
      exact (not_refuses_of_fail plan refused).elim
    · rintro ⟨programDir, -, known, -⟩
      exact (bad known).elim
  | informs programDir located known asks plan =>
    constructor
    · intro refused
      exact ((refuses_of_stop plan).mp refused rfl).elim
    · rintro ⟨_, -, -, silent, -⟩
      rw [asks] at silent
      cases silent
  | incomplete programDir located known asks waits plan =>
    constructor
    · rintro -
      exact ⟨programDir, located, known, asks, .inl waits⟩
    · rintro -
      exact (refuses_of_stop plan).mpr (by decide)
  | proceeds accepted same =>
    obtain rfl := same
    rw [refuses_accepted_iff accepted]
    constructor
    · intro nothing
      exact ⟨accepted.programDir, accepted.located, accepted.known, accepted.asksInformation, nothing⟩
    · rintro ⟨programDir, located, -, -, nothing⟩
      rw [accepted.located] at located
      obtain rfl := Except.ok.inj located
      exact nothing

/-! ## Unsupported options -/

/-- An argument in option position that the table does not have for the target makes the run fail
before any work, unless help or the version is asked for. -/
def UnsupportedOptionsFail (os : Platform) (env : Environment) (args : List PlatformString)
    (target : Target) : Prop :=
  Plan.asksInformation target args = false → (∃ arg, Item.unrecognized arg ∈ Plan.said target args) →
    Refuses os env args

/-- Unsupported options never make the wrapper fail by themselves: they do exactly when something
else does. -/
theorem unsupportedOptionsFail_iff (selected : selectTarget os (requestedName args) = some target) :
    UnsupportedOptionsFail os env args target ↔
      (∀ arg, Item.unrecognized arg ∉ Plan.said target args) ∨
        Plan.asksInformation target args = true ∨
        ∃ programDir, determineProgramDir os env args = .ok programDir ∧ Plan.FpusKnown target args ∧
          NothingStarts os env programDir target args := by
  constructor
  · intro claim
    by_cases unsupported : ∃ arg, Item.unrecognized arg ∈ Plan.said target args
    · cases asks : Plan.asksInformation target args with
      | true => exact .inr (.inl rfl)
      | false =>
        obtain ⟨programDir, located, known, -, nothing⟩ := (refuses_iff selected).mp (claim asks unsupported)
        exact .inr (.inr ⟨programDir, located, known, nothing⟩)
    · exact .inl (not_exists.mp unsupported)
  · rintro (none | asks | ⟨programDir, located, known, nothing⟩) silent ⟨arg, unsupported⟩
    · exact (none arg unsupported).elim
    · rw [asks] at silent
      cases silent
    · exact (refuses_iff selected).mpr ⟨programDir, located, known, silent, nothing⟩

/-- With an unsupported option and no input the wrapper does fail. -/
theorem unsupportedOptionsFail_noInput :
    UnsupportedOptionsFail .posix .ready
      [pstr "/ndk/as", pstr "@gas-arch=x86_64-linux-android-as", pstr "--mbig-obj"]
      ⟨.x64, .x64, pstr "x86_64-linux-android-ld"⟩ :=
  (unsupportedOptionsFail_iff rfl).mpr (.inr (.inr ⟨⟨pstr "/ndk"⟩, rfl, by decide, .inr (.inl rfl)⟩))

/-- With an unsupported option and its value, the value is assembled as an input. -/
theorem not_unsupportedOptionsFail :
    ¬UnsupportedOptionsFail .posix .ready
      [pstr "/ndk/as", pstr "@gas-arch=x86_64-linux-android-as", pstr "-mfpu", pstr "neon"]
      ⟨.x64, .x64, pstr "x86_64-linux-android-ld"⟩ := by
  intro claim
  obtain ⟨code, fails, refused⟩ := claim rfl ⟨pstr "-mfpu", by decide⟩
  have result := refused []
  cases result

/-! ## Bad values -/

/-- The run returns a code, and a command line with a bad `-mfpu` value or an input without a file
name is refused, unless help or the version is asked for. -/
def BadValuesReported (os : Platform) (env : Environment) (args : List PlatformString)
    (target : Target) : Prop :=
  (∀ started, ∃ code final, run os env args started = .ok code final) ∧
    (Plan.asksInformation target args = false →
      (¬Plan.FpusKnown target args ∨ ∃ input ∈ Plan.inputs target args, input.hasFilename os = false) →
      Refuses os env args)

/-- An accepted run reports bad values exactly when no input is reached, or `llvm-mc` is there and
every input has a file name. -/
theorem badValuesReported_accepted_iff (accepted : AcceptedRun os env args) :
    BadValuesReported os env args accepted.target ↔
      NothingStarts os env accepted.programDir accepted.target args ∨
        (env.fileExists accepted.llvmMc = .ok true ∧
          ∀ input ∈ Plan.inputs accepted.target args, input.hasFilename os = true) := by
  have refuses : Refuses os env args ↔ _ := refuses_accepted_iff accepted
  constructor
  · rintro ⟨returns, reports⟩
    by_cases named : ∀ input ∈ Plan.inputs accepted.target args, input.hasFilename os = true
    · cases inputs : Plan.inputs accepted.target args with
      | nil => exact .inl (.inr (.inl inputs))
      | cons first rest =>
        have head : (Plan.inputs accepted.target args).head? = some first := by rw [inputs]; rfl
        have member := List.mem_of_head? head
        obtain ⟨settings, output, later, script⟩ := accepted.run_first inputs
        obtain ⟨code, final, result⟩ := returns []
        rw [script, Plan.inputAction, accepted.inputComplaint_eq_none member (named first member)] at result
        rw [← inputs]
        cases present : env.fileExists accepted.llvmMc with
        | error e => simp only [present] at result; cases result
        | ok there =>
          cases there with
          | true => exact .inr ⟨rfl, named⟩
          | false => exact .inl (.inr (.inr ⟨⟨first, head, named first member⟩, present⟩))
    · push Not at named
      obtain ⟨input, member, bare⟩ := named
      exact .inl (refuses.mp (reports accepted.asksInformation
        (.inr ⟨input, member, eq_false_of_ne_true bare⟩)))
  · rintro (nothing | ⟨present, named⟩)
    · have refused := refuses.mpr nothing
      exact ⟨refused.returns, fun _ _ => refused⟩
    · refine ⟨fun started => ?_, ?_⟩
      · by_cases empty : Plan.inputs accepted.target args = []
        · exact ⟨1, started, accepted.run_noInputs empty started⟩
        · obtain ⟨attributes, agrees⟩ := accepted.agrees
          rw [accepted.run_eq_start agrees present empty named]
          exact Script.run_returns ..
      · rintro - (bad | ⟨input, member, bare⟩)
        · exact (bad accepted.known).elim
        · rw [named input member] at bare
          cases bare

/-- Whether bad values are reported: nothing before the inputs throws, and either no input is
reached or `llvm-mc` is there and every input has a file name. -/
theorem badValuesReported_iff (selected : selectTarget os (requestedName args) = some target) :
    BadValuesReported os env args target ↔
      ∃ programDir, determineProgramDir os env args = .ok programDir ∧ Plan.FpusKnown target args ∧
        (Plan.asksInformation target args = true ∨ NothingStarts os env programDir target args ∨
          (env.fileExists (programDir.append os (Constants.llvmMcName os)) = .ok true ∧
            ∀ input ∈ Plan.inputs target args, input.hasFilename os = true)) := by
  have taken : Course os env args target := course selected
  cases taken with
  | unlocated e missing plan =>
    constructor
    · rintro ⟨returns, -⟩
      exact (not_returns_of_fail plan returns).elim
    · rintro ⟨programDir, located, -⟩
      rw [missing] at located
      cases located
  | unmapped e bad plan =>
    constructor
    · rintro ⟨returns, -⟩
      exact (not_returns_of_fail plan returns).elim
    · rintro ⟨programDir, -, known, -⟩
      exact (bad known).elim
  | informs programDir located known asks plan =>
    constructor
    · rintro -
      exact ⟨programDir, located, known, .inl asks⟩
    · rintro -
      refine ⟨fun started => ⟨0, started, run_of_stop plan started⟩, ?_⟩
      intro silent
      rw [asks] at silent
      cases silent
  | incomplete programDir located known asks waits plan =>
    constructor
    · rintro -
      exact ⟨programDir, located, known, .inr (.inl (.inl waits))⟩
    · rintro -
      have refused : Refuses os env args := (refuses_of_stop plan).mpr (by decide)
      exact ⟨refused.returns, fun _ _ => refused⟩
  | proceeds accepted same =>
    obtain rfl := same
    rw [badValuesReported_accepted_iff accepted]
    constructor
    · intro fine
      exact ⟨accepted.programDir, accepted.located, accepted.known, .inr fine⟩
    · rintro ⟨programDir, located, -, asks | fine⟩
      · rw [accepted.asksInformation] at asks
        cases asks
      · rw [accepted.located] at located
        obtain rfl := Except.ok.inj located
        exact fine

/-- A known `-mfpu` value and two named inputs are in order. -/
theorem badValuesReported_two :
    BadValuesReported .posix .ready
      [pstr "/ndk/as", pstr "@gas-arch=arm-linux-androideabi-as", pstr "-mfpu=neon", pstr "a.s", pstr "b.s"]
      ⟨.arm32, .arm32, pstr "arm-linux-androideabi-ld"⟩ :=
  (badValuesReported_iff rfl).mpr ⟨⟨pstr "/ndk"⟩, rfl, by decide, .inr (.inr ⟨rfl, by decide⟩)⟩

/-- An `-mfpu` value without attributes makes `run` throw. -/
theorem not_badValuesReported :
    ¬BadValuesReported .posix .ready
      [pstr "/ndk/as", pstr "@gas-arch=arm-linux-androideabi-as", pstr "-mfpu=vfp", pstr "a.s"]
      ⟨.arm32, .arm32, pstr "arm-linux-androideabi-ld"⟩ := by
  rintro ⟨returns, -⟩
  obtain ⟨code, final, result⟩ := returns []
  cases result

/-! ## Success -/

/-- What a returned 0 should mean: the command line was parsed, there are inputs, and the processes
started since are one `llvm-mc` run for each input, with `ld` after several; all of them returned
0, and the last one was told to write the file named by the last `-o`, or `a.out`. -/
structure Assembled (os : Platform) (env : Environment) (args : List PlatformString) (target : Target)
    (started final : List Process) : Prop where
  parsed : (CommandLine.recorded target.arch allOptions args).1 = true
  someInput : Plan.inputs target args ≠ []
  processes : ∃ programDir assembling linking, determineProgramDir os env args = .ok programDir ∧
    final = started ++ (assembling ++ linking) ∧
    Script.Succeed env.exitCode started (assembling ++ linking) ∧
    List.Forall₂ (fun input process =>
      process.executablePath = (programDir.append os (Constants.llvmMcName os)).lexicallyNormal os ∧
      process.args.getLast? = some (input.makePreferred os).native) (Plan.inputs target args) assembling ∧
    ∃ last, (assembling ++ linking).getLast? = some last ∧
      let output := (valuesNamed (pstr "o") (Plan.said target args)).getLast?.getD (pstr "a.out")
      ((Plan.inputs target args).length = 1 → linking = [] ∧ pstr "-o=" ++ output ∈ last.args) ∧
      (2 ≤ (Plan.inputs target args).length → linking = [last] ∧
        last.executablePath = (programDir.append os target.ldName).lexicallyNormal os ∧
        [pstr "-o", output] <+: last.args)

/-- No silent success: without `-h`, `--help` and `--version` a returned 0 means that everything was
assembled. -/
def ZeroMeansAssembled (os : Platform) (env : Environment) (args : List PlatformString)
    (target : Target) : Prop :=
  ∀ started final, run os env args started = .ok 0 final →
    readsNamed [pstr "h", pstr "help"] (Plan.said target args) = false →
    readsNamed [pstr "version"] (Plan.said target args) = false →
    Assembled os env args target started final

/-- Nothing is assembled without starting a process. -/
theorem not_assembled_self {started : List Process} : ¬Assembled os env args target started started := by
  intro assembled
  obtain ⟨_, assembling, linking, -, final, -, -, last, ends, -⟩ := assembled.processes
  rw [List.self_eq_append_right.mp final] at ends
  cases ends

/-- An accepted run that returns 0 has started the processes of its plan, and all of them succeeded. -/
theorem processes_of_run_eq_zero (accepted : AcceptedRun os env args) {attributes : List PlatformString}
    (agrees : accepted.Agrees attributes) {started final : List Process}
    (result : run os env args started = .ok 0 final) :
    Plan.inputs accepted.target args ≠ [] ∧ final = started ++ accepted.processes attributes ∧
      Script.Succeed env.exitCode started (accepted.processes attributes) := by
  rw [accepted.run_eq agrees] at result
  obtain ⟨commands, script, rfl, succeed⟩ :=
    Script.succeed_of_run_eq_zero env.exitCode result (fun code => Plan.stop_mem_assembly)
  have someInput : accepted.request.inputs ≠ [] := by
    intro none
    rw [none] at script
    cases commands <;> cases script
  have starts : ∀ input ∈ accepted.request.inputs,
      Settings.inputComplaint os input = none ∧ env.fileExists accepted.llvmMc = .ok true := by
    intro input member
    obtain ⟨output, action⟩ := Plan.inputAction_mem_assembly member
    rw [script] at action
    obtain ⟨process, -, same⟩ := List.mem_map.mp action
    exact Plan.inputAction_start same.symm
  obtain ⟨first, member⟩ := List.exists_mem_of_ne_nil _ someInput
  have whole := accepted.assembly_eq attributes (starts first member).2 someInput
    (fun input member => (LlvmMcRunner.inputComplaint_eq_none.mp (starts input member).1).2)
  rw [script] at whole
  have same : commands = accepted.processes attributes :=
    List.map_injective_iff.mpr (fun _ _ => ScriptAction.start.inj) whole
  exact ⟨someInput, by rw [same], same ▸ succeed⟩

/-- The processes of the plan are what a returned 0 should mean. -/
theorem assembled_processes (accepted : AcceptedRun os env args) {attributes : List PlatformString}
    (agrees : accepted.Agrees attributes) (someInput : Plan.inputs accepted.target args ≠ [])
    {started : List Process}
    (succeed : Script.Succeed env.exitCode started (accepted.processes attributes)) :
    Assembled os env args accepted.target started (started ++ accepted.processes attributes) := by
  have processes := accepted.processes_eq agrees
  have inputs : Plan.inputs accepted.target args = accepted.gas.inputFiles := agrees.inputs.symm
  constructor
  · rw [CommandLine.recorded_eq]
    exact accepted.complete
  · exact someInput
  · rw [processes] at succeed ⊢
    rw [inputs] at someInput ⊢
    rcases files : accepted.gas.inputFiles with _ | ⟨only, _ | ⟨second, others⟩⟩
    · exact (someInput files).elim
    · rw [AcceptedRun.sequence_one files] at succeed ⊢
      refine ⟨accepted.programDir, [_], [], accepted.located, rfl, succeed, ?_, _, rfl, ?_, ?_⟩
      · exact .cons ⟨rfl, by simp [AcceptedRun.assembler]⟩ .nil
      · rintro -
        exact ⟨rfl, by simp [AcceptedRun.assembler, AcceptedRun.finalOutput, AcceptedRun.items]⟩
      · intro several
        simp at several
    · have several : 2 ≤ accepted.gas.inputFiles.length := by simp [files]
      rw [AcceptedRun.sequence_several several, AcceptedRun.assemblers, files] at succeed ⊢
      refine ⟨accepted.programDir, _, [_], accepted.located, rfl, succeed, ?_, _,
        List.getLast?_concat, ?_, ?_⟩
      · rw [List.forall₂_map_right_iff, List.forall₂_same]
        intro input member
        exact ⟨rfl, by simp [AcceptedRun.assembler]⟩
      · intro single
        simp at single
      · rintro -
        exact ⟨rfl, rfl, List.prefix_append [pstr "-o", accepted.finalOutput] _⟩

/-- Where silent success is possible: only `-V` does it, when the run gets as far as looking at it. -/
theorem zeroMeansAssembled_iff (selected : selectTarget os (requestedName args) = some target) :
    ZeroMeansAssembled os env args target ↔
      readsNamed [pstr "V"] (Plan.said target args) = false ∨
        readsNamed [pstr "h", pstr "help"] (Plan.said target args) = true ∨
        readsNamed [pstr "version"] (Plan.said target args) = true ∨
        ¬Plan.FpusKnown target args ∨ ∃ e, determineProgramDir os env args = .error e := by
  have taken : Course os env args target := course selected
  cases taken with
  | unlocated e missing plan =>
    constructor
    · rintro -
      exact .inr (.inr (.inr (.inr ⟨e, missing⟩)))
    · rintro - started final result
      rw [run_of_fail plan] at result
      cases result
  | unmapped e bad plan =>
    constructor
    · rintro -
      exact .inr (.inr (.inr (.inl bad)))
    · rintro - started final result
      rw [run_of_fail plan] at result
      cases result
  | informs programDir located known asks plan =>
    constructor
    · intro claim
      by_cases help : readsNamed [pstr "h", pstr "help"] (Plan.said target args) = true
      · exact .inr (.inl help)
      · by_cases versionExit : readsNamed [pstr "version"] (Plan.said target args) = true
        · exact .inr (.inr (.inl versionExit))
        · exact (not_assembled_self (claim [] [] (run_of_stop plan []) (eq_false_of_ne_true help)
            (eq_false_of_ne_true versionExit))).elim
    · rintro (silent | help | versionExit | bad | ⟨e, missing⟩) started final - noHelp noVersionExit
      · rw [Plan.asksInformation, noHelp, silent, noVersionExit] at asks
        cases asks
      · rw [help] at noHelp
        cases noHelp
      · rw [versionExit] at noVersionExit
        cases noVersionExit
      · exact (bad known).elim
      · rw [located] at missing
        cases missing
  | incomplete programDir located known asks waits plan =>
    constructor
    · rintro -
      simp only [Plan.asksInformation, Bool.or_eq_false_iff] at asks
      exact .inl asks.1.2
    · rintro - started final result
      rw [run_of_stop plan] at result
      cases result
  | proceeds accepted same =>
    obtain rfl := same
    constructor
    · rintro -
      have silent := accepted.asksInformation
      simp only [Plan.asksInformation, Bool.or_eq_false_iff] at silent
      exact .inl silent.1.2
    · rintro - started final result - -
      obtain ⟨attributes, agrees⟩ := accepted.agrees
      obtain ⟨someInput, rfl, succeed⟩ := processes_of_run_eq_zero accepted agrees result
      exact assembled_processes accepted agrees someInput succeed

/-- Without `-V`, a 0 for two inputs means that both were assembled. -/
theorem zeroMeansAssembled_two :
    ZeroMeansAssembled .posix .ready
      [pstr "/ndk/as", pstr "@gas-arch=x86_64-linux-android-as", pstr "a.s", pstr "b.s"]
      ⟨.x64, .x64, pstr "x86_64-linux-android-ld"⟩ :=
  (zeroMeansAssembled_iff rfl).mpr (.inl (by decide))

/-- With `-V` the wrapper returns 0 and assembles nothing. -/
theorem not_zeroMeansAssembled :
    ¬ZeroMeansAssembled .posix .ready
      [pstr "/ndk/as", pstr "@gas-arch=x86_64-linux-android-as", pstr "-V", pstr "a.s"]
      ⟨.x64, .x64, pstr "x86_64-linux-android-ld"⟩ := by
  intro claim
  exact not_assembled_self (claim [] [] rfl rfl rfl)

end GasAdapter.Gas
