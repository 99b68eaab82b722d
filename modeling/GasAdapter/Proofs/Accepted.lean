import GasAdapter.Proofs.Gas

/-! # Runs that get past `parse_arguments`

`AcceptedRun` is everything `Gas::run` has when `parse_arguments` tells it to go on. What follows
is settled by the request of the command line: the inputs, the output and the settings every
`llvm-mc` run shares.
-/

namespace GasAdapter

open Reading Request

/-- Surroundings in which every file exists and every child succeeds. -/
def Environment.ready : Environment where
  fileExists _ := .ok true
  absolute path := .ok ⟨'/' :: path.native⟩
  moduleDirectory := .ok ⟨pstr "C:\\ndk"⟩
  exitCode _ _ := 0

/-! ## Names and meanings -/

/-- An option of the table is meant exactly when it has one of the names. -/
theorem reads_eq_readsNamed {targetArch : TargetArchitecture} {options : List CommandLineOption}
    {id : OptionId} {names : List PlatformString}
    (agree : ∀ opt ∈ options, (opt.id == id) = names.contains opt.name) (args : List PlatformString) :
    reads id (items targetArch options args) = readsNamed names (items targetArch options args) := by
  have read := (items_wellRead targetArch options args).2
  rw [Bool.eq_iff_iff, reads, readsNamed, List.any_eq_true, List.any_eq_true]
  apply exists_congr
  intro item
  apply and_congr_right
  intro member
  cases item with
  | positional text => rfl
  | unrecognized arg => rfl
  | option opt value =>
    have same := agree opt (read _ member).1.mem.1
    simp only [valueOf, ← same]
    cases opt.id == id <;> rfl

theorem values_eq_valuesNamed {targetArch : TargetArchitecture} {options : List CommandLineOption}
    {id : OptionId} {name : PlatformString}
    (agree : ∀ opt ∈ options, (opt.id == id) = (opt.name == name)) (args : List PlatformString) :
    (items targetArch options args).filterMap (valueOf id) =
      valuesNamed name (items targetArch options args) := by
  have read := (items_wellRead targetArch options args).2
  unfold valuesNamed
  apply List.filterMap_congr
  intro item member
  cases item with
  | positional text => rfl
  | unrecognized arg => rfl
  | option opt value => simp only [valueOf, agree opt (read _ member).1.mem.1]

/-- What the request means in the words of the command line. -/
theorem ofItems_said (target : Gas.Target) (args : List PlatformString) :
    Request.ofItems (Plan.said target args) =
      { inputs := (Plan.said target args).filterMap inputOf
        outputs := valuesNamed (pstr "o") (Plan.said target args)
        fpus := valuesNamed (pstr "mfpu") (Plan.said target args)
        debug := readsNamed [pstr "g", pstr "gen-debug"] (Plan.said target args)
        help := readsNamed [pstr "h", pstr "help"] (Plan.said target args)
        version := readsNamed [pstr "V"] (Plan.said target args)
        versionExit := readsNamed [pstr "version"] (Plan.said target args) } := by
  simp only [Request.ofItems, Request.mk.injEq, true_and]
  refine ⟨?_, ?_, ?_, ?_, ?_, ?_⟩
  · exact values_eq_valuesNamed (by decide) (args.drop 1)
  · exact values_eq_valuesNamed (by decide) (args.drop 1)
  all_goals exact reads_eq_readsNamed (by decide) (args.drop 1)

/-- With a target, the plan is up to the items. -/
theorem Plan.ofArguments_selected {os : Platform} {env : Environment} {args : List PlatformString}
    {programDir : FsPath} {target : Gas.Target} (located : Gas.determineProgramDir os env args = .ok programDir)
    (selected : Gas.selectTarget os (Gas.requestedName args) = some target) :
    ofArguments os env args = ofItems os env programDir target (said target args) (complete target args) := by
  rw [ofArguments, located]
  simp only [selected]

/-- `Gas::run` at the point where `parse_arguments` has told it to go on. -/
structure AcceptedRun (os : Platform) (env : Environment) (args : List PlatformString) where
  programDir : FsPath
  target : Gas.Target
  freshRunner : LlvmMcRunner
  gas : Gas
  mcRunner : LlvmMcRunner
  located : Gas.determineProgramDir os env args = .ok programDir
  selected : Gas.selectTarget os (Gas.requestedName args) = some target
  created : LlvmMcRunner.create target.runner = .ok freshRunner
  parsed : Gas.parseArguments os (Gas.fresh (Gas.requestedName args) programDir target) freshRunner args =
    .ok (⟨false, false⟩, gas, mcRunner)

namespace AcceptedRun

variable {os : Platform} {env : Environment} {args : List PlatformString}

def items (accepted : AcceptedRun os env args) : List Item := Plan.said accepted.target args

def request (accepted : AcceptedRun os env args) : Request := Request.ofItems accepted.items

/-- The file named by the last `-o`, or `a.out`. -/
def finalOutput (accepted : AcceptedRun os env args) : PlatformString :=
  (valuesNamed (pstr "o") accepted.items).getLast?.getD (pstr "a.out")

def llvmMc (accepted : AcceptedRun os env args) : FsPath :=
  accepted.programDir.append os (Constants.llvmMcName os)

def ld (accepted : AcceptedRun os env args) : FsPath :=
  accepted.programDir.append os accepted.target.ldName

/-- What the command line of an accepted run says. -/
structure Agrees (accepted : AcceptedRun os env args) (attributes : List PlatformString) : Prop where
  mapped : Request.attributes os accepted.request.fpus = .ok attributes
  noHelp : accepted.request.help = false
  noVersion : accepted.request.version = false
  noVersionExit : accepted.request.versionExit = false
  complete : Plan.complete accepted.target args = true
  inputs : accepted.gas.inputFiles = accepted.request.inputs
  output : accepted.gas.gasOutputFile = ⟨accepted.request.output⟩

theorem agrees (accepted : AcceptedRun os env args) : ∃ attributes, accepted.Agrees attributes := by
  obtain ⟨programDir, target, freshRunner, gas, mcRunner, located, selected, created, parsed⟩ := accepted
  rw [LlvmMcRunner.create_eq] at created
  obtain rfl := Except.ok.inj created
  rw [Gas.parseArguments_eq os _ programDir target args (Gas.fpusMapped selected (args.drop 1))] at parsed
  simp only at parsed
  split at parsed
  · cases parsed
  · next attributes mapped =>
    split at parsed
    · cases parsed
    · next goesOn =>
      split at parsed
      · cases parsed
      · next complete =>
        cases parsed
        simp only [Bool.or_eq_true, not_or, Bool.not_eq_true] at goesOn
        refine ⟨attributes, ?_⟩
        constructor
        · exact mapped
        · exact goesOn.1.1
        · exact goesOn.1.2
        · exact goesOn.2
        · exact Bool.of_not_eq_false (by simpa using complete)
        · rfl
        · rfl

/-- The plan of an accepted run is the assembly script of its request. -/
theorem plan_eq (accepted : AcceptedRun os env args) {attributes : List PlatformString}
    (agrees : accepted.Agrees attributes) :
    Plan.ofArguments os env args = Plan.assembly os env accepted.programDir accepted.target.ldName
      (accepted.request.settings accepted.target.runner attributes) accepted.request.output
      accepted.request.inputs := by
  obtain ⟨mapped, noHelp, noVersion, noVersionExit, complete, -, -⟩ := agrees
  rw [request] at mapped noHelp noVersion noVersionExit
  rw [Plan.ofArguments_selected accepted.located accepted.selected]
  change Plan.ofItems os env accepted.programDir accepted.target accepted.items _ = _
  simp only [Plan.ofItems, mapped, noHelp, noVersion, noVersionExit, complete]
  rfl

/-- An accepted run is the assembly script of its request. -/
theorem run_eq (accepted : AcceptedRun os env args) {attributes : List PlatformString}
    (agrees : accepted.Agrees attributes) (started : List Process) :
    Gas.run os env args started = Script.run env.exitCode (Plan.assembly os env accepted.programDir
      accepted.target.ldName (accepted.request.settings accepted.target.runner attributes)
      accepted.request.output accepted.request.inputs) started := by
  rw [Gas.run_eq, accepted.plan_eq agrees]

/-- The run is accepted when nothing about the command line stands in the way. -/
def ofRequest {programDir : FsPath} {target : Gas.Target} {attributes : List PlatformString}
    (located : Gas.determineProgramDir os env args = .ok programDir)
    (selected : Gas.selectTarget os (Gas.requestedName args) = some target)
    (mapped : Request.attributes os (Request.ofItems (Plan.said target args)).fpus = .ok attributes)
    (goesOn : ((Request.ofItems (Plan.said target args)).help ||
      (Request.ofItems (Plan.said target args)).version ||
      (Request.ofItems (Plan.said target args)).versionExit) = false)
    (complete : Plan.complete target args = true) : AcceptedRun os env args :=
  let items := Plan.said target args
  let read := Gas.readProgress (Gas.fresh (Gas.requestedName args) programDir target) target.runner
    items attributes
  { programDir, target, freshRunner := (Settings.initial target.runner).runner
    gas := { read.gas with gasOutputFile := ⟨(Request.ofItems items).output⟩ }
    mcRunner := read.settings.runner
    located, selected, created := LlvmMcRunner.create_eq target.runner
    parsed := by
      rw [Gas.parseArguments_eq os _ programDir target args (Gas.fpusMapped selected (args.drop 1))]
      simp only [mapped, goesOn, complete]
      rfl }

theorem request_output (accepted : AcceptedRun os env args) :
    accepted.request.output = accepted.finalOutput := by
  rw [request, items, ofItems_said]
  rfl

theorem finalOutput_ne_nil (accepted : AcceptedRun os env args) : accepted.finalOutput ≠ [] := by
  rw [← request_output]
  exact Gas.output_ne_nil accepted.target.arch (args.drop 1)

/-! ## Inputs -/

theorem mem_inputs {input : FsPath} {items : List Item} :
    input ∈ (Request.ofItems items).inputs ↔
      Item.positional input.native ∈ items ∧ Constants.archHackParam.isPrefixOf input.native = false := by
  simp only [Request.ofItems, List.mem_filterMap]
  constructor
  · rintro ⟨item, member, taken⟩
    cases item with
    | positional text =>
      simp only [inputOf] at taken
      split at taken
      · contradiction
      · next plain =>
        obtain rfl := Option.some.inj taken
        exact ⟨member, eq_false_of_ne_true plain⟩
    | option opt value => contradiction
    | unrecognized arg => contradiction
  · rintro ⟨member, plain⟩
    exact ⟨_, member, by simp [inputOf, plain]⟩

/-- An input is neither empty nor does it look like an option. -/
theorem inputs_wellRead (accepted : AcceptedRun os env args) :
    ∀ input ∈ accepted.request.inputs, input.native ≠ [] ∧ isDashed input.native = false := by
  intro input member
  exact (items_wellRead _ _ _).2 _ (mem_inputs.mp member).1

theorem inputComplaint_eq_none (accepted : AcceptedRun os env args) {input : FsPath}
    (member : input ∈ accepted.request.inputs) (named : input.hasFilename os = true) :
    Settings.inputComplaint os input = none := by
  have full := (accepted.inputs_wellRead input member).1
  exact LlvmMcRunner.inputComplaint_eq_none.mpr ⟨by simpa [FsPath.isEmpty] using full, named⟩

/-- With `llvm-mc` present, a named input is assembled. -/
theorem inputAction_eq_start (accepted : AcceptedRun os env args) (settings : Settings)
    (output : PlatformString) (present : env.fileExists accepted.llvmMc = .ok true) {input : FsPath}
    (member : input ∈ accepted.request.inputs) (named : input.hasFilename os = true) :
    Plan.inputAction os env accepted.llvmMc settings output input =
      .start (Plan.llvmMcProcess os accepted.llvmMc settings output input) := by
  simp only [Plan.inputAction, accepted.inputComplaint_eq_none member named, present]

/-- The processes of an accepted run when they all succeed. -/
def processes (accepted : AcceptedRun os env args) (attributes : List PlatformString) : List Process :=
  Plan.processes os accepted.programDir accepted.target.ldName
    (accepted.request.settings accepted.target.runner attributes) accepted.request.output
    accepted.request.inputs

/-- With `llvm-mc` present and only named inputs, the script only starts processes. -/
theorem assembly_eq (accepted : AcceptedRun os env args) (attributes : List PlatformString)
    (present : env.fileExists accepted.llvmMc = .ok true) (nonempty : accepted.request.inputs ≠ [])
    (named : ∀ input ∈ accepted.request.inputs, input.hasFilename os = true) :
    Plan.assembly os env accepted.programDir accepted.target.ldName
        (accepted.request.settings accepted.target.runner attributes) accepted.request.output
        accepted.request.inputs =
      (accepted.processes attributes).map .start := by
  have starts := fun output input member =>
    accepted.inputAction_eq_start (accepted.request.settings accepted.target.runner attributes) output
      present member (named input member)
  unfold processes
  unfold llvmMc at starts
  generalize accepted.request.inputs = inputs at *
  match inputs with
  | [] => exact (nonempty rfl).elim
  | [input] => simp only [Plan.assembly, Plan.processes, starts _ input (List.mem_singleton_self _),
      List.map_cons, List.map_nil]
  | first :: second :: others =>
    have all := List.map_congr_left fun input member => starts (Plan.objectPath os input).native input member
    simp only [Plan.assembly, Plan.processes, List.map_append, List.map_map, all]
    rfl

/-- Such a run starts its processes one after the other. -/
theorem run_eq_start (accepted : AcceptedRun os env args) {attributes : List PlatformString}
    (agrees : accepted.Agrees attributes) (present : env.fileExists accepted.llvmMc = .ok true)
    (nonempty : accepted.request.inputs ≠ [])
    (named : ∀ input ∈ accepted.request.inputs, input.hasFilename os = true) (started : List Process) :
    Gas.run os env args started =
      Script.run env.exitCode ((accepted.processes attributes).map .start) started := by
  rw [accepted.run_eq agrees, accepted.assembly_eq attributes present nonempty named]

end AcceptedRun

end GasAdapter
