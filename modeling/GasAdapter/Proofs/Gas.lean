import GasAdapter.Proofs.CommandLine
import GasAdapter.Proofs.Executables
import GasAdapter.Proofs.LlvmMcRunner
import GasAdapter.Spec.Plan

/-! # The wrapper carries out the plan of its command line

`handleArg` accumulates, item by item, what `Request` collects from the whole list; the runner it
configures is the runner of the request's settings. The loop over the inputs then starts the
processes of the plan. Together, `Gas::run` conducts the script of its command line, on every platform
and in every environment, whatever the outside makes of messages and processes.
-/

namespace GasAdapter.Gas

open Reading Request

/-! ## Reading the command line -/

/-- How far `parse_arguments` has come: its state, with the runner as settings. -/
structure Progress where
  gas : Gas
  settings : Settings
  terminate : Bool := false
  showVersion : Bool := false
  showHelp : Bool := false

namespace Progress

def state (progress : Progress) : ParseState :=
  ⟨progress.gas, progress.settings.runner, progress.terminate, progress.showVersion, progress.showHelp⟩

/-- The effect of one option. -/
def absorbOption (os : Platform) (progress : Progress) (value : PlatformString) :
    OptionId → Except Exception Progress
  | .ignore | .warn => .ok progress
  | .version => .ok { progress with showVersion := true }
  | .versionExit => .ok { progress with showVersion := true, terminate := true }
  | .help => .ok { progress with showHelp := true, terminate := true }
  | .o => .ok { progress with gas := { progress.gas with gasOutputFile := ⟨value⟩ } }
  | .mfpu => (Settings.fpuAttributes os value).map fun attributes =>
      { progress with settings :=
        { progress.settings with attributes := progress.settings.attributes ++ attributes } }
  | .g => .ok { progress with settings := { progress.settings with debug := true } }

/-- The effect of one item. -/
def absorb (os : Platform) (progress : Progress) : Item → Except Exception Progress
  | .positional text => .ok { progress with
      gas := { progress.gas with
        inputFiles := progress.gas.inputFiles ++ (inputOf (.positional text)).toList } }
  | .option opt value => progress.absorbOption os value opt.id
  | .unrecognized _ => .ok progress

/-- The progress after a list of items whose `-mfpu` values mean `attributes`. -/
def after (progress : Progress) (items : List Item) (attributes : List PlatformString) : Progress where
  gas := { progress.gas with
    inputFiles := progress.gas.inputFiles ++ items.filterMap inputOf
    gasOutputFile :=
      ((items.filterMap (valueOf .o)).getLast?.map FsPath.mk).getD progress.gas.gasOutputFile }
  settings := { progress.settings with
    debug := progress.settings.debug || reads .g items
    attributes := progress.settings.attributes ++ attributes }
  terminate := progress.terminate || (reads .help items || reads .versionExit items)
  showVersion := progress.showVersion || (reads .version items || reads .versionExit items)
  showHelp := progress.showHelp || reads .help items

theorem after_positional (progress : Progress) (text : PlatformString) (rest : List Item) :
    after { progress with
      gas := { progress.gas with
        inputFiles := progress.gas.inputFiles ++ (inputOf (.positional text)).toList } } rest =
      progress.after (.positional text :: rest) := by
  funext attributes
  cases taken : inputOf (.positional text) <;> simp [after, reads, valueOf, taken, List.filterMap_cons]

theorem absorbOption_ok (os : Platform) (progress : Progress) (value : PlatformString)
    {id : OptionId} (notFpu : id ≠ .mfpu) : ∃ next, progress.absorbOption os value id = .ok next := by
  cases id
  case mfpu => exact (notFpu rfl).elim
  all_goals exact ⟨_, rfl⟩

/-- One option first, then the rest, is the whole list, for every option that cannot fail. -/
theorem after_option (os : Platform) (progress next : Progress) (opt : CommandLineOption)
    (value : PlatformString) (rest : List Item) (notFpu : opt.id ≠ .mfpu)
    (step : progress.absorbOption os value opt.id = .ok next) :
    next.after rest = progress.after (.option opt value :: rest) := by
  obtain ⟨name, id, argument, arch⟩ := opt
  funext attributes
  cases id
  case mfpu => exact (notFpu rfl).elim
  case o =>
    cases step
    cases last : (rest.filterMap (valueOf .o)).getLast? <;>
      simp [after, reads, valueOf, inputOf, List.filterMap_cons, List.getLast?_cons, last]
  all_goals
    cases step
    simp [after, reads, valueOf, inputOf, List.filterMap_cons]

/-- Item by item, progress is what the whole list asks for. -/
theorem foldlM_absorb (os : Platform) (progress : Progress) (items : List Item) :
    items.foldlM (absorb os) progress =
      (attributes os (items.filterMap (valueOf .mfpu))).map (progress.after items) := by
  induction items generalizing progress with
  | nil => simp [attributes, after, reads, pure, Except.pure, Except.map]
  | cons item rest ih =>
    rw [List.foldlM_cons]
    cases item with
    | positional text =>
      change rest.foldlM (absorb os) _ = _
      rw [ih, after_positional]
      rfl
    | unrecognized arg =>
      change rest.foldlM (absorb os) progress = _
      rw [ih]
      rfl
    | option opt value =>
      by_cases fpu : opt.id = .mfpu
      · rw [List.filterMap_cons_some (show valueOf .mfpu (.option opt value) = some value by
          simp [valueOf, fpu])]
        simp only [absorb, fpu, absorbOption, attributes]
        cases Settings.fpuAttributes os value with
        | error e => rfl
        | ok first =>
          change rest.foldlM (absorb os) _ = _
          rw [ih]
          cases attributes os (rest.filterMap (valueOf .mfpu)) with
          | error e => rfl
          | ok later =>
            simp [after, reads, valueOf, inputOf, fpu, List.filterMap_cons, Except.map, bind, Except.bind]
      · rw [List.filterMap_cons_none (show valueOf .mfpu (.option opt value) = none by
          simp [valueOf, fpu])]
        obtain ⟨next, step⟩ := absorbOption_ok os progress value fpu
        simp only [absorb, step, bind, Except.bind]
        rw [ih, after_option os progress next opt value rest fpu step]

end Progress

/-- `-mfpu` values are only read for a runner that maps them. -/
def FpusMapped (kind : LlvmMcArchitecture) (items : List Item) : Prop :=
  ∀ item ∈ items, (valueOf .mfpu item).isSome → kind = .arm32

theorem mapOption_runner (os : Platform) (settings : Settings) (value : PlatformString)
    (mapped : settings.kind = .arm32) :
    LlvmMcRunner.mapOption os (pstr "mfpu") value settings.runner =
      LlvmMcRunner.mapOptionArm32 os (pstr "mfpu") value settings.runner := by
  cases settings with
  | mk kind debug includeDirs attributes mcpu output input =>
    obtain rfl : kind = .arm32 := mapped
    rfl

/-- The state an action that returned nothing leaves, or what it threw. -/
def settled (result : EStateM.Result Exception ParseState Unit) : Except Exception ParseState :=
  match result with
  | .ok _ state => .ok state
  | .error e _ => .error e

/-- One callback has the effect of its item. -/
theorem handleArg_option (os : Platform) (progress : Progress) (opt : CommandLineOption)
    (value : PlatformString) (mapped : opt.id = .mfpu → progress.settings.kind = .arm32) :
    settled (handleArg os (.option opt) (.string value) progress.state) =
      (progress.absorbOption os value opt.id).map Progress.state := by
  obtain ⟨name, id, argument, arch⟩ := opt
  cases id
  case g =>
    change settled (onRunner LlvmMcRunner.generateDebugInfo progress.state) = _
    simp only [onRunner, Progress.state, LlvmMcRunner.generateDebugInfo_runner]
    rfl
  case mfpu =>
    change settled (onRunner (LlvmMcRunner.mapOption os (pstr "mfpu") value) progress.state) = _
    simp only [onRunner, Progress.state, mapOption_runner os progress.settings value (mapped rfl),
      LlvmMcRunner.mapOptionArm32_runner, Progress.absorbOption]
    cases Settings.fpuAttributes os value <;> rfl
  all_goals rfl

theorem handleArg_positional (os : Platform) (progress : Progress) (count : UInt32)
    (text : PlatformString) :
    settled (handleArg os (.positional count) (.string text) progress.state) =
      (progress.absorb os (.positional text)).map Progress.state := by
  by_cases hack : Constants.archHackParam.isPrefixOf text = true
  · simp only [handleArg, getString, pure_bind, Progress.absorb, inputOf, hack, ↓reduceIte,
      Option.toList_none, List.append_nil]
    rfl
  · simp only [handleArg, getString, pure_bind, Progress.absorb, inputOf, hack, Bool.false_eq_true,
      ↓reduceIte, Option.toList_some]
    rfl

theorem absorb_kind {os : Platform} {progress next : Progress} {item : Item}
    (step : progress.absorb os item = .ok next) : next.settings.kind = progress.settings.kind := by
  cases item with
  | positional text => cases step; rfl
  | unrecognized arg => cases step; rfl
  | option opt value =>
    obtain ⟨name, id, argument, arch⟩ := opt
    cases id
    case mfpu =>
      simp only [Progress.absorb, Progress.absorbOption] at step
      cases meaning : Settings.fpuAttributes os value with
      | error e => rw [meaning] at step; cases step
      | ok attributes => rw [meaning] at step; cases step; rfl
    all_goals cases step; rfl

/-! ## Two states at a time -/

section Bind

variable {ε σ α β : Type} {action : EStateM ε σ α} {before after : σ}

theorem bind_of_ok {a : α} (returned : action before = .ok a after) (next : α → EStateM ε σ β) :
    (action >>= next) before = next a after := by
  change EStateM.bind action next before = _
  rw [EStateM.bind, returned]

theorem bind_of_error {e : ε} (threw : action before = .error e after) (next : α → EStateM ε σ β) :
    (action >>= next) before = .error e after := by
  change EStateM.bind action next before = _
  rw [EStateM.bind, threw]

end Bind

section Pair

variable {σ τ α β : Type}

theorem onFirst_bind (action : EStateM Exception τ α) (next : α → EStateM Exception (τ × σ) β) (own : τ)
    (state : σ) :
    (onFirst action >>= next) (own, state) =
      match action own with
      | .ok a own => next a (own, state)
      | .error e own => .error e (own, state) := by
  simp only [bind, EStateM.bind, onFirst]
  cases action own <;> rfl

theorem owning_bind (action : EStateM Exception (τ × σ) α) (next : α → EStateM Exception (τ × σ) β) (own : τ)
    (state : σ) :
    owning own (action >>= next) state =
      match action (own, state) with
      | .ok a (own, state) => owning own (next a) state
      | .error e (_, state) => .error e state := by
  simp only [owning, bind, EStateM.bind]
  cases action (own, state) <;> rfl

theorem owning_of_ok {action : EStateM Exception (τ × σ) α} {own own' : τ} {state state' : σ} {a : α}
    (returned : action (own, state) = .ok a (own', state')) (next : α → EStateM Exception (τ × σ) β) :
    owning own (action >>= next) state = owning own' (next a) state' := by
  rw [owning_bind, returned]

theorem owning_of_error {action : EStateM Exception (τ × σ) α} {own own' : τ} {state state' : σ} {e : Exception}
    (threw : action (own, state) = .error e (own', state')) (next : α → EStateM Exception (τ × σ) β) :
    owning own (action >>= next) state = .error e state' := by
  rw [owning_bind, threw]

theorem liftExcept_ok_bind (a : α) (next : α → EStateM Exception σ β) :
    ((liftExcept (.ok a : Except Exception α) : EStateM Exception σ α) >>= next) = next a := rfl

end Pair

/-! ## The callbacks of `parse_arguments` -/

section Parse

variable {σ : Type} (outside : Outside σ) (os : Platform)

/-- The option callback, beside the outside. -/
def heard (option : CallbackOption) (value : OptionValue) : EStateM Exception (ParseState × σ) Unit :=
  onFirst (handleArg os option value)

def complains (complaint : CommandLine.Complaint) : EStateM Exception (ParseState × σ) Unit :=
  onSecond (outside.tell (.complaint complaint))

def voice (complaints : List CommandLine.Complaint) (state : σ) : σ :=
  Plan.sayAll outside (complaints.map .complaint) state

/-- Performing some items absorbs them one after the other, and voices the complaints. When one cannot be
absorbed, the complaints before it have been made. -/
theorem performItems_heard (count : UInt32) (progress : Progress) (items : List Item)
    (mapped : FpusMapped progress.settings.kind items) (state : σ) :
    ∃ front, front <+: Plan.unrecognized items ∧
      match items.foldlM (Progress.absorb os) progress with
      | .error e => ∃ failed, CommandLine.performItems (heard os) (complains outside) count items
          (progress.state, state) = .error e (failed, voice outside front state)
      | .ok next => CommandLine.performItems (heard os) (complains outside) count items
          (progress.state, state) = .ok () (next.state, voice outside (Plan.unrecognized items) state) := by
  induction items generalizing count progress state with
  | nil => exact ⟨[], List.nil_prefix, rfl⟩
  | cons item rest ih =>
    have goesOn {next : Progress} (step : progress.absorb os item = .ok next) (count : UInt32) (state : σ) := by
      refine ih count next ?_ state
      intro other member
      rw [absorb_kind step]
      exact mapped other (List.mem_cons_of_mem _ member)
    rw [List.foldlM_cons]
    have called (option : CallbackOption) (value : PlatformString) (count : UInt32)
        (step : settled (handleArg os option (.string value) progress.state) =
          (progress.absorb os item).map Progress.state) :
        ∃ front, front <+: Plan.unrecognized rest ∧
          match progress.absorb os item >>= fun next => rest.foldlM (Progress.absorb os) next with
          | .error e => ∃ failed, (heard os option (.string value) >>= fun _ =>
              CommandLine.performItems (heard os) (complains outside) count rest) (progress.state, state) =
                .error e (failed, voice outside front state)
          | .ok next => (heard os option (.string value) >>= fun _ =>
              CommandLine.performItems (heard os) (complains outside) count rest) (progress.state, state) =
                .ok () (next.state, voice outside (Plan.unrecognized rest) state) := by
      rw [heard, onFirst_bind]
      cases ran : handleArg os option (.string value) progress.state with
      | error e failed =>
        rw [ran] at step
        cases absorbed : progress.absorb os item with
        | ok next => rw [absorbed] at step; cases step
        | error e' =>
          rw [absorbed] at step
          cases step
          exact ⟨[], List.nil_prefix, failed, rfl⟩
      | ok _ after =>
        rw [ran] at step
        cases absorbed : progress.absorb os item with
        | error e => rw [absorbed] at step; cases step
        | ok next =>
          rw [absorbed] at step
          obtain rfl : after = next.state := Except.ok.inj step
          exact goesOn absorbed count state
    cases item with
    | positional text => exact called _ _ (count + 1) (handleArg_positional os progress count text)
    | option opt value =>
      refine called _ _ count (handleArg_option os progress opt value ?_)
      intro fpu
      exact mapped _ (List.mem_cons_self ..) (by simp [valueOf, fpu])
    | unrecognized arg =>
      have unread : progress.absorb os (.unrecognized arg) = .ok progress := rfl
      obtain ⟨front, made, later⟩ := goesOn unread count (outside.say (.complaint (.unrecognized arg)) state)
      exact ⟨.unrecognized arg :: front, List.cons_prefix_cons.mpr ⟨rfl, made⟩, later⟩

end Parse

/-! ## Assembling -/

open Plan

section Assemble

variable {σ : Type} (outside : Outside σ) (os : Platform) (env : Environment) (programName : PlatformString)
  (llvmMc : FsPath)

/-- A computation on a runner that conducts a script, whatever the runner. -/
def Conducts (computation : EStateM Exception (LlvmMcRunner × σ) Int) (actions : List Action) : Prop :=
  ∀ runner state, owning runner computation state = conduct outside os programName llvmMc actions state

/-- The rest of `run` after the loop over the inputs. -/
def thenGo (rest : EStateM Exception (LlvmMcRunner × σ) Int) (ret : Int) :
    EStateM Exception (LlvmMcRunner × σ) Int :=
  if ret ≠ 0 then pure ret else rest

/-- A code that is not 0 is reported, and ends the loop and the run. -/
theorem owning_blame (ret : Int) (loop rest : EStateM Exception (LlvmMcRunner × σ) Int) (runner : LlvmMcRunner)
    (state : σ) :
    owning runner ((if ret ≠ 0 then onSecond (outside.tell (.failed ret)) >>= fun _ => pure ret else loop) >>=
        thenGo rest) state =
      if ret = 0 then owning runner (loop >>= thenGo rest) state
      else .ok ret (outside.say (.failed ret) state) := by
  by_cases zero : ret = 0
  · rw [if_pos zero, if_neg (not_not.mpr zero)]
  · rw [if_neg zero, if_pos zero, bind_assoc]
    simp only [pure_bind, thenGo, ne_eq, zero, not_false_eq_true, ↓reduceIte]
    rfl

/-- The loop over the inputs conducts their actions. The runner is reused: before each run only its input
and, when it is derived, its output differ from the shared settings. -/
theorem assembleInputs_eq (derive : Bool) (base : Settings) (only : PlatformString)
    (output : Option PlatformString) (previous : FsPath) (kept : derive = false → output = some only)
    (inputs : List FsPath) {rest : EStateM Exception (LlvmMcRunner × σ) Int} {actions : List Action}
    (later : Conducts outside os programName llvmMc rest actions) (state : σ) :
    owning { base with output := output, input := previous }.runner
        (assembleInputs outside os env llvmMc derive inputs >>= thenGo rest) state =
      conduct outside os programName llvmMc (inputs.map (fun input => inputAction os env llvmMc base
        (if derive then (objectPath os input).native else only) input) ++ actions) state := by
  induction inputs generalizing output previous state with
  | nil => exact later _ state
  | cons input inputs ih =>
    rw [List.map_cons, List.cons_append, inputAction, assembleInputs, bind_assoc, owning_bind]
    simp only [onFirst]
    cases wrong : Settings.inputComplaint os input with
    | some e =>
      rw [LlvmMcRunner.setInputFilePath_complaint os _ input derive wrong]
      rfl
    | none =>
      obtain ⟨nonempty, named⟩ := LlvmMcRunner.inputComplaint_eq_none.mp wrong
      have settled : (if derive then some (LlvmMcRunner.makeOutputFilePath os input).native else output) =
          some (if derive then (objectPath os input).native else only) := by
        cases derive with
        | true => rfl
        | false => exact kept rfl
      rw [LlvmMcRunner.setInputFilePath_runner os _ input derive nonempty named]
      simp only [settled]
      generalize chosen : (if derive then (objectPath os input).native else only) = path
      have ran := LlvmMcRunner.run_runner outside os env
        { base with output := some path, input := input } llvmMc state
      rw [bind_assoc, owning_bind, ran]
      cases env.fileExists llvmMc with
      | error e => rfl
      | ok present =>
        cases present with
        | false =>
          have failed : Constants.wrapperExecFailedErrorCode ≠ 0 := by decide
          simp only [owning_blame, if_neg failed]
          rfl
        | true =>
          have goesOn := ih (some path) (input.makePreferred os) fun notDerived => by simp [← chosen, notDerived]
          simp only [owning_blame, conduct, Script.carryOut_start, startTool, llvmMcProcess]
          split
          · next fine => simp only [fine, ne_eq, not_true_eq_false, and_false, ↓reduceIte]; exact goesOn _
          · next fails => simp only [fails, ne_eq, not_false_eq_true, and_self, ↓reduceIte]

theorem thenGo_pure : thenGo (σ := σ) (pure 0) = pure := by
  funext ret
  by_cases zero : ret = 0
  · rw [thenGo, if_neg (not_not.mpr zero), zero]
  · rw [thenGo, if_pos zero]

end Assemble

/-! ## The whole run -/

theorem appendProgramArgument_eq (process : Process) (arg : PlatformString) :
    process.appendProgramArgument arg = process.pushArg arg := rfl

private theorem foldl_pushArg (process : Process) (paths : List FsPath) :
    paths.foldl (fun process path => process.pushArg path.native) process =
      { process with args := process.args ++ paths.map FsPath.native } := by
  induction paths generalizing process with
  | nil => simp
  | cons path rest ih => rw [List.foldl_cons, ih]; simp [Process.pushArg]

theorem ldProcess_eq (os : Platform) (gas : Gas) (ldName : PlatformString)
    (settled : gas.gasOutputFile.isEmpty = false) :
    Gas.ldProcess os gas ldName =
      Plan.ldProcess os (gas.programDir.append os ldName) gas.gasOutputFile.native gas.inputFiles := by
  simp only [Gas.ldProcess, appendProgramArgument_eq, foldl_pushArg, settled]
  simp [Plan.ldProcess, Process.create, Process.pushArg, objectPath, Function.comp_def]

section Assemble

variable {σ : Type} (outside : Outside σ) (os : Platform) (env : Environment)

/-- A process that is not `llvm-mc` is run, and nothing is said about its code. -/
theorem start_conducts (programName : PlatformString) (process : Process) {llvmMc : FsPath}
    (other : process.executablePath ≠ llvmMc.lexicallyNormal os) :
    Conducts outside os programName llvmMc (onSecond (outside.start process)) [.start process] := by
  intro runner state
  have unspoken : startTool outside (llvmMc.lexicallyNormal os) process state =
      outside.runProcess process state := by
    rw [startTool]
    exact if_neg fun tool => other tool.1
  have ran : owning runner (onSecond (outside.start process)) state =
      .ok (outside.runProcess process state).1 (outside.runProcess process state).2 := rfl
  rw [ran, conduct, Script.carryOut_start, unspoken]
  split
  · next fine =>
    rw [fine]
    rfl
  · rfl

/-- After `parse_arguments`, `run` is the assembly script of what has been read. -/
theorem assemble_eq (ldName : PlatformString) (gas : Gas) (settings : Settings)
    (fresh : settings.output = none ∧ settings.input = ⟨[]⟩) (settled : gas.gasOutputFile.isEmpty = false)
    (apart : (gas.programDir.append os (Constants.llvmMcName os)).lexicallyNormal os ≠
      (gas.programDir.append os ldName).lexicallyNormal os) (state : σ) :
    owning settings.runner (assemble outside os env ldName gas) state =
      conduct outside os gas.programName (gas.programDir.append os (Constants.llvmMcName os))
        (assembly os env gas.programDir ldName settings gas.gasOutputFile.native gas.inputFiles) state := by
  obtain ⟨kind, debug, includeDirs, attributes, mcpu, output, input⟩ := settings
  obtain ⟨rfl, rfl⟩ := fresh
  have loop (derive : Bool) (output : Option PlatformString)
      (kept : derive = false → output = some gas.gasOutputFile.native) :=
    @assembleInputs_eq σ outside os env gas.programName (gas.programDir.append os (Constants.llvmMcName os)) derive
      ⟨kind, debug, includeDirs, attributes, mcpu, none, ⟨[]⟩⟩ gas.gasOutputFile.native output ⟨[]⟩ kept
  unfold assemble assembly
  match inputs : gas.inputFiles with
  | [] => rfl
  | [only] =>
    have later : Conducts outside os gas.programName (gas.programDir.append os (Constants.llvmMcName os))
        (pure 0) [] := fun _ _ => rfl
    have single := loop false (some gas.gasOutputFile.native) (fun _ => rfl) [only] later state
    rw [thenGo_pure, bind_pure, List.append_nil] at single
    simp only [settled, Bool.not_false, ↓reduceIte, owning_bind, onFirst, LlvmMcRunner.setOutputFilePath_runner]
    exact single
  | first :: second :: others =>
    have merged := ldProcess_eq os gas ldName settled
    rw [inputs] at merged
    have later := start_conducts outside os gas.programName (Plan.ldProcess os
      (gas.programDir.append os ldName) gas.gasOutputFile.native (first :: second :: others)) (Ne.symm apart)
    rw [merged]
    exact loop true none (fun derived => by cases derived) (first :: second :: others) later state

end Assemble

/-! ## `parse_arguments` -/

/-- The runner belongs to the target's architecture. -/
theorem selectTarget_paired {os : Platform} {name : PlatformString} {target : Target}
    (selected : selectTarget os name = some target) :
    target.arch ≠ .any ∧ (target.arch = .arm32 ↔ target.runner = .arm32) := by
  unfold selectTarget at selected
  repeat' split at selected
  all_goals
    cases selected
    try simp

/-- Only the ARM32 runner, which maps them, is ever given `-mfpu` values. -/
theorem fpusMapped {os : Platform} {name : PlatformString} {target : Target}
    (selected : selectTarget os name = some target) (args : List PlatformString) :
    FpusMapped target.runner (items target.arch allOptions args) := by
  have armOnly : ∀ opt ∈ allOptions, opt.id = .mfpu → opt.arch = .arm32 := by decide
  obtain ⟨notAny, paired⟩ := selectTarget_paired selected
  intro item member read
  cases item with
  | positional text => contradiction
  | unrecognized arg => contradiction
  | option opt value =>
    obtain ⟨known, -⟩ := (items_wellRead target.arch allOptions args).2 _ member
    obtain ⟨listed, applies⟩ := known.mem
    have fpu : opt.id = .mfpu := by simpa [valueOf] using read
    rw [armOnly opt listed fpu] at applies
    rcases applies with none | arm
    · cases none
    · exact paired.mp arm.symm

/-- The value of `-o` is never empty, so an empty output file means that none was read. -/
theorem outputs_ne_nil (targetArch : TargetArchitecture) (args : List PlatformString) :
    ∀ value ∈ (items targetArch allOptions args).filterMap (valueOf .o), value ≠ [] := by
  have required : ∀ opt ∈ allOptions, opt.id = .o → opt.argument = .required := by decide
  intro value member
  obtain ⟨item, read, named⟩ := List.mem_filterMap.mp member
  cases item with
  | positional text => contradiction
  | unrecognized arg => contradiction
  | option opt text =>
    obtain ⟨known, full⟩ := (items_wellRead targetArch allOptions args).2 _ read
    obtain ⟨isOutput, rfl⟩ : opt.id = .o ∧ text = value := by simpa [valueOf] using named
    exact full (required opt known.mem.1 isOutput)

theorem output_ne_nil (targetArch : TargetArchitecture) (args : List PlatformString) :
    (Request.ofItems (items targetArch allOptions args)).output ≠ [] := by
  unfold Request.output
  cases last : (Request.ofItems (items targetArch allOptions args)).outputs.getLast? with
  | none => decide
  | some value => exact outputs_ne_nil targetArch args value (List.mem_of_getLast? last)

/-- What the wrapper and its runner have become once the items are read. -/
def readProgress (gas : Gas) (kind : LlvmMcArchitecture) (items : List Item)
    (attributes : List PlatformString) : Progress :=
  Progress.after { gas := gas, settings := Settings.initial kind } items attributes

/-- The final output is that of the request. -/
theorem readProgress_output (gas : Gas) (kind : LlvmMcArchitecture) (items : List Item)
    (attributes : List PlatformString) (noOutput : gas.gasOutputFile = ⟨[]⟩)
    (full : ∀ value ∈ items.filterMap (valueOf .o), value ≠ []) :
    (if (readProgress gas kind items attributes).gas.gasOutputFile.isEmpty then
        { (readProgress gas kind items attributes).gas with
          gasOutputFile := ⟨Constants.defaultOutputName⟩ }
      else (readProgress gas kind items attributes).gas) =
      { (readProgress gas kind items attributes).gas with
        gasOutputFile := ⟨(Request.ofItems items).output⟩ } := by
  cases last : (items.filterMap (valueOf .o)).getLast? with
  | none =>
    simp [readProgress, Progress.after, last, noOutput, FsPath.isEmpty, Request.output, Request.ofItems]
  | some value =>
    have nonempty := full value (List.mem_of_getLast? last)
    simp [readProgress, Progress.after, last, nonempty, FsPath.isEmpty, Request.output, Request.ofItems]

/-- The wrapper as `run` sets it up for a target. -/
def fresh (name : PlatformString) (programDir : FsPath) (target : Target) : Gas where
  programName := name
  programDir := programDir
  targetArch := target.arch

section Whole

variable {σ : Type} (outside : Outside σ) (os : Platform)

/-- The parser throws what the first bad `-mfpu` value throws, and otherwise ends in the progress made by
all items. -/
theorem parse_heard (gas : Gas) (target : Target) (args : List PlatformString)
    (mapped : FpusMapped target.runner (said target args)) (state : σ) :
    ∃ front, front <+: Plan.unrecognized (said target args) ∧
      match attributes os (Request.ofItems (said target args)).fpus with
      | .error e => ∃ failed, CommandLine.parse target.arch allOptions (heard os) (complains outside) args
          ({ gas, mcRunner := (Settings.initial target.runner).runner }, state) =
            .error e (failed, voice outside front state)
      | .ok attributes => CommandLine.parse target.arch allOptions (heard os) (complains outside) args
          ({ gas, mcRunner := (Settings.initial target.runner).runner }, state) =
            .ok (complete target args) ((readProgress gas target.runner (said target args) attributes).state,
              voice outside (Plan.complaints target args) state) := by
  obtain ⟨front, made, performed⟩ :=
    performItems_heard outside os 0 { gas, settings := Settings.initial target.runner } _ mapped state
  refine ⟨front, made, ?_⟩
  rw [Progress.foldlM_absorb, ← Request.fpus_ofItems] at performed
  rw [CommandLine.parse_eq_performItems]
  cases meaning : attributes os (Request.ofItems (said target args)).fpus with
  | error e =>
    rw [meaning] at performed
    obtain ⟨failed, threw⟩ := performed
    exact ⟨failed, bind_of_error threw _⟩
  | ok attributes =>
    rw [meaning] at performed
    refine (bind_of_ok performed _).trans ?_
    rw [complete, Plan.complaints]
    cases pending target.arch allOptions (args.drop 1) with
    | none => rw [Option.toList_none, List.map_nil, List.append_nil]; rfl
    | some opt =>
      rw [voice, voice, List.map_append, sayAll_append]
      rfl

/-- Once the items are read, what is asked for decides. -/
theorem finishArguments_eq (gas : Gas) (kind : LlvmMcArchitecture) (items : List Item)
    (attributes : List PlatformString) (noOutput : gas.gasOutputFile = ⟨[]⟩)
    (full : ∀ value ∈ items.filterMap (valueOf .o), value ≠ []) (parsed : Bool) (state : σ) :
    owning (readProgress gas kind items attributes).state (finishArguments outside parsed) state =
      (let request := Request.ofItems items
      let read := readProgress gas kind items attributes
      let said := sayAll outside (information gas.programName request) state
      if request.help || request.version || request.versionExit then
        .ok (⟨true, false⟩, read.gas, read.settings.runner) said
      else if !parsed then .ok (⟨true, true⟩, read.gas, read.settings.runner) said
      else .ok (⟨false, false⟩, { read.gas with gasOutputFile := ⟨request.output⟩ }, read.settings.runner) said) := by
  have output := readProgress_output gas kind items attributes noOutput full
  have help : (readProgress gas kind items attributes).state.showHelp = (Request.ofItems items).help :=
    Bool.false_or _
  have version : (readProgress gas kind items attributes).state.showVersion =
      ((Request.ofItems items).version || (Request.ofItems items).versionExit) := Bool.false_or _
  have terminate : (readProgress gas kind items attributes).state.terminate =
      ((Request.ofItems items).help || (Request.ofItems items).versionExit) := Bool.false_or _
  let read := (readProgress gas kind items attributes).state
  have got : (get : EStateM Exception (ParseState × σ) _) (read, state) = .ok (read, state) (read, state) := rfl
  refine (owning_of_ok got _).trans ?_
  simp only [read, help, version, terminate, information]
  cases (Request.ofItems items).help
  · cases (Request.ofItems items).version <;> cases (Request.ofItems items).versionExit <;> cases parsed
    all_goals try rfl
    simp only [Bool.or_false, Bool.not_true, Bool.false_eq_true, ↓reduceIte]
    rw [← output]
    rfl
  · rfl

/-- `parse_arguments` throws the complaint about the first bad `-mfpu` value, and otherwise reads the request
and says what there is to say. -/
theorem parseArgumentsWith_eq (name : PlatformString) (programDir : FsPath) (target : Target)
    (args : List PlatformString) (mapped : FpusMapped target.runner (said target args)) (state : σ) :
    ∃ front, front <+: Plan.unrecognized (said target args) ∧
      parseArgumentsWith outside os (fresh name programDir target) (Settings.initial target.runner).runner args
          state =
        match attributes os (Request.ofItems (said target args)).fpus with
        | .error e => .error e (voice outside front state)
        | .ok attributes =>
            let request := Request.ofItems (said target args)
            let read := readProgress (fresh name programDir target) target.runner (said target args) attributes
            let opened := sayAll outside (opening name target args) state
            if request.help || request.version || request.versionExit then
              .ok (⟨true, false⟩, read.gas, read.settings.runner) opened
            else if !complete target args then .ok (⟨true, true⟩, read.gas, read.settings.runner) opened
            else .ok (⟨false, false⟩, { read.gas with gasOutputFile := ⟨request.output⟩ },
              read.settings.runner) opened := by
  obtain ⟨front, made, parsed⟩ := parse_heard outside os (fresh name programDir target) target args mapped state
  refine ⟨front, made, ?_⟩
  have full := outputs_ne_nil target.arch (args.drop 1)
  change ∀ value ∈ (said target args).filterMap (valueOf .o), value ≠ [] at full
  cases meaning : attributes os (Request.ofItems (said target args)).fpus with
  | error e =>
    simp only [meaning] at parsed
    obtain ⟨failed, threw⟩ := parsed
    exact owning_of_error threw _
  | ok attributes =>
    simp only [meaning] at parsed
    refine (owning_of_ok parsed _).trans ?_
    rw [opening, sayAll_append]
    exact finishArguments_eq outside (fresh name programDir target) target.runner (said target args) attributes
      rfl full (complete target args) (voice outside (Plan.complaints target args) state)

/-- Without a target there is only an objection. -/
theorem runWith_unselected (env : Environment) {args : List PlatformString} {programDir : FsPath}
    (located : determineProgramDir os env args = .ok programDir)
    (unselected : selectTarget os (requestedName args) = none) (state : σ) :
    runWith outside os env args state =
      .ok 1 (outside.say (.usage (requestedName args) (nameMessage os (requestedName args))) state) := by
  rw [runWith, located, liftExcept_ok_bind]
  simp only [unselected]
  rfl

/-- With a target, the run says what there is to say, and then conducts the assembly script. -/
theorem runWith_selected (env : Environment) {args : List PlatformString} {programDir : FsPath} {target : Target}
    (located : determineProgramDir os env args = .ok programDir)
    (selected : selectTarget os (requestedName args) = some target) (state : σ) :
    ∃ front, front <+: Plan.unrecognized (said target args) ∧
      runWith outside os env args state =
        match attributes os (Request.ofItems (said target args)).fpus with
        | .error e => .error e (voice outside front state)
        | .ok attributes =>
            let request := Request.ofItems (said target args)
            let opened := sayAll outside (opening (requestedName args) target args) state
            if request.help || request.version || request.versionExit then .ok 0 opened
            else if !complete target args then .ok Constants.wrapperGeneralErrorCode opened
            else conduct outside os (requestedName args) (programDir.append os (Constants.llvmMcName os))
              (assembly os env programDir target.ldName (request.settings target.runner attributes)
                request.output request.inputs) opened := by
  obtain ⟨front, made, parsed⟩ := parseArgumentsWith_eq outside os (requestedName args) programDir target args
    (fpusMapped selected (args.drop 1)) state
  refine ⟨front, made, ?_⟩
  rw [runWith, located, liftExcept_ok_bind]
  simp only [selected, LlvmMcRunner.create_eq, liftExcept_ok_bind]
  have named : (Request.ofItems (said target args)).output ≠ [] := output_ne_nil target.arch (args.drop 1)
  generalize opening (requestedName args) target args = opening at parsed ⊢
  generalize said target args = read at named parsed ⊢
  generalize complete target args = complete at parsed ⊢
  cases meaning : attributes os (Request.ofItems read).fpus with
  | error e =>
    rw [meaning] at parsed
    exact bind_of_error parsed _
  | ok attributes =>
    rw [meaning] at parsed
    dsimp only at parsed ⊢
    generalize ((Request.ofItems read).help || (Request.ofItems read).version ||
      (Request.ofItems read).versionExit) = asked at parsed ⊢
    cases asked with
    | true => exact bind_of_ok parsed _
    | false =>
      cases complete with
      | false => exact bind_of_ok parsed _
      | true =>
        exact (bind_of_ok parsed _).trans (assemble_eq outside os env target.ldName _
          (readProgress (fresh (requestedName args) programDir target) target.runner read attributes).settings
          ⟨rfl, rfl⟩ (by simpa [FsPath.isEmpty] using named) (llvmMc_ne_ld selected programDir) _)

end Whole

/-! ## Without the messages -/

theorem sayAll_silent (env : Environment) (messages : List Message) (started : List Process) :
    sayAll (.silent env) messages started = started := by
  induction messages with
  | nil => rfl
  | cons message rest ih => exact ih

theorem conduct_silent (os : Platform) (env : Environment) (programName : PlatformString) (llvmMc : FsPath)
    (actions : List Action) (started : List Process) :
    conduct (.silent env) os programName llvmMc actions started = Script.run env.exitCode actions started := by
  have starts : startTool (.silent env) (llvmMc.lexicallyNormal os) =
      fun process started => (env.exitCode started process, started ++ [process]) := by
    funext process started
    rw [startTool]
    split <;> rfl
  have stops : stopTool (.silent env) programName llvmMc = fun _ started => started := by
    funext code started
    rw [stopTool]
    split <;> rfl
  rw [conduct, starts, stops, Script.run]

/-- `parse_arguments` throws the complaint about the first bad `-mfpu` value, and otherwise reads
the request. -/
theorem parseArguments_eq (os : Platform) (name : PlatformString) (programDir : FsPath) (target : Target)
    (args : List PlatformString) (mapped : FpusMapped target.runner (said target args)) :
    parseArguments os (fresh name programDir target) (Settings.initial target.runner).runner args =
      match attributes os (Request.ofItems (said target args)).fpus with
      | .error e => .error e
      | .ok attributes =>
          let request := Request.ofItems (said target args)
          let read := readProgress (fresh name programDir target) target.runner (said target args) attributes
          if request.help || request.version || request.versionExit then
            .ok (⟨true, false⟩, read.gas, read.settings.runner)
          else if !complete target args then .ok (⟨true, true⟩, read.gas, read.settings.runner)
          else .ok (⟨false, false⟩, { read.gas with gasOutputFile := ⟨request.output⟩ },
            read.settings.runner) := by
  obtain ⟨front, -, parsed⟩ := parseArgumentsWith_eq .mute os name programDir target args mapped ()
  rw [parseArguments, parsed]
  cases attributes os (Request.ofItems (said target args)).fpus with
  | error e => rfl
  | ok attributes =>
    dsimp only
    cases (Request.ofItems (said target args)).help || (Request.ofItems (said target args)).version ||
        (Request.ofItems (said target args)).versionExit with
    | true => rfl
    | false => cases complete target args <;> rfl

/-- `Gas::run` carries out the plan of its command line, in every environment. -/
theorem run_eq (os : Platform) (env : Environment) (args : List PlatformString)
    (started : List Process) :
    Gas.run os env args started = Script.run env.exitCode (Plan.ofArguments os env args) started := by
  rw [Gas.run, Plan.ofArguments]
  cases located : determineProgramDir os env args with
  | error e =>
    rw [runWith, located]
    rfl
  | ok programDir =>
    cases selected : selectTarget os (requestedName args) with
    | none =>
      rw [runWith_unselected (.silent env) os env located selected]
      rfl
    | some target =>
      obtain ⟨front, -, ran⟩ := runWith_selected (.silent env) os env located selected started
      rw [ran]
      simp only [voice, sayAll_silent, conduct_silent, Plan.ofItems]
      cases attributes os (Request.ofItems (said target args)).fpus with
      | error e => rfl
      | ok attributes =>
        dsimp only
        split
        · rfl
        · split <;> rfl

end GasAdapter.Gas
