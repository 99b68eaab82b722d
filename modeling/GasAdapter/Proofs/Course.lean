import GasAdapter.Proofs.Accepted

/-! # The courses a run can take

Once a target is selected, a run ends before any work in one of four ways, or it is accepted.
Which of them happens depends on the command line and the program directory alone; what an
accepted run does first depends on its first input and on `llvm-mc` being there.
-/

namespace GasAdapter

open Reading

/-- The table has attributes for an `-mfpu` value. -/
def Settings.mapsFpu (value : PlatformString) : Bool :=
  (LlvmMcRunner.fpuTypeMap.lookup value).any fun attributes => !attributes.isEmpty

/-- Every `-mfpu` value read has attributes. -/
def Plan.FpusKnown (target : Gas.Target) (args : List PlatformString) : Prop :=
  ∀ value ∈ valuesNamed (pstr "mfpu") (said target args), Settings.mapsFpu value = true

instance (target : Gas.Target) (args : List PlatformString) : Decidable (Plan.FpusKnown target args) :=
  inferInstanceAs (Decidable (∀ value ∈ valuesNamed (pstr "mfpu") (Plan.said target args),
    Settings.mapsFpu value = true))

/-- A help or version option was read. -/
def Plan.asksInformation (target : Gas.Target) (args : List PlatformString) : Bool :=
  readsNamed [pstr "h", pstr "help"] (said target args) || readsNamed [pstr "V"] (said target args) ||
    readsNamed [pstr "version"] (said target args)

theorem Settings.fpuAttributes_ok (os : Platform) (value : PlatformString) :
    (∃ attributes, fpuAttributes os value = .ok attributes) ↔ mapsFpu value = true := by
  cases value with
  | nil => simp [fpuAttributes, mapsFpu, LlvmMcRunner.fpuTypeMap_lookup_nil]
  | cons c value =>
    simp only [fpuAttributes, mapsFpu, List.isEmpty_cons, Bool.false_eq_true, ↓reduceIte]
    rcases LlvmMcRunner.fpuTypeMap.lookup (c :: value) with _ | _ | ⟨first, rest⟩ <;> simp

theorem Request.attributes_ok (os : Platform) (values : List PlatformString) :
    (∃ all, attributes os values = .ok all) ↔ ∀ value ∈ values, Settings.mapsFpu value = true := by
  induction values with
  | nil => simp [attributes]
  | cons value rest ih =>
    rw [List.forall_mem_cons, ← ih, ← Settings.fpuAttributes_ok os, attributes]
    cases Settings.fpuAttributes os value with
    | error e => simp [bind, Except.bind]
    | ok first => cases attributes os rest <;> simp [bind, Except.bind]

namespace Gas

/-- The ways a run with a selected target can go. -/
inductive Course (os : Platform) (env : Environment) (args : List PlatformString)
    (target : Target) : Prop where
  | unlocated (e : Exception) (missing : determineProgramDir os env args = .error e)
      (plan : Plan.ofArguments os env args = [.fail e])
  | unmapped (e : Exception) (bad : ¬Plan.FpusKnown target args)
      (plan : Plan.ofArguments os env args = [.fail e])
  | informs (programDir : FsPath) (located : determineProgramDir os env args = .ok programDir)
      (known : Plan.FpusKnown target args) (asks : Plan.asksInformation target args = true)
      (plan : Plan.ofArguments os env args = [.stop 0])
  | incomplete (programDir : FsPath) (located : determineProgramDir os env args = .ok programDir)
      (known : Plan.FpusKnown target args) (asks : Plan.asksInformation target args = false)
      (waits : Plan.complete target args = false)
      (plan : Plan.ofArguments os env args = [.stop Constants.wrapperGeneralErrorCode])
  | proceeds (accepted : AcceptedRun os env args) (same : accepted.target = target)

theorem run_of_fail {os : Platform} {env : Environment} {args : List PlatformString} {e : Exception}
    (plan : Plan.ofArguments os env args = [.fail e]) (started : List Process) :
    run os env args started = .error e started := by
  rw [run_eq, plan, Script.run_fail]

theorem run_of_stop {os : Platform} {env : Environment} {args : List PlatformString} {code : Int}
    (plan : Plan.ofArguments os env args = [.stop code]) (started : List Process) :
    run os env args started = .ok code started := by
  rw [run_eq, plan, Script.run_stop]

section

variable {os : Platform} {target : Target} {args : List PlatformString}

/-- Whether a request is for information, in the words of the command line. -/
theorem request_asks (target : Target) (args : List PlatformString) :
    ((Request.ofItems (Plan.said target args)).help || (Request.ofItems (Plan.said target args)).version ||
      (Request.ofItems (Plan.said target args)).versionExit) = Plan.asksInformation target args := by
  rw [ofItems_said]
  rfl

/-- The `-mfpu` values have attributes when each of them is known. -/
theorem attributes_ok_iff :
    (∃ attributes, Request.attributes os (Request.ofItems (Plan.said target args)).fpus = .ok attributes) ↔
      Plan.FpusKnown target args := by
  rw [ofItems_said]
  exact Request.attributes_ok os _

theorem not_fpusKnown {e : Exception}
    (bad : Request.attributes os (Request.ofItems (Plan.said target args)).fpus = .error e) :
    ¬Plan.FpusKnown target args := by
  intro known
  obtain ⟨attributes, mapped⟩ := attributes_ok_iff.mpr known
  rw [bad] at mapped
  cases mapped

end

theorem course {os : Platform} {env : Environment} {args : List PlatformString} {target : Target}
    (selected : selectTarget os (requestedName args) = some target) : Course os env args target := by
  cases located : determineProgramDir os env args with
  | error e => exact .unlocated e located (by rw [Plan.ofArguments, located])
  | ok programDir =>
    have plan := Plan.ofArguments_selected located selected
    cases mapped : Request.attributes os (Request.ofItems (Plan.said target args)).fpus with
    | error e =>
      refine .unmapped e (not_fpusKnown mapped) ?_
      rw [plan, Plan.ofItems]
      simp only [mapped]
    | ok attributes =>
      have known : Plan.FpusKnown target args := attributes_ok_iff.mp ⟨attributes, mapped⟩
      cases asks : Plan.asksInformation target args with
      | true =>
        refine .informs programDir located known asks ?_
        rw [plan, Plan.ofItems]
        simp only [mapped, request_asks, asks, ↓reduceIte]
      | false =>
        cases complete : Plan.complete target args with
        | false =>
          refine .incomplete programDir located known asks complete ?_
          rw [plan, Plan.ofItems]
          simp only [mapped, request_asks, asks, complete]
          rfl
        | true =>
          exact .proceeds (.ofRequest located selected mapped (by rw [request_asks, asks]) complete) rfl

end Gas

namespace Plan

variable {os : Platform} {env : Environment} {programDir : FsPath} {ldName : PlatformString}
  {settings : Settings} {output : PlatformString} {inputs : List FsPath}

theorem inputAction_stop {llvmMc input : FsPath} {code : Int}
    (same : inputAction os env llvmMc settings output input = .stop code) :
    code = Constants.wrapperExecFailedErrorCode := by
  unfold inputAction at same
  split at same
  · cases same
  · split at same
    · cases same
    · exact (ScriptAction.stop.inj same).symm
    · cases same

theorem inputAction_fail {llvmMc input : FsPath} {e : Exception}
    (same : inputAction os env llvmMc settings output input = .fail e) :
    Settings.inputComplaint os input = some e ∨ env.fileExists llvmMc = .error e := by
  unfold inputAction at same
  split at same
  · next complaint =>
    obtain rfl := ScriptAction.fail.inj same
    exact .inl complaint
  · split at same
    · next failed =>
      obtain rfl := ScriptAction.fail.inj same
      exact .inr failed
    · cases same
    · cases same

/-- What a script for inputs is made of. -/
theorem mem_assembly {action : Action}
    (member : action ∈ assembly os env programDir ldName settings output inputs) :
    action = .stop 1 ∨
      (∃ input ∈ inputs, ∃ object,
        inputAction os env (programDir.append os (Constants.llvmMcName os)) settings object input = action) ∨
      ∃ process, action = .start process := by
  match inputs with
  | [] => exact .inl (List.mem_singleton.mp member)
  | [input] => exact .inr (.inl ⟨input, List.mem_cons_self .., output, (List.mem_singleton.mp member).symm⟩)
  | first :: second :: others =>
    rcases List.mem_append.mp member with input | ld
    · obtain ⟨input, listed, same⟩ := List.mem_map.mp input
      exact .inr (.inl ⟨input, listed, _, same⟩)
    · exact .inr (.inr ⟨_, List.mem_singleton.mp ld⟩)

/-- A script for inputs stops by itself when there are none, or no `llvm-mc` for them. -/
theorem stop_assembly {code : Int}
    (member : .stop code ∈ assembly os env programDir ldName settings output inputs) :
    code = 1 ∨ code = Constants.wrapperExecFailedErrorCode := by
  rcases mem_assembly member with stop | ⟨input, -, object, same⟩ | ⟨process, other⟩
  · exact .inl (ScriptAction.stop.inj stop)
  · exact .inr (inputAction_stop same)
  · cases other

/-- A script for inputs never stops with 0 by itself. -/
theorem stop_mem_assembly {code : Int}
    (member : .stop code ∈ assembly os env programDir ldName settings output inputs) : code ≠ 0 := by
  rcases stop_assembly member with rfl | rfl <;> decide

/-- A script for inputs throws when one of them is refused, or when it cannot be said whether `llvm-mc` is
there. -/
theorem fail_assembly {e : Exception}
    (member : .fail e ∈ assembly os env programDir ldName settings output inputs) :
    (∃ input ∈ inputs, Settings.inputComplaint os input = some e) ∨
      env.fileExists (programDir.append os (Constants.llvmMcName os)) = .error e := by
  rcases mem_assembly member with stop | ⟨input, listed, object, same⟩ | ⟨process, other⟩
  · cases stop
  · exact (inputAction_fail same).imp_left fun complaint => ⟨input, listed, complaint⟩
  · cases other

/-- Every input has its action in the script. -/
theorem inputAction_mem_assembly {input : FsPath} (member : input ∈ inputs) :
    ∃ target, inputAction os env (programDir.append os (Constants.llvmMcName os)) settings target input ∈
      assembly os env programDir ldName settings output inputs := by
  match inputs with
  | [only] =>
    obtain rfl := List.mem_singleton.mp member
    exact ⟨output, List.mem_cons_self ..⟩
  | first :: second :: others =>
    exact ⟨_, List.mem_append_left _ (List.mem_map.mpr ⟨input, member, rfl⟩)⟩

/-- A process is only started for a named input, when `llvm-mc` is there. -/
theorem inputAction_start {llvmMc input : FsPath} {process : Process}
    (same : inputAction os env llvmMc settings output input = .start process) :
    Settings.inputComplaint os input = none ∧ env.fileExists llvmMc = .ok true := by
  unfold inputAction at same
  split at same
  · cases same
  · next fine =>
    split at same
    · cases same
    · cases same
    · next present => exact ⟨fine, present⟩

end Plan

namespace AcceptedRun

variable {os : Platform} {env : Environment} {args : List PlatformString}

theorem known (accepted : AcceptedRun os env args) : Plan.FpusKnown accepted.target args := by
  obtain ⟨attributes, agrees⟩ := accepted.agrees
  exact Gas.attributes_ok_iff.mp ⟨attributes, agrees.mapped⟩

theorem asksInformation (accepted : AcceptedRun os env args) :
    Plan.asksInformation accepted.target args = false := by
  obtain ⟨attributes, agrees⟩ := accepted.agrees
  have noHelp := agrees.noHelp
  have noVersion := agrees.noVersion
  have noVersionExit := agrees.noVersionExit
  rw [request, items] at noHelp noVersion noVersionExit
  rw [← Gas.request_asks, noHelp, noVersion, noVersionExit]
  rfl

theorem complete (accepted : AcceptedRun os env args) : Plan.complete accepted.target args = true := by
  obtain ⟨attributes, agrees⟩ := accepted.agrees
  exact agrees.complete

/-- Without inputs an accepted run only explains itself. -/
theorem run_noInputs (accepted : AcceptedRun os env args) (none : Plan.inputs accepted.target args = [])
    (started : List Process) : Gas.run os env args started = .ok 1 started := by
  obtain ⟨attributes, agrees⟩ := accepted.agrees
  have inputs : accepted.request.inputs = [] := none
  rw [accepted.run_eq agrees, inputs]
  rfl

/-- With inputs, what an accepted run does first is up to the first of them. -/
theorem run_first (accepted : AcceptedRun os env args) {first : FsPath} {rest : List FsPath}
    (inputs : Plan.inputs accepted.target args = first :: rest) :
    ∃ settings output later, ∀ started, Gas.run os env args started = Script.run env.exitCode
      (Plan.inputAction os env accepted.llvmMc settings output first :: later) started := by
  obtain ⟨attributes, agrees⟩ := accepted.agrees
  have same : accepted.request.inputs = first :: rest := inputs
  cases rest with
  | nil => exact ⟨_, _, _, fun started => by rw [accepted.run_eq agrees, same]; rfl⟩
  | cons second rest => exact ⟨_, _, _, fun started => by rw [accepted.run_eq agrees, same]; rfl⟩

end AcceptedRun

end GasAdapter
