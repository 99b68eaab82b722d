import GasAdapter.Proofs.Children
import GasAdapter.Proofs.Reporting
import GasAdapter.Soundness.StartedProcesses

/-! # What a run writes

Nothing that is written changes what is done. What a run puts into `std::cout` traces the processes it starts,
each in front of its start, unless the run is for the version. A run that returns 0 puts the complaints about
options into `std::cerr` and nothing else, and so does a run that throws; a run that returns a failure puts
nothing there in one case, when `ld` fails on Windows.
-/

namespace GasAdapter.Reporting

open Narration Reading

/-! ## The courses of a run -/

section Courses

variable (os : Platform) (env : Environment) (versions : Versions) (fates : List Process → Process → Fate os)
  (args : List PlatformString)

/-- The ways a run can read. -/
inductive Course : Prop where
  | unlocated (e : Exception) (missing : Gas.determineProgramDir os env args = .error e)
      (plan : Plan.ofArguments os env args = [.fail e]) (reads : run os env versions fates args [] = .error e [])
  | objects (plan : Plan.ofArguments os env args = [.stop 1])
      (reads : run os env versions fates args [] = .ok 1 (messageEvents os versions
        (.usage (Gas.requestedName args) (Gas.nameMessage os (Gas.requestedName args)))))
  | unmapped (target : Gas.Target) (selected : Gas.selectTarget os (Gas.requestedName args) = some target)
      (bad : ¬Plan.FpusKnown target args) (e : Exception) (front : List PlatformString)
      (made : front <+: complaints os target args)
      (plan : Plan.ofArguments os env args = [.fail e])
      (reads : run os env versions fates args [] = .error e (front.map .err))
  | informs (target : Gas.Target) (selected : Gas.selectTarget os (Gas.requestedName args) = some target)
      (asks : Plan.asksInformation target args = true) (plan : Plan.ofArguments os env args = [.stop 0])
      (reads : run os env versions fates args [] = .ok 0 ((complaints os target args).map .err ++
        information os versions (Gas.requestedName args) (Request.ofItems (Plan.said target args))))
  | incomplete (target : Gas.Target) (waits : Plan.complete target args = false)
      (plan : Plan.ofArguments os env args = [.stop Constants.wrapperGeneralErrorCode])
      (reads : run os env versions fates args [] =
        .ok Constants.wrapperGeneralErrorCode ((complaints os target args).map .err))
  | works (accepted : AcceptedRun os env args)
      (reads : run os env versions fates args [] =
        Script.told (Script.run (exitCode os fates) (Plan.ofArguments os env args) [])
          ((complaints os accepted.target args).map .err ++
            Script.narrate (exitCode os fates) (tells os fates (accepted.llvmMc.lexicallyNormal os))
              (tellStop os versions (Gas.requestedName args) accepted.llvmMc) (Plan.ofArguments os env args) []))

theorem course : Course os env versions fates args := by
  cases located : Gas.determineProgramDir os env args with
  | error e =>
    refine .unlocated e located (by rw [Plan.ofArguments, located]) ?_
    rw [run, Gas.runWith, located]
    rfl
  | ok programDir =>
    cases selected : Gas.selectTarget os (Gas.requestedName args) with
    | none =>
      refine .objects ?_ (run_unselected os env versions fates located selected)
      rw [Plan.ofArguments, located]
      simp only [selected]
    | some target =>
      obtain ⟨front, made, reads⟩ := run_selected os env versions fates located selected
      have plan := Plan.ofArguments_selected located selected
      cases mapped : Request.attributes os (Request.ofItems (Plan.said target args)).fpus with
      | error e =>
        rw [mapped] at reads
        have complained : front.map (complaintText os) <+: complaints os target args :=
          (made.trans (List.prefix_append ..)).map (complaintText os)
        refine .unmapped target selected (Gas.not_fpusKnown mapped) e _ complained ?_ reads
        rw [plan, Plan.ofItems]
        simp only [mapped]
      | ok attributes =>
        rw [mapped] at reads
        have asked := Gas.request_asks target args
        have silent (quiet : Plan.asksInformation target args = false) :
            information os versions (Gas.requestedName args) (Request.ofItems (Plan.said target args)) = [] := by
          rw [← asked, Bool.or_assoc, Bool.or_eq_false_iff] at quiet
          rw [information, Plan.information, quiet.1, quiet.2]
          rfl
        dsimp only at reads
        rw [asked] at reads
        rw [Plan.ofItems] at plan
        simp only [mapped, asked] at plan
        cases asks : Plan.asksInformation target args with
        | true =>
          rw [asks] at reads plan
          exact .informs target selected asks plan reads
        | false =>
          rw [asks, silent asks, List.append_nil] at reads
          rw [asks] at plan
          cases complete : Plan.complete target args with
          | false =>
            rw [complete] at reads plan
            exact .incomplete target complete plan reads
          | true =>
            rw [complete] at reads plan
            refine .works (.ofRequest located selected mapped (asked.trans asks) complete) ?_
            rw [plan]
            exact reads

end Courses

/-! ## Events by kind -/

/-- The outcome of a run, with the processes it has started. -/
def outcome : EStateM.Result Exception (List Event) Int → EStateM.Result Exception (List Process) Int
  | .ok code events => .ok code (started events)
  | .error e events => .error e (started events)

/-- Everything a run has done, however it has ended. -/
def events : EStateM.Result Exception (List Event) Int → List Event
  | .ok _ events => events
  | .error _ events => events

/-- What is not an error message. -/
def shown : Event → Option Event
  | .err _ => none
  | event => some event

def errorText : Event → Option PlatformString
  | .err text => some text
  | _ => none

theorem filterMap_err {β : Type} {hear : Event → Option β} (deaf : ∀ text, hear (.err text) = none)
    (messages : List PlatformString) : (messages.map Event.err).filterMap hear = [] := by
  rw [List.filterMap_map]
  exact List.filterMap_eq_nil_iff.mpr fun text _ => deaf text

theorem filterMap_errorText (messages : List PlatformString) :
    (messages.map Event.err).filterMap errorText = messages := by
  rw [List.filterMap_map]
  exact List.filterMap_some

theorem outcome_told {result : EStateM.Result Exception (List Process) Int} {events : List Event}
    (same : started events = Script.startedAfter result) : outcome (Script.told result events) = result := by
  cases result <;> (rw [Script.told, outcome, same]; rfl)

section Narration

variable (os : Platform) (versions : Versions) (fates : List Process → Process → Fate os) (llvmMc : FsPath)
  (name : PlatformString)

theorem filterMap_usage {β : Type} {hear : Event → Option β} (deaf : ∀ text, hear (.err text) = none)
    (message : PlatformString) : (messageEvents os versions (.usage name message)).filterMap hear = [] := by
  rw [messageEvents]
  split
  · exact filterMap_err deaf [_]
  · exact filterMap_err deaf [_, _]

theorem filterMap_tellStop {β : Type} {hear : Event → Option β} (deaf : ∀ text, hear (.err text) = none)
    (code : Int) : (tellStop os versions name llvmMc code).filterMap hear = [] := by
  unfold tellStop
  split
  · exact filterMap_err deaf [_, _]
  · exact filterMap_usage os versions name deaf Gas.noInputsMessage

theorem errors_announces (before : List Process) (process : Process) :
    (announces os fates before process).filterMap errorText = (fates before process).messages :=
  filterMap_errorText (fates before process).messages

/-- The usage text is always written. -/
theorem errors_usage (message : PlatformString) :
    (messageEvents os versions (.usage name message)).filterMap errorText ≠ [] := by
  rw [messageEvents, List.filterMap_append]
  exact List.append_ne_nil_of_right_ne_nil _ (List.cons_ne_nil _ _)

theorem errors_tellStop (code : Int) : (tellStop os versions name llvmMc code).filterMap errorText ≠ [] := by
  unfold tellStop
  split <;> exact List.cons_ne_nil _ _

end Narration

/-! ## Whole runs -/

end GasAdapter.Reporting

namespace GasAdapter

/-- The same command line with other children. -/
def AcceptedRun.withChildren {os : Platform} {env : Environment} {args : List PlatformString}
    (accepted : AcceptedRun os env args) (exitCode : List Process → Process → Int) :
    AcceptedRun os (env.withChildren exitCode) args := { accepted with }

namespace Reporting

open Narration Reading

section Runs

variable (os : Platform) (env : Environment) (versions : Versions) (fates : List Process → Process → Fate os)
  (args : List PlatformString)

/-- With children of given fates, the silent run is the plan's script. -/
theorem run_silent_eq : Gas.run os (env.withChildren (exitCode os fates)) args [] =
    Script.run (exitCode os fates) (Plan.ofArguments os env args) [] := Gas.run_eq ..

/-- Writing changes nothing: a run that reports does what the silent one does. -/
theorem outcome_run :
    outcome (run os env versions fates args []) = Gas.run os (env.withChildren (exitCode os fates)) args [] := by
  have silent := run_silent_eq os env fates args
  rw [silent]
  cases course os env versions fates args with
  | unlocated e missing plan reads => rw [reads, plan, Script.run_fail]; rfl
  | objects plan reads => rw [reads, plan, Script.run_stop, outcome, started_messageEvents]
  | unmapped target selected bad e front made plan reads =>
    rw [reads, plan, Script.run_fail, outcome, started_map_err]
  | informs target selected asks plan reads =>
    rw [reads, plan, Script.run_stop, outcome, started_append, started_map_err, started_information]
    rfl
  | incomplete target waits plan reads =>
    rw [reads, plan, Script.run_stop, outcome, started_map_err]
  | works accepted reads =>
    obtain ⟨commands, final, told⟩ := Script.filterMap_narrate (exitCode os fates)
      (tells os fates (accepted.llvmMc.lexicallyNormal os))
      (tellStop os versions (Gas.requestedName args) accepted.llvmMc) Event.process? (fun process => [process])
      (started_tells os fates _) (filterMap_tellStop os versions _ _ fun _ => rfl)
      (Plan.ofArguments os env args) []
    rw [reads]
    apply outcome_told
    rw [started_append, started_map_err, List.nil_append, final, List.nil_append]
    exact told.trans (List.flatMap_singleton' commands)

/-- What is written about a process that returns 0: nothing. -/
theorem errors_tells_of_zero (llvmMc : FsPath) (before : List Process) (process : Process)
    (fine : exitCode os fates before process = 0) :
    (tells os fates llvmMc before process).filterMap errorText = [] := by
  rw [tells, if_neg fun failed => failed.2 fine, List.append_nil, errors_announces]
  cases os with
  | posix => exact (ProcessPosix.Fate.messages_eq_nil (fates before process)).mpr fine
  | windows => rfl

/-- Nothing is written about a failed process only on Windows, and not about `llvm-mc`. -/
theorem of_errors_tells {llvmMc : FsPath} {before : List Process} {process : Process}
    (failed : exitCode os fates before process ≠ 0)
    (untold : (tells os fates llvmMc before process).filterMap errorText = []) :
    os = .windows ∧ process.executablePath ≠ llvmMc := by
  rw [tells, List.filterMap_append, errors_announces, List.append_eq_nil_iff] at untold
  constructor
  · cases os with
    | posix => exact (failed ((ProcessPosix.Fate.messages_eq_nil (fates before process)).mp untold.1)).elim
    | windows => rfl
  · intro tool
    rw [if_pos ⟨tool, failed⟩] at untold
    cases untold.2

/-- What an accepted run writes about its processes as long as they succeed: nothing. -/
theorem errors_unfailed (accepted : AcceptedRun os env args)
    (unfailed : ∀ code final,
      Script.run (exitCode os fates) (Plan.ofArguments os env args) [] = .ok code final → code = 0) :
    (Script.narrate (exitCode os fates) (tells os fates (accepted.llvmMc.lexicallyNormal os))
      (tellStop os versions (Gas.requestedName args) accepted.llvmMc) (Plan.ofArguments os env args)
      []).filterMap errorText = [] := by
  obtain ⟨attributes, agrees⟩ := accepted.agrees
  have goesOn : .stop 0 ∉ Plan.ofArguments os env args := by
    rw [accepted.plan_eq agrees]
    exact fun member => Plan.stop_mem_assembly member rfl
  exact Script.filterMap_narrate_of_unfailed _ _ _ errorText (errors_tells_of_zero os fates _) goesOn unfailed

/-- An accepted run that fails without any message ends with `ld`, on Windows. -/
theorem ends_with_linker (accepted : AcceptedRun os env args) {code : Int} {final : List Process}
    (result : Script.run (exitCode os fates) (Plan.ofArguments os env args) [] = .ok code final)
    (failed : code ≠ 0)
    (untold : (Script.narrate (exitCode os fates) (tells os fates (accepted.llvmMc.lexicallyNormal os))
      (tellStop os versions (Gas.requestedName args) accepted.llvmMc) (Plan.ofArguments os env args)
      []).filterMap errorText = []) :
    os = .windows ∧ ∃ front, final = front ++ [accepted.linker] ∧
      exitCode os fates front accepted.linker = code := by
  obtain ⟨front, last, shape, -, ends, silentEnd⟩ := Script.ends_untold (exitCode os fates) (tells os fates _) _
    errorText (fun code _ => errors_tellStop os versions _ _ code) failed result untold
  obtain ⟨windows, other⟩ := of_errors_tells os fates (by rw [ends]; exact failed) silentEnd
  have member : last ∈ Gas.started os (env.withChildren (exitCode os fates)) args := by
    have silent := run_silent_eq os env fates args
    rw [Gas.started, silent, result, Script.startedAfter, shape]
    exact List.mem_append_right _ (List.mem_singleton_self _)
  obtain ⟨attributes, agrees⟩ := (accepted.withChildren (exitCode os fates)).agrees
  obtain rfl : last = accepted.linker := by
    rcases (accepted.withChildren (exitCode os fates)).mem_started agrees member with
      ⟨input, -, output, -, rfl⟩ | linked
    · exact (other rfl).elim
    · exact linked
  exact ⟨windows, front, shape, ends⟩

/-- An accepted run throws on an input without a file name, or when it cannot be said whether `llvm-mc` is
there. -/
theorem throws_works (accepted : AcceptedRun os env args) {e : Exception} {final : List Process}
    (result : Script.run (exitCode os fates) (Plan.ofArguments os env args) [] = .error e final) :
    (∃ input ∈ Plan.inputs accepted.target args, input.hasFilename os = false) ∨
      ∃ programDir, Gas.determineProgramDir os env args = .ok programDir ∧
        env.fileExists (programDir.append os (Constants.llvmMcName os)) = .error e := by
  obtain ⟨attributes, agrees⟩ := accepted.agrees
  obtain ⟨commands, rest, actions, -, -⟩ := Script.succeed_of_run_eq_error (exitCode os fates) result
  rw [accepted.plan_eq agrees] at actions
  have member : (.fail e : Plan.Action) ∈ commands.map .start ++ .fail e :: rest :=
    List.mem_append_right _ (List.mem_cons_self ..)
  rw [← actions] at member
  rcases Plan.fail_assembly member with ⟨input, listed, complaint⟩ | failed
  · refine .inl ⟨input, listed, ?_⟩
    by_contra named
    rw [accepted.inputComplaint_eq_none listed (Bool.of_not_eq_false named)] at complaint
    cases complaint
  · exact .inr ⟨accepted.programDir, accepted.located, failed⟩

/-- The error messages of a run that returns 0 are the complaints about its options and, when asked for, the
usage text. A run that returns another code without any message is one on Windows whose last process, `ld`, has
failed. A run that throws, for one of four reasons, says nothing of the exception: it has made complaints about
its options, if any. -/
theorem run_errors :
    (∀ code written, run os env versions fates args [] = .ok code written →
      (code = 0 → ∃ target, Gas.selectTarget os (Gas.requestedName args) = some target ∧
        written.filterMap errorText = complaints os target args ++
          if readsNamed [pstr "h", pstr "help"] (Plan.said target args) = true then
            [usageText os versions (Gas.requestedName args)]
          else []) ∧
      (code ≠ 0 → written.filterMap errorText = [] → os = .windows ∧
        ∃ (accepted : AcceptedRun os env args) (front : List Process),
          started written = front ++ [accepted.linker] ∧ exitCode os fates front accepted.linker = code)) ∧
    ∀ e written, run os env versions fates args [] = .error e written →
      written = [] ∧ Gas.determineProgramDir os env args = .error e ∨
      ∃ target, Gas.selectTarget os (Gas.requestedName args) = some target ∧
        written.filterMap errorText <+: complaints os target args ∧
        (¬Plan.FpusKnown target args ∨
          (∃ input ∈ Plan.inputs target args, input.hasFilename os = false) ∨
          ∃ programDir, Gas.determineProgramDir os env args = .ok programDir ∧
            env.fileExists (programDir.append os (Constants.llvmMcName os)) = .error e) := by
  cases course os env versions fates args with
  | unlocated e missing plan reads =>
    rw [reads]
    refine ⟨fun code written returns => (by cases returns), ?_⟩
    rintro e' written ⟨⟩
    exact .inl ⟨rfl, missing⟩
  | objects plan reads =>
    rw [reads]
    refine ⟨?_, fun e written throws => (by cases throws)⟩
    rintro code written ⟨⟩
    exact ⟨fun zero => absurd zero (by decide),
      fun _ untold => (errors_usage os versions _ _ untold).elim⟩
  | unmapped target selected bad e front made plan reads =>
    rw [reads]
    refine ⟨fun code written returns => (by cases returns), ?_⟩
    rintro e' written ⟨⟩
    exact .inr ⟨target, selected, by rwa [filterMap_errorText], .inl bad⟩
  | informs target selected asks plan reads =>
    rw [reads]
    refine ⟨?_, fun e written throws => (by cases throws)⟩
    rintro code written ⟨⟩
    refine ⟨fun _ => ⟨target, selected, ?_⟩, fun failed => (failed rfl).elim⟩
    rw [List.filterMap_append, filterMap_errorText, ofItems_said, information, Plan.information]
    congr 1
    split
    · rfl
    · split <;> rfl
  | incomplete target waits plan reads =>
    rw [reads]
    refine ⟨?_, fun e written throws => (by cases throws)⟩
    rintro code written ⟨⟩
    refine ⟨fun zero => absurd zero (by decide), fun _ untold => ?_⟩
    rw [filterMap_errorText, complaints, List.map_eq_nil_iff, Plan.complaints, List.append_eq_nil_iff] at untold
    have none : pending target.arch Gas.allOptions (args.drop 1) = none := by simpa using untold.2
    rw [Plan.complete, none] at waits
    cases waits
  | works accepted reads =>
    have quiet := errors_unfailed os env versions fates args accepted
    have same := outcome_run os env versions fates args
    rw [run_silent_eq] at same
    constructor
    · intro code written returns
      rw [returns, outcome] at same
      rw [reads, ← same, Script.told] at returns
      cases returns
      constructor
      · rintro rfl
        refine ⟨accepted.target, accepted.selected, ?_⟩
        have noHelp : readsNamed [pstr "h", pstr "help"] (Plan.said accepted.target args) = false := by
          obtain ⟨attributes, agrees⟩ := accepted.agrees
          have asked := agrees.noHelp
          rwa [AcceptedRun.request, AcceptedRun.items, ofItems_said] at asked
        rw [List.filterMap_append, filterMap_errorText, noHelp, quiet fun code final result => (by
          rw [← same] at result
          cases result
          rfl)]
        rfl
      · intro failed untold
        rw [List.filterMap_append, List.append_eq_nil_iff] at untold
        obtain ⟨windows, front, final, ends⟩ :=
          ends_with_linker os env versions fates args accepted same.symm failed untold.2
        exact ⟨windows, accepted, front, final, ends⟩
    · intro e written throws
      rw [throws, outcome] at same
      rw [reads, ← same, Script.told] at throws
      cases throws
      have unspoken := quiet fun code final result => by
        rw [← same] at result
        cases result
      refine .inr ⟨accepted.target, accepted.selected, ⟨[], ?_⟩,
        .inr (throws_works os env fates args accepted same.symm)⟩
      rw [List.filterMap_append, filterMap_errorText, unspoken, List.append_nil, List.append_nil]

end Runs

/-- Children of a Windows run: two that succeed, and one that fails after them. -/
private def thirdFails (before : List Process) (_ : Process) : Fate .windows :=
  ({ exitCode := some (if before.length < 2 then 0 else 1) } : ProcessWindows.Fate)

private theorem run_silent : ∃ written,
    run .windows .ready ⟨[], [], []⟩ thirdFails
      [pstr "as", pstr "@gas-arch=x86_64-linux-android-as", pstr "a.s", pstr "b.s"] [] = .ok 1 written ∧
      written.filterMap errorText = [] := ⟨_, rfl, rfl⟩

/-- When `ld` fails on Windows, nothing says so. -/
theorem run_errors_link :
    let args := [pstr "as", pstr "@gas-arch=x86_64-linux-android-as", pstr "a.s", pstr "b.s"]
    ∃ written, run .windows .ready ⟨[], [], []⟩ thirdFails args [] = .ok 1 written ∧
      ∃ (accepted : AcceptedRun .windows .ready args) (front : List Process),
        started written = front ++ [accepted.linker] := by
  intro args
  obtain ⟨written, returns, untold⟩ := run_silent
  have ends := (run_errors .windows .ready ⟨[], [], []⟩ thirdFails args).1 _ _ returns
  obtain ⟨-, accepted, front, final, -⟩ := ends.2 (by decide) untold
  exact ⟨written, returns, accepted, front, final⟩

end Reporting

end GasAdapter
