import GasAdapter.Proofs.Gas
import GasAdapter.Spec.Narration

/-! # What is written follows the command line and the plan

On the outside that keeps everything, what the wrapper says is appended as text, and conducting a script is to
run it and to tell of it. What is known of runs in general then gives every event of a run.
-/

namespace GasAdapter.Reporting

open Narration Gas
open Plan hiding information complaints

section Texts

variable (os : Platform) (versions : Versions)

theorem started_append (first second : List Event) :
    started (first ++ second) = started first ++ started second := List.filterMap_append

theorem started_map_err (messages : List PlatformString) : started (messages.map .err) = [] := by
  rw [started, List.filterMap_map]
  exact List.filterMap_eq_nil_iff.mpr fun _ _ => rfl

theorem started_messageEvents (message : Message) : started (messageEvents os versions message) = [] := by
  cases message with
  | usage programName message =>
    rw [messageEvents]
    split <;> rfl
  | _ => rfl

theorem started_information (name : PlatformString) (request : Request) :
    started (information os versions name request) = [] := by
  unfold information Plan.information
  repeat' split
  all_goals rfl

/-- Complaints are written to the standard error stream. -/
theorem flatMap_complaint (complaints : List CommandLine.Complaint) :
    (complaints.map .complaint).flatMap (messageEvents os versions) =
      (complaints.map (complaintText os)).map .err := by
  rw [List.flatMap_map, List.map_map, List.map_eq_flatMap]
  rfl

end Texts

section Events

variable (os : Platform) (versions : Versions) (fates : List Process → Process → Fate os)

theorem started_announces (before : List Process) (process : Process) :
    started (announces os fates before process) = [process] :=
  congrArg (List.cons process) (started_map_err (fates before process).messages)

theorem started_tells (llvmMc : FsPath) (before : List Process) (process : Process) :
    started (tells os fates llvmMc before process) = [process] := by
  rw [tells, started_append, started_announces]
  split <;> rfl

/-- Everything that is said is appended. -/
theorem sayAll_outside (messages : List Message) (events : List Event) :
    sayAll (outside os versions fates) messages events =
      events ++ messages.flatMap (messageEvents os versions) := by
  induction messages generalizing events with
  | nil => exact (List.append_nil events).symm
  | cons message rest ih =>
    rw [List.flatMap_cons, ← List.append_assoc]
    exact ih (events ++ messageEvents os versions message)

theorem startTool_outside (llvmMc : FsPath) :
    startTool (outside os versions fates) llvmMc = fun process events =>
      (exitCode os fates (started events) process, events ++ tells os fates llvmMc (started events) process) := by
  funext process events
  have ended : (outside os versions fates).runProcess process events =
      (exitCode os fates (started events) process, events ++ announces os fates (started events) process) := rfl
  simp only [startTool, tells, ended]
  split
  · rw [← List.append_assoc]
    rfl
  · rw [List.append_nil]

theorem stopTool_outside (name : PlatformString) (llvmMc : FsPath) :
    stopTool (outside os versions fates) name llvmMc = fun code events =>
      events ++ tellStop os versions name llvmMc code := by
  funext code events
  rw [stopTool, tellStop]
  split
  · exact List.append_assoc ..
  · rfl

/-- To conduct a script is to run it and to tell of it. -/
theorem conduct_outside (name : PlatformString) (llvmMc : FsPath) (actions : List Action) (events : List Event) :
    conduct (outside os versions fates) os name llvmMc actions events =
      Script.told (Script.run (exitCode os fates) actions (started events))
        (events ++ Script.narrate (exitCode os fates) (tells os fates (llvmMc.lexicallyNormal os))
          (tellStop os versions name llvmMc) actions (started events)) := by
  rw [conduct, startTool_outside, stopTool_outside]
  refine Script.carryOut_eq_told (exitCode os fates) _ _ started ?_ actions events
  intro all process
  rw [started_append, started_tells]

end Events

/-! ## The whole run -/

section Run

variable (os : Platform) (env : Environment) (versions : Versions) (fates : List Process → Process → Fate os)
  {args : List PlatformString} {programDir : FsPath}

/-- Without a target there is only an objection. -/
theorem run_unselected (located : determineProgramDir os env args = .ok programDir)
    (unselected : selectTarget os (requestedName args) = none) :
    run os env versions fates args [] =
      .ok 1 (messageEvents os versions (.usage (requestedName args) (nameMessage os (requestedName args)))) :=
  runWith_unselected (outside os versions fates) os env located unselected []

/-- With a target, the run complains and informs, and then carries out the assembly script. -/
theorem run_selected {target : Target} (located : determineProgramDir os env args = .ok programDir)
    (selected : selectTarget os (requestedName args) = some target) :
    ∃ front, front <+: unrecognized (said target args) ∧
      run os env versions fates args [] =
        match Request.attributes os (Request.ofItems (said target args)).fpus with
        | .error e => .error e ((front.map (complaintText os)).map .err)
        | .ok attributes =>
            let request := Request.ofItems (said target args)
            let opened := (complaints os target args).map .err ++ information os versions (requestedName args) request
            let script := assembly os env programDir target.ldName (request.settings target.runner attributes)
              request.output request.inputs
            let llvmMc := programDir.append os (Constants.llvmMcName os)
            if request.help || request.version || request.versionExit then .ok 0 opened
            else if !complete target args then .ok Constants.wrapperGeneralErrorCode opened
            else Script.told (Script.run (exitCode os fates) script [])
              (opened ++ Script.narrate (exitCode os fates) (tells os fates (llvmMc.lexicallyNormal os))
                (tellStop os versions (requestedName args) llvmMc) script []) := by
  obtain ⟨front, made, ran⟩ := runWith_selected (outside os versions fates) os env located selected []
  refine ⟨front, made, ran.trans ?_⟩
  have opened : sayAll (outside os versions fates) (opening (requestedName args) target args) [] =
      (complaints os target args).map .err ++
        information os versions (requestedName args) (Request.ofItems (said target args)) := by
    rw [sayAll_outside, opening, List.flatMap_append, flatMap_complaint]
    rfl
  have silent : started ((complaints os target args).map .err ++
      information os versions (requestedName args) (Request.ofItems (said target args))) = [] := by
    rw [started_append, started_map_err, started_information]
    rfl
  cases Request.attributes os (Request.ofItems (said target args)).fpus with
  | error e => simp only [voice, sayAll_outside, flatMap_complaint, List.nil_append]
  | ok attributes => simp only [opened, conduct_outside, silent]

end Run

end GasAdapter.Reporting
