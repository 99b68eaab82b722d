import GasAdapter.Model.Reporting
import GasAdapter.Spec.Plan

/-! # How a run reads to its user

A run complains about the options it does not know and about one left without a value. Then it informs, or
carries out its plan: every process is announced by its command line, and what goes wrong is reported.
-/

namespace GasAdapter.Narration

open Reporting

/-- Everything the parser complains about. -/
def complaints (os : Platform) (target : Gas.Target) (args : List PlatformString) : List PlatformString :=
  (Plan.complaints target args).map (complaintText os)

section

variable (os : Platform) (versions : Versions)

/-- What a run for information says. -/
def information (programName : PlatformString) (request : Request) : List Event :=
  (Plan.information programName request).flatMap (messageEvents os versions)

/-- A plan stops by itself for lack of `llvm-mc` or of inputs. -/
def tellStop (programName : PlatformString) (llvmMc : FsPath) (code : Int) : List Event :=
  if code = Constants.wrapperExecFailedErrorCode then
    messageEvents os versions (.missing llvmMc) ++ messageEvents os versions (.failed code)
  else messageEvents os versions (.usage programName Gas.noInputsMessage)

end

section

variable (os : Platform) (fates : List Process → Process → Fate os)

/-- How children end, given the children before them. -/
def exitCode (started : List Process) (process : Process) : Int := (fates started process).code

/-- A process is announced by its command line, and its end reported. -/
def announces (started : List Process) (process : Process) : List Event :=
  .out (commandLineText os process) :: .start process :: (fates started process).messages.map .err

/-- The wrapper itself only speaks about the end of `llvm-mc`. -/
def tells (llvmMc : FsPath) (started : List Process) (process : Process) : List Event :=
  announces os fates started process ++
    if process.executablePath = llvmMc ∧ exitCode os fates started process ≠ 0 then
      [.err (failedText os (exitCode os fates started process))]
    else []

end

end GasAdapter.Narration
