import GasAdapter.Model.Platform

/-! # Waiting for a child on POSIX

`Process::run` from `process.posix.cc` after its arguments are made: it forks, and waits until the
child has ended. What `fork` and the `waitpid` calls deliver is given; the result is the system calls
of the parent, in order, and what it returns. Only printing is left out.
-/

namespace GasAdapter.ProcessPosix

/-! ## Wait statuses

The macros of Linux on the `int` that `waitpid` fills in. -/

abbrev WaitStatus := BitVec 32

def wTermSig (status : WaitStatus) : WaitStatus := status &&& 0x7f

def wExitStatus (status : WaitStatus) : WaitStatus := (status &&& 0xff00) >>> 8

def wIfExited (status : WaitStatus) : Bool := wTermSig status == 0

/-- `((signed char) ((status & 0x7f) + 1) >> 1) > 0`. -/
def wIfSignaled (status : WaitStatus) : Bool :=
  let signedChar := ((status &&& 0x7f) + 1).setWidth 8
  BitVec.slt 0 ((signedChar.signExtend 32).sshiftRight 1)

def wIfStopped (status : WaitStatus) : Bool := (status &&& 0xff) == 0x7f

/-! ## The parent -/

/-- What one call of `waitpid` delivers: -1, or the child with a status word. -/
inductive WaitResult where
  | failed
  | changed (status : WaitStatus)
deriving DecidableEq

inductive SystemCall where
  | fork
  | waitpid
  | kill (signal : ℕ)
deriving DecidableEq, Repr

def sigkill : ℕ := 9

/-- The loop that waits, given what its calls of `waitpid` deliver. There is no code when the results
are used up before the loop ends. -/
def waitLoop : List WaitResult → List SystemCall × Option Int
  | [] => ([], none)
  | .failed :: _ => ([.waitpid], some Constants.wrapperWaitFailedErrorCode)
  | .changed wstatus :: results =>
      if wIfSignaled wstatus then ([.waitpid], some Constants.wrapperLlvmMcKilledErrorCode)
      else if wIfStopped wstatus then
        ([.waitpid, .kill sigkill], some Constants.wrapperLlvmMcStoppedErrorCode)
      else if !wIfExited wstatus && !wIfSignaled wstatus then
        let later := waitLoop results
        (.waitpid :: later.1, later.2)
      else ([.waitpid], some (wExitStatus wstatus).toNat)

/-- `Process::run` in the parent. -/
def run (forked : Bool) (results : List WaitResult) : List SystemCall × Option Int :=
  if !forked then ([.fork], some Constants.wrapperForkFailedErrorCode)
  else
    let waited := waitLoop results
    (.fork :: waited.1, waited.2)

end GasAdapter.ProcessPosix
