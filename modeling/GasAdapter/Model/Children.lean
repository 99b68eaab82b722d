import GasAdapter.Model.Process
import GasAdapter.Model.ProcessPosix

/-! # How a child ends

`Process::run` of both builds, with what the system calls deliver given as the fate of the child: what it
returns, and what it writes to the standard error stream. The Windows build writes nothing.
-/

namespace GasAdapter

/-- A number as a stream writes it. -/
def decimal (n : Int) : PlatformString := n.repr.toList

namespace ProcessPosix

/-- `WSTOPSIG`, which is `WEXITSTATUS` of another kind of word. -/
def wStopSig (status : WaitStatus) : WaitStatus := wExitStatus status

/-- A child between `fork` and the last `waitpid`, with the texts of `strerror` for what goes wrong. -/
structure Child where
  /-- `execv` returned: the child goes on as a copy of the wrapper. -/
  execError : Option PlatformString := none
  results : List WaitResult
  waitError : PlatformString := []
  /-- The results are enough for the wait to end. -/
  ends : (waitLoop results).2.isSome = true
  /-- A child without its program can only exit by its own call of `_exit`. -/
  exits : execError.isSome = true → ∀ status, .changed status ∈ results → wIfExited status = true →
    ((wExitStatus status).toNat : Int) = Constants.wrapperExecFailedErrorCode

inductive Fate where
  | notForked (forkError : PlatformString)
  | forked (child : Child)

namespace Fate

def run : Fate → List SystemCall × Option Int
  | .notForked _ => ProcessPosix.run false []
  | .forked child => ProcessPosix.run true child.results

theorem run_isSome (fate : Fate) : fate.run.2.isSome = true := by
  cases fate with
  | notForked forkError => rfl
  | forked child => exact child.ends

/-- What `Process::run` returns. -/
def code (fate : Fate) : Int := fate.run.2.get fate.run_isSome

end Fate

/-- What the waiting loop writes, and the report of an exit status after it. -/
def waitMessages (waitError : PlatformString) : List WaitResult → List PlatformString
  | [] => []
  | .failed :: _ =>
      [pstr "Failed to wait for " ++ Constants.llvmMcName .posix ++ pstr " to terminate. " ++ waitError ++
        Constants.newline .posix]
  | .changed wstatus :: results =>
      if wIfSignaled wstatus then
        [Constants.llvmMcName .posix ++ pstr " was killed by signal " ++ decimal (wTermSig wstatus).toNat ++
          Constants.newline .posix]
      else if wIfStopped wstatus then
        [Constants.llvmMcName .posix ++ pstr " was stopped by signal " ++ decimal (wStopSig wstatus).toNat ++
          Constants.newline .posix]
      else if !wIfExited wstatus && !wIfSignaled wstatus then waitMessages waitError results
      else if wExitStatus wstatus != 0 then
        [Constants.llvmMcName .posix ++ pstr " exited with status " ++ decimal (wExitStatus wstatus).toNat ++
          Constants.newline .posix]
      else []

/-- What the copy of the wrapper in the child writes before it exits. -/
def execMessages : Option PlatformString → List PlatformString
  | none => []
  | some error =>
      [pstr "Failed to run " ++ Constants.llvmMcName .posix ++ pstr ". " ++ error ++ Constants.newline .posix]

/-- What `Process::run` writes, in the child and in the parent that waits for it. -/
def Fate.messages : Fate → List PlatformString
  | .notForked forkError => [pstr "Fork failed. " ++ forkError ++ Constants.newline .posix]
  | .forked child => execMessages child.execError ++ waitMessages child.waitError child.results

end ProcessPosix

namespace ProcessWindows

/-- What `CreateProcessW`, `WaitForSingleObject` and `GetExitCodeProcess` deliver. -/
structure Fate where
  created : Bool := true
  waited : BitVec 32 := 0
  exitCode : Option (BitVec 32)

/-- What `Process::run` returns; a `DWORD` becomes an `int` with the same bits. -/
def Fate.code (fate : Fate) : Int :=
  if !fate.created then Constants.wrapperExecFailedErrorCode
  else if fate.waited == 0 then
    match fate.exitCode with
    | some retcode => retcode.toInt
    | none => 128
  else 1

end ProcessWindows

/-- What becomes of a child of either build. -/
def Fate : Platform → Type
  | .posix => ProcessPosix.Fate
  | .windows => ProcessWindows.Fate

namespace Fate

def code : {os : Platform} → Fate os → Int
  | .posix, fate => ProcessPosix.Fate.code fate
  | .windows, fate => ProcessWindows.Fate.code fate

def messages : {os : Platform} → Fate os → List PlatformString
  | .posix, fate => ProcessPosix.Fate.messages fate
  | .windows, _ => []

end Fate

end GasAdapter
