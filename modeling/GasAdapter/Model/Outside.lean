import GasAdapter.Model.CommandLine
import GasAdapter.Model.Process

/-! # The wrapper and the outside

Besides asking the file system, the wrapper does two things to the outside: it says something, and it
runs a process. Both change a state that is left open, so that one model of the wrapper serves with and
without its messages. `Outside.silent` only keeps the processes that were started.
-/

namespace GasAdapter

/-- What the wrapper says by itself. -/
inductive Message where
  | complaint (complaint : CommandLine.Complaint)
  /-- The usage text, after a message of its own unless this is empty. -/
  | usage (programName message : PlatformString)
  | version (programName : PlatformString)
  | missing (executablePath : FsPath)
  | failed (ret : Int)
deriving DecidableEq, Repr

/-- What becomes of a message, and of a process with the code it returns. -/
structure Outside (σ : Type) where
  say : Message → σ → σ
  runProcess : Process → σ → Int × σ

namespace Outside

variable {σ : Type} (outside : Outside σ)

def tell (message : Message) : EStateM Exception σ Unit := modify (outside.say message)

/-- `Process::run`, seen from its callers. -/
def start (process : Process) : EStateM Exception σ Int := modifyGet (outside.runProcess process)

/-- Nothing is heard, and the processes are listed in order. -/
def silent (env : Environment) : Outside (List Process) where
  say _ started := started
  runProcess process started := (env.exitCode started process, started ++ [process])

/-- Nothing is heard and nothing is run. -/
def mute : Outside Unit where
  say _ := id
  runProcess _ state := (0, state)

end Outside

/-! ## States of one's own -/

section Pair

variable {ε σ τ α : Type}

/-- An action on the first of two states. -/
def onFirst (action : EStateM ε τ α) : EStateM ε (τ × σ) α := fun (own, state) =>
  match action own with
  | .ok a own => .ok a (own, state)
  | .error e own => .error e (own, state)

/-- An action on the second of two states. -/
def onSecond (action : EStateM ε σ α) : EStateM ε (τ × σ) α := fun (own, state) =>
  match action state with
  | .ok a state => .ok a (own, state)
  | .error e state => .error e (own, state)

/-- An action that begins with a state of its own and gives it up at the end. -/
def owning (own : τ) (action : EStateM ε (τ × σ) α) : EStateM ε σ α := fun state =>
  match action (own, state) with
  | .ok a (_, state) => .ok a state
  | .error e (_, state) => .error e state

end Pair

end GasAdapter
