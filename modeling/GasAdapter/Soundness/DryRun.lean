import GasAdapter.Soundness.StartedProcesses

/-! # What a dry run shows

In a dry run every child returns 0. It shows all that a command line can ever do: whatever the children
return, a run starts the first of the processes the dry run starts, in their order, and two command lines
that cannot be told apart by a dry run cannot be told apart at all.
-/

namespace GasAdapter

def Environment.dry (env : Environment) : Environment := env.withChildren Script.allSucceed

/-- The plan of a command line does not depend on the children. -/
theorem Plan.ofArguments_withChildren (os : Platform) (env : Environment)
    (exitCode : List Process → Process → Int) (args : List PlatformString) :
    ofArguments os (env.withChildren exitCode) args = ofArguments os env args := rfl

namespace Gas

variable {os : Platform} {env : Environment}

/-- Two command lines that do the same when every child returns 0 do the same whatever each child returns,
even when that depends on the children before it. -/
theorem run_determined (first second : List PlatformString) :
    run os env.dry first [] = run os env.dry second [] ↔
      ∀ exitCode started, run os (env.withChildren exitCode) first started =
        run os (env.withChildren exitCode) second started := by
  constructor
  · intro dry exitCode started
    rw [run_eq, run_eq, Plan.ofArguments_withChildren, Plan.ofArguments_withChildren]
    rw [run_eq, run_eq, Environment.dry, Plan.ofArguments_withChildren, Plan.ofArguments_withChildren] at dry
    exact Script.run_eq_of_dry exitCode dry started
  · exact fun same => same Script.allSucceed []

/-- A run starts what the dry run starts, in the same order, up to the first process that does not return 0. -/
theorem started_iff_dry (exitCode : List Process → Process → Int) (args : List PlatformString)
    (done : List Process) :
    done <+: started os (env.withChildren exitCode) args ↔
      done <+: started os env.dry args ∧ Script.Succeed exitCode [] done.dropLast := by
  rw [started, started, run_eq, run_eq, Environment.dry, Plan.ofArguments_withChildren,
    Plan.ofArguments_withChildren]
  exact Script.prefix_startedAfter_iff exitCode _ [] done

end Gas

end GasAdapter
