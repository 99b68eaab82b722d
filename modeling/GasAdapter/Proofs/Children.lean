import GasAdapter.Model.Children

/-! # What is said about a child and what is returned for it

On POSIX both follow the wait status, so they agree: something is said exactly when the child is not
reported to have exited with 0. The code returned always fits into an exit status.
-/

namespace GasAdapter

namespace ProcessPosix

/-- What the loop returns: a code of its own, or the status of an exit it has seen. -/
theorem waitLoop_code {results : List WaitResult} {code : Int} (ends : (waitLoop results).2 = some code) :
    code ∈ [Constants.wrapperWaitFailedErrorCode, Constants.wrapperLlvmMcKilledErrorCode,
        Constants.wrapperLlvmMcStoppedErrorCode] ∨
      ∃ status, .changed status ∈ results ∧ wIfExited status = true ∧ code = (wExitStatus status).toNat := by
  induction results with
  | nil => cases ends
  | cons result rest ih =>
    cases result with
    | failed =>
      obtain rfl := Option.some.inj ends
      exact .inl (List.mem_cons_self ..)
    | changed status =>
      unfold waitLoop at ends
      split at ends
      · obtain rfl := Option.some.inj ends
        exact .inl (by simp)
      · next notSignaled =>
        split at ends
        · obtain rfl := Option.some.inj ends
          exact .inl (by simp)
        · split at ends
          · rcases ih ends with own | ⟨other, member, exited, same⟩
            · exact .inl own
            · exact .inr ⟨other, List.mem_cons_of_mem _ member, exited, same⟩
          · next decided =>
            obtain rfl := Option.some.inj ends
            have exited : wIfExited status = true := by simpa [notSignaled] using decided
            exact .inr ⟨status, List.mem_cons_self .., exited, rfl⟩

/-- The loop is silent exactly when it returns 0. -/
theorem waitMessages_eq_nil (waitError : PlatformString) {results : List WaitResult} {code : Int}
    (ends : (waitLoop results).2 = some code) : waitMessages waitError results = [] ↔ code = 0 := by
  induction results with
  | nil => cases ends
  | cons result rest ih =>
    cases result with
    | failed =>
      obtain rfl := Option.some.inj ends
      exact iff_of_false (by simp [waitMessages]) (by decide)
    | changed status =>
      unfold waitLoop at ends
      unfold waitMessages
      split at ends
      · next signaled =>
        obtain rfl := Option.some.inj ends
        rw [if_pos signaled]
        exact iff_of_false (by simp) (by decide)
      · next notSignaled =>
        rw [if_neg notSignaled]
        split at ends
        · next stopped =>
          obtain rfl := Option.some.inj ends
          rw [if_pos stopped]
          exact iff_of_false (by simp) (by decide)
        · next notStopped =>
          rw [if_neg notStopped]
          split at ends
          · next undecided =>
            rw [if_pos undecided]
            exact ih ends
          · next decided =>
            rw [if_neg decided]
            obtain rfl := Option.some.inj ends
            have zero : (wExitStatus status != 0) = false ↔ ((wExitStatus status).toNat : Int) = 0 := by
              rw [bne_eq_false_iff_eq, Int.natCast_eq_zero]
              exact (@BitVec.toNat_eq _ (wExitStatus status) 0)
            rw [← zero]
            cases wExitStatus status != 0 <;> simp

namespace Fate

theorem code_forked (child : Child) : (waitLoop child.results).2 = some (Fate.forked child).code :=
  (Option.some_get _).symm

/-- Nothing is said exactly about a child that is reported to have exited with 0. -/
theorem messages_eq_nil (fate : Fate) : fate.messages = [] ↔ fate.code = 0 := by
  cases fate with
  | notForked forkError =>
    have failed : (notForked forkError).code = Constants.wrapperForkFailedErrorCode := rfl
    rw [failed]
    exact iff_of_false (by simp [messages]) (by decide)
  | forked child =>
    have ends := code_forked child
    rw [messages, List.append_eq_nil_iff, waitMessages_eq_nil child.waitError ends]
    cases missing : child.execError with
    | none => exact and_iff_right rfl
    | some error =>
      refine iff_of_false (by simp [execMessages]) ?_
      intro zero
      rcases waitLoop_code ends with own | ⟨status, member, exited, same⟩
      · rw [zero] at own
        exact absurd own (by decide)
      · have code := child.exits (by rw [missing]; rfl) status member exited
        rw [← same, zero] at code
        cases code

/-- The code fits into an exit status. -/
theorem code_range (fate : Fate) : 0 ≤ fate.code ∧ fate.code < 256 := by
  cases fate with
  | notForked forkError =>
    have failed : (notForked forkError).code = Constants.wrapperForkFailedErrorCode := rfl
    rw [failed]
    decide
  | forked child =>
    rcases waitLoop_code (code_forked child) with own | ⟨status, -, -, same⟩
    · have table : ∀ code ∈ [Constants.wrapperWaitFailedErrorCode, Constants.wrapperLlvmMcKilledErrorCode,
          Constants.wrapperLlvmMcStoppedErrorCode], 0 ≤ code ∧ code < 256 := by decide
      exact table _ own
    · have bits : (wExitStatus status).toNat < 256 := by
        have word : (status &&& 0xff00).toNat ≤ 0xff00 := by
          rw [BitVec.toNat_and]
          exact Nat.and_le_right
        rw [wExitStatus, BitVec.toNat_ushiftRight, Nat.shiftRight_eq_div_pow]
        omega
      omega

end Fate

end ProcessPosix

end GasAdapter
