import GasAdapter.Model.ProcessPosix

/-! # How a child ended

The waiting loop returns at the first result that says how the child ended. The macros never
overlap on one status word, so an exit status is only read from the word of a normal exit, and 0 is
only returned for a child that exited with 0.
-/

namespace GasAdapter.ProcessPosix

/-! ## Status words -/

/-- The seven bits that tell the kinds of status words apart. -/
private theorem wTermSig_cases (status : WaitStatus) :
    ∃ low : Fin 128, wTermSig status = BitVec.ofNat 32 low := by
  have small : (wTermSig status).toNat < 128 := by
    rw [wTermSig, BitVec.toNat_and]
    exact Nat.lt_of_le_of_lt Nat.and_le_right (by decide)
  exact ⟨⟨_, small⟩, by simp⟩

/-- A word is a normal exit, a death by signal or neither, by those bits. -/
theorem wIfSignaled_eq (status : WaitStatus) :
    wIfSignaled status = (wTermSig status != 0 && wTermSig status != 0x7f) := by
  have table : ∀ low : Fin 128,
      BitVec.slt 0 ((((BitVec.ofNat 32 low + 1).setWidth 8).signExtend 32).sshiftRight 1) =
        (BitVec.ofNat 32 low != 0 && BitVec.ofNat 32 low != 0x7f) := by decide +kernel
  obtain ⟨low, bits⟩ := wTermSig_cases status
  have entry := table low
  rw [← bits] at entry
  exact entry

/-- A stop has all seven bits set. -/
theorem wTermSig_of_wIfStopped {status : WaitStatus} (stopped : wIfStopped status = true) :
    wTermSig status = 0x7f := by
  have word : status &&& 0xff = 0x7f := by simpa [wIfStopped] using stopped
  have inside : wTermSig status = (status &&& 0xff) &&& 0x7f := by
    rw [wTermSig, BitVec.and_assoc]
    rfl
  rw [inside, word]
  rfl

theorem wIfSignaled_of_wIfExited {status : WaitStatus} (exited : wIfExited status = true) :
    wIfSignaled status = false := by
  have none : wTermSig status = 0 := by simpa [wIfExited] using exited
  rw [wIfSignaled_eq, none]
  rfl

theorem wIfStopped_of_wIfExited {status : WaitStatus} (exited : wIfExited status = true) :
    wIfStopped status = false := by
  have none : wTermSig status = 0 := by simpa [wIfExited] using exited
  apply eq_false_of_ne_true
  intro stopped
  rw [wTermSig_of_wIfStopped stopped] at none
  cases none

theorem wIfStopped_of_wIfSignaled {status : WaitStatus} (signaled : wIfSignaled status = true) :
    wIfStopped status = false := by
  apply eq_false_of_ne_true
  intro stopped
  rw [wIfSignaled_eq, wTermSig_of_wIfStopped stopped] at signaled
  cases signaled

/-- Macros that exclude each other do so either way round. -/
private theorem excluded {a b : Bool} (excludes : a = true → b = false) (holds : b = true) : a = false := by
  apply eq_false_of_ne_true
  intro other
  rw [excludes other] at holds
  cases holds

/-! ## Results -/

/-- The result says how the child ended, or that waiting failed. -/
def WaitResult.decides : WaitResult → Bool
  | .failed => true
  | .changed status => wIfExited status || wIfSignaled status || wIfStopped status

/-- What is returned for a deciding result. -/
def WaitResult.code : WaitResult → Int
  | .failed => Constants.wrapperWaitFailedErrorCode
  | .changed status =>
      if wIfExited status then (wExitStatus status).toNat
      else if wIfSignaled status then Constants.wrapperLlvmMcKilledErrorCode
      else Constants.wrapperLlvmMcStoppedErrorCode

/-- The signals sent for a deciding result. -/
def WaitResult.answer : WaitResult → List SystemCall
  | .failed => []
  | .changed status => if wIfStopped status then [.kill sigkill] else []

/-- Only a normal exit with status 0 is reported as 0. -/
theorem WaitResult.code_eq_zero {result : WaitResult} :
    result.code = 0 ↔
      ∃ status, result = .changed status ∧ wIfExited status = true ∧ wExitStatus status = 0 := by
  cases result with
  | failed =>
    constructor
    · intro zero
      cases zero
    · rintro ⟨status, same, -⟩
      cases same
  | changed status =>
    cases exited : wIfExited status with
    | true =>
      simp only [code, exited, ↓reduceIte, changed.injEq, exists_eq_left', true_and]
      rw [Int.natCast_eq_zero]
      exact (@BitVec.toNat_eq _ (wExitStatus status) 0).symm
    | false =>
      constructor
      · intro zero
        simp only [code, exited, Bool.false_eq_true, ↓reduceIte] at zero
        split at zero <;> cases zero
      · rintro ⟨other, same, read, -⟩
        cases same
        rw [exited] at read
        cases read

/-! ## The loop -/

theorem waitLoop_undecided {result : WaitResult} (undecided : result.decides = false)
    (results : List WaitResult) :
    waitLoop (result :: results) = (.waitpid :: (waitLoop results).1, (waitLoop results).2) := by
  cases result with
  | failed => cases undecided
  | changed status =>
    simp only [WaitResult.decides, Bool.or_eq_false_iff] at undecided
    obtain ⟨⟨notExited, notSignaled⟩, notStopped⟩ := undecided
    simp [waitLoop, notExited, notSignaled, notStopped]

theorem waitLoop_decided {result : WaitResult} (decided : result.decides = true)
    (results : List WaitResult) :
    waitLoop (result :: results) = (.waitpid :: result.answer, some result.code) := by
  cases result with
  | failed => rfl
  | changed status =>
    cases exited : wIfExited status with
    | true =>
      have notSignaled := wIfSignaled_of_wIfExited exited
      have notStopped := wIfStopped_of_wIfExited exited
      simp [waitLoop, WaitResult.answer, WaitResult.code, exited, notSignaled, notStopped]
    | false =>
      cases signaled : wIfSignaled status with
      | true =>
        have notStopped := wIfStopped_of_wIfSignaled signaled
        simp [waitLoop, WaitResult.answer, WaitResult.code, exited, signaled, notStopped]
      | false =>
        have stopped : wIfStopped status = true := by
          simpa [WaitResult.decides, exited, signaled] using decided
        simp [waitLoop, WaitResult.answer, WaitResult.code, exited, signaled, stopped]

/-- Results that decide nothing are consumed one after the other. -/
theorem waitLoop_append {before : List WaitResult} (undecided : ∀ result ∈ before, result.decides = false)
    (results : List WaitResult) :
    waitLoop (before ++ results) =
      (List.replicate before.length .waitpid ++ (waitLoop results).1, (waitLoop results).2) := by
  induction before with
  | nil => rfl
  | cons result before ih =>
    have tail := ih fun other member => undecided other (List.mem_cons_of_mem _ member)
    rw [List.cons_append, waitLoop_undecided (undecided result (List.mem_cons_self ..)), tail]
    rfl

/-! ## How Linux encodes what happened to a child -/

/-- A change of the child that Linux reports. Signals are numbered from 1 to 126, of which no
platform uses all; `core` says that a core was dumped. -/
inductive ChildChange where
  | exited (status : BitVec 8)
  | signaled (signal : Fin 126) (core : Bool)
  | stopped (signal : BitVec 8)

namespace ChildChange

def encode : ChildChange → WaitStatus
  | exited status => status.setWidth 32 <<< 8
  | signaled signal core => BitVec.ofNat 32 (signal + 1) ||| (if core then 0x80 else 0)
  | stopped signal => signal.setWidth 32 <<< 8 ||| 0x7f

/-- What the wrapper returns for a change. -/
def code : ChildChange → Int
  | exited status => status.toNat
  | signaled _ _ => Constants.wrapperLlvmMcKilledErrorCode
  | stopped _ => Constants.wrapperLlvmMcStoppedErrorCode

theorem encode_exited (status : BitVec 8) :
    wIfExited (encode (exited status)) = true ∧
      (wExitStatus (encode (exited status))).toNat = status.toNat := by
  have table : ∀ status : BitVec 8, wIfExited (status.setWidth 32 <<< 8) = true ∧
      (wExitStatus (status.setWidth 32 <<< 8)).toNat = status.toNat := by decide +kernel
  exact table status

theorem encode_signaled (signal : Fin 126) (core : Bool) :
    wIfSignaled (encode (signaled signal core)) = true := by
  have table : ∀ signal : Fin 126, ∀ core : Bool,
      wIfSignaled (BitVec.ofNat 32 (signal + 1) ||| (if core then 0x80 else 0)) = true := by
    decide +kernel
  exact table signal core

theorem encode_stopped (signal : BitVec 8) : wIfStopped (encode (stopped signal)) = true := by
  have table : ∀ signal : BitVec 8, wIfStopped (signal.setWidth 32 <<< 8 ||| 0x7f) = true := by
    decide +kernel
  exact table signal

/-- The macros read back what was encoded. -/
theorem encode_code (change : ChildChange) :
    (WaitResult.changed change.encode).decides = true ∧
      (WaitResult.changed change.encode).code = change.code := by
  cases change with
  | exited status =>
    obtain ⟨exited, same⟩ := encode_exited status
    simp [WaitResult.decides, WaitResult.code, exited, same, code]
  | signaled signal core =>
    have signaled := encode_signaled signal core
    have notExited : wIfExited (encode (.signaled signal core)) = false :=
      excluded wIfSignaled_of_wIfExited signaled
    simp [WaitResult.decides, WaitResult.code, signaled, notExited, code]
  | stopped signal =>
    have stopped := encode_stopped signal
    have notExited : wIfExited (encode (.stopped signal)) = false :=
      excluded wIfStopped_of_wIfExited stopped
    have notSignaled : wIfSignaled (encode (.stopped signal)) = false :=
      excluded wIfStopped_of_wIfSignaled stopped
    simp [WaitResult.decides, WaitResult.code, stopped, notExited, notSignaled, code]

end ChildChange

/-! ## The whole run -/

/-- A child that did not finish cleanly is never reported as success. Results are consumed up to the
first that decides: 0 means a normal exit with status 0, every other exit status is returned as it is,
and a stopped child is killed before the non-zero return. Until then the wrapper waits. -/
theorem run_status (results : List WaitResult) :
    ((∀ result ∈ results, result.decides = false) →
      run true results = (.fork :: List.replicate results.length .waitpid, none)) ∧
    (∀ before result after, results = before ++ result :: after →
      (∀ other ∈ before, other.decides = false) → result.decides = true →
      run true results =
        (.fork :: (List.replicate before.length .waitpid ++ .waitpid :: result.answer), some result.code) ∧
      (result.code = 0 ↔
        ∃ status, result = .changed status ∧ wIfExited status = true ∧ wExitStatus status = 0) ∧
      (∀ status, result = .changed status → wIfExited status = true →
        result.code = ((wExitStatus status).toNat : ℤ)) ∧
      (∀ status, result = .changed status → wIfStopped status = true →
        result.answer = [.kill sigkill] ∧ result.code ≠ 0)) ∧
    (∀ change : ChildChange, (WaitResult.changed change.encode).decides = true ∧
      (WaitResult.changed change.encode).code = change.code) ∧
    run false results = ([.fork], some Constants.wrapperForkFailedErrorCode) := by
  refine ⟨?_, ?_, ChildChange.encode_code, rfl⟩
  · intro undecided
    have waits := waitLoop_append undecided []
    rw [List.append_nil] at waits
    simp [run, waits, waitLoop]
  · rintro before result after rfl undecided decided
    refine ⟨?_, WaitResult.code_eq_zero, ?_, ?_⟩
    · simp [run, waitLoop_append undecided, waitLoop_decided decided]
    · rintro status rfl exited
      simp [WaitResult.code, exited]
    · rintro status rfl stopped
      refine ⟨by simp [WaitResult.answer, stopped], ?_⟩
      intro zero
      obtain ⟨other, same, exited, -⟩ := WaitResult.code_eq_zero.mp zero
      cases same
      rw [excluded wIfStopped_of_wIfExited stopped] at exited
      cases exited

/-- A continued child is waited for again, and its exit status is returned. -/
theorem run_status_continued :
    run true [.changed 0xffff, .changed 0x0300, .changed 0] = ([.fork, .waitpid, .waitpid], some 3) :=
  ((run_status [.changed 0xffff, .changed 0x0300, .changed 0]).2.1 [.changed 0xffff] (.changed 0x0300)
    [.changed 0] rfl (by decide) rfl).1

end GasAdapter.ProcessPosix
