import GasAdapter.Soundness.ChildStatus
import GasAdapter.Soundness.Reporting

/-! # The exit status of the wrapper

`main` returns what `Gas::run` returns, and what its caller gets of that is a byte on POSIX and 32 bits on
Windows. Nothing is lost on the way: whoever starts the wrapper as the wrapper starts its tools is told the
code of the run, and the code of a tool that has failed reaches it unchanged.
-/

namespace GasAdapter

/-- The status word of a process that has returned a code from `main`. -/
def ProcessPosix.exitWord (code : Int) : ProcessPosix.WaitStatus := (BitVec.ofInt 32 code &&& 0xff) <<< 8

namespace ProcessPosix

theorem wIfExited_exitWord (code : Int) : wIfExited (exitWord code) = true := by
  have bits : wTermSig (exitWord code) = 0 := by
    apply BitVec.eq_of_getLsbD_eq
    intro i small
    simp only [wTermSig, exitWord, BitVec.getLsbD_and, BitVec.getLsbD_shiftLeft]
    by_cases low : i < 8
    · simp [low]
    · have high : (0x7f : BitVec 32).getLsbD i = false := by
        rw [BitVec.getLsbD, show (0x7f : BitVec 32).toNat = 2 ^ 7 - 1 from rfl, Nat.testBit_two_pow_sub_one]
        exact decide_eq_false (by omega)
      rw [high, Bool.and_false]
      exact BitVec.getLsbD_zero.symm
  rw [wIfExited, bits]
  rfl

theorem waitLoop_exitWord (code : Int) :
    waitLoop [.changed (exitWord code)] =
      ([SystemCall.waitpid], some ((wExitStatus (exitWord code)).toNat : Int)) := by
  have exited := wIfExited_exitWord code
  have signaled : wIfSignaled (exitWord code) = false := wIfSignaled_of_wIfExited exited
  have stopped : wIfStopped (exitWord code) = false := wIfStopped_of_wIfExited exited
  simp [waitLoop, exited, signaled, stopped]

theorem wExitStatus_exitWord {code : Int} (nonneg : 0 ≤ code) (small : code < 256) :
    ((wExitStatus (exitWord code)).toNat : Int) = code := by
  have table : ∀ byte : Fin 256, (wExitStatus (exitWord (byte : ℕ))).toNat = byte := by decide +kernel
  obtain ⟨n, rfl⟩ := Int.eq_ofNat_of_zero_le nonneg
  exact congrArg Nat.cast (table ⟨n, by omega⟩)

/-- A child that has returned a code from `main`. -/
def Child.ofMain (code : Int) : Child where
  results := [.changed (exitWord code)]
  ends := by rw [waitLoop_exitWord]; rfl
  exits := fun missing => by cases missing

theorem code_ofMain {code : Int} (nonneg : 0 ≤ code) (small : code < 256) :
    (Fate.forked (Child.ofMain code)).code = code := by
  have ends : (waitLoop [.changed (exitWord code)]).2 = some (Fate.forked (Child.ofMain code)).code :=
    Fate.code_forked (Child.ofMain code)
  rw [waitLoop_exitWord] at ends
  exact (Option.some.inj ends).symm.trans (wExitStatus_exitWord nonneg small)

end ProcessPosix

namespace Fate

/-- A child that has returned a code from `main`. -/
def ofMain : (os : Platform) → Int → Fate os
  | .posix, code => ProcessPosix.Fate.forked (.ofMain code)
  | .windows, code => ({ exitCode := some (BitVec.ofInt 32 code) } : ProcessWindows.Fate)

/-- The codes that survive. -/
def Passes : Platform → Int → Prop
  | .posix, code => 0 ≤ code ∧ code < 256
  | .windows, code => -2147483648 ≤ code ∧ code < 2147483648

instance : (os : Platform) → (code : Int) → Decidable (Passes os code)
  | .posix, code => inferInstanceAs (Decidable (0 ≤ code ∧ code < 256))
  | .windows, code => inferInstanceAs (Decidable (-2147483648 ≤ code ∧ code < 2147483648))

theorem code_ofMain {os : Platform} {code : Int} (passes : Passes os code) : (ofMain os code).code = code := by
  cases os with
  | posix => exact ProcessPosix.code_ofMain passes.1 passes.2
  | windows =>
    obtain ⟨low, high⟩ : -2147483648 ≤ code ∧ code < 2147483648 := passes
    exact BitVec.toInt_ofInt_eq_self (by decide) (by omega) (by omega)

theorem passes_code {os : Platform} (fate : Fate os) : Passes os fate.code := by
  cases os with
  | posix => exact ProcessPosix.Fate.code_range fate
  | windows =>
    change Passes .windows (ProcessWindows.Fate.code fate)
    unfold ProcessWindows.Fate.code
    split
    · decide
    · split
      · split
        · next retcode _ =>
          have low := @BitVec.le_two_mul_toInt 32 retcode
          have high := @BitVec.toInt_lt 32 retcode
          change -2147483648 ≤ retcode.toInt ∧ retcode.toInt < 2147483648
          omega
        · decide
      · decide

end Fate

namespace Reporting

open Narration

variable {os : Platform} {env : Environment} {versions : Versions} {fates : List Process → Process → Fate os}
  {args : List PlatformString} {code : Int}

/-- A plan only stops with 0 and with three codes of the wrapper. -/
theorem stop_mem_plan (member : .stop code ∈ Plan.ofArguments os env args) :
    code ∈ [0, 1, Constants.wrapperGeneralErrorCode, Constants.wrapperExecFailedErrorCode] := by
  cases selected : Gas.selectTarget os (Gas.requestedName args) with
  | none =>
    rw [Plan.ofArguments] at member
    split at member
    · cases List.mem_singleton.mp member
    · simp only [selected] at member
      cases List.mem_singleton.mp member
      decide
  | some target =>
    cases Gas.course selected with
    | unlocated e missing plan =>
      rw [plan] at member
      cases List.mem_singleton.mp member
    | unmapped e bad plan =>
      rw [plan] at member
      cases List.mem_singleton.mp member
    | informs programDir located known asks plan =>
      rw [plan] at member
      cases List.mem_singleton.mp member
      decide
    | incomplete programDir located known asks waits plan =>
      rw [plan] at member
      cases List.mem_singleton.mp member
      decide
    | proceeds accepted same =>
      obtain ⟨attributes, agrees⟩ := accepted.agrees
      rw [accepted.plan_eq agrees] at member
      rcases Plan.stop_assembly member with rfl | rfl <;> decide

/-- Whoever starts the wrapper as the wrapper starts its tools gets the code of the run. A child that does not
return 0 is the last one, and this code is its code. When a run throws, no child has failed. -/
theorem run_passes :
    (∀ code written, run os env versions fates args [] = .ok code written →
      (Fate.ofMain os code).code = code ∧
        ∀ front process rest, started written = front ++ process :: rest →
          exitCode os fates front process ≠ 0 → rest = [] ∧ code = exitCode os fates front process) ∧
    ∀ e written, run os env versions fates args [] = .error e written →
      ∀ front process rest, started written = front ++ process :: rest →
        exitCode os fates front process = 0 := by
  have same := outcome_run os env versions fates args
  rw [run_silent_eq] at same
  constructor
  · intro code written returns
    rw [returns, outcome] at same
    constructor
    · apply Fate.code_ofMain
      have own : ∀ os, ∀ code ∈ [0, 1, Constants.wrapperGeneralErrorCode, Constants.wrapperExecFailedErrorCode],
          Fate.Passes os code := by
        intro os
        cases os <;> decide
      exact Script.code_of_run _ (own os 0 (List.mem_cons_self ..)) (fun before process => Fate.passes_code _)
        (fun stop member => own os stop (stop_mem_plan member)) same.symm
    · intro front process rest shape failed
      rw [shape] at same
      exact @Script.failed_ends _ _ (exitCode os fates) _ [] _ _ _ _ same.symm failed
  · intro e written throws front process rest shape
    rw [throws, outcome, shape] at same
    obtain ⟨commands, -, -, final, succeed⟩ := Script.succeed_of_run_eq_error (exitCode os fates) same.symm
    exact succeed front process rest final.symm

/-- Children of a run: the second one returns 3. -/
private def secondFails (before : List Process) (_ : Process) : Fate .posix :=
  Fate.ofMain .posix (if before.length = 1 then 3 else 0)

private theorem run_three : ∃ written,
    run .posix .ready ⟨[], [], []⟩ secondFails
      [pstr "/ndk/as", pstr "@gas-arch=x86_64-linux-android-as", pstr "a.s", pstr "b.s", pstr "c.s"] [] =
        .ok 3 written := ⟨_, rfl⟩

/-- The code of the second of three inputs. -/
theorem run_passes_three : ∃ written,
    run .posix .ready ⟨[], [], []⟩ secondFails
      [pstr "/ndk/as", pstr "@gas-arch=x86_64-linux-android-as", pstr "a.s", pstr "b.s", pstr "c.s"] [] =
        .ok 3 written ∧ (Fate.ofMain .posix 3).code = 3 := by
  obtain ⟨written, returns⟩ := run_three
  exact ⟨written, returns, (run_passes.1 _ _ returns).1⟩

end Reporting

end GasAdapter
