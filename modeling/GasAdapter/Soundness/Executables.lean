import GasAdapter.Soundness.Translation

/-! # Which programs a run executes

A run executes two programs at most: `llvm-mc` and the target's `ld`, both in the directory that
`determine_program_dir` computes. On Windows this is the directory of the module. On POSIX it is computed from
`args[0]` alone: when the wrapper was called by a relative path, or by a name that a shell looked up, the current
directory takes part as well. The second argument settles the target; nothing after it, and no child, has a say.
-/

namespace Pathname

theorem posix_isAbsolute (text : List Char) : posix.isAbsolute text = (text.head? == some '/') := by
  cases text with
  | nil => rfl
  | cons c rest => exact Bool.and_true _

/-- Normalising keeps the root. -/
theorem posix_isAbsolute_lexicallyNormal {text : List Char} (absolute : posix.isAbsolute text = true) :
    posix.isAbsolute (posix.lexicallyNormal text) = true := by
  have rooted : posix.hasRootDirectory text = true := (Bool.and_eq_true_iff.mp absolute).1
  have full : text.isEmpty = false := by
    rw [posix_isAbsolute] at absolute
    cases text with
    | nil => cases absolute
    | cons c rest => rfl
  have spelled : posix.spell (posix.normalForm text) =
      '/' :: ([posix.preferred].intercalate (posix.normalForm text).names ++
        (if (posix.normalForm text).trailing then [posix.preferred] else [])) := by
    have directory : (posix.normalForm text).rootDirectory = true := rooted
    rw [Grammar.spell, directory]
    rfl
  rw [Grammar.lexicallyNormal, full, Grammar.render, spelled]
  rfl

theorem posix_isAbsolute_append {text : List Char} (absolute : posix.isAbsolute text = true)
    (name : List Char) : posix.isAbsolute (posix.append text name) = true := by
  rw [posix_isAbsolute] at absolute
  cases text with
  | nil => cases absolute
  | cons c rest =>
    unfold Grammar.append
    split
    · next outright =>
      rcases Bool.or_eq_true_iff.mp outright with same | root
      · exact same
      · cases root
    · split
      · next rooted => exact (Bool.and_true _).trans rooted
      · split <;> (rw [posix_isAbsolute]; exact absolute)

theorem posix_isAbsolute_parentPath {text : List Char} (absolute : posix.isAbsolute text = true) :
    posix.isAbsolute (posix.parentPath text) = true := by
  have kept := absolute
  rw [posix_isAbsolute] at absolute
  cases text with
  | nil => cases absolute
  | cons c rest =>
    obtain rfl : c = '/' := by simpa using absolute
    unfold Grammar.parentPath
    dsimp only
    split
    · exact kept
    · rw [posix_isAbsolute]
      rfl

end Pathname

namespace GasAdapter

open Reading

namespace Gas

/-- A run that starts anything is accepted. -/
theorem accepted_of_started {os : Platform} {env : Environment} {args : List PlatformString}
    (some : started os env args ≠ []) : Nonempty (AcceptedRun os env args) := by
  cases selected : selectTarget os (requestedName args) with
  | none =>
    exfalso
    apply some
    rw [started, run_eq, Plan.ofArguments]
    cases determineProgramDir os env args with
    | error e => rfl
    | ok programDir =>
      simp only [selected]
      rfl
  | some target =>
    cases course selected with
    | unlocated e missing plan =>
      rw [started, run_of_fail plan] at some
      exact (some rfl).elim
    | unmapped e bad plan =>
      rw [started, run_of_fail plan] at some
      exact (some rfl).elim
    | informs programDir located known asks plan =>
      rw [started, run_of_stop plan] at some
      exact (some rfl).elim
    | incomplete programDir located known asks waits plan =>
      rw [started, run_of_stop plan] at some
      exact (some rfl).elim
    | proceeds accepted same => exact ⟨accepted⟩

/-- The programs in the directory of `determine_program_dir` that a command line can execute. -/
def executables (os : Platform) (env : Environment) (args : List PlatformString) : Option (FsPath × FsPath) :=
  match determineProgramDir os env args, selectTarget os (requestedName args) with
  | .ok programDir, some target =>
      some ((programDir.append os (Constants.llvmMcName os)).lexicallyNormal os,
        (programDir.append os target.ldName).lexicallyNormal os)
  | _, _ => none

theorem executables_accepted {os : Platform} {env : Environment} {args : List PlatformString}
    (accepted : AcceptedRun os env args) :
    executables os env args = some (accepted.llvmMc.lexicallyNormal os, accepted.ld.lexicallyNormal os) := by
  rw [executables, accepted.located]
  simp only [accepted.selected]
  rfl

/-- Two command lines with the same second argument, and the same program directory for the same reasons. -/
def Alike (os : Platform) (env other : Environment) (args otherArgs : List PlatformString) : Prop :=
  otherArgs[1]? = args[1]? ∧
    match os with
    | .posix =>
        let programPath : FsPath := ⟨args.head?.getD []⟩
        otherArgs.head? = args.head? ∧
          (programPath.isAbsolute .posix = false → other.absolute programPath = env.absolute programPath)
    | .windows => other.moduleDirectory = env.moduleDirectory

/-- What decides on the program directory decides on the programs. -/
theorem executables_eq {os : Platform} {env other : Environment} {args otherArgs : List PlatformString}
    (alike : Alike os env other args otherArgs) : executables os other otherArgs = executables os env args := by
  obtain ⟨second, place⟩ := alike
  have directory : determineProgramDir os other otherArgs = determineProgramDir os env args := by
    cases os with
    | posix =>
      obtain ⟨head, current⟩ := place
      unfold determineProgramDir
      rw [head]
      dsimp only
      split
      · rfl
      · next relative => rw [current (eq_false_of_ne_true relative)]
    | windows => exact place
  rw [executables, executables, directory, requestedName, requestedName, second]

/-- On POSIX the program directory is absolute when absolute paths are. -/
theorem determineProgramDir_isAbsolute {env : Environment} {args : List PlatformString} {programDir : FsPath}
    (absolute : ∀ path full, env.absolute path = .ok full → full.isAbsolute .posix = true)
    (located : determineProgramDir .posix env args = .ok programDir) : programDir.isAbsolute .posix = true := by
  have parent {path : FsPath} (rooted : path.isAbsolute .posix = true) :
      ((path.parentPath .posix).makePreferred .posix).isAbsolute .posix = true := by
    rw [FsPath.makePreferred_posix]
    exact Pathname.posix_isAbsolute_parentPath rooted
  unfold determineProgramDir at located
  dsimp only at located
  split at located
  · next rooted =>
    obtain rfl := Except.ok.inj located
    exact parent rooted
  · cases made : env.absolute ⟨args.head?.getD []⟩ with
    | error e =>
      rw [made] at located
      cases located
    | ok full =>
      rw [made] at located
      obtain rfl := Except.ok.inj located
      exact parent (absolute _ full made)

/-- A run executes `llvm-mc` any number of times and then `ld` at most once, both in the directory of
`determine_program_dir`. The second argument and what this directory is computed from decide which files these
are, and on POSIX their paths are absolute. -/
theorem started_confined (os : Platform) (env : Environment) (args : List PlatformString) :
    (∀ other otherArgs, Alike os env other args otherArgs →
      executables os other otherArgs = executables os env args) ∧
    (started os env args ≠ [] → ∃ llvmMc ld, executables os env args = some (llvmMc, ld) ∧ llvmMc ≠ ld ∧
      (∃ count, (started os env args).map Process.executablePath <+: List.replicate count llvmMc ++ [ld]) ∧
      (os = .posix → (∀ path full, env.absolute path = .ok full → full.isAbsolute .posix = true) →
        llvmMc.isAbsolute .posix = true ∧ ld.isAbsolute .posix = true)) := by
  constructor
  · exact fun other otherArgs alike => executables_eq alike
  · intro some
    obtain ⟨accepted⟩ := accepted_of_started some
    refine ⟨_, _, executables_accepted accepted, llvmMc_ne_ld accepted.selected accepted.programDir, ?_, ?_⟩
    · have planned : ∃ count, accepted.planned.map Process.executablePath <+:
          List.replicate count (accepted.llvmMc.lexicallyNormal os) ++ [accepted.ld.lexicallyNormal os] := by
        rcases inputs : accepted.gas.inputFiles with _ | ⟨input, _ | ⟨second, others⟩⟩
        · refine ⟨0, ?_⟩
          rw [AcceptedRun.planned, AcceptedRun.sequence, inputs]
          exact List.nil_prefix
        · refine ⟨1, ?_⟩
          rw [AcceptedRun.planned_one inputs]
          exact List.prefix_append ..
        · refine ⟨accepted.gas.inputFiles.length, ?_⟩
          have each : accepted.objectProcesses.map Process.executablePath =
              List.replicate accepted.gas.inputFiles.length (accepted.llvmMc.lexicallyNormal os) := by
            rw [AcceptedRun.objectProcesses, List.map_map]
            exact List.map_const' ..
          rw [AcceptedRun.planned_several (by simp [inputs]), List.map_append, each]
          exact List.prefix_rfl
      obtain ⟨count, order⟩ := planned
      exact ⟨count, (accepted.started_planned.map Process.executablePath).trans order⟩
    · rintro rfl absolute
      have directory := determineProgramDir_isAbsolute absolute accepted.located
      have tool (name : PlatformString) :
          ((accepted.programDir.append .posix name).lexicallyNormal .posix).isAbsolute .posix = true :=
        Pathname.posix_isAbsolute_lexicallyNormal (Pathname.posix_isAbsolute_append directory name)
      exact ⟨tool _, tool _⟩

/-- Called by a name that a shell has looked up, the wrapper executes tools of the current directory. -/
theorem started_confined_relative :
    let args := [pstr "as", pstr "@gas-arch=x86_64-linux-android-as", pstr "a.s", pstr "b.s"]
    ∃ llvmMc ld, executables .posix .ready args = some (llvmMc, ld) ∧
      llvmMc.isAbsolute .posix = true ∧ ld.isAbsolute .posix = true := by
  intro args
  have anything : started .posix .ready args ≠ [] := by decide
  obtain ⟨llvmMc, ld, same, -, -, absolute⟩ := (started_confined .posix .ready args).2 anything
  refine ⟨llvmMc, ld, same, absolute rfl ?_⟩
  intro path full made
  obtain rfl := Except.ok.inj made
  rfl

end Gas

end GasAdapter
