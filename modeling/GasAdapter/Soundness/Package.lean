import GasAdapter.Model.Children
import GasAdapter.Model.Package
import GasAdapter.Soundness.Executables
import GasAdapter.Soundness.ExitCodes

/-! # The wrapper in its package

A script of the package runs the wrapper for its own target, whatever else it is given. On POSIX everything the
wrapper then executes has been packed next to it. On Windows the linker is packed as a script of another name
than the wrapper executes, so nothing is linked there unless the artifacts hold a linker under that name.
-/

namespace Pathname

/-- The parent of a file is the directory it was named in. -/
theorem posix_parentPath_append {directory name : List Char} (full : directory ≠ [])
    (closed : directory.getLast? ≠ some '/') (noSlash : '/' ∉ name) :
    posix.parentPath (directory ++ '/' :: name) = directory := by
  have plain : ∀ c ∈ name, posix.isSeparator c = false := by
    intro c member
    have other : c ≠ '/' := fun same => noSlash (same ▸ member)
    simpa [posix] using other
  have parts := List.takeWhile_append_dropWhile (p := posix.isSeparator) (l := directory)
  have lead : ∀ c ∈ directory.takeWhile posix.isSeparator, posix.isSeparator c = true :=
    fun c member => List.mem_takeWhile_imp member
  cases rest : directory.dropWhile posix.isSeparator with
  | nil =>
    -- nothing but separators would end with one
    rw [rest, List.append_nil] at parts
    have last := List.getLast?_eq_some_getLast full
    have separator := lead _ (by rw [parts]; exact List.getLast_mem full)
    rw [last] at closed
    exact absurd (by simpa [posix] using separator) (by simpa using closed)
  | cons c body =>
    have first : posix.isSeparator c = false := by
      have stops := List.head?_dropWhile_not posix.isSeparator directory
      rw [rest] at stops
      simpa using stops
    rw [rest] at parts
    have ends : (c :: body).rdropWhile posix.isSeparator = c :: body := by
      rw [List.rdropWhile_eq_self_iff]
      intro nonempty separator
      apply closed
      rw [← parts, List.getLast?_append_of_ne_nil _ nonempty, List.getLast?_eq_some_getLast nonempty]
      simpa [posix] using separator
    have split := (posix.split_plain (c :: body ++ ['/']) name (by simp [posix, Grammar.isPlain]) plain).1
    rw [List.append_assoc, List.singleton_append] at split
    have trimmed : (c :: body ++ ['/']).rdropWhile posix.isSeparator = c :: body := by
      rw [List.rdropWhile_concat_pos _ _ _ rfl, ends]
    have after : posix.afterRootName (directory ++ '/' :: name) = directory ++ '/' :: name := rfl
    have whole : directory ++ '/' :: name = directory.takeWhile posix.isSeparator ++ (c :: body ++ '/' :: name) := by
      rw [← List.append_assoc, parts]
    have relative : (directory ++ '/' :: name).dropWhile posix.isSeparator = c :: body ++ '/' :: name := by
      rw [whole, List.dropWhile_append_of_pos lead, List.cons_append, List.dropWhile_cons_of_neg (by simp [first])]
    have front : (directory ++ '/' :: name).takeWhile posix.isSeparator = directory.takeWhile posix.isSeparator := by
      rw [whole, List.takeWhile_append_of_pos lead, List.cons_append, List.takeWhile_cons_of_neg (by simp [first]),
        List.append_nil]
    rw [Grammar.parentPath, after, relative, front, split, trimmed]
    exact parts

end Pathname

namespace GasAdapter.Package

/-! ## Scripts -/

/-- The arguments of `as.exe` when the script for a target is called with the rest of a command line. -/
def windowsArguments (directory name rest : PlatformString) : List PlatformString :=
  (directory ++ pstr "as.exe") :: ProcessWindows.msvc.split (gasCommand directory name rest)

/-- The characters that end or change a command for `cmd`. -/
def cmdSpecial : List Char := ['&', '|', '<', '>', '^']

/-- A call of the script of some name in a directory, and the arguments of the wrapper then. Calls that bash or
`cmd` would take apart are not among these. -/
inductive Called (name : PlatformString) : Platform → (directory : PlatformString) → List PlatformString → Prop
  | posix {cdPwd : PlatformString → Option PlatformString} {zero directory : PlatformString}
      {args wrapped : List PlatformString} (named : basename zero = name)
      (entered : cdPwd (dirname zero) = some directory) (executed : gasScript cdPwd zero args = some wrapped) :
      Called name .posix directory wrapped
  | windows {directory rest : PlatformString} (unquoted : '"' ∉ directory)
      (verbatim : ∀ c ∈ cmdSpecial, c ∉ directory ++ rest) :
      Called name .windows directory (windowsArguments directory name rest)

/-- The script for a triple. -/
def scriptName (triple : PlatformString) : PlatformString := triple ++ pstr "-as"

def linkerName (os : Platform) (triple : PlatformString) : PlatformString :=
  triple ++ pstr "-" ++ Gas.genericLdName os

/-- The programs the wrapper executes for a triple. -/
def toolNames (os : Platform) (triple : PlatformString) : List PlatformString :=
  [Constants.llvmMcName os, linkerName os triple]

private theorem plain_of_all {text : PlatformString}
    (ordinary : (text.all fun c => c != '"' && c != '\\' && !ProcessWindows.msvc.isBlank c) = true) :
    ∀ c ∈ text, ProcessWindows.msvc.Plain c := by
  intro c member
  have each := List.all_eq_true.mp ordinary c member
  simp only [Bool.and_eq_true, bne_iff_ne, Bool.not_eq_true'] at each
  exact ⟨each.1.1, each.1.2, each.2⟩

theorem split_gasCommand {directory name : PlatformString} (unquoted : '"' ∉ directory)
    (plain : ∀ c ∈ name, ProcessWindows.msvc.Plain c) (rest : PlatformString) :
    ProcessWindows.msvc.split (gasCommand directory name rest) =
      (Constants.archHackParam ++ name) :: ProcessWindows.msvc.collect none rest := by
  let word := Constants.archHackParam ++ name
  have noQuote : ProcessWindows.msvc.quote ∉ directory ++ pstr "as.exe" := by
    intro member
    rcases List.mem_append.mp member with inside | suffix
    · exact unquoted inside
    · exact absurd suffix (by decide)
  have shape : gasCommand directory name rest =
      '"' :: ((directory ++ pstr "as.exe") ++ ('"' :: ' ' :: (word ++ ' ' :: rest))) := by
    simp [gasCommand, word, pstr]
  have after : ProcessWindows.msvc.afterProgram false (gasCommand directory name rest) = word ++ ' ' :: rest := by
    rw [shape]
    exact ProcessWindows.msvc.afterProgram_append noQuote true (.inl rfl) _
  have plainWord : ∀ c ∈ word, ProcessWindows.msvc.Plain c := by
    intro c member
    rcases List.mem_append.mp member with front | inside
    · exact plain_of_all (by decide) c front
    · exact plain c inside
  rw [ArgvRules.split, after]
  exact ProcessWindows.msvc.collect_plain rfl plainWord (List.cons_ne_nil _ _) rest

/-- What the POSIX script executes. -/
theorem gasScript_eq {cdPwd : PlatformString → Option PlatformString} {zero directory : PlatformString}
    {args wrapped : List PlatformString} (entered : cdPwd (dirname zero) = some directory)
    (executed : gasScript cdPwd zero args = some wrapped) :
    wrapped = (directory ++ pstr "/as") :: (Constants.archHackParam ++ basename zero) :: args := by
  unfold gasScript at executed
  split at executed
  · cases executed
  · simp only [entered] at executed
    exact (Option.some.inj executed).symm

section

variable {triple : PlatformString} (known : triple ∈ androidTriples)

include known

theorem windowsArguments_second {directory : PlatformString} (unquoted : '"' ∉ directory) (rest : PlatformString) :
    (windowsArguments directory (scriptName triple) rest)[1]? =
      some (Constants.archHackParam ++ scriptName triple) := by
  have table : ∀ triple ∈ androidTriples, ((scriptName triple).all fun c =>
      c != '"' && c != '\\' && !ProcessWindows.msvc.isBlank c) = true := by decide
  exact congrArg (·[0]?) (split_gasCommand unquoted (plain_of_all (table triple known)) rest)

/-- The second argument names the target. -/
theorem Called.second {os : Platform} {directory : PlatformString} {args : List PlatformString}
    (called : Called (scriptName triple) os directory args) :
    args[1]? = some (Constants.archHackParam ++ scriptName triple) := by
  cases called with
  | posix named entered executed =>
    rw [gasScript_eq entered executed, named]
    rfl
  | windows unquoted _ => exact windowsArguments_second known unquoted _

/-- A second argument that names the target selects it. -/
theorem ldName_of_second {os : Platform} {env : Environment} {args : List PlatformString}
    (second : args[1]? = some (Constants.archHackParam ++ scriptName triple)) (accepted : AcceptedRun os env args) :
    accepted.target.ldName = linkerName os triple := by
  have table : ∀ triple ∈ androidTriples,
      (Gas.selectTarget os (Gas.requestedName [[], Constants.archHackParam ++ scriptName triple])).map
        Gas.Target.ldName = some (linkerName os triple) := by
    cases os <;> decide
  have same : Gas.requestedName args = Gas.requestedName [[], Constants.archHackParam ++ scriptName triple] := by
    rw [Gas.requestedName, Gas.requestedName, second]
    rfl
  have selected := table triple known
  rw [← same, accepted.selected] at selected
  exact Option.some.inj selected

end

/-! ## What is packed -/

private theorem mem_of_mapM {α β : Type} {f : α → Option β} {items : List α} {results : List β}
    (all : items.mapM f = some results) :
    (∀ item ∈ items, ∃ result ∈ results, f item = some result) ∧
      ∀ result ∈ results, ∃ item ∈ items, f item = some result := by
  induction items generalizing results with
  | nil =>
    obtain rfl := Option.some.inj all
    simp
  | cons item rest ih =>
    rw [List.mapM_cons] at all
    obtain ⟨first, found, others⟩ := Option.bind_eq_some_iff.mp all
    obtain ⟨later, remaining, same⟩ := Option.bind_eq_some_iff.mp others
    obtain rfl := Option.some.inj same
    obtain ⟨forth, back⟩ := ih remaining
    constructor
    · refine List.forall_mem_cons.mpr ⟨⟨first, List.mem_cons_self .., found⟩, fun other member => ?_⟩
      obtain ⟨result, listed, same⟩ := forth other member
      exact ⟨result, List.mem_cons_of_mem _ listed, same⟩
    · refine List.forall_mem_cons.mpr ⟨⟨item, List.mem_cons_self .., found⟩, fun result member => ?_⟩
      obtain ⟨other, listed, same⟩ := back result member
      exact ⟨other, List.mem_cons_of_mem _ listed, same⟩

theorem cp_eq {artifacts : List PlatformString} {source dest : PlatformString} {copied : List Copy}
    (done : cp artifacts source dest = some copied) : copied = [⟨source, dest⟩] := by
  unfold cp at done
  split at done
  · exact (Option.some.inj done).symm
  · cases done

/-- A binary is packed under the name selected for it, and nothing else is but debug symbols. -/
theorem names_prepareBinary {os : Platform} {artifacts : List PlatformString} {b : PlatformString}
    {copied : List Copy} (done : prepareBinary os artifacts b = some copied) :
    ∃ pdbs, names copied = (selectBinary os artifacts b).1.dest :: pdbs ∧
      ∀ pdb ∈ pdbs, pdb = destName b ++ pstr ".pdb" := by
  obtain ⟨binary, found, same⟩ := Option.bind_eq_some_iff.mp done
  obtain rfl := Option.some.inj same
  rw [cp_eq found]
  refine ⟨_, rfl, ?_⟩
  intro pdb member
  obtain ⟨copy, kept, rfl⟩ := List.mem_map.mp member
  have listed := List.mem_of_mem_filter kept
  unfold selectBinary at listed
  split at listed
  · rw [List.mem_singleton.mp listed]
  · split at listed <;> cases listed

theorem names_preparePdbs {os : Platform} {artifacts : List PlatformString} {copied : List Copy}
    (done : preparePdbs artifacts os = some copied) :
    ∀ name ∈ names copied, name ∈ [pstr "llvm-objcopy.pdb", pstr "lld.pdb"] := by
  cases os with
  | posix =>
    obtain rfl := Option.some.inj done
    simp [names]
  | windows =>
    obtain ⟨objcopy, first, rest⟩ := Option.bind_eq_some_iff.mp done
    obtain ⟨lld, second, same⟩ := Option.bind_eq_some_iff.mp rest
    obtain rfl := Option.some.inj same
    rw [cp_eq first, cp_eq second]
    exact fun name member => member

/-- The package has one file for each binary, and debug symbols. -/
theorem mem_names_prepare {os : Platform} {artifacts : List PlatformString} {copied : List Copy}
    (packed : prepare os artifacts = some copied) :
    (∀ b ∈ binaries, (selectBinary os (artifacts ++ wrapperScripts os) b).1.dest ∈ names copied) ∧
      ∀ name ∈ names copied, name ∈ [pstr "llvm-objcopy.pdb", pstr "lld.pdb"] ∨
        ∃ b ∈ binaries, name = (selectBinary os (artifacts ++ wrapperScripts os) b).1.dest ∨
          name = destName b ++ pstr ".pdb" := by
  obtain ⟨symbols, first, rest⟩ := Option.bind_eq_some_iff.mp packed
  obtain ⟨files, all, same⟩ := Option.bind_eq_some_iff.mp rest
  obtain rfl := Option.some.inj same
  obtain ⟨forth, back⟩ := mem_of_mapM all
  have split : names (symbols ++ files.flatten) = names symbols ++ files.flatMap names := by
    rw [names, List.map_append, List.map_flatten, List.flatMap]
    rfl
  rw [split]
  constructor
  · intro b member
    obtain ⟨copied, listed, done⟩ := forth b member
    obtain ⟨pdbs, shape, -⟩ := names_prepareBinary done
    apply List.mem_append_right
    refine List.mem_flatMap.mpr ⟨copied, listed, ?_⟩
    rw [shape]
    exact List.mem_cons_self ..
  · intro name member
    rcases List.mem_append.mp member with symbol | file
    · exact .inl (names_preparePdbs first name symbol)
    · obtain ⟨copied, listed, inside⟩ := List.mem_flatMap.mp file
      obtain ⟨b, known, done⟩ := back copied listed
      obtain ⟨pdbs, shape, only⟩ := names_prepareBinary done
      rw [shape] at inside
      rcases List.mem_cons.mp inside with binary | pdb
      · exact .inr ⟨b, known, .inl binary⟩
      · exact .inr ⟨b, known, .inr (only name pdb)⟩

/-- On POSIX both programs are always packed. -/
theorem toolNames_posix {artifacts : List PlatformString} {copied : List Copy}
    (packed : prepare .posix artifacts = some copied) {triple : PlatformString} (known : triple ∈ androidTriples) :
    ∀ name ∈ toolNames .posix triple, name ∈ names copied := by
  have table : ∀ triple ∈ androidTriples, ∀ name ∈ toolNames .posix triple,
      name ∈ binaries ∧ destName name = name := by decide
  intro name member
  obtain ⟨listed, same⟩ := table triple known name member
  have shipped := (mem_names_prepare packed).1 name listed
  have dest : (selectBinary .posix (artifacts ++ wrapperScripts .posix) name).1.dest = name := by
    unfold selectBinary
    split
    · exact (List.append_nil _).trans same
    · split
      · exact (List.append_nil _).trans same
      · exact same
  rwa [dest] at shipped

/-- On Windows they are packed when the artifacts hold them under the names the wrapper uses. -/
theorem toolNames_windows {artifacts : List PlatformString} {copied : List Copy}
    (packed : prepare .windows artifacts = some copied) {triple : PlatformString} (known : triple ∈ androidTriples) :
    ∀ name ∈ toolNames .windows triple, name ∈ names copied ↔ name ∈ artifacts := by
  have table : ∀ triple ∈ androidTriples, ∀ name ∈ toolNames .windows triple,
      name ∉ [pstr "llvm-objcopy.pdb", pstr "lld.pdb"] ∧ name ∉ wrapperScripts .windows ∧
        (∃ b ∈ binaries, b ++ exe .windows = name ∧ destName b = b) ∧
        ∀ b ∈ binaries, (destName b ++ exe .windows = name → b ++ exe .windows = name) ∧
          destName b ++ cmd .windows ≠ name ∧ destName b ≠ name ∧ destName b ++ pstr ".pdb" ≠ name := by
    decide
  intro name member
  obtain ⟨noSymbols, noScript, ⟨own, listed, spelled, kept⟩, others⟩ := table triple known name member
  constructor
  · intro shipped
    rcases (mem_names_prepare packed).2 name shipped with symbols | ⟨b, binary, chosen | pdb⟩
    · exact (noSymbols symbols).elim
    · obtain ⟨executable, noScriptName, noBareName, -⟩ := others b binary
      unfold selectBinary at chosen
      split at chosen
      · next present =>
        have found : name ∈ artifacts ++ wrapperScripts .windows := by
          rw [← executable chosen.symm]
          simpa using present
        exact (List.mem_append.mp found).resolve_right noScript
      · split at chosen
        · exact (noScriptName chosen.symm).elim
        · exact (noBareName chosen.symm).elim
    · exact ((others b binary).2.2.2 pdb.symm).elim
  · intro present
    have shipped := (mem_names_prepare packed).1 own listed
    have found : (artifacts ++ wrapperScripts .windows).contains (own ++ exe .windows) = true := by
      rw [spelled]
      simp [present]
    unfold selectBinary at shipped
    rw [if_pos found] at shipped
    dsimp only at shipped
    rwa [kept, spelled] at shipped

/-! ## What is run -/

/-- `as` looks for its tools in its own directory. -/
theorem determineProgramDir_posix {directory : PlatformString} (absolute : directory.head? = some '/')
    (closed : directory.getLast? ≠ some '/') (env : Environment) (args : List PlatformString) :
    Gas.determineProgramDir .posix env ((directory ++ pstr "/as") :: args) = .ok ⟨directory⟩ := by
  obtain ⟨rest, rfl⟩ : ∃ rest, directory = '/' :: rest := by
    cases directory with
    | nil => cases absolute
    | cons c rest => exact ⟨rest, by rw [Option.some.inj absolute]⟩
  let program : FsPath := ⟨'/' :: rest ++ pstr "/as"⟩
  have rooted : program.isAbsolute .posix = true := Pathname.posix_isAbsolute program.native
  have parent : program.parentPath .posix = ⟨'/' :: rest⟩ :=
    congrArg FsPath.mk (Pathname.posix_parentPath_append (List.cons_ne_nil _ _) closed (by decide))
  have located : Gas.determineProgramDir .posix env (('/' :: rest ++ pstr "/as") :: args) =
      .ok ((program.parentPath .posix).makePreferred .posix) := by
    unfold Gas.determineProgramDir
    exact if_pos rooted
  rw [located, parent, FsPath.makePreferred_posix]

/-- However a script is called, the wrapper executes the two programs for its target, next to itself. On POSIX
they are packed; on Windows one is when the artifacts hold it under the name it is executed by. -/
theorem started_packed {os : Platform} {artifacts : List PlatformString} {copied : List Copy}
    (packed : prepare os artifacts = some copied) {triple : PlatformString} (known : triple ∈ androidTriples)
    {directory : PlatformString} {args : List PlatformString}
    (called : Called (scriptName triple) os directory args) (env : Environment) :
    ∀ process ∈ Gas.started os env args, ∃ programDir, Gas.determineProgramDir os env args = .ok programDir ∧
      (os = .posix → directory.head? = some '/' → directory.getLast? ≠ some '/' →
        programDir = ⟨directory⟩) ∧
      ∃ name ∈ toolNames os triple,
        process.executablePath = (programDir.append os name).lexicallyNormal os ∧
          (name ∈ names copied ↔ os = .posix ∨ name ∈ artifacts) := by
  intro process member
  obtain ⟨accepted⟩ := Gas.accepted_of_started (List.ne_nil_of_mem member)
  have linker := ldName_of_second known (called.second known) accepted
  refine ⟨accepted.programDir, accepted.located, ?_, ?_⟩
  · rintro rfl absolute closed
    have located := accepted.located
    cases called with
    | posix named entered executed =>
      obtain rfl := gasScript_eq entered executed
      rw [determineProgramDir_posix absolute closed] at located
      exact (Except.ok.inj located).symm
  · have shipped : ∀ name ∈ toolNames os triple, name ∈ names copied ↔ os = .posix ∨ name ∈ artifacts := by
      intro name tool
      cases os with
      | posix => exact iff_of_true (toolNames_posix packed known name tool) (.inl rfl)
      | windows => simpa using toolNames_windows packed known name tool
    rcases accepted.mem_started accepted.agrees_attributes member with ⟨input, -, output, -, rfl⟩ | rfl
    · have tool : Constants.llvmMcName os ∈ toolNames os triple := List.mem_cons_self ..
      exact ⟨_, tool, rfl, shipped _ tool⟩
    · have tool : accepted.target.ldName ∈ toolNames os triple := by simp [linker, toolNames]
      exact ⟨_, tool, rfl, shipped _ tool⟩

/-- A package of what the POSIX builds make has what its script runs for two inputs. -/
theorem started_packed_two :
    let zero := pstr "/opt/ndk/bin/i686-linux-android-as"
    ∃ args copied, gasScript some zero [pstr "a.s", pstr "b.s"] = some args ∧
      prepare .posix (llvmBinaries ++ xaUtilsBinaries) = some copied ∧
      (Gas.started .posix .ready args).length = 3 ∧
        ∀ process ∈ Gas.started .posix .ready args, ∃ name ∈ names copied,
          process.executablePath = (FsPath.append .posix ⟨pstr "/opt/ndk/bin"⟩ name).lexicallyNormal .posix := by
  intro zero
  have packs : (prepare .posix (llvmBinaries ++ xaUtilsBinaries)).isSome = true := by decide +kernel
  have known : pstr "i686-linux-android" ∈ androidTriples := by decide
  obtain ⟨copied, packed⟩ := Option.isSome_iff_exists.mp packs
  have executed : gasScript some zero [pstr "a.s", pstr "b.s"] = some
      [pstr "/opt/ndk/bin/as", pstr "@gas-arch=i686-linux-android-as", pstr "a.s", pstr "b.s"] := by decide +kernel
  have called : Called (scriptName (pstr "i686-linux-android")) .posix (pstr "/opt/ndk/bin") _ :=
    .posix (by decide +kernel) (by decide +kernel) executed
  refine ⟨_, copied, executed, packed, by decide +kernel, ?_⟩
  intro process member
  obtain ⟨programDir, -, same, name, -, path, shipped⟩ := started_packed packed known called .ready process member
  obtain rfl := same rfl rfl (by decide)
  exact ⟨name, shipped.mpr (.inl rfl), path⟩

/-- With the package's directory for a file system, a run of the packaged Windows wrapper that assembles several
inputs and returns 0 has needed a linker that the artifacts hold under the name it is executed by. -/
theorem run_windows_linked {artifacts : List PlatformString} {copied : List Copy}
    (packed : prepare .windows artifacts = some copied) {triple : PlatformString} (known : triple ∈ androidTriples)
    {directory : PlatformString} (unquoted : '"' ∉ directory) (rest : PlatformString) (env : Environment)
    (fates : List Process → Process → ProcessWindows.Fate)
    (absent : ∀ programDir, env.moduleDirectory = .ok programDir →
      ∀ name ∈ toolNames .windows triple, name ∉ names copied → ∀ started process,
        process.executablePath = (programDir.append .windows name).lexicallyNormal .windows →
          (fates started process).created = false) :
    let args := windowsArguments directory (scriptName triple) rest
    ∀ final, Gas.run .windows (env.withChildren fun started process => (fates started process).code) args [] =
      .ok 0 final → 2 ≤ final.length → linkerName .windows triple ∈ artifacts := by
  intro args final result several
  have all : Gas.started .windows (env.withChildren fun started process => (fates started process).code) args =
      final := by
    rw [Gas.started, result]
    rfl
  have some : final ≠ [] := List.ne_nil_of_length_pos (by omega)
  obtain ⟨accepted⟩ := Gas.accepted_of_started (all ▸ some)
  have agrees := accepted.agrees_attributes
  obtain ⟨-, rfl, succeed⟩ := Gas.processes_of_run_eq_zero accepted agrees result
  have linker := ldName_of_second known (windowsArguments_second known unquoted rest) accepted
  have tool : linkerName .windows triple ∈ toolNames .windows triple := by simp [toolNames]
  by_contra missing
  rw [accepted.processes_eq agrees] at succeed several
  have inputs : 2 ≤ accepted.gas.inputFiles.length := by
    rcases files : accepted.gas.inputFiles with _ | ⟨input, _ | ⟨second, others⟩⟩
    · simp [AcceptedRun.sequence, files] at several
    · simp [AcceptedRun.sequence_one files] at several
    · simp
  rw [AcceptedRun.sequence_several inputs] at succeed
  have unpacked : linkerName .windows triple ∉ names copied := by
    rwa [toolNames_windows packed known _ tool]
  have path : accepted.linker.executablePath =
      (accepted.programDir.append .windows (linkerName .windows triple)).lexicallyNormal .windows := by
    rw [← linker]
    rfl
  have gone := absent accepted.programDir accepted.located _ tool unpacked
    ([] ++ accepted.assemblers (accepted.shared accepted.attributes)) accepted.linker path
  have fine := succeed _ accepted.linker [] rfl
  change (fates _ accepted.linker).code = 0 at fine
  rw [ProcessWindows.Fate.code, gone] at fine
  cases fine

/-- So nothing is linked in a package of what the Windows build makes. -/
theorem run_windows_linked_two :
    let args := windowsArguments (pstr "C:\\ndk\\") (scriptName (pstr "x86_64-linux-android"))
      (pstr "a.s b.s -o out.o")
    let ld := pstr "C:\\ndk\\x86_64-linux-android-ld.exe"
    let fates : List Process → Process → ProcessWindows.Fate := fun _ process =>
      { created := process.executablePath.native != ld, exitCode := some 0 }
    ∀ final, Gas.run .windows (Environment.ready.withChildren fun started process => (fates started process).code)
      args [] = .ok 0 final → final.length < 2 := by
  intro args ld fates final result
  have packs : (prepare .windows windowsArtifacts).isSome = true := by decide +kernel
  have known : pstr "x86_64-linux-android" ∈ androidTriples := by decide
  obtain ⟨copied, packed⟩ := Option.isSome_iff_exists.mp packs
  have unquoted : '"' ∉ pstr "C:\\ndk\\" := by decide
  by_contra many
  have linked := run_windows_linked packed known unquoted (pstr "a.s b.s -o out.o") .ready fates ?_ final result
    (by omega)
  · revert linked
    decide
  · intro programDir located name tool unpacked started process path
    obtain rfl := Except.ok.inj located
    rw [toolNames_windows packed known name tool] at unpacked
    rcases List.mem_cons.mp tool with rfl | last
    · exact absurd (by decide) unpacked
    · obtain rfl := List.mem_singleton.mp last
      have same : process.executablePath.native = ld := by
        rw [path]
        decide +kernel
      exact (bne_eq_false_iff_eq).mpr same

end GasAdapter.Package
