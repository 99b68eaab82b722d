import GasAdapter.Soundness.Translation

/-! # Paths on the way to a Windows tool

A tool finds the backslashes of a path doubled. Between names this is harmless, since a run of separators
separates like a single one. At the front it is not: one separator is a root directory, two begin a server
name, and three are a root directory again. So a path survives unless a backslash is among one or two
separators in front of its first name.
-/

namespace Pathname

open GasAdapter.ProcessWindows

/-! ## Doubling -/

/-- What a normal form takes from a path. -/
theorem Grammar.sameFile_of (g : Grammar) {first second : List Char} (root : g.rootName first = g.rootName second)
    (names : g.names first = g.names second)
    (head : (g.afterRootName first).head? = (g.afterRootName second).head?)
    (last : (g.afterRootName first).getLast? = (g.afterRootName second).getLast?) :
    g.SameFile first second := by
  have rooted : g.hasRootDirectory first = g.hasRootDirectory second := by
    rw [hasRootDirectory, hasRootDirectory, head]
  have normal : g.normalNames first = g.normalNames second := by
    rw [normalNames, normalNames, rooted, names]
  rw [SameFile, normalForm, normalForm, root, rooted, normal, endsInDirectory, endsInDirectory, last, names]

/-- The names of a text depend on the names of its end. -/
theorem namesFrom_congr {separates : Char → Bool} {first second : List Char}
    (same : ∀ current, namesFrom separates current first = namesFrom separates current second)
    (front current : List Char) :
    namesFrom separates current (front ++ first) = namesFrom separates current (front ++ second) := by
  induction front generalizing current with
  | nil => exact same current
  | cons c rest ih => simp only [List.cons_append, namesFrom, ih]

/-- A run of one separator separates like a single one. -/
theorem namesFrom_replicate {separates : Char → Bool} {c : Char} (separator : separates c = true) (count : ℕ)
    (text current : List Char) :
    namesFrom separates current (List.replicate (count + 1) c ++ text) =
      namesFrom separates current (c :: text) := by
  induction count generalizing current with
  | zero => rfl
  | succ count ih =>
    rw [List.replicate_succ, List.cons_append]
    have closed : namesFrom separates [] (List.replicate (count + 1) c ++ text) = namesFrom separates [] text := by
      rw [ih]
      simp [namesFrom, separator]
    simp only [namesFrom, separator, ↓reduceIte, closed]

theorem namesFrom_readBackFrom (count : ℕ) (text current : List Char) :
    namesFrom windowsSeparator current (msvc.readBackFrom count text) =
      namesFrom windowsSeparator current (msvc.slashes count ++ text) := by
  induction text generalizing count current with
  | nil => rw [ArgvRules.readBackFrom, List.append_nil]
  | cons c rest ih =>
    have later (d : Char) (current : List Char) : namesFrom windowsSeparator current (d :: msvc.readBackFrom 0 rest) =
        namesFrom windowsSeparator current (d :: rest) :=
      namesFrom_congr (fun current => ih 0 current) [d] current
    rw [ArgvRules.readBackFrom]
    split
    · next slash =>
      subst slash
      have longer : msvc.slashes count ++ msvc.backslash :: rest = msvc.slashes (count + 1) ++ rest := by
        simp [ArgvRules.slashes, List.replicate_succ']
      rw [longer]
      exact ih (count + 1) current
    · split
      · exact namesFrom_congr (later c) _ current
      · rw [namesFrom_congr (later c)]
        cases count with
        | zero => rfl
        | succ count =>
          have separator : windowsSeparator msvc.backslash = true := rfl
          have double : 2 * (count + 1) = 2 * count + 1 + 1 := by omega
          rw [ArgvRules.slashes, ArgvRules.slashes, double, namesFrom_replicate separator,
            namesFrom_replicate separator]

theorem getLast?_readBackFrom (count : ℕ) (text : List Char) :
    (msvc.readBackFrom count text).getLast? = (msvc.slashes count ++ text).getLast? := by
  induction text generalizing count with
  | nil => rw [ArgvRules.readBackFrom, List.append_nil]
  | cons c rest ih =>
    have later : (c :: msvc.readBackFrom 0 rest).getLast? = (c :: rest).getLast? := by
      rw [List.getLast?_cons, List.getLast?_cons, ih]
      rfl
    rw [ArgvRules.readBackFrom]
    split
    · next slash =>
      subst slash
      have longer : msvc.slashes count ++ msvc.backslash :: rest = msvc.slashes (count + 1) ++ rest := by
        simp [ArgvRules.slashes, List.replicate_succ']
      rw [longer]
      exact ih (count + 1)
    · split
      · rw [List.getLast?_append, List.getLast?_append, later]
      · rw [List.getLast?_append, List.getLast?_append, later]
        simp [List.getLast?_cons]

/-! ## Root names -/

/-- Within text that ends before a backslash and has more than separators, the root name ends too. -/
theorem windowsRootNameLength_before {front : List Char} (named : ∃ c ∈ front, windowsSeparator c = false)
    (rest : List Char) :
    windowsRootNameLength (front ++ '\\' :: rest) = windowsRootNameLength (front ++ ['\\']) ∧
      windowsRootNameLength (front ++ '\\' :: rest) ≤ front.length := by
  match front with
  | [] => simp at named
  | [a] =>
    have plain : windowsSeparator a = false := by simpa using named
    have zero (rest : List Char) : windowsRootNameLength (a :: '\\' :: rest) = 0 :=
      windowsRootNameLength_plain rest plain (by decide)
    simp only [List.singleton_append, zero, Nat.zero_le, and_self]
  | a :: b :: more =>
    by_cases drive : b = ':'
    · subst drive
      refine ⟨rfl, ?_⟩
      change (if a.isAlpha = true then 2 else 0) ≤ more.length + 2
      split <;> omega
    · match more with
      | [] =>
        have zero (rest : List Char) : windowsRootNameLength (a :: b :: '\\' :: rest) = 0 := by
          rw [windowsRootNameLength_share rest drive, show windowsSeparator '\\' = true from rfl]
          simp
        simp only [List.cons_append, List.nil_append, zero, Nat.zero_le, and_self]
      | c :: more =>
        have stops (rest : List Char) : (more ++ '\\' :: rest).takeWhile (fun c => !windowsSeparator c) =
            more.takeWhile fun c => !windowsSeparator c := by
          rw [List.takeWhile_append]
          split
          · next all =>
            rw [List.takeWhile_cons_of_neg (by decide), List.append_nil]
            exact ((List.takeWhile_prefix _).eq_of_length all).symm
          · rfl
        have size := (List.takeWhile_prefix (l := more) fun c => !windowsSeparator c).length_le
        simp only [List.cons_append, windowsRootNameLength_share _ drive, stops, List.length_cons, true_and]
        split <;> omega

/-- Three separators, or fewer with nothing after them, begin no root name. -/
theorem windowsRootNameLength_separators {text : List Char}
    (front : ∀ c ∈ text.take 3, windowsSeparator c = true) : windowsRootNameLength text = 0 := by
  match text with
  | [] => rfl
  | [_] => rfl
  | a :: b :: rest =>
    have noDrive : b ≠ ':' := by
      rintro rfl
      exact absurd (front ':' (by simp)) (by decide)
    match rest with
    | [] => exact windowsRootNameLength_short noDrive
    | c :: rest =>
      have separator := front c (by simp)
      rw [windowsRootNameLength_share rest noDrive, separator]
      simp

/-- Separators in front stay in front, and no character comes before them. -/
theorem separators_readBackFrom (count size : ℕ) {text : List Char}
    (front : ∀ c ∈ text.take size, windowsSeparator c = true) :
    ∀ c ∈ (msvc.readBackFrom count text).take (size + count), windowsSeparator c = true := by
  have slashes (n m : ℕ) (rest : List Char)
      (later : ∀ c ∈ rest.take (m - n), windowsSeparator c = true) :
      ∀ c ∈ (msvc.slashes n ++ rest).take m, windowsSeparator c = true := by
    intro c member
    rw [List.take_append, ArgvRules.slashes, List.length_replicate] at member
    rcases List.mem_append.mp member with slash | after
    · rw [List.eq_of_mem_replicate (List.mem_of_mem_take slash)]
      rfl
    · exact later c after
  induction text generalizing count size with
  | nil =>
    rw [ArgvRules.readBackFrom, ← List.append_nil (msvc.slashes count)]
    exact slashes count _ [] (by simp)
  | cons c rest ih =>
    cases size with
    | zero =>
      rw [ArgvRules.readBackFrom]
      split
      · intro d member
        refine ih (count + 1) 0 (by simp) d ?_
        exact (List.take_subset_take_left _ (by omega)) member
      · split
        · exact slashes _ _ _ (by simp)
        · refine slashes _ _ _ ?_
          rw [show 0 + count - 2 * count = 0 by omega]
          simp
    | succ size =>
      have separator := front c (by simp)
      have tail : ∀ d ∈ rest.take size, windowsSeparator d = true :=
        fun d member => front d (by simp [member])
      rw [ArgvRules.readBackFrom]
      split
      · intro d member
        refine ih (count + 1) size tail d ?_
        rwa [show size + (count + 1) = size + 1 + count by omega]
      · split
        · next isQuote =>
          rw [isQuote] at separator
          cases separator
        · apply slashes
          intro d member
          have within : d ∈ (c :: msvc.readBackFrom 0 rest).take (size + 1) :=
            (List.take_subset_take_left _ (by omega)) member
          rcases List.mem_cons.mp within with rfl | later
          · exact separator
          · exact ih 0 size tail d later

/-! ## Survival -/

/-- The separators a path begins with. -/
def lead (text : List Char) : List Char := text.takeWhile windowsSeparator

/-- No backslash is among one or two separators that something follows. -/
def Survives (text : List Char) : Prop := '\\' ∉ lead text ∨ 3 ≤ (lead text).length ∨ lead text = text

instance (text : List Char) : Decidable (Survives text) := inferInstanceAs (Decidable (_ ∨ _ ∨ _))

theorem separators_take_of_lead {text : List Char} (long : 3 ≤ (lead text).length ∨ lead text = text) :
    ∀ c ∈ text.take 3, windowsSeparator c = true := by
  have all : ∀ c ∈ lead text, windowsSeparator c = true := fun c member => List.mem_takeWhile_imp member
  intro c member
  rcases long with three | whole
  · apply all
    have front : text.take 3 = (lead text).take 3 := by
      conv_lhs => rw [← List.takeWhile_append_dropWhile (p := windowsSeparator) (l := text)]
      exact List.take_append_of_le_length three
    rw [front] at member
    exact List.mem_of_mem_take member
  · apply all
    rw [whole]
    exact List.mem_of_mem_take member

/-- Without a root name before or after, only the names count. -/
theorem sameFile_readBack_of_separators {text : List Char} (front : ∀ c ∈ text.take 3, windowsSeparator c = true) :
    windows.SameFile (msvc.readBack text) text := by
  have root : windows.rootNameLength text = 0 := windowsRootNameLength_separators front
  have root' : windows.rootNameLength (msvc.readBack text) = 0 :=
    windowsRootNameLength_separators (separators_readBackFrom 0 3 front)
  have after : windows.afterRootName text = text := by rw [Grammar.afterRootName, root, List.drop_zero]
  have after' : windows.afterRootName (msvc.readBack text) = msvc.readBack text := by
    rw [Grammar.afterRootName, root', List.drop_zero]
  apply Grammar.sameFile_of
  · rw [Grammar.rootName, Grammar.rootName, root, root', List.take_zero, List.take_zero]
  · rw [Grammar.names, Grammar.names, after, after']
    exact namesFrom_readBackFrom 0 text []
  · rw [after, after', ArgvRules.head?_readBack]
  · rw [after, after']
    exact getLast?_readBackFrom 0 text

/-- When a name or a drive comes before the first backslash, the root name ends before it too. -/
theorem sameFile_readBack_of_named {front : List Char} (noSlash : '\\' ∉ front)
    (named : ∃ c ∈ front, windowsSeparator c = false) (rest : List Char) :
    windows.SameFile (msvc.readBack (front ++ '\\' :: rest)) (front ++ '\\' :: rest) := by
  obtain ⟨doubled, shape⟩ : ∃ doubled, msvc.readBack ('\\' :: rest) = '\\' :: doubled := by
    have head := msvc.head?_readBack ('\\' :: rest)
    cases read : msvc.readBack ('\\' :: rest) with
    | nil =>
      rw [read] at head
      cases head
    | cons c doubled =>
      rw [read] at head
      exact ⟨doubled, by rw [Option.some.inj head]⟩
  rw [msvc.readBack_append noSlash, shape]
  obtain ⟨same, within⟩ := windowsRootNameLength_before named rest
  obtain ⟨same', within'⟩ := windowsRootNameLength_before named doubled
  have size : windows.rootNameLength (front ++ '\\' :: doubled) = windows.rootNameLength (front ++ '\\' :: rest) :=
    same'.trans same.symm
  have bound : windows.rootNameLength (front ++ '\\' :: rest) ≤ front.length := within
  have after (tail : List Char) : (front ++ '\\' :: tail).drop (windows.rootNameLength (front ++ '\\' :: rest)) =
      front.drop (windows.rootNameLength (front ++ '\\' :: rest)) ++ '\\' :: tail :=
    List.drop_append_of_le_length bound
  have names (current : List Char) : namesFrom windowsSeparator current ('\\' :: doubled) =
      namesFrom windowsSeparator current ('\\' :: rest) := by
    rw [← shape]
    exact namesFrom_readBackFrom 0 ('\\' :: rest) current
  have last : ('\\' :: doubled).getLast? = ('\\' :: rest).getLast? := by
    rw [← shape]
    exact getLast?_readBackFrom 0 ('\\' :: rest)
  apply Grammar.sameFile_of
  · rw [Grammar.rootName, Grammar.rootName, size, List.take_append_of_le_length bound,
      List.take_append_of_le_length bound]
  · rw [Grammar.names, Grammar.names, Grammar.afterRootName, Grammar.afterRootName, size, after, after]
    exact namesFrom_congr names _ []
  · rw [Grammar.afterRootName, Grammar.afterRootName, size, after, after, List.head?_append, List.head?_append]
    rfl
  · rw [Grammar.afterRootName, Grammar.afterRootName, size, after, after, List.getLast?_append,
      List.getLast?_append, last]

theorem sameFile_readBack {text : List Char} (survives : Survives text) :
    windows.SameFile (msvc.readBack text) text := by
  rcases survives with plain | long
  · by_cases slash : '\\' ∈ text
    · obtain ⟨front, rest, rfl, noSlash⟩ := List.eq_append_cons_of_mem slash
      refine sameFile_readBack_of_named noSlash ?_ rest
      by_contra only
      have separators : ∀ c ∈ front, windowsSeparator c = true := by
        intro c member
        by_contra other
        exact only ⟨c, member, by simpa using other⟩
      apply plain
      rw [lead, List.takeWhile_append_of_pos separators, List.takeWhile_cons_of_pos rfl]
      exact List.mem_append_right _ (List.mem_cons_self ..)
    · rw [msvc.readBack_noSlash slash]
      rfl
  · exact sameFile_readBack_of_separators (separators_take_of_lead long)

/-- Paths to one file have root names of one length. -/
theorem rootNameLength_of_sameFile {g : Grammar} {first second : List Char} (same : g.SameFile first second) :
    g.rootNameLength first = g.rootNameLength second := by
  have size (text : List Char) : (g.normalForm text).rootName.length = g.rootNameLength text := by
    rw [Grammar.normalForm, Grammar.makePreferred, List.length_map, Grammar.rootName, List.length_take]
    exact Nat.min_eq_left (g.rootNameLength_le text)
  rw [← size, ← size, same]

theorem windowsRootNameLength_server {a b c : Char} (rest : List Char) (first : windowsSeparator a = true)
    (second : windowsSeparator b = true) (name : windowsSeparator c = false) :
    windowsRootNameLength (a :: b :: c :: rest) ≠ 0 := by
  have noDrive : b ≠ ':' := by
    rintro rfl
    exact absurd second (by decide)
  rw [windowsRootNameLength_share rest noDrive, first, second, name]
  simp

private theorem separators_three {a b c : Char} (rest : List Char) (first : windowsSeparator a = true)
    (second : windowsSeparator b = true) (third : windowsSeparator c = true) :
    ∀ d ∈ (a :: b :: c :: rest).take 3, windowsSeparator d = true :=
  List.forall_mem_cons.mpr ⟨first, List.forall_mem_cons.mpr ⟨second, List.forall_mem_singleton.mpr third⟩⟩

private theorem readBackFrom_backslash (count : ℕ) (rest : List Char) :
    msvc.readBackFrom count ('\\' :: rest) = msvc.readBackFrom (count + 1) rest := rfl

private theorem readBackFrom_name {c : Char} (noSlash : c ≠ msvc.backslash) (noQuote : c ≠ msvc.quote)
    {count : ℕ} {rest : List Char} :
    msvc.readBackFrom count (c :: rest) = msvc.slashes (2 * count) ++ c :: msvc.readBack rest := by
  rw [ArgvRules.readBackFrom, if_neg noSlash, if_neg noQuote]
  rfl

/-- Exactly the paths that survive lead a tool to the file they lead to. -/
theorem sameFile_readBack_iff {text : List Char} (unquoted : '"' ∉ text) :
    windows.SameFile (msvc.readBack text) text ↔ Survives text := by
  refine ⟨fun same => ?_, sameFile_readBack⟩
  by_contra lost
  rw [Survives, not_or, not_or, not_not, Nat.not_le] at lost
  obtain ⟨slash, short, more⟩ := lost
  have parts := List.takeWhile_append_dropWhile (p := windowsSeparator) (l := text)
  have separators : ∀ c ∈ lead text, windowsSeparator c = true := fun c member => List.mem_takeWhile_imp member
  have roots := rootNameLength_of_sameFile same
  change windowsRootNameLength (msvc.readBack text) = windowsRootNameLength text at roots
  cases rest : text.dropWhile windowsSeparator with
  | nil =>
    rw [rest, List.append_nil] at parts
    exact more parts
  | cons c body =>
    rw [rest] at parts
    change lead text ++ c :: body = text at parts
    have name : windowsSeparator c = false := by
      have stops := List.head?_dropWhile_not windowsSeparator text
      rw [rest] at stops
      simpa using stops
    have noSlash : c ≠ msvc.backslash := by
      rintro rfl
      cases name
    have noQuote : c ≠ msvc.quote := by
      rintro rfl
      exact unquoted (by rw [← parts]; simp; exact .inr (.inl rfl))
    generalize lead text = front at parts slash short separators
    subst parts
    match front with
    | [] => cases slash
    | [x] =>
      obtain rfl : '\\' = x := by simpa using slash
      have server : windowsRootNameLength (msvc.readBack ('\\' :: c :: body)) ≠ 0 := by
        rw [ArgvRules.readBack, readBackFrom_backslash, readBackFrom_name noSlash noQuote]
        exact windowsRootNameLength_server _ rfl rfl name
      have directory : windowsRootNameLength ('\\' :: c :: body) = 0 := by
        by_cases drive : c = ':'
        · subst drive
          rfl
        · cases body with
          | nil => exact windowsRootNameLength_short drive
          | cons d body => simp [windowsRootNameLength_share body drive, name]
      exact server (roots.trans directory)
    | [x, y] =>
      have server := windowsRootNameLength_server body (separators x (by simp)) (separators y (by simp)) name
      apply server
      refine roots.symm.trans (windowsRootNameLength_separators ?_)
      have kinds (d : Char) (member : d ∈ [x, y]) : d = '\\' ∨ d = '/' := by
        simpa [windowsSeparator] using separators d member
      rcases kinds x (by simp) with rfl | rfl
      · rw [ArgvRules.readBack, List.cons_append, readBackFrom_backslash]
        rcases kinds y (by simp) with rfl | rfl
        · rw [List.cons_append, readBackFrom_backslash, List.nil_append, readBackFrom_name noSlash noQuote]
          exact separators_three _ rfl rfl rfl
        · rw [List.cons_append, readBackFrom_name (by decide) (by decide)]
          exact separators_three _ rfl rfl rfl
      · obtain rfl : '\\' = y := by simpa using slash
        rw [ArgvRules.readBack, List.cons_append, readBackFrom_name (by decide) (by decide), List.cons_append,
          ArgvRules.readBack, readBackFrom_backslash, List.nil_append, readBackFrom_name noSlash noQuote]
        exact separators_three _ rfl rfl rfl

/-- In front of a name only the separators before it count. -/
theorem survives_append {front rest : List Char} {c : Char} (plain : windowsSeparator c = false) :
    Survives (front ++ c :: rest) ↔ '\\' ∉ lead front ∨ 3 ≤ (lead front).length := by
  have same : lead (front ++ c :: rest) = lead front := by
    rw [lead, List.takeWhile_append]
    split
    · next all =>
      rw [List.takeWhile_cons_of_neg (by simp [plain]), List.append_nil]
      exact ((List.takeWhile_prefix _).eq_of_length all).symm
    · rfl
  have more : lead (front ++ c :: rest) ≠ front ++ c :: rest := by
    intro whole
    have separator : windowsSeparator c = true :=
      List.mem_takeWhile_imp (p := windowsSeparator) (l := front ++ c :: rest) (by
        change c ∈ lead (front ++ c :: rest)
        rw [whole]
        simp)
    rw [plain] at separator
    cases separator
  rw [Survives, same] at *
  simp only [more, or_false]

end Pathname

namespace GasAdapter

open Pathname

/-- An object lies where its input does. -/
theorem FsPath.survives_object {input : FsPath} (named : input.hasFilename .windows = true) :
    Survives (LlvmMcRunner.makeOutputFilePath .windows input).native ↔
      Survives (input.makePreferred .windows).native := by
  have full : windows.filename input.native ≠ [] := by
    intro none
    rw [hasFilename, isEmpty, filename] at named
    change (!(windows.filename input.native).isEmpty) = true at named
    rw [none] at named
    cases named
  have whole := windows.directoryText_append_filename input.native
  have parts := stem_append_extension (windows.filename input.native)
  have plain := windows.filename_plain input.native
  obtain ⟨c, base, shape⟩ := List.exists_cons_of_ne_nil (stem_ne_nil full)
  rw [shape] at parts
  have name : windowsSeparator c = false := by
    apply plain c
    rw [← parts]
    exact List.mem_cons_self ..
  have kept : windows.prefer c = c := by
    rw [Grammar.prefer]
    exact if_neg (by rw [show windows.isSeparator c = false from name]; decide)
  have object : (LlvmMcRunner.makeOutputFilePath .windows input).native =
      (windows.directoryText input.native).map windows.prefer ++ c :: (base ++ pstr ".o").map windows.prefer := by
    change windows.makePreferred (windows.directoryText input.native ++
      (Pathname.stem (windows.filename input.native) ++ pstr ".o")) = _
    rw [shape, Grammar.makePreferred, List.map_append, List.cons_append, List.map_cons, kept]
  have preferred : (input.makePreferred .windows).native =
      (windows.directoryText input.native).map windows.prefer ++
        c :: (base ++ Pathname.extension (windows.filename input.native)).map windows.prefer := by
    change windows.makePreferred input.native = _
    conv_lhs => rw [← whole, ← parts]
    rw [Grammar.makePreferred, List.map_append, List.cons_append, List.map_cons, kept]
  rw [object, preferred, survives_append name, survives_append name]

namespace Task

/-- The paths of a task. -/
def paths : Task → List PlatformString
  | .assemble _ output input => [output, input]
  | .link output objects => output :: objects

def mapPaths (change : PlatformString → PlatformString) : Task → Task
  | .assemble options output input => .assemble options (change output) (change input)
  | .link output objects => .link (change output) (objects.map change)

/-- The same work on the same files. -/
def SameFiles (os : Platform) : Task → Task → Prop
  | .assemble options output input, .assemble options' output' input' =>
      options = options' ∧ os.pathGrammar.SameFile output output' ∧ os.pathGrammar.SameFile input input'
  | .link output objects, .link output' objects' =>
      os.pathGrammar.SameFile output output' ∧ List.Forall₂ os.pathGrammar.SameFile objects objects'
  | _, _ => False

theorem sameFiles_received_iff {task : Task} (unquoted : ∀ path ∈ task.paths, '"' ∉ path) :
    SameFiles .windows (task.mapPaths (Platform.received .windows)) task ↔ ∀ path ∈ task.paths, Survives path := by
  have each (path : PlatformString) (member : path ∈ task.paths) :
      windows.SameFile (Platform.received .windows path) path ↔ Survives path :=
    sameFile_readBack_iff (unquoted path member)
  cases task with
  | assemble options output input =>
    change (options = options ∧ windows.SameFile _ output ∧ windows.SameFile _ input) ↔ _
    rw [each output (by simp [paths]), each input (by simp [paths])]
    simp [paths]
  | link output objects =>
    change (windows.SameFile _ output ∧ List.Forall₂ windows.SameFile _ objects) ↔ _
    rw [each output (by simp [paths]), List.forall₂_map_left_iff, List.forall₂_same]
    simp only [paths, List.forall_mem_cons]
    refine and_congr_right fun _ => forall₂_congr fun object member => ?_
    exact each object (List.mem_cons_of_mem _ member)

end Task

namespace FsPath

theorem unquoted_makePreferred {path : FsPath} (unquoted : '"' ∉ path.native) :
    '"' ∉ (path.makePreferred .windows).native := by
  intro quote
  rcases windows.mem_makePreferred quote with separator | inside
  · cases separator
  · exact unquoted inside

theorem unquoted_object {input : FsPath} (unquoted : '"' ∉ input.native) :
    '"' ∉ (LlvmMcRunner.makeOutputFilePath .windows input).native := by
  intro quote
  rcases LlvmMcRunner.mem_makeOutputFilePath quote with inside | separator | extension
  · exact unquoted inside
  · cases separator
  · exact absurd extension (by decide)

end FsPath

/-! ## Accepted runs -/

namespace AcceptedRun

/-- What the run is meant to ask of the tools: their tasks with the paths as the wrapper has them. -/
def intended {os : Platform} {env : Environment} {args : List PlatformString}
    (accepted : AcceptedRun os env args) : List Task :=
  match accepted.gas.inputFiles with
  | [] => []
  | [input] =>
      [.assemble accepted.settings.frontOptions accepted.finalOutput (input.makePreferred os).native]
  | inputs => (inputs.map fun input => .assemble accepted.settings.frontOptions
      (LlvmMcRunner.makeOutputFilePath os input).native (input.makePreferred os).native) ++
        [.link accepted.finalOutput (accepted.objects.map FsPath.native)]

theorem tasks_eq {os : Platform} {env : Environment} {args : List PlatformString}
    (accepted : AcceptedRun os env args) :
    accepted.tasks = accepted.intended.map (Task.mapPaths os.received) := by
  have linked : accepted.linkTask =
      Task.mapPaths os.received (.link accepted.finalOutput (accepted.objects.map FsPath.native)) := by
    rw [linkTask, Task.mapPaths, List.map_map]
    rfl
  unfold tasks intended
  generalize accepted.gas.inputFiles = inputs
  rcases inputs with _ | ⟨input, _ | ⟨second, others⟩⟩
  · rfl
  · rfl
  · rw [linked, List.map_append, List.map_map]
    rfl

section

variable {env : Environment} {args : List PlatformString} (accepted : AcceptedRun .windows env args)

theorem intended_unquoted (output : '"' ∉ accepted.finalOutput)
    (inputs : ∀ input ∈ accepted.gas.inputFiles, '"' ∉ input.native) :
    ∀ task ∈ accepted.intended, ∀ path ∈ task.paths, '"' ∉ path := by
  have object (input : FsPath) (listed : input ∈ accepted.gas.inputFiles) :=
    FsPath.unquoted_object (inputs input listed)
  have preferred (input : FsPath) (listed : input ∈ accepted.gas.inputFiles) :=
    FsPath.unquoted_makePreferred (inputs input listed)
  unfold intended objects
  generalize accepted.gas.inputFiles = inputs at object preferred
  rcases inputs with _ | ⟨input, _ | ⟨second, others⟩⟩
  · simp
  · simp [Task.paths, output, preferred input]
  · intro task member
    rcases List.mem_append.mp member with assembled | linked
    · obtain ⟨input, listed, rfl⟩ := List.mem_map.mp assembled
      simp [Task.paths, object input listed, preferred input listed]
    · obtain rfl := List.mem_singleton.mp linked
      rw [Task.paths, List.map_map]
      exact List.forall_mem_cons.mpr ⟨output, List.forall_mem_map.mpr object⟩

/-- All paths of a run survive when the output and the inputs do. -/
theorem intended_survives_iff (given : accepted.gas.inputFiles ≠ [])
    (named : ∀ input ∈ accepted.gas.inputFiles, input.hasFilename .windows = true) :
    (∀ task ∈ accepted.intended, ∀ path ∈ task.paths, Survives path) ↔
      Survives accepted.finalOutput ∧
        ∀ input ∈ accepted.gas.inputFiles, Survives (input.makePreferred .windows).native := by
  have object (input : FsPath) (listed : input ∈ accepted.gas.inputFiles) :=
    FsPath.survives_object (named input listed)
  unfold intended objects
  generalize accepted.gas.inputFiles = inputs at given object
  rcases inputs with _ | ⟨input, _ | ⟨second, others⟩⟩
  · exact (given rfl).elim
  · simp [Task.paths]
  · simp only [List.forall_mem_append, List.forall_mem_map, List.forall_mem_singleton, Task.paths,
      List.forall_mem_cons, List.map_map, Function.comp_apply]
    grind

/-- Each process works on the files it is meant for exactly when their paths survive. -/
theorem started_sameFiles_iff {readers : ToolReaders} (documented : readers.Documented .windows)
    (literal : accepted.Literal) (unquoted : '"' ∉ accepted.programDir.native) (given : accepted.gas.inputFiles ≠ [])
    (output : '"' ∉ accepted.finalOutput) (inputs : ∀ input ∈ accepted.gas.inputFiles, '"' ∉ input.native)
    (named : ∀ input ∈ accepted.gas.inputFiles, input.hasFilename .windows = true) :
    let started := Gas.started .windows env args
    List.Forall₂ (fun process intended =>
        (∃ task, readers.task .windows process = some task ∧ task.SameFiles .windows intended) ↔
          ∀ path ∈ intended.paths, Survives path)
      started (accepted.intended.take started.length) ∧
    ((∀ task ∈ accepted.intended, ∀ path ∈ task.paths, Survives path) ↔
      Survives accepted.finalOutput ∧
        ∀ input ∈ accepted.gas.inputFiles, Survives (input.makePreferred .windows).native) := by
  intro started
  refine ⟨?_, accepted.intended_survives_iff given named⟩
  let read : Task → Option Task := some ∘ Task.mapPaths (Platform.received .windows)
  have plan : accepted.planned.map (readers.task .windows) = accepted.intended.map read := by
    rw [accepted.planned_tasks documented (fun _ => unquoted) literal, accepted.tasks_eq, List.map_map]
  have front : started = accepted.planned.take started.length :=
    List.prefix_iff_eq_take.mp accepted.started_planned
  have tasks : started.map (readers.task .windows) = (accepted.intended.take started.length).map read := by
    rw [front, List.map_take, plan, ← List.map_take, ← front]
  have each : List.Forall₂ (fun read intended =>
      (∃ task, read = some task ∧ task.SameFiles .windows intended) ↔ ∀ path ∈ intended.paths, Survives path)
      (started.map (readers.task .windows)) (accepted.intended.take started.length) := by
    rw [tasks, List.forall₂_map_left_iff, List.forall₂_same]
    intro task member
    have plain := accepted.intended_unquoted output inputs task (List.mem_of_mem_take member)
    simp only [read, Function.comp_apply, Option.some.injEq, exists_eq_left']
    exact Task.sameFiles_received_iff plain
  exact List.forall₂_map_left_iff.mp each

end

/-- An input below the root directory becomes one on a server, and its object with it. -/
theorem started_sameFiles_rooted :
    let args := [pstr "as", pstr "@gas-arch=x86_64-linux-android-as", pstr "\\a.s", pstr "b.s"]
    let started := Gas.started .windows .ready args
    ∃ intended : List Task,
      List.Forall₂ (fun process intended =>
          (∃ task, ToolReaders.textual.task .windows process = some task ∧ task.SameFiles .windows intended) ↔
            ∀ path ∈ intended.paths, Survives path)
        started (intended.take started.length) ∧
      intended.map (fun task => decide (∀ path ∈ task.paths, Survives path)) = [false, true, false] := by
  intro args
  let accepted : AcceptedRun .windows .ready args := .ofRequest rfl rfl rfl rfl rfl
  have documented := ToolReaders.textual_documented .windows
  have whole := accepted.started_sameFiles_iff documented (by decide) (by decide) (by decide) (by decide)
    (by decide) (by decide)
  exact ⟨accepted.intended, whole.1, rfl⟩

end AcceptedRun

end GasAdapter
