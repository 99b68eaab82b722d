import Mathlib.Data.List.DropRight

/-! # Pathnames in the C++ generic format

The C++ standard defines path operations on the text of a pathname: an optional root name, an
optional root directory, and filenames between directory separators. Which characters separate
and what a root name is are left to the platform; `Grammar` collects these choices together
with the laws every operation below relies on. The operations are lexical and never touch a
file system.
-/

namespace Pathname

/-- The name `.` of the current directory. -/
def dot : List Char := ['.']

/-- The name `..` of the parent directory. -/
def dotDot : List Char := ['.', '.']

/-! ## Extensions of a single name -/

/-- The text after the rightmost period; the whole name when there is none. -/
def afterPeriod (name : List Char) : List Char := name.rtakeWhile (· != '.')

/-- The text up to and including the rightmost period; empty when there is none. -/
def uptoPeriod (name : List Char) : List Char := name.rdropWhile (· != '.')

/-- A name has an extension unless it has no period, its only period leads, or it is `..`. -/
def hasExtension (name : List Char) : Bool :=
  !(uptoPeriod name).isEmpty && uptoPeriod name != dot && name != dotDot

/-- `path::stem` of a filename. -/
def stem (name : List Char) : List Char :=
  if hasExtension name then (uptoPeriod name).dropLast else name

/-- `path::extension` of a filename: the rightmost period and what follows it. -/
def extension (name : List Char) : List Char :=
  if hasExtension name then '.' :: afterPeriod name else []

private theorem uptoPeriod_getLast (name : List Char) (present : uptoPeriod name ≠ []) :
    (uptoPeriod name).getLast present = '.' := by
  have stops := List.rdropWhile_last_not (· != '.') name present
  change ¬((uptoPeriod name).getLast present != '.') = true at stops
  simpa using stops

/-- A name is its stem followed by its extension. -/
theorem stem_append_extension (name : List Char) : stem name ++ extension name = name := by
  unfold stem extension
  split
  · next present =>
    have nonempty : uptoPeriod name ≠ [] := by
      intro empty
      simp [hasExtension, empty] at present
    have period : (uptoPeriod name).dropLast ++ ['.'] = uptoPeriod name := by
      rw [← uptoPeriod_getLast name nonempty, List.dropLast_append_getLast]
    calc
      (uptoPeriod name).dropLast ++ '.' :: afterPeriod name
          = ((uptoPeriod name).dropLast ++ ['.']) ++ afterPeriod name := by simp
      _ = uptoPeriod name ++ afterPeriod name := by rw [period]
      _ = name := List.rdropWhile_append_rtakeWhile ..
  · exact List.append_nil name

theorem stem_ne_nil {name : List Char} (nonempty : name ≠ []) : stem name ≠ [] := by
  unfold stem
  split
  · next present =>
    intro empty
    have nonempty : uptoPeriod name ≠ [] := by
      intro none
      simp [hasExtension, none] at present
    have single : uptoPeriod name = ['.'] := by
      rw [← List.dropLast_append_getLast nonempty, empty, uptoPeriod_getLast, List.nil_append]
    simp [hasExtension, single, dot] at present
  · exact nonempty

theorem uptoPeriod_append_extension (base tail : List Char) (plain : ∀ c ∈ tail, c ≠ '.') :
    uptoPeriod (base ++ '.' :: tail) = base ++ ['.'] := by
  have all : ∀ c ∈ tail.reverse, (c != '.') = true := by
    intro c member
    simpa using plain c (List.mem_reverse.mp member)
  simp only [uptoPeriod, List.rdropWhile, List.reverse_append, List.reverse_cons,
    List.append_assoc, List.singleton_append]
  rw [List.dropWhile_append_of_pos all]
  simp

/-- A nonempty name followed by a period and more is neither `.` nor `..`. -/
theorem append_extension_ordinary (base tail : List Char) (nonempty : base ≠ []) (full : tail ≠ []) :
    base ++ '.' :: tail ≠ [] ∧ base ++ '.' :: tail ≠ dot ∧ base ++ '.' :: tail ≠ dotDot := by
  have baseSize := List.length_pos_iff.mpr nonempty
  have tailSize := List.length_pos_iff.mpr full
  have size : 2 < (base ++ '.' :: tail).length := by
    simp only [List.length_append, List.length_cons]
    omega
  refine ⟨?_, ?_, ?_⟩
  all_goals
    intro same
    rw [same] at size
    simp [dot, dotDot] at size

theorem hasExtension_append (base tail : List Char) (nonempty : base ≠ [])
    (plain : ∀ c ∈ tail, c ≠ '.') (full : tail ≠ []) :
    hasExtension (base ++ '.' :: tail) = true := by
  have upto := uptoPeriod_append_extension base tail plain
  have notDot : base ++ ['.'] ≠ dot := by
    intro same
    exact nonempty (List.append_left_eq_self.mp same)
  have notDotDot := (append_extension_ordinary base tail nonempty full).2.2
  simp [hasExtension, upto, notDot, notDotDot]

/-- Appending `.tail` to a nonempty stem makes it the extension, when `tail` has no period. -/
theorem stem_append (base tail : List Char) (nonempty : base ≠ [])
    (plain : ∀ c ∈ tail, c ≠ '.') (full : tail ≠ []) : stem (base ++ '.' :: tail) = base := by
  rw [stem, if_pos (hasExtension_append base tail nonempty plain full),
    uptoPeriod_append_extension base tail plain, List.dropLast_concat]

theorem extension_append (base tail : List Char) (nonempty : base ≠ [])
    (plain : ∀ c ∈ tail, c ≠ '.') (full : tail ≠ []) :
    extension (base ++ '.' :: tail) = '.' :: tail := by
  have whole := stem_append_extension (base ++ '.' :: tail)
  rw [stem_append base tail nonempty plain full] at whole
  exact List.append_cancel_left whole

/-! ## The grammar -/

/-- The platform's choices in the pathname grammar. The laws say that a root name only depends
on which characters separate, and that giving the last filename another extension leaves a
root name that ended before it. -/
structure Grammar where
  isSeparator : Char → Bool
  preferred : Char
  rootNameLength : List Char → ℕ
  /-- Whether an absolute path needs a root name besides its root directory. -/
  absoluteNeedsRootName : Bool
  preferred_separator : isSeparator preferred = true
  period_plain : isSeparator '.' = false
  rootNameLength_le (text : List Char) : rootNameLength text ≤ text.length
  rootNameLength_preferred (text : List Char) :
    rootNameLength (text.map fun c => if isSeparator c then preferred else c) = rootNameLength text
  rootNameLength_extension (directory base old new : List Char) (nonempty : base ≠ [])
    (plainBase : ∀ c ∈ base, isSeparator c = false)
    (before : rootNameLength (directory ++ (base ++ old)) ≤ directory.length) :
    rootNameLength (directory ++ (base ++ '.' :: new)) = rootNameLength (directory ++ (base ++ old))

namespace Grammar

variable (g : Grammar)

def isPlain (c : Char) : Bool := !g.isSeparator c

/-- One character of `path::make_preferred`. -/
def prefer (c : Char) : Char := if g.isSeparator c then g.preferred else c

def makePreferred (text : List Char) : List Char := text.map g.prefer

def rootName (text : List Char) : List Char := text.take (g.rootNameLength text)

def afterRootName (text : List Char) : List Char := text.drop (g.rootNameLength text)

def hasRootDirectory (text : List Char) : Bool := (g.afterRootName text).head?.any g.isSeparator

def isAbsolute (text : List Char) : Bool :=
  g.hasRootDirectory text && (!g.absoluteNeedsRootName || !(g.rootName text).isEmpty)

/-- `path::filename`: what follows the last separator or the root name. -/
def filename (text : List Char) : List Char := (g.afterRootName text).rtakeWhile g.isPlain

/-- The directories before the filename, with the separator that ends them. -/
def directories (text : List Char) : List Char := (g.afterRootName text).rdropWhile g.isPlain

/-- Everything before the filename. -/
def directoryText (text : List Char) : List Char := g.rootName text ++ g.directories text

/-- `path::replace_extension`: a period is put in front of a replacement that has none. -/
def replaceExtension (text replacement : List Char) : List Char :=
  g.directoryText text ++ (stem (g.filename text) ++
    match replacement with
    | [] => []
    | '.' :: rest => '.' :: rest
    | other => '.' :: other)

/-- `path::parent_path`: the filename goes, and the separators in front of it, except those of
the root directory. -/
def parentPath (text : List Char) : List Char :=
  let relative := (g.afterRootName text).dropWhile g.isSeparator
  if relative.isEmpty then text
  else g.rootName text ++ (g.afterRootName text).takeWhile g.isSeparator ++
    (relative.rdropWhile g.isPlain).rdropWhile g.isSeparator

/-- `path::operator/`. -/
def append (text other : List Char) : List Char :=
  if g.isAbsolute other || (!(g.rootName other).isEmpty && g.rootName other != g.rootName text) then
    other
  else if g.hasRootDirectory other then g.rootName text ++ g.afterRootName other
  else if !(g.filename text).isEmpty || (!g.hasRootDirectory text && g.isAbsolute text) then
    text ++ g.preferred :: g.afterRootName other
  else text ++ g.afterRootName other

/-! ## Splitting off the filename -/

theorem rootName_append_afterRootName (text : List Char) :
    g.rootName text ++ g.afterRootName text = text := List.take_append_drop ..

@[simp] theorem rootName_length (text : List Char) :
    (g.rootName text).length = g.rootNameLength text := by
  rw [rootName, List.length_take, Nat.min_eq_left (g.rootNameLength_le text)]

theorem directories_append_filename (text : List Char) :
    g.directories text ++ g.filename text = g.afterRootName text :=
  List.rdropWhile_append_rtakeWhile ..

theorem directoryText_append_filename (text : List Char) :
    g.directoryText text ++ g.filename text = text := by
  rw [directoryText, List.append_assoc, directories_append_filename, rootName_append_afterRootName]

theorem filename_plain (text : List Char) : ∀ c ∈ g.filename text, g.isSeparator c = false := by
  intro c member
  simpa [isPlain] using List.mem_rtakeWhile_imp member

theorem directories_idempotent (text : List Char) :
    (g.directories text).rdropWhile g.isPlain = g.directories text :=
  List.rdropWhile_idempotent ..

/-- Text whose last separator ends it splits off any plain text appended to it. -/
theorem split_plain (closed name : List Char) (ends : closed.rdropWhile g.isPlain = closed)
    (plain : ∀ c ∈ name, g.isSeparator c = false) :
    (closed ++ name).rdropWhile g.isPlain = closed ∧ (closed ++ name).rtakeWhile g.isPlain = name := by
  have all : ∀ c ∈ name.reverse, g.isPlain c = true := by
    intro c member
    simpa [isPlain] using plain c (List.mem_reverse.mp member)
  have dropped : (closed ++ name).rdropWhile g.isPlain = closed := by
    rw [List.rdropWhile, List.reverse_append, List.dropWhile_append_of_pos all]
    exact ends
  refine ⟨dropped, ?_⟩
  have whole := List.rdropWhile_append_rtakeWhile (p := g.isPlain) (l := closed ++ name)
  rw [dropped] at whole
  exact List.append_cancel_left whole

/-- Appending a name without a root name puts it at the end. -/
theorem append_eq (text : List Char) {name : List Char} (relative : g.rootNameLength name = 0) :
    ∃ front, g.append text name = front ++ name := by
  have whole : g.afterRootName name = name := by rw [afterRootName, relative, List.drop_zero]
  unfold append
  split
  · exact ⟨[], rfl⟩
  · split
    · exact ⟨_, by rw [whole]⟩
    · split
      · exact ⟨text ++ [g.preferred], by simp [whole]⟩
      · exact ⟨text, by rw [whole]⟩

/-- Appending adds at most a separator. -/
theorem mem_append {text other : List Char} {c : Char} (member : c ∈ g.append text other) :
    c ∈ text ∨ c ∈ other ∨ c = g.preferred := by
  have below (inside : c ∈ g.afterRootName other) : c ∈ other := List.mem_of_mem_drop inside
  unfold append at member
  split at member
  · exact .inr (.inl member)
  · split at member
    · rcases List.mem_append.mp member with root | after
      · exact .inl (List.mem_of_mem_take root)
      · exact .inr (.inl (below after))
    · split at member
      · rcases List.mem_append.mp member with front | back
        · exact .inl front
        · rcases List.mem_cons.mp back with separator | after
          · exact .inr (.inr separator)
          · exact .inr (.inl (below after))
      · rcases List.mem_append.mp member with front | after
        · exact .inl front
        · exact .inr (.inl (below after))

/-! ## Preferred spellings -/

/-- Nothing is added but preferred separators. -/
theorem mem_makePreferred {text : List Char} {c : Char} (member : c ∈ g.makePreferred text) :
    c = g.preferred ∨ c ∈ text := by
  obtain ⟨d, inside, same⟩ := List.mem_map.mp member
  rw [prefer] at same
  split at same
  · exact .inl same.symm
  · exact .inr (same ▸ inside)

theorem prefer_eq_iff {c d : Char} (plain : g.isSeparator c = false) : g.prefer d = c ↔ d = c := by
  rw [prefer]
  split
  · next separator =>
    apply iff_of_false
    · rintro rfl
      rw [g.preferred_separator] at plain
      cases plain
    · rintro rfl
      rw [separator] at plain
      cases plain
  · rfl

theorem head?_makePreferred (text : List Char) {c : Char} (plain : g.isSeparator c = false) :
    (g.makePreferred text).head? = some c ↔ text.head? = some c := by
  cases text with
  | nil => rfl
  | cons d rest => simp [makePreferred, g.prefer_eq_iff plain]

/-! ## Changing the extension -/

/-- The text after a change of extension, when the path has a filename. -/
theorem replaceExtension_eq (text new : List Char) :
    g.replaceExtension text ('.' :: new) =
      g.directoryText text ++ (stem (g.filename text) ++ '.' :: new) := rfl

/-- A change of extension only adds the extension. -/
theorem mem_replaceExtension {text new : List Char} {c : Char}
    (member : c ∈ g.replaceExtension text ('.' :: new)) : c ∈ text ∨ c ∈ '.' :: new := by
  rw [replaceExtension_eq, ← List.append_assoc] at member
  rcases List.mem_append.mp member with kept | added
  · left
    rw [← g.directoryText_append_filename text, ← stem_append_extension (g.filename text), ← List.append_assoc]
    exact List.mem_append_left _ kept
  · exact .inr added

/-- A change of extension leaves the front, where only the extension itself can begin. -/
theorem head?_replaceExtension (text new : List Char) {c : Char} (other : c ≠ '.') :
    (g.replaceExtension text ('.' :: new)).head? = some c ↔ text.head? = some c := by
  rw [replaceExtension_eq]
  conv_rhs => rw [← g.directoryText_append_filename text, ← stem_append_extension (g.filename text)]
  cases g.directoryText text with
  | cons d front => rfl
  | nil =>
    cases g.filename text with
    | nil =>
      have empty : stem [] ++ extension [] = [] := rfl
      rw [List.nil_append, List.nil_append, empty]
      exact iff_of_false (fun same => other (Option.some.inj same).symm) (Option.some_ne_none c).symm
    | cons d name =>
      obtain ⟨e, base, shape⟩ := List.exists_cons_of_ne_nil (stem_ne_nil (List.cons_ne_nil d name))
      rw [shape]
      rfl

theorem rootNameLength_replaceExtension (text new : List Char) (named : g.filename text ≠ []) :
    g.rootNameLength (g.replaceExtension text ('.' :: new)) = g.rootNameLength text := by
  have whole : g.directoryText text ++ (stem (g.filename text) ++ extension (g.filename text)) = text := by
    rw [stem_append_extension, directoryText_append_filename]
  have plain := g.filename_plain text
  rw [← stem_append_extension (g.filename text)] at plain
  have unchanged := g.rootNameLength_extension (g.directoryText text) (stem (g.filename text))
    (extension (g.filename text)) new (stem_ne_nil named)
    (fun c member => plain c (List.mem_append_left _ member))
    (by rw [whole, directoryText, List.length_append, rootName_length]; omega)
  rw [replaceExtension_eq, unchanged, whole]

theorem rootName_replaceExtension (text new : List Char) (named : g.filename text ≠ []) :
    g.rootName (g.replaceExtension text ('.' :: new)) = g.rootName text := by
  rw [rootName, rootNameLength_replaceExtension g text new named, replaceExtension_eq,
    directoryText, List.append_assoc, ← rootName_length, List.take_left]

theorem afterRootName_replaceExtension (text new : List Char) (named : g.filename text ≠ []) :
    g.afterRootName (g.replaceExtension text ('.' :: new)) =
      g.directories text ++ (stem (g.filename text) ++ '.' :: new) := by
  rw [afterRootName, rootNameLength_replaceExtension g text new named, replaceExtension_eq,
    directoryText, List.append_assoc, ← rootName_length, List.drop_left]

private theorem renamed_plain (text new : List Char) (plain : ∀ c ∈ new, g.isSeparator c = false) :
    ∀ c ∈ stem (g.filename text) ++ '.' :: new, g.isSeparator c = false := by
  intro c member
  rcases List.mem_append.mp member with inStem | inNew
  · apply g.filename_plain text c
    rw [← stem_append_extension (g.filename text)]
    exact List.mem_append_left _ inStem
  · rcases List.mem_cons.mp inNew with rfl | inNew
    · exact g.period_plain
    · exact plain c inNew

theorem filename_replaceExtension (text new : List Char) (named : g.filename text ≠ [])
    (plain : ∀ c ∈ new, g.isSeparator c = false) :
    g.filename (g.replaceExtension text ('.' :: new)) = stem (g.filename text) ++ '.' :: new := by
  rw [filename, afterRootName_replaceExtension g text new named]
  exact (g.split_plain _ _ (g.directories_idempotent text) (g.renamed_plain text new plain)).2

theorem directories_replaceExtension (text new : List Char) (named : g.filename text ≠ [])
    (plain : ∀ c ∈ new, g.isSeparator c = false) :
    g.directories (g.replaceExtension text ('.' :: new)) = g.directories text := by
  rw [directories, afterRootName_replaceExtension g text new named]
  exact (g.split_plain _ _ (g.directories_idempotent text) (g.renamed_plain text new plain)).1

theorem directoryText_replaceExtension (text new : List Char) (named : g.filename text ≠ [])
    (plain : ∀ c ∈ new, g.isSeparator c = false) :
    g.directoryText (g.replaceExtension text ('.' :: new)) = g.directoryText text := by
  rw [directoryText, rootName_replaceExtension g text new named,
    directories_replaceExtension g text new named plain, directoryText]

/-! ## Preferred separators -/

@[simp] theorem isSeparator_prefer (c : Char) : g.isSeparator (g.prefer c) = g.isSeparator c := by
  unfold prefer
  split
  · next separates => rw [g.preferred_separator, separates]
  · rfl

@[simp] theorem isPlain_prefer (c : Char) : g.isPlain (g.prefer c) = g.isPlain c := by
  simp only [isPlain, isSeparator_prefer]

@[simp] theorem prefer_prefer (c : Char) : g.prefer (g.prefer c) = g.prefer c := by
  by_cases separates : g.isSeparator c = true
  · simp [prefer, separates, g.preferred_separator]
  · simp [prefer, separates]

@[simp] theorem makePreferred_makePreferred (text : List Char) :
    g.makePreferred (g.makePreferred text) = g.makePreferred text := by
  simp only [makePreferred, List.map_map, Function.comp_def, prefer_prefer]

theorem makePreferred_plain {text : List Char} (plain : ∀ c ∈ text, g.isSeparator c = false) :
    g.makePreferred text = text := by
  conv_rhs => rw [← List.map_id text]
  apply List.map_congr_left
  intro c member
  simp [prefer, plain c member]

@[simp] theorem rootNameLength_makePreferred (text : List Char) :
    g.rootNameLength (g.makePreferred text) = g.rootNameLength text := g.rootNameLength_preferred text

theorem rootName_makePreferred (text : List Char) :
    g.rootName (g.makePreferred text) = g.makePreferred (g.rootName text) := by
  rw [rootName, rootNameLength_makePreferred, makePreferred, ← List.map_take, rootName, makePreferred]

theorem afterRootName_makePreferred (text : List Char) :
    g.afterRootName (g.makePreferred text) = g.makePreferred (g.afterRootName text) := by
  rw [afterRootName, rootNameLength_makePreferred, makePreferred, ← List.map_drop, afterRootName,
    makePreferred]

theorem hasRootDirectory_makePreferred (text : List Char) :
    g.hasRootDirectory (g.makePreferred text) = g.hasRootDirectory text := by
  rw [hasRootDirectory, afterRootName_makePreferred, hasRootDirectory]
  cases g.afterRootName text <;> simp [makePreferred]

theorem makePreferred_append (first second : List Char) :
    g.makePreferred (first ++ second) = g.makePreferred first ++ g.makePreferred second :=
  List.map_append

/-- A filename is spelt the same in preferred separators. -/
theorem filename_makePreferred (text : List Char) : g.filename (g.makePreferred text) = g.filename text := by
  have plain := g.makePreferred_plain (g.filename_plain text)
  rw [filename, afterRootName_makePreferred, makePreferred, List.rtakeWhile, ← List.map_reverse,
    List.takeWhile_map, ← List.map_reverse]
  simp only [Function.comp_def, isPlain_prefer]
  exact plain

theorem directories_makePreferred (text : List Char) :
    g.directories (g.makePreferred text) = g.makePreferred (g.directories text) := by
  rw [directories, afterRootName_makePreferred, makePreferred, List.rdropWhile, ← List.map_reverse,
    List.dropWhile_map, ← List.map_reverse]
  simp only [Function.comp_def, isPlain_prefer]
  rfl

theorem directoryText_makePreferred (text : List Char) :
    g.directoryText (g.makePreferred text) = g.makePreferred (g.directoryText text) := by
  rw [directoryText, rootName_makePreferred, directories_makePreferred, directoryText,
    makePreferred_append]

/-- Two changes of extension give the same text exactly when the directories are spelt alike and the
stems agree. -/
theorem makePreferred_replaceExtension_inj {first second new : List Char} (firstNamed : g.filename first ≠ [])
    (secondNamed : g.filename second ≠ []) (plain : ∀ c ∈ new, g.isSeparator c = false) :
    g.makePreferred (g.replaceExtension first ('.' :: new)) =
        g.makePreferred (g.replaceExtension second ('.' :: new)) ↔
      g.makePreferred (g.directoryText first) = g.makePreferred (g.directoryText second) ∧
        stem (g.filename first) = stem (g.filename second) := by
  constructor
  · intro same
    have names := congrArg g.filename same
    rw [filename_makePreferred, filename_makePreferred, filename_replaceExtension g first new firstNamed plain,
      filename_replaceExtension g second new secondNamed plain] at names
    have places := congrArg g.directoryText same
    rw [directoryText_makePreferred, directoryText_makePreferred,
      directoryText_replaceExtension g first new firstNamed plain,
      directoryText_replaceExtension g second new secondNamed plain] at places
    exact ⟨places, List.append_cancel_right names⟩
  · rintro ⟨places, stems⟩
    simp only [replaceExtension_eq, makePreferred_append, places, stems]

end Grammar

/-! ## The two grammars in use -/

/-- POSIX: `/` separates and there are no root names. -/
def posix : Grammar where
  isSeparator c := c == '/'
  preferred := '/'
  rootNameLength _ := 0
  absoluteNeedsRootName := false
  preferred_separator := rfl
  period_plain := rfl
  rootNameLength_le _ := Nat.zero_le _
  rootNameLength_preferred _ := rfl
  rootNameLength_extension _ _ _ _ _ _ _ := rfl

/-- On POSIX there is only one spelling of a separator. -/
theorem posix_makePreferred (text : List Char) : posix.makePreferred text = text := by
  conv_rhs => rw [← List.map_id text]
  apply List.map_congr_left
  intro c _
  by_cases slash : c = '/' <;> simp [Grammar.prefer, posix, slash]

def windowsSeparator (c : Char) : Bool := c == '\\' || c == '/'

/-- A drive letter with its colon, or two separators and a server name. -/
def windowsRootNameLength : List Char → ℕ
  | c :: ':' :: _ => if c.isAlpha then 2 else 0
  | a :: b :: c :: rest =>
      if windowsSeparator a && windowsSeparator b && !windowsSeparator c then
        3 + (rest.takeWhile fun c => !windowsSeparator c).length
      else 0
  | _ => 0

private theorem windowsRootNameLength_le (text : List Char) :
    windowsRootNameLength text ≤ text.length := by
  fun_cases windowsRootNameLength text with
  | case1 c rest letter => simp
  | case2 => exact Nat.zero_le _
  | case3 a b c rest _ share =>
    have shorter := (List.takeWhile_prefix (l := rest) fun c => !windowsSeparator c).length_le
    simp only [List.length_cons]
    omega
  | case4 => exact Nat.zero_le _
  | case5 => exact Nat.zero_le _

private def windowsPrefer (c : Char) : Char := if windowsSeparator c then '\\' else c

private theorem windowsSeparator_prefer (c : Char) :
    windowsSeparator (windowsPrefer c) = windowsSeparator c := by
  unfold windowsPrefer
  split
  · next separates => rw [separates]; rfl
  · rfl

private theorem windowsPrefer_colon {c : Char} (other : c ≠ ':') : windowsPrefer c ≠ ':' := by
  unfold windowsPrefer
  split
  · decide
  · exact other

private theorem windowsPrefer_isAlpha (c : Char) : (windowsPrefer c).isAlpha = c.isAlpha := by
  unfold windowsPrefer
  split
  · next separates =>
    have either : c = '\\' ∨ c = '/' := by simpa [windowsSeparator] using separates
    rcases either with rfl | rfl <;> decide
  · rfl

theorem windowsRootNameLength_share {a b c : Char} (rest : List Char) (noDrive : b ≠ ':') :
    windowsRootNameLength (a :: b :: c :: rest) =
      if windowsSeparator a && windowsSeparator b && !windowsSeparator c then
        3 + (rest.takeWhile fun c => !windowsSeparator c).length
      else 0 := by
  rw [windowsRootNameLength]
  intro same
  exact noDrive same

theorem windowsRootNameLength_short {a b : Char} (noDrive : b ≠ ':') :
    windowsRootNameLength [a, b] = 0 := by
  rw [windowsRootNameLength]
  · intro c rest same
    exact noDrive (by cases same; rfl)
  · intro a b c rest same
    cases same

private theorem windowsRootNameLength_preferred (text : List Char) :
    windowsRootNameLength (text.map windowsPrefer) = windowsRootNameLength text := by
  match text with
  | [] => rfl
  | [_] => rfl
  | a :: b :: rest =>
    by_cases drive : b = ':'
    · subst drive
      change windowsRootNameLength (windowsPrefer a :: ':' :: _) = _
      simp only [windowsRootNameLength, windowsPrefer_isAlpha]
    · have noDrive := windowsPrefer_colon drive
      match rest with
      | [] =>
        rw [windowsRootNameLength_short drive]
        exact windowsRootNameLength_short noDrive
      | c :: rest =>
        simp only [List.map_cons]
        rw [windowsRootNameLength_share _ drive, windowsRootNameLength_share _ noDrive]
        simp only [windowsSeparator_prefer, List.takeWhile_map, Function.comp_def, List.length_map]

/-- A plain name at the front of a path is no root name, unless its second character is a colon. -/
theorem windowsRootNameLength_plain {a b : Char} (rest : List Char)
    (plain : windowsSeparator a = false) (noDrive : b ≠ ':') :
    windowsRootNameLength (a :: b :: rest) = 0 := by
  cases rest with
  | nil => exact windowsRootNameLength_short noDrive
  | cons c rest => simp [windowsRootNameLength_share rest noDrive, plain]

private theorem takeWhile_stops {p : Char → Bool} {front : List Char} {c : Char}
    (back : List Char) (accepted : p c = true)
    (bound : ((front ++ c :: back).takeWhile p).length ≤ front.length) (other : List Char) :
    (front ++ other).takeWhile p = front.takeWhile p := by
  rw [List.takeWhile_append] at bound ⊢
  split at bound
  · simp only [List.length_append, List.takeWhile_cons_of_pos accepted, List.length_cons] at bound
    omega
  · next stops => rw [if_neg stops]

private theorem windowsRootNameLength_extension (directory base old new : List Char)
    (nonempty : base ≠ []) (plainBase : ∀ c ∈ base, windowsSeparator c = false)
    (before : windowsRootNameLength (directory ++ (base ++ old)) ≤ directory.length) :
    windowsRootNameLength (directory ++ (base ++ '.' :: new)) =
      windowsRootNameLength (directory ++ (base ++ old)) := by
  obtain ⟨s, base, rfl⟩ := List.exists_cons_of_ne_nil nonempty
  have plain := plainBase s (List.mem_cons_self ..)
  match directory with
  | [] =>
    -- the path is a bare name, so only a drive letter could make a root name of it
    have none := Nat.le_zero.mp before
    simp only [List.nil_append, List.cons_append] at none ⊢
    rw [none]
    match base with
    | [] => exact windowsRootNameLength_plain _ plain (by decide)
    | t :: base =>
      by_cases drive : t = ':'
      · subst drive
        simpa only [List.cons_append, windowsRootNameLength] using none
      · exact windowsRootNameLength_plain _ plain drive
  | [a] =>
    simp only [List.cons_append, List.nil_append, List.length_cons, List.length_nil] at before ⊢
    by_cases drive : s = ':'
    · subst drive
      simp only [windowsRootNameLength]
    · have shared (rest : List Char) : windowsRootNameLength (a :: s :: rest) = 0 := by
        cases rest with
        | nil => exact windowsRootNameLength_short drive
        | cons c rest => simp [windowsRootNameLength_share rest drive, plain]
      rw [shared, shared]
  | [a, b] =>
    simp only [List.cons_append, List.nil_append, List.length_cons, List.length_nil] at before ⊢
    by_cases drive : b = ':'
    · subst drive
      simp only [windowsRootNameLength]
    · -- a server name starting here would reach past the directory
      rw [windowsRootNameLength_share _ drive] at before
      rw [windowsRootNameLength_share _ drive, windowsRootNameLength_share _ drive]
      split at before
      · omega
      · next noShare => rw [if_neg noShare, if_neg noShare]
  | a :: b :: c :: rest =>
    simp only [List.cons_append, List.length_cons] at before ⊢
    by_cases drive : b = ':'
    · subst drive
      simp only [windowsRootNameLength]
    · rw [windowsRootNameLength_share _ drive] at before
      rw [windowsRootNameLength_share _ drive, windowsRootNameLength_share _ drive]
      split at before
      · next share =>
        have accepted : (!windowsSeparator s) = true := by simp [plain]
        have bound : ((rest ++ s :: (base ++ old)).takeWhile fun c => !windowsSeparator c).length ≤
            rest.length := by omega
        have stops := takeWhile_stops (base ++ old) accepted bound
        rw [if_pos share, if_pos share, stops, stops]
      · next noShare => rw [if_neg noShare, if_neg noShare]

/-- Windows: both slashes separate, and a root name is a drive or a server. -/
def windows : Grammar where
  isSeparator := windowsSeparator
  preferred := '\\'
  rootNameLength := windowsRootNameLength
  absoluteNeedsRootName := true
  preferred_separator := rfl
  period_plain := rfl
  rootNameLength_le := windowsRootNameLength_le
  rootNameLength_preferred := windowsRootNameLength_preferred
  rootNameLength_extension := windowsRootNameLength_extension

end Pathname
