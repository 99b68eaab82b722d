import GasAdapter.Library.Pathname

/-! # Lexical normal forms of pathnames

`path::lexically_normal` drops `.` names, lets every `..` cancel the name before it, and keeps a
final separator only where a directory was named. `NormalForm` is the pathname it arrives at,
before it is written out as text; two paths are the same after lexical normalisation when their
normal forms agree. A path that ends in an ordinary filename normalises to its directory's
normal form followed by that filename.
-/

namespace Pathname

/-- The names in a text: its longest pieces without separators. `current` is the piece that is
being read. -/
def namesFrom (separates : Char → Bool) (current : List Char) : List Char → List (List Char)
  | [] => if current.isEmpty then [] else [current]
  | c :: rest =>
      if separates c then
        if current.isEmpty then namesFrom separates [] rest
        else current :: namesFrom separates [] rest
      else namesFrom separates (current ++ [c]) rest

theorem namesFrom_plain {separates : Char → Bool} (current name : List Char)
    (plain : ∀ c ∈ name, separates c = false) (nonempty : current ++ name ≠ []) :
    namesFrom separates current name = [current ++ name] := by
  induction name generalizing current with
  | nil =>
    have full : current ≠ [] := by simpa using nonempty
    simp [namesFrom, full]
  | cons c rest ih =>
    have tail := ih (current ++ [c]) (fun d member => plain d (List.mem_cons_of_mem _ member)) (by simp)
    simpa [namesFrom, plain c (List.mem_cons_self ..)] using tail

/-- A plain name appended to text that is empty or ends in a separator is one more name. -/
theorem namesFrom_append {separates : Char → Bool} (current closed name : List Char)
    (started : closed = [] → current = []) (ends : ∀ c ∈ closed.getLast?, separates c = true)
    (plain : ∀ c ∈ name, separates c = false) (nonempty : name ≠ []) :
    namesFrom separates current (closed ++ name) = namesFrom separates current closed ++ [name] := by
  induction closed generalizing current with
  | nil =>
    obtain rfl := started rfl
    simpa [namesFrom] using namesFrom_plain [] name plain nonempty
  | cons c rest ih =>
    have endsRest : ∀ d ∈ rest.getLast?, separates d = true := by
      intro d member
      exact ends d (by simp [List.getLast?_cons, Option.mem_def.mp member])
    by_cases separator : separates c = true
    · have tail := ih [] (fun _ => rfl) endsRest
      simp only [List.cons_append, namesFrom, separator, ↓reduceIte, tail]
      split <;> simp
    · -- a plain character cannot end the closed text, so more of it follows
      have more : rest ≠ [] := by
        rintro rfl
        exact separator (ends c rfl)
      have tail := ih (current ++ [c]) (fun none => (more none).elim) endsRest
      simp only [List.cons_append, namesFrom, separator, Bool.false_eq_true, ↓reduceIte, tail]

theorem namesFrom_map {separates : Char → Bool} (change : Char → Char)
    (kept : ∀ c, separates (change c) = separates c)
    (fixed : ∀ c, separates c = false → change c = c) (current text : List Char) :
    namesFrom separates current (text.map change) = namesFrom separates current text := by
  induction text generalizing current with
  | nil => rfl
  | cons c rest ih =>
    by_cases separator : separates c = true
    · simp only [List.map_cons, namesFrom, kept, separator, ↓reduceIte, ih]
    · have same : change c = c := fixed c (by simpa using separator)
      simp only [List.map_cons, namesFrom, same, separator, Bool.false_eq_true, ↓reduceIte, ih]

/-- One name read onto the stack of names kept so far, the last of them on top. -/
def pushName (rooted : Bool) (stack : List (List Char)) (name : List Char) : List (List Char) :=
  if name = dot then stack
  else if name = dotDot then
    match stack with
    | [] => if rooted then [] else [dotDot]
    | top :: below => if top = dotDot then dotDot :: stack else below
  else name :: stack

/-- The names left once `.` and `..` have been worked off. -/
def collapse (rooted : Bool) (names : List (List Char)) : List (List Char) :=
  (names.foldl (pushName rooted) []).reverse

theorem collapse_concat (rooted : Bool) (names : List (List Char)) {name : List Char}
    (notDot : name ≠ dot) (notDotDot : name ≠ dotDot) :
    collapse rooted (names ++ [name]) = collapse rooted names ++ [name] := by
  have pushed (stack : List (List Char)) : pushName rooted stack name = name :: stack := by
    unfold pushName
    rw [if_neg notDot, if_neg notDotDot]
  simp only [collapse, List.foldl_append, List.foldl_cons, List.foldl_nil, pushed, List.reverse_cons]

/-- A pathname in normal form. `trailing` says that a separator follows the last name. -/
structure NormalForm where
  rootName : List Char
  rootDirectory : Bool
  names : List (List Char)
  trailing : Bool
deriving DecidableEq, Repr

/-- A file of the given name in a directory. -/
def NormalForm.file (directory : NormalForm) (name : List Char) : NormalForm :=
  { directory with names := directory.names ++ [name] }

theorem NormalForm.file_injective {first second : NormalForm} {name other : List Char} :
    first.file name = second.file other ↔ first = second ∧ name = other := by
  constructor
  · intro same
    obtain ⟨rootName, rootDirectory, names, trailing⟩ := first
    obtain ⟨rootName', rootDirectory', names', trailing'⟩ := second
    simp only [NormalForm.file, NormalForm.mk.injEq] at same ⊢
    obtain ⟨sameRoot, sameRooted, sameNames, sameTrailing⟩ := same
    obtain ⟨sameFront, sameLast⟩ := List.append_inj' sameNames rfl
    exact ⟨⟨sameRoot, sameRooted, sameFront, sameTrailing⟩, List.singleton_inj.mp sameLast⟩
  · rintro ⟨rfl, rfl⟩
    rfl

namespace Grammar

variable (g : Grammar)

def names (text : List Char) : List (List Char) := namesFrom g.isSeparator [] (g.afterRootName text)

def normalNames (text : List Char) : List (List Char) :=
  collapse (g.hasRootDirectory text) (g.names text)

/-- The path names a directory: it ends in a separator, or in a `.` or `..` that goes away. -/
def endsInDirectory (text : List Char) : Bool :=
  (g.afterRootName text).getLast?.any g.isSeparator ||
    (g.names text).getLast? == some dot || (g.names text).getLast? == some dotDot

/-- The pathname `path::lexically_normal` arrives at. -/
def normalForm (text : List Char) : NormalForm where
  rootName := g.makePreferred (g.rootName text)
  rootDirectory := g.hasRootDirectory text
  names := g.normalNames text
  trailing := g.endsInDirectory text && (g.normalNames text).getLast?.any (· != dotDot)

/-- The parts of a normal form one after the other. -/
def spell (form : NormalForm) : List Char :=
  form.rootName ++ ((if form.rootDirectory then [g.preferred] else []) ++
    ([g.preferred].intercalate form.names ++ (if form.trailing then [g.preferred] else [])))

/-- The normal form written out; nothing at all is written as `.`. -/
def render (form : NormalForm) : List Char :=
  if (g.spell form).isEmpty then dot else g.spell form

/-- `path::lexically_normal`. -/
def lexicallyNormal (text : List Char) : List Char :=
  if text.isEmpty then [] else g.render (g.normalForm text)

/-- Two paths are the same after lexical normalisation. -/
def SameFile (first second : List Char) : Prop := g.normalForm first = g.normalForm second

instance (first second : List Char) : Decidable (g.SameFile first second) :=
  inferInstanceAs (Decidable (_ = _))

theorem SameFile.lexicallyNormal_eq {first second : List Char} (same : g.SameFile first second)
    (firstFull : first ≠ []) (secondFull : second ≠ []) :
    g.lexicallyNormal first = g.lexicallyNormal second := by
  rw [lexicallyNormal, lexicallyNormal, if_neg (by simpa using firstFull),
    if_neg (by simpa using secondFull), same]

/-- Where the directories of a path lie: its normal form without the filename. -/
def directoryForm (text : List Char) : NormalForm where
  rootName := g.makePreferred (g.rootName text)
  rootDirectory := g.hasRootDirectory text
  names := collapse (g.hasRootDirectory text) (namesFrom g.isSeparator [] (g.directories text))
  trailing := false

/-! ## Paths that end in an ordinary filename -/

theorem directories_ends (text : List Char) :
    ∀ c ∈ (g.directories text).getLast?, g.isSeparator c = true := by
  intro c member
  have nonempty : g.directories text ≠ [] := by
    intro none
    simp [none] at member
  have last := List.rdropWhile_last_not g.isPlain (g.afterRootName text) nonempty
  rw [List.getLast?_eq_getLast_of_ne_nil nonempty, Option.mem_some_iff] at member
  rw [← member]
  change ¬g.isPlain ((g.directories text).getLast nonempty) = true at last
  simpa [isPlain] using last

theorem names_eq (text : List Char) (named : g.filename text ≠ []) :
    g.names text = namesFrom g.isSeparator [] (g.directories text) ++ [g.filename text] := by
  rw [names, ← directories_append_filename]
  exact namesFrom_append [] _ _ (fun _ => rfl) (g.directories_ends text) (g.filename_plain text) named

/-- A path that ends in an ordinary filename is that file in the path's directory. -/
theorem normalForm_of_filename (text : List Char) (named : g.filename text ≠ [])
    (notDot : g.filename text ≠ dot) (notDotDot : g.filename text ≠ dotDot) :
    g.normalForm text = (g.directoryForm text).file (g.filename text) := by
  have lastPlain : (g.afterRootName text).getLast?.any g.isSeparator = false := by
    rw [← directories_append_filename, List.getLast?_append_of_ne_nil _ named,
      List.getLast?_eq_getLast_of_ne_nil named]
    exact g.filename_plain text _ (List.getLast_mem named)
  have lastName : (g.names text).getLast? = some (g.filename text) := by
    rw [names_eq g text named, List.getLast?_concat]
  have stays : g.endsInDirectory text = false := by
    simp [endsInDirectory, lastPlain, lastName, notDot, notDotDot]
  have collapsed : g.normalNames text =
      (g.directoryForm text).names ++ [g.filename text] := by
    rw [normalNames, names_eq g text named, collapse_concat _ _ notDot notDotDot]
    rfl
  simp only [normalForm, stays, Bool.false_and, collapsed]
  rfl

/-- A path without an ordinary filename names a directory, or only a root. -/
theorem endsInDirectory_of_filename (text : List Char) (below : g.afterRootName text ≠ [])
    (special : g.filename text = [] ∨ g.filename text = dot ∨ g.filename text = dotDot) :
    g.endsInDirectory text = true := by
  rcases special with none | isDot | isDotDot
  · have whole := g.directories_append_filename text
    rw [none, List.append_nil] at whole
    have last := g.directories_ends text
    rw [whole, List.getLast?_eq_getLast_of_ne_nil below] at last
    simp [endsInDirectory, List.getLast?_eq_getLast_of_ne_nil below, last]
  · have lastName := congrArg List.getLast? (g.names_eq text (by simp [isDot, dot]))
    rw [List.getLast?_concat, isDot] at lastName
    simp [endsInDirectory, lastName]
  · have lastName := congrArg List.getLast? (g.names_eq text (by simp [isDotDot, dotDot]))
    rw [List.getLast?_concat, isDotDot] at lastName
    simp [endsInDirectory, lastName]

/-- Only a path with that very filename normalises to a file of an ordinary name. -/
theorem normalForm_eq_file_iff (text : List Char) (directory : NormalForm) {name : List Char}
    (closed : directory.trailing = false) (named : name ≠ []) (notDot : name ≠ dot)
    (notDotDot : name ≠ dotDot) :
    g.normalForm text = directory.file name ↔
      g.directoryForm text = directory ∧ g.filename text = name := by
  by_cases special : g.filename text = [] ∨ g.filename text = dot ∨ g.filename text = dotDot
  · -- a directory keeps its trailing separator, so its normal form is no file
    constructor
    · intro same
      have sameNames : g.normalNames text = directory.names ++ [name] :=
        congrArg NormalForm.names same
      have sameTrailing := congrArg NormalForm.trailing same
      have below : g.afterRootName text ≠ [] := by
        intro none
        simp [normalNames, names, none, namesFrom, collapse] at sameNames
      simp [normalForm, NormalForm.file, closed, sameNames, notDotDot,
        g.endsInDirectory_of_filename text below special] at sameTrailing
    · rintro ⟨-, rfl⟩
      rcases special with none | isDot | isDotDot
      · exact (named none).elim
      · exact (notDot isDot).elim
      · exact (notDotDot isDotDot).elim
  · push Not at special
    rw [g.normalForm_of_filename text special.1 special.2.1 special.2.2, NormalForm.file_injective]

/-! ## Normal forms and changes of spelling -/

@[simp] theorem names_makePreferred (text : List Char) :
    g.names (g.makePreferred text) = g.names text := by
  rw [names, afterRootName_makePreferred]
  apply namesFrom_map _ g.isSeparator_prefer
  intro c plain
  simp [prefer, plain]

theorem endsInDirectory_makePreferred (text : List Char) :
    g.endsInDirectory (g.makePreferred text) = g.endsInDirectory text := by
  have last : ((g.makePreferred (g.afterRootName text)).getLast?.any g.isSeparator) =
      (g.afterRootName text).getLast?.any g.isSeparator := by
    rw [makePreferred, List.getLast?_map]
    cases (g.afterRootName text).getLast? <;> simp
  rw [endsInDirectory, afterRootName_makePreferred, names_makePreferred, last, endsInDirectory]

/-- The spelling of separators does not matter to the normal form. -/
@[simp] theorem normalForm_makePreferred (text : List Char) :
    g.normalForm (g.makePreferred text) = g.normalForm text := by
  simp only [normalForm, normalNames, rootName_makePreferred, makePreferred_makePreferred,
    hasRootDirectory_makePreferred, names_makePreferred, endsInDirectory_makePreferred]

theorem hasRootDirectory_eq (text : List Char) :
    g.hasRootDirectory text = (g.directories text).head?.any g.isSeparator := by
  rw [hasRootDirectory, ← directories_append_filename]
  cases none : g.directories text with
  | cons c rest => rfl
  | nil =>
    have plain := g.filename_plain text
    cases name : g.filename text with
    | nil => rfl
    | cons c rest =>
      rw [name] at plain
      exact plain c (List.mem_cons_self ..)

/-- A change of extension leaves the directories where they are. -/
theorem directoryForm_replaceExtension (text new : List Char) (named : g.filename text ≠ [])
    (plain : ∀ c ∈ new, g.isSeparator c = false) :
    g.directoryForm (g.replaceExtension text ('.' :: new)) = g.directoryForm text := by
  simp only [directoryForm, hasRootDirectory_eq, rootName_replaceExtension g text new named,
    directories_replaceExtension g text new named plain]

/-- A path with another extension normalises to the renamed file in the same directory. -/
theorem normalForm_replaceExtension (text new : List Char) (named : g.filename text ≠ [])
    (plain : ∀ c ∈ new, g.isSeparator c = false) (full : new ≠ []) :
    g.normalForm (g.replaceExtension text ('.' :: new)) =
      (g.directoryForm text).file (stem (g.filename text) ++ '.' :: new) := by
  have renamed := g.filename_replaceExtension text new named plain
  obtain ⟨nonempty, notDot, notDotDot⟩ :=
    append_extension_ordinary (stem (g.filename text)) new (stem_ne_nil named) full
  rw [← renamed] at nonempty notDot notDotDot
  rw [g.normalForm_of_filename _ nonempty notDot notDotDot, renamed,
    g.directoryForm_replaceExtension text new named plain]

end Grammar

/-! ## Writing normal forms out -/

theorem mem_namesFrom {separates : Char → Bool} {current text name : List Char}
    (plain : ∀ c ∈ current, separates c = false) (member : name ∈ namesFrom separates current text) :
    name ≠ [] ∧ ∀ c ∈ name, separates c = false := by
  induction text generalizing current with
  | nil =>
    simp only [namesFrom] at member
    split at member
    · contradiction
    · next full =>
      obtain rfl := List.mem_singleton.mp member
      exact ⟨by simpa using full, plain⟩
  | cons c rest ih =>
    simp only [namesFrom] at member
    split at member
    · split at member
      · exact ih (by simp) member
      · next full =>
        rcases List.mem_cons.mp member with rfl | later
        · exact ⟨by simpa using full, plain⟩
        · exact ih (by simp) later
    · next plainHead =>
      apply ih _ member
      intro d inside
      rcases List.mem_append.mp inside with old | new
      · exact plain d old
      · rw [List.mem_singleton.mp new]
        simpa using plainHead

/-- The characters of a name come from the text. -/
theorem mem_of_mem_namesFrom {separates : Char → Bool} {current text name : List Char}
    (member : name ∈ namesFrom separates current text) : ∀ c ∈ name, c ∈ current ∨ c ∈ text := by
  induction text generalizing current with
  | nil =>
    simp only [namesFrom] at member
    split at member
    · cases member
    · obtain rfl := List.mem_singleton.mp member
      exact fun c inside => .inl inside
  | cons d rest ih =>
    intro c inside
    simp only [namesFrom] at member
    split at member
    · split at member
      · exact .inr (List.mem_cons_of_mem _ ((ih member c inside).resolve_left List.not_mem_nil))
      · rcases List.mem_cons.mp member with rfl | found
        · exact .inl inside
        · exact .inr (List.mem_cons_of_mem _ ((ih found c inside).resolve_left List.not_mem_nil))
    · rcases ih member c inside with old | new
      · rcases List.mem_append.mp old with before | same
        · exact .inl before
        · exact .inr (List.mem_singleton.mp same ▸ List.mem_cons_self ..)
      · exact .inr (List.mem_cons_of_mem _ new)

/-- Joining texts adds only separators. -/
theorem mem_intercalate {α : Type*} {separator c : α} {parts : List (List α)}
    (member : c ∈ [separator].intercalate parts) : c = separator ∨ ∃ part ∈ parts, c ∈ part := by
  induction parts with
  | nil => simp at member
  | cons part rest ih =>
    cases rest with
    | nil => exact .inr ⟨part, List.mem_singleton_self _, by simpa using member⟩
    | cons next rest =>
      rw [List.intercalate_cons_cons, List.mem_append, List.mem_append, List.mem_singleton] at member
      rcases member with (here | same) | later
      · exact .inr ⟨part, List.mem_cons_self .., here⟩
      · exact .inl same
      · exact (ih later).imp id fun ⟨other, listed, inside⟩ =>
          ⟨other, List.mem_cons_of_mem _ listed, inside⟩

private theorem mem_pushName {rooted : Bool} {stack : List (List Char)} {name kept : List Char}
    (member : kept ∈ pushName rooted stack name) :
    kept ∈ stack ∨ (kept ≠ dot ∧ (kept = name ∨ kept = dotDot)) := by
  unfold pushName at member
  split at member
  · exact .inl member
  · next notDot =>
    split at member
    · next isDotDot =>
      split at member
      · split at member
        · contradiction
        · obtain rfl := List.mem_singleton.mp member
          exact .inr ⟨by decide, .inr rfl⟩
      · next top below =>
        split at member
        · rcases List.mem_cons.mp member with rfl | old
          · exact .inr ⟨by decide, .inr rfl⟩
          · exact .inl old
        · exact .inl (List.mem_cons_of_mem _ member)
    · rcases List.mem_cons.mp member with rfl | old
      · exact .inr ⟨notDot, .inl rfl⟩
      · exact .inl old

/-- What is left after collapsing was there before or is a `..` that found nothing to cancel. -/
theorem mem_collapse {rooted : Bool} {names : List (List Char)} {kept : List Char}
    (member : kept ∈ collapse rooted names) : kept ≠ dot ∧ (kept ∈ names ∨ kept = dotDot) := by
  have fold (stack : List (List Char)) (present : kept ∈ names.foldl (pushName rooted) stack) :
      kept ∈ stack ∨ (kept ≠ dot ∧ (kept ∈ names ∨ kept = dotDot)) := by
    clear member
    induction names generalizing stack with
    | nil => exact .inl present
    | cons name rest ih =>
      rcases ih _ present with pushed | ⟨notDot, later | climbs⟩
      · rcases mem_pushName pushed with old | ⟨notDot, rfl | climbs⟩
        · exact .inl old
        · exact .inr ⟨notDot, .inl (List.mem_cons_self ..)⟩
        · exact .inr ⟨notDot, .inr climbs⟩
      · exact .inr ⟨notDot, .inl (List.mem_cons_of_mem _ later)⟩
      · exact .inr ⟨notDot, .inr climbs⟩
  rcases fold [] (List.mem_reverse.mp member) with none | found
  · contradiction
  · exact found

/-- A separator ends the name before it. -/
theorem namesFrom_separator {separates : Char → Bool} (current name rest : List Char) {c : Char}
    (plain : ∀ d ∈ name, separates d = false) (nonempty : current ++ name ≠ [])
    (separator : separates c = true) :
    namesFrom separates current (name ++ c :: rest) =
      (current ++ name) :: namesFrom separates [] rest := by
  induction name generalizing current with
  | nil =>
    have full : current ≠ [] := by simpa using nonempty
    simp [namesFrom, separator, full]
  | cons d name ih =>
    have tail := ih (current ++ [d]) (fun e member => plain e (List.mem_cons_of_mem _ member)) (by simp)
    simpa [namesFrom, plain d (List.mem_cons_self ..)] using tail

/-- The names of a text that was put together from names are those names. -/
theorem namesFrom_intercalate {separates : Char → Bool} {c : Char} (separator : separates c = true)
    (names : List (List Char)) (plain : ∀ name ∈ names, name ≠ [] ∧ ∀ d ∈ name, separates d = false)
    (trailing : Bool) :
    namesFrom separates [] ([c].intercalate names ++ if trailing then [c] else []) = names := by
  induction names with
  | nil => cases trailing <;> simp [List.intercalate, namesFrom, separator]
  | cons name rest ih =>
    obtain ⟨nonempty, plainName⟩ := plain name (List.mem_cons_self ..)
    have tail := ih (fun other member => plain other (List.mem_cons_of_mem _ member))
    cases rest with
    | nil =>
      cases trailing with
      | false => simpa using namesFrom_plain [] name plainName nonempty
      | true => simpa [namesFrom] using namesFrom_separator [] name [] plainName nonempty separator
    | cons next rest =>
      have joined : [c].intercalate (name :: next :: rest) =
          name ++ c :: [c].intercalate (next :: rest) := by simp [List.intercalate]
      rw [joined, List.append_assoc, List.cons_append,
        namesFrom_separator [] name _ plainName nonempty separator, tail, List.nil_append]

/-- The normal forms of a platform without root names. -/
structure NormalForm.Rootless (g : Grammar) (form : NormalForm) : Prop where
  rootName : form.rootName = []
  names : ∀ name ∈ form.names, name ≠ [] ∧ ∀ c ∈ name, g.isSeparator c = false
  noDot : dot ∉ form.names
  trailing : form.trailing = true → form.names ≠ []

namespace Grammar

variable (g : Grammar)

theorem normalForm_rootless (rootless : ∀ text, g.rootNameLength text = 0) (text : List Char) :
    (g.normalForm text).Rootless g where
  rootName := by simp [normalForm, rootName, rootless, makePreferred]
  names name member := by
    obtain ⟨-, old | climbs⟩ := mem_collapse member
    · exact mem_namesFrom (by simp) old
    · rw [climbs]
      exact ⟨by decide, fun c inside => by
        rw [show c = '.' by simpa [dotDot] using inside]
        exact g.period_plain⟩
  noDot member := (mem_collapse member).1 rfl
  trailing ends := by
    intro none
    change g.normalNames text = [] at none
    simp [normalForm, none] at ends

variable {g}

private theorem names_spell {form : NormalForm} (wellFormed : form.Rootless g) :
    namesFrom g.isSeparator [] (g.spell form) = form.names := by
  have joined := namesFrom_intercalate g.preferred_separator form.names wellFormed.names form.trailing
  rw [spell, wellFormed.rootName, List.nil_append]
  split
  · simpa [namesFrom, g.preferred_separator] using joined
  · exact joined

private theorem root_spell {form : NormalForm} (wellFormed : form.Rootless g) :
    (g.spell form).head?.any g.isSeparator = form.rootDirectory := by
  rw [spell, wellFormed.rootName, List.nil_append]
  cases rooted : form.rootDirectory with
  | true => simp [g.preferred_separator]
  | false =>
    cases names : form.names with
    | nil =>
      have closed : form.trailing = false := by
        by_contra ends
        exact wellFormed.trailing (by simpa using ends) names
      simp [closed]
    | cons name rest =>
      obtain ⟨nonempty, plain⟩ := wellFormed.names name (by simp [names])
      obtain ⟨c, name, rfl⟩ := List.exists_cons_of_ne_nil nonempty
      have plainHead := plain c (List.mem_cons_self ..)
      cases rest <;> simp [List.intercalate_cons_cons, plainHead]

/-- Without root names, a normal form can be read back from its text. -/
theorem render_injective {first second : NormalForm} (firstForm : first.Rootless g)
    (secondForm : second.Rootless g) (same : g.render first = g.render second) : first = second := by
  have spelled : g.spell first = g.spell second := by
    -- only the empty form is written as `.`, since `.` is no name of a normal form
    have dotNames : namesFrom g.isSeparator [] dot = [dot] :=
      namesFrom_plain [] dot (by simp [dot, g.period_plain]) (by decide)
    unfold render at same
    split at same <;> split at same
    · next none none' => rw [List.isEmpty_iff.mp none, List.isEmpty_iff.mp none']
    · have names := names_spell secondForm
      rw [← same, dotNames] at names
      exact (secondForm.noDot (by simp [← names])).elim
    · have names := names_spell firstForm
      rw [same, dotNames] at names
      exact (firstForm.noDot (by simp [← names])).elim
    · exact same
  have names : first.names = second.names := by
    rw [← names_spell firstForm, ← names_spell secondForm, spelled]
  have rooted : first.rootDirectory = second.rootDirectory := by
    rw [← root_spell firstForm, ← root_spell secondForm, spelled]
  have rootNames : first.rootName = second.rootName := by
    rw [firstForm.rootName, secondForm.rootName]
  have trailing : first.trailing = second.trailing := by
    rw [spell, spell, rootNames, rooted, names] at spelled
    have ends := List.append_cancel_left (List.append_cancel_left (List.append_cancel_left spelled))
    revert ends
    cases first.trailing <;> cases second.trailing <;> simp
  cases first
  cases second
  simp_all

/-- Without root names, two paths have the same normal text exactly when they are the same file. -/
theorem lexicallyNormal_eq_iff (rootless : ∀ text, g.rootNameLength text = 0)
    {first second : List Char} (firstFull : first ≠ []) (secondFull : second ≠ []) :
    g.lexicallyNormal first = g.lexicallyNormal second ↔ g.SameFile first second := by
  constructor
  · intro same
    rw [lexicallyNormal, lexicallyNormal, if_neg (by simpa using firstFull),
      if_neg (by simpa using secondFull)] at same
    exact render_injective (g.normalForm_rootless rootless first)
      (g.normalForm_rootless rootless second) same
  · intro same
    exact SameFile.lexicallyNormal_eq g same firstFull secondFull

end Grammar

namespace Grammar

variable (g : Grammar)

/-! ## What stays at the end -/

/-- The text of a file ends with its name. -/
private theorem suffix_spell_file {form : NormalForm} (closed : form.trailing = false) (name : List Char) :
    name <:+ g.spell (form.file name) := by
  have joined (names : List (List Char)) : name <:+ [g.preferred].intercalate (names ++ [name]) := by
    induction names with
    | nil => simp
    | cons first rest ih =>
      rw [List.cons_append, List.intercalate_cons_of_ne_nil (by simp)]
      exact ih.trans (List.suffix_append ..)
  rw [spell, NormalForm.file, closed]
  simp only [Bool.false_eq_true, ↓reduceIte, List.append_nil]
  exact (joined form.names).trans ((List.suffix_append ..).trans (List.suffix_append ..))

/-- Without directories, a path in front of an ordinary filename is only a root name. -/
private theorem spell_flat (text : List Char) (flat : g.directories text = [])
    (ordinary : g.filename text ≠ dot ∧ g.filename text ≠ dotDot) :
    g.spell (g.normalForm text) = g.makePreferred text := by
  have after : g.afterRootName text = g.filename text := by
    rw [← directories_append_filename, flat, List.nil_append]
  have unrooted : g.hasRootDirectory text = false := by simp [hasRootDirectory_eq, flat]
  have file := makePreferred_plain g (g.filename_plain text)
  conv_rhs => rw [← g.rootName_append_afterRootName text, makePreferred_append, after, file]
  by_cases none : g.filename text = []
  · have noNames : g.normalNames text = [] := by
      simp [normalNames, names, after, none, namesFrom, collapse]
    simp [spell, normalForm, unrooted, noNames, none]
  · rw [g.normalForm_of_filename text none ordinary.1 ordinary.2]
    simp [spell, NormalForm.file, directoryForm, unrooted, flat, namesFrom, collapse]

/-- A plain end of a path lies in the filename once there are directories. -/
private theorem suffix_filename {text name : List Char} (suffix : name <:+ text)
    (plain : ∀ c ∈ name, g.isSeparator c = false) (deep : g.directories text ≠ []) :
    name <:+ g.filename text := by
  have file : g.filename text <:+ text := ⟨_, g.directoryText_append_filename text⟩
  rcases List.suffix_or_suffix_of_suffix suffix file with inside | ⟨more, rfl⟩
  · exact inside
  · obtain ⟨front, whole⟩ := suffix
    cases more using List.reverseRecOn with
    | nil => exact List.suffix_rfl
    | append_singleton more c =>
      -- what stands in front of the filename ends in a separator
      have spelled : front ++ (more ++ [c]) ++ g.filename text = g.directoryText text ++ g.filename text := by
        rw [List.append_assoc, whole, g.directoryText_append_filename]
      have last := congrArg List.getLast? (List.append_cancel_right spelled)
      unfold directoryText at last
      rw [← List.append_assoc, List.getLast?_concat, List.getLast?_append_of_ne_nil _ deep] at last
      have separator := g.directories_ends text c last.symm
      rw [plain c (by simp)] at separator
      cases separator

/-- Lexical normalisation keeps a plain end of a path, unless it ends in a period. -/
theorem suffix_lexicallyNormal (front : List Char) {name : List Char}
    (plain : ∀ c ∈ name, g.isSeparator c = false) (ends : ∃ c ∈ name.getLast?, c ≠ '.') :
    name <:+ g.lexicallyNormal (front ++ name) := by
  obtain ⟨last, isLast, notPeriod⟩ := ends
  have nonempty : name ≠ [] := by
    rintro rfl
    cases isLast
  have full : front ++ name ≠ [] := by simp [nonempty]
  have ordinary : g.filename (front ++ name) ≠ dot ∧ g.filename (front ++ name) ≠ dotDot := by
    have same : ∀ special ∈ [dot, dotDot], g.filename (front ++ name) ≠ special := by
      intro special listed same
      have whole := congrArg List.getLast? (g.directoryText_append_filename (front ++ name))
      rw [same, List.getLast?_append_of_ne_nil _ nonempty, isLast] at whole
      apply notPeriod
      rcases List.mem_pair.mp listed with rfl | rfl <;> simpa [dot, dotDot] using whole.symm
    exact ⟨same dot (by simp), same dotDot (by simp)⟩
  have spelled : name <:+ g.spell (g.normalForm (front ++ name)) := by
    by_cases flat : g.directories (front ++ name) = []
    · rw [g.spell_flat _ flat ordinary, makePreferred_append, makePreferred_plain g plain]
      exact List.suffix_append ..
    · have inside := g.suffix_filename (List.suffix_append front name) plain flat
      have named : g.filename (front ++ name) ≠ [] := by
        intro none
        rw [none] at inside
        exact nonempty (List.suffix_nil.mp inside)
      rw [g.normalForm_of_filename _ named ordinary.1 ordinary.2]
      exact inside.trans (g.suffix_spell_file rfl _)
  rw [lexicallyNormal, if_neg (by simpa using full), render, if_neg]
  · exact spelled
  · intro none
    rw [List.isEmpty_iff.mp none] at spelled
    exact nonempty (List.suffix_nil.mp spelled)

/-! ## No new characters -/

/-- Writing a path in lexical normal form uses only its characters, separators and periods. -/
theorem mem_lexicallyNormal {text : List Char} {c : Char} (member : c ∈ g.lexicallyNormal text) :
    c ∈ text ∨ c = g.preferred ∨ c = '.' := by
  have inRoot (inside : c ∈ g.makePreferred (g.rootName text)) : c ∈ text ∨ c = g.preferred := by
    obtain ⟨d, before, rfl⟩ := List.mem_map.mp inside
    unfold prefer
    split
    · exact .inr rfl
    · exact .inl (List.mem_of_mem_take before)
  have inNames (inside : ∃ name ∈ g.normalNames text, c ∈ name) : c ∈ text ∨ c = '.' := by
    obtain ⟨name, listed, here⟩ := inside
    rcases (mem_collapse listed).2 with present | rfl
    · have source := mem_of_mem_namesFrom present c here
      exact .inl (List.mem_of_mem_drop (source.resolve_left List.not_mem_nil))
    · exact .inr (by simpa [dotDot] using here)
  have separator {p : Prop} [Decidable p] (inside : c ∈ if p then [g.preferred] else []) :
      c = g.preferred := by
    split at inside
    · exact List.mem_singleton.mp inside
    · cases inside
  unfold lexicallyNormal at member
  split at member
  · cases member
  · unfold render at member
    split at member
    · exact .inr (.inr (by simpa [dot] using member))
    · simp only [spell, normalForm, List.mem_append] at member
      rcases member with root | directory | names | trailing
      · exact (inRoot root).imp id .inl
      · exact .inr (.inl (separator directory))
      · rcases mem_intercalate names with same | named
        · exact .inr (.inl same)
        · exact (inNames named).imp id .inr
      · exact .inr (.inl (separator trailing))

end Grammar

end Pathname
