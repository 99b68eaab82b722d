import GasAdapter.Spec.Tasks

/-! # What a child reads from its Windows command line

`Process::run` quotes every argument that is not made of safe characters and puts a backslash
before each quote and each backslash in it. The child splits the command line by Microsoft's
rules, which only halve backslashes in front of a quote, so every argument comes back as one, but
not always as it was.
-/

namespace GasAdapter.ProcessWindows

theorem plain_of_isSafe {c : Char} (safe : isSafe c = true) : msvc.Plain c := by
  have unsafeChars : isSafe '"' = false ∧ isSafe '\\' = false ∧ isSafe ' ' = false ∧ isSafe '\t' = false := by
    decide
  obtain ⟨noQuote, noSlash, noSpace, noTab⟩ := unsafeChars
  refine ⟨?_, ?_, ?_⟩
  · rintro rfl
    exact (Bool.false_ne_true (noQuote.symm.trans safe)).elim
  · rintro rfl
    exact (Bool.false_ne_true (noSlash.symm.trans safe)).elim
  · apply Bool.or_eq_false_iff.mpr
    constructor
    · apply beq_false_of_ne
      rintro rfl
      exact (Bool.false_ne_true (noSpace.symm.trans safe)).elim
    · apply beq_false_of_ne
      rintro rfl
      exact (Bool.false_ne_true (noTab.symm.trans safe)).elim

/-- An argument is written as it stands or put between quotes. -/
theorem escapeArgument_eq (arg : PlatformString) :
    (escapeArgument arg = arg ∧ ∀ c ∈ arg, msvc.Plain c) ∨ escapeArgument arg = msvc.quoted arg := by
  unfold escapeArgument
  by_cases unsafeChar : (arg.any fun c => !isSafe c) = true
  · right
    have escapes : (fun c => if c == '"' || c == '\\' then pstr "\\" ++ [c] else [c]) = msvc.escape := by
      funext c
      simp only [ArgvRules.escape, msvc, Bool.or_eq_true, beq_iff_eq]
      rfl
    simp only [unsafeChar, Bool.not_true, Bool.false_eq_true, ↓reduceIte, escapes]
    simp [ArgvRules.quoted, msvc, pstr]
  · left
    have safe : ∀ c ∈ arg, isSafe c = true := by simpa using unsafeChar
    refine ⟨?_, fun c member => plain_of_isSafe (safe c member)⟩
    simp only [eq_false_of_ne_true unsafeChar, Bool.not_false, ↓reduceIte]

theorem run_escapeArgument {arg : PlatformString} (nonempty : arg ≠ []) :
    msvc.reader.run none (escapeArgument arg) = (some ⟨msvc.readBack arg, 0, false⟩, []) := by
  rcases escapeArgument_eq arg with ⟨same, plain⟩ | quoted
  · rw [same]
    exact msvc.run_plain_none plain nonempty
  · rw [quoted]
    exact msvc.run_quoted arg

private theorem foldl_commandLine (args : List PlatformString) (nonempty : ∀ a ∈ args, a ≠ [])
    (start : PlatformString) :
    args.foldl (fun args a => if a.isEmpty then args else args ++ pstr " " ++ escapeArgument a) start =
      start ++ args.flatMap fun a => ' ' :: escapeArgument a := by
  induction args generalizing start with
  | nil => simp
  | cons a rest ih =>
    have full : a.isEmpty = false := by simpa using nonempty a (List.mem_cons_self ..)
    rw [List.foldl_cons, ih (fun other member => nonempty other (List.mem_cons_of_mem _ member)), full]
    simp [pstr]

theorem afterProgram_escapeArgument {name : PlatformString} (noQuote : '"' ∉ name) (rest : PlatformString) :
    msvc.afterProgram false (escapeArgument name ++ rest) = msvc.afterProgram false rest := by
  rcases escapeArgument_eq name with ⟨same, plain⟩ | quoted
  · rw [same]
    exact msvc.afterProgram_append noQuote false (.inr fun c member => (plain c member).2.2) rest
  · rw [quoted]
    exact msvc.afterProgram_quoted noQuote rest

/-- The child reads one argument for each that was passed, each by itself. -/
theorem childArguments_eq {process : Process} (noQuote : '"' ∉ process.executablePath.native)
    (nonempty : ∀ a ∈ process.args, a ≠ []) :
    childArguments process = process.args.map msvc.readBack := by
  have blank : msvc.isBlank ' ' = true := rfl
  rw [childArguments, commandLine, foldl_commandLine _ nonempty, ArgvRules.split,
    afterProgram_escapeArgument noQuote, msvc.collect_afterProgram blank]
  exact msvc.collect_words blank escapeArgument process.args
    (fun arg member => run_escapeArgument (nonempty arg member))

/-- The argument vector comes back exactly when every backslash in every argument is directly followed
by a backslash, a quote or the end of the argument. -/
theorem childArguments_eq_iff {process : Process} (noQuote : '"' ∉ process.executablePath.native)
    (nonempty : ∀ a ∈ process.args, a ≠ []) :
    childArguments process = process.args ↔
      ∀ a ∈ process.args, a.IsChain fun c next => c = '\\' → next = '\\' ∨ next = '"' := by
  have each : process.args.map msvc.readBack = process.args ↔
      ∀ a ∈ process.args, msvc.readBack a = a := by
    conv_lhs => rhs; rw [← List.map_id process.args]
    exact List.map_inj_left
  rw [childArguments_eq noQuote nonempty, each]
  exact forall₂_congr fun a _ => msvc.readBack_eq_iff a

/-- Blanks, quotes and trailing backslashes come back. -/
theorem childArguments_eq_three :
    let process : Process := ⟨⟨pstr "C:\\ndk\\llvm-mc.exe"⟩, [pstr "a b.s", pstr "say \"x\"", pstr "dir\\\\"]⟩
    childArguments process = process.args :=
  (childArguments_eq_iff (by decide) (by decide)).mpr (by decide)

/-- The separator of a path comes back doubled. -/
theorem childArguments_ne :
    let process : Process := ⟨⟨pstr "C:\\ndk\\llvm-mc.exe"⟩, [pstr "dir\\a.s"]⟩
    childArguments process = [pstr "dir\\\\a.s"] ∧ childArguments process ≠ process.args := by
  decide

/-! ## Arguments do not interfere -/

/-- The argument vector of the child when the program name is read as the arguments are. -/
def argumentVector (process : Process) : List PlatformString := msvc.collect none (commandLine process)

/-- The arguments follow what is read of the program name alone, each by itself. -/
theorem argumentVector_eq (name : FsPath) {args : List PlatformString} (nonempty : ∀ a ∈ args, a ≠ []) :
    argumentVector ⟨name, args⟩ = argumentVector ⟨name, []⟩ ++ args.map msvc.readBack := by
  obtain ⟨name⟩ := name
  have blank : msvc.isBlank ' ' = true := rfl
  have words (all : List PlatformString) (full : ∀ a ∈ all, a ≠ []) :
      msvc.collect none (all.flatMap fun a => ' ' :: escapeArgument a) = all.map msvc.readBack :=
    msvc.collect_words blank escapeArgument all fun a member => run_escapeArgument (full a member)
  have written (all : List PlatformString) (full : ∀ a ∈ all, a ≠ []) :
      commandLine ⟨⟨name⟩, all⟩ = escapeArgument name ++ all.flatMap fun a => ' ' :: escapeArgument a :=
    foldl_commandLine all full (escapeArgument name)
  rw [argumentVector, argumentVector, written args nonempty, written [] (by simp)]
  cases name with
  | nil => exact words args nonempty
  | cons c rest =>
    -- a blank in front makes the program name one more word
    have vector (all : List PlatformString) (full : ∀ a ∈ all, a ≠ []) :
        msvc.collect none (escapeArgument (c :: rest) ++ all.flatMap fun a => ' ' :: escapeArgument a) =
          msvc.readBack (c :: rest) :: all.map msvc.readBack := by
      rw [← msvc.collect_blank blank]
      exact words ((c :: rest) :: all) (List.forall_mem_cons.mpr ⟨List.cons_ne_nil c rest, full⟩)
    rw [vector args nonempty, vector [] (by simp)]
    rfl

/-- What `vector` reads of lists of arguments that are not empty keeps them apart: one argument is read
for each, it depends on that one alone, and different lists are read differently. -/
structure Separate (vector : List PlatformString → List PlatformString) : Prop where
  lengths : ∀ args : List PlatformString, (∀ a ∈ args, a ≠ []) → (vector args).length = args.length
  alone : ∃ read : PlatformString → PlatformString, ∀ args : List PlatformString, (∀ a ∈ args, a ≠ []) →
    ∀ i : ℕ, (vector args)[i]? = args[i]?.map read
  agree : ∀ first second : List PlatformString, (∀ a ∈ first, a ≠ []) → (∀ a ∈ second, a ≠ []) →
    ∀ i : ℕ, first[i]? = second[i]? → (vector first)[i]? = (vector second)[i]?
  injective : ∀ first second : List PlatformString, (∀ a ∈ first, a ≠ []) → (∀ a ∈ second, a ≠ []) →
    vector first = vector second → first = second

theorem Separate.of_map {vector : List PlatformString → List PlatformString}
    {read : PlatformString → PlatformString} (injective : Function.Injective read)
    (each : ∀ args : List PlatformString, (∀ a ∈ args, a ≠ []) → vector args = args.map read) :
    Separate vector := by
  constructor
  · intro args full
    rw [each args full, List.length_map]
  · refine ⟨read, ?_⟩
    intro args full i
    rw [each args full, List.getElem?_map]
  · intro first second firstFull secondFull i same
    rw [each first firstFull, each second secondFull, List.getElem?_map, List.getElem?_map, same]
  · intro first second firstFull secondFull same
    rw [each first firstFull, each second secondFull] at same
    exact List.map_injective_iff.mpr injective same

/-- Arguments cannot interfere with each other, whatever the program is called. The same holds when the
name is read by the rules for program names, which know no escaped quote, as long as it has none; no
Windows path has. -/
theorem childArguments_separate (name : FsPath) :
    (Separate fun args => (argumentVector ⟨name, args⟩).drop (argumentVector ⟨name, []⟩).length) ∧
      ('"' ∉ name.native → Separate fun args => childArguments ⟨name, args⟩) := by
  constructor
  · apply Separate.of_map msvc.readBack_injective
    intro args full
    rw [argumentVector_eq name full, List.drop_left]
  · intro noQuote
    apply Separate.of_map msvc.readBack_injective
    intro args full
    exact childArguments_eq noQuote full

/-- Two arguments that end in a backslash and hold a quote stay two, and are not confused with one. -/
theorem childArguments_separate_two :
    let name : FsPath := ⟨pstr "C:\\ndk\\llvm-mc.exe"⟩
    (childArguments ⟨name, [pstr "a\\", pstr "\" b"]⟩).length = 2 ∧
      childArguments ⟨name, [pstr "a\\", pstr "\" b"]⟩ ≠ childArguments ⟨name, [pstr "a\\ \" b"]⟩ := by
  intro name
  have separate := (childArguments_separate name).2 (by decide)
  refine ⟨separate.lengths _ (by decide), ?_⟩
  intro same
  have lists := separate.injective _ _ (by decide) (by decide) same
  cases lists

end GasAdapter.ProcessWindows
