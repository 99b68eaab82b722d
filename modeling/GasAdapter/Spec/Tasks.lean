import GasAdapter.Library.ArgvRules
import GasAdapter.Spec.McArguments
import GasAdapter.Spec.Reading

/-! # What a child is asked to do

A child does not see the wrapper's settings; it sees an argument vector, which on Windows it splits from
one command line by itself. What the vector asks for is a `Task`: `llvm-mc` is to assemble one input under
some options, `ld` is to link objects. How the two programs read a vector is left to `ToolReaders`; what is
relied on is the part of their documentation that `ToolReaders.Documented` states.
-/

namespace GasAdapter

namespace ProcessWindows

/-- Microsoft's rules: blanks are spaces and tabs. -/
def msvc : ArgvRules Char where
  quote := '"'
  backslash := '\\'
  isBlank c := c == ' ' || c == '\t'
  quote_ne_backslash := by decide
  quote_not_blank := by decide
  backslash_not_blank := by decide

/-- The argument vector of the child, after the program name. -/
def childArguments (process : Process) : List PlatformString := msvc.split (commandLine process)

end ProcessWindows

/-- The argument vector a child finds, after the program name. -/
def Process.received (os : Platform) (process : Process) : List PlatformString :=
  match os with
  | .posix => process.args
  | .windows => ProcessWindows.childArguments process

/-- A text as a child finds it when it is part of an argument. -/
def Platform.received (os : Platform) (text : PlatformString) : PlatformString :=
  match os with
  | .posix => text
  | .windows => ProcessWindows.msvc.readBack text

/-- Every tool takes such an argument as it stands. A leading `@` names a response file, and on Windows
wildcards are expanded. -/
def Platform.Literal (os : Platform) (arg : PlatformString) : Prop :=
  arg.head? ≠ some '@' ∧ (os = .windows → '*' ∉ arg ∧ '?' ∉ arg)

instance (os : Platform) (arg : PlatformString) : Decidable (os.Literal arg) :=
  inferInstanceAs (Decidable (_ ∧ _))

inductive Task where
  | assemble (options : List (PlatformString × PlatformString)) (output input : PlatformString)
  | link (output : PlatformString) (objects : List PlatformString)
deriving DecidableEq, Repr

/-- The path of the file the task makes. -/
def Task.output : Task → PlatformString
  | .assemble _ output _ => output
  | .link output _ => output

/-! ## The documentation of the tools -/

/-- Options of `llvm-mc` that are given once, with a value or as a flag. -/
def McArguments.Known (option : PlatformString × PlatformString) : Prop :=
  option.1 ∈ [pstr "--assemble", pstr "-g"] ∧ option.2 = [] ∨
    option.1 ∈ [pstr "--arch", pstr "--triple", pstr "--filetype", pstr "--mattr", pstr "-o"] ∧ option.2 ≠ []

instance (option : PlatformString × PlatformString) : Decidable (McArguments.Known option) :=
  inferInstanceAs (Decidable (_ ∨ _))

/-- Something `ld` is told. -/
inductive LdWord where
  | output (path : PlatformString)
  | relocatable
  | object (path : PlatformString)
deriving DecidableEq, Repr

namespace LdWord

/-- The value of `-o` is an argument of its own. -/
def spell : LdWord → List PlatformString
  | .output path => [pstr "-o", path]
  | .relocatable => [pstr "--relocatable"]
  | .object path => [path]

def outputPath : LdWord → Option PlatformString
  | .output path => some path
  | _ => none

def objectPath : LdWord → Option PlatformString
  | .object path => some path
  | _ => none

end LdWord

/-- How the two programs read the arguments after their names. -/
structure ToolReaders where
  llvmMc : List PlatformString → Option Task
  ld : List PlatformString → Option Task

namespace ToolReaders

open McArguments Reading

/-- The readers follow the documentation of the two programs, on literal arguments. -/
structure Documented (readers : ToolReaders) (os : Platform) : Prop where
  /-- `llvm-mc` takes options in any order, each at most once, and one input. -/
  assembles (options : List (PlatformString × PlatformString)) (output input : PlatformString)
    (known : ∀ option ∈ options, Known option) (once : (options.map Prod.fst).Nodup)
    (makes : (pstr "-o", output) ∈ options) (given : input ≠ [] ∧ isDashed input = false)
    (literal : ∀ arg ∈ options.map mcSyntax.spell ++ [input], os.Literal arg) :
    readers.llvmMc (options.map mcSyntax.spell ++ [input]) =
      some (.assemble (options.filter fun option => option.1 != pstr "-o") output input)
  /-- `ld` takes its output and the objects in any order, and keeps the order of the objects. -/
  links (words : List LdWord) (output : PlatformString) (makes : words.filterMap LdWord.outputPath = [output])
    (relocates : .relocatable ∈ words)
    (given : ∀ object ∈ words.filterMap LdWord.objectPath, object ≠ [] ∧ isDashed object = false)
    (literal : ∀ arg ∈ words.flatMap LdWord.spell, os.Literal arg) :
    readers.ld (words.flatMap LdWord.spell) = some (.link output (words.filterMap LdWord.objectPath))

/-- What a process asks of its program, which is known by its name. -/
def task (readers : ToolReaders) (os : Platform) (process : Process) : Option Task :=
  if (Constants.llvmMcName os).isSuffixOf process.executablePath.native then readers.llvmMc (process.received os)
  else readers.ld (process.received os)

end ToolReaders

end GasAdapter
