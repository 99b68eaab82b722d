import GasAdapter.Model.Platform

/-! # Child processes

`Process` collects the arguments of one child. What running it comes to is left to the outside; the
exit code it reports is the environment's choice. The Windows build passes the arguments as one
command line, which `commandLine` builds.
-/

namespace GasAdapter

/-- `Process::process_argument`: one value, or a `string_list`. -/
inductive ProcessArgument where
  | string (value : PlatformString)
  | list (values : List PlatformString)
deriving DecidableEq, Repr

structure Process where
  executablePath : FsPath
  args : List PlatformString
deriving DecidableEq, Repr

namespace Process

def create (os : Platform) (executablePath : FsPath) : Process :=
  ⟨executablePath.lexicallyNormal os, []⟩

def pushArg (process : Process) (arg : PlatformString) : Process :=
  { process with args := process.args ++ [arg] }

/-- An empty value adds the bare option name. -/
def appendProgramArgument (process : Process) (optionName : PlatformString)
    (optionValue : PlatformString := pstr "") : Process :=
  if optionValue.isEmpty then process.pushArg optionName
  else process.pushArg (optionName ++ pstr "=" ++ optionValue)

/-- The comma-separated text of a list. A comma is added unless the text so far is empty. -/
def valueList (values : List PlatformString) : PlatformString :=
  values.foldl (fun valueList value =>
    (if valueList.isEmpty then valueList else valueList ++ pstr ",") ++ value) []

/-- The overload for lists. -/
def appendProgramArgumentList (process : Process) (optionName : PlatformString)
    (optionValue : List PlatformString) (usesCommaSeparatedList : Bool) : Process :=
  if optionValue.isEmpty then process.appendProgramArgument optionName
  else if !usesCommaSeparatedList then
    optionValue.foldl (fun process value => process.appendProgramArgument optionName value) process
  else process.pushArg (optionName ++ pstr "=" ++ valueList optionValue)

/-- The overload for either kind of value. -/
def appendProgramArgumentVariant (process : Process) (optionName : PlatformString)
    (optionValue : ProcessArgument) (usesCommaSeparatedList : Bool := false) : Process :=
  match optionValue with
  | .string value => process.appendProgramArgument optionName value
  | .list values => process.appendProgramArgumentList optionName values usesCommaSeparatedList

end Process

/-- What the wrapper asks of its surroundings: file system queries, and how each child ends,
given the children started before it. -/
structure Environment where
  fileExists : FsPath → Except Exception Bool
  absolute : FsPath → Except Exception FsPath
  /-- The directory of the running module, as the Windows build obtains it. -/
  moduleDirectory : Except Exception FsPath
  exitCode : List Process → Process → Int

/-- The same surroundings with other children. -/
def Environment.withChildren (env : Environment) (exitCode : List Process → Process → Int) : Environment :=
  { env with exitCode := exitCode }

/-- The result of an action together with the processes it started, also when it throws. -/
abbrev WrapperM := EStateM Exception (List Process)

/-! ## The Windows command line -/

namespace ProcessWindows

/-- The characters that need no quoting. -/
def isSafe (c : Char) : Bool :=
  c.isAlpha || c.isDigit || c == '.' || c == '_' || c == '-' || c == '+' || c == '/'

def escapeArgument (arg : PlatformString) : PlatformString :=
  let needsQuote := arg.any fun c => !isSafe c
  if !needsQuote then arg
  else
    pstr "\"" ++
      arg.flatMap (fun c => if c == '"' || c == '\\' then pstr "\\" ++ [c] else [c]) ++ pstr "\""

/-- The string `Process::run` hands to `CreateProcessW`; empty arguments are left out. -/
def commandLine (process : Process) : PlatformString :=
  process.args.foldl (fun args a => if a.isEmpty then args else args ++ pstr " " ++ escapeArgument a)
    (escapeArgument process.executablePath.native)

end ProcessWindows

end GasAdapter
