import GasAdapter.Model.Platform

/-! # The command line parser

`CommandLine::parse` from `command_line.cc`, with the option callback in an arbitrary monad: the
callback may have effects and may throw, and complaints are handed to a second callback. The loop
state is the three locals of the source, and the loop body keeps its order of tests.
-/

namespace GasAdapter

inductive ArgumentValue where
  | required
  | notRequired
deriving DecidableEq, Repr

inductive OptionId where
  | ignore
  | o
  | warn
  | g
  | mfpu
  | version
  | versionExit
  | help
deriving DecidableEq, Repr

/-- An entry of an option table. The defaults are those of the shorter constructors. -/
structure CommandLineOption where
  name : PlatformString
  id : OptionId
  argument : ArgumentValue := .notRequired
  arch : TargetArchitecture := .any
deriving DecidableEq, Repr

/-- `TCallbackOption`: the number of a positional argument, or an option. -/
inductive CallbackOption where
  | positional (count : UInt32)
  | option (opt : CommandLineOption)
deriving DecidableEq, Repr

/-- `TOptionValue`. -/
inductive OptionValue where
  | bool (value : Bool)
  | string (value : PlatformString)
deriving DecidableEq, Repr

namespace CommandLine

def dash : Char := '-'

def equals : Char := '='

/-- The locals of `parse` that survive an iteration. -/
structure Locals where
  positionalCount : UInt32 := 0
  nextArgIsValue : Bool := false
  lastOpt : Option CommandLineOption := none
deriving DecidableEq, Repr

/-- What `parse` writes about an option, in place of the text. -/
inductive Complaint where
  | unrecognized (option : PlatformString)
  /-- After the loop. -/
  | requiresArgument (opt : CommandLineOption)
  /-- In the loop. -/
  | requiresArgumentFor (option : PlatformString)
deriving DecidableEq, Repr

/-- The `matching_option` lambda. -/
def matchingOption (targetArch : TargetArchitecture) (optionName : PlatformString)
    (o : CommandLineOption) : Bool :=
  if o.name != optionName then false
  else o.arch == .any || o.arch == targetArch

section Parse

variable {m : Type → Type} [Monad m] (targetArch : TargetArchitecture) (options : List CommandLineOption)
  (optionCb : CallbackOption → OptionValue → m Unit) (complain : Complaint → m Unit)

/-- The body of the loop over the arguments: the locals it leaves, or nothing when it returns `false`. -/
def loopBody (locals : Locals) (option : PlatformString) : m (Option Locals) :=
  if option.isEmpty then pure (some locals)
  else
    let iter := option.dropWhile (· == dash)
    if locals.nextArgIsValue then
      match locals.lastOpt with
      | some opt => do
          optionCb (.option opt) (.string option)
          pure (some { locals with nextArgIsValue := false, lastOpt := none })
      | none => do
          complain (.requiresArgumentFor option)
          pure none
    -- `iter == option.cbegin ()`: no dash was skipped
    else if iter.length == option.length then do
      optionCb (.positional locals.positionalCount) (.string option)
      pure (some { locals with positionalCount := locals.positionalCount + 1 })
    else
      let optionName := iter.takeWhile (· != equals)
      let optionValue := (iter.dropWhile (· != equals)).drop 1
      match options.find? (matchingOption targetArch optionName) with
      | none => do
          complain (.unrecognized option)
          pure (some locals)
      | some opt =>
          if opt.argument == .required && optionValue.isEmpty then
            pure (some { locals with nextArgIsValue := true, lastOpt := some opt })
          else do
            optionCb (.option opt) (.string optionValue)
            pure (some locals)

/-- The check after the loop. -/
def loopEnd (locals : Locals) : m Bool :=
  match locals.lastOpt with
  | some opt => do
      complain (.requiresArgument opt)
      pure false
  | none => pure true

def parseLoop : Locals → List PlatformString → m Bool
  | locals, [] => loopEnd complain locals
  | locals, option :: args => do
      let next ← loopBody targetArch options optionCb complain locals option
      next.elim (pure false) fun locals => parseLoop locals args

/-- `CommandLine::parse`; `args[0]` is the program and is not looked at. -/
def parse (args : List PlatformString) : m Bool :=
  parseLoop targetArch options optionCb complain {} (args.drop 1)

end Parse

/-- Nobody hears the complaints. -/
def unheard {m : Type → Type} [Monad m] (_ : Complaint) : m Unit := pure ()

/-- One invocation of the callback. -/
abbrev Call := CallbackOption × OptionValue

/-- The callback that writes its invocations down. -/
def recordCall (option : CallbackOption) (value : OptionValue) : StateM (List Call) Unit :=
  modify (· ++ [(option, value)])

/-- What `parse` returns and the callbacks it makes, in order. -/
def recorded (targetArch : TargetArchitecture) (options : List CommandLineOption)
    (args : List PlatformString) : Bool × List Call :=
  (parse targetArch options recordCall unheard args).run []

end CommandLine

end GasAdapter
