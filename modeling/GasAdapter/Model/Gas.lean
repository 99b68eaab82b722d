import GasAdapter.Model.CommandLine
import GasAdapter.Model.LlvmMcRunner

/-! # The wrapper

`Gas::run` on an arbitrary outside: it selects the target by the `@gas-arch=` parameter, reads the
command line into the wrapper and its `llvm-mc` runner, runs `llvm-mc` on every input and, for several
inputs, `ld` on the objects. `run` and `parseArguments` are what this comes to when nobody listens.
-/

namespace GasAdapter

/-- The data members of `Gas`. -/
structure Gas where
  inputFiles : List FsPath := []
  programName : PlatformString := []
  gasOutputFile : FsPath := ⟨[]⟩
  programDir : FsPath := ⟨[]⟩
  targetArch : TargetArchitecture := .any

namespace Gas

/-! ## Names -/

def genericGasName : PlatformString := pstr "as"

def genericLdName : Platform → PlatformString
  | .posix => pstr "ld"
  | .windows => pstr "ld.exe"

def arm64ArchPrefix : PlatformString := pstr "aarch64-linux-android-"

def arm32ArchPrefix : PlatformString := pstr "arm-linux-androideabi-"

def x86ArchPrefix : PlatformString := pstr "i686-linux-android-"

def x64ArchPrefix : PlatformString := pstr "x86_64-linux-android-"

/-- What `run` sets up for a program name. -/
structure Target where
  arch : TargetArchitecture
  runner : LlvmMcArchitecture
  ldName : PlatformString
deriving DecidableEq, Repr

/-- The chain of comparisons with the four prefixed names; the generic name and unknown names
select nothing. -/
def selectTarget (os : Platform) (archName : PlatformString) : Option Target :=
  if archName == arm64ArchPrefix ++ genericGasName then
    some ⟨.arm64, .arm64, arm64ArchPrefix ++ genericLdName os⟩
  else if archName == arm32ArchPrefix ++ genericGasName then
    some ⟨.arm32, .arm32, arm32ArchPrefix ++ genericLdName os⟩
  else if archName == x86ArchPrefix ++ genericGasName then
    some ⟨.x86, .x86, x86ArchPrefix ++ genericLdName os⟩
  else if archName == x64ArchPrefix ++ genericGasName then
    some ⟨.x64, .x64, x64ArchPrefix ++ genericLdName os⟩
  else none

/-- The program name asked for by `args[1]`, in lower case, or the generic one. -/
def requestedName (args : List PlatformString) : PlatformString :=
  let firstParam := args[1]?.getD (pstr "")
  if !firstParam.isEmpty && firstParam.length > Constants.archHackParam.length &&
      Constants.archHackParam.isPrefixOf firstParam then
    (firstParam.drop Constants.archHackParam.length).map Char.toLower
  else genericGasName

/-- `determine_program_dir` of either build; `args[0]` is there in every process. -/
def determineProgramDir (os : Platform) (env : Environment) (args : List PlatformString) :
    Except Exception FsPath :=
  match os with
  | .posix =>
      let programPath : FsPath := ⟨args.head?.getD []⟩
      if programPath.isAbsolute os then pure ((programPath.parentPath os).makePreferred os)
      else do
        let programPath ← env.absolute programPath
        pure ((programPath.parentPath os).makePreferred os)
  | .windows => env.moduleDirectory

/-! ## Options -/

def allOptions : List CommandLineOption := [
  -- ignored by GAS, and silently here too
  { name := pstr "divide", id := .ignore },
  { name := pstr "k", id := .ignore },
  { name := pstr "nocpp", id := .ignore },
  { name := pstr "Qn", id := .ignore },
  { name := pstr "Qy", id := .ignore },
  { name := pstr "s", id := .ignore },
  { name := pstr "w", id := .ignore },
  { name := pstr "X", id := .ignore },
  -- supported for all targets
  { name := pstr "o", id := .o, argument := .required },
  { name := pstr "warn", id := .warn },
  { name := pstr "g", id := .g },
  { name := pstr "gen-debug", id := .g },
  -- the wrapper's own
  { name := pstr "h", id := .help },
  { name := pstr "help", id := .help },
  { name := pstr "V", id := .version },
  { name := pstr "version", id := .versionExit },
  -- not needed by `llvm-mc`
  { name := pstr "32", id := .ignore, arch := .x86 },
  { name := pstr "64", id := .ignore, arch := .x86 },
  { name := pstr "32", id := .ignore, arch := .x64 },
  { name := pstr "64", id := .ignore, arch := .x64 },
  { name := pstr "mfpu", id := .mfpu, argument := .required, arch := .arm32 }]

/-- What `parse_arguments` changes: the wrapper, the runner and its own flags. -/
structure ParseState where
  gas : Gas
  mcRunner : LlvmMcRunner
  terminate : Bool := false
  showVersion : Bool := false
  showHelp : Bool := false

/-- A member function of the runner, called from `parse_arguments`. -/
def onRunner (member : RunnerM Unit) : EStateM Exception ParseState Unit := fun state =>
  match member state.mcRunner with
  | .ok _ mcRunner => .ok () { state with mcRunner }
  | .error e mcRunner => .error e { state with mcRunner }

/-- `std::get<platform::string>`. -/
def getString : OptionValue → EStateM Exception ParseState PlatformString
  | .string value => pure value
  | .bool _ => throw .badVariantAccess

/-- The `handle_arg` lambda. -/
def handleArg (os : Platform) (option : CallbackOption) (val : OptionValue) :
    EStateM Exception ParseState Unit := do
  match option with
  | .positional _ =>
      let arg ← getString val
      if Constants.archHackParam.isPrefixOf arg then pure ()
      else
        modify fun state =>
          { state with gas := { state.gas with inputFiles := state.gas.inputFiles ++ [⟨arg⟩] } }
  | .option opt =>
      match opt.id with
      | .ignore => pure ()
      | .version => modify fun state => { state with showVersion := true }
      | .versionExit => modify fun state => { state with showVersion := true, terminate := true }
      | .help => modify fun state => { state with showHelp := true, terminate := true }
      | .o => do
          let path ← getString val
          modify fun state => { state with gas := { state.gas with gasOutputFile := ⟨path⟩ } }
      | .mfpu => do
          let value ← getString val
          onRunner (LlvmMcRunner.mapOption os (pstr "mfpu") value)
      | .g => onRunner LlvmMcRunner.generateDebugInfo
      | .warn => pure ()

/-- `ParseArgsResult`. -/
structure ParseArgsResult where
  terminate : Bool
  isError : Bool
deriving DecidableEq, Repr

section Outside

variable {σ : Type} (outside : Outside σ)

/-! ## Usage -/

/-- `usage`; the text is made of the program name. -/
def usage (programName : PlatformString) (isError : Bool) (message : PlatformString := pstr "") :
    EStateM Exception σ Int := do
  outside.tell (.usage programName message)
  pure (if isError then 1 else 0)

def noInputsMessage : PlatformString := pstr "missing input files on command line"

/-- What `run` says about a name that selects no target. -/
def nameMessage (os : Platform) (archName : PlatformString) : PlatformString :=
  let line (text : PlatformString) := text ++ Constants.newline os
  if archName == genericGasName then
    line (pstr "Program invoked via its generic name (" ++ genericGasName ++
      pstr "), please use one of the ABI-prefixed names:") ++
      line (pstr "  " ++ arm64ArchPrefix ++ genericGasName) ++
      line (pstr "  " ++ arm32ArchPrefix ++ genericGasName) ++
      line (pstr "  " ++ x86ArchPrefix ++ genericGasName) ++
      line (pstr "  " ++ x64ArchPrefix ++ genericGasName)
  else line (pstr "Unknown program name '" ++ archName ++ pstr "'")

/-! ## `parse_arguments` -/

/-- What `parse_arguments` does once the command line is parsed. -/
def finishArguments (parsed : Bool) :
    EStateM Exception (ParseState × σ) (ParseArgsResult × Gas × LlvmMcRunner) := do
  let (state, _) ← get
  let terminate := state.terminate || !parsed
  let isError := !parsed
  if state.showHelp then
    let _ ← onSecond (usage outside state.gas.programName false)
    pure (⟨true, false⟩, state.gas, state.mcRunner)
  else if state.showVersion then
    onSecond (outside.tell (.version state.gas.programName))
    pure (⟨true, false⟩, state.gas, state.mcRunner)
  else if terminate then pure (⟨terminate, isError⟩, state.gas, state.mcRunner)
  else
    let gas := if state.gas.gasOutputFile.isEmpty then
      { state.gas with gasOutputFile := ⟨Constants.defaultOutputName⟩ } else state.gas
    pure (⟨terminate, isError⟩, gas, state.mcRunner)

/-- `parse_arguments`: its result, and the wrapper and the runner it leaves. -/
def parseArgumentsWith (os : Platform) (gas : Gas) (mcRunner : LlvmMcRunner) (args : List PlatformString) :
    EStateM Exception σ (ParseArgsResult × Gas × LlvmMcRunner) :=
  owning ({ gas, mcRunner } : ParseState) do
    let parsed ← CommandLine.parse gas.targetArch allOptions
      (fun option val => onFirst (handleArg os option val))
      (fun complaint => onSecond (outside.tell (.complaint complaint))) args
    finishArguments outside parsed

/-! ## Running -/

/-- The loop that runs `llvm-mc` on every input, until one returns a non-zero code. -/
def assembleInputs (os : Platform) (env : Environment) (llvmMc : FsPath) (deriveOutputFileName : Bool) :
    List FsPath → EStateM Exception (LlvmMcRunner × σ) Int
  | [] => pure 0
  | input :: rest => do
      onFirst (LlvmMcRunner.setInputFilePath os input deriveOutputFileName)
      let ret ← LlvmMcRunner.run outside os env llvmMc
      if ret ≠ 0 then
        onSecond (outside.tell (.failed ret))
        pure ret
      else assembleInputs os env llvmMc deriveOutputFileName rest

/-- The `ld` process that merges the objects of several inputs. -/
def ldProcess (os : Platform) (gas : Gas) (ldName : PlatformString) : Process :=
  let outputFiles := gas.inputFiles.map (LlvmMcRunner.makeOutputFilePath os)
  let ld := Process.create os (gas.programDir.append os ldName)
  let ld := ld.appendProgramArgument (pstr "-o")
  let ld := ld.appendProgramArgument
    (if gas.gasOutputFile.isEmpty then Constants.defaultOutputName else gas.gasOutputFile.native)
  let ld := ld.appendProgramArgument (pstr "--relocatable")
  outputFiles.foldl (fun ld output => ld.appendProgramArgument output.native) ld

/-- `run` after `parse_arguments` has told it to go on. -/
def assemble (os : Platform) (env : Environment) (ldName : PlatformString) (gas : Gas) :
    EStateM Exception (LlvmMcRunner × σ) Int := do
  let llvmMc := gas.programDir.append os (Constants.llvmMcName os)
  match gas.inputFiles with
  | [] => onSecond (usage outside gas.programName true noInputsMessage)
  | [_] =>
      if !gas.gasOutputFile.isEmpty then
        onFirst (LlvmMcRunner.setOutputFilePath gas.gasOutputFile)
        assembleInputs outside os env llvmMc false gas.inputFiles
      else assembleInputs outside os env llvmMc true gas.inputFiles
  | _ :: _ :: _ =>
      let ret ← assembleInputs outside os env llvmMc true gas.inputFiles
      if ret ≠ 0 then pure ret
      else onSecond (outside.start (ldProcess os gas ldName))

/-- `Gas::run`. -/
def runWith (os : Platform) (env : Environment) (args : List PlatformString) : EStateM Exception σ Int := do
  let programDir ← liftExcept (determineProgramDir os env args)
  let archName := requestedName args
  match selectTarget os archName with
  | none => usage outside archName true (nameMessage os archName)
  | some target =>
      let gas : Gas := { programName := archName, programDir, targetArch := target.arch }
      let mcRunner ← liftExcept (LlvmMcRunner.create target.runner)
      let (result, gas, mcRunner) ← parseArgumentsWith outside os gas mcRunner args
      if result.terminate || result.isError then
        pure (if result.isError then Constants.wrapperGeneralErrorCode else 0)
      else owning mcRunner (assemble outside os env target.ldName gas)

end Outside

/-- `parse_arguments` apart from its messages. -/
def parseArguments (os : Platform) (gas : Gas) (mcRunner : LlvmMcRunner) (args : List PlatformString) :
    Except Exception (ParseArgsResult × Gas × LlvmMcRunner) :=
  match parseArgumentsWith .mute os gas mcRunner args () with
  | .ok result _ => .ok result
  | .error e _ => .error e

/-- `Gas::run` apart from its messages. -/
def run (os : Platform) (env : Environment) (args : List PlatformString) : WrapperM Int :=
  runWith (.silent env) os env args

end Gas

end GasAdapter
