import GasAdapter.Model.Outside

/-! # The `llvm-mc` runner

`LlvmMcRunner` and its four subclasses. Member functions act on the runner and may throw; an
exception keeps whatever was changed before it. The subclass is a field, on which `mapOption`
dispatches.
-/

namespace GasAdapter

inductive LlvmMcArgument where
  | arch
  | fileType
  | generateDebug
  | includeDir
  | mattr
  | mcpu
  | output
deriving DecidableEq, Repr

inductive LlvmMcArchitecture where
  | arm64
  | arm32
  | x86
  | x64
deriving DecidableEq, Repr

structure LlvmMcRunner where
  /-- The subclass the object was constructed as. -/
  kind : LlvmMcArchitecture
  arguments : LlvmMcArgument → Option ProcessArgument
  inputFilePath : FsPath
  triple : PlatformString

/-- A member function of the runner. -/
abbrev RunnerM := EStateM Exception LlvmMcRunner

namespace LlvmMcRunner

/-- The value is `true` when the option can be set multiple times. -/
def knownOptions : List (LlvmMcArgument × Bool) :=
  [(.arch, false), (.fileType, false), (.includeDir, true), (.mcpu, false), (.output, false),
    (.mattr, true), (.generateDebug, false)]

def getOptionDesc (argument : LlvmMcArgument) : RunnerM Bool :=
  match knownOptions.lookup argument with
  | some isMulti => pure isMulti
  | none => throw (.invalidOperationError (pstr "Unknown option"))

/-- `arguments[argument] = value`. -/
def store (argument : LlvmMcArgument) (value : ProcessArgument) : RunnerM Unit :=
  modify fun runner => { runner with arguments := Function.update runner.arguments argument (some value) }

def setOption (argument : LlvmMcArgument) (value : PlatformString := pstr "") : RunnerM Unit := do
  let runner ← get
  if argument == .arch && (runner.arguments argument).isSome then
    throw (.invalidOperationError (pstr "Architecture can be set only once"))
  let isMulti ← getOptionDesc argument
  if !isMulti then store argument (.string value)
  else
    match runner.arguments argument with
    | some (.list values) => store argument (.list (values ++ [value]))
    | some (.string _) => throw .badVariantAccess
    | none => store argument (.list [value])

def setOutputFilePath (filePath : FsPath) : RunnerM Unit := setOption .output filePath.native

def makeOutputFilePath (os : Platform) (inputFile : FsPath) : FsPath :=
  (inputFile.replaceExtension os (pstr ".o")).makePreferred os

def setInputFilePath (os : Platform) (filePath : FsPath) (deriveOutputFileName : Bool := true) :
    RunnerM Unit := do
  if filePath.isEmpty then
    throw (.invalidArgumentError (pstr "Argument 'file_path' must not be empty"))
  if !filePath.hasFilename os then
    throw (.invalidArgumentError (pstr "Argument 'file_path' must have the file name portion"))
  modify fun runner => { runner with inputFilePath := filePath }
  if deriveOutputFileName then
    setOutputFilePath (makeOutputFilePath os filePath)

def addIncludePath (includePath : FsPath) : RunnerM Unit :=
  if includePath.isEmpty then pure () else setOption .includeDir includePath.native

def generateDebugInfo : RunnerM Unit := setOption .generateDebug

def setArch (arch : PlatformString) : RunnerM Unit := setOption .arch arch

def appendAttribute (newAttr : PlatformString) : RunnerM Unit := setOption .mattr newAttr

def appendAttributes (newAttrs : List PlatformString) : RunnerM Unit := newAttrs.forM appendAttribute

/-- The architecture name and the triple's first part. -/
def architectureNames : LlvmMcArchitecture → PlatformString × PlatformString
  | .arm64 => (pstr "aarch64", pstr "aarch64")
  | .arm32 => (pstr "arm", pstr "arm")
  | .x86 => (pstr "x86", pstr "x86")
  | .x64 => (pstr "x86-64", pstr "x86_64")

/-- The base class constructor, then the subclass's. -/
def construct (kind : LlvmMcArchitecture) : RunnerM Unit := do
  setOption .fileType (pstr "obj")
  let (architecture, triplePrefix) := architectureNames kind
  setArch architecture
  modify fun runner => { runner with triple := triplePrefix ++ pstr "-linux-gnu" }
  match kind with
  | .arm32 => appendAttribute (pstr "+armv7-a")
  | _ => pure ()

/-- Run a member function on a runner the caller owns. -/
def apply (runner : LlvmMcRunner) (member : RunnerM Unit) : Except Exception LlvmMcRunner :=
  match member runner with
  | .ok _ runner => .ok runner
  | .error e _ => .error e

/-- `std::make_unique` of the subclass. -/
def create (kind : LlvmMcArchitecture) : Except Exception LlvmMcRunner :=
  apply ⟨kind, fun _ => none, ⟨[]⟩, []⟩ (construct kind)

/-! ## Mapping GAS options -/

/-- `LlvmMcRunnerARM32::fpu_type_map`. -/
def fpuTypeMap : List (PlatformString × List PlatformString) := [
  (pstr "arm1020e", []),
  (pstr "arm1020t", []),
  (pstr "arm1136jf-s", []),
  (pstr "arm7500fe", []),
  (pstr "crypto-neon-fp-armv8", [pstr "+crypto", pstr "+neon", pstr "+armv8-a"]),
  (pstr "crypto-neon-fp-armv8.1", [pstr "+crypto", pstr "+neon", pstr "+armv8.1-a"]),
  (pstr "fp-armv8", [pstr "+armv8-a"]),
  (pstr "fpa", []),
  (pstr "fpa10", []),
  (pstr "fpa11", []),
  (pstr "fpe", []),
  (pstr "fpe2", []),
  (pstr "fpe3", []),
  (pstr "fpv4-sp-d16", []),
  (pstr "fpv5-d16", []),
  (pstr "fpv5-sp-d16", []),
  (pstr "maverick", []),
  (pstr "neon", [pstr "+neon"]),
  (pstr "neon-fp-armv8", [pstr "+neon", pstr "+armv8-a", pstr "+fp-armv8"]),
  (pstr "neon-fp-armv8.1", [pstr "+neon", pstr "+armv8.1-a", pstr "+fp-armv8"]),
  (pstr "neon-fp16", [pstr "+neon", pstr "+fp16"]),
  (pstr "neon-vfpv3", [pstr "+neon", pstr "+vfp3"]),
  (pstr "neon-vfpv4", [pstr "+neon", pstr "+vfp4"]),
  (pstr "softfpa", [pstr "+soft-float"]),
  (pstr "softvfp", []),
  (pstr "softvfp+vfp", []),
  (pstr "vfp", []),
  (pstr "vfp10", []),
  (pstr "vfp10-r0", []),
  (pstr "vfp9", []),
  (pstr "vfpv2", [pstr "+vfp2"]),
  (pstr "vfpv3", [pstr "+vfp3"]),
  (pstr "vfp3", [pstr "+vfp3"]),
  (pstr "vfpv3-d16", [pstr "+vfp3d16"]),
  (pstr "vfpv3-d16-fp16", [pstr "vfp3d16,+fp16"]),
  (pstr "vfpv3-fp16", [pstr "+vfp3,+fp16"]),
  (pstr "vfpv3xd", []),
  (pstr "vfpv3xd-d16", []),
  (pstr "vfpv4", [pstr "+vfp4"]),
  (pstr "vfpv4-d16", [pstr "+vfp4d16"]),
  (pstr "vfpxd", [])]

/-- The `to_utf8` lambda: the Windows build narrows each character to a byte. -/
def toUtf8 (os : Platform) (s : PlatformString) : List Char :=
  match os with
  | .posix => s
  | .windows => s.map fun ch => Char.ofNat (ch.toNat % 256)

/-- `LlvmMcRunnerARM32::map_option`. -/
def mapOptionArm32 (os : Platform) (gasName value : PlatformString) : RunnerM Unit :=
  if gasName != pstr "mfpu" then pure ()
  else if value.isEmpty then
    throw (.invalidArgumentError
      (pstr "The `-mfpu` option requires a value, argument `value` must not be empty"))
  else
    match fpuTypeMap.lookup value with
    | none => throw (.invalidArgumentError (pstr "Unknown GAS FPU type: " ++ toUtf8 os value))
    | some mcFpu =>
        if mcFpu.isEmpty then
          throw (.invalidOperationError (pstr "Unable to map known GAS FPU type '" ++ toUtf8 os value ++
            pstr "' to llvm-mc value"))
        else appendAttributes mcFpu

/-- The virtual `map_option`; only the ARM32 runner does anything. -/
def mapOption (os : Platform) (gasName : PlatformString) (value : PlatformString := pstr "") :
    RunnerM Unit := do
  match (← get).kind with
  | .arm32 => mapOptionArm32 os gasName value
  | .arm64 | .x86 | .x64 => pure ()

/-! ## Running `llvm-mc` -/

/-- The process `run` fills in, one argument after the other. -/
def process (os : Platform) (runner : LlvmMcRunner) (executablePath : FsPath) : Process :=
  let process := Process.create os executablePath
  let process := match runner.arguments .arch with
    | some value => process.appendProgramArgumentVariant (pstr "--arch") value
    | none => process
  let process := process.appendProgramArgument (pstr "--triple") runner.triple
  let process := process.appendProgramArgument (pstr "--assemble")
  let process := match runner.arguments .generateDebug with
    | some _ => process.appendProgramArgument (pstr "-g")
    | none => process
  let process := match runner.arguments .fileType with
    | some value => process.appendProgramArgumentVariant (pstr "--filetype") value
    | none => process
  let process := match runner.arguments .mattr with
    | some value => process.appendProgramArgumentVariant (pstr "--mattr") value true
    | none => process
  let process := match runner.arguments .output with
    | some value => process.appendProgramArgumentVariant (pstr "-o") value
    | none => process
  process.appendProgramArgument (runner.inputFilePath.makePreferred os).native

/-- `LlvmMcRunner::run`. Rewriting the input path to preferred separators stays in the runner. -/
def run {σ : Type} (outside : Outside σ) (os : Platform) (env : Environment) (executablePath : FsPath) :
    EStateM Exception (LlvmMcRunner × σ) Int := do
  let present ← liftExcept (env.fileExists executablePath)
  if !present then
    onSecond (outside.tell (.missing executablePath))
    return Constants.wrapperExecFailedErrorCode
  let (runner, _) ← get
  onFirst (modify fun runner => { runner with inputFilePath := runner.inputFilePath.makePreferred os })
  onSecond (outside.start (runner.process os executablePath))

end LlvmMcRunner

end GasAdapter
