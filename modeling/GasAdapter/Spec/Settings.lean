import GasAdapter.Model.LlvmMcRunner

/-! # What an `llvm-mc` runner has been told

The runner stores its options in a map from keys to strings or lists of strings. `Settings` is
that store with the types it is meant to have: flags, one output, and lists where an option may
be given several times. No settings are ill-formed, so a store that represents some settings
never holds the wrong kind of value.
-/

namespace GasAdapter

structure Settings where
  kind : LlvmMcArchitecture
  debug : Bool := false
  includeDirs : List PlatformString := []
  attributes : List PlatformString := []
  mcpu : Option PlatformString := none
  output : Option PlatformString := none
  input : FsPath := ⟨[]⟩
deriving DecidableEq

namespace Settings

/-- An option that may be set several times is stored once it has been set. -/
def stored (values : List PlatformString) : Option ProcessArgument :=
  if values.isEmpty then none else some (.list values)

/-- The store that represents the settings. -/
def arguments (settings : Settings) : LlvmMcArgument → Option ProcessArgument
  | .arch => some (.string (LlvmMcRunner.architectureNames settings.kind).1)
  | .fileType => some (.string (pstr "obj"))
  | .generateDebug => if settings.debug then some (.string []) else none
  | .includeDir => stored settings.includeDirs
  | .mattr => stored settings.attributes
  | .mcpu => settings.mcpu.map .string
  | .output => settings.output.map .string

def triple (kind : LlvmMcArchitecture) : PlatformString :=
  (LlvmMcRunner.architectureNames kind).2 ++ pstr "-linux-gnu"

/-- The runner that has been told the settings. -/
def runner (settings : Settings) : LlvmMcRunner where
  kind := settings.kind
  arguments := settings.arguments
  inputFilePath := settings.input
  triple := triple settings.kind

/-- The attributes a runner is constructed with: ARM32 always targets ARMv7-a. -/
def baseAttributes : LlvmMcArchitecture → List PlatformString
  | .arm32 => [pstr "+armv7-a"]
  | .arm64 | .x86 | .x64 => []

def initial (kind : LlvmMcArchitecture) : Settings where
  kind := kind
  attributes := baseAttributes kind

/-- The attributes an `-mfpu` value stands for, or the complaint about it. -/
def fpuAttributes (os : Platform) (value : PlatformString) : Except Exception (List PlatformString) :=
  if value.isEmpty then
    .error (.invalidArgumentError
      (pstr "The `-mfpu` option requires a value, argument `value` must not be empty"))
  else
    match LlvmMcRunner.fpuTypeMap.lookup value with
    | none =>
        .error (.invalidArgumentError (pstr "Unknown GAS FPU type: " ++ LlvmMcRunner.toUtf8 os value))
    | some [] =>
        .error (.invalidOperationError (pstr "Unable to map known GAS FPU type '" ++
          LlvmMcRunner.toUtf8 os value ++ pstr "' to llvm-mc value"))
    | some attributes => .ok attributes

/-- What is wrong with an input path, if anything. -/
def inputComplaint (os : Platform) (input : FsPath) : Option Exception :=
  if input.isEmpty then
    some (.invalidArgumentError (pstr "Argument 'file_path' must not be empty"))
  else if !input.hasFilename os then
    some (.invalidArgumentError (pstr "Argument 'file_path' must have the file name portion"))
  else none

/-- The arguments of every run with the settings, whatever its output and input. -/
def sharedArguments (settings : Settings) : List PlatformString :=
  [pstr "--arch=" ++ (LlvmMcRunner.architectureNames settings.kind).1,
    pstr "--triple=" ++ triple settings.kind, pstr "--assemble"] ++
  (if settings.debug then [pstr "-g"] else []) ++
  [pstr "--filetype=obj"] ++
  (if settings.attributes.isEmpty then []
    else [pstr "--mattr=" ++ Process.valueList settings.attributes])

/-- The argument between the shared ones and the input. -/
def outputArguments (settings : Settings) : List PlatformString :=
  match settings.output with
  | none => []
  | some [] => [pstr "-o"]
  | some output => [pstr "-o=" ++ output]

/-- The arguments `llvm-mc` is run with. -/
def llvmMcArguments (os : Platform) (settings : Settings) : List PlatformString :=
  settings.sharedArguments ++ settings.outputArguments ++ [(settings.input.makePreferred os).native]

theorem llvmMcArguments_output (os : Platform) (settings : Settings) (input : FsPath)
    {output : PlatformString} (nonempty : output ≠ []) :
    { settings with output := some output, input := input }.llvmMcArguments os =
      settings.sharedArguments ++ [pstr "-o=" ++ output, (input.makePreferred os).native] := by
  obtain ⟨c, rest, rfl⟩ := List.exists_cons_of_ne_nil nonempty
  exact List.append_assoc ..

/-- Only debug information is asked for by `-g`: every other shared argument starts with `--`. -/
theorem mem_sharedArguments_g (settings : Settings) :
    pstr "-g" ∈ settings.sharedArguments ↔ settings.debug = true := by
  cases debug : settings.debug <;> cases empty : settings.attributes.isEmpty <;>
    simp [sharedArguments, pstr, debug, empty]

theorem sharedArguments_full (settings : Settings) : ∀ arg ∈ settings.sharedArguments, arg ≠ [] := by
  cases debug : settings.debug <;> cases empty : settings.attributes.isEmpty <;>
    simp [sharedArguments, pstr, debug, empty]

/-- The output is no shared argument. -/
theorem not_mem_sharedArguments_o (settings : Settings) : pstr "-o" ∉ settings.sharedArguments := by
  cases debug : settings.debug <;> cases empty : settings.attributes.isEmpty <;>
    simp [sharedArguments, pstr, debug, empty]

end Settings

end GasAdapter
