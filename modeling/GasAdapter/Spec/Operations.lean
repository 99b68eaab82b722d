import GasAdapter.Spec.Settings

/-! # Sequences of runner operations

A runner is used through its public member functions, any number of times and in any order, and its
caller may go on after one of them has thrown. `perform` is the member function itself, `execute` what
a sequence of them makes of a runner. On the abstract side an operation changes the settings or is
complained about, which changes nothing.
-/

namespace GasAdapter

/-- A call of a public member function. A run is given its surroundings of the time. -/
inductive Operation where
  | setInputFilePath (filePath : FsPath) (deriveOutputFileName : Bool)
  | setOutputFilePath (filePath : FsPath)
  | addIncludePath (includePath : FsPath)
  | generateDebugInfo
  | mapOption (gasName value : PlatformString)
  | run (env : Environment) (executablePath : FsPath) (started : List Process)

namespace Operation

/-- Only the runner is looked at; what a run returns and starts is left out. -/
def perform (os : Platform) : Operation → RunnerM Unit
  | setInputFilePath filePath derive => LlvmMcRunner.setInputFilePath os filePath derive
  | setOutputFilePath filePath => LlvmMcRunner.setOutputFilePath filePath
  | addIncludePath includePath => LlvmMcRunner.addIncludePath includePath
  | generateDebugInfo => LlvmMcRunner.generateDebugInfo
  | mapOption gasName value => LlvmMcRunner.mapOption os gasName value
  | run env executablePath started => fun runner =>
      match LlvmMcRunner.run (.silent env) os env executablePath (runner, started) with
      | .ok _ (runner, _) => .ok () runner
      | .error e (runner, _) => .error e runner

/-- The output an operation sets or derives. -/
def output (os : Platform) : Operation → Option PlatformString
  | setInputFilePath filePath derive =>
      if derive && (Settings.inputComplaint os filePath).isNone then
        some (LlvmMcRunner.makeOutputFilePath os filePath).native
      else none
  | setOutputFilePath filePath => some filePath.native
  | _ => none

/-- The include directory an operation adds. -/
def includeDir : Operation → Option PlatformString
  | addIncludePath includePath => if includePath.isEmpty then none else some includePath.native
  | _ => none

/-- The attributes an accepted `-mfpu` value adds: its entry in the table. -/
def attributes : Operation → List PlatformString
  | mapOption gasName value =>
      if gasName == pstr "mfpu" then (LlvmMcRunner.fpuTypeMap.lookup value).getD [] else []
  | _ => []

/-- The output set or derived last. -/
def lastOutput (os : Platform) (operations : List Operation) : Option PlatformString :=
  (operations.filterMap (output os)).getLast?

end Operation

namespace LlvmMcRunner

/-- The runner after an operation, also when it has thrown. -/
def after (os : Platform) (runner : LlvmMcRunner) (operation : Operation) : LlvmMcRunner :=
  match operation.perform os runner with
  | .ok _ runner => runner
  | .error _ runner => runner

def execute (os : Platform) (runner : LlvmMcRunner) (operations : List Operation) : LlvmMcRunner :=
  operations.foldl (after os) runner

end LlvmMcRunner

namespace Settings

/-- What an operation throws, if anything. -/
def complaint (os : Platform) (settings : Settings) : Operation → Option Exception
  | .setInputFilePath filePath _ => inputComplaint os filePath
  | .mapOption gasName value =>
      if settings.kind = .arm32 ∧ gasName = pstr "mfpu" then
        match fpuAttributes os value with
        | .error e => some e
        | .ok _ => none
      else none
  | .run env executablePath _ =>
      match env.fileExists executablePath with
      | .error e => some e
      | .ok _ => none
  | .setOutputFilePath _ | .addIncludePath _ | .generateDebugInfo => none

/-- The settings after an operation. -/
def told (os : Platform) (settings : Settings) : Operation → Settings
  | .setInputFilePath filePath derive =>
      if (inputComplaint os filePath).isSome then settings
      else { settings with
        input := filePath
        output := if derive then some (LlvmMcRunner.makeOutputFilePath os filePath).native
          else settings.output }
  | .setOutputFilePath filePath => { settings with output := some filePath.native }
  | .addIncludePath includePath =>
      { settings with includeDirs := settings.includeDirs ++
          (Operation.addIncludePath includePath).includeDir.toList }
  | .generateDebugInfo => { settings with debug := true }
  | .mapOption gasName value =>
      if settings.kind = .arm32 then
        { settings with attributes := settings.attributes ++ (Operation.mapOption gasName value).attributes }
      else settings
  | .run env executablePath _ =>
      match env.fileExists executablePath with
      | .ok true => { settings with input := settings.input.makePreferred os }
      | _ => settings

end Settings

end GasAdapter
