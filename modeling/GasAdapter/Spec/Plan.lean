import GasAdapter.Library.Script
import GasAdapter.Model.Gas
import GasAdapter.Spec.Reading
import GasAdapter.Spec.Settings

/-! # What the wrapper is for

A command line asks for something: inputs to assemble, an output, a floating-point unit, debug
information, or only help or the version. `Request` collects this from the items the command
line says, and `Plan` turns it into a script of child processes: one `llvm-mc` run for every
input and, for several inputs, an `ld` run on the objects. The script stops at the first failure.
-/

namespace GasAdapter

/-- What a list of items asks for. -/
structure Request where
  inputs : List FsPath
  outputs : List PlatformString
  fpus : List PlatformString
  debug : Bool
  help : Bool
  version : Bool
  versionExit : Bool
deriving DecidableEq, Repr

namespace Request

/-- A positional argument is an input, unless it repeats the architecture parameter. -/
def inputOf : Item → Option FsPath
  | .positional text => if Constants.archHackParam.isPrefixOf text then none else some ⟨text⟩
  | _ => none

/-- The value of an option with the given meaning. -/
def valueOf (id : OptionId) : Item → Option PlatformString
  | .option opt value => if opt.id == id then some value else none
  | _ => none

/-- Whether an option with the given meaning was read. -/
def reads (id : OptionId) (items : List Item) : Bool := items.any fun item => (valueOf id item).isSome

def ofItems (items : List Item) : Request where
  inputs := items.filterMap inputOf
  outputs := items.filterMap (valueOf .o)
  fpus := items.filterMap (valueOf .mfpu)
  debug := reads .g items
  help := reads .help items
  version := reads .version items
  versionExit := reads .versionExit items

theorem fpus_ofItems (items : List Item) : (ofItems items).fpus = items.filterMap (valueOf .mfpu) := rfl

/-- The file named by the last `-o`, or `a.out`. -/
def output (request : Request) : PlatformString :=
  request.outputs.getLast?.getD Constants.defaultOutputName

/-- The attributes of all `-mfpu` values, in order; the first bad value is complained about. -/
def attributes (os : Platform) : List PlatformString → Except Exception (List PlatformString)
  | [] => .ok []
  | value :: rest => do
      let first ← Settings.fpuAttributes os value
      let later ← attributes os rest
      .ok (first ++ later)

/-- The settings shared by all `llvm-mc` runs of the request. -/
def settings (kind : LlvmMcArchitecture) (request : Request) (attributes : List PlatformString) :
    Settings where
  kind := kind
  debug := request.debug
  attributes := Settings.baseAttributes kind ++ attributes

end Request

namespace Plan

open Request

abbrev Action := ScriptAction Process Exception

/-- The `llvm-mc` process for one input. -/
def llvmMcProcess (os : Platform) (llvmMc : FsPath) (settings : Settings) (output : PlatformString)
    (input : FsPath) : Process :=
  ⟨llvmMc.lexicallyNormal os,
    { settings with output := some output, input := input }.llvmMcArguments os⟩

/-- What happens for one input once its output is settled. -/
def inputAction (os : Platform) (env : Environment) (llvmMc : FsPath) (settings : Settings)
    (output : PlatformString) (input : FsPath) : Action :=
  match Settings.inputComplaint os input with
  | some e => .fail e
  | none =>
      match env.fileExists llvmMc with
      | .error e => .fail e
      | .ok false => .stop Constants.wrapperExecFailedErrorCode
      | .ok true => .start (llvmMcProcess os llvmMc settings output input)

/-- The object `llvm-mc` writes for one of several inputs. -/
def objectPath (os : Platform) (input : FsPath) : FsPath := LlvmMcRunner.makeOutputFilePath os input

/-- The `ld` process on the objects of the inputs. -/
def ldProcess (os : Platform) (ld : FsPath) (output : PlatformString) (inputs : List FsPath) : Process :=
  ⟨ld.lexicallyNormal os,
    [pstr "-o", output, pstr "--relocatable"] ++ inputs.map fun input => (objectPath os input).native⟩

/-- All processes of a request whose children succeed, in order. -/
def processes (os : Platform) (programDir : FsPath) (ldName : PlatformString) (settings : Settings)
    (output : PlatformString) (inputs : List FsPath) : List Process :=
  let llvmMc := programDir.append os (Constants.llvmMcName os)
  match inputs with
  | [] => []
  | [input] => [llvmMcProcess os llvmMc settings output input]
  | _ :: _ :: _ =>
      inputs.map (fun input => llvmMcProcess os llvmMc settings (objectPath os input).native input) ++
        [ldProcess os (programDir.append os ldName) output inputs]

/-- The script for the inputs: the only input goes to the output, several go to objects first. -/
def assembly (os : Platform) (env : Environment) (programDir : FsPath) (ldName : PlatformString)
    (settings : Settings) (output : PlatformString) (inputs : List FsPath) : List Action :=
  let llvmMc := programDir.append os (Constants.llvmMcName os)
  match inputs with
  | [] => [.stop 1]
  | [input] => [inputAction os env llvmMc settings output input]
  | _ :: _ :: _ =>
      inputs.map (fun input => inputAction os env llvmMc settings (objectPath os input).native input) ++
        [.start (ldProcess os (programDir.append os ldName) output inputs)]

/-- What the items of a command line lead to, for a target whose names are known. -/
def ofItems (os : Platform) (env : Environment) (programDir : FsPath) (target : Gas.Target)
    (items : List Item) (complete : Bool) : List Action :=
  let request := Request.ofItems items
  match attributes os request.fpus with
  | .error e => [.fail e]
  | .ok attributes =>
      if request.help || request.version || request.versionExit then [.stop 0]
      else if !complete then [.stop Constants.wrapperGeneralErrorCode]
      else assembly os env programDir target.ldName (request.settings target.runner attributes)
        request.output request.inputs

/-- What the arguments after `args[0]` say to a target. -/
def said (target : Gas.Target) (args : List PlatformString) : List Item :=
  Reading.items target.arch Gas.allOptions (args.drop 1)

/-- The input files, in order. -/
def inputs (target : Gas.Target) (args : List PlatformString) : List FsPath :=
  (said target args).filterMap Request.inputOf

/-- Whether every option that needs a value got one. -/
def complete (target : Gas.Target) (args : List PlatformString) : Bool :=
  (Reading.pending target.arch Gas.allOptions (args.drop 1)).isNone

/-- The complaints about options that the table does not have. -/
def unrecognized (items : List Item) : List CommandLine.Complaint :=
  items.filterMap fun
    | .unrecognized arg => some (.unrecognized arg)
    | _ => none

/-- Everything the parser complains about. -/
def complaints (target : Gas.Target) (args : List PlatformString) : List CommandLine.Complaint :=
  unrecognized (said target args) ++
    (Reading.pending target.arch Gas.allOptions (args.drop 1)).toList.map .requiresArgument

/-- What a run for information says. -/
def information (programName : PlatformString) (request : Request) : List Message :=
  if request.help then [.usage programName []]
  else if request.version || request.versionExit then [.version programName]
  else []

/-- What is said before anything is assembled. -/
def opening (programName : PlatformString) (target : Gas.Target) (args : List PlatformString) : List Message :=
  (complaints target args).map .complaint ++ information programName (Request.ofItems (said target args))

/-- The script of a whole command line. -/
def ofArguments (os : Platform) (env : Environment) (args : List PlatformString) : List Action :=
  match Gas.determineProgramDir os env args with
  | .error e => [.fail e]
  | .ok programDir =>
      match Gas.selectTarget os (Gas.requestedName args) with
      | none => [.stop 1]
      | some target =>
          ofItems os env programDir target (said target args) (complete target args)

/-! ## Carrying a plan out -/

section CarryOut

variable {σ : Type} (outside : Outside σ)

def sayAll (messages : List Message) (state : σ) : σ :=
  messages.foldl (fun state message => outside.say message state) state

theorem sayAll_append (first second : List Message) (state : σ) :
    sayAll outside (first ++ second) state = sayAll outside second (sayAll outside first state) :=
  List.foldl_append ..

/-- The wrapper itself only speaks about the end of `llvm-mc`. -/
def startTool (llvmMc : FsPath) (process : Process) (state : σ) : Int × σ :=
  let ended := outside.runProcess process state
  if process.executablePath = llvmMc ∧ ended.1 ≠ 0 then (ended.1, outside.say (.failed ended.1) ended.2)
  else ended

/-- A plan stops by itself for lack of `llvm-mc` or of inputs. -/
def stopTool (programName : PlatformString) (llvmMc : FsPath) (code : Int) (state : σ) : σ :=
  if code = Constants.wrapperExecFailedErrorCode then
    outside.say (.failed code) (outside.say (.missing llvmMc) state)
  else outside.say (.usage programName Gas.noInputsMessage) state

def conduct (os : Platform) (programName : PlatformString) (llvmMc : FsPath) :
    List Action → EStateM Exception σ Int :=
  Script.carryOut (startTool outside (llvmMc.lexicallyNormal os)) (stopTool outside programName llvmMc)

end CarryOut

end Plan

end GasAdapter
