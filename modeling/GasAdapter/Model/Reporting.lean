import GasAdapter.Model.Children
import GasAdapter.Model.Gas

/-! # What the wrapper writes

The texts of everything the wrapper writes, and `Gas::run` on an outside that keeps them, between the starts
of its processes. The fates of the children are given; a run appends to a list of events.
-/

namespace GasAdapter

/-- Something a run does to the outside. Text is what is put into `std::cout` and `std::cerr`, in the order in
which it is put there: when the streams pass it on is not followed, nor that a run which is aborted may lose
what `std::cout` still holds. -/
inductive Event where
  | out (text : PlatformString)
  | err (text : PlatformString)
  | start (process : Process)
deriving DecidableEq, Repr

def Event.process? : Event → Option Process
  | .start process => some process
  | _ => none

/-- The versions the build is configured with. -/
structure Versions where
  xaUtils : PlatformString
  binutils : PlatformString
  llvm : PlatformString

namespace Reporting

/-- The processes among some events. -/
def started (events : List Event) : List Process := events.filterMap Event.process?

abbrev ReportM := EStateM Exception (List Event)

/-! ## Texts -/

/-- `operator<<` of a path is `std::quoted`. -/
def quoted (path : FsPath) : PlatformString :=
  pstr "\"" ++ path.native.flatMap (fun c => if c == '"' || c == '\\' then ['\\', c] else [c]) ++ pstr "\""

/-- The text of `print_process_command_line`. -/
def commandLineText (os : Platform) (process : Process) : PlatformString :=
  pstr "Running: " ++ quoted process.executablePath ++ process.args.flatMap (pstr " " ++ ·) ++
    Constants.newline os

def missingText (os : Platform) (executablePath : FsPath) : PlatformString :=
  pstr "Executable '" ++ executablePath.native ++ pstr "' does not exist." ++ Constants.newline os

def unrecognizedText (os : Platform) (option : PlatformString) : PlatformString :=
  pstr "Unrecognized option '" ++ option ++ Constants.newline os

/-- The text after the loop ends with `std::endl`. -/
def requiresArgumentText (opt : CommandLineOption) : PlatformString :=
  pstr "Option '" ++ opt.name ++ pstr "' requires an argument.\n"

def complaintText (os : Platform) : CommandLine.Complaint → PlatformString
  | .unrecognized option => unrecognizedText os option
  | .requiresArgument opt => requiresArgumentText opt
  | .requiresArgumentFor option => pstr "Option '" ++ option ++ pstr "' requires an argument."

def usageLines (versions : Versions) (programName : PlatformString) : List PlatformString := [
  pstr "`" ++ programName ++
    pstr "` takes a subset of arguments accepted by the GNU Assembler (gas) program.",
  pstr "Accepted options are limited to the ones used by Xamarin.Android and Mono/dotnet AOT, more can be added as-needed.",
  pstr "Some options are accepted but ignored, either because they are ignored by GAS as well or because they are used by",
  pstr "Xamarin.Android or Mono/dotnet AOT, but not needed by `llvm-mc`.  All the unsupported options will cause the wrapper",
  pstr "to fail with an error message.",
  pstr "Since `llvm-mc` does not support compiling multiple source files at the same time, this GAS behavior is emulated",
  pstr "by running `llvm-mc` once per each input file and using the `ld` linker in the end to merge all the discrete output",
  pstr "files into the single file indicated by the `-o` option.",
  [],
  pstr "Command line options are compatibile with GAS version " ++ versions.binutils,
  [],
  pstr "Currently supported options are:",
  [],
  pstr "All targets",
  pstr "   -o FILE            path to the output object file",
  pstr "  --warn              don't suppress warning messages",
  pstr "   -g | --gen-debug   generate debug information in the output object file",
  [],
  pstr "x86/x86_64 targets",
  pstr "  --32                output a 32-bit object [ignored, `llvm-mc` is always invoked for the right target]",
  pstr "  --64                output a 64-bit object [ignored, as above]",
  [],
  pstr "armeabi/arm32 targets",
  pstr "  -mfpu=FPU           select floating-point architecture for the target",
  [],
  pstr "Ignored by GAS and this wrapper",
  pstr "  --divide",
  pstr "   -k",
  pstr "  --nocpp",
  pstr "   -Qn",
  pstr "   -Qy",
  pstr "   -s",
  pstr "   -w",
  pstr "   -X",
  [],
  pstr "Wrapper options, not passed to `llvm-mc`",
  pstr "   -h | --help        show this help screen",
  pstr "   -V                 show version",
  pstr "  --version           show version and exit ",
  []]

def usageText (os : Platform) (versions : Versions) (programName : PlatformString) : PlatformString :=
  (usageLines versions programName).flatMap (· ++ Constants.newline os)

def versionText (os : Platform) (versions : Versions) (programName : PlatformString) : PlatformString :=
  programName ++ pstr " v" ++ versions.xaUtils ++ pstr ", Xamarin.Android GAS adapter for llvm-mc" ++
    Constants.newline os ++
    pstr "\tGAS version compatibility: " ++ versions.binutils ++ Constants.newline os ++
    pstr "\tllvm-mc version compatibility: " ++ versions.llvm ++ Constants.newline os ++ Constants.newline os

def failedText (os : Platform) (ret : Int) : PlatformString :=
  pstr "  mc_runner failed with error code " ++ decimal ret ++ Constants.newline os

/-! ## Events -/

section

variable (os : Platform) (versions : Versions)

def messageEvents : Message → List Event
  | .complaint complaint => [.err (complaintText os complaint)]
  | .usage programName message =>
      (if message.isEmpty then [] else [.err (message ++ Constants.newline os ++ Constants.newline os)]) ++
        [.err (usageText os versions programName)]
  | .version programName => [.out (versionText os versions programName)]
  | .missing executablePath => [.err (missingText os executablePath)]
  | .failed ret => [.err (failedText os ret)]

/-- The outside that keeps everything. A process is announced by its command line. -/
def outside (fates : List Process → Process → Fate os) : Outside (List Event) where
  say message events := events ++ messageEvents os versions message
  runProcess process events :=
    let fate := fates (started events) process
    (fate.code, events ++ .out (commandLineText os process) :: .start process :: fate.messages.map .err)

end

/-- `Gas::run` with everything it writes. -/
def run (os : Platform) (env : Environment) (versions : Versions) (fates : List Process → Process → Fate os)
    (args : List PlatformString) : ReportM Int :=
  Gas.runWith (outside os versions fates) os env args

end Reporting

end GasAdapter
