import GasAdapter.Library.LexicalNormal

/-! # The platform layer

What `platform.hh`, `constants.hh` and `exceptions.hh` supply to the rest of the wrapper, for
both builds. Strings are character lists and paths keep their native text; path operations are
the lexical ones of the C++ standard at the platform's pathname grammar.
-/

namespace GasAdapter

/-- The two builds, selected by `_WIN32` in the source. -/
inductive Platform where
  | posix
  | windows
deriving DecidableEq, Repr

/-- `platform::string`. -/
abbrev PlatformString := List Char

/-- A literal in the `PSTR` macro. -/
def pstr (literal : String) : PlatformString := literal.toList

def Platform.pathGrammar : Platform → Pathname.Grammar
  | .posix => Pathname.posix
  | .windows => Pathname.windows

/-- The exceptions the wrapper raises itself or lets through, with their `what ()` text. -/
inductive Exception where
  | invalidArgumentError (what : List Char)
  | invalidOperationError (what : List Char)
  | badVariantAccess
  | filesystemError (what : List Char)
deriving DecidableEq, Repr

/-! ## Paths -/

/-- `std::filesystem::path`. -/
structure FsPath where
  native : PlatformString
deriving DecidableEq, Repr

namespace FsPath

def isEmpty (path : FsPath) : Bool := path.native.isEmpty

def filename (os : Platform) (path : FsPath) : FsPath := ⟨os.pathGrammar.filename path.native⟩

def hasFilename (os : Platform) (path : FsPath) : Bool := !(path.filename os).isEmpty

def isAbsolute (os : Platform) (path : FsPath) : Bool := os.pathGrammar.isAbsolute path.native

def parentPath (os : Platform) (path : FsPath) : FsPath := ⟨os.pathGrammar.parentPath path.native⟩

def makePreferred (os : Platform) (path : FsPath) : FsPath := ⟨os.pathGrammar.makePreferred path.native⟩

def replaceExtension (os : Platform) (path : FsPath) (replacement : PlatformString) : FsPath :=
  ⟨os.pathGrammar.replaceExtension path.native replacement⟩

def lexicallyNormal (os : Platform) (path : FsPath) : FsPath :=
  ⟨os.pathGrammar.lexicallyNormal path.native⟩

/-- `path::operator/`. -/
def append (os : Platform) (path : FsPath) (other : PlatformString) : FsPath :=
  ⟨os.pathGrammar.append path.native other⟩

end FsPath

/-! ## Constants -/

namespace Constants

def newline : Platform → PlatformString
  | .posix => pstr "\n"
  | .windows => pstr "\r\n"

def llvmMcName : Platform → PlatformString
  | .posix => pstr "llvm-mc"
  | .windows => pstr "llvm-mc.exe"

def archHackParam : PlatformString := pstr "@gas-arch="

def defaultOutputName : PlatformString := pstr "a.out"

def wrapperGeneralErrorCode : Int := 100

def wrapperLlvmMcKilledErrorCode : Int := wrapperGeneralErrorCode + 1

def wrapperLlvmMcStoppedErrorCode : Int := wrapperGeneralErrorCode + 2

def wrapperForkFailedErrorCode : Int := wrapperGeneralErrorCode + 3

def wrapperExecFailedErrorCode : Int := wrapperGeneralErrorCode + 4

def wrapperWaitFailedErrorCode : Int := wrapperGeneralErrorCode + 5

end Constants

/-- `TargetArchitecture`. -/
inductive TargetArchitecture where
  | any
  | arm32
  | arm64
  | x86
  | x64
deriving DecidableEq, Repr

end GasAdapter
