import GasAdapter.Model.Gas

/-! # The package

What `package.sh` puts next to each other in the `bin` directory of one operating system, and what the scripts
for the assembler among it run. A directory is given by the names of its files. Under `bash -e` the first
command that fails is the last, so `prepare` may come to nothing.
-/

namespace GasAdapter.Package

/-! ## Names of `common.sh` -/

def androidTriples : List PlatformString :=
  [pstr "aarch64-linux-android", pstr "arm-linux-androideabi", pstr "i686-linux-android",
    pstr "x86_64-linux-android"]

def llvmBinaries : List PlatformString :=
  [pstr "llvm-mc", pstr "llvm-objcopy", pstr "llvm-strip", pstr "lld", pstr "llc"]

def makePrefixedBinaries (binary : PlatformString) : List PlatformString :=
  androidTriples.map fun triple => triple ++ pstr "-" ++ binary

def llvmPrefixedBinaries : List PlatformString :=
  makePrefixedBinaries (pstr "strip") ++ makePrefixedBinaries (pstr "ld")

def xaUtilsBinaries : List PlatformString := [pstr "as"]

def xaUtilsPrefixedBinaries : List PlatformString := makePrefixedBinaries (pstr "as")

def binaries : List PlatformString :=
  llvmBinaries ++ llvmPrefixedBinaries ++ xaUtilsBinaries ++ xaUtilsPrefixedBinaries

/-! ## Packing -/

/-- A file that is copied: its name in the artifacts, and the one in the package. -/
structure Copy where
  source : PlatformString
  dest : PlatformString
deriving DecidableEq, Repr

/-- `cp` of a file that has to be there. -/
def cp (artifacts : List PlatformString) (source dest : PlatformString) : Option (List Copy) :=
  if artifacts.contains source then some [⟨source, dest⟩] else none

def exe : Platform → PlatformString
  | .posix => []
  | .windows => pstr ".exe"

def cmd : Platform → PlatformString
  | .posix => []
  | .windows => pstr ".cmd"

/-- The files `make_windows_wrapper_scripts` and `make_unix_wrapper_scripts` add to the artifacts. -/
def makeWrapperScripts (os : Platform) (outputBaseName : PlatformString) : List PlatformString :=
  (makePrefixedBinaries outputBaseName).map (· ++ cmd os)

/-- All of them. -/
def wrapperScripts (os : Platform) : List PlatformString :=
  [pstr "objcopy", pstr "strip", pstr "as", pstr "ld"].flatMap (makeWrapperScripts os)

/-- `dest_b` before a suffix is added. -/
def destName (b : PlatformString) : PlatformString := if b == pstr "lld" then pstr "ld" else b

/-- The file that stands for a binary, and the debug symbols looked for with it. -/
def selectBinary (os : Platform) (artifacts : List PlatformString) (b : PlatformString) : Copy × List Copy :=
  if artifacts.contains (b ++ exe os) then
    (⟨b ++ exe os, destName b ++ exe os⟩, [⟨b ++ pstr ".pdb", destName b ++ pstr ".pdb"⟩])
  else if artifacts.contains (b ++ cmd os) then (⟨b ++ cmd os, destName b ++ cmd os⟩, [])
  else (⟨b, destName b⟩, [])

/-- The body of the loop in `prepare`. -/
def prepareBinary (os : Platform) (artifacts : List PlatformString) (b : PlatformString) :
    Option (List Copy) := do
  let selected := selectBinary os artifacts b
  let upx := selected.1.source ++ pstr ".upx"
  let copied ← cp artifacts (if artifacts.contains upx then upx else selected.1.source) selected.1.dest
  pure (copied ++ selected.2.filter fun pdb => artifacts.contains pdb.source)

/-- The debug symbols that are copied first. -/
def preparePdbs (artifacts : List PlatformString) : Platform → Option (List Copy)
  | .posix => some []
  | .windows => do
      let objcopy ← cp artifacts (pstr "llvm-objcopy.pdb") (pstr "llvm-objcopy.pdb")
      let lld ← cp artifacts (pstr "lld.pdb") (pstr "lld.pdb")
      pure (objcopy ++ lld)

/-- `prepare`, as far as the `bin` directory goes. -/
def prepare (os : Platform) (artifacts : List PlatformString) : Option (List Copy) := do
  let pdbs ← preparePdbs artifacts os
  let copied ← binaries.mapM (prepareBinary os (artifacts ++ wrapperScripts os))
  pure (pdbs ++ copied.flatten)

/-- The names in the package. -/
def names (copied : List Copy) : List PlatformString := copied.map Copy.dest

/-! ## Scripts -/

def basename (path : PlatformString) : PlatformString :=
  let trimmed := path.rdropWhile (· == '/')
  if trimmed.isEmpty then path.take 1 else trimmed.rtakeWhile (· != '/')

def dirname (path : PlatformString) : PlatformString :=
  let above := (path.rdropWhile (· == '/')).rdropWhile (· != '/')
  let directory := above.rdropWhile (· == '/')
  if directory.isEmpty then (if path.head? = some '/' then pstr "/" else pstr ".") else directory

/-- The characters at which bash splits a text that is not quoted, and those that make it a pattern. -/
def bashSpecial : List Char := [' ', '\t', '\n', '*', '?', '[', '\\']

/-- `gas.sh` run as `$0`: the arguments of the `as` it executes. `$(cd …;pwd)` is a parameter, since directories
and `CDPATH` decide on it. `$0` is not quoted, so one that bash splits or expands, or that its commands take for
an option, is left out. -/
def gasScript (cdPwd : PlatformString → Option PlatformString) (zero : PlatformString)
    (args : List PlatformString) : Option (List PlatformString) :=
  if zero.isEmpty || zero.head? == some '-' || zero.any bashSpecial.contains then none
  else do
    let myName := basename zero
    let myDir ← cdPwd (dirname zero)
    pure ((myDir ++ pstr "/as") :: (Constants.archHackParam ++ myName) :: args)

/-- `gas.cmd.in` for one target: the command line of the `as.exe` next to it. The directory ends with a
backslash, and `%*` is how the command line of the script goes on. -/
def gasCommand (binariesDirectory targetName rest : PlatformString) : PlatformString :=
  pstr "\"" ++ binariesDirectory ++ pstr "as.exe\" " ++ Constants.archHackParam ++ targetName ++ pstr " " ++ rest

/-! ## The Windows build -/

/-- The files `build-llvm.cmd` and `build-xa-utils.cmd` leave in the artifacts. -/
def windowsArtifacts : List PlatformString :=
  [pstr "llvm-mc.exe", pstr "llvm-objcopy.exe", pstr "llvm-strip.exe", pstr "lld.exe", pstr "llc.exe",
    pstr "llvm-mc.pdb", pstr "llvm-objcopy.pdb", pstr "llvm-strip.pdb", pstr "lld.pdb", pstr "llc.pdb",
    pstr "as.exe", pstr "as.pdb"]

end GasAdapter.Package
