import GasAdapter.Library.OptionList
import GasAdapter.Model.LlvmMcRunner

/-! # What an `llvm-mc` command line says

The options in front of the input are read back from `name=value`, or from a name and the argument
after it. `ReadsBack` is what it means for a command line to represent the option store of a runner: each
key has the values that are stored for it, in their order, and nothing else is said but what every run
is told.
-/

namespace GasAdapter

/-- The name of an option on the command line of `llvm-mc`. -/
def LlvmMcArgument.name : LlvmMcArgument → PlatformString
  | .arch => pstr "--arch"
  | .fileType => pstr "--filetype"
  | .generateDebug => pstr "-g"
  | .includeDir => pstr "-I"
  | .mattr => pstr "--mattr"
  | .mcpu => pstr "--mcpu"
  | .output => pstr "-o"

namespace McArguments

def mcSyntax : OptionSyntax Char where
  equals := '='
  isFlag name := name == pstr "--assemble" || name == pstr "-g"

/-- The features in the text of an attribute list. -/
def features (text : PlatformString) : List PlatformString := text.splitOn ','

/-- What a value says: attributes are lists of features, every other value is one piece. -/
def pieces : LlvmMcArgument → PlatformString → List PlatformString
  | .mattr, value => features value
  | _, value => [value]

/-- The values of a stored option, in the order in which they were added. -/
def values : ProcessArgument → List PlatformString
  | .string value => [value]
  | .list values => values

/-- What the store says about a key. -/
def content (runner : LlvmMcRunner) (key : LlvmMcArgument) : List PlatformString :=
  ((runner.arguments key).elim [] values).flatMap (pieces key)

/-- What the options of a command line say about a key. -/
def valuesRead (options : List (PlatformString × PlatformString)) (key : LlvmMcArgument) :
    List PlatformString :=
  (options.filterMap fun option => if option.1 == key.name then some option.2 else none).flatMap (pieces key)

/-- The options that belong to no key. -/
def unkeyed (options : List (PlatformString × PlatformString)) : List (PlatformString × PlatformString) :=
  options.filter fun option => LlvmMcRunner.knownOptions.all fun known => known.1.name != option.1

/-- The arguments represent the store: they are complete options that say for each key what is stored
for it, followed by the input. -/
def ReadsBack (os : Platform) (args : List PlatformString) (runner : LlvmMcRunner) : Prop :=
  ∃ options, mcSyntax.reader.run none args.dropLast = (none, options) ∧
    (∀ key, valuesRead options key = content runner key) ∧
    unkeyed options = [(pstr "--triple", runner.triple), (pstr "--assemble", [])] ∧
    args.getLast? = some (runner.inputFilePath.makePreferred os).native

/-- The `--mattr` arguments, with and without a value. -/
def mattrArguments (args : List PlatformString) : List PlatformString :=
  args.filter (pstr "--mattr").isPrefixOf

/-- A feature is turned on or off by a sign in front of its name. -/
def isSign (c : Char) : Bool := c == '+' || c == '-'

/-- A sign and a name that is not empty and does not start with another sign. -/
def isSigned : PlatformString → Bool
  | sign :: first :: _ => isSign sign && !isSign first
  | _ => false

/-- There is one `--mattr` argument, and every item of its list is signed. -/
def FeaturesSigned (args : List PlatformString) : Prop :=
  ∃ value, mattrArguments args = [pstr "--mattr=" ++ value] ∧
    ∀ feature ∈ features value, isSigned feature = true

end McArguments

end GasAdapter
