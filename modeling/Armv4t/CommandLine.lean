import Armv4t.Numeral.Read
import Armv4t.Word

/-! # The command line — an image, and five options with a value

    | argument         | value                            | without it |
    |------------------|----------------------------------|------------|
    | the image        | a path                           | refused    |
    | `--load-address` | hexadecimal, `0x` and `_` allowed | 08000000  |
    | `--cycles`       | decimal, 64 bits                 | 16780000   |
    | `--slice`        | decimal, 32 signed bits          | 1232       |
    | `--config`       | a path                           | none       |
    | `--log-dir`      | a path                           | none       |

    A value follows its option, or is attached to it by an equals sign.  A value
    that follows may not start with a dash.  Behind `--` every argument is an
    image.

    Arguments are read from the left.  The value that was read last is looked at
    only when the next option, the image or the end is reached; an argument that
    nobody knows is refused at once. -/

namespace Armv4t.CommandLine

/-- What the command line asks for. -/
structure Arguments where
  /-- The file to run. -/
  image : String
  loadAddress : Word
  /-- The cycles to run for. -/
  cycles : UInt64
  /-- The cycles that the machine is given at a time. -/
  slice : Int32
  /-- The configuration file. -/
  config : Option String
  /-- The directory that receives a copy of the log. -/
  logDir : Option String
  deriving DecidableEq, Repr

/-- Why a command line starts no run. -/
inductive Refusal where
  /-- Help was asked for. -/
  | help
  /-- The version was asked for. -/
  | version
  | missingImage
  | unknownArgument
  /-- An option without a value, or an empty path. -/
  | missingValue
  /-- A value for help or version. -/
  | unwantedValue
  | repeatedOption
  | badNumeral (error : NumeralError)
  | sliceOutOfRange (slice : Int)
  deriving DecidableEq, Repr

/-- What `--help` prints. -/
def usage : String :=
  "Usage: armv4t [OPTIONS] <IMAGE>\n\n"
    ++ "Arguments:\n"
    ++ "  <IMAGE>  Raw binary image to load\n\n"
    ++ "Options:\n"
    ++ "  --load-address <ADDRESS>  Hexadecimal address of the image [default: 0x08000000]\n"
    ++ "  --cycles <CYCLES>         Cycles to run for [default: 16780000]\n"
    ++ "  --slice <SLICE>           Cycles handed out at a time [default: 1232]\n"
    ++ "  --config <PATH>           JSON file with the sections cpu and wait_control\n"
    ++ "  --log-dir <PATH>          Directory receiving tdmi.log\n"
    ++ "  -h, --help                Print help\n"
    ++ "  -V, --version             Print version"

/-- The answer to a request, or what is wrong. -/
def Refusal.message : Refusal → String
  | help => usage
  | version => "armv4t 0.1.0"
  | missingImage => "the image is missing"
  | unknownArgument => "unexpected argument"
  | missingValue => "a value is missing"
  | unwantedValue => "unexpected value"
  | repeatedOption => "an option is given twice"
  | badNumeral e => e.message
  | sliceOutOfRange n => toString n ++ " is not in -2147483648..=2147483647"

/-- An option that takes a value. -/
inductive OptionName where
  | loadAddress
  | cycles
  | slice
  | config
  | logDir
  deriving DecidableEq, Repr

namespace OptionName

/-- Every option. -/
def all : List OptionName := [loadAddress, cycles, slice, config, logDir]

/-- The name behind the two dashes. -/
def text : OptionName → String
  | loadAddress => "load-address"
  | cycles => "cycles"
  | slice => "slice"
  | config => "config"
  | logDir => "log-dir"

/-- The option with a name. -/
def ofText? (s : String) : Option OptionName := all.find? (fun o => o.text == s)

end OptionName

/-- The digits of an address: at most one `0x` in front and all underscores are
    left out. -/
def addressDigits (cs : List Char) : List Char :=
  let digits := match cs with
    | '0' :: 'x' :: rest => rest
    | '0' :: 'X' :: rest => rest
    | cs => cs
  digits.filter (· != '_')

/-- Reads an address. -/
def readAddress (cs : List Char) : Except NumeralError Word :=
  (readNat 16 0xFFFFFFFF (addressDigits cs)).map Nat.toUInt32

/-- Reads a number of cycles. -/
def readCycles (cs : List Char) : Except NumeralError UInt64 :=
  (readNat 10 0xFFFFFFFFFFFFFFFF cs).map Nat.toUInt64

/-- Reads a slice: a number of 64 signed bits that has to fit into 32. -/
def readSlice (cs : List Char) : Except Refusal Int32 :=
  match readInt 10 0x8000000000000000 0x7FFFFFFFFFFFFFFF cs with
  | .error e => .error (.badNumeral e)
  | .ok n =>
    if -0x80000000 ≤ n ∧ n ≤ 0x7FFFFFFF then .ok (Int32.ofInt n) else .error (.sliceOutOfRange n)

/-- Reads a path, which may not be empty. -/
def readPath (s : String) : Except Refusal String :=
  if s.isEmpty then .error .missingValue else .ok s

/-- The values that were given so far. -/
structure GivenValues where
  image : Option String
  loadAddress : Option Word
  cycles : Option UInt64
  slice : Option Int32
  config : Option String
  logDir : Option String

namespace GivenValues

/-- No value at all. -/
def none : GivenValues := ⟨.none, .none, .none, .none, .none, .none⟩

/-- Whether an option has its value. -/
def has (g : GivenValues) : OptionName → Bool
  | .loadAddress => g.loadAddress.isSome
  | .cycles => g.cycles.isSome
  | .slice => g.slice.isSome
  | .config => g.config.isSome
  | .logDir => g.logDir.isSome

/-- Gives an option its value. -/
def put (g : GivenValues) (o : OptionName) (value : String) : Except Refusal GivenValues :=
  match o with
  | .loadAddress =>
    match readAddress value.toList with
    | .ok a => .ok { g with loadAddress := some a }
    | .error e => .error (.badNumeral e)
  | .cycles =>
    match readCycles value.toList with
    | .ok n => .ok { g with cycles := some n }
    | .error e => .error (.badNumeral e)
  | .slice => (readSlice value.toList).map fun n => { g with slice := some n }
  | .config => (readPath value).map fun p => { g with config := some p }
  | .logDir => (readPath value).map fun p => { g with logDir := some p }

/-- Gives an option its value, if it is the first one. -/
def putOnce (g : GivenValues) (o : OptionName) (value : String) : Except Refusal GivenValues :=
  if g.has o then .error .repeatedOption else g.put o value

/-- The arguments, with the standard values for those that were not given. -/
def complete (g : GivenValues) : Except Refusal Arguments :=
  match g.image with
  | .none => .error .missingImage
  | some image =>
    .ok {
      image
      loadAddress := g.loadAddress.getD 0x08000000
      cycles := g.cycles.getD 16780000
      slice := g.slice.getD 1232
      config := g.config
      logDir := g.logDir }

end GivenValues

/-- An argument by its shape. -/
inductive Token where
  /-- An image or the value of an option. -/
  | plain (text : String)
  /-- Two dashes alone. -/
  | terminator
  /-- Two dashes, a name, and perhaps a value behind an equals sign. -/
  | long (name : String) (attached : Option String)
  /-- One dash and a letter; what follows the letter does not count. -/
  | short (letter : Char)
  deriving DecidableEq, Repr

/-- The shape of an argument.  A dash alone is plain. -/
def Token.ofText (s : String) : Token :=
  match s.toList with
  | ['-', '-'] => .terminator
  | '-' :: '-' :: cs =>
    let attached := match cs.dropWhile (· != '=') with
      | _ :: value => some (String.ofList value)
      | [] => none
    .long (String.ofList (cs.takeWhile (· != '='))) attached
  | '-' :: c :: _ => .short c
  | _ => .plain s

/-- What was read last and not yet looked at. -/
inductive Pending where
  | nothing
  /-- An option that still needs its value. -/
  | option (name : OptionName)
  | value (name : OptionName) (text : String)
  | image (path : String)
  deriving DecidableEq, Repr

/-- A command line that is read up to some argument. -/
structure Reading where
  given : GivenValues
  pending : Pending
  /-- Behind the terminator. -/
  trailing : Bool

namespace Reading

/-- Nothing is read yet. -/
def start : Reading := ⟨.none, .nothing, false⟩

/-- The values after a look at the one that was read last. -/
def settle (r : Reading) : Except Refusal GivenValues :=
  match r.pending with
  | .nothing => .ok r.given
  | .option _ => .error .missingValue
  | .value o text => r.given.putOnce o text
  | .image path => (readPath path).map fun p => { r.given with image := some p }

/-- Whether an image was read. -/
def hasImage (r : Reading) : Bool :=
  r.given.image.isSome || match r.pending with
    | .image _ => true
    | _ => false

/-- Looks at the value that was read last and goes on with something new. -/
def advance (r : Reading) (next : Pending) : Except Refusal Reading :=
  r.settle.map fun given => { r with given, pending := next }

/-- Reads an image.  There can be only one. -/
def readImage (r : Reading) (path : String) : Except Refusal Reading :=
  if r.hasImage then .error .unknownArgument else r.advance (.image path)

/-- Answers a request for help or the version, unless the value before it is wrong. -/
def answer (r : Reading) (request : Refusal) : Except Refusal Reading :=
  r.settle.bind fun _ => .error request

/-- Reads an argument with two dashes. -/
def readLong (r : Reading) (name : String) (attached : Option String) :
    Except Refusal Reading :=
  if name = "help" then if attached.isSome then .error .unwantedValue else r.answer .help
  else if name = "version" then
    if attached.isSome then .error .unwantedValue else r.answer .version
  else
    match OptionName.ofText? name, attached with
    | none, _ => .error .unknownArgument
    | some o, none => r.advance (.option o)
    | some o, some value => do
      let given ← (← r.settle).putOnce o value
      return { r with given, pending := .nothing }

/-- Reads one argument. -/
def next (r : Reading) (argument : String) : Except Refusal Reading :=
  if r.trailing then r.readImage argument
  else
    match Token.ofText argument with
    | .terminator => .ok { r with trailing := true }
    | .long name attached => r.readLong name attached
    | .short 'h' => r.answer .help
    | .short 'V' => r.answer .version
    | .short _ => .error .unknownArgument
    | .plain text =>
      match r.pending with
      | .option o => .ok { r with pending := .value o text }
      | _ => r.readImage text

end Reading

/-- What a command line asks for, or why it is refused. -/
def parse (arguments : List String) : Except Refusal Arguments := do
  let reading ← arguments.foldlM Reading.next Reading.start
  (← reading.settle).complete

end Armv4t.CommandLine
