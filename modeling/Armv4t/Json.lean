import Armv4t.Numeral.Read

/-! # JSON — a strict reader

    The reader keeps what a configuration can use: whole numbers without a sign,
    a fraction or an exponent, flags, texts, and the members of an object in
    their order, repeated ones included.  Any other number is only known to be
    one, and a text with half of a surrogate pair only to be a text. -/

namespace Armv4t

/-- A JSON value. -/
inductive Json where
  | null
  | flag (b : Bool)
  /-- A number written with digits alone. -/
  | whole (n : Nat)
  /-- Any other number. -/
  | number
  /-- A text, unless it holds half of a surrogate pair. -/
  | text (s : Option String)
  | array (items : List Json)
  | object (members : List (Option String × Json))

namespace Json

/-- The characters that may stand between tokens. -/
def isBlank (c : Char) : Bool := c == ' ' || c == '\n' || c == '\t' || c == '\r'

/-- What follows the blanks. -/
def skipBlanks (cs : List Char) : List Char := cs.dropWhile isBlank

/-- The sixteen bits that four hexadecimal digits stand for. -/
def unit? (a b c d : Char) : Option Nat := do
  let a ← digit? 16 a
  let b ← digit? 16 b
  let c ← digit? 16 c
  let d ← digit? 16 d
  return a * 4096 + b * 256 + c * 16 + d

/-- The first half of a surrogate pair. -/
def isLead (u : Nat) : Bool := 0xD800 ≤ u && u < 0xDC00

/-- The second half of a surrogate pair. -/
def isTrail (u : Nat) : Bool := 0xDC00 ≤ u && u < 0xE000

/-- The character of a surrogate pair. -/
def paired (lead trail : Nat) : Char :=
  Char.ofNat (0x10000 + (lead - 0xD800) * 0x400 + (trail - 0xDC00))

/-- The character behind a backslash. -/
def escaped? : Char → Option Char
  | '"' => some '"'
  | '\\' => some '\\'
  | '/' => some '/'
  | 'b' => some '\x08'
  | 'f' => some '\x0c'
  | 'n' => some '\n'
  | 'r' => some '\r'
  | 't' => some '\t'
  | _ => none

/-- Reads a text after its opening quote.  The characters read so far come last
    first; `sound` says that no half of a pair was among them. -/
def readText (read : List Char) (sound : Bool) :
    List Char → Option (Option String × List Char)
  | [] => none
  | '"' :: rest => some (if sound then some (String.ofList read.reverse) else none, rest)
  | '\\' :: 'u' :: a :: b :: c :: d :: rest =>
    match unit? a b c d with
    | none => none
    | some u =>
      if isLead u then
        match rest with
        | '\\' :: 'u' :: e :: f :: g :: h :: after =>
          match unit? e f g h with
          | none => none
          | some v =>
            if isTrail v then readText (paired u v :: read) sound after
            else readText read false ('\\' :: 'u' :: e :: f :: g :: h :: after)
        | rest => readText read false rest
      else if isTrail u then readText read false rest
      else readText (Char.ofNat u :: read) sound rest
  | '\\' :: c :: rest =>
    match escaped? c with
    | some e => readText (e :: read) sound rest
    | none => none
  | c :: rest => if c.toNat < 0x20 then none else readText (c :: read) sound rest
termination_by cs => cs.length

/-- The number that decimal digits stand for. -/
def ofDigits (ds : List Char) : Nat := ds.foldl (fun n d => 10 * n + (d.toNat - '0'.toNat)) 0

/-- Reads the digits before the point: one zero, or digits that do not start with it. -/
def readWhole (cs : List Char) : Option (List Char × List Char) :=
  let digits := cs.takeWhile Char.isDigit
  let rest := cs.dropWhile Char.isDigit
  match digits with
  | [] => none
  | '0' :: _ :: _ => none
  | _ => some (digits, rest)

/-- Reads at least one digit and forgets them. -/
def skipDigits (cs : List Char) : Option (List Char) :=
  if (cs.takeWhile Char.isDigit).isEmpty then none else some (cs.dropWhile Char.isDigit)

/-- Reads a fraction, if there is one, and says whether there was. -/
def readFraction : List Char → Option (Bool × List Char)
  | '.' :: rest => (skipDigits rest).map (true, ·)
  | rest => some (false, rest)

/-- Reads an exponent, if there is one, and says whether there was. -/
def readExponent : List Char → Option (Bool × List Char)
  | 'e' :: rest | 'E' :: rest =>
    let unsigned := match rest with
      | '+' :: rest | '-' :: rest => rest
      | rest => rest
    (skipDigits unsigned).map (true, ·)
  | rest => some (false, rest)

/-- Reads a number. -/
def readNumber (cs : List Char) : Option (Json × List Char) := do
  let (negative, cs) := match cs with
    | '-' :: rest => (true, rest)
    | cs => (false, cs)
  let (digits, cs) ← readWhole cs
  let (fraction, cs) ← readFraction cs
  let (exponent, cs) ← readExponent cs
  return (if negative || fraction || exponent then .number else .whole (ofDigits digits), cs)

mutual

/-- Reads a value, blanks before it included.  The first argument bounds the depth
    and the length of what is read; the length of the input is enough. -/
def readValue : Nat → List Char → Option (Json × List Char)
  | 0, _ => none
  | n + 1, cs =>
    match skipBlanks cs with
    | 'n' :: 'u' :: 'l' :: 'l' :: rest => some (.null, rest)
    | 't' :: 'r' :: 'u' :: 'e' :: rest => some (.flag true, rest)
    | 'f' :: 'a' :: 'l' :: 's' :: 'e' :: rest => some (.flag false, rest)
    | '"' :: rest => (readText [] true rest).map fun (s, rest) => (.text s, rest)
    | '[' :: rest =>
      match skipBlanks rest with
      | ']' :: rest => some (.array [], rest)
      | rest => (readItems n rest).map fun (items, rest) => (.array items, rest)
    | '{' :: rest =>
      match skipBlanks rest with
      | '}' :: rest => some (.object [], rest)
      | rest => (readMembers n rest).map fun (members, rest) => (.object members, rest)
    | cs => readNumber cs

/-- Reads the items of an array up to its closing bracket. -/
def readItems : Nat → List Char → Option (List Json × List Char)
  | 0, _ => none
  | n + 1, cs => do
    let (item, rest) ← readValue n cs
    match skipBlanks rest with
    | ',' :: rest => (readItems n rest).map fun (items, rest) => (item :: items, rest)
    | ']' :: rest => some ([item], rest)
    | _ => none

/-- Reads the members of an object up to its closing brace. -/
def readMembers : Nat → List Char → Option (List (Option String × Json) × List Char)
  | 0, _ => none
  | n + 1, cs =>
    match skipBlanks cs with
    | '"' :: rest => do
      let (key, rest) ← readText [] true rest
      match skipBlanks rest with
      | ':' :: rest => do
        let (value, rest) ← readValue n rest
        match skipBlanks rest with
        | ',' :: rest =>
          (readMembers n rest).map fun (members, rest) => ((key, value) :: members, rest)
        | '}' :: rest => some ([(key, value)], rest)
        | _ => none
      | _ => none
    | _ => none

end

/-- The value that a text holds, with nothing but blanks around it. -/
def parse? (s : String) : Option Json :=
  let cs := s.toList
  match readValue (cs.length + 1) cs with
  | some (value, rest) => if (skipBlanks rest).isEmpty then some value else none
  | none => none

end Json

end Armv4t
