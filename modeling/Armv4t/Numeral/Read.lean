/-! # Reading numerals — whole numbers in a base, up to a limit

    Digits are read from the left, and the first thing that is wrong decides: no
    character at all, a character that is no digit, or a number past the limit.
    A sign alone counts as a character that is no digit. -/

namespace Armv4t

/-- Why a text is no number within the limits. -/
inductive NumeralError where
  | empty
  | invalidDigit
  | tooLarge
  | tooSmall
  deriving DecidableEq, Repr

/-- What is wrong with the text. -/
def NumeralError.message : NumeralError → String
  | empty => "cannot parse integer from empty string"
  | invalidDigit => "invalid digit found in string"
  | tooLarge => "number too large to fit in target type"
  | tooSmall => "number too small to fit in target type"

/-- The value of a digit in a base of at most sixteen; letters count in both cases. -/
def digit? (base : Nat) (c : Char) : Option Nat :=
  let value :=
    if '0' ≤ c ∧ c ≤ '9' then c.toNat - '0'.toNat
    else if 'a' ≤ c ∧ c ≤ 'f' then c.toNat - 'a'.toNat + 10
    else if 'A' ≤ c ∧ c ≤ 'F' then c.toNat - 'A'.toNat + 10
    else base
  if value < base then some value else none

/-- Reads digits behind a number that was read before them. -/
def readDigits (base limit : Nat) : Nat → List Char → Except NumeralError Nat
  | n, [] => .ok n
  | n, c :: cs =>
    match digit? base c with
    | none => .error .invalidDigit
    | some d =>
      if n * base + d ≤ limit then readDigits base limit (n * base + d) cs else .error .tooLarge

/-- Reads a number up to a limit; a plus sign may stand before it. -/
def readNat (base limit : Nat) : List Char → Except NumeralError Nat
  | [] => .error .empty
  | ['+'] => .error .invalidDigit
  | '+' :: cs => readDigits base limit 0 cs
  | cs => readDigits base limit 0 cs

/-- Reads a number between the negation of one limit and another limit; a sign may
    stand before it. -/
def readInt (base below above : Nat) : List Char → Except NumeralError Int
  | ['-'] => .error .invalidDigit
  | '-' :: cs =>
    match readDigits base below 0 cs with
    | .ok n => .ok (-n)
    | .error .tooLarge => .error .tooSmall
    | .error e => .error e
  | cs => (readNat base above cs).map Int.ofNat

end Armv4t
