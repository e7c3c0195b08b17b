import Armv4t.Condition
import Armv4t.Shifter

/-! # The arithmetic unit — sixteen operations on two operands

    A subtraction adds the complement and a carry, so that C reads as "no
    borrow".  The logical operations take C from the shifter and keep V. -/

namespace Armv4t

/-- A data-processing operation, in the order of the codes. -/
inductive AluOp where
  | and | eor | sub | rsb | add | adc | sbc | rsc
  | tst | teq | cmp | cmn | orr | mov | bic | mvn
  deriving DecidableEq, Repr, Inhabited

/-- A result and the flags that the flag-setting form would write. -/
structure AluResult where
  value : Word
  flags : Flags
  deriving DecidableEq, Repr, Inhabited

/-- `a + b + carry`, with the carry out of bit 31 and the signed overflow. -/
def addWithCarry (a b : Word) (carry : Bool) : AluResult :=
  let wide : UInt64 := a.toUInt64 + b.toUInt64 + carry.toUInt64
  let value := wide.toUInt32
  { value
    flags :=
      { n := bit value 31
        z := value == 0
        c := wide > 0xFFFFFFFF
        -- The operands share a sign and the result has the other one.
        v := bit ((a ^^^ value) &&& (b ^^^ value)) 31 } }

/-- `a - b`, less one more when the carry is clear. -/
def subWithCarry (a b : Word) (carry : Bool) : AluResult := addWithCarry a (~~~b) carry

/-- The value of a sum wraps. -/
theorem addWithCarry_value (a b : Word) (carry : Bool) :
    (addWithCarry a b carry).value = a + b + carry.toUInt32 := by
  show (a.toUInt64 + b.toUInt64 + carry.toUInt64).toUInt32 = _
  rw [UInt64.toUInt32_add, UInt64.toUInt32_add, UInt32.toUInt32_toUInt64,
    UInt32.toUInt32_toUInt64]
  cases carry <;> rfl

/-- With the carry set a difference is one without a borrow. -/
theorem subWithCarry_value (a b : Word) : (subWithCarry a b true).value = a - b := by
  rw [subWithCarry, addWithCarry_value, UInt32.sub_eq_add_neg, UInt32.neg_eq_not_add,
    ← UInt32.add_assoc]
  rfl

namespace AluOp

/-- The operation with a four-bit code. -/
def ofCode (n : Fin 16) : AluOp :=
  match n.val with
  | 0x0 => and | 0x1 => eor | 0x2 => sub | 0x3 => rsb
  | 0x4 => add | 0x5 => adc | 0x6 => sbc | 0x7 => rsc
  | 0x8 => tst | 0x9 => teq | 0xA => cmp | 0xB => cmn
  | 0xC => orr | 0xD => mov | 0xE => bic | _ => mvn

/-- The logical operations take their carry from the shifter. -/
def logical : AluOp → Bool
  | and | eor | tst | teq | orr | mov | bic | mvn => true
  | sub | rsb | add | adc | sbc | rsc | cmp | cmn => false

/-- The tests set the flags and write no register. -/
def test : AluOp → Bool
  | tst | teq | cmp | cmn => true
  | _ => false

/-- The moves ignore the first operand. -/
def move : AluOp → Bool
  | mov | mvn => true
  | _ => false

/-- The mnemonic. -/
def name : AluOp → String
  | and => "AND" | eor => "EOR" | sub => "SUB" | rsb => "RSB"
  | add => "ADD" | adc => "ADC" | sbc => "SBC" | rsc => "RSC"
  | tst => "TST" | teq => "TEQ" | cmp => "CMP" | cmn => "CMN"
  | orr => "ORR" | mov => "MOV" | bic => "BIC" | mvn => "MVN"

/-- Runs one operation on a first operand, a shifted second one and the current
    carry and overflow flags. -/
def compute (op : AluOp) (first : Word) (second : Shifted) (carry overflow : Bool) :
    AluResult :=
  let bitwise (value : Word) : AluResult :=
    { value, flags := { n := bit value 31, z := value == 0, c := second.carry, v := overflow } }
  match op with
  | and | tst => bitwise (first &&& second.value)
  | eor | teq => bitwise (first ^^^ second.value)
  | orr => bitwise (first ||| second.value)
  | mov => bitwise second.value
  | bic => bitwise (first &&& ~~~second.value)
  | mvn => bitwise (~~~second.value)
  | sub | cmp => subWithCarry first second.value true
  | rsb => subWithCarry second.value first true
  | add | cmn => addWithCarry first second.value false
  | adc => addWithCarry first second.value carry
  | sbc => subWithCarry first second.value carry
  | rsc => subWithCarry second.value first carry

end AluOp

end Armv4t
