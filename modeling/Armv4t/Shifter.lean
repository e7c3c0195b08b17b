import Armv4t.Word

/-! # The shifter — the second operand of data processing

    The four shifts act alike for the amounts 1 to 31.  What an amount of zero or
    of 32 and more means depends on where the amount came from:

    | amount from            | zero                             | 32 and more           |
    |------------------------|----------------------------------|-----------------------|
    | the opcode             | LSL stays, LSR and ASR are by 32 | does not occur        |
    |                        | and ROR is by one through carry  |                       |
    | a register, a rotation | stays                            | LSL and LSR give 0,   |
    |                        |                                  | ASR the sign, ROR wraps | -/

namespace Armv4t

/-- A shift operation. -/
inductive ShiftKind where
  | lsl
  | lsr
  | asr
  | ror
  deriving DecidableEq, Repr, Inhabited

/-- The shift with a two-bit code. -/
def ShiftKind.ofCode (n : Word) : ShiftKind :=
  if n = 0 then .lsl else if n = 1 then .lsr else if n = 2 then .asr else .ror

/-- The mnemonic. -/
def ShiftKind.name : ShiftKind → String
  | .lsl => "LSL"
  | .lsr => "LSR"
  | .asr => "ASR"
  | .ror => "ROR"

/-- Where a shift amount is written. -/
inductive ShiftSource where
  /-- The rotation of an eight-bit immediate. -/
  | rotation
  /-- Five bits of the opcode. -/
  | opcode
  /-- The lowest byte of a register. -/
  | register
  deriving DecidableEq, Repr, Inhabited

/-- A shifted operand and the carry out of the shifter. -/
structure Shifted where
  value : Word
  carry : Bool
  deriving DecidableEq, Repr, Inhabited

/-- A word of copies of the sign bit, which is also the carry. -/
def signFill (value : Word) : Shifted :=
  let sign := bit value 31
  ⟨if sign then 0xFFFFFFFF else 0, sign⟩

/-- A rotation right by one through the carry. -/
def rotateThroughCarry (value : Word) (carry : Bool) : Shifted :=
  ⟨(if carry then (0x80000000 : Word) else 0) ||| (value >>> 1), bit value 0⟩

/-- A shift by an amount of zero. -/
def shiftByZero (kind : ShiftKind) (source : ShiftSource) (value : Word) (carry : Bool) :
    Shifted :=
  match source, kind with
  | .opcode, .lsr => ⟨0, bit value 31⟩
  | .opcode, .asr => signFill value
  | .opcode, .ror => rotateThroughCarry value carry
  | _, _ => ⟨value, carry⟩

/-- A shift by an amount that is not zero, wherever it came from. -/
def shiftBySome (kind : ShiftKind) (value amount : Word) : Shifted :=
  match kind with
  | .lsl =>
    if amount < 32 then ⟨value <<< amount, bit value (32 - amount)⟩
    else if amount = 32 then ⟨0, bit value 0⟩
    else ⟨0, false⟩
  | .lsr =>
    if amount < 32 then ⟨value >>> amount, bit value (amount - 1)⟩
    else if amount = 32 then ⟨0, bit value 31⟩
    else ⟨0, false⟩
  | .asr =>
    if amount < 32 then
      ⟨(value.toInt32 >>> amount.toInt32).toUInt32, bit value (amount - 1)⟩
    else signFill value
  | .ror =>
    let result := rotateRight value (amount &&& 31)
    ⟨result, bit result 31⟩

/-- The shifter: a value shifted by an amount, with the carry out. -/
def shift (kind : ShiftKind) (source : ShiftSource) (value amount : Word) (carry : Bool) :
    Shifted :=
  if amount = 0 then shiftByZero kind source value carry
  else shiftBySome kind value amount

/-- An eight-bit number with a rotation, counted in steps of two bits. -/
structure RotatedImmediate where
  value : Byte
  rotate : Fin 16
  deriving DecidableEq, Repr, Inhabited

namespace RotatedImmediate

/-- The immediate in the twelve lowest bits of a word. -/
def ofField (w : Word) : RotatedImmediate := ⟨w.toUInt8, nibble w 8⟩

/-- The twelve bits that encode an immediate. -/
def toField (i : RotatedImmediate) : Word :=
  (i.rotate.val.toUInt32 <<< 8) ||| i.value.toUInt32

/-- The distance of the rotation in bits. -/
def distance (i : RotatedImmediate) : Word := i.rotate.val.toUInt32 * 2

/-- The operand that an immediate stands for. -/
def operand (i : RotatedImmediate) (carry : Bool) : Shifted :=
  shift .ror .rotation i.value.toUInt32 i.distance carry

end RotatedImmediate

end Armv4t
