import Armv4t.Thumb.Instruction

/-! # Decoding the 16-bit set

    The high byte alone chooses the format:

    | high byte      | format                                        |
    |----------------|-----------------------------------------------|
    | 00 to 17       | move a shifted register                       |
    | 18 to 1F       | add, subtract                                 |
    | 20 to 3F       | move, compare, add, subtract an immediate     |
    | 40 to 43       | operation on two low registers                |
    | 44 to 47       | operation on any register, branch exchange    |
    | 48 to 4F       | load from the code                            |
    | 50 to 5F       | transfers with a register offset              |
    | 60 to 7F       | word and byte transfers with an offset        |
    | 80 to 8F       | halfword transfers with an offset             |
    | 90 to 9F       | transfers on the stack                        |
    | A0 to AF       | address in the code or on the stack           |
    | B0             | move the stack pointer                        |
    | B4, B5, BC, BD | push, pop                                     |
    | C0 to CF       | block transfer                                |
    | D0 to DD       | conditional branch                            |
    | DF             | software interrupt                            |
    | E0 to E7       | branch                                        |
    | F0 to FF       | one half of a long branch                     |

    Every other high byte is undefined. -/

namespace Armv4t.Thumb

/-- A register number of four bits: three of them together, the highest apart. -/
def highRegister (w lo top : Word) : Reg :=
  nibble ((if bit w top then (8 : Word) else 0) ||| field w lo 3) 0

/-- The transfers of halfwords and signed values with a register offset. -/
def decodeHalfKind (w : Word) : HalfTransfer :=
  match bit w 10, bit w 11 with
  | false, false => .storeHalf
  | false, true => .loadHalf
  | true, false => .loadSignedByte
  | true, true => .loadSignedHalf

/-- The transfers with a register offset. -/
def decodeByRegister (w : Word) : Instruction :=
  if bit w 9 then .halfByRegister (decodeHalfKind w) (octal w 6) (octal w 3) (octal w 0)
  else
    .transferByRegister (.ofBit (bit w 11)) (.ofBit (bit w 10)) (octal w 6) (octal w 3) (octal w 0)

/-- The word and byte transfers with an offset, which counts words or bytes. -/
def decodeByOffset (w : Word) : Instruction :=
  let byte := bit w 12
  .transferByOffset (.ofBit (bit w 11)) (.ofBit byte)
    (if byte then field w 6 5 else field w 6 5 <<< 2) (octal w 3) (octal w 0)

/-- The instruction in the sixteen low bits of a word. -/
def decodeInstruction (w : Word) : Instruction :=
  let high := field w 8 8
  let byte := field w 0 8
  if high ≤ 0x17 then
    .moveShifted (.ofCode (field w 11 2)) (quint w 6) (octal w 3) (octal w 0)
  else if high ≤ 0x1F then
    .addSubtract (bit w 9)
      (if bit w 10 then .immediate (octal w 6) else .register (octal w 6)) (octal w 3) (octal w 0)
  else if high ≤ 0x3F then .immediateOp (.ofCode (field w 11 2)) (octal w 8) byte
  else if high ≤ 0x43 then .registerOp (.ofCode (nibble w 6)) (octal w 3) (octal w 0)
  else if high ≤ 0x47 then
    .highOp (.ofCode (field w 8 2)) (highRegister w 3 6) (highRegister w 0 7)
  else if high ≤ 0x4F then .loadLiteral (octal w 8) (byte <<< 2)
  else if high ≤ 0x5F then decodeByRegister w
  else if high ≤ 0x7F then decodeByOffset w
  else if high ≤ 0x8F then
    .halfByOffset (.ofBit (bit w 11)) (field w 6 5 <<< 1) (octal w 3) (octal w 0)
  else if high ≤ 0x9F then .stackTransfer (.ofBit (bit w 11)) (octal w 8) (byte <<< 2)
  else if high ≤ 0xAF then .loadAddress (bit w 11) (octal w 8) (byte <<< 2)
  else if high = 0xB0 then .adjustStack (bit w 7) (field w 0 7 <<< 2)
  else if high = 0xB4 ∨ high = 0xB5 ∨ high = 0xBC ∨ high = 0xBD then
    .pushPop (.ofBit (bit w 11)) (bit w 8) byte.toUInt16
  else if high ≤ 0xBF then .undefined
  else if high ≤ 0xCF then .blockTransfer (.ofBit (bit w 11)) (octal w 8) byte.toUInt16
  else if high ≤ 0xDD then .branchIf (.ofCode (nibble w 8)) (signExtend (byte <<< 1) 9)
  else if high = 0xDF then .softwareInterrupt byte
  else if 0xE0 ≤ high ∧ high ≤ 0xE7 then .branch (signExtend (field w 0 11 <<< 1) 12)
  else if 0xF0 ≤ high then .longBranch (bit w 11) (field w 0 11)
  else .undefined

/-- A decoded halfword: what it does, and the halfword itself. -/
structure Opcode where
  instruction : Instruction
  raw : Half
  deriving DecidableEq, Repr, Inhabited

/-- Decodes a halfword.  Every halfword decodes. -/
def decode (h : Half) : Opcode := ⟨decodeInstruction h.toUInt32, h⟩

end Armv4t.Thumb
