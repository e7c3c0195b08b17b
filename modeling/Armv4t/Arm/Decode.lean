import Armv4t.Arm.Instruction
import Armv4t.Condition

/-! # Decoding the 32-bit set

    Bits 27 to 25 choose the family; a few more bits tell its members apart:

    | 27-25 | family                                                          |
    |-------|-----------------------------------------------------------------|
    | 000   | data processing on registers, multiplies, swap, branch exchange, |
    |       | halfword transfers, status transfers                            |
    | 001   | data processing on an immediate, status transfer of an immediate |
    | 010   | single transfer, immediate offset                               |
    | 011   | single transfer, register offset; with bit 4 set undefined      |
    | 100   | block transfer                                                  |
    | 101   | branch                                                          |
    | 110   | coprocessor                                                     |
    | 111   | software interrupt (bit 24), coprocessor                        |

    A reserved encoding inside a family decodes to `undefined`. -/

namespace Armv4t.Arm

/-- The second operand of a data-processing word. -/
def decodeOperand (w : Word) : Operand :=
  if bit w 25 then .immediate (.ofField w)
  else
    .shifted (nibble w 0) (.ofCode (field w 5 2))
      (if bit w 4 then .register (nibble w 8) else .immediate (quint w 7))

/-- A data-processing word. -/
def decodeDataProcessing (w : Word) : Instruction :=
  .dataProcessing (.ofCode (nibble w 21)) (bit w 20) (nibble w 16) (nibble w 12)
    (decodeOperand w)

/-- The addressing bits of a transfer. -/
def decodeAddressing (w : Word) : Addressing :=
  ⟨.ofBit (bit w 24), .ofBit (bit w 23), bit w 21⟩

/-- The status register bit of a status transfer. -/
def decodeStatusRegister (w : Word) : StatusRegister := if bit w 22 then .spsr else .cpsr

/-- A transfer to a status register. -/
def decodeMoveToStatus (w : Word) (operand : StatusOperand) : Instruction :=
  .moveToStatus (decodeStatusRegister w) ⟨bit w 16, bit w 19⟩ operand

/-- The multiplies and the swap: bits 27 to 25 clear and bits 7 to 4 `1001`. -/
def decodeMultiplyOrSwap (w : Word) : Instruction :=
  let family := field w 23 5
  if family = 0b00000 then
    if bit w 22 then .undefined
    else .multiply (bit w 21) (bit w 20) (nibble w 16) (nibble w 12) (nibble w 8) (nibble w 0)
  else if family = 0b00001 then
    .multiplyLong (bit w 22) (bit w 21) (bit w 20) (nibble w 16) (nibble w 12) (nibble w 8)
      (nibble w 0)
  else if family = 0b00010 ∧ field w 20 2 = 0 ∧ field w 8 4 = 0 then
    .swap (.ofBit (bit w 22)) (nibble w 16) (nibble w 12) (nibble w 0)
  else .undefined

/-- The kind of a halfword transfer: the load bit and the two bits for signed and
    halfword.  A signed store is reserved, and so is neither. -/
def decodeHalfKind (w : Word) : Option HalfTransfer :=
  match bit w 20, bit w 6, bit w 5 with
  | false, false, true => some .storeHalf
  | true, false, true => some .loadHalf
  | true, true, false => some .loadSignedByte
  | true, true, true => some .loadSignedHalf
  | _, _, _ => none

/-- The halfword transfers: bits 27 to 25 clear, bits 7 and 4 set. -/
def decodeHalfTransfer (w : Word) : Instruction :=
  match decodeHalfKind w with
  | none => .undefined
  | some kind =>
    .halfTransfer kind (decodeAddressing w) (nibble w 16) (nibble w 12)
      (if bit w 22 then .immediate ((field w 8 4 <<< 4) ||| field w 0 4)
       else .register (nibble w 0))

/-- The tests without the S bit: status transfers and the branch exchange. -/
def decodeMiscellaneous (w : Word) : Instruction :=
  if field w 4 4 = 0 then
    if bit w 21 then decodeMoveToStatus w (.register (nibble w 0))
    else .moveFromStatus (decodeStatusRegister w) (nibble w 12)
  else if field w 4 4 = 1 ∧ field w 21 2 = 1 ∧ field w 8 12 = 0xFFF then
    .branchExchange (nibble w 0)
  else .undefined

/-- The words of the tests without the S bit. -/
def isTestWithoutFlags (w : Word) : Bool := field w 23 2 == 0b10 && !bit w 20

/-- The words whose bits 27 to 25 are clear. -/
def decodeRegisterFamily (w : Word) : Instruction :=
  if field w 4 4 = 0b1001 then decodeMultiplyOrSwap w
  else if bit w 7 && bit w 4 then decodeHalfTransfer w
  else if isTestWithoutFlags w then decodeMiscellaneous w
  else decodeDataProcessing w

/-- The words whose bits 27 to 25 are `001`. -/
def decodeImmediateFamily (w : Word) : Instruction :=
  if isTestWithoutFlags w then
    if bit w 21 then decodeMoveToStatus w (.immediate (.ofField w)) else .undefined
  else decodeDataProcessing w

/-- A single transfer, with an immediate offset unless bit 25 is set. -/
def decodeSingleTransfer (w : Word) : Instruction :=
  .singleTransfer (.ofBit (bit w 20)) (.ofBit (bit w 22)) (decodeAddressing w) (nibble w 16)
    (nibble w 12)
    (if bit w 25 then .shifted (nibble w 0) (.ofCode (field w 5 2)) (quint w 7)
     else .immediate (field w 0 12))

/-- A block transfer. -/
def decodeBlockTransfer (w : Word) : Instruction :=
  .blockTransfer (.ofBit (bit w 20)) (decodeAddressing w) (bit w 22) (nibble w 16) w.toUInt16

/-- A branch: the offset counts words in 24 signed bits. -/
def decodeBranch (w : Word) : Instruction :=
  .branch (bit w 24) (signExtend (field w 0 24 <<< 2) 26)

/-- The instruction in a word, its condition aside. -/
def decodeInstruction (w : Word) : Instruction :=
  match (field w 25 3).toNat with
  | 0b000 => decodeRegisterFamily w
  | 0b001 => decodeImmediateFamily w
  | 0b010 => decodeSingleTransfer w
  | 0b011 => if bit w 4 then .undefined else decodeSingleTransfer w
  | 0b100 => decodeBlockTransfer w
  | 0b101 => decodeBranch w
  | 0b110 => .coprocessor
  | _ => if bit w 24 then .softwareInterrupt (field w 0 24) else .coprocessor

/-- A decoded word: when it executes, what it does, and the word itself. -/
structure Opcode where
  condition : Condition
  instruction : Instruction
  raw : Word
  deriving DecidableEq, Repr, Inhabited

/-- Decodes a word.  Every word decodes. -/
def decode (w : Word) : Opcode := ⟨.ofCode (nibble w 28), decodeInstruction w, w⟩

end Armv4t.Arm
