import Armv4t.Arm.Decode
import Armv4t.Proofs.Guarded.Word
import Armv4t.Thumb.Decode

/-! # Guarded decoders — every field of every instruction is in range

    Both decoders again, with each bit, field and shift guarded and each register field
    checked against the number of registers it may name: sixteen in the 32-bit set and
    in the high forms of the 16-bit set, eight in its low forms.

    No word and no halfword escapes: the guarded decoders give for every one of them
    what the plain decoders give (`Arm.Guarded.decode_eq`, `Thumb.Guarded.decode_eq`). -/

namespace Armv4t

/-! ## Fields of fields -/

/-- The twelve bits of an immediate hold all of it. -/
theorem RotatedImmediate.ofField_field (w : Word) :
    RotatedImmediate.ofField (field w 0 12) = .ofField w := by
  have h12 : (field w 0 12).toNat = w.toNat % 2 ^ 12 := by
    rw [toNat_field w (by decide) (by decide)]
    exact congrArg (· % 2 ^ 12) (Nat.div_one _)
  have hvalue : (field w 0 12).toUInt8 = w.toUInt8 := by
    rw [← UInt8.toNat_inj, UInt32.toNat_toUInt8, UInt32.toNat_toUInt8, h12]
    omega
  have hrotate : field (field w 0 12) 8 4 = field w 8 4 := by
    rw [← UInt32.toNat_inj, toNat_field (field w 0 12) (by decide) (by decide), h12,
      toNat_field w (by decide) (by decide)]
    show w.toNat % 2 ^ 12 / 2 ^ 8 % 2 ^ 4 = w.toNat / 2 ^ 8 % 2 ^ 4
    omega
  rw [ofField, ofField, hvalue, nibble, nibble, hrotate]

/-- The sixteen bits of a list hold all of it. -/
theorem toUInt16_field (w : Word) : (field w 0 16).toUInt16 = w.toUInt16 := by
  rw [← UInt16.toNat_inj, UInt32.toNat_toUInt16, UInt32.toNat_toUInt16,
    toNat_field w (by decide) (by decide)]
  show w.toNat / 1 % 2 ^ 16 % 2 ^ 16 = w.toNat % 2 ^ 16
  omega

open Guarded

namespace Arm.Guarded

variable (w : Word)

/-- The distance of a shifted operand. -/
def decodeAmount : Option ShiftAmount := do
  if ← getBit 32 w 4 then some (.register (← reg w 8))
  else some (.immediate (← index 32 (← getBits 32 w 7 11)))

/-- The second operand of a data-processing word. -/
def decodeOperand : Option Operand := do
  if ← getBit 32 w 25 then some (.immediate (.ofField (← getBits 32 w 0 11)))
  else some (.shifted (← reg w 0) (.ofCode (← getBits 32 w 5 6)) (← decodeAmount w))

/-- A data-processing word. -/
def decodeDataProcessing : Option Instruction := do
  some (.dataProcessing (.ofCode (← index 16 (← getBits 32 w 21 24))) (← getBit 32 w 20)
    (← reg w 16) (← reg w 12) (← decodeOperand w))

/-- The addressing bits of a transfer. -/
def decodeAddressing : Option Addressing := do
  some ⟨.ofBit (← getBit 32 w 24), .ofBit (← getBit 32 w 23), ← getBit 32 w 21⟩

/-- The status register bit of a status transfer. -/
def decodeStatusRegister : Option StatusRegister := do
  some (if ← getBit 32 w 22 then .spsr else .cpsr)

/-- A transfer to a status register. -/
def decodeMoveToStatus (operand : StatusOperand) : Option Instruction := do
  some (.moveToStatus (← decodeStatusRegister w) ⟨← getBit 32 w 16, ← getBit 32 w 19⟩ operand)

/-- The multiplies and the swap. -/
def decodeMultiplyOrSwap : Option Instruction := do
  let rm ← reg w 0
  let rs ← reg w 8
  let setFlags ← getBit 32 w 20
  let family ← getBits 32 w 23 27
  if family = 0b00000 then
    if ← getBit 32 w 22 then some .undefined
    else some (.multiply (← getBit 32 w 21) setFlags (← reg w 16) (← reg w 12) rs rm)
  else if family = 0b00001 then
    some (.multiplyLong (← getBit 32 w 22) (← getBit 32 w 21) setFlags (← reg w 16) (← reg w 12)
      rs rm)
  else if family = 0b00010 ∧ (← getBits 32 w 20 21) = 0 ∧ (← getBits 32 w 8 11) = 0 then
    some (.swap (.ofBit (← getBit 32 w 22)) (← reg w 16) (← reg w 12) rm)
  else some .undefined

/-- The kind of a halfword transfer; a signed store is none. -/
def decodeHalfKind : Option (Option HalfTransfer) := do
  match ← getBit 32 w 20, ← getBit 32 w 6, ← getBit 32 w 5 with
  | false, false, true => some (some .storeHalf)
  | true, false, true => some (some .loadHalf)
  | true, true, false => some (some .loadSignedByte)
  | true, true, true => some (some .loadSignedHalf)
  | _, _, _ => some none

/-- The offset of a halfword transfer. -/
def decodeHalfOffset : Option HalfOffset := do
  if ← getBit 32 w 22 then
    some (.immediate ((← shiftLeft (← getBits 32 w 8 11) 4) ||| (← getBits 32 w 0 3)))
  else some (.register (← reg w 0))

/-- The halfword transfers. -/
def decodeHalfTransfer : Option Instruction := do
  match ← decodeHalfKind w with
  | none => some .undefined
  | some kind =>
    some (.halfTransfer kind (← decodeAddressing w) (← reg w 16) (← reg w 12)
      (← decodeHalfOffset w))

/-- The tests without the S bit: status transfers and the branch exchange. -/
def decodeMiscellaneous : Option Instruction := do
  let code ← getBits 32 w 4 7
  if code = 0 then
    if ← getBit 32 w 21 then decodeMoveToStatus w (.register (← reg w 0))
    else some (.moveFromStatus (← decodeStatusRegister w) (← reg w 12))
  else if code = 1 ∧ (← getBits 32 w 21 22) = 1 ∧ (← getBits 32 w 8 19) = 0xFFF then
    some (.branchExchange (← reg w 0))
  else some .undefined

/-- The words of the tests without the S bit. -/
def isTestWithoutFlags : Option Bool := do
  some ((← getBits 32 w 23 24) == 0b10 && !(← getBit 32 w 20))

/-- The words whose bits 27 to 25 are clear. -/
def decodeRegisterFamily : Option Instruction := do
  if (← getBits 32 w 4 7) = 0b1001 then decodeMultiplyOrSwap w
  else if (← getBit 32 w 7) && (← getBit 32 w 4) then decodeHalfTransfer w
  else if ← isTestWithoutFlags w then decodeMiscellaneous w
  else decodeDataProcessing w

/-- The words whose bits 27 to 25 are `001`. -/
def decodeImmediateFamily : Option Instruction := do
  if ← isTestWithoutFlags w then
    if ← getBit 32 w 21 then
      decodeMoveToStatus w (.immediate (.ofField (← getBits 32 w 0 11)))
    else some .undefined
  else decodeDataProcessing w

/-- The offset of a single transfer. -/
def decodeTransferOffset : Option TransferOffset := do
  if ← getBit 32 w 25 then
    some (.shifted (← reg w 0) (.ofCode (← getBits 32 w 5 6))
      (← index 32 (← getBits 32 w 7 11)))
  else some (.immediate (← getBits 32 w 0 11))

/-- A single transfer. -/
def decodeSingleTransfer : Option Instruction := do
  some (.singleTransfer (.ofBit (← getBit 32 w 20)) (.ofBit (← getBit 32 w 22))
    (← decodeAddressing w) (← reg w 16) (← reg w 12) (← decodeTransferOffset w))

/-- A block transfer. -/
def decodeBlockTransfer : Option Instruction := do
  some (.blockTransfer (.ofBit (← getBit 32 w 20)) (← decodeAddressing w) (← getBit 32 w 22)
    (← reg w 16) (← getBits 32 w 0 15).toUInt16)

/-- A branch. -/
def decodeBranch : Option Instruction := do
  some (.branch (← getBit 32 w 24) (← signExtended (← shiftLeft (← getBits 32 w 0 23) 2) 26))

/-- The instruction in a word. -/
def decodeInstruction : Option Instruction := do
  match (← getBits 32 w 25 27).toNat with
  | 0b000 => decodeRegisterFamily w
  | 0b001 => decodeImmediateFamily w
  | 0b010 => decodeSingleTransfer w
  | 0b011 => if ← getBit 32 w 4 then some .undefined else decodeSingleTransfer w
  | 0b100 => decodeBlockTransfer w
  | 0b101 => decodeBranch w
  | 0b110 => some .coprocessor
  | _ =>
    if ← getBit 32 w 24 then some (.softwareInterrupt (← getBits 32 w 0 23))
    else some .coprocessor

/-- Decodes a word. -/
def decode : Option Opcode := do
  let instruction ← decodeInstruction w
  some ⟨.ofCode (← index 16 (← getBits 32 w 28 31)), instruction, w⟩

/-! ## Every word passes -/

/-- An amount is five bits or a register, and every field of the operand ends inside the word.
    -/
@[simp] theorem decodeOperand_eq : decodeOperand w = some (Arm.decodeOperand w) := by
  cases h : bit w 25 <;> cases h' : bit w 4 <;>
    simp [decodeOperand, decodeAmount, Arm.decodeOperand, h, h', RotatedImmediate.ofField_field]

/-- Four bits name one of sixteen operations. -/
@[simp] theorem decodeDataProcessing_eq :
    decodeDataProcessing w = some (Arm.decodeDataProcessing w) := by
  simp [decodeDataProcessing, Arm.decodeDataProcessing]

@[simp] theorem decodeAddressing_eq : decodeAddressing w = some (Arm.decodeAddressing w) := by
  simp [decodeAddressing, Arm.decodeAddressing]

@[simp] theorem decodeStatusRegister_eq :
    decodeStatusRegister w = some (Arm.decodeStatusRegister w) := by
  simp [decodeStatusRegister, Arm.decodeStatusRegister]

/-- Of the field mask only two bits are read. -/
@[simp] theorem decodeMoveToStatus_eq (operand : StatusOperand) :
    decodeMoveToStatus w operand = some (Arm.decodeMoveToStatus w operand) := by
  simp [decodeMoveToStatus, Arm.decodeMoveToStatus]

/-- Which of the three families it is, five bits tell. -/
@[simp] theorem decodeMultiplyOrSwap_eq :
    decodeMultiplyOrSwap w = some (Arm.decodeMultiplyOrSwap w) := by
  simp [decodeMultiplyOrSwap, Arm.decodeMultiplyOrSwap]

/-- Three bits, read one by one. -/
@[simp] theorem decodeHalfKind_eq : decodeHalfKind w = some (Arm.decodeHalfKind w) := by
  cases h : bit w 20 <;> cases h' : bit w 6 <;> cases h'' : bit w 5 <;>
    simp [decodeHalfKind, Arm.decodeHalfKind, h, h', h'']

/-- The two halves of an immediate offset are put together by a shift of four. -/
@[simp] theorem decodeHalfTransfer_eq :
    decodeHalfTransfer w = some (Arm.decodeHalfTransfer w) := by
  cases hk : Arm.decodeHalfKind w <;> cases h : bit w 22 <;>
    simp [decodeHalfTransfer, Arm.decodeHalfTransfer, decodeHalfOffset, hk, h]

/-- The fixed fields of a branch exchange lie inside the word. -/
@[simp] theorem decodeMiscellaneous_eq :
    decodeMiscellaneous w = some (Arm.decodeMiscellaneous w) := by
  simp [decodeMiscellaneous, Arm.decodeMiscellaneous]

@[simp] theorem isTestWithoutFlags_eq :
    isTestWithoutFlags w = some (Arm.isTestWithoutFlags w) := by
  simp [isTestWithoutFlags, Arm.isTestWithoutFlags]

@[simp] theorem decodeRegisterFamily_eq :
    decodeRegisterFamily w = some (Arm.decodeRegisterFamily w) := by
  simp [decodeRegisterFamily, Arm.decodeRegisterFamily]

/-- A status transfer of an immediate reads the same twelve bits as data processing. -/
@[simp] theorem decodeImmediateFamily_eq :
    decodeImmediateFamily w = some (Arm.decodeImmediateFamily w) := by
  simp [decodeImmediateFamily, Arm.decodeImmediateFamily, RotatedImmediate.ofField_field]

/-- An offset of twelve bits is a field like the others. -/
@[simp] theorem decodeSingleTransfer_eq :
    decodeSingleTransfer w = some (Arm.decodeSingleTransfer w) := by
  cases h : bit w 25 <;>
    simp [decodeSingleTransfer, decodeTransferOffset, Arm.decodeSingleTransfer, h]

/-- The list is the low half of the word. -/
@[simp] theorem decodeBlockTransfer_eq :
    decodeBlockTransfer w = some (Arm.decodeBlockTransfer w) := by
  simp [decodeBlockTransfer, Arm.decodeBlockTransfer, toUInt16_field]

/-- Twenty-four bits shifted by two make the twenty-six whose sign is extended. -/
@[simp] theorem decodeBranch_eq : decodeBranch w = some (Arm.decodeBranch w) := by
  simp [decodeBranch, Arm.decodeBranch]

/-- Every word decodes, with every field in range. -/
@[simp] theorem decodeInstruction_eq :
    decodeInstruction w = some (Arm.decodeInstruction w) := by
  simp [decodeInstruction, Arm.decodeInstruction]
  split <;> simp [*]

/-- Every condition code is one of sixteen. -/
@[simp] theorem decode_eq : decode w = some (Arm.decode w) := by
  simp [decode, Arm.decode]

end Arm.Guarded

namespace Thumb.Guarded

variable (w : Word)

/-- A register number of four bits: three of them together, the highest apart. -/
def highRegister (lo top : Word) : Option Reg := do
  let low ← getBits 16 w lo (lo + 2)
  index 16 (if ← getBit 16 w top then 8 ||| low else low)

/-- The transfers of halfwords and signed values with a register offset. -/
def decodeHalfKind : Option HalfTransfer := do
  match ← getBit 16 w 10, ← getBit 16 w 11 with
  | false, false => some .storeHalf
  | false, true => some .loadHalf
  | true, false => some .loadSignedByte
  | true, true => some .loadSignedHalf

/-- The transfers with a register offset. -/
def decodeByRegister : Option Instruction := do
  if ← getBit 16 w 9 then
    some (.halfByRegister (← decodeHalfKind w) (← lowReg w 6) (← lowReg w 3) (← lowReg w 0))
  else
    some (.transferByRegister (.ofBit (← getBit 16 w 11)) (.ofBit (← getBit 16 w 10))
      (← lowReg w 6) (← lowReg w 3) (← lowReg w 0))

/-- The second operand of an addition or subtraction. -/
def decodeAddOperand : Option AddOperand := do
  if ← getBit 16 w 10 then some (.immediate (← index 8 (← getBits 16 w 6 8)))
  else some (.register (← lowReg w 6))

/-- The instruction in the sixteen low bits of a word.  The fields that most formats
    share are read before the format is known. -/
def decodeInstruction : Option Instruction := do
  let rd ← lowReg w 0
  let rs ← lowReg w 3
  let offset ← getBits 16 w 6 10
  let byte ← getBits 16 w 0 7
  let word ← shiftLeft byte 2
  let high ← getBits 16 w 8 15
  if high ≤ 0x17 then
    some (.moveShifted (.ofCode (← getBits 16 w 11 12)) (← index 32 offset) rs rd)
  else if high ≤ 0x1F then
    some (.addSubtract (← getBit 16 w 9) (← decodeAddOperand w) rs rd)
  else if high ≤ 0x3F then
    some (.immediateOp (.ofCode (← getBits 16 w 11 12)) (← lowReg w 8) byte)
  else if high ≤ 0x43 then
    some (.registerOp (.ofCode (← index 16 (← getBits 16 w 6 9))) rs rd)
  else if high ≤ 0x47 then
    some (.highOp (.ofCode (← getBits 16 w 8 9)) (← highRegister w 3 6) (← highRegister w 0 7))
  else if high ≤ 0x4F then some (.loadLiteral (← lowReg w 8) word)
  else if high ≤ 0x5F then decodeByRegister w
  else if high ≤ 0x7F then
    let quantity := Quantity.ofBit (← getBit 16 w 12)
    let offset ← match quantity with
      | .word => shiftLeft offset 2
      | .byte => some offset
    some (.transferByOffset (.ofBit (← getBit 16 w 11)) quantity offset rs rd)
  else if high ≤ 0x8F then
    some (.halfByOffset (.ofBit (← getBit 16 w 11)) (← shiftLeft offset 1) rs rd)
  else if high ≤ 0x9F then
    some (.stackTransfer (.ofBit (← getBit 16 w 11)) (← lowReg w 8) word)
  else if high ≤ 0xAF then some (.loadAddress (← getBit 16 w 11) (← lowReg w 8) word)
  else if high = 0xB0 then
    some (.adjustStack (← getBit 16 w 7) (← shiftLeft (← getBits 16 w 0 6) 2))
  else if high = 0xB4 ∨ high = 0xB5 ∨ high = 0xBC ∨ high = 0xBD then
    some (.pushPop (.ofBit (← getBit 16 w 11)) (← getBit 16 w 8) byte.toUInt16)
  else if high ≤ 0xBF then some .undefined
  else if high ≤ 0xCF then
    some (.blockTransfer (.ofBit (← getBit 16 w 11)) (← lowReg w 8) byte.toUInt16)
  else if high ≤ 0xDD then
    some (.branchIf (.ofCode (← index 16 (← getBits 16 w 8 11)))
      (← signExtended (← shiftLeft byte 1) 9))
  else if high = 0xDF then some (.softwareInterrupt byte)
  else if 0xE0 ≤ high ∧ high ≤ 0xE7 then
    some (.branch (← signExtended (← shiftLeft (← getBits 16 w 0 10) 1) 12))
  else if 0xF0 ≤ high then some (.longBranch (← getBit 16 w 11) (← getBits 16 w 0 10))
  else some .undefined

/-- Decodes a halfword. -/
def decode (h : Half) : Option Opcode := do some ⟨← decodeInstruction h.toUInt32, h⟩

/-! ## Every halfword passes -/

/-- A number of four bits is the register it names. -/
theorem index_eq_nibble {n : Word} (h : n.toNat < 16) : index 16 n = some (nibble n 0) := by
  have hn : (field n 0 4).toNat = n.toNat := by
    rw [toNat_field n (by decide) (by decide)]
    show n.toNat / 1 % 2 ^ 4 = n.toNat
    omega
  rw [index_eq_ofNat h, nibble, hn]

/-- Three bits, and an eight above them or not, are such a number. -/
@[simp] theorem highRegister_eq {lo top : Word} (hlo : lo ≤ 13) (htop : top < 16) :
    highRegister w lo top = some (Thumb.highRegister w lo top) := by
  have hlo' : lo.toNat ≤ 13 := hlo
  have hbits : getBits 16 w lo (lo + 2) = some (field w lo 3) :=
    getBits_from (show lo.toNat + 2 < 16 by omega) (by decide) (by decide)
  have hlow : (field w lo 3).toNat < 2 ^ 4 :=
    Nat.lt_of_le_of_lt (field_le w lo 3) (by decide)
  rw [highRegister, Thumb.highRegister, hbits, getBit_eq htop]
  cases bit w top with
  | true =>
      refine index_eq_nibble ?_
      rw [if_pos rfl, UInt32.toNat_or]
      exact Nat.or_lt_two_pow (by decide) hlow
  | false =>
      have hlow' : index 16 (field w lo 3) = some (nibble (field w lo 3) 0) :=
        index_eq_nibble hlow
      simpa using hlow'

/-- Two bits name four transfers, none of them left out. -/
@[simp] theorem decodeHalfKind_eq : decodeHalfKind w = some (Thumb.decodeHalfKind w) := by
  cases h : bit w 10 <;> cases h' : bit w 11 <;>
    simp [decodeHalfKind, Thumb.decodeHalfKind, h, h']

@[simp] theorem decodeByRegister_eq :
    decodeByRegister w = some (Thumb.decodeByRegister w) := by
  cases h : bit w 9 <;> simp [decodeByRegister, Thumb.decodeByRegister, h]

/-- A small number and a register have one field. -/
@[simp] theorem decodeAddOperand_eq :
    decodeAddOperand w
      = some (if bit w 10 then .immediate (octal w 6) else .register (octal w 6)) := by
  cases h : bit w 10 <;> simp [decodeAddOperand, h]

/-- Every halfword decodes, with every field in range. -/
@[simp] theorem decodeInstruction_eq :
    decodeInstruction w = some (Thumb.decodeInstruction w) := by
  cases h : bit w 12 <;>
    simp [decodeInstruction, Thumb.decodeInstruction, Thumb.decodeByOffset, h, Quantity.ofBit]

/-- A halfword is decoded in the sixteen low bits of a word. -/
@[simp] theorem decode_eq (h : Half) : decode h = some (Thumb.decode h) := by
  simp [decode, Thumb.decode]

end Thumb.Guarded

end Armv4t
