import Armv4t.Arm.Decode
import Armv4t.Numeral

/-! # Assembler text of the 32-bit set

    The condition follows the mnemonic, and the suffixes of the form follow the
    condition.  Immediate operands are shown rotated, in hexadecimal; offsets in
    decimal; the target of a branch as the distance from the branch itself. -/

namespace Armv4t.Arm

/-- A register shifted by an amount from the opcode: no shift is shown for LSL by
    zero, ROR by zero is the rotation through the carry, and LSR and ASR by zero
    stand for 32. -/
def shiftedText (rm : Reg) (kind : ShiftKind) (amount : Fin 32) : String :=
  if amount.val = 0 ∧ kind = .lsl then rm.name
  else if amount.val = 0 ∧ kind = .ror then rm.name ++ ", RRX"
  else
    let shown := if amount.val = 0 then 32 else amount.val
    rm.name ++ ", " ++ kind.name ++ " #" ++ toString shown

/-- A rotated immediate as the number it stands for. -/
def immediateText (i : RotatedImmediate) : String :=
  "#0x" ++ hex 1 (rotateRight i.value.toUInt32 i.distance).toNat

/-- The second operand of data processing. -/
def Operand.text : Operand → String
  | .immediate i => immediateText i
  | .shifted rm kind (.immediate amount) => shiftedText rm kind amount
  | .shifted rm kind (.register rs) => rm.name ++ ", " ++ kind.name ++ " " ++ rs.name

/-- The name of a status register. -/
def StatusRegister.text : StatusRegister → String
  | .cpsr => "CPSR"
  | .spsr => "SPSR"

/-- The letters of the parts that a status transfer writes. -/
def StatusFields.text (f : StatusFields) : String :=
  (if f.control then "c" else "") ++ (if f.flags then "f" else "")

/-- The value that a status transfer writes. -/
def StatusOperand.text : StatusOperand → String
  | .register rm => rm.name
  | .immediate i => immediateText i

/-- The offset of a single transfer. -/
def TransferOffset.text : TransferOffset → String
  | .immediate offset => "#" ++ toString offset.toNat
  | .shifted rm kind amount => shiftedText rm kind amount

/-- The offset of a halfword transfer. -/
def HalfOffset.text : HalfOffset → String
  | .immediate offset => "#" ++ toString offset.toNat
  | .register rm => rm.name

/-- An address: the offset inside the brackets when it comes first. -/
def addressingText (a : Addressing) (rn : Reg) (offset : String) : String :=
  let sign := if a.direction = .down then "-" else ""
  match a.indexing with
  | .pre => "[" ++ rn.name ++ ", " ++ sign ++ offset ++ "]" ++ (if a.writeBack then "!" else "")
  | .post => "[" ++ rn.name ++ "], " ++ sign ++ offset

/-- The suffix of a block transfer: increment or decrement, after or before. -/
def blockSuffix (a : Addressing) : String :=
  match a.direction, a.indexing with
  | .up, .post => "IA"
  | .up, .pre => "IB"
  | .down, .post => "DA"
  | .down, .pre => "DB"

/-- The mnemonic of a single transfer. -/
def transferMnemonic : TransferKind → String
  | .load => "LDR"
  | .store => "STR"

/-- The mnemonic and the suffix of a halfword transfer. -/
def halfMnemonic : HalfTransfer → String × String
  | .storeHalf => ("STR", "H")
  | .loadHalf => ("LDR", "H")
  | .loadSignedByte => ("LDR", "SB")
  | .loadSignedHalf => ("LDR", "SH")

/-- The mnemonic of a long multiply. -/
def longMnemonic (signed accumulate : Bool) : String :=
  (if signed then "SM" else "UM") ++ (if accumulate then "LAL" else "ULL")

/-- An instruction in assembler text, under a condition. -/
def Instruction.text (i : Instruction) (condition : Condition) : String :=
  let cond := condition.suffix
  let s (setFlags : Bool) : String := if setFlags then "S" else ""
  let b (q : Quantity) : String := if q = .byte then "B" else ""
  match i with
  | .dataProcessing op setFlags rn rd operand =>
    if op.test then op.name ++ cond ++ " " ++ rn.name ++ ", " ++ operand.text
    else if op.move then op.name ++ cond ++ s setFlags ++ " " ++ rd.name ++ ", " ++ operand.text
    else
      op.name ++ cond ++ s setFlags ++ " " ++ rd.name ++ ", " ++ rn.name ++ ", " ++ operand.text
  | .moveFromStatus source rd => "MRS" ++ cond ++ " " ++ rd.name ++ ", " ++ source.text
  | .moveToStatus target fields operand =>
    "MSR" ++ cond ++ " " ++ target.text ++ "_" ++ fields.text ++ ", " ++ operand.text
  | .multiply accumulate setFlags rd rn rs rm =>
    let factors := rd.name ++ ", " ++ rm.name ++ ", " ++ rs.name
    if accumulate then "MLA" ++ cond ++ s setFlags ++ " " ++ factors ++ ", " ++ rn.name
    else "MUL" ++ cond ++ s setFlags ++ " " ++ factors
  | .multiplyLong signed accumulate setFlags rdHigh rdLow rs rm =>
    longMnemonic signed accumulate ++ cond ++ s setFlags ++ " " ++ rdLow.name ++ ", "
      ++ rdHigh.name ++ ", " ++ rm.name ++ ", " ++ rs.name
  | .swap quantity rn rd rm =>
    "SWP" ++ cond ++ b quantity ++ " " ++ rd.name ++ ", " ++ rm.name ++ ", [" ++ rn.name ++ "]"
  | .branchExchange rm => "BX" ++ cond ++ " " ++ rm.name
  | .halfTransfer kind addressing rn rd offset =>
    let (mnemonic, suffix) := halfMnemonic kind
    mnemonic ++ cond ++ suffix ++ " " ++ rd.name ++ ", "
      ++ addressingText addressing rn offset.text
  | .singleTransfer kind quantity addressing rn rd offset =>
    -- A write-back that comes afterwards anyway asks for an unprivileged access.
    let t := if addressing.indexing = .post ∧ addressing.writeBack then "T" else ""
    transferMnemonic kind ++ cond ++ b quantity ++ t ++ " " ++ rd.name ++ ", "
      ++ addressingText addressing rn offset.text
  | .blockTransfer kind addressing s rn list =>
    let mnemonic := match kind with
      | .load => "LDM"
      | .store => "STM"
    mnemonic ++ cond ++ blockSuffix addressing ++ " " ++ rn.name
      ++ (if addressing.writeBack then "!" else "") ++ ", "
      ++ bracedList ((registersIn list).map Reg.name) ++ (if s then "^" else "")
  | .branch link offset =>
    "B" ++ (if link then "L" else "") ++ cond ++ " #" ++ toString (offset + 8).toInt32.toInt
  | .coprocessor => "CDP" ++ cond
  | .softwareInterrupt comment => "SWI" ++ cond ++ " #0x" ++ hex 1 comment.toNat
  | .undefined => "UND"

/-- The word in hexadecimal and its instruction. -/
def Opcode.text (o : Opcode) : String :=
  hex 8 o.raw.toNat ++ "  " ++ o.instruction.text o.condition

end Armv4t.Arm
