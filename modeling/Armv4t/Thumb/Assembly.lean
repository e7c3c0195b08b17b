import Armv4t.Numeral
import Armv4t.Thumb.Decode

/-! # Assembler text of the 16-bit set

    Operands and offsets are shown in decimal, comments and the halves of a long
    branch in hexadecimal, the target of a branch as the distance from the branch
    itself. -/

namespace Armv4t.Thumb

/-- The mnemonic of a word or byte transfer. -/
def transferMnemonic : TransferKind → Quantity → String
  | .load, .byte => "LDRB"
  | .load, .word => "LDR"
  | .store, .byte => "STRB"
  | .store, .word => "STR"

/-- The mnemonic of a halfword or signed transfer with a register offset. -/
def halfMnemonic : HalfTransfer → String
  | .storeHalf => "STRH"
  | .loadHalf => "LDRH"
  | .loadSignedByte => "LDSB"
  | .loadSignedHalf => "LDSH"

/-- The low registers of a list. -/
def lowNames (list : Half) : List String :=
  ((registersIn list).filter (fun r => r.val < 8)).map Reg.name

/-- A decimal number. -/
def decimal (w : Word) : String := toString w.toNat

/-- The distance of a branch from the branch itself. -/
def distanceText (offset : Word) : String := "#" ++ toString (offset + 4).toInt32.toInt

/-- An instruction in assembler text. -/
def Instruction.text : Instruction → String
  | .moveShifted kind amount rs rd =>
    kind.name ++ " " ++ rd.name ++ ", " ++ rs.name ++ ", #" ++ toString amount.val
  | .addSubtract subtract operand rs rd =>
    let second := match operand with
      | .immediate n => "#" ++ toString n.val
      | .register rn => rn.name
    (if subtract then "SUB " else "ADD ") ++ rd.name ++ ", " ++ rs.name ++ ", " ++ second
  | .immediateOp op rd value => op.name ++ " " ++ rd.name ++ ", #" ++ decimal value
  | .registerOp op rs rd => op.name ++ " " ++ rd.name ++ ", " ++ rs.name
  | .highOp .bx rs _ => "BX " ++ rs.name
  | .highOp op rs rd => op.name ++ " " ++ rd.name ++ ", " ++ rs.name
  | .loadLiteral rd offset => "LDR " ++ rd.name ++ ", [PC, #" ++ decimal offset ++ "]"
  | .transferByRegister kind quantity ro rb rd =>
    transferMnemonic kind quantity ++ " " ++ rd.name ++ ", [" ++ rb.name ++ ", " ++ ro.name ++ "]"
  | .halfByRegister kind ro rb rd =>
    halfMnemonic kind ++ " " ++ rd.name ++ ", [" ++ rb.name ++ ", " ++ ro.name ++ "]"
  | .transferByOffset kind quantity offset rb rd =>
    transferMnemonic kind quantity ++ " " ++ rd.name ++ ", [" ++ rb.name ++ ", #"
      ++ decimal offset ++ "]"
  | .halfByOffset kind offset rb rd =>
    let mnemonic := match kind with
      | .load => "LDRH "
      | .store => "STRH "
    mnemonic ++ rd.name ++ ", [" ++ rb.name ++ ", #" ++ decimal offset ++ "]"
  | .stackTransfer kind rd offset =>
    transferMnemonic kind .word ++ " " ++ rd.name ++ ", [SP, #" ++ decimal offset ++ "]"
  | .loadAddress fromStack rd offset =>
    "ADD " ++ rd.name ++ ", " ++ (if fromStack then "SP" else "PC") ++ ", #" ++ decimal offset
  | .adjustStack subtract offset => "ADD SP, #" ++ (if subtract then "-" else "") ++ decimal offset
  | .pushPop .load extra list =>
    "POP " ++ bracedList (lowNames list ++ if extra then ["PC"] else [])
  | .pushPop .store extra list =>
    "PUSH " ++ bracedList (lowNames list ++ if extra then ["LR"] else [])
  | .blockTransfer kind rb list =>
    let mnemonic := match kind with
      | .load => "LDMIA "
      | .store => "STMIA "
    mnemonic ++ rb.name ++ "!, " ++ bracedList (lowNames list)
  | .branchIf condition offset => "B" ++ condition.suffix ++ " " ++ distanceText offset
  | .softwareInterrupt comment => "SWI #0x" ++ hex 1 comment.toNat
  | .branch offset => "B " ++ distanceText offset
  | .longBranch second offset => (if second then "BLL #0x" else "BLH #0x") ++ hex 1 offset.toNat
  | .undefined => "UND"

/-- The halfword in hexadecimal and its instruction. -/
def Opcode.text (o : Opcode) : String := hex 4 o.raw.toNat ++ "  " ++ o.instruction.text

end Armv4t.Thumb
