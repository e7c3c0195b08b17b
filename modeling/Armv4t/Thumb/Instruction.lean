import Armv4t.Alu
import Armv4t.Transfer

/-! # Instructions of the 16-bit set

    Nineteen formats, most of which reach only R0 to R7.  Offsets are kept in
    bytes: scaled ones already scaled, those of branches already signed. -/

namespace Armv4t.Thumb

/-- An operation on two low registers, in the order of the codes. -/
inductive RegisterOp where
  | and | eor | lsl | lsr | asr | adc | sbc | ror
  | tst | neg | cmp | cmn | orr | mul | bic | mvn
  deriving DecidableEq, Repr, Inhabited

namespace RegisterOp

/-- The operation with a four-bit code. -/
def ofCode (n : Fin 16) : RegisterOp :=
  match n.val with
  | 0x0 => and | 0x1 => eor | 0x2 => lsl | 0x3 => lsr
  | 0x4 => asr | 0x5 => adc | 0x6 => sbc | 0x7 => ror
  | 0x8 => tst | 0x9 => neg | 0xA => cmp | 0xB => cmn
  | 0xC => orr | 0xD => mul | 0xE => bic | _ => mvn

/-- The mnemonic. -/
def name : RegisterOp → String
  | and => "AND" | eor => "EOR" | lsl => "LSL" | lsr => "LSR"
  | asr => "ASR" | adc => "ADC" | sbc => "SBC" | ror => "ROR"
  | tst => "TST" | neg => "NEG" | cmp => "CMP" | cmn => "CMN"
  | orr => "ORR" | mul => "MUL" | bic => "BIC" | mvn => "MVN"

/-- The data-processing operation of the same name, for those that have one. -/
def alu? : RegisterOp → Option AluOp
  | and => some .and
  | eor => some .eor
  | adc => some .adc
  | sbc => some .sbc
  | tst => some .tst
  | cmp => some .cmp
  | cmn => some .cmn
  | orr => some .orr
  | bic => some .bic
  | mvn => some .mvn
  | lsl | lsr | asr | ror | neg | mul => none

end RegisterOp

/-- An operation that reaches all sixteen registers. -/
inductive HighOp where
  | add
  | cmp
  | mov
  | bx
  deriving DecidableEq, Repr, Inhabited

/-- The operation with a two-bit code. -/
def HighOp.ofCode (n : Word) : HighOp :=
  if n = 0 then .add else if n = 1 then .cmp else if n = 2 then .mov else .bx

/-- The mnemonic. -/
def HighOp.name : HighOp → String
  | .add => "ADD"
  | .cmp => "CMP"
  | .mov => "MOV"
  | .bx => "BX"

/-- An operation with an eight-bit immediate. -/
inductive ImmediateOp where
  | mov
  | cmp
  | add
  | sub
  deriving DecidableEq, Repr, Inhabited

/-- The operation with a two-bit code. -/
def ImmediateOp.ofCode (n : Word) : ImmediateOp :=
  if n = 0 then .mov else if n = 1 then .cmp else if n = 2 then .add else .sub

/-- The mnemonic. -/
def ImmediateOp.name : ImmediateOp → String
  | .mov => "MOV"
  | .cmp => "CMP"
  | .add => "ADD"
  | .sub => "SUB"

/-- The second operand of an addition or subtraction. -/
inductive AddOperand where
  | immediate (n : Fin 8)
  | register (rn : LowReg)
  deriving DecidableEq, Repr, Inhabited

/-- An instruction. -/
inductive Instruction where
  | moveShifted (kind : ShiftKind) (amount : Fin 32) (rs rd : LowReg)
  | addSubtract (subtract : Bool) (operand : AddOperand) (rs rd : LowReg)
  | immediateOp (op : ImmediateOp) (rd : LowReg) (value : Word)
  | registerOp (op : RegisterOp) (rs rd : LowReg)
  | highOp (op : HighOp) (rs rd : Reg)
  | loadLiteral (rd : LowReg) (offset : Word)
  | transferByRegister (kind : TransferKind) (quantity : Quantity) (ro rb rd : LowReg)
  | halfByRegister (kind : HalfTransfer) (ro rb rd : LowReg)
  | transferByOffset (kind : TransferKind) (quantity : Quantity) (offset : Word) (rb rd : LowReg)
  | halfByOffset (kind : TransferKind) (offset : Word) (rb rd : LowReg)
  | stackTransfer (kind : TransferKind) (rd : LowReg) (offset : Word)
  | loadAddress (fromStack : Bool) (rd : LowReg) (offset : Word)
  | adjustStack (subtract : Bool) (offset : Word)
  /-- The extra register is R14 of a push and R15 of a pop. -/
  | pushPop (kind : TransferKind) (extra : Bool) (list : Half)
  | blockTransfer (kind : TransferKind) (rb : LowReg) (list : Half)
  | branchIf (condition : Condition) (offset : Word)
  | softwareInterrupt (comment : Word)
  | branch (offset : Word)
  | longBranch (second : Bool) (offset : Word)
  | undefined
  deriving DecidableEq, Repr, Inhabited

end Armv4t.Thumb
