import Armv4t.Alu
import Armv4t.Transfer

/-! # Instructions of the 32-bit set

    One constructor per family, with the fields an instruction of the family
    carries.  What no program may use is `undefined`; no coprocessor is attached,
    so that its instructions are known but trap as well. -/

namespace Armv4t.Arm

/-- The distance of a shifted operand. -/
inductive ShiftAmount where
  | immediate (amount : Fin 32)
  /-- The lowest byte of a register. -/
  | register (rs : Reg)
  deriving DecidableEq, Repr, Inhabited

/-- The second operand of data processing. -/
inductive Operand where
  | immediate (value : RotatedImmediate)
  | shifted (rm : Reg) (kind : ShiftKind) (amount : ShiftAmount)
  deriving DecidableEq, Repr, Inhabited

/-- The status register that a status transfer names. -/
inductive StatusRegister where
  | cpsr
  | spsr
  deriving DecidableEq, Repr, Inhabited

/-- The parts of a status register that a status transfer writes. -/
structure StatusFields where
  control : Bool
  flags : Bool
  deriving DecidableEq, Repr, Inhabited

/-- The bits of the parts. -/
def StatusFields.mask (f : StatusFields) : Word :=
  (if f.control then (0x000000FF : Word) else 0) ||| (if f.flags then (0xFF000000 : Word) else 0)

/-- The value that a status transfer writes. -/
inductive StatusOperand where
  | register (rm : Reg)
  | immediate (value : RotatedImmediate)
  deriving DecidableEq, Repr, Inhabited

/-- The offset of a single transfer. -/
inductive TransferOffset where
  | immediate (offset : Word)
  | shifted (rm : Reg) (kind : ShiftKind) (amount : Fin 32)
  deriving DecidableEq, Repr, Inhabited

/-- The offset of a halfword transfer. -/
inductive HalfOffset where
  | immediate (offset : Word)
  | register (rm : Reg)
  deriving DecidableEq, Repr, Inhabited

/-- An instruction without its condition. -/
inductive Instruction where
  | dataProcessing (op : AluOp) (setFlags : Bool) (rn rd : Reg) (operand : Operand)
  | moveFromStatus (source : StatusRegister) (rd : Reg)
  | moveToStatus (target : StatusRegister) (fields : StatusFields) (operand : StatusOperand)
  | multiply (accumulate setFlags : Bool) (rd rn rs rm : Reg)
  | multiplyLong (signed accumulate setFlags : Bool) (rdHigh rdLow rs rm : Reg)
  | swap (quantity : Quantity) (rn rd rm : Reg)
  | branchExchange (rm : Reg)
  | halfTransfer (kind : HalfTransfer) (addressing : Addressing) (rn rd : Reg)
      (offset : HalfOffset)
  | singleTransfer (kind : TransferKind) (quantity : Quantity) (addressing : Addressing)
      (rn rd : Reg) (offset : TransferOffset)
  /-- The S bit of a block stands for the user registers, or for the saved status. -/
  | blockTransfer (kind : TransferKind) (addressing : Addressing) (s : Bool) (rn : Reg)
      (list : Half)
  /-- The offset counts bytes from R15 as a branch reads it. -/
  | branch (link : Bool) (offset : Word)
  | coprocessor
  | softwareInterrupt (comment : Word)
  | undefined
  deriving DecidableEq, Repr, Inhabited

end Armv4t.Arm
