import Armv4t.Arm.Decode
import Armv4t.BlockTransfer

/-! # What the instructions of the 32-bit set do

    One function per family, from an instruction in flight to itself.  Operands
    are read before anything is written; R15 reads ahead as the pipeline has it,
    except in the multiplies and as the base of a block, which read it plain. -/

namespace Armv4t

/-- The internal cycles of the multiplier: one per byte of the operand up to where
    the rest is all zeros, or all ones in the signed forms. -/
def multiplierCycles (operand : Word) (signed : Bool) : Int32 :=
  let settled (mask : Word) : Bool :=
    operand &&& mask == 0 || (signed && operand &&& mask == mask)
  if settled 0xFFFFFF00 then 1
  else if settled 0xFFFF0000 then 2
  else if settled 0xFF000000 then 3
  else 4

namespace Arm

variable {B : Type}

/-- The role in which registers are read beside an operand. -/
def Operand.role : Operand → PcRole
  | .shifted _ _ (.register _) => .shiftOperand
  | _ => .operand

/-- The second operand; a shift by register takes one internal cycle. -/
def Operand.evaluate (o : Operand) (x : Execution B) : Shifted × Execution B :=
  let carry := x.core.cpsr.c
  match o with
  | .immediate i => (i.operand carry, x)
  | .shifted rm kind (.immediate amount) =>
    (shift kind .opcode (x.read rm .operand) amount.val.toUInt32 carry, x)
  | .shifted rm kind (.register rs) =>
    let value := x.read rm .shiftOperand
    let amount := x.read rs .shiftOperand &&& 0xFF
    (shift kind .register value amount carry, x.wait 1)

/-- Data processing.  Writing R15 with the S bit set returns from an exception, in
    the modes that have a saved status. -/
def dataProcessing (op : AluOp) (setFlags : Bool) (rn rd : Reg) (operand : Operand)
    (x : Execution B) : Execution B :=
  let (second, x) := operand.evaluate x
  let first := x.read rn operand.role
  let result := op.compute first second x.core.cpsr.c x.core.cpsr.v
  let flagged (x : Execution B) : Execution B :=
    if setFlags then x.updateCpsr (·.setFlags result.flags) else x
  if op.test then flagged x
  else if rd = Reg.pc then
    let x := if setFlags ∧ x.core.mode.hasSpsr then x.restoreStatus else flagged x
    x.branchTo result.value
  else flagged (x.setRegister rd result.value)

/-- A status register into a register; a mode without a saved status reads its
    current one. -/
def moveFromStatus (source : StatusRegister) (rd : Reg) (x : Execution B) : Execution B :=
  let status := match source with
    | .cpsr => x.core.cpsr
    | .spsr => x.core.spsr?.getD x.core.cpsr
  x.writeRegister rd status.raw

/-- The value that a status transfer writes. -/
def StatusOperand.evaluate (o : StatusOperand) (x : Execution B) : Word :=
  match o with
  | .register rm => x.read rm .operand
  | .immediate i => (i.operand x.core.cpsr.c).value

/-- The current status after a status transfer: user mode only reaches the flags,
    and the highest bit of the mode field is always set. -/
def statusAfterMove (k : Core) (value : Word) (fields : StatusFields) : Psr :=
  let mask := if k.mode.privileged then fields.mask else fields.mask &&& Psr.flagsMask
  k.cpsr.writeMasked (value ||| 0x10) mask

/-- A value into a status register. -/
def moveToStatus (target : StatusRegister) (fields : StatusFields) (operand : StatusOperand)
    (x : Execution B) : Execution B :=
  let value := operand.evaluate x
  match target with
  | .cpsr =>
    let status := statusAfterMove x.core value fields
    let x := if status.t = x.core.cpsr.t then x else x.tell (.stateBitWritten status.t)
    x.tryStatus status
  | .spsr =>
    match x.core.spsr? with
    | some saved =>
      let saved := saved.writeMasked value fields.mask
      x.withCore { x.core with bank := x.core.bank.setSpsr x.core.mode saved }
    | none => x.tell (.statusWriteIgnored x.core.mode)

/-- A multiply, with or without a sum. -/
def multiply (accumulate setFlags : Bool) (rd rn rs rm : Reg) (x : Execution B) :
    Execution B :=
  let multiplier := x.core.registers.read rs
  let product := x.core.registers.read rm * multiplier
  let result := if accumulate then product + x.core.registers.read rn else product
  let x := x.wait (multiplierCycles multiplier true + if accumulate then 1 else 0)
  let x := x.writeRegister rd result
  if setFlags then x.updateCpsr (·.setNZ result) else x

/-- The product of two words in 64 bits. -/
def longProduct (signed : Bool) (a b : Word) : UInt64 :=
  if signed then (a.toInt32.toInt64 * b.toInt32.toInt64).toUInt64 else a.toUInt64 * b.toUInt64

/-- A long multiply, with or without a sum. -/
def multiplyLong (signed accumulate setFlags : Bool) (rdHigh rdLow rs rm : Reg)
    (x : Execution B) : Execution B :=
  let multiplier := x.core.registers.read rs
  let product := longProduct signed (x.core.registers.read rm) multiplier
  let sum := (x.core.registers.read rdHigh).toUInt64 <<< 32
    ||| (x.core.registers.read rdLow).toUInt64
  let result := if accumulate then product + sum else product
  let x := x.wait (multiplierCycles multiplier signed + if accumulate then 2 else 1)
  let x := x.writeRegister rdLow result.toUInt32
  let x := x.writeRegister rdHigh (result >>> 32).toUInt32
  if setFlags then x.updateCpsr (·.setNZLong result) else x

/-- A branch to the address in a register, whose lowest bit selects the set. -/
def branchExchange (rm : Reg) (x : Execution B) : Execution B :=
  let target := x.read rm .operand
  let set := InstructionSet.ofBit (bit target 0)
  let x := if set = x.core.instructionSet then x else x.tell (.exchanged target set)
  (x.updateCpsr (·.setInstructionSet set)).branchTo target

/-- A branch; with the link bit the next address goes into R14. -/
def branch (link : Bool) (offset : Word) (x : Execution B) : Execution B :=
  let target := x.core.effectivePc .branchBase + offset
  let x := if link then x.setRegister Reg.lr (x.core.pc + 4) else x
  x.branchTo target

/-- The offset of a single transfer. -/
def TransferOffset.evaluate (o : TransferOffset) (x : Execution B) : Word :=
  match o with
  | .immediate offset => offset
  | .shifted rm kind amount =>
    (shift kind .opcode (x.read rm .operand) amount.val.toUInt32 x.core.cpsr.c).value

/-- The offset of a halfword transfer. -/
def HalfOffset.evaluate (o : HalfOffset) (x : Execution B) : Word :=
  match o with
  | .immediate offset => offset
  | .register rm => x.read rm .operand

/-- Writes the moved base of a transfer, if the addressing moves it. -/
def moveBase (a : Addressing) (rn : Reg) (moved : Word) (x : Execution B) : Execution B :=
  if a.movesBase then x.writeBase rn moved else x

/-- Ends a load: one internal cycle, then the base, then the loaded value, which
    wins when both go to one register. -/
def finishLoad (a : Addressing) (rn rd : Reg) (moved : Word) (loaded : Word × Execution B) :
    Execution B :=
  (moveBase a rn moved (loaded.2.wait 1)).writeRegister rd loaded.1

variable [Bus B]

/-- An exchange of a register with memory. -/
def swap (quantity : Quantity) (rn rd rm : Reg) (x : Execution B) : Execution B :=
  let address := x.read rn .operand
  let source := x.read rm .operand
  let (old, x) := x.loadQuantity quantity address
  ((x.storeQuantity quantity address source).wait 1).writeRegister rd old

/-- A halfword transfer. -/
def halfTransfer (kind : HalfTransfer) (a : Addressing) (rn rd : Reg) (offset : HalfOffset)
    (x : Execution B) : Execution B :=
  let base := x.read rn .operand
  let moved := a.direction.apply base (offset.evaluate x)
  let address := a.address base moved
  match kind with
  | .storeHalf =>
    moveBase a rn moved (x.store .half false address (x.read rd .stored)).scatter
  | .loadHalf => finishLoad a rn rd moved (x.loadHalf address)
  | .loadSignedByte => finishLoad a rn rd moved (x.loadSignedByte address)
  | .loadSignedHalf => finishLoad a rn rd moved (x.loadSignedHalf address)

/-- A word or byte transfer. -/
def singleTransfer (kind : TransferKind) (quantity : Quantity) (a : Addressing) (rn rd : Reg)
    (offset : TransferOffset) (x : Execution B) : Execution B :=
  let base := x.read rn .operand
  let moved := a.direction.apply base (offset.evaluate x)
  let address := a.address base moved
  match kind with
  | .store =>
    moveBase a rn moved (x.storeQuantity quantity address (x.read rd .stored)).scatter
  | .load => finishLoad a rn rd moved (x.loadQuantity quantity address)

/-- Executes an instruction of the 32-bit set. -/
def execute (o : Opcode) (x : Execution B) : Execution B :=
  match o.instruction with
  | .dataProcessing op setFlags rn rd operand => dataProcessing op setFlags rn rd operand x
  | .moveFromStatus source rd => moveFromStatus source rd x
  | .moveToStatus target fields operand => moveToStatus target fields operand x
  | .multiply accumulate setFlags rd rn rs rm => multiply accumulate setFlags rd rn rs rm x
  | .multiplyLong signed accumulate setFlags rdHigh rdLow rs rm =>
    multiplyLong signed accumulate setFlags rdHigh rdLow rs rm x
  | .swap quantity rn rd rm => swap quantity rn rd rm x
  | .branchExchange rm => branchExchange rm x
  | .halfTransfer kind a rn rd offset => halfTransfer kind a rn rd offset x
  | .singleTransfer kind quantity a rn rd offset => singleTransfer kind quantity a rn rd offset x
  | .blockTransfer kind a s rn list => x.transferBlock kind a s rn list
  | .branch link offset => branch link offset x
  | .softwareInterrupt _ => x.takeException .softwareInterrupt
  | .coprocessor | .undefined =>
    (x.tell (.undefinedArm x.core.pc o.raw)).takeException .undefined

end Arm

end Armv4t
