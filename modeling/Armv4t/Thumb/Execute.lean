import Armv4t.Arm.Execute
import Armv4t.Thumb.Decode

/-! # What the instructions of the 16-bit set do

    One function per format, from an instruction in flight to itself.  Unlike in
    the 32-bit set the flags are always set where an operation has any, and the
    move of an immediate keeps C. -/

namespace Armv4t.Thumb

variable {B : Type}

/-- Sets N and Z from a shifted value and C from the shifter. -/
def setShiftFlags (s : Shifted) (x : Execution B) : Execution B :=
  x.updateCpsr fun p => (p.setNZ s.value).setC s.carry

/-- A data-processing operation on an operand that is not shifted. -/
def compute (op : AluOp) (first second : Word) (x : Execution B) : AluResult :=
  op.compute first ⟨second, x.core.cpsr.c⟩ x.core.cpsr.c x.core.cpsr.v

/-- A data-processing operation into a low register, unless it is a test. -/
def applyAlu (op : AluOp) (rd : LowReg) (first second : Word) (x : Execution B) : Execution B :=
  let result := compute op first second x
  let x := if op.test then x else x.setRegister rd.wide result.value
  x.updateCpsr (·.setFlags result.flags)

/-- Moves a register shifted by an amount from the opcode. -/
def moveShifted (kind : ShiftKind) (amount : Fin 32) (rs rd : LowReg) (x : Execution B) :
    Execution B :=
  let s := shift kind .opcode (x.core.registers.read rs.wide) amount.val.toUInt32 x.core.cpsr.c
  setShiftFlags s (x.setRegister rd.wide s.value)

/-- Adds or subtracts a register or a small number. -/
def addSubtract (subtract : Bool) (operand : AddOperand) (rs rd : LowReg) (x : Execution B) :
    Execution B :=
  let second := match operand with
    | .immediate n => n.val.toUInt32
    | .register rn => x.core.registers.read rn.wide
  applyAlu (if subtract then .sub else .add) rd (x.core.registers.read rs.wide) second x

/-- Moves, compares, adds or subtracts an immediate. -/
def immediateOp (op : ImmediateOp) (rd : LowReg) (value : Word) (x : Execution B) :
    Execution B :=
  let first := x.core.registers.read rd.wide
  match op with
  | .mov => (x.setRegister rd.wide value).updateCpsr (·.setNZ value)
  | .cmp => applyAlu .cmp rd first value x
  | .add => applyAlu .add rd first value x
  | .sub => applyAlu .sub rd first value x

/-- Shifts a low register by the lowest byte of another one. -/
def shiftByRegister (kind : ShiftKind) (rs rd : LowReg) (x : Execution B) : Execution B :=
  let amount := x.core.registers.read rs.wide &&& 0xFF
  let s := shift kind .register (x.core.registers.read rd.wide) amount x.core.cpsr.c
  setShiftFlags s ((x.wait 1).setRegister rd.wide s.value)

/-- Multiplies two low registers; the old destination is the multiplier. -/
def multiply (rs rd : LowReg) (x : Execution B) : Execution B :=
  let multiplier := x.core.registers.read rd.wide
  let result := multiplier * x.core.registers.read rs.wide
  let x := (x.wait (multiplierCycles multiplier true)).setRegister rd.wide result
  x.updateCpsr (·.setNZ result)

/-- An operation on two low registers. -/
def registerOp (op : RegisterOp) (rs rd : LowReg) (x : Execution B) : Execution B :=
  match op with
  | .lsl => shiftByRegister .lsl rs rd x
  | .lsr => shiftByRegister .lsr rs rd x
  | .asr => shiftByRegister .asr rs rd x
  | .ror => shiftByRegister .ror rs rd x
  | .neg => applyAlu .rsb rd (x.core.registers.read rs.wide) 0 x
  | .mul => multiply rs rd x
  | op =>
    match op.alu? with
    | some alu =>
      applyAlu alu rd (x.core.registers.read rd.wide) (x.core.registers.read rs.wide) x
    | none => x

/-- An operation on any two registers.  Only the comparison sets flags. -/
def highOp (op : HighOp) (rs rd : Reg) (x : Execution B) : Execution B :=
  match op with
  | .add => x.writeRegister rd (x.read rd .operand + x.read rs .operand)
  | .cmp =>
    x.updateCpsr (·.setFlags (compute .cmp (x.read rd .operand) (x.read rs .operand) x).flags)
  | .mov => x.writeRegister rd (x.read rs .operand)
  | .bx => Arm.branchExchange rs x

/-- The address of something in the code or on the stack. -/
def loadAddress (fromStack : Bool) (rd : LowReg) (offset : Word) (x : Execution B) :
    Execution B :=
  let base := if fromStack then x.core.registers.read Reg.sp else x.core.effectivePc .literalBase
  x.setRegister rd.wide (base + offset)

/-- Moves the stack pointer. -/
def adjustStack (subtract : Bool) (offset : Word) (x : Execution B) : Execution B :=
  let sp := x.core.registers.read Reg.sp
  x.setRegister Reg.sp (if subtract then sp - offset else sp + offset)

/-- A branch. -/
def branch (offset : Word) (x : Execution B) : Execution B :=
  x.branchTo (x.core.effectivePc .branchBase + offset)

/-- One half of a long branch: the first puts the upper part of the distance into
    R14, the second branches and leaves the next address there, with bit 0 set. -/
def longBranch (second : Bool) (offset : Word) (x : Execution B) : Execution B :=
  if second then
    let target := x.core.registers.read Reg.lr + (offset <<< 1)
    (x.setRegister Reg.lr ((x.core.pc + 2) ||| 1)).branchTo target
  else
    x.setRegister Reg.lr (x.core.effectivePc .branchBase + (signExtend offset 11 <<< 12))

variable [Bus B]

/-- A word or byte transfer at an address. -/
def transfer (kind : TransferKind) (quantity : Quantity) (rd : LowReg) (address : Word)
    (x : Execution B) : Execution B :=
  match kind with
  | .load =>
    let (v, x) := x.loadQuantity quantity address
    (x.wait 1).setRegister rd.wide v
  | .store => (x.storeQuantity quantity address (x.core.registers.read rd.wide)).scatter

/-- A halfword or signed transfer at an address. -/
def halfTransfer (kind : HalfTransfer) (rd : LowReg) (address : Word) (x : Execution B) :
    Execution B :=
  let accept (loaded : Word × Execution B) : Execution B :=
    (loaded.2.wait 1).setRegister rd.wide loaded.1
  match kind with
  | .storeHalf => (x.store .half false address (x.core.registers.read rd.wide)).scatter
  | .loadHalf => accept (x.loadHalf address)
  | .loadSignedByte => accept (x.loadSignedByte address)
  | .loadSignedHalf => accept (x.loadSignedHalf address)

/-- A push stores downwards from the stack pointer, a pop loads upwards from it. -/
def pushPop (kind : TransferKind) (extra : Bool) (list : Half) (x : Execution B) :
    Execution B :=
  match kind with
  | .store =>
    let list := if extra then list ||| 0x4000 else list
    x.transferBlock .store ⟨.pre, .down, true⟩ false Reg.sp list
  | .load =>
    let list := if extra then list ||| 0x8000 else list
    x.transferBlock .load ⟨.post, .up, true⟩ false Reg.sp list

/-- Executes an instruction of the 16-bit set. -/
def execute (o : Opcode) (x : Execution B) : Execution B :=
  let low (r : LowReg) : Word := x.core.registers.read r.wide
  match o.instruction with
  | .moveShifted kind amount rs rd => moveShifted kind amount rs rd x
  | .addSubtract subtract operand rs rd => addSubtract subtract operand rs rd x
  | .immediateOp op rd value => immediateOp op rd value x
  | .registerOp op rs rd => registerOp op rs rd x
  | .highOp op rs rd => highOp op rs rd x
  | .loadLiteral rd offset =>
    transfer .load .word rd (x.core.effectivePc .literalBase + offset) x
  | .transferByRegister kind quantity ro rb rd => transfer kind quantity rd (low rb + low ro) x
  | .halfByRegister kind ro rb rd => halfTransfer kind rd (low rb + low ro) x
  | .transferByOffset kind quantity offset rb rd => transfer kind quantity rd (low rb + offset) x
  | .halfByOffset .load offset rb rd => halfTransfer .loadHalf rd (low rb + offset) x
  | .halfByOffset .store offset rb rd => halfTransfer .storeHalf rd (low rb + offset) x
  | .stackTransfer kind rd offset =>
    transfer kind .word rd (x.core.registers.read Reg.sp + offset) x
  | .loadAddress fromStack rd offset => loadAddress fromStack rd offset x
  | .adjustStack subtract offset => adjustStack subtract offset x
  | .pushPop kind extra list => pushPop kind extra list x
  | .blockTransfer kind rb list => x.transferBlock kind ⟨.post, .up, true⟩ false rb.wide list
  | .branchIf condition offset => if x.core.cpsr.satisfies condition then branch offset x else x
  | .softwareInterrupt _ => x.takeException .softwareInterrupt
  | .branch offset => branch offset x
  | .longBranch second offset => longBranch second offset x
  | .undefined => (x.tell (.undefinedThumb x.core.pc o.raw)).takeException .undefined

end Armv4t.Thumb
