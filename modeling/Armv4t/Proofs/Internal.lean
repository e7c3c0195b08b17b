import Armv4t.Proofs.Step

/-! # Internal cycles — what an instruction spends beside its accesses

    Every instruction waits at most once: a shift by register and a load wait for
    one cycle, a multiply for as long as its operand takes and for what is added to
    it.  Nothing else an instruction does spends internal cycles. -/

namespace Armv4t

namespace Execution

variable {B : Type} (x : Execution B)

/-! ## What does not wait -/

/-- Waiting is the only operation of a flight that spends internal cycles. -/
@[simp] theorem internal_wait (n : Int32) : (x.wait n).internal = x.internal + n := rfl

/-- The log takes no time. -/
@[simp] theorem internal_tell (e : Event) : (x.tell e).internal = x.internal := rfl

@[simp] theorem internal_withCore (k : Core) : (x.withCore k).internal = x.internal := rfl

/-- That the next fetch is not sequential is charged with that fetch, not here. -/
@[simp] theorem internal_scatter : x.scatter.internal = x.internal := rfl

@[simp] theorem internal_setRegister (i : Reg) (v : Word) :
    (x.setRegister i v).internal = x.internal := rfl

/-- A branch refills the pipeline by fetches; it does not wait. -/
@[simp] theorem internal_branchTo (a : Word) : (x.branchTo a).internal = x.internal := rfl

@[simp] theorem internal_updateCpsr (f : Psr → Psr) :
    (x.updateCpsr f).internal = x.internal := rfl

/-- A write that lands in R15 is a branch, and that does not wait either. -/
@[simp] theorem internal_writeRegister (i : Reg) (v : Word) :
    (x.writeRegister i v).internal = x.internal := by
  rw [writeRegister]
  split <;> rfl

/-- Moving the base of a transfer takes no time, nor does leaving it where it is R15. -/
@[simp] theorem internal_writeBase (i : Reg) (v : Word) :
    (x.writeBase i v).internal = x.internal := by
  rw [writeBase]
  split <;> rfl

/-- Changing the mode takes no time, whether or not it is a change. -/
@[simp] theorem internal_tellMode (m : Mode) : (x.tellMode m).internal = x.internal := by
  rw [tellMode]
  split <;> rfl

/-- A status word takes no time, be it installed or refused. -/
@[simp] theorem internal_tryStatus (p : Psr) : (x.tryStatus p).internal = x.internal := by
  cases hp : p.mode? with
  | ok m =>
      rw [tryStatus_of_ok hp]
      exact x.internal_tellMode p.mode
  | error e => rw [tryStatus_of_error hp, tell]

/-- Nor does taking the saved status back, where there is one. -/
@[simp] theorem internal_restoreStatus : x.restoreStatus.internal = x.internal := by
  rw [restoreStatus]
  cases x.core.spsr? with
  | none => rfl
  | some p => exact x.internal_tryStatus p

/-- Entering a handler costs its refill only. -/
@[simp] theorem internal_takeException (e : Exception) :
    (x.takeException e).internal = x.internal := by
  obtain ⟨es, hes⟩ := x.takeException_eq e
  rw [hes]

/-- What a block load does with one of its words takes no time. -/
@[simp] theorem internal_acceptLoaded (b : Block) (i : Reg) (v : Word) :
    (x.acceptLoaded b i v).internal = x.internal := by
  rw [acceptLoaded]
  split
  · split <;> simp
  · split <;> simp

variable [Bus B]

/-- An access is paid for on the bus, by its width and address, and not here. -/
@[simp] theorem internal_load (w : Width) (s : Bool) (a : Word) :
    (x.load w s a).2.internal = x.internal := rfl

/-- The same of an access that stores. -/
@[simp] theorem internal_store (w : Width) (s : Bool) (a v : Word) :
    (x.store w s a v).internal = x.internal := rfl

/-- A signed halfword at an odd address is read as a signed byte; neither waits by itself. -/
@[simp] theorem internal_loadSignedHalf (a : Word) :
    (x.loadSignedHalf a).2.internal = x.internal := by
  rw [loadSignedHalf]
  split <;> rfl

@[simp] theorem internal_loadQuantity (q : Quantity) (a : Word) :
    (x.loadQuantity q a).2.internal = x.internal := by
  cases q <;> rfl

@[simp] theorem internal_storeQuantity (q : Quantity) (a v : Word) :
    (x.storeQuantity q a v).internal = x.internal := by
  cases q <;> rfl

/-- However long its list is, a block store does not wait. -/
@[simp] theorem internal_storeBlock (b : Block) (list : List Reg) (first : Bool) (a : Word) :
    (storeBlock b first a list x).internal = x.internal := by
  induction list generalizing x first a with
  | nil => rfl
  | cons i list ih =>
      rw [storeBlock, ih]
      rfl

/-- The words of a block load come without a wait between them. -/
@[simp] theorem internal_loadBlock (b : Block) (list : List Reg) (first : Bool) (a : Word) :
    (loadBlock b first a list x).internal = x.internal := by
  induction list generalizing x first a with
  | nil => rfl
  | cons i list ih =>
      rw [loadBlock]
      simp [ih]

/-- A block load waits once, after its last word; a block store never does. -/
theorem internal_transferBlock (kind : TransferKind) (a : Addressing) (s : Bool) (rn : Reg)
    (list : Half) :
    (x.transferBlock kind a s rn list).internal
      = x.internal + if kind = .load then 1 else 0 := by
  cases kind with
  | store =>
      rw [transferBlock_store]
      dsimp only
      split <;> simp
  | load =>
      rw [transferBlock_load]
      dsimp only
      split <;> simp

end Execution

/-- The internal cycles of an action. -/
def Action.internal : Action → Int32
  | .wait n => n
  | _ => 0

/-- A flight gains the internal cycles of each action that it runs. -/
theorem Action.internal_run {B : Type} [Bus B] (a : Action) (x : Execution B) :
    (a.run x).internal = x.internal + a.internal := by
  cases a with
  | load w s a => exact (Int32.add_zero _).symm
  | store w s a v => exact (Int32.add_zero _).symm
  | _ => simp [run, internal]

/-! ## The 32-bit set -/

/-- The internal cycles of a second operand. -/
def Arm.Operand.internalCycles : Arm.Operand → Int32
  | .shifted _ _ (.register _) => 1
  | _ => 0

/-- The internal cycles of an instruction. -/
def Arm.Instruction.internalCycles (k : Core) : Arm.Instruction → Int32
  | .dataProcessing _ _ _ _ operand => operand.internalCycles
  | .multiply accumulate _ _ _ rs _ =>
    multiplierCycles (k.registers.read rs) true + if accumulate then 1 else 0
  | .multiplyLong signed accumulate _ _ _ rs _ =>
    multiplierCycles (k.registers.read rs) signed + if accumulate then 2 else 1
  | .swap .. => 1
  | .halfTransfer kind .. => if kind = .storeHalf then 0 else 1
  | .singleTransfer kind .. | .blockTransfer kind .. => if kind = .load then 1 else 0
  | _ => 0

namespace Arm

variable {B : Type} (x : Execution B)

/-- A second operand waits only for a shift amount that comes from a register. -/
theorem internal_evaluate (o : Operand) :
    (o.evaluate x).2.internal = x.internal + o.internalCycles := by
  cases o with
  | immediate i => simp [Operand.evaluate, Operand.internalCycles]
  | shifted rm kind amount => cases amount <;> simp [Operand.evaluate, Operand.internalCycles]

/-- A data-processing instruction waits for its operand and for nothing else, even where it
    writes R15 or takes the saved status back. -/
theorem internal_dataProcessing (op : AluOp) (setFlags : Bool) (rn rd : Reg)
    (operand : Operand) :
    (dataProcessing op setFlags rn rd operand x).internal
      = x.internal + operand.internalCycles := by
  rw [← internal_evaluate x operand, dataProcessing]
  generalize operand.evaluate x = evaluated
  obtain ⟨second, y⟩ := evaluated
  dsimp only
  repeat' split
  all_goals simp

/-- MSR takes no time: refused, without a saved status to write, or carried out. -/
theorem internal_moveToStatus (target : StatusRegister) (fields : StatusFields)
    (operand : StatusOperand) :
    (moveToStatus target fields operand x).internal = x.internal := by
  cases target with
  | cpsr =>
      rw [moveToCpsr_eq, Execution.internal_tryStatus]
      split <;> rfl
  | spsr =>
      cases hp : x.core.spsr? with
      | none => rw [moveToSpsr_none _ _ hp, Execution.internal_tell]
      | some saved => rw [moveToSpsr_some _ _ hp, Execution.internal_withCore]

/-- Write-back is free. -/
theorem internal_moveBase (a : Addressing) (rn : Reg) (moved : Word) :
    (moveBase a rn moved x).internal = x.internal := by
  rw [moveBase]
  split <;> simp

/-- A load waits for one cycle after its access. -/
theorem internal_finishLoad (a : Addressing) (rn rd : Reg) (moved : Word)
    (loaded : Word × Execution B) :
    (finishLoad a rn rd moved loaded).internal = loaded.2.internal + 1 := by
  rw [finishLoad, Execution.internal_writeRegister, internal_moveBase, Execution.internal_wait]

end Arm

/-- An instruction of the 32-bit set spends its internal cycles. -/
theorem Arm.internal_execute {B : Type} [Bus B] (o : Arm.Opcode) (x : Execution B) :
    (Arm.execute o x).internal = x.internal + o.instruction.internalCycles x.core := by
  rw [Arm.execute]
  cases hi : o.instruction with
  | dataProcessing op setFlags rn rd operand =>
      exact internal_dataProcessing x op setFlags rn rd operand
  | moveFromStatus source rd => simp [moveFromStatus, Instruction.internalCycles]
  | moveToStatus target fields operand => simp [internal_moveToStatus, Instruction.internalCycles]
  | multiply accumulate setFlags rd rn rs rm =>
      simp only [multiply, Instruction.internalCycles]
      split <;> simp
  | multiplyLong signed accumulate setFlags rdHigh rdLow rs rm =>
      simp only [multiplyLong, Instruction.internalCycles]
      split <;> simp
  | swap quantity rn rd rm => simp [swap, Instruction.internalCycles]
  | branchExchange rm =>
      simp only [branchExchange, Instruction.internalCycles]
      split <;> simp
  | halfTransfer kind a rn rd offset =>
      cases kind <;> simp [halfTransfer, internal_moveBase, internal_finishLoad,
        Execution.loadHalf_eq, Execution.loadSignedByte_eq, Instruction.internalCycles]
  | singleTransfer kind quantity a rn rd offset =>
      cases kind <;> simp [singleTransfer, internal_moveBase, internal_finishLoad,
        Instruction.internalCycles]
  | blockTransfer kind a s rn list => exact x.internal_transferBlock kind a s rn list
  | branch link offset => cases link <;> simp [branch, Instruction.internalCycles]
  | coprocessor | softwareInterrupt | undefined => simp [Instruction.internalCycles]

/-! ## The 16-bit set -/

/-- The internal cycles of an operation on two low registers; a multiply takes them by
    its old destination. -/
def Thumb.RegisterOp.internalCycles (k : Core) (rd : LowReg) : Thumb.RegisterOp → Int32
  | .lsl | .lsr | .asr | .ror => 1
  | .mul => multiplierCycles (k.registers.read rd.wide) true
  | _ => 0

/-- The internal cycles of an instruction. -/
def Thumb.Instruction.internalCycles (k : Core) : Thumb.Instruction → Int32
  | .registerOp op _ rd => op.internalCycles k rd
  | .loadLiteral .. => 1
  | .halfByRegister kind .. => if kind = .storeHalf then 0 else 1
  | .transferByRegister kind .. | .transferByOffset kind .. | .halfByOffset kind ..
  | .stackTransfer kind .. | .pushPop kind .. | .blockTransfer kind .. =>
    if kind = .load then 1 else 0
  | _ => 0

namespace Thumb

variable {B : Type} (x : Execution B)

/-- The arithmetic of the 16-bit set takes no time. -/
theorem internal_applyAlu (op : AluOp) (rd : LowReg) (first second : Word) :
    (applyAlu op rd first second x).internal = x.internal := by
  rw [applyAlu]
  split <;> simp

/-- Of the operations on two low registers only the shifts and the multiply wait. -/
theorem internal_registerOp (op : RegisterOp) (rs rd : LowReg) :
    (registerOp op rs rd x).internal = x.internal + op.internalCycles x.core rd := by
  cases op with
  | lsl | lsr | asr | ror =>
      simp [registerOp, shiftByRegister, setShiftFlags, RegisterOp.internalCycles]
  | mul => simp [registerOp, multiply, RegisterOp.internalCycles]
  | _ => simp [registerOp, RegisterOp.alu?, internal_applyAlu, RegisterOp.internalCycles]

/-- BX takes no time, into either set. -/
theorem internal_branchExchange (rm : Reg) :
    (Arm.branchExchange rm x).internal = x.internal := by
  simp only [Arm.branchExchange]
  split <;> simp

variable [Bus B]

/-- A load of the 16-bit set waits as one of the 32-bit set does. -/
theorem internal_transfer (kind : TransferKind) (quantity : Quantity) (rd : LowReg) (a : Word) :
    (transfer kind quantity rd a x).internal = x.internal + if kind = .load then 1 else 0 := by
  cases kind <;> simp [transfer]

/-- Of the four halfword and signed transfers only the store does not wait. -/
theorem internal_halfTransfer (kind : HalfTransfer) (rd : LowReg) (a : Word) :
    (halfTransfer kind rd a x).internal
      = x.internal + if kind = .storeHalf then 0 else 1 := by
  cases kind <;> simp [halfTransfer, Execution.loadHalf_eq, Execution.loadSignedByte_eq]

end Thumb

/-- An instruction of the 16-bit set spends its internal cycles. -/
theorem Thumb.internal_execute {B : Type} [Bus B] (o : Thumb.Opcode) (x : Execution B) :
    (Thumb.execute o x).internal = x.internal + o.instruction.internalCycles x.core := by
  rw [Thumb.execute]
  cases hi : o.instruction with
  | registerOp op rs rd => exact internal_registerOp x op rs rd
  | loadLiteral rd offset => exact internal_transfer x .load .word rd _
  | transferByRegister kind quantity ro rb rd => exact internal_transfer x kind quantity rd _
  | halfByRegister kind ro rb rd => exact internal_halfTransfer x kind rd _
  | transferByOffset kind quantity offset rb rd => exact internal_transfer x kind quantity rd _
  | halfByOffset kind offset rb rd =>
      cases kind with
      | load => exact internal_halfTransfer x .loadHalf rd _
      | store => exact internal_halfTransfer x .storeHalf rd _
  | stackTransfer kind rd offset => exact internal_transfer x kind .word rd _
  | pushPop kind extra list =>
      cases kind with
      | load => exact x.internal_transferBlock .load _ false Reg.sp _
      | store => exact x.internal_transferBlock .store _ false Reg.sp _
  | blockTransfer kind rb list => exact x.internal_transferBlock kind _ false rb.wide list
  | moveShifted kind amount rs rd =>
      simp [moveShifted, setShiftFlags, Instruction.internalCycles]
  | addSubtract subtract operand rs rd =>
      simp [addSubtract, internal_applyAlu, Instruction.internalCycles]
  | immediateOp op rd value =>
      cases op <;> simp [immediateOp, internal_applyAlu, Instruction.internalCycles]
  | highOp op rs rd =>
      cases op <;> simp [highOp, internal_branchExchange, Instruction.internalCycles]
  | loadAddress fromStack rd offset => simp [loadAddress, Instruction.internalCycles]
  | adjustStack subtract offset => simp [adjustStack, Instruction.internalCycles]
  | branchIf condition offset =>
      simp only [Instruction.internalCycles, branch]
      split <;> simp
  | branch offset => simp [branch, Instruction.internalCycles]
  | longBranch second offset => cases second <;> simp [longBranch, Instruction.internalCycles]
  | softwareInterrupt | undefined => simp [Instruction.internalCycles]

/-! ## Bounds -/

/-- No instruction waits for longer than six cycles. -/
def ShortWait (n : Int32) : Prop := 0 ≤ n.toInt ∧ n.toInt ≤ 6

instance (n : Int32) : Decidable (ShortWait n) := inferInstanceAs (Decidable (_ ∧ _))

namespace ShortWait

theorem zero : ShortWait 0 := by decide

theorem one : ShortWait 1 := by decide

/-- A wait that depends on the kind of transfer is short if it is short for either kind. -/
theorem ite {p : Prop} [Decidable p] {a b : Int32} (ha : ShortWait a) (hb : ShortWait b) :
    ShortWait (if p then a else b) := by
  by_cases hp : p
  · rw [if_pos hp]
    exact ha
  · rw [if_neg hp]
    exact hb

/-- The multiplier takes one to four cycles, a multiply at most two more. -/
theorem multiplier (operand : Word) (signed : Bool) {n : Int32}
    (hn : n = 0 ∨ n = 1 ∨ n = 2) : ShortWait (multiplierCycles operand signed + n) := by
  have hcases : multiplierCycles operand signed = 1 ∨ multiplierCycles operand signed = 2
      ∨ multiplierCycles operand signed = 3 ∨ multiplierCycles operand signed = 4 := by
    rw [multiplierCycles]
    repeat' split
    all_goals simp
  rcases hcases with h | h | h | h <;> rcases hn with rfl | rfl | rfl <;> rw [h] <;> decide

end ShortWait

/-- The long accumulating multiply is the one that reaches six cycles. -/
theorem Arm.Instruction.internalCycles_short (i : Arm.Instruction) (k : Core) :
    ShortWait (i.internalCycles k) := by
  cases i with
  | dataProcessing op setFlags rn rd operand =>
      cases operand with
      | immediate i => exact ShortWait.zero
      | shifted rm kind amount =>
          cases amount with
          | immediate amount => exact ShortWait.zero
          | register rs => exact ShortWait.one
  | multiply accumulate setFlags rd rn rs rm =>
      refine ShortWait.multiplier _ true ?_
      cases accumulate <;> simp
  | multiplyLong signed accumulate setFlags rdHigh rdLow rs rm =>
      refine ShortWait.multiplier _ signed ?_
      cases accumulate <;> simp
  | swap => exact ShortWait.one
  | halfTransfer => exact ShortWait.ite ShortWait.zero ShortWait.one
  | singleTransfer | blockTransfer => exact ShortWait.ite ShortWait.one ShortWait.zero
  | _ => exact ShortWait.zero

/-- The 16-bit set has no accumulating multiply, and stays below the bound. -/
theorem Thumb.Instruction.internalCycles_short (i : Thumb.Instruction) (k : Core) :
    ShortWait (i.internalCycles k) := by
  cases i with
  | registerOp op rs rd =>
      cases op with
      | lsl | lsr | asr | ror => exact ShortWait.one
      | mul =>
          have h := ShortWait.multiplier (k.registers.read rd.wide) true (Or.inl rfl)
          rw [Int32.add_zero] at h
          exact h
      | _ => exact ShortWait.zero
  | loadLiteral => exact ShortWait.one
  | halfByRegister => exact ShortWait.ite ShortWait.zero ShortWait.one
  | transferByRegister | transferByOffset | halfByOffset | stackTransfer | pushPop
  | blockTransfer => exact ShortWait.ite ShortWait.one ShortWait.zero
  | _ => exact ShortWait.zero

/-- The internal cycles of an instruction as it was fetched. -/
def Fetched.internalCycles (k : Core) : Fetched → Int32
  | .arm o => o.instruction.internalCycles k
  | .skipped _ => 0
  | .thumb o => o.instruction.internalCycles k

/-- An instruction whose condition fails does not wait at all. -/
theorem Fetched.internalCycles_short (f : Fetched) (k : Core) :
    ShortWait (f.internalCycles k) := by
  cases f with
  | arm o => exact o.instruction.internalCycles_short k
  | skipped o => exact ShortWait.zero
  | thumb o => exact o.instruction.internalCycles_short k

/-- The internal cycles of a flight are those of its instruction. -/
theorem Machine.internal_flight {B : Type} [Bus B] (m : Machine B) :
    m.flight.internal = m.fetched.internalCycles m.core.aligned := by
  have hzero : (Execution.start m.core.aligned m.bus).internal = 0 := rfl
  rw [flight]
  cases m.fetched with
  | arm o => rw [Fetched.execute, Arm.internal_execute, hzero, Int32.zero_add]; rfl
  | skipped o => rfl
  | thumb o => rw [Fetched.execute, Thumb.internal_execute, hzero, Int32.zero_add]; rfl

end Armv4t
