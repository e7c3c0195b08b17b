import Armv4t.Proofs.Simulation.Arm
import Armv4t.Thumb.Execute

/-! # Simulation of the 16-bit set

    One lemma per format, with what the 32-bit set shares taken from there.  The
    low registers are never R15, so that most formats end in a plain write. -/

namespace Armv4t

/-- The exception that an instruction raises as its whole effect. -/
def Thumb.Instruction.exception? : Thumb.Instruction → Option Exception
  | .softwareInterrupt _ => some .softwareInterrupt
  | .undefined => some .undefined
  | _ => none

/-- An instruction that traps only enters its handler. -/
theorem Thumb.execute_of_exception {B : Type} [Bus B] {o : Thumb.Opcode} {e : Exception}
    (h : o.instruction.exception? = some e) (x : Execution B) :
    ∃ es : List Event, Thumb.execute o x =
      { x with
        core := x.core.enter e
        flushed := true
        trail := es.map Activity.event ++ x.trail } := by
  rw [Thumb.execute]
  cases hi : o.instruction with
  | softwareInterrupt comment =>
      rw [hi] at h
      cases h
      exact x.takeException_eq .softwareInterrupt
  | undefined =>
      rw [hi] at h
      cases h
      exact x.tell_takeException_eq _ .undefined
  | _ => rw [hi] at h; exact nomatch h

/-- A low register is one of the first eight, hence never R15. -/
theorem LowReg.wide_ne_pc (r : LowReg) : r.wide ≠ Reg.pc := by
  intro h
  have hv : r.val = 15 := congrArg Fin.val h
  have hr := r.isLt
  omega

namespace Simulation

variable {B C : Type} [Bus B] [Bus C]
variable {R : Execution B → Execution C → Prop} {x : Execution B} {y : Execution C}

/-! ## Arithmetic -/

/-- A write to a low register is never a branch, so that nothing else has to agree for it. -/
theorem setLow (h : Simulation R) (r : R x y) (rd : LowReg) (v : Word) :
    R (x.setRegister rd.wide v) (y.setRegister rd.wide v) :=
  h.setRegister r rd.wide v rd.wide_ne_pc

/-- The flags of a shift come from its result, which both sides share. -/
theorem setShiftFlags (h : Simulation R) (r : R x y) (s : Shifted) :
    R (Thumb.setShiftFlags s x) (Thumb.setShiftFlags s y) :=
  h.updateFlags r _ fun p =>
    ((p.setNZ s.value).setC_agreeOff s.carry).trans (p.setNZ_agreeOff s.value)

/-- Of a flight the arithmetic reads the status only, on which the two sides agree. -/
theorem compute (h : Simulation R) (r : R x y) (op : AluOp) (first second : Word) :
    Thumb.compute op first second x = Thumb.compute op first second y := by
  rw [Thumb.compute, Thumb.compute, h.cpsr r]

/-- A test sets the flags and leaves the register; anything else does both. -/
theorem applyAlu (h : Simulation R) (r : R x y) (op : AluOp) (rd : LowReg)
    (first second : Word) :
    R (Thumb.applyAlu op rd first second x) (Thumb.applyAlu op rd first second y) := by
  rw [Thumb.applyAlu, Thumb.applyAlu, h.compute r]
  generalize Thumb.compute op first second y = result
  by_cases ht : op.test = true
  · rw [if_pos ht, if_pos ht]
    exact h.updateFlags r _ fun p => p.setFlags_agreeOff result.flags
  · rw [if_neg ht, if_neg ht]
    exact h.updateFlags (h.setLow r rd result.value) _ fun p => p.setFlags_agreeOff result.flags

/-- The old carry goes into the shift, and is the same on both sides. -/
theorem moveShifted (h : Simulation R) (r : R x y) (kind : ShiftKind) (amount : Fin 32)
    (rs rd : LowReg) :
    R (Thumb.moveShifted kind amount rs rd x) (Thumb.moveShifted kind amount rs rd y) := by
  rw [Thumb.moveShifted, Thumb.moveShifted, h.registers r, h.cpsr r]
  exact h.setShiftFlags (h.setLow r rd _) _

theorem addSubtract (h : Simulation R) (r : R x y) (subtract : Bool) (o : Thumb.AddOperand)
    (rs rd : LowReg) :
    R (Thumb.addSubtract subtract o rs rd x) (Thumb.addSubtract subtract o rs rd y) := by
  cases o with
  | immediate n =>
      rw [Thumb.addSubtract, Thumb.addSubtract, h.registers r]
      exact h.applyAlu r _ rd _ _
  | register rn =>
      rw [Thumb.addSubtract, Thumb.addSubtract, h.registers r]
      exact h.applyAlu r _ rd _ _

/-- A move sets N and Z only; the other three are arithmetic. -/
theorem immediateOp (h : Simulation R) (r : R x y) (op : Thumb.ImmediateOp) (rd : LowReg)
    (value : Word) : R (Thumb.immediateOp op rd value x) (Thumb.immediateOp op rd value y) := by
  cases op with
  | mov => exact h.updateFlags (h.setLow r rd value) _ fun p => p.setNZ_agreeOff value
  | cmp | add | sub =>
      rw [Thumb.immediateOp, Thumb.immediateOp, h.registers r]
      exact h.applyAlu r _ rd _ value

/-- Both sides shift by the same byte of the same register, and wait alike. -/
theorem shiftByRegister (h : Simulation R) (r : R x y) (kind : ShiftKind) (rs rd : LowReg) :
    R (Thumb.shiftByRegister kind rs rd x) (Thumb.shiftByRegister kind rs rd y) := by
  rw [Thumb.shiftByRegister, Thumb.shiftByRegister, h.registers r, h.cpsr r]
  exact h.setShiftFlags (h.setLow (h.wait r 1) rd _) _

/-- The wait of a multiply is read off its old destination, the same on both sides. -/
theorem multiplyLow (h : Simulation R) (r : R x y) (rs rd : LowReg) :
    R (Thumb.multiply rs rd x) (Thumb.multiply rs rd y) := by
  rw [Thumb.multiply, Thumb.multiply, h.registers r]
  exact h.updateFlags (h.setLow (h.wait r _) rd _) _ fun p => p.setNZ_agreeOff _

theorem registerOp (h : Simulation R) (r : R x y) (op : Thumb.RegisterOp) (rs rd : LowReg) :
    R (Thumb.registerOp op rs rd x) (Thumb.registerOp op rs rd y) := by
  cases op with
  | lsl | lsr | asr | ror => exact h.shiftByRegister r _ rs rd
  | mul => exact h.multiplyLow r rs rd
  | _ =>
      simp only [Thumb.registerOp, Thumb.RegisterOp.alu?, h.registers r]
      exact h.applyAlu r _ rd _ _

/-- Of the arithmetic, here alone R15 can be a destination; BX leaves the set. -/
theorem highOp (h : Simulation R) (r : R x y) (op : Thumb.HighOp) (rs rd : Reg) :
    R (Thumb.highOp op rs rd x) (Thumb.highOp op rs rd y) := by
  cases op with
  | add =>
      rw [Thumb.highOp, Thumb.highOp, h.read r, h.read r]
      exact h.writeRegister r rd _
  | cmp =>
      rw [Thumb.highOp, Thumb.highOp, h.read r, h.read r, h.compute r]
      exact h.updateFlags r _ fun p => p.setFlags_agreeOff _
  | mov =>
      rw [Thumb.highOp, Thumb.highOp, h.read r]
      exact h.writeRegister r rd _
  | bx => exact h.branchExchange r rs

/-- The base is the aligned R15 as it reads ahead, or the stack pointer. -/
theorem loadAddress (h : Simulation R) (r : R x y) (fromStack : Bool) (rd : LowReg)
    (offset : Word) :
    R (Thumb.loadAddress fromStack rd offset x) (Thumb.loadAddress fromStack rd offset y) := by
  rw [Thumb.loadAddress, Thumb.loadAddress, h.registers r, h.effectivePc r]
  exact h.setLow r rd _

theorem adjustStack (h : Simulation R) (r : R x y) (subtract : Bool) (offset : Word) :
    R (Thumb.adjustStack subtract offset x) (Thumb.adjustStack subtract offset y) := by
  rw [Thumb.adjustStack, Thumb.adjustStack, h.registers r]
  exact h.setRegister r Reg.sp _ (by decide)

/-! ## Branches -/

/-- Both sides branch from the same instruction, hence to the same target. -/
theorem branchBy (h : Simulation R) (r : R x y) (offset : Word) :
    R (Thumb.branch offset x) (Thumb.branch offset y) := by
  rw [Thumb.branch, Thumb.branch, h.effectivePc r]
  exact h.branchTo r _

/-- The first half leaves its part of the offset in R14; the second half branches there and
    puts the return address in its place. -/
theorem longBranch (h : Simulation R) (r : R x y) (second : Bool) (offset : Word) :
    R (Thumb.longBranch second offset x) (Thumb.longBranch second offset y) := by
  rw [Thumb.longBranch, Thumb.longBranch, h.registers r, h.pc r, h.effectivePc r]
  cases second with
  | false => exact h.setRegister r Reg.lr _ (by decide)
  | true => exact h.branchTo (h.setRegister r Reg.lr _ (by decide)) _

/-! ## Transfers -/

/-- What two loads brought is equal, and goes into a low register after one cycle. -/
theorem acceptLow (h : Simulation R) {p : Word × Execution B} {q : Word × Execution C}
    (hl : Loads R p q) (rd : LowReg) :
    R ((p.2.wait 1).setRegister rd.wide p.1) ((q.2.wait 1).setRegister rd.wide q.1) := by
  obtain ⟨hv, r⟩ := hl
  rw [hv]
  exact h.setLow (h.wait r 1) rd q.1

/-- A load ends with its register, a store with the end of the sequential fetches. -/
theorem transfer (h : Simulation R) (r : R x y) (kind : TransferKind) (quantity : Quantity)
    (rd : LowReg) (a : Word) :
    R (Thumb.transfer kind quantity rd a x) (Thumb.transfer kind quantity rd a y) := by
  cases kind with
  | load => exact h.acceptLow (h.loadQuantity r quantity a) rd
  | store =>
      rw [Thumb.transfer, Thumb.transfer, h.registers r]
      exact h.scatter (h.storeQuantity r quantity a _)

/-- The three loads share their ending; only their widening differs. -/
theorem halfTransferLow (h : Simulation R) (r : R x y) (kind : HalfTransfer) (rd : LowReg)
    (a : Word) : R (Thumb.halfTransfer kind rd a x) (Thumb.halfTransfer kind rd a y) := by
  cases kind with
  | storeHalf =>
      rw [Thumb.halfTransfer, Thumb.halfTransfer, h.registers r]
      exact h.scatter (h.store r _ _ _ _)
  | loadHalf => exact h.acceptLow (h.loadHalf r a) rd
  | loadSignedByte => exact h.acceptLow (h.loadSignedByte r a) rd
  | loadSignedHalf => exact h.acceptLow (h.loadSignedHalf r a) rd

/-- Push and pop are block transfers on the stack pointer, with one more bit in the list. -/
theorem pushPop (h : Simulation R) (r : R x y) (kind : TransferKind) (extra : Bool)
    (list : Half) : R (Thumb.pushPop kind extra list x) (Thumb.pushPop kind extra list y) := by
  cases kind with
  | store =>
      rw [Thumb.pushPop, Thumb.pushPop]
      exact h.transferBlock r .store _ false Reg.sp _
  | load =>
      rw [Thumb.pushPop, Thumb.pushPop]
      exact h.transferBlock r .load _ false Reg.sp _

/-- **An instruction of the 16-bit set keeps every simulation**, unless it traps. -/
theorem thumb (h : Simulation R) (r : R x y) {o : Thumb.Opcode}
    (ho : o.instruction.exception? = none) : R (Thumb.execute o x) (Thumb.execute o y) := by
  rw [Thumb.execute, Thumb.execute]
  cases hi : o.instruction with
  | moveShifted kind amount rs rd => exact h.moveShifted r kind amount rs rd
  | addSubtract subtract operand rs rd => exact h.addSubtract r subtract operand rs rd
  | immediateOp op rd value => exact h.immediateOp r op rd value
  | registerOp op rs rd => exact h.registerOp r op rs rd
  | highOp op rs rd => exact h.highOp r op rs rd
  | loadLiteral rd offset =>
      dsimp only
      rw [h.effectivePc r]
      exact h.transfer r .load .word rd _
  | transferByRegister kind quantity ro rb rd =>
      dsimp only
      rw [h.registers r]
      exact h.transfer r kind quantity rd _
  | halfByRegister kind ro rb rd =>
      dsimp only
      rw [h.registers r]
      exact h.halfTransferLow r kind rd _
  | transferByOffset kind quantity offset rb rd =>
      dsimp only
      rw [h.registers r]
      exact h.transfer r kind quantity rd _
  | halfByOffset kind offset rb rd =>
      cases kind with
      | load =>
          dsimp only
          rw [h.registers r]
          exact h.halfTransferLow r .loadHalf rd _
      | store =>
          dsimp only
          rw [h.registers r]
          exact h.halfTransferLow r .storeHalf rd _
  | stackTransfer kind rd offset =>
      dsimp only
      rw [h.registers r]
      exact h.transfer r kind .word rd _
  | loadAddress fromStack rd offset => exact h.loadAddress r fromStack rd offset
  | adjustStack subtract offset => exact h.adjustStack r subtract offset
  | pushPop kind extra list => exact h.pushPop r kind extra list
  | blockTransfer kind rb list => exact h.transferBlock r kind _ false rb.wide list
  | branchIf condition offset =>
      dsimp only
      rw [h.cpsr r]
      by_cases hc : y.core.cpsr.satisfies condition = true
      · rw [if_pos hc, if_pos hc]
        exact h.branchBy r offset
      · rw [if_neg hc, if_neg hc]
        exact r
  | branch offset => exact h.branchBy r offset
  | longBranch second offset => exact h.longBranch r second offset
  | softwareInterrupt comment => rw [hi] at ho; exact nomatch ho
  | undefined => rw [hi] at ho; exact nomatch ho

end Simulation

end Armv4t
