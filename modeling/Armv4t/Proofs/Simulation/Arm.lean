import Armv4t.Proofs.Simulation

/-! # Simulation of the 32-bit set

    One lemma per family.  The instructions that trap stand apart: they do nothing
    but enter a handler, from the state they were decoded in. -/

namespace Armv4t

/-- The exception that an instruction raises as its whole effect. -/
def Arm.Instruction.exception? : Arm.Instruction → Option Exception
  | .softwareInterrupt _ => some .softwareInterrupt
  | .coprocessor | .undefined => some .undefined
  | _ => none

/-- An instruction that traps only enters its handler. -/
theorem Arm.execute_of_exception {B : Type} [Bus B] {o : Arm.Opcode} {e : Exception}
    (h : o.instruction.exception? = some e) (x : Execution B) :
    ∃ es : List Event, Arm.execute o x =
      { x with
        core := x.core.enter e
        flushed := true
        trail := es.map Activity.event ++ x.trail } := by
  rw [Arm.execute]
  cases hi : o.instruction with
  | softwareInterrupt comment =>
      rw [hi] at h
      cases h
      exact x.takeException_eq .softwareInterrupt
  | coprocessor | undefined =>
      rw [hi] at h
      cases h
      exact Execution.tell_takeException_eq x _ .undefined
  | _ => rw [hi] at h; exact nomatch h

/-- Evaluating an operand takes time, and changes nothing else. -/
theorem Arm.Operand.evaluate_eq {B : Type} (o : Arm.Operand) (x : Execution B) :
    ∃ n, (o.evaluate x).2 = { x with internal := n } := by
  cases o with
  | immediate i => exact ⟨x.internal, rfl⟩
  | shifted rm kind amount =>
      cases amount with
      | immediate n => exact ⟨x.internal, rfl⟩
      | register rs => exact ⟨x.internal + 1, rfl⟩

section

variable {B : Type} (fields : Arm.StatusFields) (o : Arm.StatusOperand) {x : Execution B}

/-- MSR to the current status tells of a changed T bit, and then tries the merged word. -/
theorem Arm.moveToCpsr_eq : Arm.moveToStatus .cpsr fields o x
    = let status := Arm.statusAfterMove x.core (o.evaluate x) fields
      (if status.t = x.core.cpsr.t then x else x.tell (.stateBitWritten status.t)).tryStatus
        status := rfl

/-- MSR to the saved status merges without looking at the mode field. -/
theorem Arm.moveToSpsr_some {saved : Psr} (h : x.core.spsr? = some saved) :
    Arm.moveToStatus .spsr fields o x
      = x.withCore (x.core.saveStatus (saved.writeMasked (o.evaluate x) fields.mask)) := by
  simp only [Arm.moveToStatus, h]
  rfl

/-- Where no status is saved, MSR only tells so. -/
theorem Arm.moveToSpsr_none (h : x.core.spsr? = none) :
    Arm.moveToStatus .spsr fields o x = x.tell (.statusWriteIgnored x.core.mode) := by
  simp only [Arm.moveToStatus, h]

end

namespace Simulation

variable {B C : Type} [Bus B] [Bus C]
variable {R : Execution B → Execution C → Prop} {x : Execution B} {y : Execution C}

/-- The second operand: one value, and related instructions afterwards. -/
theorem evaluate (h : Simulation R) (r : R x y) (o : Arm.Operand) :
    (o.evaluate x).1 = (o.evaluate y).1 ∧ R (o.evaluate x).2 (o.evaluate y).2 := by
  cases o with
  | immediate i =>
      refine ⟨?_, r⟩
      show i.operand x.core.cpsr.c = i.operand y.core.cpsr.c
      rw [h.cpsr r]
  | shifted rm kind amount =>
      cases amount with
      | immediate amount =>
          refine ⟨?_, r⟩
          show shift kind .opcode (x.read rm .operand) _ x.core.cpsr.c = shift _ _ _ _ _
          rw [h.read r, h.cpsr r]
      | register rs =>
          refine ⟨?_, h.wait r 1⟩
          show shift kind .register (x.read rm .shiftOperand) (x.read rs .shiftOperand &&& 0xFF)
            x.core.cpsr.c = shift _ _ _ _ _
          rw [h.read r, h.read r, h.cpsr r]

/-- Setting flags, if the instruction sets any. -/
theorem updateFlagsIf (h : Simulation R) (r : R x y) (setFlags : Bool) (f : Psr → Psr)
    (hf : ∀ p, AgreeOff Psr.flagsMask (f p).raw p.raw) :
    R (if setFlags then x.updateCpsr f else x) (if setFlags then y.updateCpsr f else y) := by
  cases setFlags with
  | false => exact r
  | true => exact h.updateFlags r f hf

/-- Where R15 is written with S, the saved status comes back instead of the flags, in the
    modes that have one. -/
theorem dataProcessing (h : Simulation R) (r : R x y) (op : AluOp) (setFlags : Bool)
    (rn rd : Reg) (o : Arm.Operand) :
    R (Arm.dataProcessing op setFlags rn rd o x) (Arm.dataProcessing op setFlags rn rd o y) := by
  obtain ⟨hsecond, r'⟩ := h.evaluate r o
  rw [Arm.dataProcessing, Arm.dataProcessing]
  dsimp only
  rw [hsecond, h.read r' rn, h.cpsr r']
  generalize op.compute _ _ _ _ = result
  have flagged : ∀ {x : Execution B} {y : Execution C}, R x y →
      R (if setFlags then x.updateCpsr (·.setFlags result.flags) else x)
        (if setFlags then y.updateCpsr (·.setFlags result.flags) else y) :=
    fun r => h.updateFlagsIf r setFlags _ fun p => p.setFlags_agreeOff result.flags
  by_cases ht : op.test = true
  · rw [if_pos ht, if_pos ht]
    exact flagged r'
  · rw [if_neg ht, if_neg ht]
    by_cases hd : rd = Reg.pc
    · rw [if_pos hd, if_pos hd, h.mode r']
      by_cases hs : setFlags = true ∧ (o.evaluate y).2.core.mode.hasSpsr = true
      · rw [if_pos hs, if_pos hs]
        exact h.restore r' result.value
      · rw [if_neg hs, if_neg hs]
        exact h.branchTo (flagged r') result.value
    · rw [if_neg hd, if_neg hd]
      exact flagged (h.setRegister r' rd result.value hd)

/-- MRS without a saved status reads the current one, on both sides. -/
theorem moveFromStatus (h : Simulation R) (r : R x y) (source : Arm.StatusRegister)
    (rd : Reg) : R (Arm.moveFromStatus source rd x) (Arm.moveFromStatus source rd y) := by
  cases source with
  | cpsr =>
      show R (x.writeRegister rd x.core.cpsr.raw) (y.writeRegister rd y.core.cpsr.raw)
      rw [h.cpsr r]
      exact h.writeRegister r rd _
  | spsr =>
      show R (x.writeRegister rd (x.core.spsr?.getD x.core.cpsr).raw)
        (y.writeRegister rd (y.core.spsr?.getD y.core.cpsr).raw)
      rw [h.cpsr r, h.spsr r]
      exact h.writeRegister r rd _

/-- Of an immediate operand only the value counts; the carry it makes is dropped. -/
theorem statusOperand (h : Simulation R) (r : R x y) (o : Arm.StatusOperand) :
    o.evaluate x = o.evaluate y := by
  cases o with
  | register rm => exact h.read r rm .operand
  | immediate i =>
      show (i.operand x.core.cpsr.c).value = (i.operand y.core.cpsr.c).value
      rw [h.cpsr r]

/-- Both sides merge the same word into the same status and refuse it alike. -/
theorem moveToStatus (h : Simulation R) (r : R x y) (hs : x.core.instructionSet = .arm)
    (target : Arm.StatusRegister) (fields : Arm.StatusFields) (operand : Arm.StatusOperand) :
    R (Arm.moveToStatus target fields operand x) (Arm.moveToStatus target fields operand y) := by
  have hvalue := h.statusOperand r operand
  cases target with
  | cpsr =>
      have hmoved : ∀ v, Arm.statusAfterMove y.core v fields
          = Arm.statusAfterMove x.core v fields := by
        intro v
        rw [Arm.statusAfterMove, Arm.statusAfterMove, h.cpsr r, h.mode r]
      rw [Arm.moveToCpsr_eq, Arm.moveToCpsr_eq, hvalue, hmoved, ← h.cpsr r]
      generalize operand.evaluate y = v
      dsimp only
      by_cases ht : (Arm.statusAfterMove x.core v fields).t = x.core.cpsr.t
      · rw [if_pos ht, if_pos ht]
        have hm := h.moveStatus r hs v fields
        rw [hmoved v] at hm
        exact hm
      · rw [if_neg ht, if_neg ht]
        have r' := h.tell r (.stateBitWritten (Arm.statusAfterMove x.core v fields).t)
        have hm := h.moveStatus r' hs v fields
        rw [show Arm.statusAfterMove (y.tell _).core v fields = _ from hmoved v] at hm
        exact hm
  | spsr =>
      have hspsr := h.spsr r
      cases hp : y.core.spsr? with
      | none =>
          rw [Arm.moveToSpsr_none _ _ (hspsr.trans hp), Arm.moveToSpsr_none _ _ hp, h.mode r]
          exact h.tell r _
      | some saved =>
          rw [Arm.moveToSpsr_some _ _ (hspsr.trans hp), Arm.moveToSpsr_some _ _ hp, hvalue]
          exact h.saveStatus r (Core.hasSpsr_of_some (hspsr.trans hp)) _

/-- Operands and waits come from the live registers, R15 among them. -/
theorem multiply (h : Simulation R) (r : R x y) (accumulate setFlags : Bool)
    (rd rn rs rm : Reg) :
    R (Arm.multiply accumulate setFlags rd rn rs rm x)
      (Arm.multiply accumulate setFlags rd rn rs rm y) := by
  rw [Arm.multiply, Arm.multiply, h.registers r]
  exact h.updateFlagsIf (h.writeRegister (h.wait r _) rd _) setFlags _
    fun p => p.setNZ_agreeOff _

/-- The low word is written first, so that the high word wins where they share a register. -/
theorem multiplyLong (h : Simulation R) (r : R x y) (signed accumulate setFlags : Bool)
    (rdHigh rdLow rs rm : Reg) :
    R (Arm.multiplyLong signed accumulate setFlags rdHigh rdLow rs rm x)
      (Arm.multiplyLong signed accumulate setFlags rdHigh rdLow rs rm y) := by
  rw [Arm.multiplyLong, Arm.multiplyLong, h.registers r]
  exact h.updateFlagsIf (h.writeRegister (h.writeRegister (h.wait r _) rdLow _) rdHigh _)
    setFlags _ fun p => p.setNZLong_agreeOff _

/-- Bit 0 of the target names the set, and an event is told where it is another one. -/
theorem branchExchange (h : Simulation R) (r : R x y) (rm : Reg) :
    R (Arm.branchExchange rm x) (Arm.branchExchange rm y) := by
  rw [Arm.branchExchange, Arm.branchExchange, h.read r, h.instructionSet r]
  by_cases hs : InstructionSet.ofBit (bit (y.read rm .operand) 0) = y.core.instructionSet
  · rw [if_pos hs, if_pos hs]
    exact h.exchange r _ _
  · rw [if_neg hs, if_neg hs]
    exact h.exchange (h.tell r _) _ _

/-- The return address is of the instruction, the target of the pipeline. -/
theorem branch (h : Simulation R) (r : R x y) (link : Bool) (offset : Word) :
    R (Arm.branch link offset x) (Arm.branch link offset y) := by
  rw [Arm.branch, Arm.branch, h.effectivePc r, h.pc r]
  cases link with
  | false => exact h.branchTo r _
  | true => exact h.branchTo (h.setRegister r Reg.lr _ (by decide)) _

/-! ## Transfers -/

/-- The offset of a transfer is read before anything is written. -/
theorem transferOffset (h : Simulation R) (r : R x y) (o : Arm.TransferOffset) :
    o.evaluate x = o.evaluate y := by
  cases o with
  | immediate offset => rfl
  | shifted rm kind amount =>
      show (shift kind .opcode (x.read rm .operand) _ x.core.cpsr.c).value = (shift _ _ _ _ _).value
      rw [h.read r, h.cpsr r]

/-- The same of a halfword transfer. -/
theorem halfOffset (h : Simulation R) (r : R x y) (o : Arm.HalfOffset) :
    o.evaluate x = o.evaluate y := by
  cases o with
  | immediate offset => rfl
  | register rm => exact h.read r rm .operand

/-- A post-indexed transfer moves its base even without W. -/
theorem moveBase (h : Simulation R) (r : R x y) (a : Addressing) (rn : Reg) (moved : Word) :
    R (Arm.moveBase a rn moved x) (Arm.moveBase a rn moved y) := by
  rw [Arm.moveBase, Arm.moveBase]
  by_cases hm : a.movesBase = true
  · rw [if_pos hm, if_pos hm]
    exact h.writeBase r rn moved
  · rw [if_neg hm, if_neg hm]
    exact r

/-- The base moves before the destination is written, so that the loaded value wins. -/
theorem finishLoad (h : Simulation R) {p : Word × Execution B} {q : Word × Execution C}
    (hl : Loads R p q) (a : Addressing) (rn rd : Reg) (moved : Word) :
    R (Arm.finishLoad a rn rd moved p) (Arm.finishLoad a rn rd moved q) := by
  obtain ⟨hv, r⟩ := hl
  rw [Arm.finishLoad, Arm.finishLoad, hv]
  exact h.writeRegister (h.moveBase (h.wait r 1) a rn moved) rd q.1

/-- The store of a swap comes after its load, at the same address. -/
theorem swap (h : Simulation R) (r : R x y) (quantity : Quantity) (rn rd rm : Reg) :
    R (Arm.swap quantity rn rd rm x) (Arm.swap quantity rn rd rm y) := by
  rw [Arm.swap, Arm.swap, h.read r, h.read r]
  dsimp only
  obtain ⟨hv, r'⟩ := h.loadQuantity r quantity (y.read rn .operand)
  rw [hv]
  exact h.writeRegister (h.wait (h.storeQuantity r' quantity _ _) 1) rd _

/-- The stored value is read before the base moves. -/
theorem halfTransfer (h : Simulation R) (r : R x y) (kind : HalfTransfer) (a : Addressing)
    (rn rd : Reg) (o : Arm.HalfOffset) :
    R (Arm.halfTransfer kind a rn rd o x) (Arm.halfTransfer kind a rn rd o y) := by
  have hbase := h.read r rn .operand
  have hmoved := congrArg (a.direction.apply (y.read rn .operand)) (h.halfOffset r o)
  cases kind <;> simp only [Arm.halfTransfer, hbase, hmoved]
  case storeHalf => rw [h.read r]; exact h.moveBase (h.scatter (h.store r _ _ _ _)) a rn _
  case loadHalf => exact h.finishLoad (h.loadHalf r _) a rn rd _
  case loadSignedByte => exact h.finishLoad (h.loadSignedByte r _) a rn rd _
  case loadSignedHalf => exact h.finishLoad (h.loadSignedHalf r _) a rn rd _

/-- The same of a word or a byte. -/
theorem singleTransfer (h : Simulation R) (r : R x y) (kind : TransferKind)
    (quantity : Quantity) (a : Addressing) (rn rd : Reg) (o : Arm.TransferOffset) :
    R (Arm.singleTransfer kind quantity a rn rd o x)
      (Arm.singleTransfer kind quantity a rn rd o y) := by
  have hbase := h.read r rn .operand
  have hmoved := congrArg (a.direction.apply (y.read rn .operand)) (h.transferOffset r o)
  cases kind <;> simp only [Arm.singleTransfer, hbase, hmoved]
  case store => rw [h.read r]; exact h.moveBase (h.scatter (h.storeQuantity r quantity _ _)) a rn _
  case load => exact h.finishLoad (h.loadQuantity r quantity _) a rn rd _

/-- **An instruction of the 32-bit set keeps every simulation**, unless it traps. -/
theorem arm (h : Simulation R) (r : R x y) (hs : x.core.instructionSet = .arm) {o : Arm.Opcode}
    (ho : o.instruction.exception? = none) : R (Arm.execute o x) (Arm.execute o y) := by
  rw [Arm.execute, Arm.execute]
  cases hi : o.instruction with
  | dataProcessing op setFlags rn rd operand => exact h.dataProcessing r op setFlags rn rd operand
  | moveFromStatus source rd => exact h.moveFromStatus r source rd
  | moveToStatus target fields operand => exact h.moveToStatus r hs target fields operand
  | multiply accumulate setFlags rd rn rs rm =>
      exact h.multiply r accumulate setFlags rd rn rs rm
  | multiplyLong signed accumulate setFlags rdHigh rdLow rs rm =>
      exact h.multiplyLong r signed accumulate setFlags rdHigh rdLow rs rm
  | swap quantity rn rd rm => exact h.swap r quantity rn rd rm
  | branchExchange rm => exact h.branchExchange r rm
  | halfTransfer kind a rn rd offset => exact h.halfTransfer r kind a rn rd offset
  | singleTransfer kind quantity a rn rd offset =>
      exact h.singleTransfer r kind quantity a rn rd offset
  | blockTransfer kind a s rn list => exact h.transferBlock r kind a s rn list
  | branch link offset => exact h.branch r link offset
  | coprocessor => rw [hi] at ho; exact nomatch ho
  | softwareInterrupt comment => rw [hi] at ho; exact nomatch ho
  | undefined => rw [hi] at ho; exact nomatch ho

end Simulation

end Armv4t
