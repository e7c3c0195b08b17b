import Armv4t.Proofs.Guarded.Block
import Armv4t.Proofs.Guarded.Decode

/-! # Guarded execution, the 32-bit set — no instruction goes out of range

    Every instruction of the 32-bit set again, on a running flight: it reads its operands
    through guarded reads, shifts and adds through guarded units, and is charged in the
    order in which it spends.  From a flight that was not charged yet each of them has a
    result, the plain one, after at most seventeen charges
    (`Fair.execute` at the end). -/

namespace Armv4t

open Bus

namespace Arm.Guarded

open Armv4t.Guarded

variable {B : Type}

/-- The second operand; a shift by register takes one internal cycle. -/
def operand (o : Operand) (t : Running B) : Option (Shifted × Running B) := do
  let k := t.flight.core
  let carry ← carry k.cpsr
  match o with
  | .immediate i => some (← immediate i carry, t)
  | .shifted rm kind (.immediate amount) =>
    some (← Guarded.shift kind .opcode (← read k rm .operand) amount.val.toUInt32 carry, t)
  | .shifted rm kind (.register rs) =>
    let value ← read k rm .shiftOperand
    let amount := (← read k rs .shiftOperand) &&& 0xFF
    let t ← t.wait 1
    some (← Guarded.shift kind .register value amount carry, t)

/-- Data processing. -/
def dataProcessing (op : AluOp) (setFlags : Bool) (rn rd : Reg) (o : Operand)
    (t : Running B) : Option (Running B) := do
  let (second, t) ← operand o t
  let k := t.flight.core
  let first ← read k rn o.role
  let result ← compute op first second (← carry k.cpsr) (← overflow k.cpsr)
  let flagged (t : Running B) : Option (Running B) :=
    if setFlags then t.updateCpsr (Guarded.setFlags · result.flags) else some t
  if op.test then flagged t
  else if rd = Reg.pc then
    let t ← if setFlags ∧ k.mode.hasSpsr then t.restoreStatus else flagged t
    t.branchTo result.value
  else flagged (t.map (·.setRegister rd result.value))

/-- A status register into a register. -/
def moveFromStatus (source : StatusRegister) (rd : Reg) (t : Running B) :
    Option (Running B) :=
  let k := t.flight.core
  let status := match source with
    | .cpsr => k.cpsr
    | .spsr => k.spsr?.getD k.cpsr
  t.writeRegister rd status.raw

/-- The value that a status transfer writes. -/
def statusOperand (o : StatusOperand) (k : Core) : Option Word := do
  match o with
  | .register rm => read k rm .operand
  | .immediate i => some (← immediate i (← carry k.cpsr)).value

/-- A value into a status register. -/
def moveToStatus (target : StatusRegister) (fields : StatusFields) (o : StatusOperand)
    (t : Running B) : Option (Running B) := do
  let k := t.flight.core
  let value ← statusOperand o k
  match target with
  | .cpsr =>
    let status := statusAfterMove k value fields
    let set ← stateBit status
    let t := if set = (← stateBit k.cpsr) then t else t.map (·.tell (.stateBitWritten set))
    t.tryStatus status
  | .spsr =>
    match k.spsr? with
    | some saved =>
      let saved := saved.writeMasked value fields.mask
      some (t.map (·.withCore { k with bank := k.bank.setSpsr k.mode saved }))
    | none => some (t.map (·.tell (.statusWriteIgnored k.mode)))

/-- One cycle more where a product is added to something. -/
def waitAlso (accumulate : Bool) (t : Running B) : Option (Running B) :=
  if accumulate then t.wait 1 else some t

/-- A multiply, with or without a sum. -/
def multiply (accumulate setFlags : Bool) (rd rn rs rm : Reg) (t : Running B) :
    Option (Running B) := do
  let k := t.flight.core
  let multiplier := k.registers.read rs
  let product := k.registers.read rm * multiplier
  let t ← t.wait (multiplierCycles multiplier true)
  let t ← waitAlso accumulate t
  let result := if accumulate then product + k.registers.read rn else product
  let t ← t.writeRegister rd result
  if setFlags then t.updateCpsr (setNZ · result) else some t

/-- The product of two words in 64 bits. -/
def longProduct (signed : Bool) (a b : Word) : Option UInt64 := do
  if signed then some (← mulSigned a.toInt32.toInt64 b.toInt32.toInt64).toUInt64
  else mulWide a.toUInt64 b.toUInt64

/-- A long multiply, with or without a sum. -/
def multiplyLong (signed accumulate setFlags : Bool) (rdHigh rdLow rs rm : Reg)
    (t : Running B) : Option (Running B) := do
  let k := t.flight.core
  let multiplier := k.registers.read rs
  let product ← longProduct signed (k.registers.read rm) multiplier
  let t ← t.wait (← addTime (multiplierCycles multiplier signed) 1)
  let sum := (← shiftLeftWide (k.registers.read rdHigh).toUInt64 32)
    ||| (k.registers.read rdLow).toUInt64
  let result := if accumulate then product + sum else product
  let t ← waitAlso accumulate t
  let t ← t.writeRegister rdLow result.toUInt32
  let t ← t.writeRegister rdHigh (← shiftRightWide result 32).toUInt32
  if setFlags then t.updateCpsr (setNZLong · result) else some t

/-- A branch to the address in a register, whose lowest bit selects the set. -/
def branchExchange (rm : Reg) (t : Running B) : Option (Running B) := do
  let k := t.flight.core
  let target ← read k rm .operand
  let set := InstructionSet.ofBit (← getBit 32 target 0)
  let t := if set = (← instructionSet k.cpsr) then t else t.map (·.tell (.exchanged target set))
  let t ← t.updateCpsr (setInstructionSet · set)
  t.branchTo target

/-- A branch; with the link bit the next address goes into R14. -/
def branch (link : Bool) (offset : Word) (t : Running B) : Option (Running B) := do
  let k := t.flight.core
  let target := (← effectivePc k .branchBase) + offset
  let t := if link then t.map (·.setRegister Reg.lr (k.pc + 4)) else t
  t.branchTo target

/-- The offset of a single transfer. -/
def transferOffset (o : TransferOffset) (k : Core) : Option Word := do
  match o with
  | .immediate offset => some offset
  | .shifted rm kind amount =>
    let value ← read k rm .operand
    some (← Guarded.shift kind .opcode value amount.val.toUInt32 (← carry k.cpsr)).value

/-- The offset of a halfword transfer. -/
def halfOffset (o : HalfOffset) (k : Core) : Option Word :=
  match o with
  | .immediate offset => some offset
  | .register rm => read k rm .operand

/-- Writes the moved base of a transfer, if the addressing moves it. -/
def moveBase (a : Addressing) (rn : Reg) (moved : Word) (t : Running B) : Running B :=
  if a.movesBase then t.map (·.writeBase rn moved) else t

/-- Ends a load: one internal cycle, then the base, then the loaded value. -/
def finishLoad (a : Addressing) (rn rd : Reg) (moved : Word)
    (loaded : Option (Word × Running B)) : Option (Running B) := do
  let (v, t) ← loaded
  let t ← t.wait 1
  (moveBase a rn moved t).writeRegister rd v

variable [Bus B]

/-- An exchange of a register with memory. -/
def swap (quantity : Quantity) (rn rd rm : Reg) (t : Running B) : Option (Running B) := do
  let k := t.flight.core
  let address ← read k rn .operand
  let source ← read k rm .operand
  let (old, t) ← t.loadQuantity quantity address
  let t ← t.storeQuantity quantity address source
  let t ← t.wait 1
  t.writeRegister rd old

/-- A halfword transfer. -/
def halfTransfer (kind : HalfTransfer) (a : Addressing) (rn rd : Reg) (offset : HalfOffset)
    (t : Running B) : Option (Running B) := do
  let k := t.flight.core
  let base ← read k rn .operand
  let moved := a.direction.apply base (← halfOffset offset k)
  let address := a.address base moved
  match kind with
  | .storeHalf =>
    let t ← t.store .half false address (← read k rd .stored)
    some (moveBase a rn moved (t.map (·.scatter)))
  | .loadHalf => finishLoad a rn rd moved (t.loadHalf address)
  | .loadSignedByte => finishLoad a rn rd moved (t.loadSignedByte address)
  | .loadSignedHalf => finishLoad a rn rd moved (t.loadSignedHalf address)

/-- A word or byte transfer. -/
def singleTransfer (kind : TransferKind) (quantity : Quantity) (a : Addressing) (rn rd : Reg)
    (offset : TransferOffset) (t : Running B) : Option (Running B) := do
  let k := t.flight.core
  let base ← read k rn .operand
  let moved := a.direction.apply base (← transferOffset offset k)
  let address := a.address base moved
  match kind with
  | .store =>
    let t ← t.storeQuantity quantity address (← read k rd .stored)
    some (moveBase a rn moved (t.map (·.scatter)))
  | .load => finishLoad a rn rd moved (t.loadQuantity quantity address)

/-- Executes an instruction of the 32-bit set. -/
def execute (o : Opcode) (t : Running B) : Option (Running B) :=
  match o.instruction with
  | .dataProcessing op setFlags rn rd operand => dataProcessing op setFlags rn rd operand t
  | .moveFromStatus source rd => moveFromStatus source rd t
  | .moveToStatus target fields operand => moveToStatus target fields operand t
  | .multiply accumulate setFlags rd rn rs rm => multiply accumulate setFlags rd rn rs rm t
  | .multiplyLong signed accumulate setFlags rdHigh rdLow rs rm =>
    multiplyLong signed accumulate setFlags rdHigh rdLow rs rm t
  | .swap quantity rn rd rm => swap quantity rn rd rm t
  | .branchExchange rm => branchExchange rm t
  | .halfTransfer kind a rn rd offset => halfTransfer kind a rn rd offset t
  | .singleTransfer kind quantity a rn rd offset => singleTransfer kind quantity a rn rd offset t
  | .blockTransfer kind a s rn list => t.transferBlock kind a s rn list
  | .branch link offset => branch link offset t
  | .softwareInterrupt _ => t.takeException .softwareInterrupt
  | .coprocessor | .undefined =>
    (t.map (·.tell (.undefinedArm t.flight.core.pc o.raw))).takeException .undefined

/-! ## Every instruction passes -/

/-- The multiplier takes four cycles at most. -/
theorem multiplierCycles_bounds (operand : Word) (signed : Bool) :
    1 ≤ (multiplierCycles operand signed).toInt ∧ (multiplierCycles operand signed).toInt ≤ 4 := by
  rw [multiplierCycles]
  split_ifs <;> decide

/-- The product of two words has 64 bits. -/
@[simp] theorem longProduct_eq (signed : Bool) (a b : Word) :
    longProduct signed a b = some (Arm.longProduct signed a b) := by
  cases signed <;> simp [longProduct, Arm.longProduct, mulSigned_eq, mulWide_eq]

omit [Bus B] in
/-- Waiting twice is waiting for both. -/
theorem wait_wait (x : Execution B) (m n : Int32) : (x.wait m).wait n = x.wait (m + n) := by
  simp only [Execution.wait, Int32.add_assoc]

omit [Bus B] in
/-- What MSR writes can be computed on every core. -/
@[simp] theorem statusOperand_eq (o : StatusOperand) (x : Execution B) :
    statusOperand o x.core = some (o.evaluate x) := by
  cases o <;> simp [statusOperand, StatusOperand.evaluate, Execution.read]

omit [Bus B] in
/-- An offset shifts by an amount from the opcode, which is in range. -/
@[simp] theorem transferOffset_eq (o : TransferOffset) (x : Execution B) :
    transferOffset o x.core = some (o.evaluate x) := by
  cases o <;> simp [transferOffset, TransferOffset.evaluate, Execution.read]

omit [Bus B] in
@[simp] theorem halfOffset_eq (o : HalfOffset) (x : Execution B) :
    halfOffset o x.core = some (o.evaluate x) := by
  cases o <;> simp [halfOffset, HalfOffset.evaluate, Execution.read]

variable {b : B} {k : Nat} {t : Running B}

/-- The second operand is charged at most once, for an amount in a register. -/
theorem operand_loads (o : Operand) (h : Fair b 0 t) :
    Gives (operand o t) (Loads b 1 (o.evaluate t.flight)) := by
  have hstill : Follows b 1 t.flight t := Follows.mono ⟨rfl, h⟩ (by decide)
  cases o with
  | immediate i =>
      rw [show operand (.immediate i) t = some (i.operand t.flight.core.cpsr.c, t) by
        simp [operand]]
      exact gives_some ⟨rfl, hstill⟩
  | shifted rm kind amount =>
      cases amount with
      | immediate amount =>
          rw [show operand (.shifted rm kind (.immediate amount)) t
            = some (shift kind .opcode (t.flight.core.read rm .operand) amount.val.toUInt32
              t.flight.core.cpsr.c, t) by simp [operand]]
          exact gives_some ⟨rfl, hstill⟩
      | register rs =>
          simp only [operand, carry_eq, read_eq, Guarded.shift_eq, Option.bind_eq_bind,
            Option.bind_some]
          refine (h.waitOne (by decide)).bind ?_
          rintro t₁ h₁
          exact gives_some ⟨rfl, h₁⟩

/-- Data processing is charged for its operand only, wherever the result goes. -/
theorem dataProcessing_follows (op : AluOp) (setFlags : Bool) (rn rd : Reg) (o : Operand)
    (h : Fair b 0 t) :
    Gives (dataProcessing op setFlags rn rd o t)
      (Follows b 1 (Arm.dataProcessing op setFlags rn rd o t.flight)) := by
  refine (operand_loads o h).bind ?_
  rintro ⟨second, t₁⟩ ⟨hsecond, ht₁, h₁⟩
  dsimp only at hsecond ht₁
  simp only [Arm.dataProcessing, Execution.read, read_eq, carry_eq, overflow_eq, compute_eq,
    Option.bind_eq_bind, Option.bind_some]
  rw [← hsecond, ← ht₁]
  generalize op.compute _ _ _ _ = result
  have hflags : ∀ p, Guarded.setFlags p result.flags = some (p.setFlags result.flags) :=
    fun p => setFlags_eq p _
  by_cases htest : op.test
  · rw [if_pos htest, if_pos htest]
    exact h₁.flagged setFlags hflags
  · rw [if_neg htest, if_neg htest]
    by_cases hrd : rd = Reg.pc
    · rw [if_pos hrd, if_pos hrd]
      -- with the S bit set this returns from an exception, where there is a saved status
      by_cases hreturn : setFlags ∧ t₁.flight.core.mode.hasSpsr
      · rw [if_pos hreturn, if_pos hreturn]
        refine h₁.restoreStatus.bind ?_
        rintro t₂ ⟨ht₂, h₂⟩
        rw [← ht₂]
        exact h₂.branchTo _
      · rw [if_neg hreturn, if_neg hreturn]
        refine (h₁.flagged setFlags hflags).bind ?_
        rintro t₂ ⟨ht₂, h₂⟩
        rw [← ht₂]
        exact h₂.branchTo _
    · rw [if_neg hrd, if_neg hrd]
      exact (h₁.map (.setRegister _ rd result.value)).flagged setFlags hflags

/-- MRS charges nothing. -/
theorem moveFromStatus_follows (source : StatusRegister) (rd : Reg) (h : Fair b 0 t) :
    Gives (moveFromStatus source rd t)
      (Follows b 0 (Arm.moveFromStatus source rd t.flight)) :=
  h.writeRegister rd _

/-- MSR charges nothing, and a refusal of it is a result. -/
theorem moveToStatus_follows (target : StatusRegister) (fields : StatusFields)
    (o : StatusOperand) (h : Fair b 0 t) :
    Gives (moveToStatus target fields o t)
      (Follows b 0 (Arm.moveToStatus target fields o t.flight)) := by
  simp only [moveToStatus, statusOperand_eq, stateBit_eq, Option.bind_eq_bind, Option.bind_some]
  cases target with
  | cpsr =>
      obtain ⟨ht, h₁⟩ := Follows.ite
        (c := (statusAfterMove t.flight.core (o.evaluate t.flight) fields).t
          = t.flight.core.cpsr.t) h.still (h.tell (.stateBitWritten _))
      rw [Arm.moveToStatus]
      dsimp only
      rw [← ht]
      exact h₁.tryStatus _
  | spsr =>
      rw [Arm.moveToStatus]
      cases hs : t.flight.core.spsr? with
      | none => exact gives_some (h.tell _)
      | some saved => exact h.mapped (.withCore _ _)

/-- The plain flight waits once for product and sum, the running one a second time for the
    sum. -/
theorem waitAlso_follows (accumulate : Bool) {x : Execution B} {n : Int32}
    (h : Follows b 1 (x.wait n) t) :
    Gives (waitAlso accumulate t)
      (Follows b 2 (x.wait (n + if accumulate then 1 else 0))) := by
  obtain ⟨ht, h⟩ := h
  cases accumulate with
  | true =>
      have hmore := h.waitOne (by decide)
      rw [ht, wait_wait] at hmore
      exact hmore
  | false =>
      have hdone := h.done.within (n := 2) (by decide)
      rw [ht] at hdone
      rw [show n + (if false then 1 else 0) = n from Int32.add_zero n]
      exact hdone

/-- A multiply is charged for its product and then for its sum. -/
theorem multiply_follows (accumulate setFlags : Bool) (rd rn rs rm : Reg) (h : Fair b 0 t) :
    Gives (multiply accumulate setFlags rd rn rs rm t)
      (Follows b 2 (Arm.multiply accumulate setFlags rd rn rs rm t.flight)) := by
  obtain ⟨hlow, hhigh⟩ := multiplierCycles_bounds (t.flight.core.registers.read rs) true
  refine (h.wait (by decide) (by omega) (by omega)).bind ?_
  intro t₁ h₁
  refine (waitAlso_follows accumulate h₁).bind ?_
  rintro t₂ ⟨ht₂, h₂⟩
  refine (h₂.writeRegister rd _).bind ?_
  rintro t₃ ⟨ht₃, h₃⟩
  rw [Arm.multiply, ← ht₂, ← ht₃]
  exact h₃.flagged setFlags fun p => setNZ_eq p _

/-- The cycles of a long multiply are added up before they are charged, and that sum fits. -/
theorem multiplyLong_follows (signed accumulate setFlags : Bool) (rdHigh rdLow rs rm : Reg)
    (h : Fair b 0 t) :
    Gives (multiplyLong signed accumulate setFlags rdHigh rdLow rs rm t)
      (Follows b 2 (Arm.multiplyLong signed accumulate setFlags rdHigh rdLow rs rm t.flight)) := by
  obtain ⟨hlow, hhigh⟩ := multiplierCycles_bounds (t.flight.core.registers.read rs) signed
  generalize hcycles : multiplierCycles (t.flight.core.registers.read rs) signed = cycles
    at hlow hhigh
  have hsum : (cycles + 1).toInt = cycles.toInt + 1 :=
    toInt_add_of_fits (show 0 ≤ cycles.toInt + 1 by omega) (show cycles.toInt + 1 < _ by omega)
  have hone : addTime cycles 1 = some (cycles + 1) :=
    addTime_eq (show -2 ^ 31 ≤ cycles.toInt + 1 by omega) (show cycles.toInt + 1 < _ by omega)
  -- the plain flight waits once for all of it
  have hwaits : cycles + 1 + (if accumulate then 1 else 0)
      = cycles + if accumulate then 2 else 1 := by
    cases accumulate with
    | true => exact Int32.add_assoc cycles 1 1
    | false => exact Int32.add_zero _
  simp only [multiplyLong, Arm.multiplyLong, longProduct_eq, hcycles, hone, Option.bind_eq_bind,
    Option.bind_some]
  refine (h.wait (by decide) (by omega) (by omega)).bind ?_
  intro t₁ h₁
  rw [shiftLeftWide_eq (by decide), Option.bind_some]
  refine (waitAlso_follows accumulate h₁).bind ?_
  rintro t₂ ⟨ht₂, h₂⟩
  rw [hwaits] at ht₂
  refine (h₂.writeRegister rdLow _).bind ?_
  rintro t₃ ⟨ht₃, h₃⟩
  rw [shiftRightWide_eq (by decide), Option.bind_some]
  refine (h₃.writeRegister rdHigh _).bind ?_
  rintro t₄ ⟨ht₄, h₄⟩
  rw [← ht₂, ← ht₃, ← ht₄]
  exact h₄.flagged setFlags fun p => setNZLong_eq p _

/-- Bit 0 of any word can be looked at, and either value of it selects a set. -/
theorem branchExchange_follows (rm : Reg) (h : Fair b 0 t) :
    Gives (branchExchange rm t) (Follows b 0 (Arm.branchExchange rm t.flight)) := by
  have hread : read t.flight.core rm .operand = some (t.flight.read rm .operand) :=
    read_eq t.flight.core rm .operand
  simp only [branchExchange, Arm.branchExchange, hread, instructionSet_eq,
    getBit_eq (show (0 : Word) < 32 by decide), Option.bind_eq_bind, Option.bind_some]
  generalize t.flight.read rm .operand = target
  obtain ⟨ht₁, h₁⟩ := Follows.ite
    (c := InstructionSet.ofBit (bit target 0) = t.flight.core.instructionSet)
    h.still (h.tell (.exchanged target _))
  refine (h₁.updateCpsr fun p => setInstructionSet_eq p _).bind ?_
  rintro t₂ ⟨ht₂, h₂⟩
  rw [← ht₁, ← ht₂]
  exact h₂.branchTo _

/-- The target of a branch is a wrapping sum. -/
theorem branch_follows (link : Bool) (offset : Word) (h : Fair b 0 t) :
    Gives (branch link offset t) (Follows b 0 (Arm.branch link offset t.flight)) := by
  simp only [branch, Arm.branch, effectivePc_eq, Option.bind_eq_bind, Option.bind_some]
  obtain ⟨ht₁, h₁⟩ := Follows.ite (c := link = true)
    (h.setRegister Reg.lr (t.flight.core.pc + 4)) h.still
  rw [← ht₁]
  exact h₁.branchTo _

/-! ## Transfers -/

/-- Write-back charges nothing. -/
theorem moveBase_follows (a : Addressing) (rn : Reg) (moved : Word) (h : Fair b k t) :
    Follows b k (Arm.moveBase a rn moved t.flight) (moveBase a rn moved t) :=
  (h.writeBase rn moved).ite h.still

/-- A load is charged for its access and then for one cycle. -/
theorem finishLoad_follows (a : Addressing) (rn rd : Reg) (moved : Word)
    {loaded : Option (Word × Running B)} {r : Word × Execution B}
    (h : Gives loaded (Loads b 1 r)) :
    Gives (finishLoad a rn rd moved loaded) (Follows b 2 (Arm.finishLoad a rn rd moved r)) := by
  refine h.bind ?_
  rintro ⟨v, t₁⟩ ⟨rfl, ht₁, h₁⟩
  refine (h₁.waitOne (by decide)).bind ?_
  rintro t₂ ⟨ht₂, h₂⟩
  obtain ⟨ht₃, h₃⟩ := moveBase_follows a rn moved h₂
  rw [Arm.finishLoad, ← ht₁, ← ht₂, ← ht₃]
  exact h₃.writeRegister rd _

/-- Two accesses and one cycle: no instruction but a block is charged more often. -/
theorem swap_follows (quantity : Quantity) (rn rd rm : Reg) (h : Fair b 0 t) :
    Gives (swap quantity rn rd rm t)
      (Follows b 3 (Arm.swap quantity rn rd rm t.flight)) := by
  simp only [swap, Arm.swap, Execution.read, read_eq, Option.bind_eq_bind, Option.bind_some]
  refine (h.loadQuantity (by decide) quantity _).bind ?_
  rintro ⟨old, t₁⟩ ⟨rfl, ht₁, h₁⟩
  refine (h₁.storeQuantity (by decide) quantity _ _).bind ?_
  rintro t₂ ⟨ht₂, h₂⟩
  refine (h₂.waitOne (by decide)).bind ?_
  rintro t₃ ⟨ht₃, h₃⟩
  rw [← ht₁, ← ht₂, ← ht₃]
  exact h₃.writeRegister rd _

/-- A store is charged once, a load twice. -/
theorem halfTransfer_follows (kind : HalfTransfer) (a : Addressing) (rn rd : Reg)
    (offset : HalfOffset) (h : Fair b 0 t) :
    Gives (halfTransfer kind a rn rd offset t)
      (Follows b 2 (Arm.halfTransfer kind a rn rd offset t.flight)) := by
  simp only [halfTransfer, Arm.halfTransfer, Execution.read, read_eq, halfOffset_eq,
    Option.bind_eq_bind, Option.bind_some]
  generalize a.direction.apply _ _ = moved
  generalize a.address _ _ = address
  cases kind with
  | storeHalf =>
      refine (h.store (by decide) .half false address _).bind ?_
      rintro t₁ ⟨ht₁, h₁⟩
      rw [← ht₁]
      exact (gives_some (moveBase_follows a rn moved h₁.scatter.2)).within (by decide)
  | loadHalf => exact finishLoad_follows a rn rd moved (h.loadHalf (by decide) address)
  | loadSignedByte =>
      exact finishLoad_follows a rn rd moved (h.loadSignedByte (by decide) address)
  | loadSignedHalf =>
      exact finishLoad_follows a rn rd moved (h.loadSignedHalf (by decide) address)

/-- The same of a word or a byte. -/
theorem singleTransfer_follows (kind : TransferKind) (quantity : Quantity) (a : Addressing)
    (rn rd : Reg) (offset : TransferOffset) (h : Fair b 0 t) :
    Gives (singleTransfer kind quantity a rn rd offset t)
      (Follows b 2 (Arm.singleTransfer kind quantity a rn rd offset t.flight)) := by
  simp only [singleTransfer, Arm.singleTransfer, Execution.read, read_eq, transferOffset_eq,
    Option.bind_eq_bind, Option.bind_some]
  generalize a.direction.apply _ _ = moved
  generalize a.address _ _ = address
  cases kind with
  | store =>
      refine (h.storeQuantity (by decide) quantity address _).bind ?_
      rintro t₁ ⟨ht₁, h₁⟩
      rw [← ht₁]
      exact (gives_some (moveBase_follows a rn moved h₁.scatter.2)).within (by decide)
  | load => exact finishLoad_follows a rn rd moved (h.loadQuantity (by decide) quantity address)

/-- **Every instruction of the 32-bit set** has a result on a flight that was not charged
    yet, and it is the plain one, after seventeen charges at most. -/
theorem execute_follows (o : Opcode) (h : Fair b 0 t) :
    Gives (execute o t) (Follows b 17 (Arm.execute o t.flight)) := by
  rw [execute, Arm.execute]
  cases o.instruction with
  | dataProcessing op setFlags rn rd operand =>
      exact (dataProcessing_follows op setFlags rn rd operand h).within (by decide)
  | moveFromStatus source rd => exact (moveFromStatus_follows source rd h).within (by decide)
  | moveToStatus target fields operand =>
      exact (moveToStatus_follows target fields operand h).within (by decide)
  | multiply accumulate setFlags rd rn rs rm =>
      exact (multiply_follows accumulate setFlags rd rn rs rm h).within (by decide)
  | multiplyLong signed accumulate setFlags rdHigh rdLow rs rm =>
      exact (multiplyLong_follows signed accumulate setFlags rdHigh rdLow rs rm h).within
        (by decide)
  | swap quantity rn rd rm => exact (swap_follows quantity rn rd rm h).within (by decide)
  | branchExchange rm => exact (branchExchange_follows rm h).within (by decide)
  | halfTransfer kind a rn rd offset =>
      exact (halfTransfer_follows kind a rn rd offset h).within (by decide)
  | singleTransfer kind quantity a rn rd offset =>
      exact (singleTransfer_follows kind quantity a rn rd offset h).within (by decide)
  | blockTransfer kind a s rn list => exact h.transferBlock kind a s rn list
  | branch link offset => exact (branch_follows link offset h).within (by decide)
  | softwareInterrupt comment =>
      exact (h.takeException .softwareInterrupt).within (by decide)
  | coprocessor | undefined =>
      exact ((h.tell _).2.takeException .undefined).within (by decide)

end Arm.Guarded

end Armv4t
