import Armv4t.Proofs.Footprint
import Armv4t.Proofs.Rom

/-! # The pipeline's view — what an instruction finds in R15

    R15 holds the address of the instruction that executes.  A source field that names
    R15 reads it as the pipeline has it: eight bytes on, or twelve beside a shift by
    register and for a stored value.  To say so without opening an instruction, the field
    is renamed to another register that holds just that value; nothing else changes.

    * a renamed field leaves the instruction as it is (`execute_renamed`); a renamed base
      that is moved differs in that base alone (`execute_renamedBase`), since R15 is never
      moved; a block stores R15 twelve bytes on (`last_stored_of_block`);
    * the multiplies and the base of a block are read plain: there the register has to
      hold the address of the instruction itself (`execute_renamedPlain`,
      `footprint_block_base`). -/

namespace Armv4t

/-- How far ahead of its instruction R15 is read in the 32-bit set. -/
def PcRole.ahead : PcRole → Word
  | shiftOperand | stored => 12
  | _ => 8

theorem Core.effectivePc_of_arm {k : Core} (hs : k.instructionSet = .arm) (role : PcRole) :
    k.effectivePc role = k.pc + role.ahead := by
  rw [effectivePc, hs]
  cases role <;> rfl

namespace Arm

/-! ## Renaming a source register -/

/-- One source register of an instruction is R15, and is renamed to `r`; the role is how
    the instruction reads it. -/
inductive Renames (r : Reg) : PcRole → Instruction → Instruction → Prop where
  | first (op : AluOp) (setFlags : Bool) (rd : Reg) (operand : Operand) :
      Renames r operand.role (.dataProcessing op setFlags Reg.pc rd operand)
        (.dataProcessing op setFlags r rd operand)
  | second (op : AluOp) (setFlags : Bool) (rn rd : Reg) (kind : ShiftKind) (n : Fin 32) :
      Renames r .operand
        (.dataProcessing op setFlags rn rd (.shifted Reg.pc kind (.immediate n)))
        (.dataProcessing op setFlags rn rd (.shifted r kind (.immediate n)))
  | secondShifted (op : AluOp) (setFlags : Bool) (rn rd rs : Reg) (kind : ShiftKind) :
      Renames r .shiftOperand
        (.dataProcessing op setFlags rn rd (.shifted Reg.pc kind (.register rs)))
        (.dataProcessing op setFlags rn rd (.shifted r kind (.register rs)))
  | amount (op : AluOp) (setFlags : Bool) (rn rd rm : Reg) (kind : ShiftKind) :
      Renames r .shiftOperand
        (.dataProcessing op setFlags rn rd (.shifted rm kind (.register Reg.pc)))
        (.dataProcessing op setFlags rn rd (.shifted rm kind (.register r)))
  | status (target : StatusRegister) (fields : StatusFields) :
      Renames r .operand (.moveToStatus target fields (.register Reg.pc))
        (.moveToStatus target fields (.register r))
  | swapAddress (quantity : Quantity) (rd rm : Reg) :
      Renames r .operand (.swap quantity Reg.pc rd rm) (.swap quantity r rd rm)
  | swapSource (quantity : Quantity) (rn rd : Reg) :
      Renames r .operand (.swap quantity rn rd Reg.pc) (.swap quantity rn rd r)
  | exchange : Renames r .operand (.branchExchange Reg.pc) (.branchExchange r)
  | halfOffset (kind : HalfTransfer) (a : Addressing) (rn rd : Reg) :
      Renames r .operand (.halfTransfer kind a rn rd (.register Reg.pc))
        (.halfTransfer kind a rn rd (.register r))
  | halfStored (a : Addressing) (rn : Reg) (offset : HalfOffset) :
      Renames r .stored (.halfTransfer .storeHalf a rn Reg.pc offset)
        (.halfTransfer .storeHalf a rn r offset)
  | singleOffset (kind : TransferKind) (quantity : Quantity) (a : Addressing) (rn rd : Reg)
      (shift : ShiftKind) (n : Fin 32) :
      Renames r .operand (.singleTransfer kind quantity a rn rd (.shifted Reg.pc shift n))
        (.singleTransfer kind quantity a rn rd (.shifted r shift n))
  | singleStored (quantity : Quantity) (a : Addressing) (rn : Reg) (offset : TransferOffset) :
      Renames r .stored (.singleTransfer .store quantity a rn Reg.pc offset)
        (.singleTransfer .store quantity a rn r offset)

/-- The base of a transfer is R15, and is renamed to `r`. -/
inductive RenamesBase (r : Reg) : Instruction → Instruction → Prop where
  | half (kind : HalfTransfer) (a : Addressing) (rd : Reg) (offset : HalfOffset) :
      RenamesBase r (.halfTransfer kind a Reg.pc rd offset) (.halfTransfer kind a r rd offset)
  | single (kind : TransferKind) (quantity : Quantity) (a : Addressing) (rd : Reg)
      (offset : TransferOffset) :
      RenamesBase r (.singleTransfer kind quantity a Reg.pc rd offset)
        (.singleTransfer kind quantity a r rd offset)

/-- One factor or summand of a multiply is R15, and is renamed to `r`. -/
inductive RenamesPlain (r : Reg) : Instruction → Instruction → Prop where
  | multiplicand (accumulate setFlags : Bool) (rd rn rs : Reg) :
      RenamesPlain r (.multiply accumulate setFlags rd rn rs Reg.pc)
        (.multiply accumulate setFlags rd rn rs r)
  | multiplier (accumulate setFlags : Bool) (rd rn rm : Reg) :
      RenamesPlain r (.multiply accumulate setFlags rd rn Reg.pc rm)
        (.multiply accumulate setFlags rd rn r rm)
  | summand (accumulate setFlags : Bool) (rd rs rm : Reg) :
      RenamesPlain r (.multiply accumulate setFlags rd Reg.pc rs rm)
        (.multiply accumulate setFlags rd r rs rm)
  | longMultiplicand (signed accumulate setFlags : Bool) (rdHigh rdLow rs : Reg) :
      RenamesPlain r (.multiplyLong signed accumulate setFlags rdHigh rdLow rs Reg.pc)
        (.multiplyLong signed accumulate setFlags rdHigh rdLow rs r)
  | longMultiplier (signed accumulate setFlags : Bool) (rdHigh rdLow rm : Reg) :
      RenamesPlain r (.multiplyLong signed accumulate setFlags rdHigh rdLow Reg.pc rm)
        (.multiplyLong signed accumulate setFlags rdHigh rdLow r rm)

section

variable {B : Type} {x : Execution B} {r : Reg}

/-- A register that holds what the pipeline shows reads like R15. -/
theorem read_renamed {role : PcRole} (hr : r ≠ Reg.pc)
    (hv : x.core.registers.read r = x.core.effectivePc role) :
    x.read Reg.pc role = x.read r role := by
  show x.core.read Reg.pc role = x.core.read r role
  rw [Core.read, if_pos rfl, Core.read, if_neg hr, hv]

/-- Evaluating an operand leaves the core as it is. -/
theorem core_evaluate (o : Operand) (x : Execution B) : (o.evaluate x).2.core = x.core := by
  obtain ⟨n, hn⟩ := o.evaluate_eq x
  rw [hn]

/-- Operands that come to the same are as good as each other. -/
theorem dataProcessing_of_operand {o o' : Operand} (hvalue : o.evaluate x = o'.evaluate x)
    (hrole : o.role = o'.role) (op : AluOp) (setFlags : Bool) (rn rd : Reg) :
    dataProcessing op setFlags rn rd o x = dataProcessing op setFlags rn rd o' x := by
  rw [dataProcessing, dataProcessing, hvalue, hrole]

variable [Bus B]

/-- **A source field that names R15 reads it as the pipeline has it.** -/
theorem execute_renamed (hr : r ≠ Reg.pc) {role : PcRole} {i j : Instruction}
    (h : Renames r role i j) (hv : x.core.registers.read r = x.core.effectivePc role)
    (c : Condition) (raw : Word) : execute ⟨c, i, raw⟩ x = execute ⟨c, j, raw⟩ x := by
  have hread := read_renamed hr hv
  cases h with
  | first op setFlags rd operand =>
      have hfirst : (operand.evaluate x).2.read Reg.pc operand.role
          = (operand.evaluate x).2.read r operand.role := by
        show (operand.evaluate x).2.core.read _ _ = (operand.evaluate x).2.core.read _ _
        rw [core_evaluate]
        exact hread
      show dataProcessing op setFlags Reg.pc rd operand x
        = dataProcessing op setFlags r rd operand x
      rw [dataProcessing, dataProcessing]
      dsimp only
      rw [hfirst]
  | second op setFlags rn rd kind n =>
      have hsecond : Operand.evaluate (.shifted Reg.pc kind (.immediate n)) x
          = Operand.evaluate (.shifted r kind (.immediate n)) x := by
        rw [Operand.evaluate, Operand.evaluate, hread]
      exact dataProcessing_of_operand hsecond rfl op setFlags rn rd
  | secondShifted op setFlags rn rd rs kind =>
      have hsecond : Operand.evaluate (.shifted Reg.pc kind (.register rs)) x
          = Operand.evaluate (.shifted r kind (.register rs)) x := by
        rw [Operand.evaluate, Operand.evaluate, hread]
      exact dataProcessing_of_operand hsecond rfl op setFlags rn rd
  | amount op setFlags rn rd rm kind =>
      have hsecond : Operand.evaluate (.shifted rm kind (.register Reg.pc)) x
          = Operand.evaluate (.shifted rm kind (.register r)) x := by
        rw [Operand.evaluate, Operand.evaluate, hread]
      exact dataProcessing_of_operand hsecond rfl op setFlags rn rd
  | status target fields =>
      have hvalue : StatusOperand.evaluate (.register Reg.pc) x
          = StatusOperand.evaluate (.register r) x := hread
      show moveToStatus target fields _ x = moveToStatus target fields _ x
      unfold moveToStatus
      rw [hvalue]
  | swapAddress quantity rd rm =>
      show swap quantity Reg.pc rd rm x = swap quantity r rd rm x
      rw [swap, swap, hread]
  | swapSource quantity rn rd =>
      show swap quantity rn rd Reg.pc x = swap quantity rn rd r x
      rw [swap, swap, hread]
  | exchange =>
      show branchExchange Reg.pc x = branchExchange r x
      rw [branchExchange, branchExchange, hread]
  | halfOffset kind a rn rd =>
      have hoffset : HalfOffset.evaluate (.register Reg.pc) x
          = HalfOffset.evaluate (.register r) x := hread
      show halfTransfer kind a rn rd _ x = halfTransfer kind a rn rd _ x
      unfold halfTransfer
      rw [hoffset]
  | halfStored a rn offset =>
      show halfTransfer .storeHalf a rn Reg.pc offset x = halfTransfer .storeHalf a rn r offset x
      unfold halfTransfer
      rw [hread]
  | singleOffset kind quantity a rn rd shift n =>
      have hoffset : TransferOffset.evaluate (.shifted Reg.pc shift n) x
          = TransferOffset.evaluate (.shifted r shift n) x := by
        rw [TransferOffset.evaluate, TransferOffset.evaluate, hread]
      show singleTransfer kind quantity a rn rd _ x = singleTransfer kind quantity a rn rd _ x
      unfold singleTransfer
      rw [hoffset]
  | singleStored quantity a rn offset =>
      show singleTransfer .store quantity a rn Reg.pc offset x
        = singleTransfer .store quantity a rn r offset x
      unfold singleTransfer
      rw [hread]

/-- **A factor or summand of a multiply that names R15 reads it plain.** -/
theorem execute_renamedPlain {i j : Instruction} (h : RenamesPlain r i j)
    (hv : x.core.registers.read r = x.core.pc) (c : Condition) (raw : Word) :
    execute ⟨c, i, raw⟩ x = execute ⟨c, j, raw⟩ x := by
  have hread : x.core.registers.read Reg.pc = x.core.registers.read r := hv.symm
  cases h with
  | multiplicand accumulate setFlags rd rn rs =>
      show multiply accumulate setFlags rd rn rs Reg.pc x
        = multiply accumulate setFlags rd rn rs r x
      rw [multiply, multiply, hread]
  | multiplier accumulate setFlags rd rn rm =>
      show multiply accumulate setFlags rd rn Reg.pc rm x
        = multiply accumulate setFlags rd rn r rm x
      rw [multiply, multiply, hread]
  | summand accumulate setFlags rd rs rm =>
      show multiply accumulate setFlags rd Reg.pc rs rm x
        = multiply accumulate setFlags rd r rs rm x
      rw [multiply, multiply, hread]
  | longMultiplicand signed accumulate setFlags rdHigh rdLow rs =>
      show multiplyLong signed accumulate setFlags rdHigh rdLow rs Reg.pc x
        = multiplyLong signed accumulate setFlags rdHigh rdLow rs r x
      rw [multiplyLong, multiplyLong, hread]
  | longMultiplier signed accumulate setFlags rdHigh rdLow rm =>
      show multiplyLong signed accumulate setFlags rdHigh rdLow Reg.pc rm x
        = multiplyLong signed accumulate setFlags rdHigh rdLow r rm x
      rw [multiplyLong, multiplyLong, hread]

end

end Arm

/-! ## A base that is moved -/

/-- Two instructions in flight that differ in one register, and in what they told. -/
structure Execution.SameBut {B : Type} (r : Reg) (y z : Execution B) : Prop where
  registers : ∀ i, i ≠ r → y.core.registers.read i = z.core.registers.read i
  cpsr : y.core.cpsr = z.core.cpsr
  bank : y.core.bank = z.core.bank
  bus : y.bus = z.bus
  accesses : y.accesses = z.accesses
  flushed : y.flushed = z.flushed
  scattered : y.scattered = z.scattered
  internal : y.internal = z.internal
  fault : y.fault = z.fault

namespace Execution.SameBut

variable {B : Type} {x y z : Execution B} {r : Reg}

theorem refl (r : Reg) (x : Execution B) : SameBut r x x :=
  ⟨fun _ _ => rfl, rfl, rfl, rfl, rfl, rfl, rfl, rfl, rfl⟩

/-- R15 is not moved; another register is. -/
theorem moveBase (hr : r ≠ Reg.pc) (a : Addressing) (moved : Word) (x : Execution B) :
    SameBut r (Arm.moveBase a Reg.pc moved x) (Arm.moveBase a r moved x) := by
  rw [Arm.moveBase, Arm.moveBase]
  by_cases ha : a.movesBase = true
  · rw [if_pos ha, if_pos ha, Execution.writeBase, Execution.writeBase, if_pos rfl, if_neg hr]
    refine ⟨?_, rfl, rfl, rfl, x.accesses_event _ _, rfl, rfl, rfl, rfl⟩
    intro i hi
    show x.core.registers.read i = (x.core.registers.write r moved).read i
    rw [Registers.read_write, if_neg (Ne.symm hi)]
  · rw [if_neg ha, if_neg ha]
    exact refl r x

/-- The same write keeps what is the same. -/
theorem writeRegister (h : SameBut r y z) (i : Reg) (v : Word) :
    SameBut r (y.writeRegister i v) (z.writeRegister i v) := by
  have hwrite (w : Word) (j : Reg) (hj : j ≠ r) :
      (y.core.registers.write i w).read j = (z.core.registers.write i w).read j := by
    rw [Registers.read_write, Registers.read_write, h.registers j hj]
  have hset : y.core.instructionSet = z.core.instructionSet :=
    congrArg Psr.instructionSet h.cpsr
  rw [Execution.writeRegister, Execution.writeRegister]
  by_cases hi : i = Reg.pc
  · rw [if_pos hi, if_pos hi]
    refine ⟨?_, h.cpsr, h.bank, h.bus, h.accesses, rfl, h.scattered, h.internal, h.fault⟩
    intro j hj
    show (y.core.registers.write Reg.pc (y.core.instructionSet.align v)).read j = _
    rw [hset, ← hi, hwrite _ j hj, hi]
    rfl
  · rw [if_neg hi, if_neg hi]
    exact ⟨hwrite v, h.cpsr, h.bank, h.bus, h.accesses, h.flushed, h.scattered, h.internal,
      h.fault⟩

end Execution.SameBut

namespace Arm

variable {B : Type} [Bus B] {x : Execution B} {r : Reg}

omit [Bus B] in
theorem finishLoad_renamed (hr : r ≠ Reg.pc) (a : Addressing) (rd : Reg) (moved : Word)
    (loaded : Word × Execution B) :
    (finishLoad a Reg.pc rd moved loaded).SameBut r (finishLoad a r rd moved loaded) :=
  (Execution.SameBut.moveBase hr a moved (loaded.2.wait 1)).writeRegister rd loaded.1

/-- **A base that names R15 is read as the pipeline has it**, whether it is moved or not. -/
theorem execute_renamedBase (hr : r ≠ Reg.pc) {i j : Instruction} (h : RenamesBase r i j)
    (hv : x.core.registers.read r = x.core.effectivePc .operand) (c : Condition) (raw : Word) :
    (execute ⟨c, i, raw⟩ x).SameBut r (execute ⟨c, j, raw⟩ x) := by
  have hread := read_renamed hr hv
  cases h with
  | half kind a rd offset =>
      show (halfTransfer kind a Reg.pc rd offset x).SameBut r (halfTransfer kind a r rd offset x)
      unfold halfTransfer
      rw [hread]
      cases kind with
      | storeHalf => exact Execution.SameBut.moveBase hr a _ _
      | loadHalf | loadSignedByte | loadSignedHalf => exact finishLoad_renamed hr a rd _ _
  | single kind quantity a rd offset =>
      show (singleTransfer kind quantity a Reg.pc rd offset x).SameBut r
        (singleTransfer kind quantity a r rd offset x)
      unfold singleTransfer
      rw [hread]
      cases kind with
      | store => exact Execution.SameBut.moveBase hr a _ _
      | load => exact finishLoad_renamed hr a rd _ _

/-! ## Blocks -/

omit [Bus B] in
theorem accesses_writeBase (x : Execution B) (rn : Reg) (v : Word) :
    (x.writeBase rn v).accesses = x.accesses := by
  rw [Execution.writeBase]
  by_cases h : rn = Reg.pc
  · rw [if_pos h]
    exact x.accesses_event _ _
  · rw [if_neg h]
    rfl

/-- The stores of a block that ends with R15, by induction on the registers before it: the
    last one is of R15 as a stored value shows it. -/
theorem storeBlock_pc (b : Block) (before : List Reg) (first : Bool) (a : Word)
    (x : Execution B) :
    ∃ (y : Execution B) (sequential : Bool) (address : Word),
      Execution.storeBlock b first a (before ++ [Reg.pc]) x
        = y.store .word sequential address (x.core.effectivePc .stored) := by
  induction before generalizing x first a with
  | nil =>
      refine ⟨x, !first, a, ?_⟩
      rw [List.nil_append, Execution.storeBlock, Execution.storeBlock, Execution.storedValue,
        if_pos rfl]
  | cons r before ih =>
      rw [List.cons_append, Execution.storeBlock]
      exact ih false (a + 4) _

/-- **A block stores R15 as the pipeline has it**, after the other registers. -/
theorem last_stored_of_block (a : Addressing) (s : Bool) (rn : Reg) {list : Half}
    (h : Reg.pc ∈ listed list) (c : Condition) (raw : Word) :
    ∃ access, (execute ⟨c, .blockTransfer .store a s rn list, raw⟩ x).accesses.getLast?
        = some access ∧ access.kind = .store ∧ access.value = x.core.effectivePc .stored := by
  obtain ⟨before, hbefore, -⟩ := listed_of_pc h
  obtain ⟨y, sequential, address, hy⟩ := storeBlock_pc (x.core.block .store a s rn list) before
    true (x.core.blockRange a rn list).1 x
  have hacc : (x.transferBlock .store a s rn list).accesses
      = y.accesses ++ [⟨.store, .word, sequential, address, x.core.effectivePc .stored⟩] := by
    rw [Execution.transferBlock_store]
    dsimp only
    rw [hbefore, hy]
    by_cases hw : a.writeBack = true
    · rw [if_pos hw, accesses_writeBase]
      exact Execution.accesses_access _ _ _
    · rw [if_neg hw]
      exact Execution.accesses_access _ _ _
  refine ⟨⟨.store, .word, sequential, address, x.core.effectivePc .stored⟩, ?_, rfl, rfl⟩
  show (x.transferBlock .store a s rn list).accesses.getLast? = _
  rw [hacc, List.getLast?_append]
  rfl

/-- **The base of a block that names R15 is read plain.** -/
theorem footprint_block_base (kind : TransferKind) (a : Addressing) (s : Bool) (list : Half)
    (c : Condition) (raw : Word) :
    (execute ⟨c, .blockTransfer kind a s Reg.pc list, raw⟩ x).footprint
      = x.footprint ++ .words true (blockRange a x.core.pc (listedCount list)).1
          (listed list).length
        ++ if kind = .load then .writes (listed list) else .store :=
  x.footprint_transferBlock kind a s Reg.pc list

/-! ## The summand of a long multiply -/

omit [Bus B] in
theorem cpsr_writeRegister (x : Execution B) (i : Reg) (v : Word) :
    (x.writeRegister i v).core.cpsr = x.core.cpsr := by
  rw [Execution.writeRegister]
  by_cases h : i = Reg.pc
  · rw [if_pos h]
    rfl
  · rw [if_neg h]
    rfl

omit [Bus B] in
/-- A long multiply by its two steps: the factors and the summand are read, then the result
    is written. -/
theorem multiplyLong_eq (signed setFlags : Bool) (rdHigh rdLow rs rm : Reg) {result : UInt64}
    {n : Int32}
    (hresult : longProduct signed (x.core.registers.read rm) (x.core.registers.read rs)
      + ((x.core.registers.read rdHigh).toUInt64 <<< 32
        ||| (x.core.registers.read rdLow).toUInt64) = result)
    (hcycles : multiplierCycles (x.core.registers.read rs) signed + 2 = n) :
    multiplyLong signed true setFlags rdHigh rdLow rs rm x
      = (((x.wait n).writeRegister rdLow result.toUInt32).writeRegister rdHigh
          (result >>> 32).toUInt32).updateCpsr
        fun p => if setFlags then p.setNZLong result else p := by
  rw [multiplyLong]
  simp only [if_true, hresult, hcycles]
  cases setFlags <;> rfl

/-- **The summand of a long multiply is read plain**: the instruction writes to its own
    destinations what it would write to two other registers that hold the same. -/
theorem execute_multiplyLong_summand (signed setFlags : Bool) {rdHigh rdLow high low : Reg}
    (rs rm : Reg) (hhigh : high ≠ Reg.pc) (hlow : low ≠ Reg.pc) (hne : high ≠ low)
    (hhv : x.core.registers.read high = x.core.registers.read rdHigh)
    (hlv : x.core.registers.read low = x.core.registers.read rdLow) (c : Condition)
    (raw : Word) :
    let z := execute ⟨c, .multiplyLong signed true setFlags high low rs rm, raw⟩ x
    execute ⟨c, .multiplyLong signed true setFlags rdHigh rdLow rs rm, raw⟩ x
      = ((({ x with internal := z.internal } : Execution B).writeRegister rdLow
          (z.core.registers.read low)).writeRegister rdHigh
          (z.core.registers.read high)).updateCpsr fun _ => z.core.cpsr := by
  intro z
  generalize hresult : longProduct signed (x.core.registers.read rm) (x.core.registers.read rs)
    + ((x.core.registers.read rdHigh).toUInt64 <<< 32
      ||| (x.core.registers.read rdLow).toUInt64) = result
  generalize hcycles : multiplierCycles (x.core.registers.read rs) signed + 2 = n
  -- the two registers hold the summand, so that the sums are the same
  have hother := hresult
  rw [← hhv, ← hlv] at hother
  have hz : z = (((x.wait n).setRegister low result.toUInt32).setRegister high
      (result >>> 32).toUInt32).updateCpsr
        fun p => if setFlags then p.setNZLong result else p := by
    show multiplyLong signed true setFlags high low rs rm x = _
    rw [multiplyLong_eq signed setFlags high low rs rm hother hcycles, Execution.writeRegister,
      Execution.writeRegister, if_neg hhigh, if_neg hlow]
  have hreadHigh : z.core.registers.read high = (result >>> 32).toUInt32 := by
    rw [hz]
    show ((x.core.registers.write low _).write high _).read high = _
    rw [Registers.read_write, if_pos rfl]
  have hreadLow : z.core.registers.read low = result.toUInt32 := by
    rw [hz]
    show ((x.core.registers.write low _).write high _).read low = _
    rw [Registers.read_write, if_neg hne, Registers.read_write, if_pos rfl]
  have hinternal : z.internal = x.internal + n := by
    rw [hz]
    rfl
  have hcpsr : z.core.cpsr = if setFlags then x.core.cpsr.setNZLong result else x.core.cpsr := by
    rw [hz]
    rfl
  rw [hreadHigh, hreadLow, hinternal, hcpsr]
  show multiplyLong signed true setFlags rdHigh rdLow rs rm x = _
  rw [multiplyLong_eq signed setFlags rdHigh rdLow rs rm hresult hcycles, Execution.updateCpsr,
    cpsr_writeRegister, cpsr_writeRegister]
  rfl

/-- **What a program finds in R15**, in the 32-bit set and from any state.  A source field
    that names R15 can be renamed to a register that holds what the field reads: R15 and
    eight bytes, or twelve beside a shift by register and for a stored value.  That is so
    of every instruction but the multiplies and the base of a block; these read the address
    of the instruction itself. -/
theorem program_counter_as_read (hs : x.core.instructionSet = .arm) (hr : r ≠ Reg.pc)
    (c : Condition) (raw : Word) :
    (∀ {role i j}, Renames r role i j → x.core.registers.read r = x.core.pc + role.ahead →
        execute ⟨c, i, raw⟩ x = execute ⟨c, j, raw⟩ x)
      ∧ (∀ {i j}, RenamesBase r i j → x.core.registers.read r = x.core.pc + 8 →
        (execute ⟨c, i, raw⟩ x).SameBut r (execute ⟨c, j, raw⟩ x))
      ∧ (∀ (a : Addressing) (s : Bool) (rn : Reg) {list : Half}, Reg.pc ∈ listed list →
        ∃ access, (execute ⟨c, .blockTransfer .store a s rn list, raw⟩ x).accesses.getLast?
          = some access ∧ access.kind = .store ∧ access.value = x.core.pc + 12)
      ∧ (∀ {i j}, RenamesPlain r i j → x.core.registers.read r = x.core.pc →
        execute ⟨c, i, raw⟩ x = execute ⟨c, j, raw⟩ x)
      ∧ (∀ (signed setFlags : Bool) {rdHigh rdLow high low : Reg} (rs rm : Reg),
        high ≠ Reg.pc → low ≠ Reg.pc → high ≠ low →
        x.core.registers.read high = x.core.registers.read rdHigh →
        x.core.registers.read low = x.core.registers.read rdLow →
        let z := execute ⟨c, .multiplyLong signed true setFlags high low rs rm, raw⟩ x
        execute ⟨c, .multiplyLong signed true setFlags rdHigh rdLow rs rm, raw⟩ x
          = ((({ x with internal := z.internal } : Execution B).writeRegister rdLow
              (z.core.registers.read low)).writeRegister rdHigh
              (z.core.registers.read high)).updateCpsr fun _ => z.core.cpsr)
      ∧ ∀ (kind : TransferKind) (a : Addressing) (s : Bool) (list : Half),
        (execute ⟨c, .blockTransfer kind a s Reg.pc list, raw⟩ x).footprint
          = x.footprint ++ .words true (blockRange a x.core.pc (listedCount list)).1
              (listed list).length
            ++ if kind = .load then .writes (listed list) else .store := by
  refine ⟨?_, ?_, ?_, ?_, ?_, ?_⟩
  · intro role i j h hv
    rw [← Core.effectivePc_of_arm hs] at hv
    exact execute_renamed hr h hv c raw
  · intro i j h hv
    exact execute_renamedBase hr h (hv.trans (Core.effectivePc_of_arm hs .operand).symm) c raw
  · intro a s rn list h
    obtain ⟨access, hlast, hkind, hvalue⟩ := last_stored_of_block (x := x) a s rn h c raw
    exact ⟨access, hlast, hkind, hvalue.trans (Core.effectivePc_of_arm hs .stored)⟩
  · intro i j h hv
    exact execute_renamedPlain h hv c raw
  · intro signed setFlags rdHigh rdLow high low rs rm hhigh hlow hne hhv hlv
    exact execute_multiplyLong_summand signed setFlags rs rm hhigh hlow hne hhv hlv c raw
  · intro kind a s list
    exact footprint_block_base kind a s list c raw

/-- An addition at address zero reads R15 as the eight that R2 holds, and a multiply as the
    zero that R3 holds. -/
theorem program_counter_as_read_of_sum :
    let k := (Rom.machine [] .user).core.setRegister 2 8
    let x := Execution.start k (Rom.mk [])
    execute ⟨.al, .dataProcessing .add false Reg.pc 0 (.immediate ⟨1, 0⟩), 0⟩ x
        = execute ⟨.al, .dataProcessing .add false 2 0 (.immediate ⟨1, 0⟩), 0⟩ x
      ∧ execute ⟨.al, .multiply false false 0 0 1 Reg.pc, 0⟩ x
        = execute ⟨.al, .multiply false false 0 0 1 3, 0⟩ x := by
  intro k x
  have hk : k.instructionSet = .arm ∧ k.registers.read 2 = k.pc + 8 ∧ k.registers.read 3 = k.pc :=
    show ((Rom.machine [] .user).core.setRegister 2 8).instructionSet = .arm
      ∧ ((Rom.machine [] .user).core.setRegister 2 8).registers.read 2 = _ + 8
      ∧ ((Rom.machine [] .user).core.setRegister 2 8).registers.read 3 = _ from ⟨rfl, rfl, rfl⟩
  obtain ⟨hs, h2, h3⟩ := hk
  constructor
  · exact (program_counter_as_read (x := x) hs (r := 2) (by decide) .al 0).1
      (.first .add false 0 (.immediate ⟨1, 0⟩)) h2
  · exact (program_counter_as_read (x := x) hs (r := 3) (by decide) .al 0).2.2.2.1
      (.multiplicand false false 0 0 1) h3

end Arm

end Armv4t
