import Armv4t.Proofs.Arithmetic
import Armv4t.Proofs.Executing
import Armv4t.Proofs.Parts
import Armv4t.Proofs.Rom
import Armv4t.Proofs.Shifting

/-! # Data processing — from the word in memory to the state after it

    A word of data processing names an operation, two operands and a register for the
    result; the S bit asks for the flags.  What the operands are follows from the word and
    the state before it: R15 reads two instructions on, and three where a register holds
    the amount of the shift (`Arm.operandRole`), and the second operand is an immediate or
    a register, moved one place after the other (`Machine.secondOperand`).

    * `Arm.dataWord_iff` tells the words of data processing by their bits;
    * an instruction that does not return from an exception writes its result and its
      flags, and does nothing else (`Arm.dataProcessing_eq`);
    * `Machine.data_processing_step` states that for a step: the result has the meaning of
      the operation on the operands, and everything that is not named keeps what it held. -/

namespace Armv4t

/-! ## The words -/

namespace Arm

/-- The words of data processing, by their bits: the family, without the multiplies and the
    halfword transfers that stand among the shifts by register, and without the status
    transfers that stand among the tests. -/
structure DataWord (w : Word) : Prop where
  family : field w 26 2 = 0b00
  operand : bit w 25 = true ∨ ¬ (bit w 7 = true ∧ bit w 4 = true)
  flags : ¬ (field w 23 2 = 0b10 ∧ bit w 20 = false)

variable {w : Word}

/-- The words of data processing reach their family past all the others. -/
theorem DataWord.decode (h : DataWord w) : decodeInstruction w = decodeDataProcessing w := by
  have htest : isTestWithoutFlags w = false :=
    Bool.eq_false_of_not_eq_true (mt isTestWithoutFlags_iff.mp h.flags)
  -- bit 25 tells which of the two families of the decoder the word is in
  cases h25 : bit w 25 with
  | true =>
      have family := ((AgreeOn.of_pattern 0x02000000 h.family rfl).union
        (AgreeOn.of_bit_pattern 0x02000000 h25 rfl)).field_eq (p := 25) (n := 3) (by decide)
      rw [decodeInstruction_of_immediate family, decodeImmediateFamily, htest,
        if_neg Bool.false_ne_true]
  | false =>
      have family := ((AgreeOn.of_pattern 0 h.family rfl).union
        (AgreeOn.of_bit_pattern 0 h25 rfl)).field_eq (p := 25) (n := 3) (by decide)
      have hplain : ¬ (bit w 7 = true ∧ bit w 4 = true) :=
        h.operand.resolve_left (mt h25.symm.trans Bool.false_ne_true)
      -- so that neither a multiply nor a halfword transfer comes before it
      have hform : field w 4 4 ≠ 0b1001 := mt high_low_of_multiply hplain
      rw [decodeInstruction_of_register family, decodeRegisterFamily, if_neg hform,
        if_neg (mt (Bool.and_eq_true ..).mp hplain), htest, if_neg Bool.false_ne_true]

/-- **Data processing is what these words decode to, and no others.** -/
theorem dataWord_iff :
    DataWord w ↔ ∃ op setFlags rn rd operand,
      decodeInstruction w = .dataProcessing op setFlags rn rd operand := by
  constructor
  · intro h
    exact ⟨_, _, _, _, _, h.decode⟩
  · rintro ⟨op, setFlags, rn, rd, operand, h⟩
    have hflags (htest : isTestWithoutFlags w = false) :
        ¬ (field w 23 2 = 0b10 ∧ bit w 20 = false) := by
      intro hbits
      exact Bool.noConfusion (htest.symm.trans (isTestWithoutFlags_iff.mpr hbits))
    -- three rows of the table are data processing
    have row := Encodes.decode w
    rw [h] at row
    cases row with
    | immediateOperation family flags =>
        have hword := AgreeOn.of_pattern 0x02000000 family rfl
        exact ⟨hword.field_eq (by decide), Or.inl (hword.bit_eq (by decide)), hflags flags⟩
    | shiftedOperation family form flags =>
        refine ⟨(AgreeOn.of_pattern 0 family rfl).field_eq (by decide), Or.inr ?_, hflags flags⟩
        rintro ⟨-, low⟩
        exact Bool.noConfusion (form.symm.trans low)
    | registerShiftedOperation family high form flags =>
        refine ⟨(AgreeOn.of_pattern 0 family rfl).field_eq (by decide), Or.inr ?_, hflags flags⟩
        rintro ⟨h7, -⟩
        exact Bool.noConfusion (high.symm.trans h7)

end Arm

/-! ## The operands -/

/-- How the registers of a word are read: R15 is two instructions on, or three, wherever the
    instruction names it, if a register holds the amount of the shift. -/
def Arm.operandRole (w : Word) : PcRole := if !bit w 25 && bit w 4 then .shiftOperand else .operand

/-- Bits 25 and 4 tell the role before the operand is decoded. -/
theorem Arm.role_decodeOperand (w : Word) : (decodeOperand w).role = operandRole w := by
  rw [decodeOperand, operandRole]
  cases bit w 25 with
  | true => rfl
  | false => cases bit w 4 <;> rfl

namespace Machine

variable {B : Type} (m : Machine B) (w : Word)

/-- The second operand, with the carry out of its last place: a byte that is rotated by an
    even number of places, or a register that is moved by a number of places from the
    opcode or from the lowest byte of another register. -/
def secondOperand : Shifted :=
  let carry := m.core.cpsr.c
  let kind := ShiftKind.ofCode (field w 5 2)
  let register := m.operand (Arm.operandRole w)
  if bit w 25 then ShiftKind.ror.place^[2 * (nibble w 8).val] ⟨w &&& 0xFF, carry⟩
  else if bit w 4 then
    kind.place^[(register (nibble w 8)).toNat % 256] ⟨register (nibble w 0), carry⟩
  else kind.byOpcode (quint w 7).val ⟨register (nibble w 0), carry⟩

variable {m w} [Bus B]

/-- **The second operand is moved one place after the other.** -/
theorem CarriesOut.evaluate_secondOperand (h : m.CarriesOut w) :
    ((Arm.decodeOperand w).evaluate (.start m.core.aligned m.bus)).1 = m.secondOperand w := by
  have hread (r : Reg) : m.core.aligned.read r (Arm.decodeOperand w).role
      = m.operand (Arm.operandRole w) r := by
    rw [Arm.role_decodeOperand]
    exact h.read_operand r _
  rw [secondOperand]
  cases h25 : bit w 25 with
  | true =>
      have hbyte : w.toUInt8.toUInt32 = w &&& 0xFF := IsPart.ofByte w
      -- a rotation by zero leaves the carry, as no places do
      have hplaces : (RotatedImmediate.ofField w).distance.toNat = 2 * (nibble w 8).val := by
        have hdouble : ∀ n : Fin 16, (n.val.toUInt32 * 2).toNat = 2 * n.val := by decide
        exact hdouble (nibble w 8)
      rw [Arm.decodeOperand, h25, if_pos rfl, if_pos rfl, ← hplaces, ← hbyte]
      exact shift_eq_places .ror _ _ _ (Or.inl (by decide))
  | false =>
      rw [if_neg Bool.false_ne_true]
      cases h4 : bit w 4 with
      | true =>
          have hbyte (a : Word) : (a &&& 0xFF).toNat = a.toNat % 256 := by
            rw [UInt32.toNat_and]
            exact Nat.and_two_pow_sub_one_eq_mod a.toNat 8
          rw [if_pos rfl, ← hread, ← hread, ← hbyte, Arm.decodeOperand, h25, h4]
          exact shift_eq_places _ _ _ _ (Or.inl (by decide))
      | false =>
          have hamount : ∀ n : Fin 32, n.val.toUInt32.toNat = n.val := by decide
          rw [if_neg Bool.false_ne_true, ← hread, ← hamount, Arm.decodeOperand, h25, h4]
          exact shift_opcode_eq _ _ _ _

end Machine

/-! ## The instruction -/

/-- The operations that write no register, whatever stands in its place: TST, TEQ, CMP and
    CMN. -/
def AluOp.tests : List AluOp := [.tst, .teq, .cmp, .cmn]

/-- Those four are the operations that write no register. -/
theorem AluOp.test_eq (op : AluOp) : op.test = decide (op ∈ tests) := by
  cases op <;> rfl

namespace Core

/-- A core that takes a result over, unless it was a test: R15 branches. -/
def takeResult (k : Core) (test : Bool) (rd : Reg) (v : Word) : Core :=
  if test then k else if rd = Reg.pc then k.jump v else k.setRegister rd v

/-- A core that takes a result over, and with the S bit its flags. -/
def computed (k : Core) (test setFlags : Bool) (rd : Reg) (r : AluResult) : Core :=
  (k.takeResult test rd r.value).setCpsr
    (if setFlags then k.cpsr.setFlags r.flags else k.cpsr)

variable {k : Core} {test : Bool} {rd : Reg} {v : Word}

/-- The result is in its register, unless it was only compared. -/
theorem read_takeResult {i : Reg} (hi : i ≠ Reg.pc) :
    (k.takeResult test rd v).registers.read i
      = if test = false ∧ i = rd then v else k.registers.read i := by
  rw [takeResult]
  cases test with
  | true => exact (if_neg fun h => Bool.noConfusion h.1).symm
  | false =>
      rw [if_neg Bool.false_ne_true, if_congr (and_iff_right rfl) rfl rfl]
      by_cases hd : rd = Reg.pc
      · rw [if_pos hd, if_neg fun h => hi (h.trans hd)]
        show (k.registers.write Reg.pc _).read i = _
        rw [Registers.read_write, if_neg (Ne.symm hi)]
      · rw [if_neg hd]
        show (k.registers.write rd _).read i = _
        rw [Registers.read_write, if_congr eq_comm rfl rfl]

/-- A result for R15 is where execution goes on, aligned for the set. -/
theorem pc_takeResult :
    (k.takeResult test rd v).pc
      = if test = false ∧ rd = Reg.pc then k.instructionSet.align v else k.pc := by
  rw [takeResult]
  cases test with
  | true => exact (if_neg fun h => Bool.noConfusion h.1).symm
  | false =>
      rw [if_neg Bool.false_ne_true, if_congr (and_iff_right rfl) rfl rfl]
      by_cases hd : rd = Reg.pc
      · rw [if_pos hd, if_pos hd]
        exact k.pc_setRegister_pc _
      · rw [if_neg hd, if_neg hd]
        exact k.pc_setRegister_of_ne hd _

/-- A branch may be taken before the flags are written or after it. -/
theorem jump_setFlags (k : Core) (f : Flags) (v : Word) :
    (k.setCpsr (k.cpsr.setFlags f)).jump v = (k.jump v).setCpsr (k.cpsr.setFlags f) := by
  have hset : (k.cpsr.setFlags f).instructionSet = k.cpsr.instructionSet :=
    Psr.instructionSet_eq_of_agreeOff (k.cpsr.setFlags_agreeOff f)
  show (k.setCpsr (k.cpsr.setFlags f)).setRegister Reg.pc
    ((k.cpsr.setFlags f).instructionSet.align v) = _
  rw [hset]
  rfl

theorem bank_takeResult : (k.takeResult test rd v).bank = k.bank := by
  rw [takeResult]
  split
  · rfl
  · split <;> rfl

theorem cpsr_takeResult : (k.takeResult test rd v).cpsr = k.cpsr := by
  rw [takeResult]
  split
  · rfl
  · split <;> rfl

/-- With the S bit the flags are those of the result, and nothing else of the status has
    changed; without it the status is the same. -/
theorem cpsr_computed (k : Core) (test setFlags : Bool) (rd : Reg) (r : AluResult) :
    let p := (k.computed test setFlags rd r).cpsr
    p.flags = (if setFlags then r.flags else k.cpsr.flags)
      ∧ AgreeOff Psr.flagsMask p.raw k.cpsr.raw ∧ (setFlags = false → p = k.cpsr) := by
  cases setFlags with
  | false => exact ⟨rfl, .refl _ _, fun _ => rfl⟩
  | true => exact ⟨k.cpsr.flags_setFlags r.flags, k.cpsr.setFlags_agreeOff r.flags, nofun⟩

end Core

/-- **What data processing does**, if it does not return from an exception. -/
theorem Arm.dataProcessing_eq {B : Type} (op : AluOp) (setFlags : Bool) (rn rd : Reg)
    (o : Operand) (x : Execution B)
    (h : ¬ (op.test = false ∧ rd = Reg.pc ∧ setFlags = true ∧ x.core.mode.hasSpsr = true)) :
    ∃ n, dataProcessing op setFlags rn rd o x =
      { x with
        core := x.core.computed op.test setFlags rd
          (op.compute (x.read rn o.role) (o.evaluate x).1 x.core.cpsr.c x.core.cpsr.v)
        flushed := x.flushed || decide (op.test = false ∧ rd = Reg.pc)
        internal := n } := by
  obtain ⟨n, hn⟩ := o.evaluate_eq x
  refine ⟨n, ?_⟩
  rw [dataProcessing]
  dsimp only
  rw [hn]
  generalize hr : op.compute (x.read rn o.role) (o.evaluate x).1 x.core.cpsr.c x.core.cpsr.v = r
  have hr' : op.compute (({ x with internal := n } : Execution B).read rn o.role) (o.evaluate x).1
    x.core.cpsr.c x.core.cpsr.v = r := hr
  rw [hr', Core.computed, Core.takeResult]
  -- the branches of the instruction, one after the other; the S bit decides last
  cases ht : op.test with
  | true =>
      have hstay : ¬ (true = false ∧ rd = Reg.pc) := fun hd => Bool.noConfusion hd.1
      rw [if_pos rfl, if_pos rfl, decide_eq_false hstay, Bool.or_false]
      cases setFlags <;> rfl
  | false =>
      rw [if_neg Bool.false_ne_true, if_neg Bool.false_ne_true]
      by_cases hd : rd = Reg.pc
      · have hkeep : ¬ (setFlags = true ∧ x.core.mode.hasSpsr = true) :=
          fun hs => h ⟨ht, hd, hs.1, hs.2⟩
        rw [if_pos hd, if_pos hd, if_neg hkeep, decide_eq_true ⟨rfl, hd⟩, Bool.or_true]
        cases setFlags with
        | false => rfl
        | true =>
            -- here the flags are written before the branch, which they do not change
            let y : Execution B := { x with flushed := true, internal := n }
            exact congrArg (fun k => { y with core := k }) (x.core.jump_setFlags r.flags r.value)
      · rw [if_neg hd, if_neg hd, decide_eq_false fun hpc => hd hpc.2, Bool.or_false]
        cases setFlags <;> rfl

/-! ## The step -/

namespace Machine

variable {B : Type} [Bus B] {m : Machine B} {w : Word}

/-- A step that took a result over, and did nothing else. -/
structure DataProcessed (m : Machine B) (test setFlags : Bool) (rd : Reg) (r : AluResult)
    (m' : Machine B) : Prop where
  registers : ∀ i, i ≠ Reg.pc → m'.read i = if test = false ∧ i = rd then r.value else m.read i
  /-- R15 branches, or goes on. -/
  pc : m'.core.pc = if test = false ∧ rd = Reg.pc then alignWord r.value else m.nextPc
  flags : m'.core.cpsr.flags = if setFlags then r.flags else m.core.cpsr.flags
  /-- The status but for the flags. -/
  status : AgreeOff Psr.flagsMask m'.core.cpsr.raw m.core.cpsr.raw
  kept : setFlags = false → m'.core.cpsr = m.core.cpsr
  bank : m'.core.bank = m.core.bank
  bus : m'.bus = m.bus
  accesses : m.flight.accesses = []

/-- What the instruction leaves in flight is what the step ends with. -/
theorem dataProcessed_of_flight {test setFlags : Bool} {rd : Reg} {r : AluResult} {n : Int32}
    (hs : m.core.instructionSet = .arm)
    (h : m.flight =
      { Execution.start m.core.aligned m.bus with
        core := m.core.aligned.computed test setFlags rd r
        flushed := decide (test = false ∧ rd = Reg.pc)
        internal := n }) : m.DataProcessed test setFlags rd r m.step.2 := by
  obtain ⟨hflags, hstatus, hkept⟩ := m.core.aligned.cpsr_computed test setFlags rd r
  have hcpsr : m.step.2.core.cpsr = (m.core.aligned.computed test setFlags rd r).cpsr := by
    rw [cpsr_step, h]
  refine ⟨?_, ?_, ?_, ?_, ?_, ?_, ?_, ?_⟩
  · intro i hi
    rw [m.read_step hi, h, ← read_aligned hi]
    exact Core.read_takeResult hi
  · have hpc : (m.core.aligned.computed test setFlags rd r).pc
        = if test = false ∧ rd = Reg.pc then alignWord r.value else alignWord m.core.pc := by
      refine Core.pc_takeResult.trans ?_
      rw [Core.pc_aligned, show m.core.aligned.instructionSet = .arm from hs, hs]
      rfl
    rw [pc_step, h]
    dsimp only
    rw [hpc, nextPc, hs]
    by_cases hbranch : test = false ∧ rd = Reg.pc
    · rw [if_pos hbranch, if_pos hbranch, if_pos (decide_eq_true hbranch)]
    · rw [if_neg hbranch, if_neg hbranch, decide_eq_false hbranch, if_neg Bool.false_ne_true]
      rfl
  · rw [hcpsr]
    exact hflags
  · rw [hcpsr]
    exact hstatus
  · rw [hcpsr]
    exact hkept
  · rw [bank_step, h]
    exact Core.bank_takeResult
  · rw [bus_step, h]
    rfl
  · rw [h]
    rfl

/-- **Data processing, end to end**, from every state of the 32-bit set and for every word
    whose condition holds, unless it returns from an exception.  The result and its flags
    have the meaning of the operation on the two operands.  A register takes the result,
    and R15 branches to it; TST, TEQ, CMP and CMN write none.  With the S bit the flags are
    those of the result, and nothing else of the state changes, but that R15 goes on. -/
theorem data_processing_step (hm : m.CarriesOut w) (hdata : Arm.DataWord w)
    (hreturn : ¬ (AluOp.ofCode (nibble w 21) ∉ AluOp.tests ∧ nibble w 12 = Reg.pc
      ∧ bit w 20 = true ∧ m.core.mode.hasSpsr = true)) :
    let op := AluOp.ofCode (nibble w 21)
    let test := decide (op ∈ AluOp.tests)
    ∃ r, op.Meets (m.operand (Arm.operandRole w) (nibble w 16)) (m.secondOperand w)
        m.core.cpsr.c m.core.cpsr.v r
      ∧ m.DataProcessed test (bit w 20) (nibble w 12) r m.step.2 := by
  intro op test
  let x : Execution B := .start m.core.aligned m.bus
  have htest : op.test = test := op.test_eq
  have hread : x.read (nibble w 16) (Arm.decodeOperand w).role
      = m.operand (Arm.operandRole w) (nibble w 16) := by
    rw [Arm.role_decodeOperand]
    exact hm.read_operand _ _
  have hkeeps : ¬ (op.test = false ∧ nibble w 12 = Reg.pc ∧ bit w 20 = true
      ∧ x.core.mode.hasSpsr = true) := by
    rw [htest, decide_eq_false_iff_not]
    exact hreturn
  obtain ⟨n, hn⟩ := Arm.dataProcessing_eq op (bit w 20) (nibble w 16) (nibble w 12)
    (Arm.decodeOperand w) x hkeeps
  rw [hread, hm.evaluate_secondOperand, htest] at hn
  refine ⟨_, op.compute_meets _ _ _ _, dataProcessed_of_flight (n := n) hm.set ?_⟩
  rw [hm.flight_eq hdata.decode]
  exact hn

/-- `ADDS R0, R15, R1, LSL R2` at address zero, with 0x100 in R2: R15 counts as 12, and R1
    is not moved at all.  `CMP R1, R2` with 15 in the place of the result, in supervisor
    mode: the flags alone change, and R15 goes on. -/
theorem data_processing_step_of_overflow_and_test :
    let m := ((Rom.machine [0xE09F0211] .user).write 1 0x7FFFFFFF).write 2 0x100
    let n := (Rom.machine [0xE151F002] .supervisor).write 2 1
    m.CarriesOut 0xE09F0211 ∧ Arm.DataWord 0xE09F0211
      ∧ m.step.2.read 0 = 0x8000000B ∧ m.step.2.core.cpsr.flags = ⟨true, false, false, true⟩
      ∧ m.step.2.core.pc = 4
      ∧ n.CarriesOut 0xE151F002 ∧ Arm.DataWord 0xE151F002
      ∧ (∀ i, i ≠ Reg.pc → n.step.2.read i = n.read i)
      ∧ n.step.2.core.cpsr.flags = ⟨true, false, false, false⟩ ∧ n.step.2.core.pc = 4 := by
  intro m n
  have hm : m.CarriesOut 0xE09F0211 :=
    ⟨by decide +kernel, by decide +kernel, by decide +kernel⟩
  have hn : n.CarriesOut 0xE151F002 :=
    ⟨by decide +kernel, by decide +kernel, by decide +kernel⟩
  have hadd : Arm.DataWord 0xE09F0211 := ⟨by decide, Or.inr (by decide), by decide⟩
  have hcompare : Arm.DataWord 0xE151F002 := ⟨by decide, Or.inr (by decide), by decide⟩
  obtain ⟨r, hmeets, hstep⟩ := data_processing_step hm hadd (by decide +kernel)
  obtain ⟨s, hcompared, htested⟩ := data_processing_step hn hcompare (by decide +kernel)
  have hr : r = ⟨0x8000000B, ⟨true, false, false, true⟩⟩ :=
    (AluOp.meets_iff.mp hmeets).trans (by decide +kernel)
  have hs : s = ⟨0xFFFFFFFF, ⟨true, false, false, false⟩⟩ :=
    (AluOp.meets_iff.mp hcompared).trans (by decide +kernel)
  rw [hr] at hstep
  rw [hs] at htested
  refine ⟨hm, hadd, ?_, ?_, ?_, hn, hcompare, ?_, ?_, ?_⟩
  · exact hstep.registers 0 (by decide)
  · exact hstep.flags
  · exact hstep.pc.trans (by decide +kernel)
  · exact htested.registers
  · exact htested.flags
  · exact htested.pc.trans (by decide +kernel)

end Machine

end Armv4t
