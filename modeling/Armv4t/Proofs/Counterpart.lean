import Armv4t.Proofs.Fields
import Armv4t.Proofs.Footprint

/-! # Counterparts — the 16-bit set as a short hand for the 32-bit one

    Most instructions of the 16-bit set are instructions of the 32-bit one with fewer
    fields: the flags are always set where an operation has any, offsets are always
    added and never written back, and a push or a pop is a block transfer on R13.  The
    ones without a counterpart branch, trap, or read R15 or load it by name.

    * `Thumb.Instruction.counterpart?` is the table;
    * decoding makes immediates that the fields of the 32-bit set can hold
      (`Thumb.encodable_decode`), a scaled one as a rotated byte;
    * from one state an instruction and its counterpart lead to one state, to the last
      entry of the trail (`Thumb.execute_eq_counterpart`).

    What the counterpart does in its own instruction set is a question apart, for then
    R15 and T differ. -/

namespace Armv4t

/-! ## The counterpart of an instruction -/

/-- A field of zeros, which a move has for its first operand. -/
def zeroField {n : Nat} : Fin (n + 1) := ⟨0, n.succ_pos⟩

/-- A register as a second operand, unshifted. -/
def Arm.Operand.plain (r : Reg) : Arm.Operand := .shifted r .lsl (.immediate zeroField)

/-- A number below 256 as an immediate. -/
def RotatedImmediate.ofByte (v : Word) : RotatedImmediate := ⟨v.toUInt8, zeroField⟩

/-- A multiple of four below 1024 as an immediate: a byte, rotated by 30 bits. -/
def RotatedImmediate.ofScaled (v : Word) : RotatedImmediate := ⟨(v >>> 2).toUInt8, Fin.last 15⟩

/-- Addressing at an offset above the base, which stays. -/
def Addressing.offset : Addressing := ⟨.pre, .up, false⟩

namespace Thumb

/-- The counterpart of an operation on two low registers.  A shift moves the shifted
    register, a negation subtracts from zero, and the old destination is the multiplier
    of a product. -/
def RegisterOp.counterpart? (op : RegisterOp) (rs rd : Reg) : Option Arm.Instruction :=
  let shifted (kind : ShiftKind) : Arm.Instruction :=
    .dataProcessing .mov true zeroField rd (.shifted rd kind (.register rs))
  match op with
  | .lsl => some (shifted .lsl)
  | .lsr => some (shifted .lsr)
  | .asr => some (shifted .asr)
  | .ror => some (shifted .ror)
  | .neg => some (.dataProcessing .rsb true rs rd (.immediate (.ofByte 0)))
  | .mul => some (.multiply false true rd zeroField rd rs)
  | op => op.alu?.map fun alu => .dataProcessing alu true rd rd (.plain rs)

/-- The counterpart of an operation with an immediate. -/
def ImmediateOp.counterpart (op : ImmediateOp) (rd : Reg) (value : Word) : Arm.Instruction :=
  match op with
  | .mov => .dataProcessing .mov true zeroField rd (.immediate (.ofByte value))
  | .cmp => .dataProcessing .cmp true rd rd (.immediate (.ofByte value))
  | .add => .dataProcessing .add true rd rd (.immediate (.ofByte value))
  | .sub => .dataProcessing .sub true rd rd (.immediate (.ofByte value))

/-- The counterpart of an operation on any two registers but R15; only the comparison
    sets flags, and a branch exchange is its own. -/
def HighOp.counterpart? (op : HighOp) (rs rd : Reg) : Option Arm.Instruction :=
  if rs = Reg.pc ∨ rd = Reg.pc then none
  else
    match op with
    | .add => some (.dataProcessing .add false rd rd (.plain rs))
    | .cmp => some (.dataProcessing .cmp true rd rd (.plain rs))
    | .mov => some (.dataProcessing .mov false zeroField rd (.plain rs))
    | .bx => none

/-- The second operand of an addition or subtraction. -/
def AddOperand.counterpart : AddOperand → Arm.Operand
  | .immediate n => .immediate (.ofByte n.val.toUInt32)
  | .register rn => .plain rn.wide

/-- The instruction of the 32-bit set that does the same, where no R15 is read or
    branched to. -/
def Instruction.counterpart? : Instruction → Option Arm.Instruction
  | .moveShifted kind amount rs rd =>
    some (.dataProcessing .mov true zeroField rd.wide
      (.shifted rs.wide kind (.immediate amount)))
  | .addSubtract subtract operand rs rd =>
    some (.dataProcessing (if subtract then .sub else .add) true rs.wide rd.wide
      operand.counterpart)
  | .immediateOp op rd value => some (op.counterpart rd.wide value)
  | .registerOp op rs rd => op.counterpart? rs.wide rd.wide
  | .highOp op rs rd => op.counterpart? rs rd
  | .transferByRegister kind quantity ro rb rd =>
    some (.singleTransfer kind quantity .offset rb.wide rd.wide (.shifted ro.wide .lsl zeroField))
  | .halfByRegister t ro rb rd => some (.halfTransfer t .offset rb.wide rd.wide (.register ro.wide))
  | .transferByOffset kind quantity offset rb rd =>
    some (.singleTransfer kind quantity .offset rb.wide rd.wide (.immediate offset))
  | .halfByOffset kind offset rb rd =>
    let t : HalfTransfer := match kind with
      | .load => .loadHalf
      | .store => .storeHalf
    some (.halfTransfer t .offset rb.wide rd.wide (.immediate offset))
  | .stackTransfer kind rd offset =>
    some (.singleTransfer kind .word .offset Reg.sp rd.wide (.immediate offset))
  | .loadAddress true rd offset =>
    some (.dataProcessing .add false Reg.sp rd.wide (.immediate (.ofScaled offset)))
  | .adjustStack subtract offset =>
    some (.dataProcessing (if subtract then .sub else .add) false Reg.sp Reg.sp
      (.immediate (.ofScaled offset)))
  | .pushPop .store extra list =>
    some (.blockTransfer .store (stackAddressing .store) false Reg.sp
      (stackList .store extra list))
  | .pushPop .load false list =>
    some (.blockTransfer .load (stackAddressing .load) false Reg.sp list)
  | .blockTransfer kind rb list => some (.blockTransfer kind ⟨.post, .up, true⟩ false rb.wide list)
  | _ => none

/-- The immediates and lists of an instruction fit into their fields. -/
def Instruction.Encodable : Instruction → Prop
  | .immediateOp _ _ value => value < 0x100
  | .loadAddress _ _ offset | .adjustStack _ offset => offset < 0x400 ∧ offset &&& 3 = 0
  | .pushPop _ _ list | .blockTransfer _ _ list => list < 0x100
  | _ => True

theorem Instruction.Encodable.ite {p : Prop} [Decidable p] {i j : Instruction}
    (hi : i.Encodable) (hj : j.Encodable) : (if p then i else j).Encodable := by
  split
  · exact hi
  · exact hj

/-! ## What decoding makes of immediates -/

/-- A byte, scaled by the size of a word, is a multiple of four below 1024. -/
theorem scaled_byte {v : Word} (hv : v ≤ 0xFF) : v <<< 2 < 0x400 ∧ v <<< 2 &&& 3 = 0 := by
  have hle : v.toNat ≤ 255 := UInt32.le_iff_toNat_le.mp hv
  have hto : (v <<< 2).toNat = v.toNat * 4 := by
    rw [UInt32.toNat_shiftLeft, Nat.shiftLeft_eq]
    exact Nat.mod_eq_of_lt (show v.toNat * 4 < 2 ^ 32 by omega)
  constructor
  · rw [UInt32.lt_iff_toNat_lt, hto]
    show v.toNat * 4 < 1024
    omega
  · rw [← UInt32.toNat_inj, UInt32.toNat_and, hto]
    exact (Nat.and_two_pow_sub_one_eq_mod (v.toNat * 4) 2).trans (Nat.mul_mod_left v.toNat 4)

/-- Every decoded instruction has immediates and lists that fit. -/
theorem encodable_decode (h : Half) : (decode h).instruction.Encodable := by
  show (decodeInstruction h.toUInt32).Encodable
  generalize h.toUInt32 = w
  have hbyte : field w 0 8 ≤ 0xFF := field_le w 0 8
  have hvalue : field w 0 8 < 0x100 := UInt32.lt_of_le_of_lt hbyte (by decide)
  have hlist : (field w 0 8).toUInt16 < 0x100 := by
    rw [UInt16.lt_iff_toNat_lt, UInt32.toNat_toUInt16]
    exact Nat.lt_of_le_of_lt (Nat.mod_le _ _) (UInt32.lt_iff_toNat_lt.mp hvalue)
  have hscaled := scaled_byte hbyte
  have hstack : field w 0 7 <<< 2 < 0x400 ∧ field w 0 7 <<< 2 &&& 3 = 0 :=
    scaled_byte (UInt32.le_trans (field_le w 0 7) (by decide))
  rw [decodeInstruction]
  -- the decoder is a chain of tests, with one instruction at the end of each
  repeat' refine Instruction.Encodable.ite ?_ ?_
  all_goals first
    | exact True.intro
    | exact hvalue
    | exact hscaled
    | exact hstack
    | exact hlist

end Thumb

/-! ## Immediates -/

/-- A number below 256 is its lowest byte. -/
theorem toUInt32_toUInt8 {v : Word} (hv : v < 0x100) : v.toUInt8.toUInt32 = v := by
  rw [← UInt32.toNat_inj, UInt8.toNat_toUInt32, UInt32.toNat_toUInt8]
  exact Nat.mod_eq_of_lt (UInt32.lt_iff_toNat_lt.mp hv)

theorem RotatedImmediate.operand_ofByte {v : Word} (hv : v < 0x100) (c : Bool) :
    (ofByte v).operand c = ⟨v, c⟩ := by
  show (⟨v.toUInt8.toUInt32, c⟩ : Shifted) = ⟨v, c⟩
  rw [toUInt32_toUInt8 hv]

/-- A rotation by 30 bits scales a byte. -/
theorem RotatedImmediate.value_ofScaled {v : Word} (hv : v < 0x400 ∧ v &&& 3 = 0) (c : Bool) :
    ((ofScaled v).operand c).value = v := by
  obtain ⟨hlt, hmul⟩ := hv
  have hlt' : v.toNat < 1024 := UInt32.lt_iff_toNat_lt.mp hlt
  have hmod : v.toNat % 4 = 0 := by
    rw [← UInt32.toNat_inj, UInt32.toNat_and] at hmul
    exact (Nat.and_two_pow_sub_one_eq_mod v.toNat 2).symm.trans hmul
  have hbyte : (v >>> 2).toNat = v.toNat / 4 := by
    rw [UInt32.toNat_shiftRight]
    exact Nat.shiftRight_eq_div_pow v.toNat 2
  have hsmall : v >>> 2 < 0x100 := by
    rw [UInt32.lt_iff_toNat_lt, hbyte]
    show v.toNat / 4 < 256
    omega
  have hlow : (v >>> 2) >>> 30 = 0 := by
    rw [← UInt32.toNat_inj, UInt32.toNat_shiftRight, hbyte]
    exact (Nat.shiftRight_eq_div_pow _ 30).trans (Nat.div_eq_of_lt (by omega))
  have hhigh : (v >>> 2) <<< 2 = v := by
    rw [← UInt32.toNat_inj, UInt32.toNat_shiftLeft, hbyte, Nat.shiftLeft_eq]
    show v.toNat / 4 * 4 % 2 ^ 32 = v.toNat
    omega
  have hdistance : (ofScaled v).distance = 30 := rfl
  rw [operand, shift, hdistance, if_neg (by decide)]
  show rotateRight (v >>> 2).toUInt8.toUInt32 (30 &&& 31) = v
  rw [toUInt32_toUInt8 hsmall, show (30 : Word) &&& 31 = 30 from rfl, rotateRight, hlow,
    UInt32.zero_or]
  exact hhigh

/-! ## Data processing -/

namespace Arm

variable {B : Type} (x : Execution B)

theorem evaluate_plain {r : Reg} (hr : r ≠ Reg.pc) :
    (Operand.plain r).evaluate x = (⟨x.core.registers.read r, x.core.cpsr.c⟩, x) := by
  have hread : x.read r .operand = x.core.registers.read r := if_neg hr
  show (shift .lsl .opcode (x.read r .operand) 0 x.core.cpsr.c, x) = _
  rw [hread]
  rfl

theorem evaluate_ofByte {v : Word} (hv : v < 0x100) :
    (Operand.immediate (.ofByte v)).evaluate x = (⟨v, x.core.cpsr.c⟩, x) := by
  show ((RotatedImmediate.ofByte v).operand x.core.cpsr.c, x) = _
  rw [RotatedImmediate.operand_ofByte hv]

/-- Data processing into a register other than R15. -/
theorem dataProcessing_of_ne {rd : Reg} (hd : rd ≠ Reg.pc) (op : AluOp) (setFlags : Bool)
    (rn : Reg) (o : Operand) :
    dataProcessing op setFlags rn rd o x =
      let y := (o.evaluate x).2
      let result := op.compute (y.read rn o.role) (o.evaluate x).1 y.core.cpsr.c y.core.cpsr.v
      let written := if op.test then y else y.setRegister rd result.value
      if setFlags then written.updateCpsr (·.setFlags result.flags) else written := by
  rw [dataProcessing]
  by_cases ht : op.test = true
  · simp only [if_pos ht]
  · simp only [if_neg ht, if_neg hd]

/-- What a change to the current status does depends on that status alone. -/
theorem updateCpsr_congr {f g : Psr → Psr} (h : f x.core.cpsr = g x.core.cpsr) :
    x.updateCpsr f = x.updateCpsr g := by
  rw [Execution.updateCpsr, Execution.updateCpsr, h]

/-- A move that sets the flags: N and Z from the value, C from the shifter. -/
theorem move_eq {rd : Reg} (hd : rd ≠ Reg.pc) (rn : Reg) (o : Operand) :
    dataProcessing .mov true rn rd o x
      = Thumb.setShiftFlags (o.evaluate x).1
        ((o.evaluate x).2.setRegister rd (o.evaluate x).1.value) := by
  rw [dataProcessing_of_ne x hd]
  generalize o.evaluate x = evaluated
  obtain ⟨s, y⟩ := evaluated
  show (y.setRegister rd s.value).updateCpsr
      (·.setFlags ⟨bit s.value 31, s.value == 0, s.carry, y.core.cpsr.v⟩)
    = (y.setRegister rd s.value).updateCpsr fun p => (p.setNZ s.value).setC s.carry
  refine updateCpsr_congr _ ?_
  exact y.core.cpsr.setFlags_of_shift s.value s.carry

end Arm

namespace Thumb

variable {B : Type} (x : Execution B)

/-- Data processing that sets the flags, on an operand that is not shifted. -/
theorem applyAlu_eq {rd : LowReg} {rn : Reg} (hn : rn ≠ Reg.pc) (op : AluOp) {o : Arm.Operand}
    {second : Word} (ho : o.evaluate x = (⟨second, x.core.cpsr.c⟩, x)) :
    Arm.dataProcessing op true rn rd.wide o x
      = applyAlu op rd (x.core.registers.read rn) second x := by
  have hfirst : x.read rn o.role = x.core.registers.read rn := if_neg hn
  rw [Arm.dataProcessing_of_ne x rd.wide_ne_pc, ho]
  dsimp only
  rw [hfirst]
  rfl

theorem moveShifted_eq (kind : ShiftKind) (amount : Fin 32) (rs rd : LowReg) (rn : Reg) :
    Arm.dataProcessing .mov true rn rd.wide (.shifted rs.wide kind (.immediate amount)) x
      = moveShifted kind amount rs rd x := by
  have hread : x.read rs.wide .operand = x.core.registers.read rs.wide := if_neg rs.wide_ne_pc
  rw [Arm.move_eq x rd.wide_ne_pc, Arm.Operand.evaluate]
  dsimp only
  rw [hread]
  rfl

theorem shiftByRegister_eq (kind : ShiftKind) (rs rd : LowReg) (rn : Reg) :
    Arm.dataProcessing .mov true rn rd.wide (.shifted rd.wide kind (.register rs.wide)) x
      = shiftByRegister kind rs rd x := by
  have hvalue : x.read rd.wide .shiftOperand = x.core.registers.read rd.wide :=
    if_neg rd.wide_ne_pc
  have hamount : x.read rs.wide .shiftOperand = x.core.registers.read rs.wide :=
    if_neg rs.wide_ne_pc
  rw [Arm.move_eq x rd.wide_ne_pc, Arm.Operand.evaluate]
  dsimp only
  rw [hvalue, hamount]
  rfl

/-- The move of an immediate keeps C, as an immediate that is not rotated does. -/
theorem moveImmediate_eq (rd : LowReg) {v : Word} (hv : v < 0x100) (rn : Reg) :
    Arm.dataProcessing .mov true rn rd.wide (.immediate (.ofByte v)) x
      = (x.setRegister rd.wide v).updateCpsr (·.setNZ v) := by
  rw [Arm.move_eq x rd.wide_ne_pc, Arm.evaluate_ofByte x hv]
  show (x.setRegister rd.wide v).updateCpsr (fun p => (p.setNZ v).setC x.core.cpsr.c)
    = (x.setRegister rd.wide v).updateCpsr (·.setNZ v)
  refine Arm.updateCpsr_congr _ ?_
  exact x.core.cpsr.setC_setNZ v

theorem multiply_eq (rs rd : LowReg) (rn : Reg) :
    Arm.multiply false true rd.wide rn rd.wide rs.wide x = multiply rs rd x := by
  rw [Arm.multiply]
  simp only [Bool.false_eq_true, if_false, if_true, Int32.add_zero]
  rw [UInt32.mul_comm, Execution.writeRegister, if_neg rd.wide_ne_pc]
  rfl

theorem addSubtract_eq (subtract : Bool) (operand : AddOperand) (rs rd : LowReg) :
    Arm.dataProcessing (if subtract then .sub else .add) true rs.wide rd.wide
      operand.counterpart x = addSubtract subtract operand rs rd x := by
  cases operand with
  | immediate n =>
      have hn : n.val.toUInt32 < 0x100 := by
        revert n
        decide
      exact applyAlu_eq x rs.wide_ne_pc _ (Arm.evaluate_ofByte x hn)
  | register rn => exact applyAlu_eq x rs.wide_ne_pc _ (Arm.evaluate_plain x rn.wide_ne_pc)

/-- A sum that sets no flags. -/
theorem add_eq {rn rd : Reg} (hn : rn ≠ Reg.pc) (hd : rd ≠ Reg.pc) {o : Arm.Operand} {s : Shifted}
    (ho : o.evaluate x = (s, x)) :
    Arm.dataProcessing .add false rn rd o x
      = x.setRegister rd (x.core.registers.read rn + s.value) := by
  have hfirst : x.read rn o.role = x.core.registers.read rn := if_neg hn
  have hsum (a b : Word) : (addWithCarry a b false).value = a + b :=
    (addWithCarry_value a b false).trans (UInt32.add_zero _)
  rw [Arm.dataProcessing_of_ne x hd, ho]
  show x.setRegister rd (addWithCarry (x.read rn o.role) s.value false).value = _
  rw [hsum, hfirst]

/-- A difference that sets no flags. -/
theorem sub_eq {rn rd : Reg} (hn : rn ≠ Reg.pc) (hd : rd ≠ Reg.pc) {o : Arm.Operand} {s : Shifted}
    (ho : o.evaluate x = (s, x)) :
    Arm.dataProcessing .sub false rn rd o x
      = x.setRegister rd (x.core.registers.read rn - s.value) := by
  have hfirst : x.read rn o.role = x.core.registers.read rn := if_neg hn
  rw [Arm.dataProcessing_of_ne x hd, ho]
  show x.setRegister rd (subWithCarry (x.read rn o.role) s.value true).value = _
  rw [subWithCarry_value, hfirst]

theorem loadAddress_eq (rd : LowReg) {v : Word} (hv : v < 0x400 ∧ v &&& 3 = 0) :
    Arm.dataProcessing .add false Reg.sp rd.wide (.immediate (.ofScaled v)) x
      = loadAddress true rd v x := by
  have ho : (Arm.Operand.immediate (.ofScaled v)).evaluate x
      = ((RotatedImmediate.ofScaled v).operand x.core.cpsr.c, x) := rfl
  rw [add_eq x (by decide) rd.wide_ne_pc ho, RotatedImmediate.value_ofScaled hv]
  rfl

theorem adjustStack_eq (subtract : Bool) {v : Word} (hv : v < 0x400 ∧ v &&& 3 = 0) :
    Arm.dataProcessing (if subtract then .sub else .add) false Reg.sp Reg.sp
      (.immediate (.ofScaled v)) x = adjustStack subtract v x := by
  have ho : (Arm.Operand.immediate (.ofScaled v)).evaluate x
      = ((RotatedImmediate.ofScaled v).operand x.core.cpsr.c, x) := rfl
  cases subtract with
  | true =>
      rw [if_pos rfl, sub_eq x (by decide) (by decide) ho, RotatedImmediate.value_ofScaled hv]
      rfl
  | false =>
      rw [if_neg Bool.false_ne_true, add_eq x (by decide) (by decide) ho,
        RotatedImmediate.value_ofScaled hv]
      rfl

variable [Bus B]

/-- A word or byte transfer at an offset from a base that is not R15. -/
theorem transfer_eq {rn : Reg} (hn : rn ≠ Reg.pc) (kind : TransferKind) (quantity : Quantity)
    (rd : LowReg) {o : Arm.TransferOffset} {offset : Word} (ho : o.evaluate x = offset) :
    Arm.singleTransfer kind quantity .offset rn rd.wide o x
      = transfer kind quantity rd (x.core.registers.read rn + offset) x := by
  have hbase : x.read rn .operand = x.core.registers.read rn := if_neg hn
  have hstored : x.read rd.wide .stored = x.core.registers.read rd.wide := if_neg rd.wide_ne_pc
  have hwrite (y : Execution B) (v : Word) : y.writeRegister rd.wide v = y.setRegister rd.wide v :=
    if_neg rd.wide_ne_pc
  simp only [Arm.singleTransfer, ho, hbase, hstored]
  cases kind with
  | store => rfl
  | load => exact hwrite _ _

/-- A halfword transfer at an offset from a base that is not R15. -/
theorem halfTransfer_eq {rn : Reg} (hn : rn ≠ Reg.pc) (t : HalfTransfer) (rd : LowReg)
    {o : Arm.HalfOffset} {offset : Word} (ho : o.evaluate x = offset) :
    Arm.halfTransfer t .offset rn rd.wide o x
      = halfTransfer t rd (x.core.registers.read rn + offset) x := by
  have hbase : x.read rn .operand = x.core.registers.read rn := if_neg hn
  have hstored : x.read rd.wide .stored = x.core.registers.read rd.wide := if_neg rd.wide_ne_pc
  have hwrite (y : Execution B) (v : Word) : y.writeRegister rd.wide v = y.setRegister rd.wide v :=
    if_neg rd.wide_ne_pc
  simp only [Arm.halfTransfer, ho, hbase, hstored]
  cases t with
  | storeHalf => rfl
  | loadHalf | loadSignedByte | loadSignedHalf => exact hwrite _ _

/-! ## The formats with several operations -/

variable {x} {o : Arm.Opcode}

theorem registerOp_eq {op : RegisterOp} {rs rd : LowReg}
    (h : op.counterpart? rs.wide rd.wide = some o.instruction) :
    Arm.execute o x = registerOp op rs rd x := by
  have hzero := Arm.evaluate_ofByte x (v := 0) (by decide)
  have hplain := Arm.evaluate_plain x rs.wide_ne_pc
  rw [Arm.execute]
  cases op with
  | lsl | lsr | asr | ror =>
      rw [← Option.some.inj h]
      exact shiftByRegister_eq x _ rs rd _
  | neg =>
      rw [← Option.some.inj h]
      exact applyAlu_eq x rs.wide_ne_pc .rsb hzero
  | mul =>
      rw [← Option.some.inj h]
      exact multiply_eq x rs rd _
  | _ =>
      rw [← Option.some.inj h]
      exact applyAlu_eq x rd.wide_ne_pc _ hplain

theorem immediateOp_eq {op : ImmediateOp} {rd : LowReg} {v : Word} (hv : v < 0x100)
    (h : op.counterpart rd.wide v = o.instruction) :
    Arm.execute o x = immediateOp op rd v x := by
  have ho := Arm.evaluate_ofByte x hv
  rw [Arm.execute, ← h]
  cases op with
  | mov => exact moveImmediate_eq x rd hv _
  | cmp | add | sub => exact applyAlu_eq x rd.wide_ne_pc _ ho

/-- Two registers that are not R15: only the comparison sets the flags. -/
theorem highOp_eq {op : HighOp} {rs rd : Reg}
    (h : op.counterpart? rs rd = some o.instruction) :
    Arm.execute o x = highOp op rs rd x := by
  rw [HighOp.counterpart?.eq_def] at h
  by_cases hpc : rs = Reg.pc ∨ rd = Reg.pc
  · rw [if_pos hpc] at h
    cases h
  · rw [if_neg hpc] at h
    obtain ⟨hs, hd⟩ := not_or.mp hpc
    have hplain := Arm.evaluate_plain x hs
    have hrs : x.read rs .operand = x.core.registers.read rs := if_neg hs
    have hrd : x.read rd .operand = x.core.registers.read rd := if_neg hd
    have hwrite (v : Word) : x.writeRegister rd v = x.setRegister rd v := if_neg hd
    rw [Arm.execute]
    cases op with
    | add =>
        rw [← Option.some.inj h]
        simp only [highOp, hrs, hrd, hwrite]
        exact add_eq x hd hd hplain
    | cmp =>
        have hfirst : x.read rd (Arm.Operand.plain rs).role = x.core.registers.read rd := hrd
        rw [← Option.some.inj h]
        simp only [highOp, hrs, hrd]
        rw [Arm.dataProcessing_of_ne x hd, hplain]
        dsimp only
        rw [hfirst]
        rfl
    | mov =>
        rw [← Option.some.inj h]
        simp only [highOp, hrs, hwrite]
        rw [Arm.dataProcessing_of_ne x hd, hplain]
        rfl
    | bx => cases h

/-- **An instruction of the 16-bit set does what its counterpart does**, from the same
    state. -/
theorem execute_eq_counterpart {t : Opcode} (h : t.instruction.counterpart? = some o.instruction)
    (ht : t.instruction.Encodable) : Arm.execute o x = execute t x := by
  rw [execute]
  generalize t.instruction = i at h ht ⊢
  cases i with
  | moveShifted kind amount rs rd =>
      rw [Arm.execute, ← Option.some.inj h]
      exact moveShifted_eq x kind amount rs rd _
  | addSubtract subtract operand rs rd =>
      rw [Arm.execute, ← Option.some.inj h]
      exact addSubtract_eq x subtract operand rs rd
  | immediateOp op rd value => exact immediateOp_eq ht (Option.some.inj h)
  | registerOp op rs rd => exact registerOp_eq h
  | highOp op rs rd => exact highOp_eq h
  | transferByRegister kind quantity ro rb rd =>
      have hoffset : (Arm.TransferOffset.shifted ro.wide .lsl zeroField).evaluate x
          = x.core.registers.read ro.wide := if_neg ro.wide_ne_pc
      rw [Arm.execute, ← Option.some.inj h]
      exact transfer_eq x rb.wide_ne_pc kind quantity rd hoffset
  | halfByRegister kind ro rb rd =>
      have hoffset : (Arm.HalfOffset.register ro.wide).evaluate x
          = x.core.registers.read ro.wide := if_neg ro.wide_ne_pc
      rw [Arm.execute, ← Option.some.inj h]
      exact halfTransfer_eq x rb.wide_ne_pc kind rd hoffset
  | transferByOffset kind quantity offset rb rd =>
      rw [Arm.execute, ← Option.some.inj h]
      exact transfer_eq x rb.wide_ne_pc kind quantity rd rfl
  | halfByOffset kind offset rb rd =>
      rw [Arm.execute, ← Option.some.inj h]
      cases kind with
      | load => exact halfTransfer_eq x rb.wide_ne_pc .loadHalf rd rfl
      | store => exact halfTransfer_eq x rb.wide_ne_pc .storeHalf rd rfl
  | stackTransfer kind rd offset =>
      rw [Arm.execute, ← Option.some.inj h]
      exact transfer_eq x (by decide) kind .word rd rfl
  | loadAddress fromStack rd offset =>
      cases fromStack with
      | true =>
          rw [Arm.execute, ← Option.some.inj h]
          exact loadAddress_eq x rd ht
      | false => cases h
  | adjustStack subtract offset =>
      rw [Arm.execute, ← Option.some.inj h]
      exact adjustStack_eq x subtract ht
  | pushPop kind extra list =>
      show _ = pushPop kind extra list x
      rw [pushPop_eq, Arm.execute]
      cases kind with
      | store => rw [← Option.some.inj h]
      | load =>
          cases extra with
          | true => cases h
          | false =>
              rw [← Option.some.inj h]
              rfl
  | blockTransfer kind rb list => rw [Arm.execute, ← Option.some.inj h]
  | _ => cases h

end Thumb

end Armv4t
