import Armv4t.Proofs.Arithmetic
import Armv4t.Proofs.ByteStore
import Armv4t.Proofs.Executing

/-! # Multiplication — exact products, as far as the destination reaches

    A multiply puts the product of two registers, and a summand if it has one, into one
    register or into two.  As integers the result is the exact sum, reduced to the 32 or 64
    bits of the destination (`Machine.Multiplied`).  The long forms read their factors as
    natural numbers or in two's complement, and the product of two words has 64 bits in
    either reading (`Arm.longNumber_longProduct`), so that only the sum can wrap.

    * `Arm.multiplyWord_iff` and `Arm.longMultiplyWord_iff` tell the words by their bits;
    * a multiply reads all its registers before it writes the first one, and so a
      destination may be a factor or the summand as well;
    * `Machine.multiply_step` states it for a step, with the flags and the frame. -/

namespace Armv4t

/-! ## The words -/

namespace Arm

/-- The words of the multiplies into one register, by their bits. -/
structure MultiplyWord (w : Word) : Prop where
  family : field w 22 6 = 0b000000
  form : field w 4 4 = 0b1001

/-- The words of the multiplies into two registers. -/
structure LongMultiplyWord (w : Word) : Prop where
  family : field w 23 5 = 0b00001
  form : field w 4 4 = 0b1001

variable {w : Word}

theorem MultiplyWord.decode (h : MultiplyWord w) :
    decodeInstruction w = .multiply (bit w 21) (bit w 20) (nibble w 16) (nibble w 12)
      (nibble w 8) (nibble w 0) := by
  have hword := AgreeOn.of_pattern 0 h.family rfl
  have h22 : bit w 22 = false := hword.bit_eq (by decide)
  rw [decodeInstruction_of_register (hword.field_eq (by decide)), decodeRegisterFamily,
    if_pos h.form, decodeMultiplyOrSwap, hword.field_eq (p := 23) (n := 5) (by decide), h22]
  rfl

theorem LongMultiplyWord.decode (h : LongMultiplyWord w) :
    decodeInstruction w = .multiplyLong (bit w 22) (bit w 21) (bit w 20) (nibble w 16)
      (nibble w 12) (nibble w 8) (nibble w 0) := by
  have hword := AgreeOn.of_pattern 0x00800000 h.family rfl
  rw [decodeInstruction_of_register (hword.field_eq (by decide)), decodeRegisterFamily,
    if_pos h.form, decodeMultiplyOrSwap, h.family]
  rfl

/-- **The short multiplies are what these words decode to, and no others.** -/
theorem multiplyWord_iff : MultiplyWord w ↔ ∃ accumulate setFlags rd rn rs rm,
    decodeInstruction w = .multiply accumulate setFlags rd rn rs rm := by
  constructor
  · intro h
    exact ⟨_, _, _, _, _, _, h.decode⟩
  · rintro ⟨accumulate, setFlags, rd, rn, rs, rm, h⟩
    have row := Encodes.decode w
    rw [h] at row
    cases row with
    | multiply fixed form => exact ⟨fixed, form⟩

/-- **And so are the long ones.** -/
theorem longMultiplyWord_iff : LongMultiplyWord w ↔
    ∃ signed accumulate setFlags rdHigh rdLow rs rm,
      decodeInstruction w = .multiplyLong signed accumulate setFlags rdHigh rdLow rs rm := by
  constructor
  · intro h
    exact ⟨_, _, _, _, _, _, _, h.decode⟩
  · rintro ⟨signed, accumulate, setFlags, rdHigh, rdLow, rs, rm, h⟩
    have row := Encodes.decode w
    rw [h] at row
    cases row with
    | multiplyLong fixed form => exact ⟨fixed, form⟩

/-! ## The product -/

/-- A factor as a number: in two's complement in the signed forms. -/
def factor (signed : Bool) (a : Word) : Int := if signed then a.toInt32.toInt else a.toNat

/-- A number of 64 bits, read in the same way. -/
def longNumber (signed : Bool) (n : UInt64) : Int := if signed then n.toInt64.toInt else n.toNat

/-- Two words have a product below the top of 64 bits. -/
theorem toNat_mul_lt (a b : Word) : a.toNat * b.toNat < 2 ^ 64 := by
  have h : a.toNat * b.toNat ≤ (2 ^ 32 - 1) * (2 ^ 32 - 1) :=
    Nat.mul_le_mul (Nat.le_pred_of_lt a.toNat_lt) (Nat.le_pred_of_lt b.toNat_lt)
  omega

/-- And in two's complement one well inside them. -/
theorem natAbs_toInt_mul_le (a b : Int32) : (a.toInt * b.toInt).natAbs ≤ 2 ^ 62 := by
  have hbound (c : Int32) : c.toInt.natAbs ≤ 2 ^ 31 := by
    have hle := c.le_toInt
    have hlt := c.toInt_lt
    omega
  calc (a.toInt * b.toInt).natAbs = a.toInt.natAbs * b.toInt.natAbs := Int.natAbs_mul ..
    _ ≤ 2 ^ 31 * 2 ^ 31 := Nat.mul_le_mul (hbound a) (hbound b)
    _ = 2 ^ 62 := by decide

/-- **A product of two words is exact in 64 bits**, in either reading: none overflows. -/
theorem longNumber_longProduct (signed : Bool) (a b : Word) :
    longNumber signed (longProduct signed a b) = factor signed a * factor signed b := by
  cases signed with
  | false =>
      have hlt := toNat_mul_lt a b
      show ((a.toUInt64 * b.toUInt64).toNat : Int) = (a.toNat : Int) * b.toNat
      rw [UInt64.toNat_mul, UInt32.toNat_toUInt64, UInt32.toNat_toUInt64, Nat.mod_eq_of_lt hlt]
      exact Int.natCast_mul _ _
  | true =>
      have hle := natAbs_toInt_mul_le a.toInt32 b.toInt32
      show (a.toInt32.toInt64 * b.toInt32.toInt64).toUInt64.toInt64.toInt
        = a.toInt32.toInt * b.toInt32.toInt
      rw [Int64.toInt64_toUInt64, Int64.toInt_mul, Int32.toInt_toInt64, Int32.toInt_toInt64]
      exact Int.bmod_eq_of_le (by omega) (by omega)

/-- Either reading of 64 bits gives them back. -/
theorem toNat_eq_longNumber (signed : Bool) (n : UInt64) :
    (n.toNat : Int) = longNumber signed n % 2 ^ 64 := by
  have hlt := n.toNat_lt
  cases signed with
  | false =>
      show (n.toNat : Int) = (n.toNat : Int) % 2 ^ 64
      omega
  | true =>
      show (n.toNat : Int) = n.toInt64.toInt % (2 ^ 64 : Nat)
      rw [← Int64.toInt_toBitVec, UInt64.toBitVec_toInt64, BitVec.toInt_eq_toNat_bmod,
        Int.bmod_emod]
      show (n.toNat : Int) = (n.toNat : Int) % (2 ^ 64 : Nat)
      omega

/-- And either reading of a factor gives the word back. -/
theorem factor_emod (signed : Bool) (a : Word) : factor signed a % 2 ^ 32 = a.toNat := by
  have hlt := a.toNat_lt
  cases signed with
  | false =>
      show (a.toNat : Int) % 2 ^ 32 = a.toNat
      omega
  | true =>
      show a.toInt32.toInt % 2 ^ 32 = a.toNat
      rw [toInt_word]
      split <;> omega

/-! ## The result -/

/-- The low words of a product and of a sum are those of the numbers. -/
theorem toNat_mulAdd (a b c : Word) :
    ((a * b + c).toNat : Int) = (a.toNat * b.toNat + c.toNat) % 2 ^ 32 := by
  rw [UInt32.toNat_add, UInt32.toNat_mul, Nat.mod_add_mod]
  rfl

/-- A long sum is that of the numbers as well: the product is exact, and the sum wraps. -/
theorem toNat_longProduct_add (signed : Bool) (a b : Word) (sum : UInt64) :
    ((longProduct signed a b + sum).toNat : Int)
      = (factor signed a * factor signed b + sum.toNat) % 2 ^ 64 := by
  rw [UInt64.toNat_add, ← longNumber_longProduct]
  show (((longProduct signed a b).toNat + sum.toNat : Nat) : Int) % 2 ^ 64 = _
  rw [Int.natCast_add, toNat_eq_longNumber signed, Int.emod_add_emod]

/-- A number of 64 bits is a high word above a low one. -/
theorem toNat_halves (n : UInt64) :
    n.toUInt32.toNat + 2 ^ 32 * (n >>> 32).toUInt32.toNat = n.toNat := by
  have hlt := n.toNat_lt
  have hhigh : (n >>> 32).toNat = n.toNat / 2 ^ 32 := by
    rw [UInt64.toNat_shiftRight, Nat.shiftRight_eq_div_pow]
    rfl
  rw [UInt64.toNat_toUInt32, UInt64.toNat_toUInt32, hhigh]
  omega

/-- And two words side by side are such a number. -/
theorem toNat_joined (low high : Word) :
    (high.toUInt64 <<< 32 ||| low.toUInt64).toNat = low.toNat + 2 ^ 32 * high.toNat := by
  have hlow := low.toNat_lt
  have hhigh := high.toNat_lt
  have hshift : high.toNat <<< 32 < 2 ^ 64 := by
    rw [Nat.shiftLeft_eq]
    omega
  rw [← or_shiftLeft_eq_add hlow, Nat.or_comm, UInt64.toNat_or, UInt64.toNat_shiftLeft,
    UInt32.toNat_toUInt64, UInt32.toNat_toUInt64]
  exact congrArg (· ||| low.toNat) (Nat.mod_eq_of_lt hshift)

end Arm

namespace Psr

/-- N and Z of a number of some bits; C and V are kept. -/
def setNumber (p : Psr) (bits n : Nat) : Psr :=
  (p.setN (decide (2 ^ (bits - 1) ≤ n))).setZ (decide (n = 0))

theorem setNZ_eq_setNumber (p : Psr) (v : Word) : p.setNZ v = p.setNumber 32 v.toNat := by
  have hzero : (v == 0) = decide (v.toNat = 0) := by
    rw [beq_eq_decide]
    exact decide_eq_decide.mpr UInt32.toNat_inj.symm
  rw [setNZ, setNumber, bit_top, hzero]

theorem setNZLong_eq_setNumber (p : Psr) (v : UInt64) :
    p.setNZLong v = p.setNumber 64 v.toNat := by
  have hlt := v.toNat_lt
  have hzero : (v == 0) = decide (v.toNat = 0) := by
    rw [beq_eq_decide]
    exact decide_eq_decide.mpr UInt64.toNat_inj.symm
  have htop : ((v >>> 63) &&& 1 == 1) = decide (2 ^ 63 ≤ v.toNat) := by
    rw [beq_eq_decide]
    refine decide_eq_decide.mpr (UInt64.toNat_inj.symm.trans ?_)
    rw [UInt64.toNat_and, UInt64.toNat_shiftRight, Nat.shiftRight_eq_div_pow]
    show v.toNat / 2 ^ 63 &&& 1 = 1 ↔ _
    rw [Nat.and_one_is_mod]
    omega
  rw [setNZLong, setNumber, htop, hzero]

theorem flags_setNumber (p : Psr) (bits n : Nat) :
    (p.setNumber bits n).flags = ⟨decide (2 ^ (bits - 1) ≤ n), decide (n = 0), p.c, p.v⟩ := by
  have hbits (i : Word) (hi : i < 32) : bit (p.setNumber bits n).raw i
      = if 30 = i then decide (n = 0) else if 31 = i then decide (2 ^ (bits - 1) ≤ n)
        else bit p.raw i := by
    show bit (putBit (putBit p.raw 31 _) 30 _) i = _
    rw [bit_putBit _ (by decide) hi, bit_putBit _ (by decide) hi]
  show (⟨bit _ 31, bit _ 30, bit _ 29, bit _ 28⟩ : Flags) = _
  rw [hbits 31 (by decide), hbits 30 (by decide), hbits 29 (by decide), hbits 28 (by decide)]
  rfl

theorem setNumber_agreeOff (p : Psr) (bits n : Nat) :
    AgreeOff flagsMask (p.setNumber bits n).raw p.raw :=
  ((p.setN _).setZ_agreeOff _).trans (p.setN_agreeOff _)

end Psr

/-! ## The instruction -/

namespace Arm

variable {B : Type} (x : Execution B)

/-- What a short multiply does: one register and the flags. -/
theorem multiply_eq (accumulate setFlags : Bool) {rd : Reg} (rn rs rm : Reg) {v : Word}
    (hrd : rd ≠ Reg.pc)
    (hv : x.core.registers.read rm * x.core.registers.read rs
      + (if accumulate then x.core.registers.read rn else 0) = v) :
    multiply accumulate setFlags rd rn rs rm x =
      { x with
        core := (x.core.setRegister rd v).setCpsr
          (if setFlags then x.core.cpsr.setNumber 32 v.toNat else x.core.cpsr)
        internal := x.internal + (multiplierCycles (x.core.registers.read rs) true
          + if accumulate then 1 else 0) } := by
  have hresult : (if accumulate then
      x.core.registers.read rm * x.core.registers.read rs + x.core.registers.read rn
      else x.core.registers.read rm * x.core.registers.read rs) = v := by
    cases accumulate with
    | false => exact (UInt32.add_zero _).symm.trans hv
    | true => exact hv
  rw [multiply, hresult, Execution.writeRegister, if_neg hrd, ← Psr.setNZ_eq_setNumber]
  cases setFlags <;> rfl

/-- And a long one: two registers, the lower word first, and the flags. -/
theorem multiplyLong_eq_writes (signed accumulate setFlags : Bool) {rdHigh rdLow : Reg}
    (rs rm : Reg) {v : UInt64} (hhigh : rdHigh ≠ Reg.pc) (hlow : rdLow ≠ Reg.pc)
    (hv : longProduct signed (x.core.registers.read rm) (x.core.registers.read rs)
      + (if accumulate then (x.core.registers.read rdHigh).toUInt64 <<< 32
        ||| (x.core.registers.read rdLow).toUInt64 else 0) = v) :
    multiplyLong signed accumulate setFlags rdHigh rdLow rs rm x =
      { x with
        core := ((x.core.setRegister rdLow v.toUInt32).setRegister rdHigh
            (v >>> 32).toUInt32).setCpsr
          (if setFlags then x.core.cpsr.setNumber 64 v.toNat else x.core.cpsr)
        internal := x.internal + (multiplierCycles (x.core.registers.read rs) signed
          + if accumulate then 2 else 1) } := by
  have hresult : (if accumulate then
      longProduct signed (x.core.registers.read rm) (x.core.registers.read rs)
        + ((x.core.registers.read rdHigh).toUInt64 <<< 32
          ||| (x.core.registers.read rdLow).toUInt64)
      else longProduct signed (x.core.registers.read rm) (x.core.registers.read rs)) = v := by
    cases accumulate with
    | false => exact (UInt64.add_zero _).symm.trans hv
    | true => exact hv
  rw [multiplyLong, hresult, Execution.writeRegister, Execution.writeRegister, if_neg hhigh,
    if_neg hlow, ← Psr.setNZLong_eq_setNumber]
  cases setFlags <;> rfl

end Arm

/-! ## The step -/

namespace Machine

variable {B : Type} [Bus B] {m : Machine B} {w : Word}

omit [Bus B] in
/-- The number in some registers, the lowest word first. -/
def number (m : Machine B) (list : List Reg) : Nat := wordsValue (list.map m.read)

/-- A step that put a number into registers, as far as they reach, and did nothing else. -/
structure Multiplied (m : Machine B) (targets : List Reg) (setFlags : Bool) (exact : Int)
    (m' : Machine B) : Prop where
  number : (m'.number targets : Int) = exact % 2 ^ (32 * targets.length)
  /-- N is the top bit of all the targets together, and Z tells that they are all zero. -/
  flags : m'.core.cpsr.flags = if setFlags then
      ⟨decide (2 ^ (32 * targets.length - 1) ≤ m'.number targets),
        decide (m'.number targets = 0), m.core.cpsr.c, m.core.cpsr.v⟩
    else m.core.cpsr.flags
  /-- The status but for the flags. -/
  status : AgreeOff Psr.flagsMask m'.core.cpsr.raw m.core.cpsr.raw
  kept : setFlags = false → m'.core.cpsr = m.core.cpsr
  registers : ∀ i, i ∉ targets → i ≠ Reg.pc → m'.read i = m.read i
  pc : m'.core.pc = m.nextPc
  bank : m'.core.bank = m.core.bank
  bus : m'.bus = m.bus
  accesses : m.flight.accesses = []

theorem multiplied_of_flight {k : Core} {targets : List Reg} {value : Nat} {setFlags : Bool}
    {exact : Int} {n : Int32} (hm : m.CarriesOut w) (hpc : Reg.pc ∉ targets)
    (hvalue : wordsValue (targets.map k.registers.read) = value)
    (hothers : ∀ i, i ∉ targets → k.registers.read i = m.core.aligned.registers.read i)
    (hbank : k.bank = m.core.bank) (hexact : (value : Int) = exact % 2 ^ (32 * targets.length))
    (h : m.flight =
      { Execution.start m.core.aligned m.bus with
        core := k.setCpsr (if setFlags then m.core.cpsr.setNumber (32 * targets.length) value
          else m.core.cpsr)
        internal := n }) : m.Multiplied targets setFlags exact m.step.2 := by
  have hread (i : Reg) (hi : i ≠ Reg.pc) : m.step.2.read i = k.registers.read i := by
    rw [m.read_step hi, h]
    rfl
  have hnumber : m.step.2.number targets = value := by
    rw [number, ← hvalue]
    refine congrArg wordsValue (List.map_congr_left fun i hi => hread i ?_)
    rintro rfl
    exact hpc hi
  have hcpsr : m.step.2.core.cpsr = if setFlags then
      m.core.cpsr.setNumber (32 * targets.length) value else m.core.cpsr := by
    rw [cpsr_step, h]
    rfl
  refine ⟨?_, ?_, ?_, ?_, ?_, ?_, ?_, ?_, ?_⟩
  · rw [hnumber]
    exact hexact
  · rw [hcpsr, hnumber]
    cases setFlags with
    | false => rfl
    | true => exact Psr.flags_setNumber _ _ _
  · rw [hcpsr]
    cases setFlags with
    | false => exact .refl _ _
    | true => exact Psr.setNumber_agreeOff _ _ _
  · rintro rfl
    exact hcpsr
  · intro i hi hne
    rw [hread i hne, hothers i hi, read_aligned hne]
  · have hk : k.pc = alignWord m.core.pc := (hothers Reg.pc hpc).trans hm.pc_aligned
    rw [pc_step, h, hm.nextPc_eq, hm.set, ← hk]
    rfl
  · rw [bank_step, h]
    exact hbank
  · rw [bus_step, h]
    rfl
  · rw [h]
    rfl

/-- A short multiply. -/
theorem multiplied_of_short (hm : m.CarriesOut w) (hw : Arm.MultiplyWord w)
    (hrd : nibble w 16 ≠ Reg.pc) (hrs : nibble w 8 ≠ Reg.pc) (hrm : nibble w 0 ≠ Reg.pc)
    (hrn : bit w 21 = true → nibble w 12 ≠ Reg.pc) :
    m.Multiplied [nibble w 16] (bit w 20)
      ((m.read (nibble w 0)).toNat * (m.read (nibble w 8)).toNat
        + (if bit w 21 then (m.read (nibble w 12)).toNat else 0 : Nat)) m.step.2 := by
  let v : Word := m.read (nibble w 0) * m.read (nibble w 8)
    + if bit w 21 then m.read (nibble w 12) else 0
  have hsummand : (if bit w 21 then m.core.aligned.registers.read (nibble w 12) else 0)
      = if bit w 21 then m.read (nibble w 12) else 0 := by
    cases hacc : bit w 21 with
    | false => rfl
    | true => exact read_aligned (hrn hacc)
  have hv : m.core.aligned.registers.read (nibble w 0) * m.core.aligned.registers.read (nibble w 8)
      + (if bit w 21 then m.core.aligned.registers.read (nibble w 12) else 0) = v := by
    rw [read_aligned hrs, read_aligned hrm, hsummand]
  have hexact : (v.toNat : Int)
      = ((m.read (nibble w 0)).toNat * (m.read (nibble w 8)).toNat
        + (if bit w 21 then (m.read (nibble w 12)).toNat else 0 : Nat) : Int) % 2 ^ 32 := by
    rw [Arm.toNat_mulAdd, apply_ite UInt32.toNat]
    rfl
  have hwrite (i : Reg) : (m.core.aligned.registers.write (nibble w 16) v).read i
      = if nibble w 16 = i then v else m.core.aligned.registers.read i := Registers.read_write ..
  have hflight := (hm.flight_eq hw.decode).trans (Arm.multiply_eq (.start m.core.aligned m.bus)
    (bit w 21) (bit w 20) (nibble w 12) (nibble w 8) (nibble w 0) hrd hv)
  refine multiplied_of_flight (k := m.core.aligned.setRegister (nibble w 16) v) hm ?_ ?_ ?_ rfl
    hexact hflight
  · intro hmem
    exact hrd (List.mem_singleton.mp hmem).symm
  · exact congrArg UInt32.toNat ((hwrite _).trans (if_pos rfl))
  · intro i hi
    exact (hwrite i).trans (if_neg fun h => hi (List.mem_singleton.mpr h.symm))

/-- A long one: the summand is the old number in the two destinations. -/
theorem multiplied_of_long (hm : m.CarriesOut w) (hw : Arm.LongMultiplyWord w)
    (hhigh : nibble w 16 ≠ Reg.pc) (hlow : nibble w 12 ≠ Reg.pc) (hrs : nibble w 8 ≠ Reg.pc)
    (hrm : nibble w 0 ≠ Reg.pc) (hne : nibble w 16 ≠ nibble w 12) :
    m.Multiplied [nibble w 12, nibble w 16] (bit w 20)
      (Arm.factor (bit w 22) (m.read (nibble w 0)) * Arm.factor (bit w 22) (m.read (nibble w 8))
        + (if bit w 21 then m.number [nibble w 12, nibble w 16] else 0 : Nat)) m.step.2 := by
  let sum : UInt64 := if bit w 21 then (m.read (nibble w 16)).toUInt64 <<< 32
    ||| (m.read (nibble w 12)).toUInt64 else 0
  let v : UInt64 := Arm.longProduct (bit w 22) (m.read (nibble w 0)) (m.read (nibble w 8)) + sum
  have hv : Arm.longProduct (bit w 22) (m.core.aligned.registers.read (nibble w 0))
        (m.core.aligned.registers.read (nibble w 8))
      + (if bit w 21 then (m.core.aligned.registers.read (nibble w 16)).toUInt64 <<< 32
        ||| (m.core.aligned.registers.read (nibble w 12)).toUInt64 else 0) = v := by
    rw [read_aligned hrs, read_aligned hrm, read_aligned hhigh, read_aligned hlow]
  have hsum : sum.toNat = if bit w 21 then m.number [nibble w 12, nibble w 16] else 0 := by
    refine (apply_ite UInt64.toNat ..).trans (if_congr Iff.rfl ?_ rfl)
    exact Arm.toNat_joined _ _
  have hexact : (v.toNat : Int)
      = (Arm.factor (bit w 22) (m.read (nibble w 0)) * Arm.factor (bit w 22) (m.read (nibble w 8))
        + (if bit w 21 then m.number [nibble w 12, nibble w 16] else 0 : Nat)) % 2 ^ 64 := by
    rw [← hsum]
    exact Arm.toNat_longProduct_add _ _ _ _
  have hwrite (i : Reg) : ((m.core.aligned.registers.write (nibble w 12) v.toUInt32).write
      (nibble w 16) (v >>> 32).toUInt32).read i = if nibble w 16 = i then (v >>> 32).toUInt32
        else if nibble w 12 = i then v.toUInt32 else m.core.aligned.registers.read i := by
    rw [Registers.read_write, Registers.read_write]
  have hflight := (hm.flight_eq hw.decode).trans
    (Arm.multiplyLong_eq_writes (.start m.core.aligned m.bus) (bit w 22) (bit w 21) (bit w 20)
      (nibble w 8) (nibble w 0) hhigh hlow hv)
  let written : Core := (m.core.aligned.setRegister (nibble w 12) v.toUInt32).setRegister
    (nibble w 16) (v >>> 32).toUInt32
  refine multiplied_of_flight (k := written) hm ?_ ?_ ?_ rfl hexact hflight
  · intro hmem
    rcases List.mem_pair.mp hmem with h | h
    · exact hlow h.symm
    · exact hhigh h.symm
  · have hlowest := (hwrite (nibble w 12)).trans ((if_neg hne).trans (if_pos rfl))
    have hhighest := (hwrite (nibble w 16)).trans (if_pos rfl)
    exact (congrArg₂ (fun low high : Word => low.toNat + 2 ^ 32 * high.toNat) hlowest
      hhighest).trans (Arm.toNat_halves v)
  · intro i hi
    have hne' : nibble w 16 ≠ i ∧ nibble w 12 ≠ i := by
      constructor
      · rintro rfl
        exact hi (List.mem_pair.mpr (Or.inr rfl))
      · rintro rfl
        exact hi (List.mem_pair.mpr (Or.inl rfl))
    exact (hwrite i).trans ((if_neg hne'.1).trans (if_neg hne'.2))

/-- The low word of a long result has no sign: it is the short product, and the summand. -/
theorem Multiplied.low {low high rs rm : Reg} {signed accumulate setFlags : Bool}
    {m' : Machine B}
    (h : m.Multiplied [low, high] setFlags
      (Arm.factor signed (m.read rm) * Arm.factor signed (m.read rs)
        + (if accumulate then m.number [low, high] else 0 : Nat)) m') :
    m'.read low = m.read rm * m.read rs + if accumulate then m.read low else 0 := by
  have hmod (k : Machine B) : (k.number [low, high] : Int) % 2 ^ 32 = (k.read low).toNat := by
    have hlt := (k.read low).toNat_lt
    show ((k.read low).toNat + 2 ^ 32 * ((k.read high).toNat + 2 ^ 32 * 0) : Nat) % (2 ^ 32 : Int)
      = (k.read low).toNat
    omega
  have hsummand : ((if accumulate then m.number [low, high] else 0 : Nat) : Int) % 2 ^ 32
      = (if accumulate then m.read low else 0).toNat := by
    cases accumulate with
    | false => rfl
    | true => exact hmod m
  refine UInt32.toNat_inj.mp (Int.ofNat_inj.mp ?_)
  calc ((m'.read low).toNat : Int)
      = (Arm.factor signed (m.read rm) * Arm.factor signed (m.read rs)
        + (if accumulate then m.number [low, high] else 0 : Nat)) % 2 ^ 64 % 2 ^ 32 := by
        rw [← hmod m', h.number]
        rfl
    _ = (Arm.factor signed (m.read rm) * Arm.factor signed (m.read rs)
        + (if accumulate then m.number [low, high] else 0 : Nat)) % 2 ^ 32 :=
        Int.emod_emod_of_dvd _ (by decide)
    _ = ((m.read rm).toNat * (m.read rs).toNat
        + (if accumulate then m.read low else 0).toNat) % 2 ^ 32 := by
        rw [Int.add_emod, Int.mul_emod, Arm.factor_emod, Arm.factor_emod, hsummand,
          Int.emod_add_emod]
    _ = ((m.read rm * m.read rs + if accumulate then m.read low else 0).toNat : Int) :=
        (Arm.toNat_mulAdd _ _ _).symm

/-- **Multiplies are integer arithmetic**, from every state of the 32-bit set and for every
    word whose condition holds, as long as no register of it is R15.  A short multiply leaves
    in its destination the product, and the summand, of its registers as they were before;
    a long one leaves them in two destinations that differ, with the factors as natural
    numbers or in two's complement.  The flags are those of the whole result, C and V aside.
    No product of two words overflows 64 bits, and the low word of a long result does not
    depend on the reading of the factors. -/
theorem multiply_step (hm : m.CarriesOut w) (hrd : nibble w 16 ≠ Reg.pc)
    (hrs : nibble w 8 ≠ Reg.pc) (hrm : nibble w 0 ≠ Reg.pc) :
    (Arm.MultiplyWord w → (bit w 21 = true → nibble w 12 ≠ Reg.pc) →
      m.Multiplied [nibble w 16] (bit w 20)
        ((m.read (nibble w 0)).toNat * (m.read (nibble w 8)).toNat
          + (if bit w 21 then (m.read (nibble w 12)).toNat else 0 : Nat)) m.step.2)
      ∧ (Arm.LongMultiplyWord w → nibble w 12 ≠ Reg.pc → nibble w 16 ≠ nibble w 12 →
        m.Multiplied [nibble w 12, nibble w 16] (bit w 20)
          (Arm.factor (bit w 22) (m.read (nibble w 0))
              * Arm.factor (bit w 22) (m.read (nibble w 8))
            + (if bit w 21 then m.number [nibble w 12, nibble w 16] else 0 : Nat)) m.step.2
        ∧ m.step.2.read (nibble w 12) = m.read (nibble w 0) * m.read (nibble w 8)
          + if bit w 21 then m.read (nibble w 12) else 0)
      ∧ ∀ signed a b, Arm.longNumber signed (Arm.longProduct signed a b)
          = Arm.factor signed a * Arm.factor signed b := by
  refine ⟨fun hw hrn => multiplied_of_short hm hw hrd hrs hrm hrn, ?_,
    Arm.longNumber_longProduct⟩
  intro hw hlow hne
  have hlong := multiplied_of_long hm hw hrd hlow hrs hrm hne
  exact ⟨hlong, hlong.low⟩

/-- `SMLALS R1, R2, R1, R2` with -1 in both: one more than all the bits together wraps to zero.
    So it does with `MLAS R1, R1, R1, R1`, in one register. -/
theorem multiply_step_of_wrap :
    let long := ((Rom.machine [0xE0F21291] .user).write 1 0xFFFFFFFF).write 2 0xFFFFFFFF
    let short := (Rom.machine [0xE0311191] .user).write 1 0xFFFFFFFF
    Arm.LongMultiplyWord 0xE0F21291 ∧ long.step.2.number [1, 2] = 0
      ∧ long.step.2.core.cpsr.flags = ⟨false, true, false, false⟩
      ∧ Arm.MultiplyWord 0xE0311191 ∧ short.step.2.number [1] = 0
      ∧ short.step.2.core.cpsr.flags = ⟨false, true, false, false⟩ := by
  intro long short
  have hl : long.CarriesOut 0xE0F21291 := ⟨by decide +kernel, by decide +kernel, by decide +kernel⟩
  have hs : short.CarriesOut 0xE0311191 := ⟨by decide +kernel, by decide +kernel, by decide +kernel⟩
  have hlongWord : Arm.LongMultiplyWord 0xE0F21291 := ⟨by decide, by decide⟩
  have hshortWord : Arm.MultiplyWord 0xE0311191 := ⟨by decide, by decide⟩
  obtain ⟨-, hlong, -⟩ := multiply_step hl (by decide) (by decide) (by decide)
  obtain ⟨hshort, -, -⟩ := multiply_step hs (by decide) (by decide) (by decide)
  obtain ⟨hlong', -⟩ := hlong hlongWord (by decide) (by decide)
  have hshort' := hshort hshortWord fun _ => by decide
  have hzero : long.step.2.number [1, 2] = 0 :=
    Int.ofNat_inj.mp (hlong'.number.trans (by decide +kernel))
  have hzero' : short.step.2.number [1] = 0 :=
    Int.ofNat_inj.mp (hshort'.number.trans (by decide +kernel))
  refine ⟨hlongWord, hzero, ?_, hshortWord, hzero', ?_⟩
  · refine hlong'.flags.trans ?_
    rw [show long.step.2.number [nibble 0xE0F21291 12, nibble 0xE0F21291 16] = 0 from hzero]
    decide +kernel
  · refine hshort'.flags.trans ?_
    rw [show short.step.2.number [nibble 0xE0311191 16] = 0 from hzero']
    decide +kernel

end Machine

end Armv4t
