import Armv4t.Alu
import Armv4t.Proofs.Guarded.Word

/-! # Guarded operands — the shifter and the arithmetic unit stay in range

    A shift amount is a number below 256 that may come from a register, and the shifter
    may not shift by 32 or more nor look at a bit outside the word; a sum with a carry
    is made in 64 bits.  Both units again with every shift, every bit and every sum
    guarded: whatever the operands, they give what the plain units give. -/

namespace Armv4t.Guarded

/-! ## The shifter -/

/-- A word of copies of the sign bit, which is also the carry. -/
def signFill (value : Word) : Option Shifted := do
  let sign ← getBit 32 value 31
  some ⟨if sign then 0xFFFFFFFF else 0, sign⟩

/-- A shift by an amount of zero. -/
def shiftByZero (kind : ShiftKind) (source : ShiftSource) (value : Word) (carry : Bool) :
    Option Shifted := do
  match source, kind with
  | .opcode, .lsr => some ⟨0, ← getBit 32 value 31⟩
  | .opcode, .asr => signFill value
  | .opcode, .ror =>
    let top ← shiftLeft carry.toUInt32 31
    some ⟨top ||| (← shiftRight 32 value 1), ← getBit 32 value 0⟩
  | _, _ => some ⟨value, carry⟩

/-- A shift by an amount that is not zero. -/
def shiftBySome (kind : ShiftKind) (value amount : Word) : Option Shifted := do
  match kind with
  | .lsl =>
    if amount < 32 then
      some ⟨← shiftLeft value amount, ← getBit 32 value (← subWord 32 amount)⟩
    else if amount = 32 then some ⟨0, ← getBit 32 value 0⟩
    else some ⟨0, false⟩
  | .lsr =>
    if amount < 32 then
      some ⟨← shiftRight 32 value amount, ← getBit 32 value (← subWord amount 1)⟩
    else if amount = 32 then some ⟨0, ← getBit 32 value 31⟩
    else some ⟨0, false⟩
  | .asr =>
    if amount < 32 then
      some ⟨← shiftSigned value amount, ← getBit 32 value (← subWord amount 1)⟩
    else signFill value
  | .ror =>
    let rotation := amount &&& 31
    if rotation = 0 then some ⟨value, ← getBit 32 value 31⟩
    else
      let result := rotateRight value rotation
      some ⟨result, ← getBit 32 result 31⟩

/-- The shifter. -/
def shift (kind : ShiftKind) (source : ShiftSource) (value amount : Word) (carry : Bool) :
    Option Shifted :=
  if amount = 0 then shiftByZero kind source value carry
  else shiftBySome kind value amount

/-- The value and the distance of an immediate, read from its twelve bits. -/
def immediateParts (i : RotatedImmediate) : Option (Word × Word) := do
  let value ← getBits 32 i.toField 0 7
  some (value, ← mulWord (← getBits 32 i.toField 8 11) 2)

/-- The operand that an immediate stands for. -/
def immediate (i : RotatedImmediate) (carry : Bool) : Option Shifted := do
  let (value, distance) ← immediateParts i
  shift .ror .rotation value distance carry

/-- The sign is bit 31 of any word. -/
@[simp] theorem signFill_eq (value : Word) : signFill value = some (Armv4t.signFill value) := by
  simp [signFill, Armv4t.signFill]

/-- An encoded zero looks at bits 0 and 31 only, and rotates by one place. -/
theorem shiftByZero_eq (kind : ShiftKind) (source : ShiftSource) (value : Word) (carry : Bool) :
    shiftByZero kind source value carry
      = some (Armv4t.shiftByZero kind source value carry) := by
  have htop : carry.toUInt32 <<< 31 = if carry then (0x80000000 : Word) else 0 := by
    cases carry <;> rfl
  cases source <;> cases kind <;>
    simp [shiftByZero, Armv4t.shiftByZero, rotateThroughCarry, htop]

/-- A rotation by nothing. -/
theorem rotateRight_zero (value : Word) : rotateRight value 0 = value := by
  have hfull : value <<< (32 - 0) = value <<< 0 := by
    rw [← UInt32.toBitVec_inj, UInt32.toBitVec_shiftLeft, UInt32.toBitVec_shiftLeft]
    rfl
  rw [rotateRight, hfull, UInt32.shiftRight_zero, UInt32.shiftLeft_zero, UInt32.or_self]

/-- An amount that is not zero shifts and looks inside the word. -/
theorem shiftBySome_eq (kind : ShiftKind) (value : Word) {amount : Word} (h : amount ≠ 0) :
    shiftBySome kind value amount = some (Armv4t.shiftBySome kind value amount) := by
  have hne : amount.toNat ≠ 0 := mt (UInt32.toNat_inj (b := 0)).mp h
  have hpos : 1 ≤ amount := UInt32.le_iff_toNat_le.mpr (Nat.one_le_iff_ne_zero.mpr hne)
  -- the bit that is shifted out last
  have hlast (hlt : amount < 32) :
      getBit 32 value (amount - 1) = some (bit value (amount - 1)) := by
    refine getBit_eq (UInt32.lt_iff_toNat_lt.mpr ?_)
    rw [UInt32.toNat_sub_of_le _ _ hpos]
    exact Nat.lt_of_le_of_lt (Nat.sub_le _ _) hlt
  have hfirst (hlt : amount < 32) :
      getBit 32 value (32 - amount) = some (bit value (32 - amount)) := by
    refine getBit_eq (UInt32.lt_iff_toNat_lt.mpr ?_)
    rw [UInt32.toNat_sub_of_le _ _ (UInt32.le_of_lt hlt)]
    show 32 - amount.toNat < 32
    omega
  cases kind with
  | lsl =>
      by_cases hlt : amount < 32
      · simp [shiftBySome, Armv4t.shiftBySome, hlt, subWord_eq (UInt32.le_of_lt hlt), hfirst hlt]
      · simp [shiftBySome, Armv4t.shiftBySome, hlt]
  | lsr =>
      by_cases hlt : amount < 32
      · simp [shiftBySome, Armv4t.shiftBySome, hlt, subWord_eq hpos, hlast hlt]
      · simp [shiftBySome, Armv4t.shiftBySome, hlt]
  | asr =>
      by_cases hlt : amount < 32
      · simp [shiftBySome, Armv4t.shiftBySome, hlt, subWord_eq hpos, hlast hlt]
      · simp [shiftBySome, Armv4t.shiftBySome, hlt]
  | ror =>
      by_cases hzero : amount &&& 31 = 0
      · simp [shiftBySome, Armv4t.shiftBySome, hzero, rotateRight_zero]
      · simp [shiftBySome, Armv4t.shiftBySome, hzero]

/-- No amount is out of range for the shifter. -/
@[simp] theorem shift_eq (kind : ShiftKind) (source : ShiftSource) (value amount : Word)
    (carry : Bool) :
    shift kind source value amount carry
      = some (Armv4t.shift kind source value amount carry) := by
  rw [shift, Armv4t.shift]
  by_cases h : amount = 0
  · rw [if_pos h, if_pos h, shiftByZero_eq]
  · rw [if_neg h, if_neg h, shiftBySome_eq kind value h]

/-- The two parts of an immediate, read back from its bits. -/
theorem fields_toField (i : RotatedImmediate) :
    field i.toField 0 8 = i.value.toUInt32 ∧ field i.toField 8 4 = i.rotate.val.toUInt32 := by
  have hvalue : i.value.toNat < 2 ^ 8 := i.value.toNat_lt
  have hrotate : i.rotate.val < 16 := i.rotate.isLt
  have hcode : i.rotate.val.toUInt32.toNat = i.rotate.val :=
    Nat.mod_eq_of_lt (Nat.lt_trans hrotate (by decide))
  have hfield : i.toField.toNat = i.rotate.val * 2 ^ 8 + i.value.toNat := by
    have hshift : (i.rotate.val.toUInt32 <<< 8).toNat = i.rotate.val <<< 8 := by
      rw [UInt32.toNat_shiftLeft, hcode, show UInt32.toNat 8 % 32 = 8 from rfl,
        Nat.shiftLeft_eq]
      exact Nat.mod_eq_of_lt (by omega)
    rw [RotatedImmediate.toField, UInt32.toNat_or, hshift, UInt8.toNat_toUInt32,
      ← Nat.shiftLeft_add_eq_or_of_lt hvalue, Nat.shiftLeft_eq]
  constructor
  · rw [← UInt32.toNat_inj, toNat_field _ (by decide) (by decide), hfield, UInt8.toNat_toUInt32]
    show (i.rotate.val * 2 ^ 8 + i.value.toNat) / 1 % 2 ^ 8 = i.value.toNat
    omega
  · rw [← UInt32.toNat_inj, toNat_field _ (by decide) (by decide), hfield, hcode]
    show (i.rotate.val * 2 ^ 8 + i.value.toNat) / 2 ^ 8 % 2 ^ 4 = i.rotate.val
    omega

/-- Twice a number of four bits is a distance. -/
@[simp] theorem immediateParts_eq (i : RotatedImmediate) :
    immediateParts i = some (i.value.toUInt32, i.distance) := by
  obtain ⟨hvalue, hrotate⟩ := fields_toField i
  have hcode : i.rotate.val.toUInt32.toNat < 16 :=
    Nat.lt_of_le_of_lt (Nat.mod_le _ _) i.rotate.isLt
  have hdistance : mulWord i.rotate.val.toUInt32 2 = some i.distance :=
    mulWord_eq (show _ * 2 < 2 ^ 32 by omega)
  simp [immediateParts, hvalue, hrotate, hdistance]

/-- Every immediate is an operand. -/
@[simp] theorem immediate_eq (i : RotatedImmediate) (carry : Bool) :
    immediate i carry = some (i.operand carry) := by
  simp [immediate, RotatedImmediate.operand]

/-! ## The arithmetic unit -/

/-- A sum with a carry, made in 64 bits. -/
def addWithCarry (a b : Word) (carry : Bool) : Option AluResult := do
  let wide ← addWide (← addWide a.toUInt64 b.toUInt64) carry.toUInt64
  let value := wide.toUInt32
  some
    { value
      flags :=
        { n := ← getBit 32 value 31
          z := value == 0
          c := wide > 0xFFFFFFFF
          v := ← getBit 32 ((a ^^^ value) &&& (b ^^^ value)) 31 } }

/-- A difference with a carry. -/
def subWithCarry (a b : Word) (carry : Bool) : Option AluResult := addWithCarry a (~~~b) carry

/-- One operation on a first operand, a shifted second one and the current carry and
    overflow flags. -/
def compute (op : AluOp) (first : Word) (second : Shifted) (carry overflow : Bool) :
    Option AluResult :=
  let bitwise (value : Word) : Option AluResult := do
    some
      { value
        flags := { n := ← getBit 32 value 31, z := value == 0, c := second.carry, v := overflow } }
  match op with
  | .and | .tst => bitwise (first &&& second.value)
  | .eor | .teq => bitwise (first ^^^ second.value)
  | .orr => bitwise (first ||| second.value)
  | .mov => bitwise second.value
  | .bic => bitwise (first &&& ~~~second.value)
  | .mvn => bitwise (~~~second.value)
  | .sub | .cmp => subWithCarry first second.value true
  | .rsb => subWithCarry second.value first true
  | .add | .cmn => addWithCarry first second.value false
  | .adc => addWithCarry first second.value carry
  | .sbc => subWithCarry first second.value carry
  | .rsc => subWithCarry second.value first carry

/-- Two words and a carry have a sum of 33 bits. -/
@[simp] theorem addWithCarry_eq (a b : Word) (carry : Bool) :
    addWithCarry a b carry = some (Armv4t.addWithCarry a b carry) := by
  have ha : a.toNat < 2 ^ 32 := a.toNat_lt
  have hb : b.toNat < 2 ^ 32 := b.toNat_lt
  have hcarry : carry.toUInt64.toNat ≤ 1 := by cases carry <;> decide
  have hsum : (a.toUInt64 + b.toUInt64).toNat = a.toNat + b.toNat := by
    rw [UInt64.toNat_add, UInt32.toNat_toUInt64, UInt32.toNat_toUInt64]
    omega
  have hwide : addWide a.toUInt64 b.toUInt64 = some (a.toUInt64 + b.toUInt64) := by
    refine addWide_eq ?_
    rw [UInt32.toNat_toUInt64, UInt32.toNat_toUInt64]
    omega
  have hcarried : addWide (a.toUInt64 + b.toUInt64) carry.toUInt64
      = some (a.toUInt64 + b.toUInt64 + carry.toUInt64) := by
    refine addWide_eq ?_
    rw [hsum]
    omega
  simp [addWithCarry, Armv4t.addWithCarry, hwide, hcarried]

@[simp] theorem subWithCarry_eq (a b : Word) (carry : Bool) :
    subWithCarry a b carry = some (Armv4t.subWithCarry a b carry) :=
  addWithCarry_eq a (~~~b) carry

/-- No operation has an operand that is out of range for it. -/
@[simp] theorem compute_eq (op : AluOp) (first : Word) (second : Shifted)
    (carry overflow : Bool) :
    compute op first second carry overflow
      = some (op.compute first second carry overflow) := by
  cases op <;> simp [compute, AluOp.compute]

end Armv4t.Guarded
