import Mathlib.Logic.Function.Iterate
import Armv4t.Proofs.Mask
import Armv4t.Shifter

/-! # Shifting — one place after the other

    A shift by any amount is that many shifts by one place, each of which drops one bit
    into the carry and fills the place that becomes free (`ShiftKind.place`).  A shift by
    nothing leaves the carry that comes in.

    The shifter looks the bits up at once.  Where a bit of the result comes from, after
    any number of places, is the invariant (`bit_places`, by induction on the places); the
    last bit that was dropped is the bit at the end of the word one place before
    (`carry_places`).  Both together make

    * `shiftBySome_eq_places`: an amount that is not zero shifts by that many places, beyond
      the width of a word too;
    * `shift_eq_places`: so does the shifter, whatever the amount, unless it is a zero in the
      opcode;
    * `shift_opcode_eq`: what it does for an amount in the opcode, where a zero stands for
      something else;
    * `shift_is_single_places`: all of this, and that two shifts are one by both amounts. -/

namespace Armv4t

/-- A shift by one place: the bit that falls out is the carry. -/
def ShiftKind.place (kind : ShiftKind) (s : Shifted) : Shifted :=
  match kind with
  | .lsl => ⟨s.value <<< 1, bit s.value 31⟩
  | .lsr => ⟨s.value >>> 1, bit s.value 0⟩
  -- the sign stays where it is
  | .asr => ⟨(s.value >>> 1) ||| (s.value &&& 0x80000000), bit s.value 0⟩
  | .ror => ⟨(s.value >>> 1) ||| (s.value <<< 31), bit s.value 0⟩

/-! ## Bits of shifted words -/

/-- The highest bit alone. -/
theorem getLsbD_top {i : Nat} (hi : i < 32) :
    (0x80000000 : Word).toBitVec.getLsbD i = decide (i = 31) := by
  have h : ∀ i : Fin 32, (0x80000000 : Word).toBitVec.getLsbD i.val = decide (i.val = 31) := by
    decide
  exact h ⟨i, hi⟩

section Bits

variable (w : Word) {a : Word} {i : Nat}

theorem getLsbD_shiftLeft (ha : a < 32) (hi : i < 32) :
    (w <<< a).toBitVec.getLsbD i = (decide (a.toNat ≤ i) && w.toBitVec.getLsbD (i - a.toNat)) := by
  have hamount : (a.toBitVec % 32).toNat = a.toNat := Nat.mod_eq_of_lt ha
  rw [UInt32.toBitVec_shiftLeft, BitVec.shiftLeft_eq', hamount, BitVec.getLsbD_shiftLeft,
    decide_eq_true hi, Bool.true_and, ← decide_not]
  simp only [Nat.not_lt]

theorem getLsbD_shiftRight (ha : a < 32) :
    (w >>> a).toBitVec.getLsbD i = w.toBitVec.getLsbD (a.toNat + i) := by
  have hamount : (a.toBitVec % 32).toNat = a.toNat := Nat.mod_eq_of_lt ha
  rw [UInt32.toBitVec_shiftRight, BitVec.ushiftRight_eq', hamount, BitVec.getLsbD_ushiftRight]

/-- A signed shift repeats the sign. -/
theorem getLsbD_shiftSigned (ha : a < 32) (hi : i < 32) :
    ((w.toInt32 >>> a.toInt32).toUInt32).toBitVec.getLsbD i
      = w.toBitVec.getLsbD (min (a.toNat + i) 31) := by
  have hsmod : ∀ d : Fin 32, (BitVec.ofNat 32 d.val).smod 32 = BitVec.ofNat 32 d.val := by
    decide +kernel
  have hamount : a.toBitVec.smod 32 = a.toBitVec := by
    have h := hsmod ⟨a.toNat, ha⟩
    rwa [show BitVec.ofNat 32 a.toNat = a.toBitVec from BitVec.ofNat_toNat ..] at h
  rw [Int32.toBitVec_toUInt32, Int32.toBitVec_shiftRight, UInt32.toBitVec_toInt32,
    UInt32.toBitVec_toInt32, hamount, BitVec.getLsbD_sshiftRight',
    decide_eq_false (Nat.not_le.mpr hi), Bool.not_false, Bool.true_and, UInt32.toNat_toBitVec]
  by_cases hin : a.toNat + i < 32
  · rw [if_pos hin, Nat.min_eq_left (Nat.le_of_lt_succ hin)]
  · rw [if_neg hin, Nat.min_eq_right (by omega), BitVec.msb_eq_getLsbD_last]

/-- A rotation moves each bit around. -/
theorem getLsbD_rotateRight (ha : a < 32) (hi : i < 32) :
    (rotateRight w a).toBitVec.getLsbD i = w.toBitVec.getLsbD ((a.toNat + i) % 32) := by
  have hlt : a.toNat < 32 := ha
  have hback : ((32 - a).toBitVec % 32).toNat = (32 - a.toNat) % 32 := by
    show (32 - a).toNat % 32 = _
    rw [UInt32.toNat_sub_of_le _ _ (UInt32.le_of_lt ha)]
    rfl
  rw [rotateRight, UInt32.toBitVec_or, BitVec.getLsbD_or, getLsbD_shiftRight w ha,
    UInt32.toBitVec_shiftLeft, BitVec.shiftLeft_eq', hback, BitVec.getLsbD_shiftLeft,
    decide_eq_true hi, Bool.true_and]
  by_cases hin : a.toNat + i < 32
  · -- the bit has not gone around; with no places at all both halves hold it
    rw [Nat.mod_eq_of_lt hin]
    by_cases hzero : a.toNat = 0
    · rw [hzero]
      simp
    · rw [decide_eq_true (by omega), Bool.not_true, Bool.false_and, Bool.or_false]
  · rw [BitVec.getLsbD_of_ge _ _ (Nat.le_of_not_lt hin), decide_eq_false (by omega), Bool.not_false,
      Bool.true_and, Bool.false_or]
    exact congrArg _ (by omega)

end Bits

/-! ## Many places -/

namespace ShiftKind

/-- The bit at a position after some places, from the bits before them. -/
def bitAfter (kind : ShiftKind) (w : Word) (n i : Nat) : Bool :=
  match kind with
  | .lsl => decide (n ≤ i) && w.toBitVec.getLsbD (i - n)
  | .lsr => w.toBitVec.getLsbD (n + i)
  | .asr => w.toBitVec.getLsbD (min (n + i) 31)
  | .ror => w.toBitVec.getLsbD ((n + i) % 32)

/-- The position whose bit falls out next. -/
def exit : ShiftKind → Nat
  | .lsl => 31
  | .lsr | .asr | .ror => 0

variable (kind : ShiftKind) (s : Shifted) {i : Nat}

theorem bitAfter_zero (w : Word) (hi : i < 32) :
    kind.bitAfter w 0 i = w.toBitVec.getLsbD i := by
  cases kind with
  | lsl => simp [bitAfter]
  | lsr => simp [bitAfter]
  | asr => rw [bitAfter, Nat.zero_add, Nat.min_eq_left (Nat.le_of_lt_succ hi)]
  | ror => rw [bitAfter, Nat.zero_add, Nat.mod_eq_of_lt hi]

/-- One place, bit by bit. -/
theorem bit_place (hi : i < 32) :
    (kind.place s).value.toBitVec.getLsbD i = kind.bitAfter s.value 1 i := by
  have hone : (1 : Word) < 32 := by decide
  cases kind with
  | lsl => exact getLsbD_shiftLeft s.value hone hi
  | lsr => exact getLsbD_shiftRight s.value hone
  | asr =>
      rw [place, UInt32.toBitVec_or, UInt32.toBitVec_and, BitVec.getLsbD_or, BitVec.getLsbD_and,
        getLsbD_shiftRight _ hone, getLsbD_top hi]
      show (s.value.toBitVec.getLsbD (1 + i) || _) = s.value.toBitVec.getLsbD (min (1 + i) 31)
      by_cases htop : i = 31
      · rw [decide_eq_true htop, BitVec.getLsbD_of_ge _ _ (by omega), Nat.min_eq_right (by omega),
          Bool.false_or, Bool.and_true, htop]
      · rw [decide_eq_false htop, Nat.min_eq_left (by omega), Bool.and_false, Bool.or_false]
  | ror => exact getLsbD_rotateRight s.value hone hi

/-- **Where the bits come from**, by induction on the places: one place more takes the bit
    that some places have brought to the position before. -/
theorem bit_places (n : Nat) (hi : i < 32) :
    (kind.place^[n] s).value.toBitVec.getLsbD i = kind.bitAfter s.value n i := by
  induction n generalizing i with
  | zero => exact (kind.bitAfter_zero s.value hi).symm
  | succ n ih =>
      rw [Function.iterate_succ_apply', bit_place kind _ hi]
      cases kind with
      | lsl =>
          have hplaces : (decide (1 ≤ i) && decide (n ≤ i - 1)) = decide (n + 1 ≤ i) := by
            rw [← Bool.decide_and]
            exact decide_eq_decide.mpr (by omega)
          rw [bitAfter, ih (by omega), bitAfter, bitAfter, ← Bool.and_assoc, hplaces, Nat.sub_sub,
            Nat.add_comm 1 n]
      | lsr =>
          rw [bitAfter, bitAfter]
          by_cases hin : 1 + i < 32
          · rw [ih hin, bitAfter, Nat.add_assoc]
          · rw [BitVec.getLsbD_of_ge _ _ (by omega), BitVec.getLsbD_of_ge _ _ (by omega)]
      | asr =>
          rw [bitAfter, ih (by omega), bitAfter, bitAfter]
          exact congrArg _ (by omega)
      | ror =>
          rw [bitAfter, ih (Nat.mod_lt _ (by decide)), bitAfter, bitAfter]
          exact congrArg _ (by omega)

/-- The last bit that was dropped. -/
theorem carry_places (n : Nat) :
    (kind.place^[n + 1] s).carry = kind.bitAfter s.value n kind.exit := by
  have hexit : kind.exit < 32 := by cases kind <;> decide
  rw [Function.iterate_succ_apply', ← bit_places kind s n hexit]
  cases kind <;> exact bit_eq_getLsbD _ (by decide)

/-- A shifted operand is what some places make of a value where its bits and its carry
    are. -/
theorem eq_places {value : Word} {n : Nat} {carry : Bool} {s : Shifted}
    (hbit : ∀ i < 32, s.value.toBitVec.getLsbD i = kind.bitAfter value (n + 1) i)
    (hcarry : s.carry = kind.bitAfter value n kind.exit) :
    s = kind.place^[n + 1] ⟨value, carry⟩ := by
  have hvalue : s.value = (kind.place^[n + 1] ⟨value, carry⟩).value := by
    refine UInt32.toBitVec_inj.1 (BitVec.eq_of_getLsbD_eq ?_)
    intro i hi
    rw [hbit i hi, bit_places kind _ _ hi]
  have hc : s.carry = (kind.place^[n + 1] ⟨value, carry⟩).carry := by
    rw [hcarry, carry_places]
  calc s = ⟨s.value, s.carry⟩ := rfl
    _ = _ := by rw [hvalue, hc]

end ShiftKind

/-! ## The shifter -/

/-- A word of copies of the sign bit. -/
theorem getLsbD_signFill (value : Word) {i : Nat} (hi : i < 32) :
    (signFill value).value.toBitVec.getLsbD i = value.toBitVec.getLsbD 31 := by
  have hbit : bit value 31 = value.toBitVec.getLsbD 31 := bit_eq_getLsbD value (by decide)
  have hones : ∀ i : Fin 32, (0xFFFFFFFF : Word).toBitVec.getLsbD i.val = true := by decide
  rw [signFill, ← hbit]
  dsimp only
  cases bit value 31 with
  | true => exact hones ⟨i, hi⟩
  | false => exact BitVec.getLsbD_zero

section Amount

variable {value amount : Word} {n : Nat} (hn : amount.toNat = n + 1)
include hn

theorem amount_lt_iff : amount < 32 ↔ n < 31 := by
  rw [UInt32.lt_iff_toNat_lt, hn]
  exact Nat.succ_lt_succ_iff

theorem amount_eq_iff : amount = 32 ↔ n = 31 := by
  rw [← UInt32.toNat_inj, hn]
  exact Nat.succ_inj

/-- The last bit to fall out of the low end. -/
theorem bit_amount_sub_one (hlt : n < 31) :
    bit value (amount - 1) = value.toBitVec.getLsbD n := by
  have hle : (1 : Word) ≤ amount := UInt32.le_iff_toNat_le.mpr (hn ▸ Nat.le_add_left 1 n)
  have hsub : (amount - 1).toNat = n := by
    rw [UInt32.toNat_sub_of_le _ _ hle, hn]
    rfl
  have hin : amount - 1 < 32 := UInt32.lt_iff_toNat_lt.mpr (hsub ▸ Nat.lt_succ_of_lt hlt)
  rw [bit_eq_getLsbD value hin, hsub]

/-- The last bit to fall out of the high end. -/
theorem bit_sub_amount (hlt : n < 31) :
    bit value (32 - amount) = value.toBitVec.getLsbD (31 - n) := by
  have hle : amount ≤ 32 := UInt32.le_of_lt ((amount_lt_iff hn).mpr hlt)
  have hsub : (32 - amount).toNat = 31 - n := by
    rw [UInt32.toNat_sub_of_le _ _ hle, hn]
    exact Nat.succ_sub_succ 31 n
  have hin : 32 - amount < 32 :=
    UInt32.lt_iff_toNat_lt.mpr (hsub ▸ Nat.lt_succ_of_le (Nat.sub_le ..))
  rw [bit_eq_getLsbD value hin, hsub]

theorem shiftBySome_lsl (carry : Bool) :
    shiftBySome .lsl value amount = ShiftKind.lsl.place^[n + 1] ⟨value, carry⟩ := by
  refine ShiftKind.lsl.eq_places ?_ ?_
  · intro i hi
    rw [shiftBySome, ShiftKind.bitAfter]
    by_cases hlt : n < 31
    · have hamount : amount < 32 := (amount_lt_iff hn).mpr hlt
      rw [if_pos hamount, getLsbD_shiftLeft value hamount hi, hn]
    · rw [if_neg (mt (amount_lt_iff hn).mp hlt), decide_eq_false (by omega), Bool.false_and]
      split <;> exact BitVec.getLsbD_zero
  · rw [shiftBySome, ShiftKind.bitAfter, ShiftKind.exit]
    by_cases hlt : n < 31
    · rw [if_pos ((amount_lt_iff hn).mpr hlt), decide_eq_true (by omega), Bool.true_and]
      exact bit_sub_amount hn hlt
    · rw [if_neg (mt (amount_lt_iff hn).mp hlt)]
      by_cases heq : n = 31
      · rw [if_pos ((amount_eq_iff hn).mpr heq), heq]
        exact bit_eq_getLsbD value (by decide)
      · rw [if_neg (mt (amount_eq_iff hn).mp heq), decide_eq_false (by omega), Bool.false_and]

theorem shiftBySome_lsr (carry : Bool) :
    shiftBySome .lsr value amount = ShiftKind.lsr.place^[n + 1] ⟨value, carry⟩ := by
  refine ShiftKind.lsr.eq_places ?_ ?_
  · intro i hi
    rw [shiftBySome, ShiftKind.bitAfter]
    by_cases hlt : n < 31
    · have hamount : amount < 32 := (amount_lt_iff hn).mpr hlt
      rw [if_pos hamount, getLsbD_shiftRight value hamount, hn]
    · rw [if_neg (mt (amount_lt_iff hn).mp hlt), BitVec.getLsbD_of_ge value.toBitVec _ (by omega)]
      split <;> exact BitVec.getLsbD_zero
  · rw [shiftBySome, ShiftKind.bitAfter, ShiftKind.exit, Nat.add_zero]
    by_cases hlt : n < 31
    · rw [if_pos ((amount_lt_iff hn).mpr hlt)]
      exact bit_amount_sub_one hn hlt
    · rw [if_neg (mt (amount_lt_iff hn).mp hlt)]
      by_cases heq : n = 31
      · rw [if_pos ((amount_eq_iff hn).mpr heq), heq]
        exact bit_eq_getLsbD value (by decide)
      · rw [if_neg (mt (amount_eq_iff hn).mp heq), BitVec.getLsbD_of_ge _ _ (by omega)]

theorem shiftBySome_asr (carry : Bool) :
    shiftBySome .asr value amount = ShiftKind.asr.place^[n + 1] ⟨value, carry⟩ := by
  refine ShiftKind.asr.eq_places ?_ ?_
  · intro i hi
    rw [shiftBySome, ShiftKind.bitAfter]
    by_cases hlt : n < 31
    · have hamount : amount < 32 := (amount_lt_iff hn).mpr hlt
      rw [if_pos hamount, getLsbD_shiftSigned value hamount hi, hn]
    · rw [if_neg (mt (amount_lt_iff hn).mp hlt), getLsbD_signFill value hi,
        Nat.min_eq_right (by omega)]
  · rw [shiftBySome, ShiftKind.bitAfter, ShiftKind.exit, Nat.add_zero]
    by_cases hlt : n < 31
    · rw [if_pos ((amount_lt_iff hn).mpr hlt), Nat.min_eq_left (Nat.le_of_lt hlt)]
      exact bit_amount_sub_one hn hlt
    · rw [if_neg (mt (amount_lt_iff hn).mp hlt), Nat.min_eq_right (Nat.le_of_not_lt hlt)]
      exact bit_eq_getLsbD value (by decide)

/-- Only the place within the word counts for a rotation. -/
theorem shiftBySome_ror (carry : Bool) :
    shiftBySome .ror value amount = ShiftKind.ror.place^[n + 1] ⟨value, carry⟩ := by
  have hwithin : (amount &&& 31).toNat = (n + 1) % 32 := by
    rw [UInt32.toNat_and, hn]
    exact Nat.and_two_pow_sub_one_eq_mod (n + 1) 5
  have hlt : amount &&& 31 < 32 :=
    UInt32.lt_iff_toNat_lt.mpr (hwithin ▸ Nat.mod_lt _ (by decide))
  refine ShiftKind.ror.eq_places ?_ ?_
  · intro i hi
    rw [shiftBySome, ShiftKind.bitAfter, getLsbD_rotateRight value hlt hi, hwithin]
    exact congrArg _ (by omega)
  · rw [shiftBySome, ShiftKind.bitAfter, ShiftKind.exit]
    show bit (rotateRight value (amount &&& 31)) 31 = _
    rw [bit_eq_getLsbD _ (by decide)]
    refine (getLsbD_rotateRight value hlt (by decide)).trans ?_
    rw [hwithin]
    exact congrArg _ (show ((n + 1) % 32 + 31) % 32 = (n + 0) % 32 by omega)

end Amount

/-- **An amount that is not zero** shifts by that many places, wherever it comes from and
    however far it goes. -/
theorem shiftBySome_eq_places (kind : ShiftKind) (value : Word) {amount : Word}
    (h : amount ≠ 0) (carry : Bool) :
    shiftBySome kind value amount = kind.place^[amount.toNat] ⟨value, carry⟩ := by
  obtain ⟨n, hn⟩ : ∃ n, amount.toNat = n + 1 :=
    Nat.exists_eq_succ_of_ne_zero (mt (UInt32.toNat_inj (b := 0)).mp h)
  rw [hn]
  cases kind with
  | lsl => exact shiftBySome_lsl hn carry
  | lsr => exact shiftBySome_lsr hn carry
  | asr => exact shiftBySome_asr hn carry
  | ror => exact shiftBySome_ror hn carry

/-- **The shifter shifts by the amount, one place after the other**, unless the amount is a
    zero in the opcode. -/
theorem shift_eq_places (kind : ShiftKind) {source : ShiftSource} (value amount : Word)
    (carry : Bool) (h : source ≠ .opcode ∨ amount ≠ 0) :
    shift kind source value amount carry = kind.place^[amount.toNat] ⟨value, carry⟩ := by
  rw [shift]
  by_cases hzero : amount = 0
  · have hsource : source ≠ .opcode := h.resolve_right fun h => h hzero
    rw [if_pos hzero, hzero]
    cases source with
    | opcode => exact absurd rfl hsource
    | rotation | register => rfl
  · rw [if_neg hzero, shiftBySome_eq_places kind value hzero carry]

/-- One place to the right, with the carry coming in at the top. -/
def throughCarry (s : Shifted) : Shifted :=
  let moved := ShiftKind.lsr.place s
  ⟨if s.carry then moved.value ||| 0x80000000 else moved.value, moved.carry⟩

theorem rotateThroughCarry_eq (value : Word) (carry : Bool) :
    rotateThroughCarry value carry = throughCarry ⟨value, carry⟩ := by
  rw [rotateThroughCarry, throughCarry]
  cases carry with
  | false => exact congrArg (Shifted.mk · _) (UInt32.zero_or ..)
  | true => exact congrArg (Shifted.mk · _) (UInt32.or_comm ..)

/-- What a shift by five bits of the opcode does.  A zero stands for 32 places to the right
    and for one place through the carry. -/
def ShiftKind.byOpcode (kind : ShiftKind) (n : Nat) (s : Shifted) : Shifted :=
  match kind, n with
  | .lsr, 0 => ShiftKind.lsr.place^[32] s
  | .asr, 0 => ShiftKind.asr.place^[32] s
  | .ror, 0 => throughCarry s
  | kind, n => kind.place^[n] s

theorem shift_opcode_eq (kind : ShiftKind) (value amount : Word) (carry : Bool) :
    shift kind .opcode value amount carry = kind.byOpcode amount.toNat ⟨value, carry⟩ := by
  by_cases hzero : amount = 0
  · -- a shift by 32 places, as a register would ask for it
    have hfar (kind : ShiftKind) :
        shiftBySome kind value 32 = kind.place^[32] ⟨value, carry⟩ :=
      shiftBySome_eq_places kind value (by decide) carry
    rw [hzero, shift, if_pos rfl]
    cases kind with
    | lsl => rfl
    | ror => exact rotateThroughCarry_eq value carry
    | lsr => exact hfar .lsr
    | asr => exact hfar .asr
  · rw [shift_eq_places kind value amount carry (Or.inr hzero)]
    have hne : amount.toNat ≠ 0 := mt (UInt32.toNat_inj (b := 0)).mp hzero
    obtain ⟨n, hn⟩ := Nat.exists_eq_succ_of_ne_zero hne
    rw [hn]
    cases kind <;> rfl

/-! ## The law of the places -/

/-- The bits of a rotation through the carry: it comes in at the top. -/
theorem bit_rotateThroughCarry (value : Word) (carry : Bool) {i : Word} (hi : i < 32) :
    bit (rotateThroughCarry value carry).value i = if i = 31 then carry else bit value (i + 1) := by
  have hlt : i.toNat < 32 := hi
  have htop : i.toNat = 31 ↔ i = 31 := UInt32.toNat_inj (b := 31)
  have hcarry : (if carry then (0x80000000 : Word) else 0).toBitVec.getLsbD i.toNat
      = (carry && decide (i.toNat = 31)) := by
    cases carry with
    | true => exact getLsbD_top hlt
    | false => exact BitVec.getLsbD_zero
  rw [bit_eq_getLsbD _ hi, rotateThroughCarry, UInt32.toBitVec_or, BitVec.getLsbD_or, hcarry,
    getLsbD_shiftRight value (by decide)]
  show (_ || value.toBitVec.getLsbD (1 + i.toNat)) = _
  by_cases h : i = 31
  · have h31 : i.toNat = 31 := htop.mpr h
    rw [if_pos h, h31, decide_eq_true rfl, Bool.and_true, BitVec.getLsbD_of_ge _ _ (by decide),
      Bool.or_false]
  · have h31 : i.toNat ≠ 31 := mt htop.mp h
    have hnext : (i + 1).toNat = 1 + i.toNat := by
      rw [UInt32.toNat_add]
      show (i.toNat + 1) % 2 ^ 32 = _
      omega
    have hin : i + 1 < 32 := by
      rw [UInt32.lt_iff_toNat_lt, hnext]
      show 1 + i.toNat < 32
      omega
    rw [if_neg h, decide_eq_false h31, Bool.and_false, Bool.false_or, bit_eq_getLsbD _ hin, hnext]

/-- **Shifting is one place after the other**, for every amount that a word can hold, unless it
    is a zero in the opcode.  So two shifts are one shift by both amounts.  A zero in the opcode
    stands for no place to the left, for 32 places to the right with zeros or with the sign,
    and for a rotation by one place through the carry. -/
theorem shift_is_single_places (kind : ShiftKind) (value : Word) (carry : Bool) :
    (∀ source amount, source ≠ .opcode ∨ amount ≠ 0 →
        shift kind source value amount carry = kind.place^[amount.toNat] ⟨value, carry⟩)
      ∧ (∀ source m n, source ≠ .opcode ∨ m ≠ 0 ∧ n ≠ 0 → m.toNat + n.toNat < 2 ^ 32 →
        let s := shift kind source value m carry
        shift kind source s.value n s.carry = shift kind source value (m + n) carry)
      ∧ shift .lsl .opcode value 0 carry = ⟨value, carry⟩
      ∧ shift .lsr .opcode value 0 carry = ShiftKind.lsr.place^[32] ⟨value, carry⟩
      ∧ shift .asr .opcode value 0 carry = ShiftKind.asr.place^[32] ⟨value, carry⟩
      ∧ (let s := shift .ror .opcode value 0 carry
        s.carry = bit value 0
          ∧ ∀ i < 32, bit s.value i = if i = 31 then carry else bit value (i + 1)) := by
  refine ⟨?_, ?_, rfl, shift_opcode_eq .lsr value 0 carry, shift_opcode_eq .asr value 0 carry, rfl,
    ?_⟩
  · intro source amount h
    exact shift_eq_places kind value amount carry h
  · intro source m n h hlt s
    have hsum : (m + n).toNat = n.toNat + m.toNat := by
      rw [UInt32.toNat_add, Nat.mod_eq_of_lt hlt, Nat.add_comm]
    have hm : source ≠ .opcode ∨ m ≠ 0 := h.imp_right And.left
    have hn : source ≠ .opcode ∨ n ≠ 0 := h.imp_right And.right
    have hmn : source ≠ .opcode ∨ m + n ≠ 0 := by
      refine hm.imp_right fun hne hzero => hne (UInt32.toNat_inj.mp ?_)
      have htotal : (m + n).toNat = 0 := congrArg UInt32.toNat hzero
      show m.toNat = 0
      omega
    have hs : s = kind.place^[m.toNat] ⟨value, carry⟩ := shift_eq_places kind value m carry hm
    calc shift kind source s.value n s.carry
        = kind.place^[n.toNat] s := shift_eq_places kind s.value n s.carry hn
      _ = kind.place^[(m + n).toNat] ⟨value, carry⟩ := by
          rw [hs, hsum, Function.iterate_add_apply]
      _ = shift kind source value (m + n) carry :=
          (shift_eq_places kind value (m + n) carry hmn).symm
  · intro i hi
    exact bit_rotateThroughCarry value carry hi

/-- A rotation by 300 places and then by 40 goes around the word more than ten times. -/
theorem shift_is_single_places_around_the_word :
    (ShiftSource.register ≠ .opcode ∨ (300 : Word) ≠ 0)
      ∧ (ShiftSource.register ≠ .opcode ∨ (300 : Word) ≠ 0 ∧ (40 : Word) ≠ 0)
      ∧ (300 : Word).toNat + (40 : Word).toNat < 2 ^ 32
      ∧ ShiftKind.ror.place^[300] ⟨0x80000001, false⟩ = ⟨0x00180000, false⟩
      ∧ shift .ror .register 0x00180000 40 false = ⟨0x00001800, false⟩ := by
  have hsource : ShiftSource.register ≠ .opcode := by decide
  have hlt : (300 : Word).toNat + (40 : Word).toNat < 2 ^ 32 := by decide
  have hfirst : shift .ror .register 0x80000001 300 false = ⟨0x00180000, false⟩ := by decide
  obtain ⟨hplaces, hboth, -⟩ := shift_is_single_places .ror 0x80000001 false
  have htwice := hboth .register 300 40 (Or.inl hsource) hlt
  rw [hfirst] at htwice
  refine ⟨Or.inl hsource, Or.inl hsource, hlt, ?_, htwice.trans (by decide)⟩
  exact (hplaces .register 300 (Or.inl hsource)).symm.trans hfirst

end Armv4t
