import Armv4t.Proofs.Arithmetic
import Armv4t.Proofs.Status

/-! # Comparisons — what the conditions say of two words

    A comparison subtracts and keeps nothing but the flags.  The flags are those of an
    exact difference (`AluOp.Meets`), and from there to the order of the operands it is one
    step each (`Flags.Compared`): Z tells equality and C the order of the natural numbers.
    The order in two's complement is in no single flag.  N is the sign of what a word holds
    of the difference, V says that this sign is the wrong one, and so N and V differ just
    where the true difference is negative.

    Every condition is a combination of these three answers (`Flags.Compared.holds_eq`).
    `AluOp.flags_tell_order` puts it together, from the operands to the condition that the
    status register satisfies. -/

namespace Armv4t

/-- What a condition says of two words that were compared. -/
def Condition.compares (cond : Condition) (a b : Word) : Bool :=
  match cond with
  | eq => a = b
  | ne => a ≠ b
  -- as natural numbers
  | cs => b ≤ a
  | cc => a < b
  | hi => b < a
  | ls => a ≤ b
  -- of the difference
  | mi => (a - b).toInt32 < 0
  | pl => 0 ≤ (a - b).toInt32
  | vs => ¬ SignedRange 32 (a.toInt32.toInt - b.toInt32.toInt)
  | vc => SignedRange 32 (a.toInt32.toInt - b.toInt32.toInt)
  -- in two's complement
  | ge => b.toInt32 ≤ a.toInt32
  | lt => a.toInt32 < b.toInt32
  | gt => b.toInt32 < a.toInt32
  | le => a.toInt32 ≤ b.toInt32
  | al => true
  | nv => false

/-- The flags that tell two words apart. -/
structure Flags.Compared (a b : Word) (f : Flags) : Prop where
  equal : f.z = true ↔ a = b
  natural : f.c = true ↔ b ≤ a
  signed : f.n = f.v ↔ b.toInt32 ≤ a.toInt32
  sign : f.n = true ↔ (a - b).toInt32 < 0
  overflow : f.v = true ↔ ¬ SignedRange 32 (a.toInt32.toInt - b.toInt32.toInt)

/-! ## From the difference to the order -/

/-- A word is zero where it holds a difference of equal words. -/
theorem eq_zero_iff_of_difference {a b r : Word}
    (h : (r.toNat : Int) = (a.toNat - b.toNat : Int) % 2 ^ 32) : r = 0 ↔ a = b := by
  have ha := a.toNat_lt
  have hb := b.toNat_lt
  rw [← UInt32.toNat_inj, ← UInt32.toNat_inj (a := a)]
  show r.toNat = 0 ↔ a.toNat = b.toNat
  omega

/-- **The wrong sign is an overflow.**  What a word holds of a difference is negative, or the
    difference is out of range, but not both, just where the difference is negative. -/
theorem sign_eq_overflow_iff {a b r : Word} {n v : Bool}
    (h : (r.toNat : Int) = (a.toNat - b.toNat : Int) % 2 ^ 32)
    (hn : n = true ↔ r.toInt32.toInt < 0)
    (hv : v = true ↔ ¬ SignedRange 32 (a.toInt32.toInt - b.toInt32.toInt)) :
    n = v ↔ b.toInt32.toInt ≤ a.toInt32.toInt := by
  have ha := a.toNat_lt
  have hb := b.toNat_lt
  have hr := r.toNat_lt
  rw [Bool.eq_iff_iff, hn, hv]
  show (_ ↔ ¬ (-2 ^ 31 ≤ _ ∧ _ < 2 ^ 31)) ↔ _
  rw [toInt_word a, toInt_word b, toInt_word r]
  split <;> split <;> split <;> omega

/-- The result of a comparison holds the difference. -/
theorem AluOp.Meets.compared {a : Word} {b : Shifted} {carry overflow : Bool} {r : AluResult}
    (h : AluOp.cmp.Meets a b carry overflow r) : r.flags.Compared a b.value := by
  have hmakes : Holds (a.toNat - b.value.toNat) (a.toInt32.toInt - b.value.toInt32.toInt)
    (0 ≤ (a.toNat - b.value.toNat : Int)) r := h.makes
  have hsub : r.value = a - b.value := by
    rw [AluOp.meets_iff.mp h]
    exact subWithCarry_value a b.value
  refine ⟨?_, ?_, ?_, ?_, hmakes.overflow⟩
  · rw [h.zero]
    exact eq_zero_iff_of_difference hmakes.value
  · rw [hmakes.carry, UInt32.le_iff_toNat_le]
    omega
  · rw [Int32.le_iff_toInt_le]
    exact sign_eq_overflow_iff hmakes.value h.sign hmakes.overflow
  · rw [h.sign, hsub, Int32.lt_iff_toInt_lt]
    rfl

/-! ## From the flags to the conditions -/

/-- **Every condition compares**, through flags that tell two words apart. -/
theorem Flags.Compared.holds_eq {a b : Word} {f : Flags} (h : f.Compared a b) (cond : Condition) :
    cond.holds f = cond.compares a b := by
  have hn : f.n = decide ((a - b).toInt32 < 0) := Bool.eq_iff_iff.mpr (by simpa using h.sign)
  have hv : f.v = decide (¬ SignedRange 32 (a.toInt32.toInt - b.toInt32.toInt)) :=
    Bool.eq_iff_iff.mpr (by simpa using h.overflow)
  have hc : f.c = decide (b ≤ a) := Bool.eq_iff_iff.mpr (by simpa using h.natural)
  have hz : f.z = decide (a = b) := Bool.eq_iff_iff.mpr (by simpa using h.equal)
  have hs : (f.n == f.v) = decide (b.toInt32 ≤ a.toInt32) :=
    Bool.eq_iff_iff.mpr (by simpa using h.signed)
  -- equal words are equal in two's complement
  have hz' : f.z = decide (a.toInt32 = b.toInt32) := by
    rw [hz, decide_eq_decide]
    constructor
    · exact congrArg UInt32.toInt32
    · intro heq
      exact (UInt32.toUInt32_toInt32 a).symm.trans
        ((congrArg Int32.toUInt32 heq).trans (UInt32.toUInt32_toInt32 b))
  cases cond with
  | eq => exact hz
  | cs => exact hc
  | mi => exact hn
  | vs => exact hv
  | ge => exact hs
  | al => rfl
  | nv => rfl
  | ne =>
      show (!f.z) = decide (a ≠ b)
      rw [hz, decide_not]
  | cc =>
      show (!f.c) = decide (a < b)
      rw [hc, ← decide_not, decide_eq_decide, UInt32.not_le]
  | pl =>
      show (!f.n) = decide (0 ≤ (a - b).toInt32)
      rw [hn, ← decide_not, decide_eq_decide, Int32.not_lt]
  | vc =>
      show (!f.v) = decide (SignedRange 32 _)
      rw [hv, ← decide_not, decide_eq_decide, Decidable.not_not]
  | lt =>
      show (!(f.n == f.v)) = decide (a.toInt32 < b.toInt32)
      rw [hs, ← decide_not, decide_eq_decide, Int32.not_le]
  | hi =>
      show (f.c && !f.z) = decide (b < a)
      rw [hc, hz, ← decide_not, ← Bool.decide_and, decide_eq_decide, UInt32.lt_iff_le_and_ne,
        ne_comm]
  | ls =>
      show (!f.c || f.z) = decide (a ≤ b)
      rw [hc, hz, ← decide_not, ← Bool.decide_or, decide_eq_decide, UInt32.not_le,
        UInt32.le_iff_lt_or_eq]
  | gt =>
      show (!f.z && (f.n == f.v)) = decide (b.toInt32 < a.toInt32)
      rw [hs, hz', ← decide_not, ← Bool.decide_and, decide_eq_decide, Int32.lt_iff_le_and_ne,
        ne_comm, and_comm]
  | le =>
      show (f.z || !(f.n == f.v)) = decide (a.toInt32 ≤ b.toInt32)
      rw [hs, hz', ← decide_not, ← Bool.decide_or, decide_eq_decide, Int32.not_le,
        Int32.le_iff_lt_or_eq, or_comm]

/-- **Flags mean what the conditions say.**  Every operation of the arithmetic unit meets its
    meaning: the exact sum or difference as far as a word can hold it, C for what it needs as
    natural numbers and V for what it needs in two's complement.  Therefore every condition
    compares the operands of a comparison, once its flags are in the status register. -/
theorem AluOp.flags_tell_order (a : Word) (b : Shifted) (carry overflow : Bool) (p : Psr) :
    (∀ op : AluOp, op.Meets a b carry overflow (op.compute a b carry overflow))
      ∧ ∀ cond : Condition,
        (p.setFlags (AluOp.cmp.compute a b carry overflow).flags).satisfies cond
          = cond.compares a b.value := by
  refine ⟨fun op => op.compute_meets a b carry overflow, ?_⟩
  intro cond
  have hcompared := (AluOp.cmp.compute_meets a b carry overflow).compared
  rw [Psr.satisfies, Psr.flags_setFlags]
  exact hcompared.holds_eq cond

/-- The lowest number in two's complement is the highest natural one but one bit: the
    difference to one overflows. -/
example :
    let f := (AluOp.cmp.compute 0x80000000 ⟨1, false⟩ false false).flags
    f = ⟨false, false, true, true⟩ ∧ Condition.hi.holds f ∧ Condition.lt.holds f := by
  decide

end Armv4t
