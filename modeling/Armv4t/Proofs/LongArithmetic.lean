import Mathlib.Tactic.LinearCombination
import Mathlib.Tactic.Ring
import Armv4t.Proofs.Arithmetic

/-! # Long arithmetic — numbers of many words, added and subtracted by their carries

    A number that is longer than a word stands in a list of words, the lowest one first.
    Two of them are added or subtracted word by word, each operation taking the carry that
    the one before it left (`AluOp.chain`).

    One link of such a chain is an exact equation between integers (`AluOp.Links`).  What
    comes in as C and what goes out as C are the same quantity, once at the lower end of the
    word and once at the upper end of it: C itself for a sum, and C less one, the borrow with
    its sign, for a difference.  So the equations of the links add up, each weighted by the
    place of its word (`Links.value_chain`, by induction on the words), and the whole chain is
    exact as well.  For V only the last word counts, and what it says of that word and of the
    carry into it holds of the whole number (`Links.overflow_chain`).

    `AluOp.chains_are_exact` states it for the three chains: a sum, a difference, and a
    difference the other way round. -/

namespace Armv4t

/-- The number that some words stand for in two's complement, the first word lowest. -/
def wordsSigned (ws : List Word) : Int :=
  if wordsValue ws < 2 ^ (32 * ws.length - 1) then wordsValue ws
  else wordsValue ws - 2 ^ (32 * ws.length)

/-- Runs an operation on the lowest words and another one on all the words above, each with
    the flags that the one before it left. -/
def AluOp.chain (op next : AluOp) : List Word → List Shifted → Flags → List Word × Flags
  | a :: as, b :: bs, f =>
    let r := op.compute a b f.c f.v
    let rest := chain next next as bs r.flags
    (r.value :: rest.1, rest.2)
  | _, _, f => ([], f)

/-! ## Numbers of many words -/

theorem pow_succ_words (n : Nat) : 2 ^ (32 * (n + 1)) = 2 ^ 32 * 2 ^ (32 * n) := by
  rw [Nat.mul_succ, Nat.add_comm, Nat.pow_add]

theorem half_succ_words (n : Nat) :
    2 ^ (32 * (n + 2) - 1) = 2 ^ 32 * 2 ^ (32 * (n + 1) - 1) := by
  rw [← Nat.pow_add]
  exact congrArg _ (by omega)

/-- The value of some words is below the power of two that they have bits for. -/
theorem wordsValue_lt (ws : List Word) : wordsValue ws < 2 ^ (32 * ws.length) := by
  induction ws with
  | nil => exact Nat.one_pos
  | cons w ws ih =>
      have hw := w.toNat_lt
      rw [List.length_cons, pow_succ_words]
      show w.toNat + 2 ^ 32 * wordsValue ws < _
      omega

/-- One word has the signed value of a word. -/
theorem wordsSigned_singleton (w : Word) : wordsSigned [w] = w.toInt32.toInt := by
  rw [toInt_word]
  rfl

/-- Only the highest word counts as a signed one. -/
theorem wordsSigned_cons (w v : Word) (ws : List Word) :
    wordsSigned (w :: v :: ws) = w.toNat + 2 ^ 32 * wordsSigned (v :: ws) := by
  have hw := w.toNat_lt
  have hhalf := half_succ_words ws.length
  have hwhole : (2 : Int) ^ (32 * (ws.length + 2)) = 2 ^ 32 * 2 ^ (32 * (ws.length + 1)) := by
    exact_mod_cast pow_succ_words (ws.length + 1)
  have hvalue : wordsValue (w :: v :: ws) = w.toNat + 2 ^ 32 * wordsValue (v :: ws) := rfl
  simp only [wordsSigned, hvalue, List.length_cons, hhalf, hwhole]
  -- the powers are large numbers that nobody has to look into
  generalize 2 ^ (32 * (ws.length + 1) - 1) = half
  generalize (2 : Int) ^ (32 * (ws.length + 1)) = whole
  split <;> split <;> omega

/-- A word below a number does not bring it out of range, or back into it. -/
theorem signedRange_cons {n : Nat} {r : Word} {z : Int} :
    SignedRange (32 * (n + 2)) (r.toNat + 2 ^ 32 * z) ↔ SignedRange (32 * (n + 1)) z := by
  have hr := r.toNat_lt
  have hhalf : (2 : Int) ^ (32 * (n + 2) - 1) = 2 ^ 32 * 2 ^ (32 * (n + 1) - 1) := by
    exact_mod_cast half_succ_words n
  rw [SignedRange, SignedRange, hhalf]
  omega

/-! ## One link -/

/-- An operation that takes a carry from the word below and leaves one to the word above.  Its
    operands count with the signs `σ` and `τ`, and a carry counts as far as it is from the one
    that changes nothing. -/
structure AluOp.Links (op : AluOp) (σ τ : Int) (still : Bool) : Prop where
  exact : ∀ a b carry overflow,
    let r := op.compute a b carry overflow
    r.value.toNat + 2 ^ 32 * (bitValue r.flags.c - bitValue still)
      = σ * a.toNat + τ * b.value.toNat + (bitValue carry - bitValue still)
  overflow : ∀ a b carry overflow,
    (op.compute a b carry overflow).flags.v = true
      ↔ ¬ SignedRange 32 (σ * a.toInt32.toInt + τ * b.value.toInt32.toInt
          + (bitValue carry - bitValue still))

theorem bitValue_of_iff {c : Bool} {P : Prop} [Decidable P] (h : c = true ↔ P) :
    bitValue c = if P then 1 else 0 := by
  rw [bitValue]
  exact if_congr h rfl rfl

/-- A carry counts for nothing or for one. -/
theorem bitValue_bounds (c : Bool) : 0 ≤ bitValue c ∧ bitValue c ≤ 1 := by
  cases c <;> decide

namespace Holds

variable {natural signed : Int} {r : AluResult}

/-- The carry of a sum is the part of it that a word cannot hold. -/
theorem sum_eq (h : Holds natural signed (2 ^ 32 ≤ natural) r) (hle : 0 ≤ natural)
    (hlt : natural < 2 * 2 ^ 32) :
    r.value.toNat + 2 ^ 32 * (bitValue r.flags.c - bitValue false) = natural := by
  have hvalue := h.value
  rw [bitValue_of_iff h.carry]
  show _ + 2 ^ 32 * (_ - 0) = _
  split <;> omega

/-- The borrow of a difference is what it falls below zero by. -/
theorem difference_eq (h : Holds natural signed (0 ≤ natural) r) (hle : -2 ^ 32 ≤ natural)
    (hlt : natural < 2 ^ 32) :
    r.value.toNat + 2 ^ 32 * (bitValue r.flags.c - bitValue true) = natural := by
  have hvalue := h.value
  rw [bitValue_of_iff h.carry]
  show _ + 2 ^ 32 * (_ - 1) = _
  split <;> omega

end Holds

namespace AluOp

/-- ADC adds, and carries where the sum does not fit. -/
theorem adc_links : adc.Links 1 1 false := by
  have hform (x y : Int) (c : Bool) :
      x + y + bitValue c = 1 * x + 1 * y + (bitValue c - bitValue false) := by
    show _ = 1 * x + 1 * y + (_ - 0)
    omega
  refine ⟨?_, ?_⟩
  · intro a b carry overflow r
    have ha := a.toNat_lt
    have hb := b.value.toNat_lt
    have hcarry := bitValue_bounds carry
    rw [← hform]
    exact (sums_addWithCarry a b.value carry).sum_eq (by omega) (by omega)
  · intro a b carry overflow
    rw [← hform]
    exact (sums_addWithCarry a b.value carry).overflow

/-- SBC subtracts, and carries where it does not borrow. -/
theorem sbc_links : sbc.Links 1 (-1) true := by
  have hform (x y : Int) (c : Bool) :
      x - y - (1 - bitValue c) = 1 * x + -1 * y + (bitValue c - bitValue true) := by
    show _ = 1 * x + -1 * y + (_ - 1)
    omega
  refine ⟨?_, ?_⟩
  · intro a b carry overflow r
    have ha := a.toNat_lt
    have hb := b.value.toNat_lt
    have hcarry := bitValue_bounds carry
    rw [← hform]
    exact (differs_subWithCarry a b.value carry).difference_eq (by omega) (by omega)
  · intro a b carry overflow
    rw [← hform]
    exact (differs_subWithCarry a b.value carry).overflow

theorem Links.flip {op op' : AluOp} {σ τ : Int} {still : Bool} (h : op.Links σ τ still)
    (hop : ∀ a b carry overflow, op'.compute a b carry overflow
      = op.compute b.value ⟨a, b.carry⟩ carry overflow) : op'.Links τ σ still := by
  refine ⟨?_, ?_⟩
  · intro a b carry overflow r
    have hexact := h.exact b.value ⟨a, b.carry⟩ carry overflow
    rw [← hop] at hexact
    rw [Int.add_comm (τ * _)]
    exact hexact
  · intro a b carry overflow
    rw [hop, Int.add_comm (τ * _)]
    exact h.overflow b.value ⟨a, b.carry⟩ carry overflow

/-- RSC subtracts the other way round. -/
theorem rsc_links : rsc.Links (-1) 1 true := sbc_links.flip fun _ _ _ _ => rfl

/-! ## The whole chain -/

variable {op next : AluOp} {σ τ : Int} {still : Bool}

theorem length_chain {xs : List Word} {ys : List Shifted} (f : Flags)
    (h : xs.length = ys.length) : (op.chain next xs ys f).1.length = xs.length := by
  induction xs generalizing op ys f with
  | nil => rfl
  | cons a as ih =>
      cases ys with
      | nil => exact nomatch h
      | cons b bs => exact congrArg (· + 1) (ih _ (Nat.succ.inj h))

/-- **The links of a chain add up**, by induction on the words: the carry between two of them
    is in both equations, and goes away. -/
theorem Links.value_chain (h : op.Links σ τ still) {xs : List Word} {ys : List Shifted}
    (f : Flags) (hlength : xs.length = ys.length) :
    let r := op.chain op xs ys f
    wordsValue r.1 + 2 ^ (32 * xs.length) * (bitValue r.2.c - bitValue still)
      = σ * wordsValue xs + τ * wordsValue (ys.map Shifted.value)
        + (bitValue f.c - bitValue still) := by
  induction xs generalizing ys f with
  | nil =>
      cases ys with
      | nil => simp [chain, wordsValue]
      | cons b bs => exact nomatch hlength
  | cons a as ih =>
      cases ys with
      | nil => exact nomatch hlength
      | cons b bs =>
          let r := op.compute a b f.c f.v
          have hlink := h.exact a b f.c f.v
          have hrest := ih r.flags (Nat.succ.inj hlength)
          have hpow : (2 : Int) ^ (32 * (as.length + 1)) = 2 ^ 32 * 2 ^ (32 * as.length) := by
            exact_mod_cast pow_succ_words as.length
          simp only [chain, wordsValue, List.map_cons, List.length_cons, hpow, Nat.cast_add,
            Nat.cast_mul, Nat.cast_pow, Nat.cast_ofNat]
          linear_combination hlink + 2 ^ 32 * hrest

/-- **Only the highest words can overflow**: below them, a word of the result is what is left
    when the carry has been taken out. -/
theorem Links.overflow_chain (h : op.Links σ τ still) (a : Word) (as : List Word) (b : Shifted)
    (bs : List Shifted) (f : Flags) (hlength : as.length = bs.length) :
    (op.chain op (a :: as) (b :: bs) f).2.v = true
      ↔ ¬ SignedRange (32 * (as.length + 1)) (σ * wordsSigned (a :: as)
          + τ * wordsSigned ((b :: bs).map Shifted.value) + (bitValue f.c - bitValue still)) := by
  induction as generalizing a b bs f with
  | nil =>
      cases bs with
      | nil =>
          show (op.compute a b f.c f.v).flags.v = true ↔ _
          rw [h.overflow, List.map_singleton, wordsSigned_singleton, wordsSigned_singleton]
          rfl
      | cons b' bs => exact nomatch hlength
  | cons a' as ih =>
      cases bs with
      | nil => exact nomatch hlength
      | cons b' bs =>
          let r := op.compute a b f.c f.v
          have hlink := h.exact a b f.c f.v
          have hrest := ih a' b' bs r.flags (Nat.succ.inj hlength)
          have hsum : σ * wordsSigned (a :: a' :: as)
              + τ * wordsSigned ((b :: b' :: bs).map Shifted.value)
              + (bitValue f.c - bitValue still)
              = r.value.toNat + 2 ^ 32 * (σ * wordsSigned (a' :: as)
                + τ * wordsSigned ((b' :: bs).map Shifted.value)
                + (bitValue r.flags.c - bitValue still)) := by
            rw [List.map_cons, List.map_cons, wordsSigned_cons, wordsSigned_cons]
            linear_combination -hlink
          rw [hsum, List.length_cons, signedRange_cons]
          exact hrest

/-- A chain that begins with the carry that changes nothing. -/
theorem Links.exact_chain (h : next.Links σ τ still) (op : AluOp)
    (hstart : ∀ a b carry overflow,
      op.compute a b carry overflow = next.compute a b still overflow)
    {xs : List Word} {ys : List Shifted} (hlength : xs.length = ys.length) (hne : xs ≠ [])
    (f : Flags) :
    let r := op.chain next xs ys f
    (wordsValue r.1 + 2 ^ (32 * xs.length) * (bitValue r.2.c - bitValue still)
        = σ * wordsValue xs + τ * wordsValue (ys.map Shifted.value))
      ∧ (r.2.v = true ↔ ¬ SignedRange (32 * xs.length)
          (σ * wordsSigned xs + τ * wordsSigned (ys.map Shifted.value))) := by
  obtain ⟨a, as, rfl⟩ := List.exists_cons_of_ne_nil hne
  cases ys with
  | nil => exact nomatch hlength
  | cons b bs =>
      let g : Flags := { f with c := still }
      have hzero : bitValue g.c - bitValue still = 0 := Int.sub_self _
      have hchain : op.chain next (a :: as) (b :: bs) f
          = next.chain next (a :: as) (b :: bs) g := by
        rw [chain, chain, hstart]
      have hvalue := h.value_chain g hlength
      have hoverflow := h.overflow_chain a as b bs g (Nat.succ.inj hlength)
      rw [hzero, Int.add_zero] at hvalue hoverflow
      rw [hchain]
      exact ⟨hvalue, hoverflow⟩

end AluOp

/-! ## Sums and differences -/

/-- Some words and flags are the sum of two long numbers. -/
structure LongSum (xs ys : List Word) (r : List Word × Flags) : Prop where
  length : r.1.length = xs.length
  value : wordsValue r.1 + r.2.c.toNat * 2 ^ (32 * xs.length) = wordsValue xs + wordsValue ys
  overflow : r.2.v = true
    ↔ ¬ SignedRange (32 * xs.length) (wordsSigned xs + wordsSigned ys)

/-- Some words and flags are the difference of two long numbers, as far as the words reach. -/
structure LongDifference (xs ys : List Word) (r : List Word × Flags) : Prop where
  length : r.1.length = xs.length
  value : (wordsValue r.1 : Int) = (wordsValue xs - wordsValue ys) % 2 ^ (32 * xs.length)
  carry : r.2.c = true ↔ wordsValue ys ≤ wordsValue xs
  overflow : r.2.v = true
    ↔ ¬ SignedRange (32 * xs.length) (wordsSigned xs - wordsSigned ys)

/-- The borrow of a difference tells the order of the numbers. -/
theorem LongDifference.of_exact {xs ys : List Word} {r : List Word × Flags}
    (hlength : r.1.length = xs.length)
    (hvalue : wordsValue r.1 + 2 ^ (32 * xs.length) * (bitValue r.2.c - bitValue true)
      = (wordsValue xs - wordsValue ys : Int))
    (hoverflow : r.2.v = true
      ↔ ¬ SignedRange (32 * xs.length) (wordsSigned xs - wordsSigned ys)) :
    LongDifference xs ys r := by
  have hlt : (wordsValue r.1 : Int) < 2 ^ (32 * xs.length) := by
    exact_mod_cast hlength ▸ wordsValue_lt r.1
  refine ⟨hlength, ?_, ?_, hoverflow⟩
  · rw [← hvalue, Int.add_mul_emod_self_left]
    exact (Int.emod_eq_of_lt (Int.natCast_nonneg _) hlt).symm
  · cases hc : r.2.c with
    | true =>
        -- nothing was borrowed
        rw [hc, Int.sub_self, Int.mul_zero] at hvalue
        exact iff_of_true rfl (by omega)
    | false =>
        rw [hc] at hvalue
        have hborrow : wordsValue r.1 - 2 ^ (32 * xs.length)
            = (wordsValue xs - wordsValue ys : Int) := by
          rw [← hvalue]
          show _ = _ + _ * (0 - 1)
          ring
        exact iff_of_false Bool.false_ne_true (by omega)

/-- **Chains of additions and subtractions are exact**, for numbers of any number of words.
    `ADD` and then `ADC` give the sum, with the last carry above its highest word.  `SUB` and
    then `SBC` give the difference as far as the words reach, and the last carry tells that
    nothing was borrowed, which is the order of the two numbers; `RSB` and then `RSC` do it
    the other way round.  The last V tells that the result is out of range for as many words
    in two's complement. -/
theorem AluOp.chains_are_exact {xs : List Word} {ys : List Shifted}
    (hlength : xs.length = ys.length) (hne : xs ≠ []) (f : Flags) :
    LongSum xs (ys.map Shifted.value) (add.chain adc xs ys f)
      ∧ LongDifference xs (ys.map Shifted.value) (sub.chain sbc xs ys f)
      ∧ LongDifference (ys.map Shifted.value) xs (rsb.chain rsc xs ys f) := by
  have hmap : (ys.map Shifted.value).length = xs.length := (List.length_map _).trans hlength.symm
  refine ⟨?_, ?_, ?_⟩
  · obtain ⟨hvalue, hoverflow⟩ :=
      adc_links.exact_chain add (fun _ _ _ _ => rfl) hlength hne f
    rw [Int.one_mul, Int.one_mul] at hvalue hoverflow
    have hbit (c : Bool) : bitValue c - bitValue false = (c.toNat : Int) := by
      cases c <;> rfl
    rw [hbit, Int.mul_comm] at hvalue
    exact ⟨length_chain f hlength, by exact_mod_cast hvalue, hoverflow⟩
  · obtain ⟨hvalue, hoverflow⟩ :=
      sbc_links.exact_chain sub (fun _ _ _ _ => rfl) hlength hne f
    have hform (x y : Int) : 1 * x + -1 * y = x - y := by ring
    rw [hform] at hvalue hoverflow
    exact .of_exact (length_chain f hlength) hvalue hoverflow
  · obtain ⟨hvalue, hoverflow⟩ :=
      rsc_links.exact_chain rsb (fun _ _ _ _ => rfl) hlength hne f
    have hform (x y : Int) : -1 * x + 1 * y = y - x := by ring
    rw [hform, ← hmap] at hvalue hoverflow
    exact .of_exact ((length_chain f hlength).trans hmap.symm) hvalue hoverflow

/-- Numbers of 96 bits: in the sum the two lower words wrap and pass a carry on, and the highest
    one is out of range; the difference the other way round wraps, and is in range. -/
theorem AluOp.chains_are_exact_of_three_words :
    let xs : List Word := [0xFFFFFFFF, 0xFFFFFFFF, 0x7FFFFFFF]
    let ys : List Shifted := [⟨1, true⟩, ⟨0, false⟩, ⟨0, true⟩]
    xs.length = ys.length ∧ xs ≠ []
      ∧ LongSum xs [1, 0, 0] ([0, 0, 0x80000000], ⟨true, false, false, true⟩)
      ∧ LongDifference [1, 0, 0] xs ([2, 0, 0x80000000], ⟨true, false, false, false⟩) := by
  intro xs ys
  let f : Flags := ⟨false, false, true, false⟩
  have hlength : xs.length = ys.length := rfl
  have hne : xs ≠ [] := List.cons_ne_nil _ _
  have hsum : add.chain adc xs ys f = ([0, 0, 0x80000000], ⟨true, false, false, true⟩) := by
    decide +kernel
  have hreversed : rsb.chain rsc xs ys f = ([2, 0, 0x80000000], ⟨true, false, false, false⟩) := by
    decide +kernel
  obtain ⟨hlong, -, hback⟩ := chains_are_exact hlength hne f
  rw [hsum] at hlong
  rw [hreversed] at hback
  exact ⟨hlength, hne, hlong, hback⟩

end Armv4t
