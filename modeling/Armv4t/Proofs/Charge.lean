import Armv4t.Proofs.Dispatch
import Armv4t.Proofs.Internal
import Mathlib.Algebra.Order.BigOperators.Group.List
import Mathlib.Algebra.Ring.Int.Defs

/-! # The charge — what a step costs, counted without a bound

    The cycles of a step are 32-bit sums.  Counted as integers they are the cost
    of the code fetch, of every data access, of the internal cycles and, after a
    write to R15, of the two fetches that fill the pipeline.  Where every access
    costs something and the whole fits in 32 bits, no partial sum overflows: the
    cycles of the step are its charge (`cycles_eq_charge`), and at least one. -/

namespace Armv4t

/-! ## Sums that fit -/

/-- A sum of times that is not negative and fits is the sum of the numbers. -/
theorem toInt_add_of_fits {a b : Int32} (h : 0 ≤ a.toInt + b.toInt)
    (hfits : a.toInt + b.toInt < 2 ^ 31) : (a + b).toInt = a.toInt + b.toInt := by
  rw [Int32.toInt_add]
  exact Int.bmod_eq_of_le (by omega) (by omega)

/-- Four times that are not negative: where the whole fits, so does every partial sum. -/
theorem toInt_add_four {a b c d : Int32} (ha : 0 ≤ a.toInt) (hb : 0 ≤ b.toInt)
    (hc : 0 ≤ c.toInt) (hd : 0 ≤ d.toInt)
    (hfits : a.toInt + b.toInt + c.toInt + d.toInt < 2 ^ 31) :
    (a + b + c + d).toInt = a.toInt + b.toInt + c.toInt + d.toInt := by
  have hab : (a + b).toInt = a.toInt + b.toInt := toInt_add_of_fits (by omega) (by omega)
  have habc : (a + b + c).toInt = (a + b).toInt + c.toInt :=
    toInt_add_of_fits (by omega) (by omega)
  rw [toInt_add_of_fits (by omega) (by omega), habc, hab]

/-- Times that are not negative and together fit are added up without an overflow. -/
theorem toInt_sum_of_fits {ts : List Int32} (hpos : ∀ t ∈ ts, 0 ≤ t.toInt)
    (hfits : (ts.map Int32.toInt).sum < 2 ^ 31) : ts.sum.toInt = (ts.map Int32.toInt).sum := by
  induction ts with
  | nil => rfl
  | cons t ts ih =>
      have hhead := hpos t List.mem_cons_self
      have htail : ∀ u ∈ ts, 0 ≤ u.toInt := fun u hu => hpos u (List.mem_cons_of_mem t hu)
      have hrest : 0 ≤ (ts.map Int32.toInt).sum :=
        List.sum_nonneg (List.forall_mem_map.mpr htail)
      rw [List.map_cons, List.sum_cons] at hfits ⊢
      have hsum := ih htail (by omega)
      rw [List.sum_cons, toInt_add_of_fits (by omega) (by omega), hsum]

/-- A budget less a time, neither of them negative, is the difference of the numbers. -/
theorem toInt_sub_of_nonneg {a b : Int32} (ha : 0 ≤ a.toInt) (hb : 0 ≤ b.toInt) :
    (a - b).toInt = a.toInt - b.toInt := by
  have ha' := a.toInt_lt
  have hb' := b.toInt_lt
  rw [Int32.toInt_sub]
  exact Int.bmod_eq_of_le (by omega) (by omega)

variable {B : Type} [Bus B]

/-- Every access to a bus costs at least a cycle. -/
def Costly (bus : B) : Prop := ∀ sequential wide a, 1 ≤ (Bus.cost bus sequential wide a).toInt

/-- No access to a bus costs less than nothing. -/
def NonNegative (bus : B) : Prop :=
  ∀ sequential wide a, 0 ≤ (Bus.cost bus sequential wide a).toInt

theorem Costly.nonNegative {bus : B} (h : Costly bus) : NonNegative bus := by
  intro sequential wide a
  have hone := h sequential wide a
  omega

/-- The charge for the data accesses on a trail. -/
def dataCharge (bus : B) : List Activity → Int
  | [] => 0
  | .access a :: trail =>
    dataCharge bus trail + (Bus.cost bus a.sequential a.width.isWord a.address).toInt
  | .event _ :: trail => dataCharge bus trail

theorem dataCycles_access (bus : B) (a : Access) (trail : List Activity) :
    dataCycles bus (.access a :: trail)
      = dataCycles bus trail + Bus.cost bus a.sequential a.width.isWord a.address := rfl

/-- The charge for data is not negative, and the cycles are the charge where it fits;
    by induction on the trail. -/
theorem dataCycles_eq_charge {bus : B} (hc : NonNegative bus) (trail : List Activity) :
    0 ≤ dataCharge bus trail
      ∧ (dataCharge bus trail < 2 ^ 31 →
        (dataCycles bus trail).toInt = dataCharge bus trail) := by
  induction trail with
  | nil => exact ⟨Int.le_refl 0, fun _ => rfl⟩
  | cons activity trail ih =>
      obtain ⟨hnonneg, heq⟩ := ih
      cases activity with
      | event e => exact ⟨hnonneg, heq⟩
      | access a =>
          have hcost := hc a.sequential a.width.isWord a.address
          rw [dataCharge, dataCycles_access]
          refine ⟨by omega, ?_⟩
          intro hfits
          -- the older accesses fit, for this one costs no less than nothing
          have hrest := heq (by omega)
          rw [toInt_add_of_fits (by omega) (by omega), hrest]

namespace Machine

/-- A flight waits for no longer than an instruction does. -/
theorem shortWait_flight (m : Machine B) : ShortWait m.flight.internal := by
  rw [internal_flight]
  exact m.fetched.internalCycles_short m.core.aligned

/-- The charge for filling the pipeline after an instruction, if it wrote R15. -/
def refillCharge (x : Execution B) : Int :=
  if x.flushed then
    (Bus.cost x.bus false (x.core.instructionSet == .arm) x.core.pc).toInt
      + (Bus.cost x.bus true (x.core.instructionSet == .arm)
        (x.core.pc + x.core.instructionSet.size)).toInt
  else 0

/-- The charge for ending an instruction at an address. -/
def endCharge (last : Option Word) (set : InstructionSet) (pc : Word) (x : Execution B) : Int :=
  (Bus.cost x.bus (!x.scattered && last == some (pc + 2 * set.size - set.size)) (set == .arm)
      (pc + 2 * set.size)).toInt
    + dataCharge x.bus x.trail + x.internal.toInt + refillCharge x

/-- The charge for a step. -/
def charge (m : Machine B) : Int :=
  endCharge m.host.lastFetch m.core.instructionSet (m.core.instructionSet.align m.core.pc)
    m.flight

/-- Alike machines are charged the same. -/
theorem Alike.charge {m₁ m₂ : Machine B} (h : Alike m₁ m₂) : m₁.charge = m₂.charge := by
  rw [Machine.charge, Machine.charge, h.flight, h.core, h.lastFetch]

/-- The refill costs its charge where that fits. -/
theorem refill_eq_charge {x : Execution B} (hc : NonNegative x.bus) :
    0 ≤ refillCharge x ∧ (refillCharge x < 2 ^ 31 →
      (if x.flushed then (refill x.bus x.core).1 else 0).toInt = refillCharge x) := by
  have hfirst := hc false (x.core.instructionSet == .arm) x.core.pc
  have hnext := hc true (x.core.instructionSet == .arm)
    (x.core.pc + x.core.instructionSet.size)
  rw [refillCharge]
  by_cases hx : x.flushed = true
  · rw [if_pos hx, if_pos hx]
    refine ⟨by omega, ?_⟩
    intro hfits
    exact toInt_add_of_fits (by omega) hfits
  · rw [if_neg hx, if_neg hx]
    exact ⟨Int.le_refl 0, fun _ => rfl⟩

/-- Ending an instruction costs its charge where that fits. -/
theorem endCycles_eq_charge {x : Execution B} (hc : NonNegative x.bus) (hw : ShortWait x.internal)
    (last : Option Word) (set : InstructionSet) (pc : Word)
    (hfits : endCharge last set pc x < 2 ^ 31) :
    (endCycles last set pc x).toInt = endCharge last set pc x := by
  have hfetch := hc (!x.scattered && last == some (pc + 2 * set.size - set.size)) (set == .arm)
    (pc + 2 * set.size)
  obtain ⟨hdata, hdataEq⟩ := dataCycles_eq_charge hc x.trail
  obtain ⟨hrefill, hrefillEq⟩ := refill_eq_charge (x := x) hc
  obtain ⟨hwait, -⟩ := hw
  rw [endCharge] at hfits ⊢
  -- no part is negative, so each part fits where the whole does
  have hdata' := hdataEq (by omega)
  have hrefill' := hrefillEq (by omega)
  rw [← hdata', ← hrefill'] at hfits ⊢
  exact toInt_add_four (by omega) (by omega) hwait (by omega) hfits

/-- An instruction is charged for its code fetch at least. -/
theorem fetch_le_endCharge {x : Execution B} (hc : NonNegative x.bus) (hw : ShortWait x.internal)
    (last : Option Word) (set : InstructionSet) (pc : Word) :
    (Bus.cost x.bus (!x.scattered && last == some (pc + 2 * set.size - set.size)) (set == .arm)
      (pc + 2 * set.size)).toInt ≤ endCharge last set pc x := by
  have hdata := (dataCycles_eq_charge hc x.trail).1
  have hrefill := (refill_eq_charge (x := x) hc).1
  obtain ⟨hwait, -⟩ := hw
  rw [endCharge]
  omega

/-- The cycles of a step are its charge, which is not negative, where no access costs less
    than nothing and the charge fits. -/
theorem cycles_eq_charge_of_nonNegative {m : Machine B} (hc : NonNegative m.step.2.bus)
    (hfits : m.charge < 2 ^ 31) : m.step.1.toInt = m.charge ∧ 0 ≤ m.charge := by
  rw [bus_step] at hc
  have hleast := fetch_le_endCharge hc (shortWait_flight m) m.host.lastFetch
    m.core.instructionSet (m.core.instructionSet.align m.core.pc)
  rw [cycles_step]
  exact ⟨endCycles_eq_charge hc (shortWait_flight m) _ _ _ hfits,
    Int.le_trans (hc _ _ _) hleast⟩

/-- **The cycles of a step are its charge**, at least one, where every access costs a
    cycle and the charge fits. -/
theorem cycles_eq_charge {m : Machine B} (hc : Costly m.step.2.bus)
    (hfits : m.charge < 2 ^ 31) : m.step.1.toInt = m.charge ∧ 1 ≤ m.charge := by
  refine ⟨(cycles_eq_charge_of_nonNegative hc.nonNegative hfits).1, ?_⟩
  rw [bus_step] at hc
  have hleast := fetch_le_endCharge hc.nonNegative (shortWait_flight m) m.host.lastFetch
    m.core.instructionSet (m.core.instructionSet.align m.core.pc)
  exact Int.le_trans (hc _ _ _) hleast

end Machine

end Armv4t
