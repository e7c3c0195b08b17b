import Armv4t.Proofs.Timing
import Armv4t.Proofs.Turns
import Mathlib.Algebra.Order.BigOperators.Group.List

/-! # The bound of a step — and of what a run overruns its budget by

    The longest instruction loads sixteen words, R15 among them: with the code fetch and
    the two fetches that fill the pipeline it makes nineteen accesses, and waits for one
    cycle.  On mapped memory, where an access costs eighteen cycles at most, that comes
    to 343.

    * The times that a step adds up are its bill (`Machine.bill`); as no time is negative
      and the whole is small, no sum of some of them overflows, in whatever order they
      are added (`Machine.Bounded`);
    * on mapped memory every step is bounded, and so are those of a run
      (`Machine.bounded`, `Tame.after`);
    * a run therefore ends, and overruns its budget by less than the longest step
      (`Machine.run_is_bounded`). -/

namespace Armv4t

/-! ## Sums of times -/

/-- Some of the times of a sum that fits are added up without an overflow, in any order. -/
theorem toInt_sum_of_subperm {ts part : List Int32} (hpos : ∀ t ∈ ts, 0 ≤ t.toInt)
    (hfits : (ts.map Int32.toInt).sum < 2 ^ 31) (hpart : part.Subperm ts) :
    part.sum.toInt = (part.map Int32.toInt).sum := by
  refine toInt_sum_of_fits (fun t ht => hpos t (hpart.subset ht)) ?_
  -- what is left out does not make the sum smaller
  obtain ⟨sub, hperm, hsub⟩ := hpart
  have hless : (sub.map Int32.toInt).sum ≤ (ts.map Int32.toInt).sum :=
    (hsub.map Int32.toInt).sum_le_sum (List.forall_mem_map.mpr hpos)
  have hsame : (sub.map Int32.toInt).sum = (part.map Int32.toInt).sum :=
    (hperm.map Int32.toInt).sum_eq
  omega

/-! ## The longest instruction -/

/-- A block names at most sixteen registers. -/
theorem length_listed_le (list : Half) : (listed list).length ≤ 16 := by
  rw [listed]
  split
  · decide
  · exact List.length_filter_le _ Reg.all

namespace Footprint

/-- Accesses add up. -/
theorem length_charges_append (f g : Footprint) :
    (f ++ g).charges.length = f.charges.length + g.charges.length :=
  List.length_append

theorem length_charges_words (first : Bool) (a : Word) (count : Nat) :
    (words first a count).charges.length = count :=
  (List.length_map _).trans List.length_range

theorem length_charges_single (kind : TransferKind) (c : Charge) (rd : Reg) :
    (single kind c rd).charges.length = 1 := by
  cases kind <;> rfl

end Footprint

/-- A block moves sixteen words at most. -/
theorem Core.length_charges_blockFootprint_le (k : Core) (kind : TransferKind) (a : Addressing)
    (rn : Reg) (list : Half) : (k.blockFootprint kind a rn list).charges.length ≤ 16 := by
  have hlist := length_listed_le list
  have hrest : (if kind = .load then Footprint.writes (listed list)
      else .store).charges.length = 0 := by
    split <;> rfl
  rw [blockFootprint, Footprint.length_charges_append, Footprint.length_charges_words, hrest]
  exact hlist

/-- A multiply takes four cycles for its operand at most. -/
theorem significantBytes_le (operand : Word) (signed : Bool) :
    significantBytes operand signed ≤ 4 := by
  rcases significantBytes_cases operand signed with h | h | h | h <;> omega

/-- A transfer waits once at most. -/
theorem TransferKind.waits_le (kind : TransferKind) : (if kind = .load then 1 else 0) ≤ 1 := by
  split <;> decide

/-- **No instruction is longer than a load of sixteen words**, where a data access costs
    eighteen cycles at most. -/
theorem Arm.Instruction.charges_add_waits_le (i : Arm.Instruction) (k : Core) :
    18 * (i.footprint k).charges.length + i.waits k ≤ 289 := by
  cases i with
  | dataProcessing op setFlags rn rd operand =>
      have hcharges : ((dataProcessing op setFlags rn rd operand).footprint k).charges = [] := by
        rw [footprint]
        split <;> rfl
      have hwaits : (dataProcessing op setFlags rn rd operand).waits k ≤ 1 := by
        rcases operand with _ | ⟨rm, kind, _ | _⟩
        · exact Nat.zero_le 1
        · exact Nat.zero_le 1
        · exact Nat.le_refl 1
      rw [hcharges, List.length_nil]
      omega
  | multiply accumulate setFlags rd rn rs rm =>
      have hbytes := significantBytes_le (k.registers.read rs) true
      have hmore := accumulate.toNat_le
      show 18 * 0 + (significantBytes _ _ + _) ≤ 289
      omega
  | multiplyLong signed accumulate setFlags rdHigh rdLow rs rm =>
      have hbytes := significantBytes_le (k.registers.read rs) signed
      have hmore := accumulate.toNat_le
      show 18 * 0 + (significantBytes _ _ + 1 + _) ≤ 289
      omega
  | swap q rn rd rm =>
      show 18 * 2 + 1 ≤ 289
      decide
  | halfTransfer t a rn rd o =>
      have hwait := t.kind.waits_le
      rw [footprint, Footprint.length_charges_single, waits]
      omega
  | singleTransfer kind q a rn rd o =>
      have hwait := kind.waits_le
      rw [footprint, Footprint.length_charges_single, waits]
      omega
  | blockTransfer kind a s rn list =>
      have hwords := k.length_charges_blockFootprint_le kind a rn list
      have hwait := kind.waits_le
      rw [footprint, waits]
      omega
  | moveFromStatus | moveToStatus | branchExchange | branch | coprocessor | softwareInterrupt
  | undefined =>
      show 18 * 0 + 0 ≤ 289
      decide

theorem Thumb.Instruction.charges_add_waits_le (i : Thumb.Instruction) (k : Core) :
    18 * (i.footprint k).charges.length + i.waits k ≤ 289 := by
  have hsingle {kind : TransferKind} (c : Charge) (rd : Reg) :
      18 * (Footprint.single kind c rd).charges.length + (if kind = .load then 1 else 0) ≤ 289 := by
    have hwait := kind.waits_le
    rw [Footprint.length_charges_single]
    omega
  have hblock {kind : TransferKind} (a : Addressing) (rn : Reg) (list : Half) :
      18 * (k.blockFootprint kind a rn list).charges.length
        + (if kind = .load then 1 else 0) ≤ 289 := by
    have hwords := k.length_charges_blockFootprint_le kind a rn list
    have hwait := kind.waits_le
    omega
  cases i with
  | registerOp op rs rd =>
      have hwaits : (registerOp op rs rd).waits k ≤ 4 := by
        cases op with
        | mul => exact significantBytes_le (k.registers.read rd.wide) true
        | lsl | lsr | asr | ror => exact Nat.le_add_left 1 3
        | _ => exact Nat.zero_le 4
      show 18 * 0 + (registerOp op rs rd).waits k ≤ 289
      omega
  | loadLiteral rd offset => exact hsingle _ rd.wide
  | halfByRegister t ro rb rd => exact hsingle _ rd.wide
  | transferByRegister kind q ro rb rd => exact hsingle _ rd.wide
  | transferByOffset kind q offset rb rd => exact hsingle _ rd.wide
  | halfByOffset kind offset rb rd => exact hsingle _ rd.wide
  | stackTransfer kind rd offset => exact hsingle _ rd.wide
  | pushPop kind extra list => exact hblock _ Reg.sp _
  | blockTransfer kind rb list => exact hblock _ rb.wide list
  | highOp op rs rd =>
      cases op <;> exact Nat.zero_le 289
  | branchIf condition offset =>
      rw [footprint_branchIf]
      split <;> exact Nat.zero_le 289
  | longBranch second offset =>
      cases second <;> exact Nat.zero_le 289
  | _ => exact Nat.zero_le 289

theorem Fetched.charges_add_waits_le (f : Fetched) (k : Core) :
    18 * (f.footprint k).charges.length + f.waits k ≤ 289 := by
  cases f with
  | arm o => exact o.instruction.charges_add_waits_le k
  | skipped o => exact Nat.zero_le 289
  | thumb o => exact o.instruction.charges_add_waits_le k

/-! ## The bill of a step -/

variable {B : Type} [Bus B]

/-- The time that a bus takes over an access. -/
def Charge.time (bus : B) (c : Charge) : Int32 := Bus.cost bus c.sequential c.wide c.address

/-- Every access to a bus costs between one cycle and eighteen. -/
def Moderate (bus : B) : Prop := ∀ sequential wide a, InRange (Bus.cost bus sequential wide a)

/-- A bus with moderate costs that no write changes. -/
structure Tame (bus : B) : Prop where
  steady : Bus.Steady bus
  moderate : Moderate bus

/-- It stays so while a machine runs. -/
theorem Tame.after {m : Machine B} (h : Tame m.bus) (n : Nat) : Tame (m.after n).bus := by
  obtain ⟨hsame, hsteady⟩ := Machine.cost_after h.steady n
  refine ⟨hsteady, ?_⟩
  rw [Moderate, hsame]
  exact h.moderate

theorem Tame.costly {bus : B} (h : Tame bus) : Costly bus :=
  fun sequential wide a => (h.moderate sequential wide a).1

theorem MappedMemory.Coherent.tame {bus : MappedMemory} (h : bus.Coherent) : Tame bus :=
  ⟨bus.steady, cost_inRange h⟩

theorem totalCost_bounds {bus : B} (h : Moderate bus) (cs : List Charge) :
    cs.length ≤ totalCost bus cs ∧ totalCost bus cs ≤ 18 * cs.length := by
  induction cs with
  | nil => exact ⟨Int.le_refl 0, Int.le_refl 0⟩
  | cons c cs ih =>
      obtain ⟨hlow, hhigh⟩ := ih
      obtain ⟨hone, heighteen⟩ : InRange (c.time bus) := h c.sequential c.wide c.address
      have hcost : c.cost bus = (c.time bus).toInt := rfl
      rw [totalCost_cons, List.length_cons, hcost]
      omega

namespace Machine

/-- The times that a step adds up: what its instruction waits for, its code fetches and
    its data accesses. -/
def bill (m : Machine B) : List Int32 :=
  m.fetched.internalCycles m.core.aligned
    :: (m.codeCharges ++ m.footprint.charges).map (Charge.time m.bus)

/-- A step that takes one to 343 cycles, and adds them up without an overflow, whatever
    it adds first. -/
structure Bounded (m : Machine B) : Prop where
  sum : m.step.1 = m.bill.sum
  exact : ∀ part : List Int32, part.Subperm m.bill → part.sum.toInt = (part.map Int32.toInt).sum
  least : 1 ≤ m.step.1.toInt
  most : m.step.1.toInt ≤ 343

theorem length_codeCharges (m : Machine B) :
    1 ≤ m.codeCharges.length ∧ m.codeCharges.length ≤ 3 := by
  rw [codeCharges]
  split
  · exact ⟨Nat.le_add_left 1 2, Nat.le_refl 3⟩
  · exact ⟨Nat.le_refl 1, Nat.le_add_left 1 2⟩

/-- The bill comes to the cycles of the law. -/
theorem sum_bill (m : Machine B) : (m.bill.map Int32.toInt).sum = m.lawfulCycles := by
  have hwait := m.fetched.toInt_internalCycles m.core.aligned
  rw [bill, List.map_cons, List.map_map, List.sum_cons, hwait, lawfulCycles, totalCost]
  exact Int.add_comm _ _

theorem bill_nonneg {m : Machine B} (h : Moderate m.bus) : ∀ t ∈ m.bill, 0 ≤ t.toInt := by
  rw [bill, List.forall_mem_cons]
  constructor
  · rw [Fetched.toInt_internalCycles]
    exact Int.natCast_nonneg _
  · intro t ht
    obtain ⟨c, -, rfl⟩ := List.mem_map.mp ht
    exact Int.le_trans (by decide) (h c.sequential c.wide c.address).1

theorem lawfulCycles_bounds {m : Machine B} (h : Moderate m.bus) :
    1 ≤ m.lawfulCycles ∧ m.lawfulCycles ≤ 343 := by
  obtain ⟨hlow, hhigh⟩ := totalCost_bounds h (m.codeCharges ++ m.footprint.charges)
  obtain ⟨hone, hthree⟩ := m.length_codeCharges
  have hlength : 18 * m.footprint.charges.length + m.fetched.waits m.core.aligned ≤ 289 :=
    m.fetched.charges_add_waits_le m.core.aligned
  rw [List.length_append] at hlow hhigh
  rw [lawfulCycles]
  omega

/-- The charge for a step is small. -/
theorem charge_le {m : Machine B} (h : Tame m.bus) : m.charge ≤ 343 := by
  rw [charge_eq_lawfulCycles h.steady]
  exact (lawfulCycles_bounds h.moderate).2

/-- **Every step is bounded** where the costs of the bus are, and stay. -/
theorem bounded {m : Machine B} (h : Tame m.bus) : m.Bounded := by
  obtain ⟨hleast, hmost⟩ := lawfulCycles_bounds h.moderate
  have hpart {part : List Int32} (hsub : part.Subperm m.bill) :
      part.sum.toInt = (part.map Int32.toInt).sum := by
    refine toInt_sum_of_subperm (bill_nonneg h.moderate) ?_ hsub
    rw [sum_bill]
    omega
  have hwhole : m.bill.sum.toInt = m.lawfulCycles :=
    (hpart (List.Subperm.refl m.bill)).trans m.sum_bill
  have hcycles : m.step.1 = Int32.ofInt m.lawfulCycles := by
    rw [cycles_eq_ofInt_charge, charge_eq_lawfulCycles h.steady]
  have hstep : m.step.1 = m.bill.sum := by
    rw [hcycles, ← hwhole, Int32.ofInt_toInt]
  refine ⟨hstep, fun _ => hpart, ?_, ?_⟩
  · rw [hstep, hwhole]
    exact hleast
  · rw [hstep, hwhole]
    exact hmost

/-! ## The run -/

/-- **A run on mapped memory ends**, whatever its budget, its hook and its contents.
    Every instruction takes one to 343 cycles, so that the run executes no more of them
    than its budget has cycles; no time is added up or paid with an overflow; and what
    is left is a budget that was spent from the start, or falls short of nothing by less
    than the longest instruction. -/
theorem run_is_bounded {m : Machine MappedMemory} (h : m.bus.Coherent) (budget : Int32) :
    m.Bounded ∧ ∃ n ≤ budget.toInt.toNat, Runs budget m n (m.execute budget)
      ∧ (∀ k < n, (turns budget m k).2.asked.Bounded
        ∧ (turns budget m (k + 1)).1.toInt
          = (turns budget m k).1.toInt - (turns budget m k).2.asked.step.1.toInt)
      ∧ (budget ≤ 0 → (m.execute budget).1 = budget)
      ∧ (0 < budget → -343 < (m.execute budget).1.toInt ∧ (m.execute budget).1 ≤ budget) := by
  have hsteps (k : Nat) : (m.after k).Bounded := bounded (h.tame.after k)
  -- a turn takes the step of an alike machine
  have hturns (k : Nat) : (turns budget m k).2.asked.Bounded := by
    have halike := (Alike.asked (turns budget m k).2).trans (turns_alike budget m k)
    refine bounded ?_
    rw [halike.bus]
    exact h.tame.after k
  obtain ⟨n, hn, hruns⟩ : ∃ n ≤ budget.toInt.toNat, Runs budget m n (m.execute budget) :=
    exists_runs fun k _ => (hsteps k).least
  refine ⟨bounded h.tame, n, hn, hruns, ?_, ?_, ?_⟩
  · intro k hk
    have hleast := (hturns k).least
    refine ⟨hturns k, ?_⟩
    rw [turns_succ]
    exact toInt_turn (hruns.goesOn k hk) (by omega)
  · intro hspent
    -- no cycle pays for no instruction
    have hnone : n = 0 := by
      have hspent' : budget.toInt ≤ 0 := Int32.le_iff_toInt_le.mp hspent
      omega
    rw [hruns.left, hnone]
    rfl
  · intro hbudget
    constructor
    · exact hruns.neg_lt_left (budget_pos.mp hbudget) fun k => ⟨(hsteps k).least, (hsteps k).most⟩
    · exact Int32.le_iff_toInt_le.mpr (hruns.left_le fun k _ => (hsteps k).least)

/-- A cartridge at its slowest, with `LDMIA SP, {R0-R15}` for its first word and its own
    address for the sixteenth. -/
def slowBlock : Machine MappedMemory :=
  let control : WaitControl := ⟨0, 0, false, 0, false, 3, false⟩
  let block : List Byte := [0xFF, 0xFF, 0x9D, 0xE8]
  let target : List Byte := [0, 0, 0, 0x0C]
  let bus := { MappedMemory.zero control with
    cartridge := ⟨(block ++ List.replicate 56 0 ++ target).toArray⟩ }
  let m := Machine.new bus { Config.standard with resetVector := 0x0C000000 } .error
  m.write Reg.sp 0x0C000000

/-- The longest step there is takes 343 cycles, and a budget of one cycle is overrun by the
    others. -/
theorem run_is_bounded_of_block :
    slowBlock.bus.Coherent ∧ slowBlock.step.1 = 343 ∧ (slowBlock.execute 1).1 = -342
      ∧ slowBlock.Bounded ∧ ∃ n ≤ 1, Runs 1 slowBlock n (slowBlock.execute 1) := by
  have h : slowBlock.bus.Coherent := rfl
  obtain ⟨hbounded, n, hn, hruns, -⟩ := run_is_bounded h 1
  exact ⟨h, by decide +kernel, by decide +kernel, hbounded, n, hn, hruns⟩

end Machine

end Armv4t
