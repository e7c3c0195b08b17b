import Armv4t.Memory.Flat
import Armv4t.Proofs.Charge
import Armv4t.Proofs.Footprint
import Armv4t.Proofs.Rom
import Armv4t.Proofs.WaitStates
import Mathlib.Data.Nat.Find

/-! # The timing law — what a step takes, on any bus

    A step takes the cycles of its code fetch, of its data accesses, the internal cycles
    of its instruction, and, if the instruction wrote R15, those of the two fetches that
    fill the pipeline.  Each part is known from the instruction and the core it starts
    from, the refill from the core it leaves:

    * the code fetch is two slots ahead, and sequential where the last one was a slot
      nearer and the instruction does not store (`Machine.fetchCharge`);
    * the data accesses are those of the footprint;
    * the multiplier takes one cycle for each byte of its operand up to where the rest
      is sign or nothing (`significantBytes`), and everything else a fixed number;
    * the whole is a plain sum of numbers (`Machine.lawfulCycles`), which the cycles of
      the step are wherever it fits in 32 bits (`Machine.step_takes_its_charges`). -/

namespace Armv4t

/-! ## The multiplier -/

/-- The bits above some of the lowest bytes are all clear or, where a sign counts, all
    set. -/
def Settled (operand : Word) (signed : Bool) (bytes : Nat) : Prop :=
  (∀ i : Fin 32, 8 * bytes ≤ i.val → operand.toBitVec.getLsbD i = false)
    ∨ signed = true ∧ ∀ i : Fin 32, 8 * bytes ≤ i.val → operand.toBitVec.getLsbD i = true

instance (operand : Word) (signed : Bool) (bytes : Nat) :
    Decidable (Settled operand signed bytes) :=
  inferInstanceAs (Decidable (_ ∨ _))

/-- Nothing is left above the fourth byte. -/
theorem settled_four (operand : Word) (signed : Bool) : Settled operand signed 4 := by
  refine Or.inl ?_
  intro i hi
  have hlt := i.isLt
  omega

theorem exists_settled (operand : Word) (signed : Bool) :
    ∃ bytes, 1 ≤ bytes ∧ Settled operand signed bytes :=
  ⟨4, by decide, settled_four operand signed⟩

/-- The least number of bytes, one at least, above which an operand is settled. -/
def significantBytes (operand : Word) (signed : Bool) : Nat :=
  Nat.find (exists_settled operand signed)

/-- The test of the multiplier, by the mask of the bytes above. -/
theorem settled_iff_mask (operand : Word) (signed : Bool) (mask : Word) (bytes : Nat)
    (hmask : ∀ i : Fin 32, mask.toBitVec.getLsbD i = decide (8 * bytes ≤ i.val)) :
    (operand &&& mask == 0 || (signed && operand &&& mask == mask)) = true
      ↔ Settled operand signed bytes := by
  have hclear := and_mask_eq_iff operand 0 mask
  have hset := and_mask_eq_iff operand 0xFFFFFFFF mask
  have hones : (0xFFFFFFFF : Word) &&& mask = mask := by
    rw [show (0xFFFFFFFF : Word) = -1 from rfl, UInt32.neg_one_and]
  have hzero : ∀ i : Fin 32, (0 : Word).toBitVec.getLsbD i = false := by decide
  have hone : ∀ i : Fin 32, (0xFFFFFFFF : Word).toBitVec.getLsbD i = true := by decide
  rw [UInt32.zero_and] at hclear
  rw [hones] at hset
  simp only [hmask, decide_eq_true_eq, hzero, hone] at hclear hset
  rw [Bool.or_eq_true, Bool.and_eq_true, beq_iff_eq, beq_iff_eq, hclear, hset]
  exact Iff.rfl

/-- **The multiplier takes a cycle for each significant byte.** -/
theorem multiplierCycles_eq (operand : Word) (signed : Bool) :
    multiplierCycles operand signed = Int32.ofNat (significantBytes operand signed) := by
  have one := settled_iff_mask operand signed 0xFFFFFF00 1 (by decide)
  have two := settled_iff_mask operand signed 0xFFFF0000 2 (by decide)
  have three := settled_iff_mask operand signed 0xFF000000 3 (by decide)
  -- the multiplier tests one byte after the other, and stops at the first that settles it
  have least {n : Nat} (hn : 1 ≤ n ∧ Settled operand signed n)
      (hless : ∀ k < n, 1 ≤ k → ¬ Settled operand signed k) :
      significantBytes operand signed = n :=
    (Nat.find_eq_iff _).mpr ⟨hn, fun k hk h => hless k hk h.1 h.2⟩
  simp only [multiplierCycles]
  by_cases h1 : Settled operand signed 1
  · rw [if_pos (one.mpr h1), least ⟨by decide, h1⟩ (by omega)]
    rfl
  rw [if_neg (mt one.mp h1)]
  by_cases h2 : Settled operand signed 2
  · have hless : ∀ k < 2, 1 ≤ k → ¬ Settled operand signed k := by
      intro k hk hk'
      obtain rfl : k = 1 := by omega
      exact h1
    rw [if_pos (two.mpr h2), least ⟨by decide, h2⟩ hless]
    rfl
  rw [if_neg (mt two.mp h2)]
  by_cases h3 : Settled operand signed 3
  · have hless : ∀ k < 3, 1 ≤ k → ¬ Settled operand signed k := by
      intro k hk hk'
      obtain rfl | rfl : k = 1 ∨ k = 2 := by omega
      · exact h1
      · exact h2
    rw [if_pos (three.mpr h3), least ⟨by decide, h3⟩ hless]
    rfl
  rw [if_neg (mt three.mp h3)]
  have hless : ∀ k < 4, 1 ≤ k → ¬ Settled operand signed k := by
    intro k hk hk'
    obtain rfl | rfl | rfl : k = 1 ∨ k = 2 ∨ k = 3 := by omega
    · exact h1
    · exact h2
    · exact h3
  rw [least ⟨by decide, settled_four operand signed⟩ hless]
  rfl

/-- There are one to four significant bytes. -/
theorem significantBytes_cases (operand : Word) (signed : Bool) :
    significantBytes operand signed = 1 ∨ significantBytes operand signed = 2
      ∨ significantBytes operand signed = 3 ∨ significantBytes operand signed = 4 := by
  have hone : 1 ≤ significantBytes operand signed :=
    (Nat.find_spec (exists_settled operand signed)).1
  have hfour : significantBytes operand signed ≤ 4 :=
    Nat.find_le ⟨by decide, settled_four operand signed⟩
  omega

/-- A multiply takes a cycle or two more than its operand, as numbers too. -/
theorem toInt_multiplierCycles_add (operand : Word) (signed accumulate : Bool) (n : Fin 2) :
    (multiplierCycles operand signed + Int32.ofNat (n.val + accumulate.toNat)).toInt
      = significantBytes operand signed + n.val + accumulate.toNat := by
  rw [multiplierCycles_eq]
  rcases significantBytes_cases operand signed with h | h | h | h <;> rw [h] <;>
    revert n accumulate <;> decide

/-! ## Internal cycles as numbers -/

/-- The internal cycles of an instruction of the 32-bit set. -/
def Arm.Instruction.waits (k : Core) : Arm.Instruction → Nat
  | .dataProcessing _ _ _ _ (.shifted _ _ (.register _)) => 1
  | .multiply accumulate _ _ _ rs _ =>
    significantBytes (k.registers.read rs) true + accumulate.toNat
  | .multiplyLong signed accumulate _ _ _ rs _ =>
    significantBytes (k.registers.read rs) signed + 1 + accumulate.toNat
  | .swap .. => 1
  | .halfTransfer t .. => if t.kind = .load then 1 else 0
  | .singleTransfer kind .. | .blockTransfer kind .. => if kind = .load then 1 else 0
  | _ => 0

/-- The internal cycles of an instruction of the 16-bit set; a multiply takes them by
    its old destination. -/
def Thumb.Instruction.waits (k : Core) : Thumb.Instruction → Nat
  | .registerOp .mul _ rd => significantBytes (k.registers.read rd.wide) true
  | .registerOp .lsl .. | .registerOp .lsr .. | .registerOp .asr .. | .registerOp .ror .. => 1
  | .loadLiteral .. => 1
  | .halfByRegister t .. => if t.kind = .load then 1 else 0
  | .transferByRegister kind .. | .transferByOffset kind .. | .halfByOffset kind ..
  | .stackTransfer kind .. | .pushPop kind .. | .blockTransfer kind .. =>
    if kind = .load then 1 else 0
  | _ => 0

/-- The internal cycles of an instruction as it was fetched. -/
def Fetched.waits (k : Core) : Fetched → Nat
  | .arm o => o.instruction.waits k
  | .skipped _ => 0
  | .thumb o => o.instruction.waits k

theorem Arm.Instruction.toInt_internalCycles (i : Arm.Instruction) (k : Core) :
    (i.internalCycles k).toInt = i.waits k := by
  cases i with
  | dataProcessing op setFlags rn rd operand =>
      cases operand with
      | immediate i => rfl
      | shifted rm kind amount => cases amount <;> rfl
  | multiply accumulate setFlags rd rn rs rm =>
      have h := toInt_multiplierCycles_add (k.registers.read rs) true accumulate 0
      cases accumulate <;> exact h
  | multiplyLong signed accumulate setFlags rdHigh rdLow rs rm =>
      have h := toInt_multiplierCycles_add (k.registers.read rs) signed accumulate 1
      cases accumulate <;> exact h
  | halfTransfer t a rn rd o => cases t <;> rfl
  | singleTransfer kind q a rn rd o => cases kind <;> rfl
  | blockTransfer kind a s rn list => cases kind <;> rfl
  | _ => rfl

theorem Thumb.Instruction.toInt_internalCycles (i : Thumb.Instruction) (k : Core) :
    (i.internalCycles k).toInt = i.waits k := by
  cases i with
  | registerOp op rs rd =>
      cases op with
      | mul =>
          have h := toInt_multiplierCycles_add (k.registers.read rd.wide) true false 0
          rw [show Int32.ofNat ((0 : Fin 2).val + false.toNat) = 0 from rfl, Int32.add_zero] at h
          exact h
      | _ => rfl
  | halfByRegister t ro rb rd => cases t <;> rfl
  | transferByRegister kind => cases kind <;> rfl
  | transferByOffset kind => cases kind <;> rfl
  | halfByOffset kind => cases kind <;> rfl
  | stackTransfer kind => cases kind <;> rfl
  | pushPop kind => cases kind <;> rfl
  | blockTransfer kind => cases kind <;> rfl
  | _ => rfl

theorem Fetched.toInt_internalCycles (f : Fetched) (k : Core) :
    (f.internalCycles k).toInt = f.waits k := by
  cases f with
  | arm o => exact o.instruction.toInt_internalCycles k
  | skipped o => rfl
  | thumb o => exact o.instruction.toInt_internalCycles k

/-! ## The charge, by the instruction -/

variable {B : Type} [Bus B]

/-- What a bus charges for an access. -/
def Charge.cost (bus : B) (c : Charge) : Int :=
  (Bus.cost bus c.sequential c.wide c.address).toInt

/-- What a bus charges for some accesses together. -/
def totalCost (bus : B) (cs : List Charge) : Int := (cs.map (·.cost bus)).sum

theorem totalCost_cons (bus : B) (c : Charge) (cs : List Charge) :
    totalCost bus (c :: cs) = c.cost bus + totalCost bus cs := by
  rw [totalCost, List.map_cons, List.sum_cons]
  rfl

theorem totalCost_append (bus : B) (cs ds : List Charge) :
    totalCost bus (cs ++ ds) = totalCost bus cs + totalCost bus ds := by
  rw [totalCost, List.map_append, List.sum_append]
  rfl

/-- Buses that charge alike charge alike for accesses together. -/
theorem totalCost_congr {C : Type} [Bus C] {b : B} {c : C} (h : Bus.cost b = Bus.cost c)
    (cs : List Charge) : totalCost b cs = totalCost c cs := by
  simp only [totalCost, Charge.cost, h]

/-- The charge for the data on a trail is the cost of its accesses together. -/
theorem dataCharge_eq_totalCost (bus : B) (x : Execution B) :
    dataCharge bus x.trail = totalCost bus x.footprint.charges := by
  have h (trail : List Activity) : dataCharge bus trail
      = totalCost bus ({ x with trail }.accesses.map Access.charge) := by
    induction trail with
    | nil => rfl
    | cons activity trail ih =>
        cases activity with
        | event e => rw [x.accesses_event, dataCharge, ih]
        | access a =>
            have hone : totalCost bus [a.charge]
                = (Bus.cost bus a.sequential a.width.isWord a.address).toInt :=
              (totalCost_cons bus a.charge []).trans (Int.add_zero _)
            rw [x.accesses_access, List.map_append, List.map_cons, List.map_nil,
              totalCost_append, dataCharge, ih, hone]
  exact h x.trail

/-- The cycles of the data accesses are the charge for them, counted in 32 bits. -/
theorem dataCycles_eq_ofInt (bus : B) (trail : List Activity) :
    dataCycles bus trail = Int32.ofInt (dataCharge bus trail) := by
  induction trail with
  | nil => rfl
  | cons activity trail ih =>
      cases activity with
      | event e => exact ih
      | access a =>
          rw [dataCycles_access, dataCharge, Int32.ofInt_add, ih, Int32.ofInt_toInt]

/-! ## Memories that keep their costs -/

theorem FlatMemory.steady (m : FlatMemory) : Bus.Steady m := by
  refine Bus.steady_of_write ?_ m
  intro m width a v
  have hpoke (bs : List Byte) : Bus.cost (m.pokeBytes a bs) = Bus.cost m := by
    induction bs generalizing m a with
    | nil => rfl
    | cons b bs ih => exact ih (m.poke a b) (a + 1)
  exact hpoke (bytesOf width v)

theorem Metered.steady (m : Metered) : Bus.Steady m :=
  Bus.steady_of_write (fun _ _ _ _ => rfl) m

/-! ## The law -/

namespace Machine

/-- The cycles of a step are its charge, counted in 32 bits. -/
theorem cycles_eq_ofInt_charge (m : Machine B) : m.step.1 = Int32.ofInt m.charge := by
  rw [cycles_step, charge, endCycles, endCharge, refillCharge, dataCycles_eq_ofInt]
  simp only [Int32.ofInt_add, Int32.ofInt_toInt]
  congr 1
  split
  · rw [Int32.ofInt_add, Int32.ofInt_toInt, Int32.ofInt_toInt]
    rfl
  · rfl

/-- The footprint of the next instruction. -/
def footprint (m : Machine B) : Footprint := m.fetched.footprint m.core.aligned

/-- The code fetch that a step is charged for, two slots ahead. -/
def fetchCharge (m : Machine B) : Charge :=
  let pc := m.core.instructionSet.align m.core.pc
  let size := m.core.instructionSet.size
  { sequential := !m.fetched.stores && m.host.lastFetch == some (pc + size)
    wide := m.core.instructionSet == .arm
    address := pc + 2 * size }

/-- The fetches that fill an empty pipeline at R15. -/
def refillCharges (k : Core) : List Charge :=
  let size := k.instructionSet.size
  let wide := k.instructionSet == .arm
  [⟨false, wide, k.pc⟩, ⟨true, wide, k.pc + size⟩]

/-- The code fetches of a step: one ahead, and those of an empty pipeline. -/
def codeCharges (m : Machine B) : List Charge :=
  m.fetchCharge :: if m.footprint.flushed then refillCharges m.step.2.core else []

/-- The cycles of a step by the law: its accesses, and what its instruction waits for. -/
def lawfulCycles (m : Machine B) : Int :=
  totalCost m.bus (m.codeCharges ++ m.footprint.charges)
    + m.fetched.waits m.core.aligned

/-- The charge of a step on a steady bus is the law. -/
theorem charge_eq_lawfulCycles {m : Machine B} (h : Bus.Steady m.bus) :
    m.charge = m.lawfulCycles := by
  have hcost : Bus.cost m.flight.bus = Bus.cost m.bus := by
    rw [← bus_step, cost_step h]
  have hslot (pc size : Word) : pc + 2 * size - size = pc + size := by
    rw [UInt32.two_mul, ← UInt32.add_assoc, UInt32.add_sub_cancel]
  have hleft : m.flight.footprint = m.footprint := m.footprint_flight
  have hscattered : m.flight.scattered = m.fetched.stores :=
    (congrArg Footprint.scattered hleft).trans (m.fetched.scattered_footprint m.core.aligned)
  have hflushed : m.flight.flushed = m.footprint.flushed := congrArg Footprint.flushed hleft
  have hwaits : m.flight.internal.toInt = m.fetched.waits m.core.aligned := by
    rw [internal_flight, Fetched.toInt_internalCycles]
  have hrefill : refillCharge m.flight
      = totalCost m.bus (if m.footprint.flushed then refillCharges m.step.2.core else []) := by
    rw [refillCharge, hcost, hflushed]
    split
    · -- the instruction wrote R15, which the step leaves as it is
      have hcore : m.step.2.core = m.flight.core := by
        rw [core_step, endCore, hflushed, if_pos ‹_›]
      rw [hcore]
      simp [totalCost, refillCharges, Charge.cost]
    · rfl
  rw [charge, endCharge, hrefill, hwaits, dataCharge_eq_totalCost, totalCost_congr hcost, hleft,
    hcost, hscattered, hslot, lawfulCycles, codeCharges, totalCost_append, totalCost_cons,
    Charge.cost, fetchCharge]
  dsimp only
  omega

/-- The last code fetch that was charged is the last one of the step. -/
theorem lastFetch_step (m : Machine B) :
    m.step.2.host.lastFetch = m.codeCharges.getLast?.map Charge.address := by
  have hflushed : m.flight.flushed = m.footprint.flushed :=
    congrArg Footprint.flushed m.footprint_flight
  rw [(host_step m).lastFetch, endFetch, codeCharges, core_step, endCore, hflushed]
  split <;> rfl

/-- **The timing law**: on a bus that keeps its costs, whatever they are, a step takes
    the cycles of its code fetches and of its data accesses and those its instruction
    waits for, and leaves the last of the fetches for the next step to follow. -/
theorem step_takes_its_charges (m : Machine B) (h : Bus.Steady m.bus) :
    m.step.1 = Int32.ofInt m.lawfulCycles
      ∧ (-2 ^ 31 ≤ m.lawfulCycles → m.lawfulCycles < 2 ^ 31 → m.step.1.toInt = m.lawfulCycles)
      ∧ m.step.2.host.lastFetch = m.codeCharges.getLast?.map Charge.address := by
  have hcycles : m.step.1 = Int32.ofInt m.lawfulCycles := by
    rw [cycles_eq_ofInt_charge, charge_eq_lawfulCycles h]
  refine ⟨hcycles, ?_, m.lastFetch_step⟩
  intro hlow hhigh
  rw [hcycles, Int32.toInt_ofInt_of_le hlow hhigh]

/-- `LDMIA R0!, {R1, PC}` at address zero, with R0 zero: one fetch out of turn, two
    words, one cycle of waiting, and two fetches at the address that was loaded.  Where
    every access costs by its address, all of them can be told apart. -/
theorem step_takes_its_charges_of_block :
    let tariff := fun sequential wide (a : Word) =>
      (if sequential then 2 else 5) + (if wide then 10 else 0) + a.toInt32
    let m := Metered.machine [0xE8B08002, 0x100] tariff .supervisor
    Bus.Steady m.bus ∧ m.codeCharges = [⟨false, true, 8⟩, ⟨false, true, 0x100⟩, ⟨true, true, 0x104⟩]
      ∧ m.footprint.charges = [⟨false, true, 0⟩, ⟨true, true, 4⟩]
      ∧ m.step.1.toInt = 598 ∧ m.step.2.host.lastFetch = some 0x104 := by
  intro tariff m
  have hcodes : m.codeCharges = [⟨false, true, 8⟩, ⟨false, true, 0x100⟩, ⟨true, true, 0x104⟩] := by
    decide +kernel
  obtain ⟨-, hint, hlast⟩ := step_takes_its_charges m (Metered.steady m.bus)
  have hlaw : m.lawfulCycles = 598 := by decide +kernel
  rw [hlaw] at hint
  rw [hcodes] at hlast
  exact ⟨Metered.steady m.bus, hcodes, by decide +kernel, hint (by decide) (by decide), hlast⟩

end Machine

end Armv4t
