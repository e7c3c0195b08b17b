import Armv4t.Proofs.Alignment
import Armv4t.Proofs.Guarded.Text
import Armv4t.Proofs.Guarded.Thumb
import Armv4t.Proofs.Ledger
import Armv4t.Proofs.Rom

/-! # The guarded step — no opcode brings the machine down

    A step with every guard in place: the fetch, the decoder of the set that the T bit
    selects, the text for the trace, the condition, the instruction, the code fetch and
    the refill that end it, and the two counters of the host.

    The main result is `Machine.step_stays_in_range`.  On a bus where an access costs
    from 0 to 2^20 cycles, and with counters below 2^63, the guarded step has a result
    from every core and every memory, and it is that of the plain step.  The cycles are
    the plain ones where the costs do not move while an instruction executes; in any
    case they are twenty accesses' worth at most. -/

namespace Armv4t

open Bus

/-- The instruction in assembler text. -/
def Fetched.text : Fetched → String
  | arm o | skipped o => o.text
  | thumb o => o.text

namespace Guarded

/-- What a guarded step gives. -/
structure Stepped (B : Type) where
  /-- The instruction, as the trace shows it. -/
  text : String
  cycles : Int32
  core : Core
  bus : B
  lastFetch : Word
  /-- The instructions and the cycles that the host has counted. -/
  counters : UInt64 × UInt64

variable {B : Type}

/-- The core with R15 aligned for instructions of some size. -/
def aligned (k : Core) (size : Word) : Option Core := do
  some (k.setRegister Reg.pc (k.pc &&& ~~~(← subWord size 1)))

/-- The counters of a host that counts some instructions and cycles more. -/
def count (h : Host) (instructions : UInt64) (cycles : Int32) : Option (UInt64 × UInt64) := do
  let instructions ← addWide h.instructions instructions
  some (instructions, ← addWide h.cycles cycles.toInt.natAbs.toUInt64)

variable [Bus B]

/-- The cycles with those of the code fetch two slots ahead, and the address of that. -/
def chargeFetch (last : Option Word) (set : InstructionSet) (pc : Word) (t : Running B) :
    Option (Int32 × Word) := do
  let slot := pc + (← mulWord 2 set.size)
  let sequential := !t.flight.scattered && last == some (slot - set.size)
  some (← addTime t.cycles (cost t.flight.bus sequential (set == .arm) slot), slot)

/-- The cycles of filling the empty pipeline, and the address of the last fetch. -/
def refill (bus : B) (k : Core) : Option (Int32 × Word) := do
  let set ← instructionSet k.cpsr
  let next := k.pc + set.size
  let wide := set == .arm
  some (← addTime (cost bus false wide k.pc) (cost bus true wide next), next)

/-- Fills the pipeline after a write to R15, or goes on to the next instruction: the
    cycles, the last code fetch and the core. -/
def advance (set : InstructionSet) (slot : Word) (cycles : Int32) (x : Execution B) :
    Option (Int32 × Word × Core) := do
  if x.flushed then
    let (filled, last) ← refill x.bus x.core
    some (← addTime cycles filled, last, x.core)
  else some (cycles, slot, x.core.setRegister Reg.pc (x.core.pc + set.size))

/-- Ends an instruction at an address. -/
def finish (h : Host) (set : InstructionSet) (pc : Word) (text : String) (t : Running B) :
    Option (Stepped B) := do
  let (cycles, slot) ← chargeFetch h.lastFetch set pc t
  let (cycles, lastFetch, core) ← advance set slot cycles t.flight
  let counters ← count h 1 cycles
  some { text, cycles, core, bus := t.flight.bus, lastFetch, counters }

/-- Executes an instruction of the 32-bit set if its condition holds. -/
def executeIf (satisfied : Bool) (o : Arm.Opcode) (t : Running B) : Option (Running B) :=
  if satisfied then Arm.Guarded.execute o t else some t

/-- One instruction of the 32-bit set. -/
def stepArm (m : Machine B) : Option (Stepped B) := do
  let k ← aligned m.core 4
  let o ← Arm.Guarded.decode (readWord m.bus k.pc)
  let text ← Arm.Guarded.text o
  let t ← executeIf (← satisfies k.cpsr o.condition) o ⟨.start k m.bus, 0⟩
  finish m.host .arm k.pc text t

/-- One instruction of the 16-bit set. -/
def stepThumb (m : Machine B) : Option (Stepped B) := do
  let k ← aligned m.core 2
  let o ← Thumb.Guarded.decode (readHalf m.bus k.pc).toUInt16
  let text ← Thumb.Guarded.text o
  let t ← Thumb.Guarded.execute o ⟨.start k m.bus, 0⟩
  finish m.host .thumb k.pc text t

/-- Executes exactly one instruction. -/
def step (m : Machine B) : Option (Stepped B) := do
  match ← instructionSet m.core.cpsr with
  | .arm => stepArm m
  | .thumb => stepThumb m

/-- A guarded step gave what the plain one gives. -/
structure Agrees (m : Machine B) (s : Stepped B) : Prop where
  text : s.text = m.fetched.text
  core : s.core = m.step.2.core
  bus : s.bus = m.step.2.bus
  lastFetch : some s.lastFetch = m.step.2.host.lastFetch
  nonneg : 0 ≤ s.cycles.toInt
  le : s.cycles.toInt ≤ 20 * 2 ^ 20
  charged : Steady m.bus → s.cycles = m.step.1 ∧ s.counters = m.step.2.host.counters

/-! ## The beginning -/

omit [Bus B] in
/-- Alignment takes one off the size, which is not zero, and moves R15 where the plain
    one does. -/
theorem aligned_eq {k : Core} {set : InstructionSet} (h : k.instructionSet = set) :
    aligned k set.size = some k.aligned ∧ k.aligned.pc = set.align k.pc := by
  rw [Core.aligned, h]
  refine ⟨?_, Core.pc_setRegister_pc k _⟩
  cases set <;> rfl

/-- Nothing is charged before the instruction executes. -/
theorem Fair.start {b : B} (hb : Affordable b) (k : Core) : Fair b 0 ⟨.start k b, 0⟩ where
  affordable := hb
  reached := ⟨[], rfl⟩
  nonneg := Int.le_refl 0
  le := Int.le_refl 0
  owed := fun _ => rfl

theorem executeIf_follows {b : B} {t : Running B} (satisfied : Bool) (o : Arm.Opcode)
    (h : Fair b 0 t) :
    Gives (executeIf satisfied o t)
      (Follows b 17 (if satisfied then Arm.execute o t.flight else t.flight)) := by
  cases satisfied with
  | true => exact Arm.Guarded.execute_follows o h
  | false => exact h.done.within (by decide)

/-! ## The end -/

section End

variable {b : B} {k : Nat} {t : Running B} {cycles : Int32}

/-- The code fetch is the eighteenth charge. -/
theorem Fair.chargeFetch (h : Fair b 17 t) (last : Option Word) (set : InstructionSet)
    (pc : Word) :
    Gives (Guarded.chargeFetch last set pc t) fun (cycles, slot) =>
      slot = pc + 2 * set.size ∧ 0 ≤ cycles.toInt ∧ cycles.toInt ≤ 18 * 2 ^ 20
        ∧ cycles = t.cycles + cost t.flight.bus
            (!t.flight.scattered && last == some (pc + 2 * set.size - set.size)) (set == .arm)
            (pc + 2 * set.size) := by
  have hslot : mulWord 2 set.size = some (2 * set.size) := by
    cases set <;> rfl
  obtain ⟨h0, hmax⟩ := h.cost_bounds
    (!t.flight.scattered && last == some (pc + 2 * set.size - set.size)) (set == .arm)
    (pc + 2 * set.size)
  obtain ⟨hadd, hnonneg, hle⟩ := h.addTime (by decide) h0 hmax
  simp only [Guarded.chargeFetch, hslot, hadd, Option.bind_eq_bind, Option.bind_some]
  exact gives_some ⟨rfl, hnonneg, hle, rfl⟩

/-- Filling the pipeline costs two accesses. -/
theorem Fair.refill (h : Fair b k t) :
    Guarded.refill t.flight.bus t.flight.core
        = some (Machine.refill t.flight.bus t.flight.core)
      ∧ 0 ≤ (Machine.refill t.flight.bus t.flight.core).1.toInt
      ∧ (Machine.refill t.flight.bus t.flight.core).1.toInt ≤ 2 * 2 ^ 20 := by
  obtain ⟨h0, hmax⟩ := h.cost_bounds false (t.flight.core.instructionSet == .arm)
    t.flight.core.pc
  obtain ⟨h0', hmax'⟩ := h.cost_bounds true (t.flight.core.instructionSet == .arm)
    (t.flight.core.pc + t.flight.core.instructionSet.size)
  have hadd := addTime_eq (show -2 ^ 31 ≤ (cost t.flight.bus false
      (t.flight.core.instructionSet == .arm) t.flight.core.pc).toInt + _ by omega)
    (show _ + (cost t.flight.bus true (t.flight.core.instructionSet == .arm)
      (t.flight.core.pc + t.flight.core.instructionSet.size)).toInt < _ by omega)
  rw [Machine.refill]
  dsimp only
  rw [toInt_add_of_fits (by omega) (by omega)]
  refine ⟨?_, by omega, by omega⟩
  rw [Core.instructionSet] at hadd ⊢
  simp only [Guarded.refill, instructionSet_eq, hadd, Option.bind_eq_bind, Option.bind_some]

/-- And is the last of all charges. -/
theorem Fair.advance (h : Fair b k t) (h0 : 0 ≤ cycles.toInt) (hmax : cycles.toInt ≤ 18 * 2 ^ 20)
    (set : InstructionSet) (pc : Word) :
    Gives (Guarded.advance set (pc + 2 * set.size) cycles t.flight) fun (total, last, core) =>
      last = Machine.endFetch set pc t.flight ∧ core = Machine.endCore set t.flight
        ∧ 0 ≤ total.toInt ∧ total.toInt ≤ 20 * 2 ^ 20
        ∧ total = cycles + if t.flight.flushed then
            (Machine.refill t.flight.bus t.flight.core).1 else 0 := by
  rw [Guarded.advance, Machine.endFetch, Machine.endCore]
  cases t.flight.flushed with
  | true =>
      obtain ⟨hrefill, hnonneg, hle⟩ := h.refill
      generalize Machine.refill t.flight.bus t.flight.core = filled at hrefill hnonneg hle
      have hadd : Guarded.addTime cycles filled.1 = some (cycles + filled.1) :=
        addTime_eq (by omega) (by omega)
      have hsum : (cycles + filled.1).toInt = cycles.toInt + filled.1.toInt :=
        toInt_add_of_fits (by omega) (by omega)
      simp only [if_true, hrefill, hadd, Option.bind_eq_bind, Option.bind_some]
      have hlow : 0 ≤ (cycles + filled.1).toInt := by omega
      have hhigh : (cycles + filled.1).toInt ≤ 20 * 2 ^ 20 := by omega
      exact gives_some ⟨rfl, rfl, hlow, hhigh, rfl⟩
  | false => exact gives_some ⟨rfl, rfl, h0, by omega, (Int32.add_zero cycles).symm⟩

omit [Bus B] in
/-- Counters below 2^63 take one instruction more. -/
theorem count_eq {h : Host} (hi : h.instructions.toNat < 2 ^ 63) (hc : h.cycles.toNat < 2 ^ 63)
    (h0 : 0 ≤ cycles.toInt) (hmax : cycles.toInt ≤ 20 * 2 ^ 20) :
    count h 1 cycles = some (h.account 1 cycles).counters := by
  have hsize : cycles.toInt.natAbs.toUInt64.toNat ≤ 20 * 2 ^ 20 :=
    Nat.le_trans (Nat.mod_le _ _) (by omega)
  have hone : addWide h.instructions 1 = some (h.instructions + 1) :=
    addWide_eq (show h.instructions.toNat + 1 < 2 ^ 64 by omega)
  rw [count, hone, addWide_eq (by omega)]
  rfl

/-- On a steady bus the charges are those for the whole instruction. -/
theorem Fair.cycles_eq (h : Fair b k t) (hb : Steady b) :
    t.cycles = t.flight.internal + dataCycles t.flight.bus t.flight.trail := by
  rw [h.owed hb, dataCycles_eq_ofInt, dataCycles_eq_ofInt, dataCharge_eq_totalCost,
    dataCharge_eq_totalCost, totalCost_congr (h.cost_eq hb)]

end End

/-- An instruction that was executed as the plain one is ended as the plain one. -/
theorem finish_agrees {m : Machine B} {t : Running B}
    (hi : m.host.instructions.toNat < 2 ^ 63) (hc : m.host.cycles.toNat < 2 ^ 63)
    (h : Follows m.bus 17 m.flight t) :
    Gives (finish m.host m.core.instructionSet (m.core.instructionSet.align m.core.pc)
      m.fetched.text t) (Agrees m) := by
  obtain ⟨ht, h⟩ := h
  refine (h.chargeFetch m.host.lastFetch m.core.instructionSet
    (m.core.instructionSet.align m.core.pc)).bind ?_
  rintro ⟨cycles, slot⟩ ⟨rfl, h0, hmax, hcycles⟩
  refine (h.advance h0 hmax m.core.instructionSet
    (m.core.instructionSet.align m.core.pc)).bind ?_
  rintro ⟨total, last, core⟩ ⟨rfl, rfl, h0', hmax', htotal⟩
  dsimp only
  rw [count_eq hi hc h0' hmax', ht]
  refine gives_some ⟨rfl, (Machine.core_step m).symm, (Machine.bus_step m).symm,
    (Machine.host_step m).lastFetch.symm, h0', hmax', ?_⟩
  intro hb
  -- the plain step adds the code fetch up first, the running instruction comes to it last
  have hstep : total = m.step.1 := by
    rw [Machine.cycles_step, htotal, hcycles, h.cycles_eq hb, ht, Machine.endCycles,
      Int32.add_comm m.flight.internal, Int32.add_comm (_ + _) (cost _ _ _ _), ← Int32.add_assoc]
  obtain ⟨j, hj⟩ := Machine.step_eq m
  refine ⟨hstep, ?_⟩
  rw [hstep, hj, Machine.finish_eq]
  rfl

/-! ## Both sets -/

section Step

variable {m : Machine B}

theorem stepArm_agrees (hb : Affordable m.bus) (hi : m.host.instructions.toNat < 2 ^ 63)
    (hc : m.host.cycles.toNat < 2 ^ 63) (hset : m.core.instructionSet = .arm) :
    Gives (stepArm m) (Agrees m) := by
  have haligned : aligned m.core 4 = some m.core.aligned := (aligned_eq hset).1
  have hpc : m.core.aligned.pc = alignWord m.core.pc := (aligned_eq hset).2
  simp only [stepArm, haligned, hpc, Arm.Guarded.decode_eq, Arm.Guarded.text_eq, satisfies_eq,
    Option.bind_eq_bind, Option.bind_some]
  generalize ho : Arm.decode (readWord m.bus (alignWord m.core.pc)) = o
  have hfetched : m.fetched
      = if m.core.aligned.cpsr.satisfies o.condition then .arm o else .skipped o := by
    rw [Machine.fetched, hset, ← ho]
    rfl
  have htext : m.fetched.text = o.text := by
    rw [hfetched]
    split <;> rfl
  have hflight : m.flight = if m.core.aligned.cpsr.satisfies o.condition then
      Arm.execute o (.start m.core.aligned m.bus) else .start m.core.aligned m.bus := by
    rw [Machine.flight, hfetched]
    split <;> rfl
  refine (executeIf_follows _ o (Fair.start hb m.core.aligned)).bind ?_
  intro t ht
  rw [← hflight] at ht
  have hend := finish_agrees hi hc ht
  rw [hset, htext] at hend
  exact hend

theorem stepThumb_agrees (hb : Affordable m.bus) (hi : m.host.instructions.toNat < 2 ^ 63)
    (hc : m.host.cycles.toNat < 2 ^ 63) (hset : m.core.instructionSet = .thumb) :
    Gives (stepThumb m) (Agrees m) := by
  have haligned : aligned m.core 2 = some m.core.aligned := (aligned_eq hset).1
  have hpc : m.core.aligned.pc = alignHalf m.core.pc := (aligned_eq hset).2
  simp only [stepThumb, haligned, hpc, Thumb.Guarded.decode_eq, Thumb.Guarded.text_eq,
    Option.bind_eq_bind, Option.bind_some]
  generalize ho : Thumb.decode (readHalf m.bus (alignHalf m.core.pc)).toUInt16 = o
  have hfetched : m.fetched = .thumb o := by
    rw [Machine.fetched, hset, ← ho]
  have hflight : m.flight = Thumb.execute o (.start m.core.aligned m.bus) := by
    rw [Machine.flight, hfetched]
    rfl
  refine (Thumb.Guarded.execute_follows o (Fair.start hb m.core.aligned)).bind ?_
  intro t ht
  rw [← hflight] at ht
  have hend := finish_agrees hi hc ht
  rw [hset, hfetched] at hend
  exact hend

end Step

end Guarded

open Guarded

namespace Machine

variable {B : Type} [Bus B]

/-- **No opcode brings the machine down**: on a bus where no access costs less than
    nothing or more than 2^20 cycles, and with counters below 2^63, a step passes every
    guard, whatever the core and the memory hold, and gives what the plain step gives. -/
theorem step_stays_in_range (m : Machine B) (hb : Affordable m.bus)
    (hi : m.host.instructions.toNat < 2 ^ 63) (hc : m.host.cycles.toNat < 2 ^ 63) :
    ∃ s, Guarded.step m = some s ∧ Agrees m s := by
  rw [Guarded.step, instructionSet_eq]
  cases hset : m.core.cpsr.instructionSet with
  | arm => exact stepArm_agrees hb hi hc hset
  | thumb => exact stepThumb_agrees hb hi hc hset

/-- `LDMIA R0, {R0-R15}` where every access costs the most it may: sixteen words, one cycle
    of waiting, one fetch and a refill, in one 32-bit sum. -/
theorem step_stays_in_range_of_full_list :
    let m := Metered.machine [0xE890FFFF] (fun _ _ _ => 0x100000) .supervisor
    Affordable m.bus ∧ m.host.instructions.toNat < 2 ^ 63 ∧ m.host.cycles.toNat < 2 ^ 63
      ∧ ∃ s, Guarded.step m = some s ∧ Agrees m s ∧ s.cycles = 19 * 0x100000 + 1 := by
  intro m
  have hb : Affordable m.bus := by
    intro ws sequential wide a
    have hcost : cost m.bus sequential wide a = 0x100000 := rfl
    rw [Metered.steady m.bus ws, hcost]
    decide
  have hi : m.host.instructions.toNat < 2 ^ 63 := by decide +kernel
  have hc : m.host.cycles.toNat < 2 ^ 63 := by decide +kernel
  obtain ⟨s, hs, hagrees⟩ := step_stays_in_range m hb hi hc
  obtain ⟨hcycles, -⟩ := hagrees.charged (Metered.steady m.bus)
  have hplain : m.step.1 = 19 * 0x100000 + 1 := by decide +kernel
  exact ⟨hb, hi, hc, s, hs, hagrees, hcycles.trans hplain⟩

end Machine

end Armv4t
