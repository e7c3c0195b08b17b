import Armv4t.Proofs.Banking
import Armv4t.Proofs.Simulation.Thumb
import Armv4t.Run
import Mathlib.Logic.Function.Iterate

/-! # The step — one instruction, taken apart

    A step fetches an instruction at the aligned R15, executes it in flight, and
    ends it: R15 goes on unless the instruction wrote it, the host observes the
    trail, and the fetches that were made are charged.

    * `Machine.fetched` is the instruction that the T bit selects, whether it is
      carried out or not;
    * `Machine.flight` is that instruction carried out, and a step is no more than
      ending it (`step_eq`, `core_step`, `bus_step`, `host_step`);
    * an instruction that does not trap is a sequence of legal actions
      (`acts_flight`), one that traps enters its handler from the state it was
      fetched in (`flight_of_trap`). -/

namespace Armv4t

/-- An instruction as a step fetches it. -/
inductive Fetched where
  | arm (o : Arm.Opcode)
  /-- An instruction of the 32-bit set whose condition fails. -/
  | skipped (o : Arm.Opcode)
  | thumb (o : Thumb.Opcode)

namespace Fetched

/-- Carries the instruction out. -/
def execute {B : Type} [Bus B] (f : Fetched) (x : Execution B) : Execution B :=
  match f with
  | arm o => Arm.execute o x
  | skipped _ => x
  | thumb o => Thumb.execute o x

/-- The exception that the instruction raises as its whole effect. -/
def exception? : Fetched → Option Exception
  | arm o => o.instruction.exception?
  | skipped _ => none
  | thumb o => o.instruction.exception?

end Fetched

/-- The core with R15 aligned for its instruction set. -/
def Core.aligned (k : Core) : Core :=
  k.setRegister Reg.pc (k.instructionSet.align k.pc)

/-- Writing R15 with what it holds changes nothing. -/
theorem Core.setRegister_pc (k : Core) : k.setRegister Reg.pc k.pc = k := by
  show { k with registers := k.registers.write Reg.pc (k.registers.read Reg.pc) } = k
  congr 1
  refine Registers.ext_read ?_
  intro r
  rw [Registers.read_write]
  by_cases hr : Reg.pc = r
  · rw [if_pos hr, hr]
  · rw [if_neg hr]

namespace Machine

variable {B : Type} [Bus B]

/-- The next instruction: the T bit selects the set, R15 the address. -/
def fetched (m : Machine B) : Fetched :=
  match m.core.instructionSet with
  | .arm =>
    let o := Arm.decode (Bus.readWord m.bus (alignWord m.core.pc))
    if m.core.cpsr.satisfies o.condition then .arm o else .skipped o
  | .thumb => .thumb (Thumb.decode (Bus.readHalf m.bus (alignHalf m.core.pc)).toUInt16)

/-- Only the 32-bit set fetches its own instructions. -/
theorem instructionSet_of_fetched_arm {m : Machine B} {o : Arm.Opcode}
    (h : m.fetched = .arm o) : m.core.instructionSet = .arm := by
  rw [fetched] at h
  cases hs : m.core.instructionSet with
  | arm => rfl
  | thumb =>
      rw [hs] at h
      exact nomatch h

/-- The next instruction, carried out but not ended. -/
def flight (m : Machine B) : Execution B := m.fetched.execute (.start m.core.aligned m.bus)

/-- The exception that the next instruction raises as its whole effect. -/
def trap? (m : Machine B) : Option Exception := m.fetched.exception?

/-! ## Ending an instruction -/

/-- The cycles of ending an instruction at an address. -/
def endCycles (last : Option Word) (set : InstructionSet) (pc : Word) (x : Execution B) :
    Int32 :=
  Bus.cost x.bus (!x.scattered && last == some (pc + 2 * set.size - set.size)) (set == .arm)
      (pc + 2 * set.size)
    + dataCycles x.bus x.trail + x.internal
    + if x.flushed then (refill x.bus x.core).1 else 0

/-- The core after an instruction: R15 goes on, unless the instruction wrote it. -/
def endCore (set : InstructionSet) (x : Execution B) : Core :=
  if x.flushed then x.core else x.core.setRegister Reg.pc (x.core.pc + set.size)

/-- The last code fetch of an instruction at an address. -/
def endFetch (set : InstructionSet) (pc : Word) (x : Execution B) : Word :=
  if x.flushed then (refill x.bus x.core).2 else pc + 2 * set.size

/-- Ending an instruction: its cycles, and the machine after it. -/
theorem finish_eq (host : Host) (set : InstructionSet) (pc : Word) (x : Execution B) :
    finish host set pc x =
      (endCycles host.lastFetch set pc x,
        { core := endCore set x
          bus := x.bus
          host := { host.observe x with lastFetch := some (endFetch set pc x) }.account 1
            (endCycles host.lastFetch set pc x) }) := by
  cases hx : x.flushed with
  | true =>
      -- the refill decides the last fetch
      simp only [finish, endCycles, endCore, endFetch, hx, if_true]
      rfl
  | false =>
      simp only [finish, endCycles, endCore, endFetch, hx, Bool.false_eq_true, if_false]
      rw [Int32.add_zero]
      rfl

/-! ## A step is a flight, ended -/

/-- Noting the fetch only writes to the journal. -/
theorem tellFetch_eq (h : Host) (bus : B) (width : Width) (pc : Word) (e : Event) :
    ∃ j, h.tellFetch bus width pc e = { h with journal := j } := by
  rw [Host.tellFetch]
  by_cases hk : h.journal.keeps .trace = true
  · rw [if_pos hk]
    exact ⟨_, rfl⟩
  · rw [if_neg hk]
    exact ⟨h.journal, rfl⟩

/-- A step is a flight, ended; what the host kept to itself is the resume address,
    which a step forgets, and the journal. -/
theorem step_eq (m : Machine B) :
    ∃ j, m.step = finish { m.host with resumeAt := none, journal := j } m.core.instructionSet
      (m.core.instructionSet.align m.core.pc) m.flight := by
  obtain ⟨core, bus, host⟩ := m
  rw [step]
  cases hs : core.instructionSet with
  | arm =>
      obtain ⟨j, hj⟩ := tellFetch_eq { host with resumeAt := none } bus .word
        (alignWord core.pc)
        (.executingArm (alignWord core.pc) (Bus.readWord bus (alignWord core.pc)))
      refine ⟨j, ?_⟩
      simp only [hs, stepArm, hj, flight, fetched, Core.aligned]
      by_cases hc : core.cpsr.satisfies
          (Arm.decode (Bus.readWord bus (alignWord core.pc))).condition = true
      · rw [if_pos hc]
        exact if_pos hc
      · rw [if_neg hc]
        exact if_neg hc
  | thumb =>
      obtain ⟨j, hj⟩ := tellFetch_eq { host with resumeAt := none } bus .half
        (alignHalf core.pc) (.executingThumb (alignHalf core.pc)
          (Bus.readHalf bus (alignHalf core.pc)).toUInt16)
      refine ⟨j, ?_⟩
      simp only [hs, stepThumb, hj, flight, fetched, Core.aligned]
      rfl

theorem cycles_step (m : Machine B) :
    m.step.1 = endCycles m.host.lastFetch m.core.instructionSet
      (m.core.instructionSet.align m.core.pc) m.flight := by
  obtain ⟨j, hj⟩ := step_eq m
  rw [hj, finish_eq]

theorem core_step (m : Machine B) :
    m.step.2.core = endCore m.core.instructionSet m.flight := by
  obtain ⟨j, hj⟩ := step_eq m
  rw [hj, finish_eq]

theorem bus_step (m : Machine B) : m.step.2.bus = m.flight.bus := by
  obtain ⟨j, hj⟩ := step_eq m
  rw [hj, finish_eq]

/-- What a step leaves with the host, the counters and the journal aside. -/
structure Ended (h : Host) (diagnostic : Option InvalidMode) (fetch : Word) (h' : Host) :
    Prop where
  config : h'.config = h.config
  lastFetch : h'.lastFetch = some fetch
  breakRequested : h'.breakRequested = h.breakRequested
  hook : h'.hook = h.hook
  resumeAt : h'.resumeAt = none
  diagnostic : h'.diagnostic = (diagnostic <|> h.diagnostic)

theorem host_step (m : Machine B) :
    Ended m.host m.flight.fault (endFetch m.core.instructionSet
      (m.core.instructionSet.align m.core.pc) m.flight) m.step.2.host := by
  obtain ⟨j, hj⟩ := step_eq m
  rw [hj, finish_eq]
  exact ⟨rfl, rfl, rfl, rfl, rfl, rfl⟩

omit [Bus B] in
/-- The core after an instruction differs from the one in flight in R15 at most. -/
theorem endCore_eq (set : InstructionSet) (x : Execution B) :
    ∃ pc, endCore set x = x.core.setRegister Reg.pc pc := by
  rw [endCore]
  cases x.flushed with
  | true => exact ⟨x.core.pc, (Core.setRegister_pc x.core).symm⟩
  | false => exact ⟨_, rfl⟩

/-- R15 aside, a register after a step holds what it does in flight. -/
theorem read_step (m : Machine B) {r : Reg} (hr : r ≠ Reg.pc) :
    m.step.2.read r = m.flight.core.registers.read r := by
  obtain ⟨pc, hpc⟩ := endCore_eq m.core.instructionSet m.flight
  show m.step.2.core.registers.read r = _
  rw [core_step, hpc]
  show (m.flight.core.registers.write Reg.pc pc).read r = _
  rw [Registers.read_write, if_neg (Ne.symm hr)]

theorem cpsr_step (m : Machine B) : m.step.2.core.cpsr = m.flight.core.cpsr := by
  obtain ⟨pc, hpc⟩ := endCore_eq m.core.instructionSet m.flight
  rw [core_step, hpc]
  rfl

theorem bank_step (m : Machine B) : m.step.2.core.bank = m.flight.core.bank := by
  obtain ⟨pc, hpc⟩ := endCore_eq m.core.instructionSet m.flight
  rw [core_step, hpc]
  rfl

/-- R15 goes on, unless the instruction wrote it. -/
theorem pc_step (m : Machine B) :
    m.step.2.core.pc = if m.flight.flushed then m.flight.core.pc
      else m.flight.core.pc + m.core.instructionSet.size := by
  rw [core_step, endCore]
  by_cases h : m.flight.flushed = true
  · rw [if_pos h, if_pos h]
  · rw [if_neg h, if_neg h]
    exact (Registers.read_write _ Reg.pc Reg.pc _).trans (if_pos rfl)

/-! ## What a flight consists of -/

/-- An instruction that does not trap is a sequence of legal actions. -/
theorem acts_flight {m : Machine B} (h : m.trap? = none) :
    Acts (.start m.core.aligned m.bus) m.flight := by
  have hsim := simulation_acts (Execution.start m.core.aligned m.bus)
  rw [trap?] at h
  rw [flight]
  cases hf : m.fetched with
  | arm o =>
      rw [hf] at h
      exact (hsim.arm ⟨rfl, .none⟩ (instructionSet_of_fetched_arm hf) h).2
  | skipped o => exact .none
  | thumb o =>
      rw [hf] at h
      exact (hsim.thumb ⟨rfl, .none⟩ h).2

/-- An instruction that traps enters its handler from the state it was fetched in,
    and touches nothing else. -/
theorem flight_of_trap {m : Machine B} {e : Exception} (h : m.trap? = some e) :
    ∃ es : List Event, m.flight =
      { Execution.start (m.core.aligned.enter e) m.bus with
        flushed := true
        trail := es.map Activity.event ++ [] } := by
  rw [trap?] at h
  rw [flight]
  cases hf : m.fetched with
  | arm o =>
      rw [hf] at h
      exact Arm.execute_of_exception h _
  | skipped o =>
      rw [hf] at h
      exact nomatch h
  | thumb o =>
      rw [hf] at h
      exact Thumb.execute_of_exception h _

/-- After a trap the core is the one that entered the handler. -/
theorem core_step_of_trap {m : Machine B} {e : Exception} (h : m.trap? = some e) :
    m.step.2.core = m.core.aligned.enter e := by
  obtain ⟨es, hes⟩ := flight_of_trap h
  rw [core_step, hes]
  rfl

/-! ## Many steps -/

/-- The machine after some steps. -/
def after (m : Machine B) (n : Nat) : Machine B := (fun m => m.step.2)^[n] m

/-- One step more at the end. -/
theorem after_succ (m : Machine B) (n : Nat) : m.after (n + 1) = (m.after n).step.2 :=
  Function.iterate_succ_apply' _ n m

/-- One step more at the start. -/
theorem after_step (m : Machine B) (n : Nat) : m.after (n + 1) = m.step.2.after n :=
  Function.iterate_succ_apply _ n m

/-- Some steps, and some more. -/
theorem after_add (m : Machine B) (n k : Nat) : m.after (n + k) = (m.after n).after k := by
  rw [Nat.add_comm]
  exact Function.iterate_add_apply _ k n m

/-- No step changes the configuration. -/
theorem config_after (m : Machine B) (n : Nat) : (m.after n).host.config = m.host.config := by
  induction n with
  | zero => rfl
  | succ n ih =>
      rw [after_succ, (host_step (m.after n)).config]
      exact ih

end Machine

end Armv4t
