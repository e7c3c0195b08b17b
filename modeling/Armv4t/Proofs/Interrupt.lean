import Armv4t.Proofs.Alignment
import Armv4t.Proofs.ModeInvariant
import Armv4t.Proofs.Rom
import Armv4t.Proofs.Writes

/-! # Interrupts — a handler that only returns is not noticed

    An interrupt request leaves in R14 the next instruction plus four and in the saved
    status all of the current one, so that `SUBS PC, LR, #4` leads back: it restores the
    status first, which brings back the registers of the mode and the instruction set,
    and then R15, aligned for that set.

    What the way there and back leaves changed is R14 and the saved status of the
    handler's own mode (`Core.Resumed`).  So a handler that holds nothing but that
    instruction can run between any two instructions, the halves of a long branch
    included (`Machine.interrupt_is_transparent`). -/

namespace Armv4t

/-- `SUBS PC, LR, #4`. -/
def returnWord : Word := 0xE25EF004

theorem Arm.decode_returnWord :
    decode returnWord
      = ⟨.al, .dataProcessing .sub true Reg.lr Reg.pc (.immediate ⟨4, 0⟩), returnWord⟩ := by
  decide

/-- What an interrupt and the return from it leave as they were: all but R14 and the
    saved status of its own mode. -/
structure Core.Resumed (k k' : Core) : Prop where
  registers : k'.registers = k.registers
  cpsr : k'.cpsr = k.cpsr
  views : ∀ m i, ¬ (m = .irq ∧ i = HighReg.lr) → k'.view m i = k.view m i
  spsrs : ∀ m, m ≠ .irq → k'.bank.spsr? m = k.bank.spsr? m

/-! ## The return -/

/-- A return in a mode with a saved status restores it and goes to R14 less four. -/
theorem Arm.execute_return {B : Type} [Bus B] {x : Execution B} (hx : x.core.mode.hasSpsr = true) :
    execute (decode returnWord) x
      = x.restoreStatus.branchTo (x.core.registers.read Reg.lr - 4) := by
  have hvalue (c v : Bool) (first : Word) :
      (AluOp.sub.compute first ⟨4, x.core.cpsr.c⟩ c v).value = first - 4 :=
    subWithCarry_value first 4
  rw [decode_returnWord]
  show (if true = true ∧ x.core.mode.hasSpsr = true then x.restoreStatus else _).branchTo
      (AluOp.sub.compute (x.core.registers.read Reg.lr) ⟨4, x.core.cpsr.c⟩ _ _).value = _
  rw [if_pos ⟨rfl, hx⟩, hvalue]

namespace Core

/-- The core after an interrupt and the return from it. -/
def resume (k : Core) : Core :=
  (k.enter .irq).restored.jump ((k.enter .irq).registers.read Reg.lr - 4)

variable {k : Core}

/-- The return restores the status that was interrupted, with the registers of its
    mode, and goes to the instruction that comes next. -/
theorem resume_eq (h : k.cpsr.HasMode) (hpc : k.PcAligned) :
    k.resume = (((k.enter .irq).switchMode k.mode).setCpsr k.cpsr).setRegister Reg.pc k.pc := by
  have hent := enter_entered h .irq
  have hmode : (k.enter .irq).mode = .irq := Psr.mode_eq_of_mode? hent.mode
  have hsaved : (k.enter .irq).spsr? = some k.cpsr := by
    rw [spsr?, hmode]
    exact hent.saved
  have hlink : (k.enter .irq).registers.read Reg.lr = k.pc + 4 := by
    have hlive := (k.enter .irq).view_live HighReg.lr
    rw [hmode] at hlive
    exact hlive.symm.trans hent.link
  rw [resume, restored_of_some hsaved, tryInstall_of_ok h.mode?_eq, hlink, UInt32.add_sub_cancel]
  exact congrArg (setRegister _ Reg.pc) hpc

/-- **An interrupt that only returns resumes the core**, from any mode but its own. -/
theorem resumed_resume (h : k.cpsr.HasMode) (hpc : k.PcAligned) (hirq : k.mode ≠ .irq) :
    k.Resumed k.resume := by
  have hent := enter_entered h .irq
  have hswitched : k.mode = ((k.enter .irq).switchMode k.mode).mode :=
    ((k.enter .irq).mode_switchMode k.mode).symm
  rw [resume_eq h hpc]
  have hviews (m : Mode) (i : HighReg) (hmi : ¬ (m = .irq ∧ i = HighReg.lr)) :
      ((((k.enter .irq).switchMode k.mode).setCpsr k.cpsr).setRegister Reg.pc k.pc).view m i
        = k.view m i := by
    rw [view_setRegister_pc, view_setCpsr hswitched, view_switchMode]
    exact hent.views m i hmi
  refine ⟨?_, rfl, hviews, ?_⟩
  · refine Registers.ext_read ?_
    intro r
    rcases Registers.reg_cases r with (hr | rfl) | ⟨i, rfl⟩
    · have hne : Reg.pc ≠ r := fun h => absurd (h ▸ hr) (by decide)
      show (((k.enter .irq).switchMode k.mode).registers.write Reg.pc k.pc).read r = _
      rw [Registers.read_write, if_neg hne, read_switchMode_of_low _ _ (Or.inl hr)]
      exact hent.low r hr
    · exact pc_setRegister_pc _ k.pc
    · -- the interrupted mode is live again and sees its own registers
      have hlive := hviews k.mode i (fun hmi => hirq hmi.1)
      rw [k.view_live] at hlive
      exact (view_live _ i).symm.trans hlive
  · intro m hm
    show ((k.enter .irq).switchMode k.mode).bank.spsr? m = k.bank.spsr? m
    rw [spsr?_switchMode]
    exact hent.spsrs m hm

end Core

namespace Machine

variable {B : Type} [Bus B]

/-- The handler's first instruction comes next after the entry. -/
theorem fetched_handler {m : Machine B} (hm : m.core.cpsr.HasMode)
    (hreturn : Bus.readWord m.bus 0x18 = returnWord) :
    (m.enterException .irq).2.fetched = .arm (Arm.decode returnWord) := by
  have hent := Core.enter_entered hm .irq
  have hset : (m.core.enter .irq).instructionSet = .arm :=
    congrArg InstructionSet.ofBit hent.arm
  have hpc : alignWord (m.core.enter .irq).pc = 0x18 := by
    rw [hent.pc]
    rfl
  rw [fetched, core_enterException, bus_enterException, hset, hpc, hreturn, Arm.decode_returnWord]
  exact if_pos rfl

/-- A handler that only returns resumes the core after one step, and leaves the bus
    alone. -/
theorem step_handler {m : Machine B} (hm : m.core.cpsr.HasMode)
    (hreturn : Bus.readWord m.bus 0x18 = returnWord) :
    (m.enterException .irq).2.step.2.core = m.core.resume
      ∧ (m.enterException .irq).2.step.2.bus = m.bus := by
  have haligned : (m.enterException .irq).2.core.aligned = m.core.enter .irq := by
    rw [core_enterException]
    exact (Core.pcAligned_jump _ _).aligned_eq
  have hmode : (m.core.enter .irq).mode.hasSpsr = true := by
    rw [Core.mode, Psr.mode_eq_of_mode? (Core.enter_entered hm .irq).mode]
    rfl
  have hflight : (m.enterException .irq).2.flight
      = (Execution.start (m.core.enter .irq) m.bus).restoreStatus.branchTo
        ((m.core.enter .irq).registers.read Reg.lr - 4) := by
    rw [flight, fetched_handler hm hreturn, haligned, bus_enterException, Fetched.execute,
      Arm.execute_return (x := .start (m.core.enter .irq) m.bus) hmode]
    rfl
  rw [core_step, bus_step, hflight]
  refine ⟨?_, Execution.bus_restoreStatus _⟩
  show (Execution.restoreStatus _).core.jump _ = _
  rw [Execution.core_restoreStatus]
  rfl

/-- **Interrupts are transparent**: where the handler does nothing but return, a request
    that is not masked and one step leave the registers, the whole status, the memory,
    every register of every mode and every saved status as they were, but for R14 and
    the saved status of the handler's own mode.  So a run can be interrupted before any
    of its instructions. -/
theorem interrupt_is_transparent {m : Machine B} (hm : m.core.cpsr.HasMode)
    (hpc : m.core.PcAligned) (n : Nat) (hmode : (m.after n).core.mode ≠ .irq)
    (hopen : (m.after n).core.cpsr.irqDisabled = false)
    (hreturn : Bus.readWord (m.after n).bus 0x18 = returnWord) :
    (m.after n).core.Resumed (m.after n).raiseIrq.2.step.2.core
      ∧ (m.after n).raiseIrq.2.step.2.bus = (m.after n).bus := by
  have hm' := hasMode_after hm n
  have hpc' := pcAligned_after hpc n
  have hraise : (m.after n).raiseIrq = (m.after n).enterException .irq := by
    rw [raiseIrq, hopen]
    exact if_neg Bool.false_ne_true
  obtain ⟨hcore, hbus⟩ := step_handler hm' hreturn
  rw [hraise, hcore]
  exact ⟨Core.resumed_resume hm' hpc' hmode, hbus⟩

/-- Between the halves of `BL` at address 0x20, in user mode and the 16-bit set, R14
    holds half of the way; it still does after an interrupt, and so does R15. -/
theorem interrupt_is_transparent_in_long_branch :
    let words := [0, 0, 0, 0, 0, 0, returnWord, 0, 0xF802F001]
    let m := ((Rom.machine words .user).pokeStatus ⟨0x30⟩).write Reg.pc 0x20
    let between := m.after 1
    between.core.instructionSet = .thumb ∧ between.core.pc = 0x22
      ∧ between.core.registers.read Reg.lr = 0x1024
      ∧ between.core.Resumed between.raiseIrq.2.step.2.core
      ∧ between.raiseIrq.2.step.2.bus = between.bus := by
  intro words m between
  have h := interrupt_is_transparent (m := m) ⟨.user, by decide +kernel⟩ (by decide +kernel) 1
    (by decide +kernel) (by decide +kernel) (by decide +kernel)
  exact ⟨by decide +kernel, by decide +kernel, by decide +kernel, h⟩

end Machine

end Armv4t
