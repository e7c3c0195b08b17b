import Armv4t.Proofs.Alignment
import Armv4t.Proofs.Confinement

/-! # Handler entry — every way into a handler is the same entry

    A host enters a handler between two instructions, an interrupt request does when
    requests are enabled, and an instruction that traps does as its whole effect.  All of
    them come down to one entry of the core.

    * The status of the handler is the interrupted one with three fields replaced, from
      the handler's own mode as from any other (`Core.cpsr_enter`);
    * the way back depends on the instruction set that was left, but for an interrupt
      request (`Core.returnAddress_eq`);
    * so every way in enters the handler and keeps everything else, the memory included
      (`Machine.handler_entry`). -/

namespace Armv4t

/-! ## The status of the handler -/

/-- The status that a handler starts with: its own mode, the 32-bit set, and interrupt
    requests disabled.  F and the flags are as they were. -/
def Psr.inHandler (p : Psr) (e : Exception) : Psr :=
  ((p.setMode e.targetMode).setT false).setIrqDisabled true

/-- Writing the mode that the field holds changes nothing. -/
theorem Psr.setMode_of_mode? {p : Psr} {m : Mode} (h : p.mode? = .ok m) : p.setMode m = p := by
  have hbits : p.raw &&& 0x1F = m.bits := Mode.ofBits_eq_ok.mp h
  refine congrArg Psr.mk ?_
  show (p.raw &&& ~~~0x1F) ||| (m.bits &&& 0x1F) = p.raw
  rw [m.bits_and_field, ← hbits, UInt32.and_comm p.raw, UInt32.and_comm p.raw, ← or_and_mask,
    UInt32.not_or_self, UInt32.neg_one_and]

namespace Core

variable {k : Core}

/-- A switch writes the mode field of the status; to the live mode there is nothing to
    write. -/
theorem cpsr_switchMode_eq (h : k.cpsr.HasMode) (m : Mode) :
    (k.switchMode m).cpsr = k.cpsr.setMode m := by
  by_cases hm : k.mode = m
  · have hmode : k.cpsr.mode? = .ok m := h.mode?_eq.trans (congrArg Except.ok hm)
    rw [switchMode_of_eq hm, Psr.setMode_of_mode? hmode]
  · rw [switchMode_of_ne hm]

theorem cpsr_enter (h : k.cpsr.HasMode) (e : Exception) :
    (k.enter e).cpsr = k.cpsr.inHandler e := by
  show ((k.switchMode e.targetMode).cpsr.setT false).setIrqDisabled true = _
  rw [cpsr_switchMode_eq h, Psr.inHandler]

/-- The way back is the next instruction, four bytes on in the 32-bit set and two in the
    16-bit set; an interrupt request counts four in both. -/
theorem returnAddress_eq (k : Core) (e : Exception) :
    k.returnAddress e = k.pc + if e ≠ .irq ∧ k.cpsr.t = true then 2 else 4 := by
  have hsize : k.instructionSet.size = if k.cpsr.t = true then 2 else 4 := by
    show (InstructionSet.ofBit k.cpsr.t).size = _
    cases k.cpsr.t <;> rfl
  cases e with
  | irq => rfl
  | softwareInterrupt | undefined =>
      show k.pc + k.instructionSet.size = _
      rw [hsize]
      cases k.cpsr.t <;> rfl

end Core

/-! ## The ways in -/

namespace Machine

variable {B : Type} [Bus B] {m : Machine B}

/-- A machine that has entered the handler of an exception from another one, whose next
    instruction was at an address, and has done nothing else that a program can observe. -/
structure Handles (m : Machine B) (e : Exception) (pc : Word) (m' : Machine B) : Prop where
  entered : m.core.Entered e (pc + if e ≠ .irq ∧ m.core.cpsr.t = true then 2 else 4) m'.core
  cpsr : m'.core.cpsr = m.core.cpsr.inHandler e
  bus : m'.bus = m.bus
  /-- Where the handler of each exception stands. -/
  vector : m'.core.pc = match e with
    | .undefined => 0x04
    | .softwareInterrupt => 0x08
    | .irq => 0x18
  /-- And the mode that it runs in. -/
  mode : m'.core.mode = match e with
    | .undefined => .undefined
    | .softwareInterrupt => .supervisor
    | .irq => .irq

omit [Bus B] in
/-- The place and the mode of a handler come with the entry. -/
theorem Handles.of_entered {e : Exception} {pc : Word} {m' : Machine B}
    (entered : m.core.Entered e (pc + if e ≠ .irq ∧ m.core.cpsr.t = true then 2 else 4) m'.core)
    (cpsr : m'.core.cpsr = m.core.cpsr.inHandler e) (bus : m'.bus = m.bus) :
    m.Handles e pc m' := by
  refine ⟨entered, cpsr, bus, ?_, ?_⟩
  · rw [entered.pc]
    cases e <;> rfl
  · rw [Core.mode, Psr.mode_eq_of_mode? entered.mode]
    cases e <;> rfl

/-- The host enters a handler from R15 as it stands. -/
theorem handles_enterException (h : m.core.cpsr.HasMode) (e : Exception) :
    m.Handles e m.core.pc (m.enterException e).2 := by
  have hcore := m.core_enterException e
  refine .of_entered ?_ ?_ (m.bus_enterException e)
  · rw [hcore, ← Core.returnAddress_eq]
    exact Core.enter_entered h e
  · rw [hcore]
    exact Core.cpsr_enter h e

/-- An instruction that traps enters its handler from the address it was fetched at. -/
theorem handles_step (h : m.core.cpsr.HasMode) {e : Exception} (ht : m.trap? = some e) :
    m.Handles e (m.core.instructionSet.align m.core.pc) m.step.2 := by
  have hcore := core_step_of_trap ht
  have hent := Core.enter_entered (k := m.core.aligned) h e
  rw [Core.returnAddress_eq, Core.pc_aligned] at hent
  refine .of_entered ?_ ?_ ?_
  · rw [hcore]
    exact hent.of_aligned
  · rw [hcore]
    exact Core.cpsr_enter (k := m.core.aligned) h e
  · obtain ⟨es, hes⟩ := flight_of_trap ht
    rw [bus_step, hes]
    rfl

/-- **Entry into a handler**, from any state with a mode.  The saved status of the
    handler's mode is the whole interrupted status; the new status differs from it in the
    mode, T and I alone; R15 is at the vector, which is 4, 8 or 0x18; R14 of the handler's
    mode is the way back.
    Every other register of every mode, every other saved status and the memory are as
    they were.  It is so when the host enters the handler and when an instruction traps; a
    request for an interrupt is that entry where requests are enabled, and nothing at all
    where they are not. -/
theorem handler_entry (h : m.core.cpsr.HasMode) :
    (∀ e, m.Handles e m.core.pc (m.enterException e).2)
      ∧ (∀ e, m.trap? = some e →
        m.Handles e (m.core.instructionSet.align m.core.pc) m.step.2)
      ∧ (m.core.cpsr.irqDisabled = false → m.raiseIrq = m.enterException .irq)
      ∧ (m.core.cpsr.irqDisabled = true → m.raiseIrq = (0, m)) := by
  refine ⟨handles_enterException h, fun e => handles_step h, ?_, ?_⟩
  · intro hopen
    rw [raiseIrq, hopen]
    exact if_neg Bool.false_ne_true
  · intro hmasked
    rw [raiseIrq, hmasked]
    exact if_pos rfl

/-- A software interrupt from supervisor mode itself, at address 2 in the 16-bit set, with
    interrupt requests disabled: the way back is address 4, and a request does nothing.
    With requests enabled it enters its handler, and the way back is address 6. -/
theorem handler_entry_of_supervisor :
    let m := ((Rom.machine [0xDF000000] .supervisor).pokeStatus ⟨0x800000B3⟩).write Reg.pc 2
    let enabled := m.pokeStatus ⟨0x80000033⟩
    m.trap? = some .softwareInterrupt
      ∧ m.Handles .softwareInterrupt 2 m.step.2
      ∧ m.step.2.core.cpsr.raw = 0x80000093
      ∧ m.step.2.core.registers.read Reg.lr = 4
      ∧ m.step.2.core.bank.spsr? .supervisor = some ⟨0x800000B3⟩
      ∧ m.raiseIrq = (0, m)
      ∧ enabled.raiseIrq = enabled.enterException .irq
      ∧ enabled.raiseIrq.2.core.registers.read Reg.lr = 6 := by
  intro m enabled
  have htrap : m.trap? = some .softwareInterrupt := by decide +kernel
  have hpc : m.core.instructionSet.align m.core.pc = 2 := by decide +kernel
  obtain ⟨-, hstep, -, hmasked⟩ := handler_entry (m := m) ⟨.supervisor, by decide +kernel⟩
  obtain ⟨-, -, hrequest, -⟩ := handler_entry (m := enabled) ⟨.supervisor, by decide +kernel⟩
  have hhandles := hstep _ htrap
  rw [hpc] at hhandles
  exact ⟨htrap, hhandles, by decide +kernel, by decide +kernel, by decide +kernel,
    hmasked (by decide +kernel), hrequest (by decide +kernel), by decide +kernel⟩

end Machine

end Armv4t
