import Armv4t.Proofs.Banking

/-! # Exception entry — what the way into a handler keeps

    Entering a handler is a switch to its mode and four writes: the saved status of
    that mode, its R14, the T and I bits, and R15.  Read through the modes' views
    everything else is where it was, R13 of the handler's own mode included. -/

namespace Armv4t

/-- A core that has entered the handler of an exception from another one, with an
    address to return to. -/
structure Core.Entered (k : Core) (e : Exception) (link : Word) (k' : Core) : Prop where
  /-- The handler runs in its mode, in the 32-bit set, with interrupts disabled. -/
  mode : k'.cpsr.mode? = .ok e.targetMode
  arm : k'.cpsr.t = false
  masked : k'.cpsr.irqDisabled = true
  status : AgreeOff Psr.entryMask k'.cpsr.raw k.cpsr.raw
  pc : k'.pc = e.vector
  /-- The way back. -/
  link : k'.view e.targetMode HighReg.lr = link
  saved : k'.bank.spsr? e.targetMode = some k.cpsr
  /-- Everything else is kept. -/
  views : ∀ m i, ¬ (m = e.targetMode ∧ i = HighReg.lr) → k'.view m i = k.view m i
  spsrs : ∀ m, m ≠ e.targetMode → k'.bank.spsr? m = k.bank.spsr? m
  low : ∀ r : Reg, r.val < 8 → k'.registers.read r = k.registers.read r

namespace Exception

theorem hasSpsr_targetMode (e : Exception) : e.targetMode.hasSpsr = true := by
  cases e <;> rfl

/-- The mode of a handler owns its R14, and no other mode uses it. -/
theorem owner_lr (e : Exception) (m : Mode) :
    e.targetMode.owner HighReg.lr = m.owner HighReg.lr ↔ m = e.targetMode := by
  cases e <;> cases m <;> decide

theorem align_vector (e : Exception) : InstructionSet.arm.align e.vector = e.vector := by
  cases e <;> rfl

end Exception

namespace Core

/-- The core between the switch to the handler's mode and the jump to it. -/
def linked (k : Core) (e : Exception) : Core :=
  { registers := (k.switchMode e.targetMode).registers.write Reg.lr (k.returnAddress e)
    cpsr := ((k.switchMode e.targetMode).cpsr.setInstructionSet .arm).setIrqDisabled true
    bank := (k.switchMode e.targetMode).bank.setSpsr e.targetMode k.cpsr }

theorem t_linked (k : Core) (e : Exception) : (k.linked e).cpsr.t = false := by
  show (((k.switchMode e.targetMode).cpsr.setInstructionSet .arm).setIrqDisabled true).t = false
  rw [Psr.t_setIrqDisabled]
  exact Psr.t_setT _ _

/-- The mode field of the handler's status is that of the switched core. -/
theorem status_linked (k : Core) (e : Exception) :
    AgreeOff 0xA0 (k.linked e).cpsr.raw (k.switchMode e.targetMode).cpsr.raw :=
  ((Psr.setIrqDisabled_agreeOff _ true).mono (by decide)).trans
    ((Psr.setT_agreeOff _ false).mono (by decide))

theorem mode_linked {k : Core} (h : k.cpsr.HasMode) (e : Exception) :
    (k.linked e).cpsr.mode? = .ok e.targetMode := by
  rw [Psr.mode?_eq_of_agreeOff (k.status_linked e) (by decide)]
  by_cases hm : k.mode = e.targetMode
  · rw [switchMode_of_eq hm, h.mode?_eq]
    exact congrArg Except.ok hm
  · rw [switchMode_of_ne hm]
    exact k.cpsr.mode?_setMode e.targetMode

/-- The undefined handler gets its mode whatever the status holds: a field without a
    mode reads as supervisor, and so the switch is made. -/
theorem mode_linked_undefined (k : Core) :
    (k.linked .undefined).cpsr.mode? = .ok .undefined := by
  by_cases h : k.cpsr.HasMode
  · exact mode_linked h .undefined
  · have hne : k.mode ≠ .undefined := by
      intro hm
      rw [mode, Psr.mode] at hm
      cases hp : k.cpsr.mode? with
      | ok m => exact h ⟨m, hp⟩
      | error e =>
          rw [hp] at hm
          cases hm
    rw [Psr.mode?_eq_of_agreeOff (k.status_linked .undefined) (by decide)]
    show (k.switchMode .undefined).cpsr.mode? = _
    rw [switchMode_of_ne hne]
    exact k.cpsr.mode?_setMode .undefined

/-- The registers of the handler: R15 and R14 are written, the others are switched. -/
theorem read_enter (k : Core) (e : Exception) (r : Reg) :
    (k.enter e).registers.read r =
      if Reg.pc = r then e.vector
      else if Reg.lr = r then k.returnAddress e
      else (k.switchMode e.targetMode).registers.read r := by
  have hset : (k.linked e).instructionSet = .arm := by
    rw [instructionSet, Psr.instructionSet, t_linked]
    rfl
  show ((k.linked e).registers.write Reg.pc ((k.linked e).instructionSet.align e.vector)).read r = _
  rw [hset, e.align_vector, Registers.read_write]
  by_cases hr : Reg.pc = r
  · rw [if_pos hr, if_pos hr]
  · rw [if_neg hr, if_neg hr]
    exact Registers.read_write _ Reg.lr r _

/-- The handler's mode sees the way back in its R14. -/
theorem link_enter {k : Core} {e : Exception}
    (h : (k.linked e).cpsr.mode? = .ok e.targetMode) :
    (k.enter e).view e.targetMode HighReg.lr = k.returnAddress e := by
  have hmode : (k.enter e).mode = e.targetMode := Psr.mode_eq_of_mode? h
  rw [view, if_pos (congrArg (Mode.owner · HighReg.lr) hmode), read_enter, if_neg (by decide)]
  exact if_pos rfl

/-- Every other view is that of the switched core, and so that of the core before. -/
theorem view_enter {k : Core} {e : Exception}
    (h : (k.linked e).cpsr.mode? = .ok e.targetMode) {m : Mode} {i : HighReg}
    (hmi : ¬ (m = e.targetMode ∧ i = HighReg.lr)) : (k.enter e).view m i = k.view m i := by
  have hmode : (k.enter e).mode = e.targetMode := Psr.mode_eq_of_mode? h
  rw [← k.view_switchMode e.targetMode m i, view, view, hmode, k.mode_switchMode]
  by_cases ho : e.targetMode.owner i = m.owner i
  · rw [if_pos ho, if_pos ho, read_enter, if_neg (Ne.symm i.wide_ne_pc)]
    have hlr : Reg.lr ≠ i.wide := by
      intro hi
      have hi' : i = HighReg.lr := by
        have hv : 14 = i.val + 8 := congrArg Fin.val hi
        refine Fin.ext ?_
        show i.val = 6
        omega
      rw [hi'] at ho
      exact hmi ⟨(e.owner_lr m).mp ho, hi'⟩
    rw [if_neg hlr]
  · rw [if_neg ho, if_neg ho]
    exact Bank.slot_setSpsr _ e.targetMode (m.owner i) k.cpsr i

theorem spsr_enter (k : Core) (e : Exception) (m : Mode) :
    (k.enter e).bank.spsr? m = if m = e.targetMode then some k.cpsr else k.bank.spsr? m := by
  show ((k.switchMode e.targetMode).bank.setSpsr e.targetMode k.cpsr).spsr? m = _
  rw [Bank.spsr?_setSpsr, k.spsr?_switchMode]
  by_cases hm : m = e.targetMode
  · rw [if_pos hm, if_pos ⟨hm, e.hasSpsr_targetMode⟩]
  · rw [if_neg hm, if_neg fun h => hm h.1]

/-- **Entering a handler**: where the handler gets its mode, all that is written is
    written where the handler expects it, and nothing else changes. -/
theorem entered_of_mode {k : Core} {e : Exception}
    (h : (k.linked e).cpsr.mode? = .ok e.targetMode) :
    k.Entered e (k.returnAddress e) (k.enter e) where
  mode := h
  arm := k.t_linked e
  masked := Psr.irqDisabled_setIrqDisabled _ true
  status := ((k.status_linked e).mono (by decide)).trans
    ((k.cpsr_switchMode e.targetMode).mono (by decide))
  pc := by
    show (k.enter e).registers.read Reg.pc = e.vector
    rw [read_enter, if_pos rfl]
  link := link_enter h
  saved := by
    rw [spsr_enter, if_pos rfl]
  views := fun _ _ hmi => view_enter h hmi
  spsrs := by
    intro m hm
    rw [spsr_enter, if_neg hm]
  low := by
    intro r hr
    have hpc : Reg.pc ≠ r := fun h => absurd (h ▸ hr) (by decide)
    have hlr : Reg.lr ≠ r := fun h => absurd (h ▸ hr) (by decide)
    rw [read_enter, if_neg hpc, if_neg hlr]
    exact k.read_switchMode_of_low e.targetMode (Or.inl hr)

/-- So it is from every status with a mode. -/
theorem enter_entered {k : Core} (h : k.cpsr.HasMode) (e : Exception) :
    k.Entered e (k.returnAddress e) (k.enter e) :=
  entered_of_mode (mode_linked h e)

end Core

end Armv4t
