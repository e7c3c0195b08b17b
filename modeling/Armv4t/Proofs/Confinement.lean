import Armv4t.Proofs.ModeInvariant
import Armv4t.Proofs.Rom

/-! # Confinement — user mode reaches no further than the vectors

    In user mode a program may write the flags and T of the current status, and
    nothing of the bank: transfers to the status are masked, there is no saved
    status to write or to return to, and user registers are the live ones.  The
    only way out is a trap, and a trap goes to a vector.

    * every action that is legal in user mode is confined (`Action.confined_onCore`),
      hence so is every instruction that does not trap (`Machine.confined_step`);
    * an instruction that traps enters a handler as any exception does
      (`Machine.trapped_step`);
    * so a run of steps is confined up to the trap that ends it
      (`Machine.user_mode_confined`). -/

namespace Armv4t

/-! ## What is confined, and what traps -/

/-- Only the flags and T of the current status have changed, and nothing in the bank. -/
structure Core.Confined (k k' : Core) : Prop where
  status : AgreeOff Psr.openMask k'.cpsr.raw k.cpsr.raw
  bank : k'.bank = k.bank

/-- A trap was taken to its vector, with the next instruction as the way back. -/
def Core.Trapped (k k' : Core) : Prop :=
  ∃ e, (e = .softwareInterrupt ∧ k'.pc = 0x08 ∧ k'.cpsr.mode? = .ok .supervisor
      ∨ e = .undefined ∧ k'.pc = 0x04 ∧ k'.cpsr.mode? = .ok .undefined)
    ∧ k.Entered e (k.instructionSet.align k.pc + k.instructionSet.size) k'

namespace Core.Confined

variable {k k₁ k₂ k₃ : Core}

theorem refl (k : Core) : k.Confined k := ⟨AgreeOff.refl _ _, rfl⟩

theorem trans (h₁ : k₁.Confined k₂) (h₂ : k₂.Confined k₃) : k₁.Confined k₃ :=
  ⟨h₂.status.trans h₁.status, h₂.bank.trans h₁.bank⟩

/-- The mode field is not among what may change. -/
theorem mode?_eq (h : k₁.Confined k₂) : k₂.cpsr.mode? = k₁.cpsr.mode? :=
  Psr.mode?_eq_of_agreeOff h.status (by decide)

/-- A status that agrees off the flags and T, installed in user mode, is confined. -/
theorem tryInstall {p : Psr} (hu : k.cpsr.mode? = .ok .user)
    (hp : AgreeOff Psr.openMask p.raw k.cpsr.raw) : k.Confined (k.tryInstall p) := by
  have hm : p.mode? = .ok .user := (Psr.mode?_eq_of_agreeOff hp (by decide)).trans hu
  have hk : k.mode = .user := Psr.mode_eq_of_mode? hu
  rw [Core.tryInstall_of_ok hm, Core.switchMode_of_eq hk]
  exact ⟨hp, rfl⟩

end Core.Confined

/-- User mode sees the live registers as its own. -/
theorem Bank.userSlot?_user (i : Reg) : Bank.userSlot? .user i = none := by
  rw [userSlot?]
  by_cases h : 8 ≤ i.val ∧ i.val ≤ 14
  · rw [dif_pos h]
  · rw [dif_neg h]

/-- In user mode a status transfer reaches the flags only. -/
theorem Arm.statusAfterMove_agreeOff {k : Core} (hu : k.mode = .user) (value : Word)
    (fields : StatusFields) :
    AgreeOff Psr.flagsMask (statusAfterMove k value fields).raw k.cpsr.raw := by
  have h : AgreeOff (fields.mask &&& Psr.flagsMask) (statusAfterMove k value fields).raw
      k.cpsr.raw := by
    rw [statusAfterMove, hu]
    exact Psr.writeMasked_agreeOff k.cpsr _ _
  exact h.of_and

/-- Every action that is legal in user mode is confined. -/
theorem Action.confined_onCore (a : Action) {k : Core} (legal : a.Legal k)
    (hu : k.cpsr.mode? = .ok .user) : k.Confined (a.onCore k) := by
  have hmode : k.mode = .user := Psr.mode_eq_of_mode? hu
  cases a with
  | load | store | tell | wait | scatter => exact Core.Confined.refl k
  | setRegister i v => exact ⟨AgreeOff.refl _ _, rfl⟩
  | branchTo target => exact ⟨AgreeOff.refl _ _, rfl⟩
  | updateFlags f => exact ⟨(legal k.cpsr).mono (by decide), rfl⟩
  | exchange s target => exact ⟨(k.cpsr.setT_agreeOff s.toBit).mono (by decide), rfl⟩
  | moveStatus value fields =>
      exact Core.Confined.tryInstall hu
        ((Arm.statusAfterMove_agreeOff hmode value fields).mono (by decide))
  | restore target =>
      have hnone : k.spsr? = none := by
        rw [Core.spsr?, hmode]
        rfl
      show k.Confined (k.restored.jump target)
      rw [Core.restored_of_none hnone]
      exact ⟨AgreeOff.refl _ _, rfl⟩
  | saveStatus p =>
      -- user mode has no saved status to save
      have hhas : k.mode.hasSpsr = true := legal
      rw [hmode] at hhas
      exact nomatch hhas
  | setUserRegister i v =>
      refine ⟨AgreeOff.refl _ _, ?_⟩
      show (k.bank.setUserRegister k.registers k.mode i v).2 = k.bank
      rw [hmode, Bank.setUserRegister, Bank.userSlot?_user]

/-! ## One step -/

/-- An instruction traps by a software interrupt or as undefined. -/
theorem Fetched.exception?_cases {f : Fetched} {e : Exception} (h : f.exception? = some e) :
    e = .softwareInterrupt ∨ e = .undefined := by
  cases f with
  | skipped o => exact nomatch h
  | arm o =>
      have ho : o.instruction.exception? = some e := h
      cases hi : o.instruction with
      | softwareInterrupt comment => rw [hi] at ho; cases ho; exact Or.inl rfl
      | coprocessor | undefined => rw [hi] at ho; cases ho; exact Or.inr rfl
      | _ => rw [hi] at ho; exact nomatch ho
  | thumb o =>
      have ho : o.instruction.exception? = some e := h
      cases hi : o.instruction with
      | softwareInterrupt comment => rw [hi] at ho; cases ho; exact Or.inl rfl
      | undefined => rw [hi] at ho; cases ho; exact Or.inr rfl
      | _ => rw [hi] at ho; exact nomatch ho

/-- Aligning R15 changes no view. -/
theorem Core.view_aligned (k : Core) (m : Mode) (i : HighReg) :
    k.aligned.view m i = k.view m i :=
  k.view_setRegister_pc _ m i

/-- Aligning R15 changes nothing that the entry into a handler keeps. -/
theorem Core.Entered.of_aligned {k k' : Core} {e : Exception} {link : Word}
    (h : k.aligned.Entered e link k') : k.Entered e link k' where
  mode := h.mode
  arm := h.arm
  masked := h.masked
  status := h.status
  pc := h.pc
  link := h.link
  saved := h.saved
  views := fun m i hmi => (h.views m i hmi).trans (k.view_aligned m i)
  spsrs := h.spsrs
  low := by
    intro r hr
    have hpc : Reg.pc ≠ r := fun hr' => absurd (hr' ▸ hr) (by decide)
    rw [h.low r hr]
    show (k.registers.write Reg.pc _).read r = _
    rw [Registers.read_write, if_neg hpc]

/-- Nothing is both confined and trapped: a trap leaves user mode. -/
theorem Core.Confined.not_trapped {k k' : Core} (h : k.Confined k')
    (hu : k.cpsr.mode? = .ok .user) : ¬ k.Trapped k' := by
  rintro ⟨e, hcase, -⟩
  have hk' := h.mode?_eq.trans hu
  rcases hcase with ⟨-, -, hm⟩ | ⟨-, -, hm⟩
  · rw [hk'] at hm
    exact nomatch hm
  · rw [hk'] at hm
    exact nomatch hm

namespace Machine

variable {B : Type} [Bus B] {m : Machine B}

/-- A step that does not trap is confined. -/
theorem confined_step (hu : m.core.cpsr.mode? = .ok .user) (ht : m.trap? = none) :
    m.core.Confined m.step.2.core := by
  have hflight : m.core.Confined m.flight.core := by
    refine (acts_flight ht).keeps_core ?_ ⟨AgreeOff.refl _ _, rfl⟩
    intro a k legal hk
    exact hk.trans (a.confined_onCore legal (hk.mode?_eq.trans hu))
  obtain ⟨pc, hpc⟩ := endCore_eq m.core.instructionSet m.flight
  rw [core_step, hpc]
  exact ⟨hflight.status, hflight.bank⟩

/-- A step that traps arrives at a vector. -/
theorem trapped_step (hm : m.core.cpsr.HasMode) {e : Exception} (ht : m.trap? = some e) :
    m.core.Trapped m.step.2.core := by
  have hlink : m.core.aligned.returnAddress e
      = m.core.instructionSet.align m.core.pc + m.core.instructionSet.size := by
    have hpc : m.core.aligned.pc = m.core.instructionSet.align m.core.pc := by
      show (m.core.registers.write Reg.pc _).read Reg.pc = _
      rw [Registers.read_write, if_pos rfl]
    rw [← hpc]
    rcases Fetched.exception?_cases ht with rfl | rfl <;> rfl
  have h := Core.enter_entered (k := m.core.aligned) hm e
  rw [hlink] at h
  rw [core_step_of_trap ht]
  refine ⟨e, ?_, h.of_aligned⟩
  rcases Fetched.exception?_cases ht with rfl | rfl
  · exact Or.inl ⟨rfl, h.pc, h.mode⟩
  · exact Or.inr ⟨rfl, h.pc, h.mode⟩

/-! ## A run of steps -/

/-- A run that starts in user mode stays confined, or it has trapped for the first
    time at some step; by induction on the steps. -/
theorem confined_until_trapped (hu : m.core.cpsr.mode? = .ok .user) (N : Nat) :
    (∀ i ≤ N, m.core.Confined (m.after i).core)
      ∨ ∃ n < N, (∀ i ≤ n, m.core.Confined (m.after i).core)
        ∧ (m.after n).core.Trapped (m.after (n + 1)).core := by
  induction N with
  | zero =>
      refine Or.inl ?_
      intro i hi
      rw [Nat.le_zero.mp hi]
      exact Core.Confined.refl m.core
  | succ N ih =>
      rcases ih with hconf | ⟨n, hn, hconf, htrap⟩
      · have hN := hconf N (Nat.le_refl N)
        have huN : (m.after N).core.cpsr.mode? = .ok .user := hN.mode?_eq.trans hu
        cases ht : (m.after N).trap? with
        | none =>
            refine Or.inl ?_
            intro i hi
            rcases Nat.le_succ_iff.mp hi with hi | rfl
            · exact hconf i hi
            · rw [after_succ]
              exact hN.trans (confined_step huN ht)
        | some e =>
            refine Or.inr ⟨N, Nat.lt_succ_self N, hconf, ?_⟩
            rw [after_succ]
            exact trapped_step ⟨.user, huN⟩ ht
      · exact Or.inr ⟨n, Nat.lt_succ_of_lt hn, hconf, htrap⟩

/-- **User mode is confined**: a step from user mode either changes no more of the
    status than the flags and T and nothing of the bank, or it traps to a vector, and
    never both.  So in a run of any length that has left user mode there was a first
    step that left it; everything before was confined, and it arrived at a vector. -/
theorem user_mode_confined (hu : m.core.cpsr.mode? = .ok .user) :
    (m.core.Confined m.step.2.core ∧ ¬ m.core.Trapped m.step.2.core
        ∨ m.core.Trapped m.step.2.core ∧ ¬ m.core.Confined m.step.2.core)
      ∧ ∀ N, (m.after N).core.cpsr.mode? ≠ .ok .user →
        ∃ n < N, (∀ i ≤ n, (m.after i).core.cpsr.mode? = .ok .user
            ∧ m.core.Confined (m.after i).core)
          ∧ (m.after n).core.Trapped (m.after (n + 1)).core := by
  constructor
  · cases ht : m.trap? with
    | none =>
        have h := confined_step hu ht
        exact Or.inl ⟨h, h.not_trapped hu⟩
    | some e =>
        have h := trapped_step ⟨.user, hu⟩ ht
        exact Or.inr ⟨h, fun hc => hc.not_trapped hu h⟩
  · intro N hN
    rcases confined_until_trapped hu N with hconf | ⟨n, hn, hconf, htrap⟩
    · exact absurd ((hconf N (Nat.le_refl N)).mode?_eq.trans hu) hN
    · exact ⟨n, hn, fun i hi => ⟨(hconf i hi).mode?_eq.trans hu, hconf i hi⟩, htrap⟩

/-- A software interrupt in user mode traps, and is not confined. -/
theorem user_mode_confined_of_software_interrupt :
    (Rom.machine [0xEF000000] .user).core.cpsr.mode? = .ok .user
      ∧ (Rom.machine [0xEF000000] .user).core.Trapped
        (Rom.machine [0xEF000000] .user).step.2.core := by
  have hu : (Rom.machine [0xEF000000] .user).core.cpsr.mode? = .ok .user := by rfl
  refine ⟨hu, ?_⟩
  rcases (user_mode_confined hu).1 with ⟨hconf, -⟩ | ⟨htrap, -⟩
  · have hleft : (Rom.machine [0xEF000000] .user).step.2.core.cpsr.mode? = .ok .supervisor := by
      rfl
    exact nomatch hleft.symm.trans (hconf.mode?_eq.trans hu)
  · exact htrap

end Machine

end Armv4t
