import Armv4t.Proofs.Footprint

/-! # Alignment — where R15 can point between instructions

    R15 is aligned where it is a multiple of the width of an instruction of the set
    that the T bit selects (`Core.PcAligned`).  Every legal action keeps it aligned: a
    branch aligns its target, and only the 32-bit set can select the other one without
    a branch, from an address that suits both (`Action.pcAligned_onCore`).  So every
    step leaves it aligned, wherever it was before (`Machine.pcAligned_step`). -/

namespace Armv4t

/-- Clearing the bits of a mask changes nothing where they are clear. -/
theorem and_not_eq_self_iff (a mask : Word) : a &&& ~~~mask = a ↔ a &&& mask = 0 := by
  constructor
  · intro h
    rw [← h, UInt32.and_assoc, UInt32.not_and_self, UInt32.and_zero]
  · intro h
    have hsplit : (~~~mask ||| mask) &&& a = a := by
      rw [UInt32.not_or_self, UInt32.neg_one_and]
    rw [or_and_mask, UInt32.and_comm mask, h, UInt32.or_zero, UInt32.and_comm] at hsplit
    exact hsplit

namespace InstructionSet

/-- An address is aligned when it is a multiple of the width of an instruction. -/
theorem align_eq_self_iff (s : InstructionSet) (a : Word) :
    s.align a = a ↔ a.toNat % s.size.toNat = 0 := by
  cases s with
  | arm =>
      show a &&& ~~~3 = a ↔ a.toNat % 4 = 0
      rw [and_not_eq_self_iff, ← UInt32.toNat_inj, UInt32.toNat_and]
      exact Eq.congr_left (Nat.and_two_pow_sub_one_eq_mod a.toNat 2)
  | thumb =>
      show a &&& ~~~1 = a ↔ a.toNat % 2 = 0
      rw [and_not_eq_self_iff, ← UInt32.toNat_inj, UInt32.toNat_and]
      exact Eq.congr_left (Nat.and_two_pow_sub_one_eq_mod a.toNat 1)

theorem align_align (s : InstructionSet) (a : Word) : s.align (s.align a) = s.align a := by
  cases s with
  | arm => exact (UInt32.and_assoc ..).trans (congrArg (a &&& ·) (UInt32.and_self ..))
  | thumb => exact (UInt32.and_assoc ..).trans (congrArg (a &&& ·) (UInt32.and_self ..))

/-- What is aligned for the wide instructions is aligned for both sets. -/
theorem align_of_arm {a : Word} (h : InstructionSet.arm.align a = a) (s : InstructionSet) :
    s.align a = a := by
  cases s with
  | arm => exact h
  | thumb =>
      rw [align_eq_self_iff] at h ⊢
      have h4 : a.toNat % 4 = 0 := h
      show a.toNat % 2 = 0
      omega

/-- The next instruction of an aligned one is aligned, for a narrower set as well. -/
theorem align_add_size {s s' : InstructionSet} {a : Word} (h : s'.align a = a)
    (hs : s = .arm ∨ s' = s) : s'.align (a + s.size) = a + s.size := by
  rw [align_eq_self_iff] at h ⊢
  rw [UInt32.toNat_add]
  cases s' with
  | arm =>
      have h4 : a.toNat % 4 = 0 := h
      show (a.toNat + s.size.toNat) % 2 ^ 32 % 4 = 0
      obtain rfl | rfl := hs
      all_goals
        show (a.toNat + 4) % 2 ^ 32 % 4 = 0
        omega
  | thumb =>
      have h2 : a.toNat % 2 = 0 := h
      have hsize : s.size.toNat % 2 = 0 := by cases s <;> rfl
      show (a.toNat + s.size.toNat) % 2 ^ 32 % 2 = 0
      omega

end InstructionSet

/-- R15 is aligned for the instruction set that executes. -/
def Core.PcAligned (k : Core) : Prop := k.instructionSet.align k.pc = k.pc

instance (k : Core) : Decidable k.PcAligned := inferInstanceAs (Decidable (_ = _))

namespace Core

variable {k l : Core}

theorem pc_setRegister_pc (k : Core) (v : Word) : (k.setRegister Reg.pc v).pc = v := by
  show (k.registers.write Reg.pc v).read Reg.pc = v
  rw [Registers.read_write, if_pos rfl]

theorem pc_aligned (k : Core) : k.aligned.pc = k.instructionSet.align k.pc :=
  k.pc_setRegister_pc _

theorem pc_setRegister_of_ne (k : Core) {i : Reg} (hi : i ≠ Reg.pc) (v : Word) :
    (k.setRegister i v).pc = k.pc := by
  show (k.registers.write i v).read Reg.pc = k.registers.read Reg.pc
  rw [Registers.read_write, if_neg hi]

theorem pcAligned_jump (k : Core) (target : Word) : (k.jump target).PcAligned := by
  show k.instructionSet.align (k.setRegister Reg.pc _).pc = (k.setRegister Reg.pc _).pc
  rw [pc_setRegister_pc, InstructionSet.align_align]

theorem pcAligned_aligned (k : Core) : k.aligned.PcAligned := k.pcAligned_jump k.pc

/-- An aligned core is what aligning it gives. -/
theorem PcAligned.aligned_eq (h : k.PcAligned) : k.aligned = k := by
  rw [aligned, h, setRegister_pc]

/-- The same R15 in the same set is aligned as well. -/
theorem PcAligned.of_eq (h : k.PcAligned) (hset : l.instructionSet = k.instructionSet)
    (hpc : l.pc = k.pc) : l.PcAligned := by
  show l.instructionSet.align l.pc = l.pc
  rw [hset, hpc]
  exact h

/-- Installing a status leaves R15 where it is. -/
theorem pc_tryInstall (k : Core) (p : Psr) : (k.tryInstall p).pc = k.pc := by
  cases hp : p.mode? with
  | ok m =>
      rw [tryInstall_of_ok hp]
      exact k.read_switchMode_of_low m (Or.inr rfl)
  | error e => rw [tryInstall_of_error hp]

/-- A register of user mode is never R15. -/
theorem pc_setUserRegister (k : Core) {i : Reg} (hi : i ≠ Reg.pc) (v : Word) :
    (k.setUserRegister i v).pc = k.pc := by
  show (k.bank.setUserRegister k.registers k.mode i v).1.read Reg.pc = k.registers.read Reg.pc
  rw [Bank.setUserRegister]
  split
  · rfl
  · show (k.registers.write i v).read Reg.pc = k.registers.read Reg.pc
    rw [Registers.read_write, if_neg hi]

end Core

/-- Flags are no part of the choice of the instruction set. -/
theorem Psr.instructionSet_eq_of_agreeOff {p q : Psr} (h : AgreeOff Psr.flagsMask p.raw q.raw) :
    p.instructionSet = q.instructionSet :=
  congrArg InstructionSet.ofBit (h.bit_eq (by decide) (by decide))

/-- **Every legal action keeps R15 aligned.** -/
theorem Action.pcAligned_onCore (a : Action) {k : Core} (legal : a.Legal k)
    (h : k.PcAligned) : (a.onCore k).PcAligned := by
  cases a with
  | load | store | tell | wait | scatter => exact h
  | setRegister i v => exact h.of_eq rfl (k.pc_setRegister_of_ne legal v)
  | branchTo target => exact k.pcAligned_jump target
  | updateFlags f => exact h.of_eq (Psr.instructionSet_eq_of_agreeOff (legal k.cpsr)) rfl
  | exchange s target => exact Core.pcAligned_jump _ target
  | moveStatus value fields =>
      -- the 32-bit set executes, and its alignment suits any set
      have harm : InstructionSet.arm.align k.pc = k.pc := by
        have hset : k.instructionSet = .arm := legal
        rw [← hset]
        exact h
      show (k.tryInstall _).instructionSet.align (k.tryInstall _).pc = (k.tryInstall _).pc
      rw [k.pc_tryInstall]
      exact InstructionSet.align_of_arm harm _
  | restore target => exact Core.pcAligned_jump _ target
  | saveStatus p => exact h
  | setUserRegister i v => exact h.of_eq rfl (k.pc_setUserRegister legal v)

/-- An instruction of the 16-bit set stays in it unless it branches. -/
theorem Action.flushed_or_thumb (a : Action) {B : Type} [Bus B] {x : Execution B}
    (legal : a.Legal x.core) (h : x.flushed = true ∨ x.core.instructionSet = .thumb) :
    (a.run x).flushed = true ∨ (a.run x).core.instructionSet = .thumb := by
  have hrun : (a.run x).flushed = (x.flushed || a.footprint.flushed) :=
    congrArg Footprint.flushed (a.footprint_run x)
  rcases h with hflushed | hset
  · refine Or.inl ?_
    rw [hrun, hflushed, Bool.true_or]
  · cases a with
    | branchTo | exchange | restore =>
        refine Or.inl ?_
        rw [hrun]
        exact Bool.or_true _
    | moveStatus value fields =>
        -- only the 32-bit set has it
        have harm : x.core.instructionSet = .arm := legal
        rw [hset] at harm
        exact nomatch harm
    | updateFlags f =>
        exact Or.inr ((Psr.instructionSet_eq_of_agreeOff (legal x.core.cpsr)).trans hset)
    | _ => exact Or.inr hset

namespace Machine

variable {B : Type}

/-- The address of the instruction that follows the next one in memory. -/
def nextPc (m : Machine B) : Word :=
  m.core.instructionSet.align m.core.pc + m.core.instructionSet.size

/-- Aligning R15 touches no other register. -/
theorem read_aligned {m : Machine B} {r : Reg} (hr : r ≠ Reg.pc) :
    m.core.aligned.registers.read r = m.read r := by
  show (m.core.registers.write Reg.pc _).read r = _
  rw [Registers.read_write, if_neg (Ne.symm hr)]
  rfl

variable [Bus B]

/-- **Every step leaves R15 aligned**, wherever it was before. -/
theorem pcAligned_step (m : Machine B) : m.step.2.core.PcAligned := by
  cases ht : m.trap? with
  | some e =>
      rw [core_step_of_trap ht]
      exact Core.pcAligned_jump _ e.vector
  | none =>
      have hacts := acts_flight ht
      have hflight : m.flight.core.PcAligned :=
        hacts.keeps_core (P := Core.PcAligned) (fun a k => a.pcAligned_onCore)
          m.core.pcAligned_aligned
      rw [core_step, endCore]
      by_cases hf : m.flight.flushed = true
      · rw [if_pos hf]
        exact hflight
      · rw [if_neg hf]
        have hset : m.core.instructionSet = .arm
            ∨ m.flight.core.instructionSet = m.core.instructionSet := by
          cases hs : m.core.instructionSet with
          | arm => exact Or.inl rfl
          | thumb =>
              have hstay : m.flight.flushed = true ∨ m.flight.core.instructionSet = .thumb :=
                hacts.keeps (fun a x => a.flushed_or_thumb) (Or.inr hs)
              exact Or.inr (hstay.resolve_left hf)
        show m.flight.core.instructionSet.align (m.flight.core.setRegister Reg.pc _).pc
          = (m.flight.core.setRegister Reg.pc _).pc
        rw [Core.pc_setRegister_pc]
        exact InstructionSet.align_add_size hflight hset

/-- So R15 stays aligned in a run, from where it is aligned. -/
theorem pcAligned_after {m : Machine B} (h : m.core.PcAligned) (n : Nat) :
    (m.after n).core.PcAligned := by
  cases n with
  | zero => exact h
  | succ n =>
      rw [after_succ]
      exact (m.after n).pcAligned_step

end Machine

end Armv4t
