import Armv4t.Proofs.Alignment
import Armv4t.Proofs.ModeInvariant
import Armv4t.Proofs.Turns

/-! # Boundaries — R15 between any two instructions

    A host calls for single steps and for runs of a budget, in any order, and each run has
    boundaries of its own between the instructions it executes.  All of them are boundaries
    of one sequence of instructions (`Boundary`): after `n` instructions the machine is
    alike to the one after `n` plain steps (`Boundary.alike_after`), whatever the calls
    were.

    So R15 is a multiple of the width of an instruction at every boundary but the first,
    and at the first one as well after a reset or an entry into a handler
    (`pc_is_aligned_at_boundaries`). -/

namespace Armv4t

/-- R15 is a multiple of the width of an instruction: of two where the T bit is set, of
    four where it is clear. -/
def Core.PcOnInstruction (k : Core) : Prop := k.pc.toNat % (if k.cpsr.t then 2 else 4) = 0

instance (k : Core) : Decidable k.PcOnInstruction := inferInstanceAs (Decidable (_ = _))

/-- That is what aligning R15 leaves alone. -/
theorem Core.pcOnInstruction_iff (k : Core) : k.PcOnInstruction ↔ k.PcAligned := by
  have hsize : k.instructionSet.size.toNat = if k.cpsr.t then 2 else 4 := by
    show (InstructionSet.ofBit k.cpsr.t).size.toNat = _
    cases k.cpsr.t <;> rfl
  rw [PcOnInstruction, PcAligned, InstructionSet.align_eq_self_iff, hsize]

/-- An exception starts its handler at an aligned R15. -/
theorem Core.pcAligned_enter (k : Core) (e : Exception) : (k.enter e).PcAligned :=
  pcAligned_jump _ e.vector

namespace Machine

variable {B : Type} [Bus B]

/-! ## The instructions of one run -/

/-- A run of a budget executes so many instructions: its turns go on that long, and no
    longer, unless it is as long as a run can be. -/
structure Executes (m : Machine B) (budget : Int32) (n : Nat) : Prop where
  goesOn : ∀ k < n, GoesOn (turns budget m k)
  ends : GoesOn (turns budget m n) → n = runLimit
  le_limit : n ≤ runLimit

/-- There is only one such number. -/
theorem Executes.unique {m : Machine B} {budget : Int32} {n k : Nat}
    (hn : Executes m budget n) (hk : Executes m budget k) : n = k := by
  rcases Nat.lt_trichotomy n k with h | h | h
  · have hlimit := hn.ends (hk.goesOn n h)
    have hle := hk.le_limit
    omega
  · exact h
  · have hlimit := hk.ends (hn.goesOn k h)
    have hle := hn.le_limit
    omega

/-- A run of at most so many instructions ends where its turns do, by induction on the
    bound. -/
theorem run_alike_turns (limit : Nat) (budget : Int32) (m : Machine B) :
    ∃ n ≤ limit, (∀ k < n, GoesOn (turns budget m k))
      ∧ (GoesOn (turns budget m n) → n = limit)
      ∧ Alike (run limit budget m).2 (m.after n) := by
  induction limit generalizing budget m with
  | zero =>
      refine ⟨0, Nat.le_refl 0, fun k hk => absurd hk (Nat.not_lt_zero k), fun _ => rfl, ?_⟩
      rw [run_zero]
      exact Alike.refl m
  | succ limit ih =>
      by_cases hgo : GoesOn (budget, m)
      · have hb : 0 < budget := hgo.1
        have hs : m.stops = false := hgo.2
        obtain ⟨n, hle, hgoes, hends, halike⟩ := ih (budget - m.asked.step.1) m.asked.step.2
        refine ⟨n + 1, Nat.succ_le_succ hle, ?_, ?_, ?_⟩
        · intro k hk
          cases k with
          | zero => exact hgo
          | succ k =>
              rw [turns_turn]
              exact hgoes k (Nat.lt_of_succ_lt_succ hk)
        · intro hlast
          rw [turns_turn] at hlast
          exact congrArg Nat.succ (hends hlast)
        · rw [run_succ, if_pos hb, if_neg (by rw [hs]; exact Bool.false_ne_true), after_step]
          exact halike.trans ((Alike.asked m).step.2.after n)
      · refine ⟨0, Nat.zero_le _, fun k hk => absurd hk (Nat.not_lt_zero k),
          fun h => absurd h hgo, ?_⟩
        rw [run_succ]
        by_cases hb : 0 < budget
        · have hs : m.stops = true := Bool.eq_true_of_not_eq_false fun hs => hgo ⟨hb, hs⟩
          rw [if_pos hb, if_pos hs]
          exact Alike.asked m
        · rw [if_neg hb]
          exact Alike.refl m

/-- Every run executes some number of instructions. -/
theorem exists_executes (m : Machine B) (budget : Int32) : ∃ n, Executes m budget n := by
  obtain ⟨n, hle, hgo, hends, -⟩ := run_alike_turns runLimit budget m
  exact ⟨n, hgo, hends, hle⟩

/-- It gives back a machine that is alike to the one after as many steps. -/
theorem Executes.alike_after {m : Machine B} {budget : Int32} {n : Nat}
    (h : Executes m budget n) : Alike (m.execute budget).2 (m.after n) := by
  obtain ⟨k, hle, hgo, hends, halike⟩ := run_alike_turns runLimit budget m
  have hk : n = k := h.unique ⟨hgo, hends, hle⟩
  rw [hk]
  exact halike

/-! ## The boundaries of all calls -/

/-- The boundaries between instructions of single steps and runs, called in any order and
    any number of times from a machine on, each with the number of instructions that were
    executed before it. -/
inductive Boundary (m : Machine B) : Nat → Machine B → Prop where
  | start : Boundary m 0 m
  | step {n : Nat} {m₁ : Machine B} (before : Boundary m n m₁) : Boundary m (n + 1) m₁.step.2
  /-- Within a run, after some of its instructions. -/
  | within {n k : Nat} {m₁ : Machine B} {budget : Int32} (before : Boundary m n m₁)
      (goesOn : ∀ j < k, GoesOn (turns budget m₁ j)) : Boundary m (n + k) (turns budget m₁ k).2
  /-- After a run. -/
  | execute {n k : Nat} {m₁ : Machine B} {budget : Int32} (before : Boundary m n m₁)
      (executes : Executes m₁ budget k) : Boundary m (n + k) (m₁.execute budget).2

namespace Boundary

variable {m b : Machine B} {n : Nat}

/-- **All calls go through one sequence of instructions**: at a boundary the machine is
    alike to the one after as many plain steps, by induction on the calls. -/
theorem alike_after (h : Boundary m n b) : Alike b (m.after n) := by
  induction h with
  | start => exact Alike.refl m
  | step _ ih =>
      rw [after_succ]
      exact ih.step.2
  | @within n k m₁ budget _ _ ih =>
      rw [after_add]
      exact (turns_alike budget m₁ k).trans (ih.after k)
  | @execute n k m₁ budget _ executes ih =>
      rw [after_add]
      exact executes.alike_after.trans (ih.after k)

/-- After the first instruction R15 is aligned at every boundary. -/
theorem pcAligned (h : Boundary m n b) (hn : 0 < n) : b.core.PcAligned := by
  obtain ⟨k, rfl⟩ := Nat.exists_eq_add_of_lt hn
  have halike := h.alike_after
  rw [halike.core, Nat.zero_add, after_succ]
  exact (m.after k).pcAligned_step

/-- From an aligned start it is aligned at the first one too. -/
theorem pcAligned_of_start (h : Boundary m n b) (hm : m.core.PcAligned) : b.core.PcAligned := by
  rw [h.alike_after.core]
  exact pcAligned_after hm n

end Boundary

/-- **R15 is aligned at every boundary.**  From any machine, its R15 aligned or not, a step
    leaves R15 a multiple of the width of an instruction for the resulting T bit.  So do a
    reset, an entry into a handler, and a request for an interrupt that is taken.  And so is
    R15 at every boundary of any steps and runs from the first instruction on, and at the
    first boundary too if the machine starts with it. -/
theorem pc_is_aligned_at_boundaries (m : Machine B) :
    m.step.2.core.PcOnInstruction
      ∧ m.reset.core.PcOnInstruction
      ∧ (∀ e, (m.enterException e).2.core.PcOnInstruction)
      ∧ (m.core.cpsr.irqDisabled = false → m.raiseIrq.2.core.PcOnInstruction)
      ∧ ∀ n b, Boundary m n b → 0 < n ∨ m.core.PcOnInstruction → b.core.PcOnInstruction := by
  have hentry (e : Exception) : (m.enterException e).2.core.PcOnInstruction := by
    rw [Core.pcOnInstruction_iff, core_enterException]
    exact m.core.pcAligned_enter e
  refine ⟨?_, ?_, hentry, ?_, ?_⟩
  · rw [Core.pcOnInstruction_iff]
    exact m.pcAligned_step
  · rw [Core.pcOnInstruction_iff]
    exact Core.pcAligned_jump _ m.host.config.resetVector
  · intro hd
    rw [raiseIrq, if_neg (by rw [hd]; exact Bool.false_ne_true)]
    exact hentry .irq
  · intro n b hb hstart
    rw [Core.pcOnInstruction_iff]
    rcases hstart with hn | hm
    · exact hb.pcAligned hn
    · exact hb.pcAligned_of_start (m.core.pcOnInstruction_iff.mp hm)

/-- Four instructions that go to the 16-bit set and back, from a misaligned R15: the first
    boundary is misaligned, and the one in the 16-bit set within a run is not. -/
theorem pc_is_aligned_at_boundaries_of_misaligned :
    let m := acrossSets.write Reg.pc 3
    ¬ m.core.PcOnInstruction
      ∧ (turns 8 m 2).2.core.instructionSet = .thumb
      ∧ (turns 8 m 2).2.core.PcOnInstruction := by
  intro m
  have hgo : ∀ j < 2, GoesOn (turns 8 m j) := by decide +kernel
  have hb : Boundary m (0 + 2) (turns 8 m 2).2 := .within .start hgo
  have hcases := (pc_is_aligned_at_boundaries m).2.2.2.2 (0 + 2) _ hb
  exact ⟨by decide +kernel, by decide +kernel, hcases (Or.inl (by decide))⟩

end Machine

end Armv4t
