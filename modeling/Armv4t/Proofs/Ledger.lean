import Armv4t.Proofs.ModeInvariant
import Armv4t.Proofs.Timing
import Armv4t.Proofs.Turns

/-! # The ledger — two counters, and what the host was told

    The counters of a machine are moved where an instruction ends and where a handler is
    entered from outside.  What the host is told of the same cycles goes another way: a
    step and an entry give them back, a run takes them from its budget.

    * A step adds what it gives back to the one counter and one to the other
      (`Machine.counted_step`), an entry adds what it gives back and nothing
      (`Machine.counted_enterException`);
    * so a run adds what it takes from its budget, and as many instructions as it
      executes (`Machine.counted_runs`), by induction on its turns;
    * nothing else a host does moves a counter (`HostOp.counters_apply`);
    * since a reset the counters therefore hold the sums over all that was called
      (`Machine.calls_are_counted`), by induction on the calls. -/

namespace Armv4t

/-- The counters of instructions and cycles. -/
def Host.counters (h : Host) : UInt64 × UInt64 := (h.instructions, h.cycles)

namespace Machine

variable {B : Type} {m m' m'' : Machine B}

/-! ## Entries -/

/-- From one machine to another the counters went on by so many cycles and instructions. -/
structure Counted (m : Machine B) (cycles : Int) (instructions : Nat) (m' : Machine B) : Prop where
  nonneg : 0 ≤ cycles
  cycles_eq : m'.host.cycles = m.host.cycles + UInt64.ofNat cycles.toNat
  instructions_eq : m'.host.instructions = m.host.instructions + UInt64.ofNat instructions

namespace Counted

/-- Equal counters went on by nothing. -/
theorem of_counters (h : m'.host.counters = m.host.counters) : Counted m 0 0 m' := by
  obtain ⟨hinstructions, hcycles⟩ := Prod.mk.inj h
  refine ⟨Int.le_refl 0, ?_, ?_⟩
  · rw [hcycles]
    exact (UInt64.add_zero _).symm
  · rw [hinstructions]
    exact (UInt64.add_zero _).symm

theorem trans {t u : Int} {n k : Nat} (h : Counted m t n m') (h' : Counted m' u k m'') :
    Counted m (t + u) (n + k) m'' := by
  have hsum : (t + u).toNat = t.toNat + u.toNat := Int.toNat_add h.nonneg h'.nonneg
  refine ⟨Int.add_nonneg h.nonneg h'.nonneg, ?_, ?_⟩
  · rw [h'.cycles_eq, h.cycles_eq, hsum, UInt64.ofNat_add, UInt64.add_assoc]
  · rw [h'.instructions_eq, h.instructions_eq, UInt64.ofNat_add, UInt64.add_assoc]

/-- A time that is not negative is counted by its size. -/
theorem of_account {c : Int32} {n : Nat} (hc : 0 ≤ c.toInt)
    (h : m'.host.counters = (m.host.account (UInt64.ofNat n) c).counters) :
    Counted m c.toInt n m' := by
  obtain ⟨hinstructions, hcycles⟩ := Prod.mk.inj h
  have hsize : c.toInt.natAbs = c.toInt.toNat := by omega
  refine ⟨hc, ?_, hinstructions⟩
  rw [hcycles, ← hsize]
  rfl

end Counted

/-! ## Instructions and entries into a handler -/

variable [Bus B]

/-- No access of a step costs less than nothing, and the whole of it fits. -/
structure Payable (m : Machine B) : Prop where
  nonNegative : NonNegative m.step.2.bus
  fits : m.charge < 2 ^ 31

/-- The same for the two fetches of an entry into a handler. -/
structure Enterable (m : Machine B) (e : Exception) : Prop where
  nonNegative : NonNegative m.bus
  fits : totalCost m.bus (refillCharges (m.core.enter e)) < 2 ^ 31

/-- **A step is counted once**, whatever its instruction comes to: by the cycles that it
    gives back. -/
theorem counted_step (h : Payable m) : Counted m m.step.1.toInt 1 m.step.2 := by
  obtain ⟨heq, hnonneg⟩ := cycles_eq_charge_of_nonNegative h.nonNegative h.fits
  refine Counted.of_account (by omega) ?_
  obtain ⟨j, hj⟩ := m.step_eq
  rw [hj, finish_eq]
  rfl

/-- An entry from outside gives back the two fetches at the vector. -/
theorem toInt_enterException {e : Exception} (h : Enterable m e) :
    0 ≤ (m.enterException e).1.toInt
      ∧ (m.enterException e).1.toInt = totalCost m.bus (refillCharges (m.core.enter e)) := by
  have hrefill : (m.enterException e).1
      = (refill (m.enterException e).2.bus (m.enterException e).2.core).1 := rfl
  have htotal : totalCost m.bus (refillCharges (m.core.enter e))
      = (Bus.cost m.bus false ((m.core.enter e).instructionSet == .arm) (m.core.enter e).pc).toInt
        + (Bus.cost m.bus true ((m.core.enter e).instructionSet == .arm)
          ((m.core.enter e).pc + (m.core.enter e).instructionSet.size)).toInt := by
    simp [totalCost, refillCharges, Charge.cost]
  have hfits := h.fits
  have hfirst := h.nonNegative false ((m.core.enter e).instructionSet == .arm) (m.core.enter e).pc
  have hnext := h.nonNegative true ((m.core.enter e).instructionSet == .arm)
    ((m.core.enter e).pc + (m.core.enter e).instructionSet.size)
  rw [htotal] at hfits ⊢
  rw [hrefill, bus_enterException, core_enterException, refill]
  dsimp only
  rw [toInt_add_of_fits (by omega) hfits]
  exact ⟨by omega, rfl⟩

/-- **An entry from outside counts its cycles and no instruction.** -/
theorem counted_enterException {e : Exception} (h : Enterable m e) :
    Counted m (m.enterException e).1.toInt 0 (m.enterException e).2 :=
  Counted.of_account (toInt_enterException h).1 rfl

/-- A request that is not taken counts nothing at all. -/
theorem counted_raiseIrq (h : m.core.cpsr.irqDisabled = false → Enterable m .irq) :
    Counted m m.raiseIrq.1.toInt 0 m.raiseIrq.2 := by
  rw [raiseIrq]
  by_cases hd : m.core.cpsr.irqDisabled = true
  · rw [if_pos hd]
    exact Counted.of_counters rfl
  · rw [if_neg hd]
    exact counted_enterException (h (Bool.eq_false_of_not_eq_true hd))

/-! ## Runs -/

omit [Bus B] in
/-- To ask whether to stop is free. -/
theorem counted_asked (m : Machine B) : Counted m 0 0 m.asked := by
  obtain ⟨b, hook, r, j, heq, -⟩ := m.host.shouldStop_eq m.core.pc
  refine Counted.of_counters ?_
  rw [asked, heq]
  rfl

/-- The turns of a run count what they take from the budget, and one instruction each. -/
theorem counted_turns {budget : Int32} {n : Nat} (hgo : ∀ k < n, GoesOn (turns budget m k))
    (hpay : ∀ k < n, Payable (turns budget m k).2.asked) :
    Counted m (budget.toInt - (turns budget m n).1.toInt) n (turns budget m n).2 := by
  induction n with
  | zero =>
      have hnothing : budget.toInt - (turns budget m 0).1.toInt = 0 := Int.sub_self _
      rw [hnothing]
      exact Counted.of_counters rfl
  | succ n ih =>
      have hbefore := ih (fun k hk => hgo k (by omega)) (fun k hk => hpay k (by omega))
      have hturn := (counted_asked _).trans (counted_step (hpay n (Nat.lt_succ_self n)))
      have hnonneg := hturn.nonneg
      have hpaid := toInt_turn (hgo n (Nat.lt_succ_self n)) (by omega)
      -- what the turn takes from the budget is what it is counted by
      have hsum : budget.toInt
            - ((turns budget m n).1.toInt - (turns budget m n).2.asked.step.1.toInt)
          = budget.toInt - (turns budget m n).1.toInt
            + (0 + (turns budget m n).2.asked.step.1.toInt) := by omega
      rw [turns_succ, hpaid, hsum]
      exact hbefore.trans hturn

/-- **A run counts what it takes from its budget**, and as many instructions as it
    executes. -/
theorem counted_runs {budget : Int32} {n : Nat} {result : Int32 × Machine B}
    (h : Runs budget m n result) (hpay : ∀ k < n, Payable (turns budget m k).2.asked) :
    Counted m (budget.toInt - result.1.toInt) n result.2 := by
  have hturns := counted_turns h.goesOn hpay
  rw [h.result_eq, ending]
  dsimp only
  by_cases hleft : 0 < (turns budget m n).1
  · rw [if_pos hleft]
    have hasked := hturns.trans (counted_asked _)
    rw [Int.add_zero, Nat.add_zero] at hasked
    exact hasked
  · rw [if_neg hleft]
    exact hturns

end Machine

/-! ## The other operations of a host -/

variable {B : Type} [Bus B]

/-- Operations that neither run anything, nor enter a handler, nor reset the machine. -/
def HostOp.Passive : HostOp B → Prop
  | step | execute _ | raiseIrq | enterException _ | reset => False
  | _ => True

/-- They move no counter, whether they are refused or not. -/
theorem HostOp.counters_apply (m : Machine B) {op : HostOp B} (h : op.Passive) :
    (op.apply m).host.counters = m.host.counters := by
  cases op with
  | step | execute | raiseIrq | enterException | reset => exact h.elim
  | changeMode n =>
      rcases apply_changeMode m n with hsame | ⟨mode, hmode⟩
      · rw [hsame]
      · rw [hmode]
        rfl
  | writeStatus p =>
      rcases apply_writeStatus m p with hsame | ⟨x, -, -, hcommit⟩
      · rw [hsame]
      · rw [hcommit]
        rfl
  | restore snapshot =>
      rcases apply_restore m snapshot with hsame | ⟨-, hrestored⟩
      · rw [hsame]
      · rw [hrestored]
        rfl
  | isBreakpoint a =>
      obtain ⟨hook, hask⟩ := m.host.ask_eq a
      show (m.host.ask a).2.counters = _
      rw [hask]
      rfl
  | _ => rfl

namespace Machine

/-! ## Calls -/

/-- A call of the host, the cycles that it was told of, and the instructions that were
    executed. -/
inductive Call (m : Machine B) : Int → Nat → Machine B → Prop where
  | step (h : Payable m) : Call m m.step.1.toInt 1 m.step.2
  /-- A run tells of its cycles by what is left of its budget. -/
  | execute {budget : Int32} {n : Nat} (runs : Runs budget m n (m.execute budget))
      (h : ∀ k < n, Payable (turns budget m k).2.asked) :
      Call m (budget.toInt - (m.execute budget).1.toInt) n (m.execute budget).2
  | raiseIrq (h : m.core.cpsr.irqDisabled = false → Enterable m .irq) :
      Call m m.raiseIrq.1.toInt 0 m.raiseIrq.2
  | enterException {e : Exception} (h : Enterable m e) :
      Call m (m.enterException e).1.toInt 0 (m.enterException e).2
  | other {op : HostOp B} (h : op.Passive) : Call m 0 0 (op.apply m)
  /-- The current status may be overwritten without a check. -/
  | pokeStatus (p : Psr) : Call m 0 0 (m.pokeStatus p)

/-- Calls one after the other, and what they come to together. -/
inductive Calls (m : Machine B) : Int → Nat → Machine B → Prop where
  | none : Calls m 0 0 m
  | call {t u : Int} {n k : Nat} {m' m'' : Machine B} (before : Calls m t n m')
      (next : Call m' u k m'') : Calls m (t + u) (n + k) m''

variable {m m' : Machine B} {t : Int} {n : Nat}

theorem Call.counted (h : Call m t n m') : Counted m t n m' := by
  cases h with
  | step h => exact counted_step h
  | execute runs h => exact counted_runs runs h
  | raiseIrq h => exact counted_raiseIrq h
  | enterException h => exact counted_enterException h
  | other h => exact Counted.of_counters (HostOp.counters_apply m h)
  | pokeStatus p => exact Counted.of_counters rfl

theorem Calls.counted (h : Calls m t n m') : Counted m t n m' := by
  induction h with
  | none => exact Counted.of_counters rfl
  | call before next ih => exact ih.trans next.counted

/-- **No cycle is lost**: after any calls since a reset the one counter holds the sum of
    the cycles that the host was told of, and the other one the number of instructions
    that were executed, as far as 64 bits hold them. -/
theorem calls_are_counted (h : Calls m.reset t n m') :
    0 ≤ t ∧ m'.host.cycles = UInt64.ofNat t.toNat ∧ m'.host.instructions = UInt64.ofNat n
      ∧ (t < 2 ^ 64 → (m'.host.cycles.toNat : Int) = t)
      ∧ (n < 2 ^ 64 → m'.host.instructions.toNat = n) := by
  obtain ⟨hnonneg, hcycles, hinstructions⟩ := h.counted
  -- both counters start from zero
  have hcycles' : m'.host.cycles = UInt64.ofNat t.toNat := hcycles.trans (UInt64.zero_add _)
  have hinstructions' : m'.host.instructions = UInt64.ofNat n :=
    hinstructions.trans (UInt64.zero_add _)
  refine ⟨hnonneg, hcycles', hinstructions', ?_, ?_⟩
  · intro hfits
    have hsmall : t.toNat < UInt64.size := by
      rw [UInt64.size]
      omega
    rw [hcycles', UInt64.toNat_ofNat_of_lt' hsmall]
    omega
  · intro hfits
    rw [hinstructions', UInt64.toNat_ofNat_of_lt' hfits]

/-- A step, a write to a register, a run of three instructions through both sets that
    overruns its budget by one cycle, a run that a break request ends at once, a request
    that is masked, and an entry into a handler: twelve cycles, and four instructions. -/
theorem calls_are_counted_of_session :
    ∃ m' : Machine Rom, Calls acrossSets.reset 12 4 m'
      ∧ (m'.host.cycles.toNat : Int) = 12 ∧ m'.host.instructions.toNat = 4 := by
  have hrom (rom : Rom) : NonNegative rom := fun _ _ _ => Int.zero_le_ofNat 1
  let m₁ := acrossSets.reset.step.2
  let m₂ := (HostOp.write 1 5).apply m₁
  let m₃ := (m₂.execute 8).2
  let m₄ := HostOp.requestBreak.apply m₃
  let m₅ := (m₄.execute 5).2
  let m₆ := m₅.raiseIrq.2
  have hrun : Runs 8 m₂ 3 (m₂.execute 8) :=
    runs_execute (by decide +kernel) (by decide +kernel) (by decide)
  have hbroken : Runs 5 m₄ 0 (m₄.execute 5) :=
    runs_execute (by decide +kernel) (by decide +kernel) (by decide)
  have hpay : ∀ k < 3, Payable (turns 8 m₂ k).2.asked := by
    have hfits : ∀ k < 3, (turns 8 m₂ k).2.asked.charge < 2 ^ 31 := by decide +kernel
    exact fun k hk => ⟨hrom _, hfits k hk⟩
  have hmasked : m₅.core.cpsr.irqDisabled = true := by decide +kernel
  have h₁ : Calls acrossSets.reset _ _ m₁ := .call .none (.step ⟨hrom _, by decide +kernel⟩)
  have h₂ : Calls acrossSets.reset _ _ m₂ := .call h₁ (.other trivial)
  have h₃ : Calls acrossSets.reset _ _ m₃ := .call h₂ (.execute hrun hpay)
  have h₄ : Calls acrossSets.reset _ _ m₄ := .call h₃ (.other trivial)
  have h₅ : Calls acrossSets.reset _ _ m₅ :=
    .call h₄ (.execute hbroken fun k hk => absurd hk (Nat.not_lt_zero k))
  have h₆ : Calls acrossSets.reset _ _ m₆ :=
    .call h₅ (.raiseIrq fun hd => nomatch hmasked.symm.trans hd)
  have h₇ : Calls acrossSets.reset _ _ (m₆.enterException .undefined).2 :=
    .call h₆ (.enterException ⟨hrom _, by decide +kernel⟩)
  have htotal : 0 + acrossSets.reset.step.1.toInt + 0
      + ((8 : Int32).toInt - (m₂.execute 8).1.toInt) + 0
      + ((5 : Int32).toInt - (m₄.execute 5).1.toInt) + m₅.raiseIrq.1.toInt
      + (m₆.enterException .undefined).1.toInt = 12 := by decide +kernel
  rw [htotal] at h₇
  obtain ⟨-, -, -, hcycles, hinstructions⟩ := calls_are_counted h₇
  exact ⟨_, h₇, hcycles (by decide), hinstructions (by decide)⟩

end Machine

end Armv4t
