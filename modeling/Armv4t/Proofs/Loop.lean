import Armv4t.Proofs.Charge
import Armv4t.Proofs.Rom

/-! # The loop — what running for a budget of cycles means

    While the budget is positive: a pending break is cleared and ends the run, a
    fault ends it where the configuration says so, the address where the last run
    stopped is passed, and at any other address the hook is asked, whose yes ends
    the run and is remembered.  Otherwise one instruction is executed, in the set
    that the T bit selects, and its cycles are paid once.  What remains of the
    budget is given back.

    * `Checked` is one turn of the checks, `Loop` the loop, in plain integers;
    * the checks come to what a run asks for (`Checked.sound`, `exists_checked`), so
      each turn of the loop is a turn of the run;
    * on a bus where every access costs a cycle a budget pays for fewer instructions
      than the bound of a run, so that the loop and the run give the same, by
      induction on what is left to pay (`execute_is_the_loop`). -/

namespace Armv4t.Machine

variable {B : Type} [Bus B]

/-! ## The loop -/

/-- The checks before an instruction: whether they end the run, and what they leave. -/
inductive Checked (m : Machine B) : Bool → Machine B → Prop where
  /-- A pending break is cleared. -/
  | broken (hb : m.host.breakRequested = true) :
      Checked m true
        { m with host := { m.host with breakRequested := false }.tell (.breakTaken m.core.pc) }
  /-- A fault was stored, and the configuration says to halt on one. -/
  | halted (hb : m.host.breakRequested = false) (hf : m.host.Halts) : Checked m true m
  /-- The run goes on from where the last one stopped, and does not ask. -/
  | resumed (hb : m.host.breakRequested = false) (hf : ¬ m.host.Halts)
      (hr : m.host.resumeAt = some m.core.pc) : Checked m false m
  /-- The hook says yes, and the address is remembered. -/
  | hit (hb : m.host.breakRequested = false) (hf : ¬ m.host.Halts)
      (hr : m.host.resumeAt ≠ some m.core.pc) (yes : (m.isBreakpoint m.core.pc).1 = true) :
      Checked m true
        { (m.isBreakpoint m.core.pc).2 with
          host := { (m.isBreakpoint m.core.pc).2.host.tell (.breakpointHit m.core.pc) with
            resumeAt := some m.core.pc } }
  /-- The hook says no. -/
  | passed (hb : m.host.breakRequested = false) (hf : ¬ m.host.Halts)
      (hr : m.host.resumeAt ≠ some m.core.pc) (no : (m.isBreakpoint m.core.pc).1 = false) :
      Checked m false (m.isBreakpoint m.core.pc).2

/-- The loop: with a budget, from a machine, to what is left of the budget and the
    machine afterwards. -/
inductive Loop : Int → Machine B → Int → Machine B → Prop where
  /-- The budget is spent. -/
  | spent {b : Int} {m : Machine B} (hb : b ≤ 0) : Loop b m b m
  /-- The checks end the run. -/
  | stopped {b : Int} {m m' : Machine B} (hb : 0 < b) (checked : Checked m true m') :
      Loop b m b m'
  /-- One instruction is executed, and paid for once. -/
  | executed {b r : Int} {m m₁ m' : Machine B} (hb : 0 < b) (checked : Checked m false m₁)
      (rest : Loop (b - m₁.step.1.toInt) m₁.step.2 r m') : Loop b m r m'

/-! ## The checks of a run -/

omit [Bus B] in
/-- A run asks what its host asks. -/
theorem asked_of_shouldStop {m : Machine B} {stop : Bool} {h : Host}
    (hs : m.host.shouldStop m.core.pc = (stop, h)) :
    m.stops = stop ∧ m.asked = { m with host := h } := by
  rw [stops, asked, hs]
  exact ⟨rfl, rfl⟩

/-- What the checks come to is what a run asks for; a run that goes on has forgotten
    the remembered address, as a step does. -/
theorem Checked.sound {m m' : Machine B} {stop : Bool} (h : Checked m stop m') :
    m.stops = stop ∧ (stop = true → m' = m.asked)
      ∧ (stop = false → m'.step = m.asked.step) := by
  cases h with
  | broken hb =>
      obtain ⟨hs, ha⟩ := asked_of_shouldStop (Host.shouldStop_of_break hb)
      exact ⟨hs, fun _ => ha.symm, fun h => nomatch h⟩
  | halted hb hf =>
      obtain ⟨hs, ha⟩ := asked_of_shouldStop (Host.shouldStop_of_halts hb hf)
      exact ⟨hs, fun _ => ha.symm, fun h => nomatch h⟩
  | resumed hb hf hr =>
      obtain ⟨hs, ha⟩ := asked_of_shouldStop (Host.shouldStop_of_resume hb hf hr)
      refine ⟨hs, (nomatch ·), fun _ => ?_⟩
      rw [ha]
      rfl
  | hit hb hf hr yes =>
      obtain ⟨hs, ha⟩ := asked_of_shouldStop (Host.shouldStop_of_hit hb hf hr yes)
      exact ⟨hs, fun _ => ha.symm, fun h => nomatch h⟩
  | passed hb hf hr no =>
      obtain ⟨hs, ha⟩ := asked_of_shouldStop (Host.shouldStop_of_passed hb hf hr no)
      refine ⟨hs, (nomatch ·), fun _ => ?_⟩
      rw [ha]
      rfl

omit [Bus B] in
/-- The checks always come to something. -/
theorem exists_checked (m : Machine B) : ∃ stop m', Checked m stop m' := by
  by_cases hb : m.host.breakRequested = true
  · exact ⟨true, _, .broken hb⟩
  · have hb' := Bool.eq_false_of_not_eq_true hb
    by_cases hf : m.host.Halts
    · exact ⟨true, _, .halted hb' hf⟩
    · by_cases hr : m.host.resumeAt = some m.core.pc
      · exact ⟨false, _, .resumed hb' hf hr⟩
      · cases hask : (m.isBreakpoint m.core.pc).1 with
        | true => exact ⟨true, _, .hit hb' hf hr hask⟩
        | false => exact ⟨false, _, .passed hb' hf hr hask⟩

/-! ## Paying -/

/-- Along the steps of a machine every access costs at least a cycle, and no step costs
    more than 32 bits hold. -/
structure Costed (m : Machine B) : Prop where
  costly : ∀ n, Costly (m.after n).bus
  fits : ∀ n, (m.after n).charge < 2 ^ 31

namespace Costed

variable {m m' : Machine B}

theorem step (h : Costed m) : Costed m.step.2 where
  costly := fun n => m.after_step n ▸ h.costly (n + 1)
  fits := fun n => m.after_step n ▸ h.fits (n + 1)

theorem of_alike (h : Costed m) (ha : Alike m' m) : Costed m' where
  costly := fun n => (ha.after n).bus ▸ h.costly n
  fits := fun n => (ha.after n).charge ▸ h.fits n

/-- A step is paid with at least one cycle. -/
theorem pays (h : Costed m) : 1 ≤ m.step.1.toInt := by
  obtain ⟨heq, hone⟩ := cycles_eq_charge (h.costly 1) (h.fits 0)
  rw [heq]
  exact hone

end Costed

/-! ## The run is the loop -/

section

variable {m m' : Machine B} {limit : Nat} {budget : Int32}

/-- A positive budget, as a number. -/
theorem budget_pos {budget : Int32} : 0 < budget ↔ 0 < budget.toInt :=
  Int32.lt_iff_toInt_lt

/-- A turn of the run in which the checks end it. -/
theorem run_of_stop (hb : 0 < budget.toInt) (checked : Checked m true m') :
    run (limit + 1) budget m = (budget, m') := by
  obtain ⟨hs, ha, -⟩ := checked.sound
  rw [run_succ, if_pos (budget_pos.mpr hb), if_pos hs, ha rfl]

/-- A turn of the run in which it goes on. -/
theorem run_of_step (hb : 0 < budget.toInt) (checked : Checked m false m') :
    run (limit + 1) budget m = run limit (budget - m'.step.1) m'.step.2 := by
  obtain ⟨hs, -, ha⟩ := checked.sound
  rw [run_succ, if_pos (budget_pos.mpr hb), if_neg (by rw [hs]; exact Bool.false_ne_true), ha rfl]

/-- The machine that the checks leave pays as well as the one before them. -/
theorem Costed.of_checked (h : Costed m) (checked : Checked m false m') : Costed m' := by
  cases checked with
  | resumed => exact h
  | passed =>
      obtain ⟨hook, hask⟩ := m.host.ask_eq m.core.pc
      refine h.of_alike ⟨rfl, rfl, ?_⟩
      show (m.host.ask m.core.pc).2.lastFetch = m.host.lastFetch
      rw [hask]

/-- A run of sufficiently many instructions takes the turns of the loop, by induction on
    the bound. -/
theorem loop_run (hm : Costed m) (hlimit : budget.toInt ≤ limit) :
    Loop budget.toInt m (run limit budget m).1.toInt (run limit budget m).2 := by
  induction limit generalizing budget m with
  | zero =>
      rw [run_zero]
      exact .spent hlimit
  | succ limit ih =>
      by_cases hb : 0 < budget.toInt
      · obtain ⟨stop, m', checked⟩ := exists_checked m
        cases stop with
        | true =>
            rw [run_of_stop hb checked]
            exact .stopped hb checked
        | false =>
            -- a step is paid with at least a cycle: less budget, and a smaller bound will do
            have hm' := hm.of_checked checked
            have hpays := hm'.pays
            have hleft := toInt_sub_of_nonneg (Int.le_of_lt hb)
              (show 0 ≤ m'.step.1.toInt by omega)
            rw [run_of_step hb checked]
            refine .executed hb checked ?_
            rw [← hleft]
            exact ih hm'.step (by omega)
      · rw [run_succ, if_neg (mt budget_pos.mp hb)]
        exact .spent (by omega)

/-- The loop determines what a run of sufficiently many instructions gives, by induction
    on the loop. -/
theorem run_of_loop {b r : Int} (loop : Loop b m r m') (hm : Costed m) :
    ∀ {limit : Nat} {budget : Int32}, budget.toInt = b → b ≤ limit →
      r = (run limit budget m).1.toInt ∧ m' = (run limit budget m).2 := by
  induction loop with
  | spent hb =>
      intro limit budget hbudget hlimit
      have hb' : ¬ 0 < budget := fun h => by
        have := budget_pos.mp h
        omega
      cases limit with
      | zero =>
          rw [run_zero]
          exact ⟨hbudget.symm, rfl⟩
      | succ limit =>
          rw [run_succ, if_neg hb']
          exact ⟨hbudget.symm, rfl⟩
  | stopped hb checked =>
      intro limit budget hbudget hlimit
      -- a positive budget leaves a positive bound
      cases limit with
      | zero => omega
      | succ limit =>
          rw [run_of_stop (by omega) checked]
          exact ⟨hbudget.symm, rfl⟩
  | executed hb checked rest ih =>
      intro limit budget hbudget hlimit
      cases limit with
      | zero => omega
      | succ limit =>
          have hm' := hm.of_checked checked
          have hpays := hm'.pays
          rw [run_of_step (by omega) checked]
          refine ih hm'.step ?_ (by omega)
          rw [toInt_sub_of_nonneg (by omega) (by omega), hbudget]

/-! ## The run is steps -/

/-- The cycles of the first steps. -/
def spent (m : Machine B) : Nat → Int
  | 0 => 0
  | n + 1 => m.spent n + (m.after n).step.1.toInt

/-- The first of them paid apart from the others. -/
theorem spent_step (m : Machine B) (n : Nat) :
    m.spent (n + 1) = m.step.1.toInt + m.step.2.spent n := by
  induction n with
  | zero => exact Int.add_comm 0 m.step.1.toInt
  | succ n ih =>
      rw [spent, ih, after_step, Int.add_assoc]
      rfl

/-- The cycles of some steps, and of some more. -/
theorem spent_add (m : Machine B) (n k : Nat) :
    m.spent (n + k) = m.spent n + (m.after n).spent k := by
  induction k with
  | zero => exact (Int.add_zero _).symm
  | succ k ih =>
      rw [← Nat.add_assoc, spent, spent, ih, after_add, Int.add_assoc]

omit [Bus B] in
/-- Without a hook, a pending break and a fault to halt on, the checks do nothing. -/
theorem checked_of_quiet (hhook : m.host.hook = none) (hbreak : m.host.breakRequested = false)
    (hf : ¬ m.host.Halts) : Checked m false m := by
  have hask : m.isBreakpoint m.core.pc = (false, m) := by
    rw [isBreakpoint, Host.ask, hhook]
  by_cases hr : m.host.resumeAt = some m.core.pc
  · exact .resumed hbreak hf hr
  · have h : Checked m false (m.isBreakpoint m.core.pc).2 :=
      .passed hbreak hf hr (congrArg Prod.fst hask)
    rw [hask] at h
    exact h

/-- A run that took steps until they had spent the budget. -/
def TookSteps (m : Machine B) (budget : Int) (result : Int32 × Machine B) : Prop :=
  ∃ n, (∀ k < n, m.spent k < budget) ∧ budget ≤ m.spent n
    ∧ result.1.toInt = budget - m.spent n ∧ result.2 = m.after n

/-- A budget that is spent from the start pays for no step. -/
theorem tookSteps_of_spent (hb : budget.toInt ≤ 0) :
    TookSteps m budget.toInt (budget, m) :=
  ⟨0, fun k hk => absurd hk (Nat.not_lt_zero k), hb, (Int.sub_zero _).symm, rfl⟩

/-- Where nothing asks to stop, a run takes steps until they have spent the budget, by
    induction on the bound. -/
theorem run_of_quiet (hm : Costed m) (hhook : m.host.hook = none)
    (hbreak : m.host.breakRequested = false)
    (hf : ∀ k, m.spent k < budget.toInt → ¬ (m.after k).host.Halts)
    (hlimit : budget.toInt ≤ limit) : TookSteps m budget.toInt (run limit budget m) := by
  induction limit generalizing budget m with
  | zero =>
      rw [run_zero]
      exact tookSteps_of_spent hlimit
  | succ limit ih =>
      by_cases hb : 0 < budget.toInt
      · have checked := checked_of_quiet hhook hbreak (hf 0 hb)
        have hpays := hm.pays
        have hleft := toInt_sub_of_nonneg (Int.le_of_lt hb) (show 0 ≤ m.step.1.toInt by omega)
        have hhost := host_step m
        have hf' : ∀ k, m.step.2.spent k < (budget - m.step.1).toInt →
            ¬ (m.step.2.after k).host.Halts := by
          intro k hk
          rw [← after_step]
          refine hf (k + 1) ?_
          rw [spent_step]
          omega
        obtain ⟨n, hbefore, hafter, hrest, hend⟩ := ih hm.step (hhost.hook.trans hhook)
          (hhost.breakRequested.trans hbreak) hf' (by omega)
        rw [run_of_step hb checked]
        refine ⟨n + 1, ?_, ?_, ?_, ?_⟩
        · intro k hk
          cases k with
          | zero => exact hb
          | succ k =>
              have hk' := hbefore k (by omega)
              rw [spent_step]
              omega
        · rw [spent_step]
          omega
        · rw [spent_step]
          omega
        · rw [hend, after_step]
      · rw [run_succ, if_neg (mt budget_pos.mp hb)]
        exact tookSteps_of_spent (by omega)

end

/-- **Running is the loop**: on a bus where every access costs a cycle, with steps whose
    cost fits, the loop from a machine with a budget ends in one way, which is what
    running gives; and where nothing asks to stop, running takes steps until their
    cycles sum to at least the budget. -/
theorem execute_is_the_loop {m : Machine B} (hm : Costed m) (budget : Int32) :
    (∀ r m', Loop budget.toInt m r m' ↔
        r = (m.execute budget).1.toInt ∧ m' = (m.execute budget).2)
      ∧ (m.host.hook = none → m.host.breakRequested = false →
        (∀ k, m.spent k < budget.toInt → ¬ (m.after k).host.Halts) →
        TookSteps m budget.toInt (m.execute budget)) := by
  have hlimit : budget.toInt ≤ runLimit := by
    have h := budget.toInt_lt
    have hl : ((2 : Int) ^ 31) ≤ runLimit := by decide
    omega
  rw [execute_eq_run]
  refine ⟨?_, fun hhook hbreak hf => run_of_quiet hm hhook hbreak hf hlimit⟩
  intro r m'
  constructor
  · intro loop
    exact run_of_loop loop hm rfl hlimit
  · rintro ⟨rfl, rfl⟩
    exact loop_run hm hlimit

/-! ## A run through both sets -/

/-- Where the steps have come round to an alike machine, they go round for ever. -/
theorem Alike.after_of_fixed {m : Machine B} {k : Nat} (hfix : Alike (m.after (k + 1)) (m.after k))
    (d : Nat) : Alike (m.after (k + d)) (m.after k) := by
  induction d with
  | zero => exact Alike.refl _
  | succ d ih =>
      have hstep := ih.step.2
      rw [← after_succ, ← after_succ] at hstep
      exact hstep.trans hfix

/-- So the costs need to be known up to there only. -/
theorem Costed.of_fixed {m : Machine B} {k : Nat} (hfix : Alike (m.after (k + 1)) (m.after k))
    (hcostly : ∀ n ≤ k, Costly (m.after n).bus)
    (hfits : ∀ n ≤ k, (m.after n).charge < 2 ^ 31) : Costed m := by
  have hlater : ∀ n, k ≤ n → Alike (m.after n) (m.after k) := by
    intro n hn
    obtain ⟨d, rfl⟩ := Nat.exists_eq_add_of_le hn
    exact Alike.after_of_fixed hfix d
  refine ⟨?_, ?_⟩
  · intro n
    rcases Nat.le_total n k with hn | hn
    · exact hcostly n hn
    · rw [(hlater n hn).bus]
      exact hcostly k (Nat.le_refl k)
  · intro n
    rcases Nat.le_total n k with hn | hn
    · exact hfits n hn
    · rw [(hlater n hn).charge]
      exact hfits k (Nat.le_refl k)

/-- Four instructions: the first two go to the 16-bit set, the third comes back, and the
    last one branches to itself. -/
def acrossSets : Machine Rom :=
  Rom.machine [0xE28F0001, 0xE12FFF10, 0x00004778, 0xEAFFFFFE] .supervisor

/-- A run that goes to the 16-bit set and back is the loop, and takes steps. -/
theorem execute_is_the_loop_across_sets :
    Costed acrossSets ∧ (acrossSets.after 2).core.instructionSet = .thumb
      ∧ Loop 8 acrossSets (acrossSets.execute 8).1.toInt (acrossSets.execute 8).2
      ∧ TookSteps acrossSets 8 (acrossSets.execute 8) := by
  have hm : Costed acrossSets := by
    -- the last instruction branches to itself, so that the fourth step changes nothing
    have hfix : Alike (acrossSets.after 4) (acrossSets.after 3) :=
      ⟨by decide +kernel, by decide +kernel, by decide +kernel⟩
    refine Costed.of_fixed hfix ?_ ?_
    · intro _ _ _ _ _
      exact Int.le_refl 1
    · decide +kernel
  obtain ⟨hloop, hsteps⟩ := execute_is_the_loop hm 8
  refine ⟨hm, by decide +kernel, (hloop _ _).mpr ⟨rfl, rfl⟩, hsteps rfl rfl ?_⟩
  intro k _ hf
  have hconfig : (acrossSets.after k).host.config.haltOnInvalidMode = false := by
    rw [config_after]
    rfl
  exact nomatch hconfig.symm.trans hf.1

end Armv4t.Machine
