import Armv4t.Proofs.Loop

/-! # Turns — a run, counted in instructions

    At the boundary between two instructions a run is known by what is left of its budget
    and by the machine.  A turn goes from one boundary to the next: the checks, one
    instruction, and its payment.  A run takes turns as long as there is budget left and
    the checks do not end it, so that it executes exactly as many instructions as it takes
    turns (`Runs`).

    * Running gives what the turns come to, if they end within its bound
      (`execute_of_runs`);
    * the machines after some turns are alike to those after as many steps, whatever the
      hook says (`turns_alike`), and what is left of the budget is the budget less the
      cycles of the steps (`toInt_turns`);
    * where every step is paid with a cycle, the turns end, after no more of them than
      there were cycles (`exists_runs`). -/

namespace Armv4t.Machine

variable {B : Type} [Bus B]

/-! ## Boundaries and turns -/

/-- A turn of a run: the checks, one instruction, and its payment. -/
def turn (s : Int32 × Machine B) : Int32 × Machine B :=
  (s.1 - s.2.asked.step.1, s.2.asked.step.2)

/-- What is left of a budget, and the machine, after some turns. -/
def turns (budget : Int32) (m : Machine B) (n : Nat) : Int32 × Machine B := turn^[n] (budget, m)

/-- A run goes on from a boundary: there is budget left, and the checks do not end it. -/
def GoesOn (s : Int32 × Machine B) : Prop := 0 < s.1 ∧ s.2.stops = false

instance (s : Int32 × Machine B) : Decidable (GoesOn s) := inferInstanceAs (Decidable (_ ∧ _))

/-- What a run gives back where it ends; with budget left, it has asked first. -/
def ending (s : Int32 × Machine B) : Int32 × Machine B := (s.1, if 0 < s.1 then s.2.asked else s.2)

/-- A run of a budget that executes exactly so many instructions, and what it gives back. -/
structure Runs (budget : Int32) (m : Machine B) (n : Nat) (result : Int32 × Machine B) : Prop where
  goesOn : ∀ k < n, GoesOn (turns budget m k)
  ends : ¬ GoesOn (turns budget m n)
  result_eq : result = ending (turns budget m n)

variable {budget : Int32} {m : Machine B} {n : Nat}

/-- One turn more at the end. -/
theorem turns_succ (budget : Int32) (m : Machine B) (n : Nat) :
    turns budget m (n + 1) = turn (turns budget m n) :=
  Function.iterate_succ_apply' turn n (budget, m)

/-- One turn more at the start. -/
theorem turns_turn (budget : Int32) (m : Machine B) (n : Nat) :
    turns budget m (n + 1) = turns (budget - m.asked.step.1) m.asked.step.2 n :=
  Function.iterate_succ_apply turn n (budget, m)

/-- There is only one number of turns, and one result. -/
theorem Runs.unique {k : Nat} {r s : Int32 × Machine B} (hr : Runs budget m n r)
    (hs : Runs budget m k s) : n = k ∧ r = s := by
  have hn : n = k := by
    rcases Nat.lt_trichotomy n k with h | h | h
    · exact absurd (hs.goesOn n h) hr.ends
    · exact h
    · exact absurd (hr.goesOn k h) hs.ends
  subst hn
  exact ⟨rfl, hr.result_eq.trans hs.result_eq.symm⟩

/-- What is left is what the turns left. -/
theorem Runs.left {result : Int32 × Machine B} (h : Runs budget m n result) :
    result.1 = (turns budget m n).1 := by
  rw [h.result_eq]
  rfl

/-! ## The run -/

/-- A run of more than enough instructions gives what its turns come to, by induction on
    the bound. -/
theorem run_eq_ending {limit : Nat} (hgo : ∀ k < n, GoesOn (turns budget m k))
    (hend : ¬ GoesOn (turns budget m n)) (hlimit : n < limit) :
    run limit budget m = ending (turns budget m n) := by
  induction limit generalizing budget m n with
  | zero => exact absurd hlimit (Nat.not_lt_zero n)
  | succ limit ih =>
      rw [run_succ]
      cases n with
      | zero =>
          -- the run ends before its first instruction
          by_cases hb : 0 < budget
          · have hstop : m.stops = true := Bool.eq_true_of_not_eq_false fun hs => hend ⟨hb, hs⟩
            rw [if_pos hb, if_pos hstop]
            show (budget, m.asked) = (budget, if 0 < budget then m.asked else m)
            rw [if_pos hb]
          · rw [if_neg hb]
            show (budget, m) = (budget, if 0 < budget then m.asked else m)
            rw [if_neg hb]
      | succ n =>
          obtain ⟨hb, hs⟩ : 0 < budget ∧ m.stops = false := hgo 0 (Nat.succ_pos n)
          rw [if_pos hb, if_neg (by rw [hs]; exact Bool.false_ne_true), turns_turn]
          rw [turns_turn] at hend
          refine ih ?_ hend (Nat.lt_of_succ_lt_succ hlimit)
          intro k hk
          rw [← turns_turn]
          exact hgo (k + 1) (Nat.succ_lt_succ hk)

/-- **Running gives what the turns come to.** -/
theorem execute_of_runs {result : Int32 × Machine B} (h : Runs budget m n result)
    (hn : n < runLimit) : m.execute budget = result := by
  rw [execute_eq_run, h.result_eq]
  exact run_eq_ending h.goesOn h.ends hn

/-- A run in which so many turns go on, and then none, is a run of so many instructions. -/
theorem runs_execute (hgo : ∀ k < n, GoesOn (turns budget m k))
    (hend : ¬ GoesOn (turns budget m n)) (hn : n < runLimit) :
    Runs budget m n (m.execute budget) :=
  ⟨hgo, hend, execute_of_runs ⟨hgo, hend, rfl⟩ hn⟩

/-! ## Turns and steps -/

/-- After some turns the machine is alike to the one after as many steps. -/
theorem turns_alike (budget : Int32) (m : Machine B) (n : Nat) :
    Alike (turns budget m n).2 (m.after n) := by
  induction n with
  | zero => exact Alike.refl m
  | succ n ih =>
      rw [turns_succ, after_succ]
      exact ((Alike.asked _).trans ih).step.2

/-- The step that a turn takes is as long as the one from the machine after as many steps. -/
theorem cycles_turn (budget : Int32) (m : Machine B) (n : Nat) :
    (turns budget m n).2.asked.step.1 = (m.after n).step.1 :=
  ((Alike.asked _).trans (turns_alike budget m n)).step.1

theorem turns_budget (budget : Int32) (m : Machine B) (n : Nat) :
    (turns budget m (n + 1)).1 = (turns budget m n).1 - (m.after n).step.1 := by
  rw [turns_succ, turn, cycles_turn]

/-- No payment overflows: there is budget left, and the step does not take less than nothing. -/
theorem toInt_turn {s : Int32 × Machine B} (hgo : GoesOn s)
    (hpays : 0 ≤ s.2.asked.step.1.toInt) :
    (turn s).1.toInt = s.1.toInt - s.2.asked.step.1.toInt :=
  toInt_sub_of_nonneg (Int.le_of_lt (budget_pos.mp hgo.1)) hpays

/-- Where every step is paid with a cycle, what is left of the budget is the budget less the
    cycles of the steps. -/
theorem toInt_turns (hgo : ∀ k < n, GoesOn (turns budget m k))
    (hpays : ∀ k < n, 1 ≤ (m.after k).step.1.toInt) :
    (turns budget m n).1.toInt = budget.toInt - m.spent n := by
  induction n with
  | zero => exact (Int.sub_zero _).symm
  | succ n ih =>
      have hleft := ih (fun k hk => hgo k (by omega)) (fun k hk => hpays k (by omega))
      have hlast := hpays n (Nat.lt_succ_self n)
      have hcycles := congrArg Int32.toInt (cycles_turn budget m n)
      rw [turns_succ, toInt_turn (hgo n (Nat.lt_succ_self n)) (by omega), hleft, hcycles, spent]
      omega

/-- Such steps take as many cycles as there are steps, at least. -/
theorem le_spent (hpays : ∀ k < n, 1 ≤ (m.after k).step.1.toInt) : (n : Int) ≤ m.spent n := by
  induction n with
  | zero => exact Int.le_refl 0
  | succ n ih =>
      have hless := ih fun k hk => hpays k (by omega)
      have hlast := hpays n (Nat.lt_succ_self n)
      rw [spent]
      omega

namespace Runs

variable {result : Int32 × Machine B}

/-- So a run leaves no more than its budget. -/
theorem left_le (h : Runs budget m n result)
    (hpays : ∀ k < n, 1 ≤ (m.after k).step.1.toInt) : result.1.toInt ≤ budget.toInt := by
  have hpaid := toInt_turns h.goesOn hpays
  have hspent := le_spent hpays
  rw [h.left]
  omega

/-- And it overruns a budget by less than the longest step, which it began with a cycle
    left. -/
theorem neg_lt_left {most : Int} (h : Runs budget m n result) (hbudget : 0 < budget.toInt)
    (hmost : ∀ k, 1 ≤ (m.after k).step.1.toInt ∧ (m.after k).step.1.toInt ≤ most) :
    -most < result.1.toInt := by
  rw [h.left]
  cases n with
  | zero =>
      have hone := hmost 0
      show -most < budget.toInt
      omega
  | succ n =>
      have hgo := h.goesOn n (Nat.lt_succ_self n)
      have hpositive := budget_pos.mp hgo.1
      have hcycles := congrArg Int32.toInt (cycles_turn budget m n)
      have hlast := hmost n
      rw [turns_succ, toInt_turn hgo (by omega)]
      omega

end Runs

/-- **A run ends** where every step it takes is paid with a cycle, after no more
    instructions than its budget has cycles. -/
theorem exists_runs
    (hpays : ∀ k, (∀ j ≤ k, GoesOn (turns budget m j)) → 1 ≤ (m.after k).step.1.toInt) :
    ∃ n ≤ budget.toInt.toNat, Runs budget m n (m.execute budget) := by
  classical
  -- if every turn went on, they would have paid the whole budget by then
  have hend : ∃ n, n ≤ budget.toInt.toNat ∧ ¬ GoesOn (turns budget m n) := by
    by_contra hnone
    push Not at hnone
    have hpaid : ∀ k < budget.toInt.toNat, 1 ≤ (m.after k).step.1.toInt := by
      intro k hk
      exact hpays k fun j hj => hnone j (by omega)
    have hleft := toInt_turns (fun k hk => hnone k (Nat.le_of_lt hk)) hpaid
    have hspent := le_spent hpaid
    have hpositive := budget_pos.mp (hnone budget.toInt.toNat (Nat.le_refl _)).1
    omega
  obtain ⟨hle, hstop⟩ := Nat.find_spec hend
  have hgo : ∀ k < Nat.find hend, GoesOn (turns budget m k) := by
    intro k hk
    have hbefore := Nat.find_min hend hk
    by_contra hgo
    exact hbefore ⟨by omega, hgo⟩
  have hlimit : budget.toInt.toNat < runLimit := by
    have hmax := budget.toInt_lt
    have hmore : 2 ^ 31 < runLimit := by decide
    omega
  exact ⟨Nat.find hend, hle, runs_execute hgo hstop (Nat.lt_of_le_of_lt hle hlimit)⟩

end Armv4t.Machine
