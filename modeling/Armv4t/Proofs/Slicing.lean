import Armv4t.Proofs.StepBound
import Mathlib.Algebra.BigOperators.Group.List.Basic

/-! # Slicing — a budget in parts, and the same budget at once

    Where neither a hook nor a pending break asks a run to stop, its turns are plain steps,
    and nothing but the budget and the last fault decides where it ends (`Quiet`).  A
    larger budget leaves more at every boundary, by the difference, and goes on wherever
    the smaller one does (`turns_shift`, `goesOn_more`).  So a run whose residual is
    added to the next budget can be cut anywhere:

    * the turns of the rest are the later turns of the whole (`turns_cut`), so that two
      runs one after the other are one run (`Runs.append`);
    * a run has a result as long as each instruction it executes takes a time that 32 bits
      hold (`Fits`), and the whole run does exactly where both of its parts do (`fits_add`);
    * so the parts and the whole come to the same machine and the same residual
      (`slices_are_one_run`). -/

namespace Armv4t.Machine

variable {B : Type} [Bus B] {m : Machine B} {n : Nat} {a b budget : Int32}

/-! ## Runs that only their budget and a fault end -/

/-- Neither a hook nor a pending break asks a run to stop. -/
structure Quiet (m : Machine B) : Prop where
  hook : m.host.hook = none
  breakRequested : m.host.breakRequested = false

namespace Quiet

theorem step (h : Quiet m) : Quiet m.step.2 :=
  ⟨m.host_step.hook.trans h.hook, m.host_step.breakRequested.trans h.breakRequested⟩

theorem after (h : Quiet m) (n : Nat) : Quiet (m.after n) := by
  induction n with
  | zero => exact h
  | succ n ih =>
      rw [after_succ]
      exact ih.step

/-- A fault to halt on ends the run, and asking leaves the machine as it is. -/
theorem asked_of_halts (h : Quiet m) (hf : m.host.Halts) : m.stops = true ∧ m.asked = m := by
  obtain ⟨hstops, hasked, -⟩ := (Checked.halted h.breakRequested hf).sound
  exact ⟨hstops, (hasked rfl).symm⟩

/-- Otherwise the run goes on, and asking does not change the step. -/
theorem asked_of_not_halts (h : Quiet m) (hf : ¬ m.host.Halts) :
    m.stops = false ∧ m.asked.step = m.step := by
  obtain ⟨hstops, -, hstep⟩ := (checked_of_quiet h.hook h.breakRequested hf).sound
  exact ⟨hstops, (hstep rfl).symm⟩

theorem stops_eq_false_iff (h : Quiet m) : m.stops = false ↔ ¬ m.host.Halts := by
  constructor
  · intro hgo hf
    exact nomatch hgo.symm.trans (h.asked_of_halts hf).1
  · exact fun hf => (h.asked_of_not_halts hf).1

theorem step_asked (h : Quiet m) : m.asked.step = m.step := by
  by_cases hf : m.host.Halts
  · rw [(h.asked_of_halts hf).2]
  · exact (h.asked_of_not_halts hf).2

/-- The turns of a run are steps, of the whole machine. -/
theorem turns_machine (h : Quiet m) (budget : Int32) (n : Nat) :
    (turns budget m n).2 = m.after n := by
  induction n with
  | zero => rfl
  | succ n ih =>
      rw [turns_succ, after_succ, turn, ih, (h.after n).step_asked]

theorem goesOn_iff (h : Quiet m) :
    GoesOn (turns budget m n) ↔ 0 < (turns budget m n).1.toInt ∧ ¬ (m.after n).host.Halts := by
  rw [GoesOn, budget_pos, h.turns_machine, (h.after n).stops_eq_false_iff]

end Quiet

/-- A run ends where its last turn has led to. -/
theorem Runs.machine {result : Int32 × Machine B} (h : Quiet m) (hr : Runs budget m n result) :
    result.2 = m.after n := by
  rw [hr.result_eq, ending, h.turns_machine]
  dsimp only
  by_cases hb : 0 < (turns budget m n).1
  · -- budget is left, so that a fault has ended the run
    have hf : (m.after n).host.Halts := by
      by_contra hf
      exact hr.ends (h.goesOn_iff.mpr ⟨budget_pos.mp hb, hf⟩)
    rw [if_pos hb, ((h.after n).asked_of_halts hf).2]
  · rw [if_neg hb]

/-! ## A larger budget -/

/-- More budget leaves more at every boundary, by the difference. -/
theorem turns_shift (a b : Int32) (m : Machine B) (n : Nat) :
    (turns (a + b) m n).1 = b + (turns a m n).1 := by
  induction n with
  | zero => exact Int32.add_comm a b
  | succ n ih =>
      rw [turns_budget, turns_budget, ih, Int32.sub_eq_add_neg, Int32.sub_eq_add_neg,
        Int32.add_assoc]

theorem turns_add (budget : Int32) (m : Machine B) (n k : Nat) :
    turns budget m (n + k) = turns (turns budget m n).1 (turns budget m n).2 k := by
  rw [turns, Nat.add_comm, Function.iterate_add_apply]
  rfl

/-- And it goes on wherever the smaller one does. -/
theorem goesOn_more (h : Quiet m) (hb : 0 ≤ b.toInt) (hsum : a.toInt + b.toInt < 2 ^ 31)
    (hgo : ∀ j ≤ n, GoesOn (turns a m j)) (hpays : ∀ j < n, 1 ≤ (m.after j).step.1.toInt) :
    GoesOn (turns (a + b) m n) := by
  obtain ⟨hleft, hf⟩ := h.goesOn_iff.mp (hgo n (Nat.le_refl n))
  have hpaid := toInt_turns (fun j hj => hgo j (Nat.le_of_lt hj)) hpays
  have hspent := le_spent hpays
  refine h.goesOn_iff.mpr ⟨?_, hf⟩
  -- no more is left than there was
  rw [turns_shift, toInt_add_of_fits (by omega) (by omega)]
  omega

/-- The turns of the rest, with the residual added, are the later turns of the whole. -/
theorem turns_cut (h : Quiet m) {r : Int32 × Machine B} (hr : Runs a m n r) (k : Nat) :
    turns (a + b) m (n + k) = turns (b + r.1) r.2 k := by
  rw [turns_add, turns_shift, h.turns_machine, hr.left, hr.machine h]

/-- The whole goes on up to the cut, and from there as long as the rest does. -/
theorem goesOn_cut (h : Quiet m) (hb : 0 ≤ b.toInt) (hsum : a.toInt + b.toInt < 2 ^ 31)
    {k : Nat} {r : Int32 × Machine B} (hr : Runs a m n r)
    (hpays : ∀ j < n, 1 ≤ (m.after j).step.1.toInt)
    (hrest : ∀ j < k, GoesOn (turns (b + r.1) r.2 j)) :
    ∀ j < n + k, GoesOn (turns (a + b) m j) := by
  intro j hj
  rcases Nat.lt_or_ge j n with hbefore | hafter
  · exact goesOn_more h hb hsum (fun i hi => hr.goesOn i (by omega))
      (fun i hi => hpays i (by omega))
  · obtain ⟨i, rfl⟩ := Nat.exists_eq_add_of_le hafter
    rw [turns_cut h hr]
    exact hrest i (by omega)

/-- **Two runs one after the other are one run.** -/
theorem Runs.append (h : Quiet m) (hb : 0 ≤ b.toInt) (hsum : a.toInt + b.toInt < 2 ^ 31)
    {k : Nat} {r s : Int32 × Machine B} (hr : Runs a m n r) (hs : Runs (b + r.1) r.2 k s)
    (hpays : ∀ j < n, 1 ≤ (m.after j).step.1.toInt) : Runs (a + b) m (n + k) s := by
  refine ⟨goesOn_cut h hb hsum hr hpays hs.goesOn, ?_, ?_⟩
  · rw [turns_cut h hr]
    exact hs.ends
  · rw [turns_cut h hr]
    exact hs.result_eq

/-! ## Runs with a result -/

/-- Every instruction that a run of a budget executes takes a time that 32 bits hold, so
    that no sum of its cycles overflows and the run has a result. -/
def Fits (budget : Int32) (m : Machine B) : Prop :=
  ∀ n, (∀ k ≤ n, GoesOn (turns budget m k)) → (m.after n).charge < 2 ^ 31

/-- Along the steps of a machine every access costs at least a cycle. -/
def AlwaysCostly (m : Machine B) : Prop := ∀ n, Costly (m.after n).bus

theorem AlwaysCostly.after (hc : AlwaysCostly m) (n : Nat) : AlwaysCostly (m.after n) := by
  intro k
  rw [← after_add]
  exact hc (n + k)

theorem AlwaysCostly.of_tame (h : Tame m.bus) : AlwaysCostly m := fun n => (h.after n).costly

/-- Each instruction is then paid with a cycle. -/
theorem Fits.pays (h : Fits budget m) (hc : AlwaysCostly m)
    (hgo : ∀ k ≤ n, GoesOn (turns budget m k)) : 1 ≤ (m.after n).step.1.toInt := by
  have hcostly := hc (n + 1)
  rw [after_succ] at hcostly
  obtain ⟨heq, hone⟩ := cycles_eq_charge hcostly (h n hgo)
  rw [heq]
  exact hone

theorem Fits.exists_runs (h : Fits budget m) (hc : AlwaysCostly m) :
    ∃ n ≤ budget.toInt.toNat, Runs budget m n (m.execute budget) :=
  Machine.exists_runs fun _ hgo => h.pays hc hgo

theorem Fits.pays_before (h : Fits budget m) (hc : AlwaysCostly m)
    {r : Int32 × Machine B} (hr : Runs budget m n r) :
    ∀ k < n, 1 ≤ (m.after k).step.1.toInt := by
  intro k hk
  exact h.pays hc fun j hj => hr.goesOn j (by omega)

/-- On a tame bus every budget fits. -/
theorem Fits.of_tame (h : Tame m.bus) (budget : Int32) : Fits budget m := by
  intro n _
  have hmost := charge_le (h.after n)
  omega

/-- A smaller budget fits where a larger one does: by induction it goes on no further. -/
theorem Fits.less (h : Quiet m) (hc : AlwaysCostly m) (hb : 0 ≤ b.toInt)
    (hsum : a.toInt + b.toInt < 2 ^ 31) (hfits : Fits (a + b) m) : Fits a m := by
  have hmore : ∀ n, (∀ k ≤ n, GoesOn (turns a m k)) → ∀ k ≤ n, GoesOn (turns (a + b) m k) := by
    intro n
    induction n with
    | zero =>
        intro hgo k hk
        obtain rfl : k = 0 := by omega
        exact goesOn_more h hb hsum hgo fun j hj => absurd hj (Nat.not_lt_zero j)
    | succ n ih =>
        intro hgo k hk
        have hbefore := ih fun j hj => hgo j (by omega)
        refine goesOn_more h hb hsum (fun j hj => hgo j (by omega)) ?_
        intro j hj
        exact hfits.pays hc fun i hi => hbefore i (by omega)
  intro n hgo
  exact hfits n (hmore n hgo)

/-- **The whole has a result exactly where both parts have one.** -/
theorem fits_add (h : Quiet m) (hc : AlwaysCostly m) (hb : 0 ≤ b.toInt)
    (hsum : a.toInt + b.toInt < 2 ^ 31) :
    Fits (a + b) m ↔ Fits a m ∧ Fits (b + (m.execute a).1) (m.execute a).2 := by
  constructor
  · intro hfits
    have hfirst := hfits.less h hc hb hsum
    obtain ⟨n, -, hr⟩ := hfirst.exists_runs hc
    refine ⟨hfirst, ?_⟩
    intro k hgo
    have hwhole := goesOn_cut h hb hsum hr (hfirst.pays_before hc hr)
      fun j (hj : j < k + 1) => hgo j (by omega)
    rw [hr.machine h, ← after_add]
    exact hfits (n + k) fun j hj => hwhole j (by omega)
  · rintro ⟨hfirst, hrest⟩
    obtain ⟨n, -, hr⟩ := hfirst.exists_runs hc
    intro k hgo
    rcases Nat.lt_or_ge k n with hbefore | hafter
    · exact hfirst k fun j hj => hr.goesOn j (by omega)
    · -- past the cut an instruction of the whole is one of the rest
      obtain ⟨i, rfl⟩ := Nat.exists_eq_add_of_le hafter
      rw [after_add, ← hr.machine h]
      refine hrest i ?_
      intro j hj
      rw [← turns_cut h hr]
      exact hgo (n + j) (by omega)

/-- A run leaves no more than its budget, so that the residual can be added to a budget
    that fits beside it. -/
theorem toInt_add_left (hc : AlwaysCostly m) (hb : 0 ≤ b.toInt)
    (hsum : a.toInt + b.toInt < 2 ^ 31) (hfits : Fits a m) :
    (b + (m.execute a).1).toInt = b.toInt + (m.execute a).1.toInt := by
  obtain ⟨n, -, hr⟩ := hfits.exists_runs hc
  have hmost := hr.left_le (hfits.pays_before hc hr)
  have hleast := (m.execute a).1.le_toInt
  rw [Int32.toInt_add]
  exact Int.bmod_eq_of_le (by omega) (by omega)

/-- Two budgets one after the other come to what they come to at once. -/
theorem execute_add (h : Quiet m) (hc : AlwaysCostly m) (hb : 0 ≤ b.toInt)
    (hsum : a.toInt + b.toInt < 2 ^ 31) (hfits : Fits (a + b) m) :
    (m.execute a).2.execute (b + (m.execute a).1) = m.execute (a + b) := by
  obtain ⟨hfirst, hrest⟩ := (fits_add h hc hb hsum).mp hfits
  obtain ⟨n, hn, hr⟩ := hfirst.exists_runs hc
  have hc' : AlwaysCostly (m.execute a).2 := by
    rw [hr.machine h]
    exact hc.after n
  obtain ⟨k, hk, hs⟩ := hrest.exists_runs hc'
  have hwhole := hr.append h hb hsum hs (hfirst.pays_before hc hr)
  refine (execute_of_runs hwhole ?_).symm
  have hmax := a.toInt_lt
  have hmax' := (b + (m.execute a).1).toInt_lt
  have hlimit : 2 ^ 32 < runLimit := by decide
  omega

/-! ## Many parts -/

/-- A run of one budget more, with the residual of the last one added. -/
def slice (s : Int32 × Machine B) (c : Int32) : Int32 × Machine B := s.2.execute (c + s.1)

/-- Each of the runs has a result. -/
def SlicesFit : Int32 × Machine B → List Int32 → Prop
  | _, [] => True
  | s, c :: cs => Fits (c + s.1) s.2 ∧ SlicesFit (slice s c) cs

theorem slicesFit_append_singleton (s : Int32 × Machine B) (cs : List Int32) (c : Int32) :
    SlicesFit s (cs ++ [c])
      ↔ SlicesFit s cs ∧ Fits (c + (cs.foldl slice s).1) (cs.foldl slice s).2 := by
  induction cs generalizing s with
  | nil => exact and_comm
  | cons d cs ih =>
      rw [List.cons_append, SlicesFit, SlicesFit, ih, and_assoc]
      rfl

/-- Without a budget nothing is run. -/
theorem execute_zero (m : Machine B) : m.execute 0 = (0, m) := by
  have hr : Runs 0 m 0 (0, m) := by
    refine ⟨fun k hk => absurd hk (Nat.not_lt_zero k), ?_, rfl⟩
    rintro ⟨hb, -⟩
    exact nomatch hb
  exact execute_of_runs hr (by decide)

/-- The parts of a budget come to the whole, by induction on the parts, the last one first. -/
theorem foldl_slice (h : Quiet m) (hc : AlwaysCostly m) {slices : List Int32}
    (hpos : ∀ c ∈ slices, 0 ≤ c.toInt) (hsum : (slices.map Int32.toInt).sum < 2 ^ 31) :
    (Fits slices.sum m ↔ SlicesFit (0, m) slices)
      ∧ (Fits slices.sum m → slices.foldl slice (0, m) = m.execute slices.sum) := by
  induction slices using List.reverseRecOn with
  | nil =>
      have hnothing : Fits 0 m := fun n hgo => nomatch (hgo 0 (Nat.zero_le n)).1
      exact ⟨⟨fun _ => trivial, fun _ => hnothing⟩, fun _ => m.execute_zero.symm⟩
  | append_singleton cs c ih =>
      have hc₀ : 0 ≤ c.toInt := hpos c (List.mem_append_right cs List.mem_cons_self)
      have hcs : ∀ d ∈ cs, 0 ≤ d.toInt := fun d hd => hpos d (List.mem_append_left [c] hd)
      rw [List.map_append, List.map_singleton, List.sum_append, List.sum_singleton] at hsum
      rw [List.sum_append, List.sum_singleton, slicesFit_append_singleton, List.foldl_append]
      obtain ⟨hfit, heq⟩ := ih hcs (by omega)
      have hbefore : cs.sum.toInt = (cs.map Int32.toInt).sum := toInt_sum_of_fits hcs (by omega)
      have hboth := fits_add (a := cs.sum) (b := c) h hc hc₀ (by omega)
      constructor
      · rw [hboth, ← hfit]
        constructor
        · rintro ⟨hfirst, hlast⟩
          rw [heq hfirst]
          exact ⟨hfirst, hlast⟩
        · rintro ⟨hfirst, hlast⟩
          rw [heq hfirst] at hlast
          exact ⟨hfirst, hlast⟩
      · intro hwhole
        rw [heq (hboth.mp hwhole).1]
        exact execute_add h hc hc₀ (by omega) hwhole

/-- **A budget may be cut anywhere.**  Where nothing but a fault asks to stop and every
    access costs a cycle, a run of one budget and then of another with the residual of the
    first leaves the residual and the machine that a run of both leaves, and has a result
    exactly where that one has; and so for any parts of a budget. -/
theorem slices_are_one_run (h : Quiet m) (hc : AlwaysCostly m) :
    (∀ a b : Int32, 0 ≤ a → 0 ≤ b → a.toInt + b.toInt < 2 ^ 31 →
      (Fits (a + b) m ↔ Fits a m ∧ Fits (b + (m.execute a).1) (m.execute a).2)
        ∧ (Fits (a + b) m →
          (b + (m.execute a).1).toInt = b.toInt + (m.execute a).1.toInt
            ∧ (m.execute a).2.execute (b + (m.execute a).1) = m.execute (a + b)))
      ∧ ∀ slices : List Int32, (∀ c ∈ slices, 0 ≤ c) → (slices.map Int32.toInt).sum < 2 ^ 31 →
        (Fits slices.sum m ↔ SlicesFit (0, m) slices)
          ∧ (Fits slices.sum m → slices.foldl slice (0, m) = m.execute slices.sum) := by
  constructor
  · intro a b _ hb hsum
    have hb' : 0 ≤ b.toInt := Int32.le_iff_toInt_le.mp hb
    refine ⟨fits_add h hc hb' hsum, ?_⟩
    intro hfits
    exact ⟨toInt_add_left hc hb' hsum (hfits.less h hc hb' hsum), execute_add h hc hb' hsum hfits⟩
  · intro slices hpos hsum
    exact foldl_slice h hc (fun c hmem => Int32.le_iff_toInt_le.mp (hpos c hmem)) hsum

/-- A cut in the overrun of the instruction that leaves the 16-bit set: five cycles are
    overrun by two, which the next six pay first. -/
theorem slices_are_one_run_across_sets :
    Quiet acrossSets ∧ AlwaysCostly acrossSets ∧ Fits 11 acrossSets
      ∧ (acrossSets.execute 5).1 = -2 ∧ (acrossSets.execute 5).2.host.instructions = 3
      ∧ (acrossSets.execute 5).2.execute (6 + (acrossSets.execute 5).1) = acrossSets.execute 11
      ∧ [5, 0, 6].foldl slice (0, acrossSets) = acrossSets.execute 11 := by
  have h : Quiet acrossSets := ⟨rfl, rfl⟩
  have htame : Tame acrossSets.bus :=
    ⟨Bus.steady_of_write (fun _ _ _ _ => rfl) _, fun _ _ _ => show InRange 1 by decide⟩
  have hc := AlwaysCostly.of_tame htame
  have hfits := Fits.of_tame htame 11
  obtain ⟨htwo, hmany⟩ := slices_are_one_run h hc
  obtain ⟨-, heq⟩ := (htwo 5 6 (by decide) (by decide) (by decide)).2 hfits
  have hpos : ∀ c ∈ ([5, 0, 6] : List Int32), 0 ≤ c := by
    intro c hmem
    rw [List.mem_cons, List.mem_cons, List.mem_singleton] at hmem
    rcases hmem with rfl | rfl | rfl <;> decide
  obtain ⟨-, hparts⟩ := hmany [5, 0, 6] hpos (by decide)
  have hwhole : ([5, 0, 6] : List Int32).sum = 11 := rfl
  rw [hwhole] at hparts
  exact ⟨h, hc, hfits, by decide +kernel, by decide +kernel, heq, hparts hfits⟩

end Armv4t.Machine
