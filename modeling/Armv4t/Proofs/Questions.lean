import Armv4t.Proofs.Boundary
import Armv4t.Proofs.Loop

/-! # Questions — what the hook is asked in a run

    At a boundary a run asks its hook about R15, once, unless something else decides there:
    a pending break, a fault to halt on, or that R15 is the address where the last run
    stopped.

    * A turn that goes on has asked and heard no, or it has resumed and asked nothing
      (`questioned_turn`, `turn_of_resumed`), and leaves nothing to resume
      (`resumeAt_turn`), so that every boundary within a run is asked about
      (`questioned_within`);
    * a yes ends the run where it is, and is remembered (`execute_of_hits`);
    * a run that ends with budget left, and neither for a break nor for a fault, has heard
      a yes (`hits_of_left`). -/

namespace Armv4t.Machine

variable {B : Type} {m : Machine B}

/-! ## A boundary -/

/-- Neither a pending break nor a fault to halt on ends a run here. -/
structure Ready (m : Machine B) : Prop where
  breakRequested : m.host.breakRequested = false
  halts : ¬ m.host.Halts

/-- The hook says yes: it is asked, because R15 is not where the last run stopped. -/
structure Hits (m : Machine B) : Prop where
  ready : m.Ready
  afresh : m.host.resumeAt ≠ some m.core.pc
  yes : (m.host.ask m.core.pc).1 = true

/-- The machine that has stopped at a yes: the hook remembers the question, the host the
    address, and the journal is told. -/
def paused (m : Machine B) : Machine B :=
  { m with
    host := { (m.host.ask m.core.pc).2.tell (.breakpointHit m.core.pc) with
      resumeAt := some m.core.pc } }

/-- From one machine to another the hook was asked about an address, once, and gave an
    answer. -/
def Questioned (m : Machine B) (a : Word) (answer : Bool) (m' : Machine B) : Prop :=
  ∃ hook, m.host.hook = some hook ∧ hook.answer hook.asked a = answer
    ∧ m'.host.hook = some { hook with asked := a :: hook.asked }

/-- Asking a hook that is installed is a question to it. -/
theorem questioned_of_ask (hook : m.host.hook ≠ none) (a : Word) {m' : Machine B}
    (h : m'.host.hook = (m.host.ask a).2.hook) : m.Questioned a (m.host.ask a).1 m' := by
  cases hh : m.host.hook with
  | none => exact absurd hh hook
  | some k =>
      rw [Host.ask, hh] at h
      refine ⟨k, hh, ?_, h⟩
      rw [Host.ask, hh]
      rfl

/-- A stop changes what the hook and the host remember and the journal, and nothing else. -/
theorem paused_eq (m : Machine B) : ∃ hook journal,
    m.paused = { m with host := { m.host with hook, journal, resumeAt := some m.core.pc } } := by
  obtain ⟨hook, hask⟩ := m.host.ask_eq m.core.pc
  refine ⟨hook, m.host.journal.add (.breakpointHit m.core.pc), ?_⟩
  rw [paused, hask]
  rfl

/-- And the hook was asked, once. -/
theorem Hits.questioned (h : m.Hits) : m.Questioned m.core.pc true m.paused := by
  have hook : m.host.hook ≠ none := by
    intro hnone
    have hyes := h.yes
    rw [Host.ask, hnone] at hyes
    cases hyes
  have hquestion := questioned_of_ask hook m.core.pc (show m.paused.host.hook = _ from rfl)
  rw [h.yes] at hquestion
  exact hquestion

/-! ## What the checks come to -/

/-- A run that goes on was free to, and has resumed or heard no. -/
theorem asked_of_goes (hgo : m.stops = false) : m.Ready
    ∧ (m.host.resumeAt = some m.core.pc
        ∧ m.asked = { m with host := { m.host with resumeAt := none } }
      ∨ m.host.resumeAt ≠ some m.core.pc ∧ (m.host.ask m.core.pc).1 = false
        ∧ m.asked = { m with host := { (m.host.ask m.core.pc).2 with resumeAt := none } }) := by
  by_cases hb : m.host.breakRequested = true
  · rw [(asked_of_shouldStop (Host.shouldStop_of_break hb)).1] at hgo
    cases hgo
  · have hb' := Bool.eq_false_of_not_eq_true hb
    by_cases hf : m.host.Halts
    · rw [(asked_of_shouldStop (Host.shouldStop_of_halts hb' hf)).1] at hgo
      cases hgo
    · refine ⟨⟨hb', hf⟩, ?_⟩
      by_cases hr : m.host.resumeAt = some m.core.pc
      · exact Or.inl ⟨hr, (asked_of_shouldStop (Host.shouldStop_of_resume hb' hf hr)).2⟩
      · cases hask : (m.host.ask m.core.pc).1 with
        | true =>
            rw [(asked_of_shouldStop (Host.shouldStop_of_hit hb' hf hr hask)).1] at hgo
            cases hgo
        | false =>
            exact Or.inr ⟨hr, rfl,
              (asked_of_shouldStop (Host.shouldStop_of_passed hb' hf hr hask)).2⟩

/-- At a yes the run stops, and the machine has stopped there. -/
theorem Hits.asked_eq (h : m.Hits) : m.stops = true ∧ m.asked = m.paused :=
  asked_of_shouldStop
    (Host.shouldStop_of_hit h.ready.breakRequested h.ready.halts h.afresh h.yes)

/-- A run that stops without need has heard a yes. -/
theorem hits_of_stops (hstop : m.stops = true) (hready : m.Ready) : m.Hits := by
  obtain ⟨hb, hf⟩ := hready
  have hr : m.host.resumeAt ≠ some m.core.pc := by
    intro hr
    rw [(asked_of_shouldStop (Host.shouldStop_of_resume hb hf hr)).1] at hstop
    cases hstop
  refine ⟨⟨hb, hf⟩, hr, ?_⟩
  cases hask : (m.host.ask m.core.pc).1 with
  | true => rfl
  | false =>
      rw [(asked_of_shouldStop (Host.shouldStop_of_passed hb hf hr hask)).1] at hstop
      cases hstop

/-- A break and a fault stop a run before the remembered address is looked at. -/
theorem stops_of_not_ready (h : ¬ m.Ready) :
    m.stops = true ∧ m.asked.host.resumeAt = m.host.resumeAt := by
  by_cases hb : m.host.breakRequested = true
  · obtain ⟨hstops, hasked⟩ := asked_of_shouldStop (Host.shouldStop_of_break hb)
    rw [hasked]
    exact ⟨hstops, rfl⟩
  · have hb' := Bool.eq_false_of_not_eq_true hb
    have hf : m.host.Halts := by
      by_contra hf
      exact h ⟨hb', hf⟩
    obtain ⟨hstops, hasked⟩ := asked_of_shouldStop (Host.shouldStop_of_halts hb' hf)
    rw [hasked]
    exact ⟨hstops, rfl⟩

/-- A run that is free to go on from where the last one stopped does so. -/
theorem resumes (hready : m.Ready) (hr : m.host.resumeAt = some m.core.pc) :
    m.stops = false ∧ m.asked = { m with host := { m.host with resumeAt := none } } :=
  asked_of_shouldStop (Host.shouldStop_of_resume hready.breakRequested hready.halts hr)

/-! ## A turn -/

variable [Bus B] {budget : Int32} {n : Nat}

/-- A step leaves nothing to resume, and so does a turn. -/
theorem resumeAt_turn (s : Int32 × Machine B) : (turn s).2.host.resumeAt = none :=
  s.2.asked.host_step.resumeAt

/-- A turn that goes on has asked about R15 and heard no. -/
theorem questioned_turn {s : Int32 × Machine B} (hook : s.2.host.hook ≠ none) (hgo : GoesOn s)
    (hr : s.2.host.resumeAt ≠ some s.2.core.pc) :
    s.2.Questioned s.2.core.pc false (turn s).2 := by
  obtain ⟨-, ⟨hresume, -⟩ | ⟨-, hno, hasked⟩⟩ := asked_of_goes hgo.2
  · exact absurd hresume hr
  · rw [← hno]
    refine questioned_of_ask hook s.2.core.pc ?_
    show s.2.asked.step.2.host.hook = _
    rw [s.2.asked.host_step.hook, hasked]

/-- A turn that resumes has asked nothing, and is a plain step. -/
theorem turn_of_resumed {s : Int32 × Machine B} (hready : s.2.Ready)
    (hr : s.2.host.resumeAt = some s.2.core.pc) :
    turn s = (s.1 - s.2.step.1, s.2.step.2) ∧ s.2.step.2.host.hook = s.2.host.hook := by
  refine ⟨?_, s.2.host_step.hook⟩
  have hstep : s.2.asked.step = s.2.step := by
    rw [(resumes hready hr).2]
    rfl
  rw [turn, hstep]

/-! ## A run -/

/-- As long as it goes on the hook is the same but for what it was asked, by induction on
    the turns. -/
theorem hook_turns {hook : Hook} (hhook : m.host.hook = some hook)
    (hgo : ∀ k < n, GoesOn (turns budget m k)) :
    ∃ asked, (turns budget m n).2.host.hook = some { hook with asked } := by
  induction n with
  | zero => exact ⟨hook.asked, hhook⟩
  | succ n ih =>
      obtain ⟨asked, hbefore⟩ := ih fun k hk => hgo k (Nat.lt_succ_of_lt hk)
      have hlast := hgo n (Nat.lt_succ_self n)
      rw [turns_succ]
      by_cases hr : (turns budget m n).2.host.resumeAt = some (turns budget m n).2.core.pc
      · obtain ⟨hturn, hsame⟩ := turn_of_resumed (asked_of_goes hlast.2).1 hr
        rw [hturn]
        exact ⟨asked, hsame.trans hbefore⟩
      · have hne : (turns budget m n).2.host.hook ≠ none := hbefore ▸ Option.some_ne_none _
        obtain ⟨k, hk, -, hafter⟩ := questioned_turn hne hlast hr
        rw [hbefore] at hk
        obtain rfl := Option.some.inj hk
        exact ⟨_, hafter⟩

/-- **Within a run every boundary is asked about**: all instructions but the first follow a
    turn, which leaves nothing to resume. -/
theorem questioned_within (hook : m.host.hook ≠ none) (h : Executes m budget n) {k : Nat}
    (hk : k < n) :
    (turns budget m k).2.Questioned (turns budget m k).2.core.pc false
        (turns budget m (k + 1)).2
      ∨ k = 0 ∧ m.host.resumeAt = some m.core.pc
        ∧ (turns budget m (k + 1)).2.host.hook = m.host.hook := by
  obtain ⟨installed, hinstalled⟩ := Option.ne_none_iff_exists'.mp hook
  obtain ⟨asked, hbefore⟩ :=
    hook_turns hinstalled fun j hj => h.goesOn j (Nat.lt_trans hj hk)
  have hhook : (turns budget m k).2.host.hook ≠ none := hbefore ▸ Option.some_ne_none _
  have hgo := h.goesOn k hk
  rw [turns_succ]
  by_cases hr : (turns budget m k).2.host.resumeAt = some (turns budget m k).2.core.pc
  · cases k with
    | zero =>
        obtain ⟨hturn, hsame⟩ := turn_of_resumed (asked_of_goes hgo.2).1 hr
        refine Or.inr ⟨rfl, hr, ?_⟩
        rw [hturn]
        exact hsame
    | succ k =>
        rw [turns_succ, resumeAt_turn] at hr
        cases hr
  · exact Or.inl (questioned_turn hhook hgo hr)

/-- A run of at most so many instructions that goes on throughout gives its turns, by
    induction on the bound. -/
theorem run_of_goesOn (limit : Nat) (hgo : ∀ k < limit, GoesOn (turns budget m k)) :
    run limit budget m = turns budget m limit := by
  induction limit generalizing budget m with
  | zero => exact run_zero budget m
  | succ limit ih =>
      have hfirst : GoesOn (budget, m) := hgo 0 (Nat.succ_pos limit)
      have hgoes : ¬ m.stops = true := by
        rw [hfirst.2]
        exact Bool.false_ne_true
      rw [run_succ, if_pos hfirst.1, if_neg hgoes, turns_turn]
      refine ih ?_
      intro k hk
      rw [← turns_turn]
      exact hgo (k + 1) (Nat.succ_lt_succ hk)

/-- What a run gives back: what its turns come to, where they end by themselves. -/
theorem Executes.execute_eq (h : Executes m budget n) :
    n < runLimit ∧ m.execute budget = ending (turns budget m n)
      ∨ n = runLimit ∧ m.execute budget = turns budget m n := by
  rcases Nat.lt_or_eq_of_le h.le_limit with hn | hn
  · have hend : ¬ GoesOn (turns budget m n) := fun hgo => absurd (h.ends hgo) (Nat.ne_of_lt hn)
    exact Or.inl ⟨hn, run_eq_ending h.goesOn hend hn⟩
  · refine Or.inr ⟨hn, ?_⟩
    rw [execute_eq_run, ← hn]
    exact run_of_goesOn n h.goesOn

/-- A run with a budget ends where it has asked, with budget left, or after a turn. -/
theorem Executes.last (h : Executes m budget n) (hpos : 0 < budget) :
    n < runLimit ∧ 0 < (turns budget m n).1 ∧ (m.execute budget).2 = (turns budget m n).2.asked
      ∨ ∃ k, n = k + 1 ∧ (m.execute budget).2 = (turn (turns budget m k)).2 := by
  have after_turn (hn : n ≠ 0) (heq : (m.execute budget).2 = (turns budget m n).2) :
      ∃ k, n = k + 1 ∧ (m.execute budget).2 = (turn (turns budget m k)).2 := by
    obtain ⟨k, rfl⟩ := Nat.exists_eq_succ_of_ne_zero hn
    rw [turns_succ] at heq
    exact ⟨k, rfl, heq⟩
  rcases h.execute_eq with ⟨hn, heq⟩ | ⟨hn, heq⟩
  · rw [ending] at heq
    by_cases hleft : 0 < (turns budget m n).1
    · rw [if_pos hleft] at heq
      exact Or.inl ⟨hn, hleft, congrArg Prod.snd heq⟩
    · rw [if_neg hleft] at heq
      have hne : n ≠ 0 := by
        rintro rfl
        exact hleft hpos
      exact Or.inr (after_turn hne (congrArg Prod.snd heq))
  · have hne : n ≠ 0 := by
      rintro rfl
      exact absurd hn (by decide)
    exact Or.inr (after_turn hne (congrArg Prod.snd heq))

/-- **A yes ends the run where it is**, with all that is left of the budget. -/
theorem execute_of_hits (h : Executes m budget n) (hn : n < runLimit)
    (hleft : 0 < (turns budget m n).1) (hhit : (turns budget m n).2.Hits) :
    m.execute budget = ((turns budget m n).1, (turns budget m n).2.paused) := by
  rcases h.execute_eq with ⟨-, heq⟩ | ⟨hlimit, -⟩
  · rw [heq, ending, if_pos hleft, hhit.asked_eq.2]
  · exact absurd hlimit (Nat.ne_of_lt hn)

/-- Where there is budget left, and neither a break nor a fault to end the run, the hook
    has said yes. -/
theorem hits_of_left (h : Executes m budget n) (hn : n < runLimit)
    (hleft : 0 < (turns budget m n).1) (hready : (turns budget m n).2.Ready) :
    (turns budget m n).2.Hits := by
  refine hits_of_stops (Bool.eq_true_of_not_eq_false fun hgo => ?_) hready
  exact absurd (h.ends ⟨hleft, hgo⟩) (Nat.ne_of_lt hn)

end Armv4t.Machine
