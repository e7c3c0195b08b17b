import Armv4t.Proofs.Step

/-! # Dispatch — two loops that are one

    A run changes its loop whenever an instruction flips the T bit.  Seen from
    between two instructions there is one loop: it asks whether to stop, once,
    takes one step in the set that the T bit selects, and pays for it, once
    (`run_succ`).

    Whatever a host does to its own part of a machine, the cores and the bus go
    through the same steps: machines that are alike stay alike (`Alike.step`), so
    that a run ends where some number of plain steps ends (`run_alike`). -/

namespace Armv4t

namespace Host

variable {h : Host} {pc : Word}

/-! ## Asking whether to stop -/

/-- A fault was stored and the configuration says to halt on one. -/
def Halts (h : Host) : Prop := h.config.haltOnInvalidMode = true ∧ h.diagnostic.isSome = true

instance (h : Host) : Decidable h.Halts := inferInstanceAs (Decidable (_ ∧ _))

/-- Asking the hook changes the hook and nothing else. -/
theorem ask_eq (h : Host) (a : Word) : ∃ hook, (h.ask a).2 = { h with hook } := by
  cases hh : h.hook with
  | none =>
      have hask : h.ask a = (false, h) := by rw [ask, hh]
      rw [hask]
      exact ⟨h.hook, rfl⟩
  | some hook =>
      refine ⟨some (hook.ask a).2, ?_⟩
      rw [ask, hh]

/-- And it does not depend on what is remembered. -/
theorem ask_resumeAt (h : Host) (r : Option Word) (a : Word) :
    { h with resumeAt := r }.ask a = ((h.ask a).1, { (h.ask a).2 with resumeAt := r }) := by
  obtain ⟨config, lastFetch, breakRequested, hook, resumeAt, diagnostic, instructions, cycles,
    journal⟩ := h
  cases hook with
  | none => rfl
  | some hook => rfl

/-- A requested break stops, and is used up. -/
theorem shouldStop_of_break (hb : h.breakRequested = true) :
    h.shouldStop pc = (true, { h with breakRequested := false }.tell (.breakTaken pc)) := by
  rw [shouldStop, if_pos hb]

/-- A fault stops where the configuration says so. -/
theorem shouldStop_of_halts (hb : h.breakRequested = false) (hf : h.Halts) :
    h.shouldStop pc = (true, h) := by
  rw [shouldStop, if_neg (by rw [hb]; exact Bool.false_ne_true), if_pos (show _ ∧ _ from hf)]

/-- The address that the last run stopped at is passed without asking. -/
theorem shouldStop_of_resume (hb : h.breakRequested = false) (hf : ¬ h.Halts)
    (hr : h.resumeAt = some pc) : h.shouldStop pc = (false, { h with resumeAt := none }) := by
  rw [shouldStop, if_neg (by rw [hb]; exact Bool.false_ne_true),
    if_neg (show ¬ (_ ∧ _) from hf), if_pos hr]

/-- Anywhere else the hook decides. -/
theorem shouldStop_of_ask (hb : h.breakRequested = false) (hf : ¬ h.Halts)
    (hr : h.resumeAt ≠ some pc) :
    h.shouldStop pc =
      if (h.ask pc).1 = true then
        (true, { (h.ask pc).2.tell (.breakpointHit pc) with resumeAt := some pc })
      else (false, { (h.ask pc).2 with resumeAt := none }) := by
  rw [shouldStop, if_neg (by rw [hb]; exact Bool.false_ne_true),
    if_neg (show ¬ (_ ∧ _) from hf), if_neg hr, ask_resumeAt]
  rfl

/-- A yes stops, and is remembered. -/
theorem shouldStop_of_hit (hb : h.breakRequested = false) (hf : ¬ h.Halts)
    (hr : h.resumeAt ≠ some pc) (yes : (h.ask pc).1 = true) :
    h.shouldStop pc =
      (true, { (h.ask pc).2.tell (.breakpointHit pc) with resumeAt := some pc }) := by
  rw [shouldStop_of_ask hb hf hr, if_pos yes]

/-- A no goes on. -/
theorem shouldStop_of_passed (hb : h.breakRequested = false) (hf : ¬ h.Halts)
    (hr : h.resumeAt ≠ some pc) (no : (h.ask pc).1 = false) :
    h.shouldStop pc = (false, { (h.ask pc).2 with resumeAt := none }) := by
  rw [shouldStop_of_ask hb hf hr, if_neg (by rw [no]; exact Bool.false_ne_true)]

/-- Asking changes the pending break, the hook, the remembered address and the journal,
    whatever it comes to; and a run that goes on has forgotten the address. -/
theorem shouldStop_eq (h : Host) (pc : Word) : ∃ breakRequested hook resumeAt journal,
    (h.shouldStop pc).2 = { h with breakRequested, hook, resumeAt, journal }
      ∧ ((h.shouldStop pc).1 = false → resumeAt = none) := by
  by_cases hb : h.breakRequested = true
  · rw [shouldStop_of_break hb]
    exact ⟨false, h.hook, h.resumeAt, _, rfl, fun hgo => nomatch hgo⟩
  · have hb' := Bool.eq_false_of_not_eq_true hb
    by_cases hf : h.Halts
    · rw [shouldStop_of_halts hb' hf]
      exact ⟨_, _, _, _, rfl, fun hgo => nomatch hgo⟩
    · by_cases hr : h.resumeAt = some pc
      · rw [shouldStop_of_resume hb' hf hr]
        exact ⟨_, _, none, _, rfl, fun _ => rfl⟩
      · -- the hook may answer either way
        obtain ⟨hook, hask⟩ := h.ask_eq pc
        cases hyes : (h.ask pc).1 with
        | true =>
            rw [shouldStop_of_hit hb' hf hr hyes, hask]
            exact ⟨_, hook, some pc, _, rfl, fun hgo => nomatch hgo⟩
        | false =>
            rw [shouldStop_of_passed hb' hf hr hyes, hask]
            exact ⟨_, hook, none, _, rfl, fun _ => rfl⟩

end Host

namespace Machine

variable {B : Type} [Bus B]

/-! ## The one loop -/

/-- A run of at most so many instructions, in the loop that the T bit selects. -/
def run (limit : Nat) (budget : Int32) (m : Machine B) : Int32 × Machine B :=
  match m.core.instructionSet with
  | .arm => runArm limit budget m
  | .thumb => runThumb limit budget m

theorem execute_eq_run (m : Machine B) (budget : Int32) :
    m.execute budget = run runLimit budget m := rfl

/-- Whether a run stops before the next instruction. -/
def stops (m : Machine B) : Bool := (m.host.shouldStop m.core.pc).1

/-- The machine once a run has asked whether it has to stop. -/
def asked (m : Machine B) : Machine B :=
  { m with host := (m.host.shouldStop m.core.pc).2 }

omit [Bus B] in
theorem lastFetch_asked (m : Machine B) : m.asked.host.lastFetch = m.host.lastFetch := by
  obtain ⟨b, hook, r, j, heq, -⟩ := m.host.shouldStop_eq m.core.pc
  rw [asked, heq]

omit [Bus B] in
/-- A run that goes on has forgotten where the last one stopped. -/
theorem resumeAt_asked {m : Machine B} (hgo : m.stops = false) :
    m.asked.host.resumeAt = none := by
  obtain ⟨b, hook, r, j, heq, hresume⟩ := m.host.shouldStop_eq m.core.pc
  rw [asked, heq]
  exact hresume hgo

/-- Where nothing is to be resumed, a step takes one instruction of the current set. -/
theorem step_of_resumeAt {m : Machine B} (h : m.host.resumeAt = none) :
    m.step = match m.core.instructionSet with
      | .arm => m.stepArm
      | .thumb => m.stepThumb := by
  have hm : { m with host := { m.host with resumeAt := none } } = m := by
    rw [← h]
  show (match m.core.instructionSet with
    | .arm => stepArm { m with host := { m.host with resumeAt := none } }
    | .thumb => stepThumb { m with host := { m.host with resumeAt := none } }) = _
  rw [hm]

theorem run_zero (budget : Int32) (m : Machine B) : run 0 budget m = (budget, m) := by
  rw [run]
  cases m.core.instructionSet with
  | arm => rw [runArm]
  | thumb => rw [runThumb]

/-- **The two loops are one**: while the budget lasts a run asks once whether to stop,
    takes one step in the set that the T bit selects, and pays once for it. -/
theorem run_succ (limit : Nat) (budget : Int32) (m : Machine B) :
    run (limit + 1) budget m =
      if 0 < budget then
        if m.stops then (budget, m.asked)
        else run limit (budget - m.asked.step.1) m.asked.step.2
      else (budget, m) := by
  by_cases hb : 0 < budget
  · rw [if_pos hb]
    cases hgo : m.stops with
    | true =>
        rw [if_pos rfl]
        have hstop : m.host.shouldStop m.core.pc = (true, m.asked.host) := Prod.ext hgo rfl
        rw [run]
        cases hs : m.core.instructionSet with
        | arm => simp only [runArm, if_pos hb, hstop]; rfl
        | thumb => simp only [runThumb, if_pos hb, hstop]; rfl
    | false =>
        rw [if_neg Bool.false_ne_true]
        have hstop : m.host.shouldStop m.core.pc = (false, m.asked.host) := Prod.ext hgo rfl
        -- a run that goes on has nothing to resume, so its step is the plain one
        have hresume := resumeAt_asked hgo
        have hstep := step_of_resumeAt (m := m.asked) hresume
        have hset : m.asked.core.instructionSet = m.core.instructionSet := rfl
        rw [hset] at hstep
        rw [run]
        cases hs : m.core.instructionSet with
        | arm =>
            rw [hs] at hstep
            simp only [runArm, if_pos hb, hstop]
            rw [hstep, run]
            rfl
        | thumb =>
            rw [hs] at hstep
            simp only [runThumb, if_pos hb, hstop]
            rw [hstep, run]
            rfl
  · rw [if_neg hb, run]
    cases m.core.instructionSet with
    | arm => rw [runArm, if_neg hb]
    | thumb => rw [runThumb, if_neg hb]

/-- A call for a run asks at once, where there is budget. -/
theorem execute_succ (budget : Int32) (m : Machine B) :
    m.execute budget =
      if 0 < budget then
        if m.stops then (budget, m.asked)
        else run 0x3FFFFFFFFFFFFFFF (budget - m.asked.step.1) m.asked.step.2
      else (budget, m) :=
  run_succ 0x3FFFFFFFFFFFFFFF budget m

/-! ## Runs and steps -/

/-- Two machines with the same core, bus and last code fetch: all that a step reads,
    apart from what it only adds to. -/
structure Alike (m m' : Machine B) : Prop where
  core : m.core = m'.core
  bus : m.bus = m'.bus
  lastFetch : m.host.lastFetch = m'.host.lastFetch

namespace Alike

variable {m₁ m₂ m₃ : Machine B}

omit [Bus B] in
theorem refl (m : Machine B) : Alike m m := ⟨rfl, rfl, rfl⟩

omit [Bus B] in
theorem trans (h₁ : Alike m₁ m₂) (h₂ : Alike m₂ m₃) : Alike m₁ m₃ :=
  ⟨h₁.core.trans h₂.core, h₁.bus.trans h₂.bus, h₁.lastFetch.trans h₂.lastFetch⟩

omit [Bus B] in
/-- Asking whether to stop gives an alike machine. -/
theorem asked (m : Machine B) : Alike m.asked m :=
  ⟨rfl, rfl, m.lastFetch_asked⟩

/-- Alike machines carry out the same instruction. -/
theorem flight (h : Alike m₁ m₂) : m₁.flight = m₂.flight := by
  rw [Machine.flight, Machine.flight, Machine.fetched, Machine.fetched, h.core, h.bus]

/-- Alike machines take as long over a step, and are alike after it. -/
theorem step (h : Alike m₁ m₂) :
    m₁.step.1 = m₂.step.1 ∧ Alike m₁.step.2 m₂.step.2 := by
  refine ⟨?_, ?_, ?_, ?_⟩
  · rw [cycles_step, cycles_step, h.flight, h.core, h.lastFetch]
  · rw [core_step, core_step, h.flight, h.core]
  · rw [bus_step, bus_step, h.flight]
  · rw [(host_step m₁).lastFetch, (host_step m₂).lastFetch, h.flight, h.core]

/-- And so after any number of steps. -/
theorem after (h : Alike m₁ m₂) (n : Nat) : Alike (m₁.after n) (m₂.after n) := by
  induction n with
  | zero => exact h
  | succ n ih =>
      rw [after_succ, after_succ]
      exact ih.step.2

end Alike

/-- **A run ends where some number of plain steps ends**, by induction on the bound
    of the run. -/
theorem run_alike (limit : Nat) (budget : Int32) (m : Machine B) :
    ∃ n, Alike (run limit budget m).2 (m.after n) := by
  induction limit generalizing budget m with
  | zero =>
      rw [run_zero]
      exact ⟨0, Alike.refl m⟩
  | succ limit ih =>
      rw [run_succ]
      by_cases hb : 0 < budget
      · rw [if_pos hb]
        by_cases hstop : m.stops = true
        · rw [if_pos hstop]
          exact ⟨0, Alike.asked m⟩
        · rw [if_neg hstop]
          -- the rest of the run counts its steps from a machine that was asked
          obtain ⟨n, hn⟩ := ih (budget - m.asked.step.1) m.asked.step.2
          refine ⟨n + 1, hn.trans ?_⟩
          rw [after_step]
          exact (Alike.asked m).step.2.after n
      · rw [if_neg hb]
        exact ⟨0, Alike.refl m⟩

end Machine

end Armv4t
