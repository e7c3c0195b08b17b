import Armv4t.Proofs.ModeInvariant

/-! # Halting — a fault ends every run until it is taken

    Where the configuration says to halt on a fault, a run that finds one executes
    nothing and gives its whole budget back.  A fault can be replaced by another one,
    but only two operations make the host forget it: taking it, and a reset.

    * a run that finds a fault ends before its first instruction (`run_of_halts`,
      `execute_of_halts`);
    * every other operation leaves a fault where one was (`HostOp.halts_apply`), and so
      does whatever is done to the core and the bus, hence the fault ends all later runs
      (`Onward.halts`). -/

namespace Armv4t

namespace Host

variable {h : Host}

/-- An instruction that meets no fault leaves the one that is there. -/
theorem halts_observe {B : Type} [Bus B] (hf : h.Halts) (x : Execution B) :
    (h.observe x).Halts := by
  refine ⟨hf.1, ?_⟩
  show (x.fault <|> h.diagnostic).isSome = true
  cases x.fault with
  | none => exact hf.2
  | some e => rfl

/-- A run that finds a fault uses a requested break up, and stops either way. -/
theorem shouldStop_of_fault (hf : h.Halts) (pc : Word) :
    ∃ j, h.shouldStop pc = (true, { h with breakRequested := false, journal := j }) := by
  by_cases hb : h.breakRequested = true
  · exact ⟨_, shouldStop_of_break hb⟩
  · have hb' := Bool.eq_false_of_not_eq_true hb
    refine ⟨h.journal, ?_⟩
    rw [shouldStop_of_halts hb' hf, ← hb']

end Host

/-- The operations that make the host forget a fault. -/
def HostOp.Forgets {B : Type} : HostOp B → Prop
  | takeDiagnostic | reset => True
  | _ => False

namespace Machine

variable {B : Type} [Bus B] {m : Machine B}

/-! ## Runs that find a fault -/

/-- Such a run changes nothing but a requested break and the journal. -/
theorem run_of_halts (hf : m.host.Halts) (limit : Nat) (budget : Int32) :
    ∃ b j, run limit budget m
      = (budget, { m with host := { m.host with breakRequested := b, journal := j } }) := by
  cases limit with
  | zero => exact ⟨_, _, run_zero budget m⟩
  | succ limit =>
      rw [run_succ]
      by_cases hb : 0 < budget
      · obtain ⟨j, hj⟩ := Host.shouldStop_of_fault hf m.core.pc
        have hstops : m.stops = true := congrArg Prod.fst hj
        rw [if_pos hb, if_pos hstops]
        refine ⟨false, j, ?_⟩
        rw [asked, hj]
      · rw [if_neg hb]
        exact ⟨_, _, rfl⟩

/-- With a budget to spend the requested break is used up as well. -/
theorem execute_of_halts (hf : m.host.Halts) {budget : Int32} (hb : 0 < budget) :
    ∃ j, m.execute budget
      = (budget, { m with host := { m.host with breakRequested := false, journal := j } }) := by
  obtain ⟨j, hj⟩ := Host.shouldStop_of_fault hf m.core.pc
  have hstops : m.stops = true := congrArg Prod.fst hj
  refine ⟨j, ?_⟩
  rw [execute_succ, if_pos hb, if_pos hstops, asked, hj]

end Machine

/-! ## What leaves a fault -/

namespace HostOp

variable {B : Type} [Bus B] {m : Machine B}

/-- Every operation leaves a fault where one was, taking it and a reset apart. -/
theorem halts_apply (hf : m.host.Halts) {op : HostOp B} (hop : ¬ op.Forgets) :
    (op.apply m).host.Halts := by
  have hentered (e : Exception) : (m.enterException e).2.host.Halts :=
    Host.halts_observe hf ((Execution.start m.core m.bus).takeException e)
  cases op with
  | takeDiagnostic | reset => exact absurd trivial hop
  | step =>
      have hended := Machine.host_step m
      refine ⟨hended.config ▸ hf.1, ?_⟩
      show m.step.2.host.diagnostic.isSome = true
      rw [hended.diagnostic]
      exact (Host.halts_observe hf m.flight).2
  | execute budget =>
      obtain ⟨b, j, hrun⟩ := Machine.run_of_halts hf Machine.runLimit budget
      show (m.execute budget).2.host.Halts
      rw [Machine.execute_eq_run, hrun]
      exact hf
  | raiseIrq =>
      show m.raiseIrq.2.host.Halts
      rw [Machine.raiseIrq]
      by_cases hd : m.core.cpsr.irqDisabled = true
      · rw [if_pos hd]
        exact hf
      · rw [if_neg hd]
        exact hentered .irq
  | enterException e => exact hentered e
  | changeMode n =>
      rcases apply_changeMode m n with hsame | ⟨mode, hmode⟩
      · rw [hsame]
        exact hf
      · rw [hmode]
        exact Host.halts_observe hf _
  | switchMode mode => exact Host.halts_observe hf _
  | writeStatus p =>
      rcases apply_writeStatus m p with hsame | ⟨x, -, -, hcommit⟩
      · rw [hsame]
        exact hf
      · rw [hcommit]
        exact Host.halts_observe hf x
  | restore snapshot =>
      rcases apply_restore m snapshot with hsame | ⟨-, hrestored⟩
      · rw [hsame]
        exact hf
      · rw [hrestored]
        exact hf
  | isBreakpoint a =>
      obtain ⟨hook, hask⟩ := m.host.ask_eq a
      show (m.host.ask a).2.Halts
      rw [hask]
      exact hf
  | _ => exact hf

end HostOp

namespace Machine

variable {B : Type} [Bus B] {m m' : Machine B}

/-- What a machine can become without the host forgetting a fault: by operations, and by
    overwriting the core and the bus with anything. -/
inductive Onward (m : Machine B) : Machine B → Prop where
  | here : Onward m m
  | call {m' : Machine B} (before : Onward m m') (op : HostOp B) (h : ¬ op.Forgets) :
      Onward m (op.apply m')
  | overwrite {m' : Machine B} (before : Onward m m') (core : Core) (bus : B) :
      Onward m { m' with core, bus }

/-- **A fault stays**, by induction on what is done to the machine. -/
theorem Onward.halts (h : Onward m m') (hf : m.host.Halts) : m'.host.Halts := by
  induction h with
  | here => exact hf
  | call before op hop ih => exact HostOp.halts_apply ih hop
  | overwrite before core bus ih => exact ih

end Machine

end Armv4t
