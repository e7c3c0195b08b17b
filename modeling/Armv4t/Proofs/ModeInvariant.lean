import Armv4t.Proofs.Dispatch
import Armv4t.Proofs.ExceptionEntry

/-! # The mode invariant — the current status always holds a mode

    Saved statuses are plain storage and may hold anything.  The current status is
    written in few ways: under a mask that spares the mode field, with the bits of
    a mode, or with a whole status that was checked.  So its mode field holds a mode
    after a reset, and every action, every step, every run and every host operation
    keeps that.

    * an action keeps it (`Action.hasMode_onCore`), hence a step does
      (`Machine.hasMode_step`), hence a run does, by the steps it consists of
      (`Machine.hasMode_execute`);
    * a host operation is a step, a run, an exception, or a write that leaves the
      status alone or checks it (`HostOp.hasMode_apply`);
    * a machine that a host has worked on in any way holds a mode
      (`HostOp.status_always_holds_a_mode`). -/

namespace Armv4t

/-! ## Changes to a status -/

/-- A change under a mask that spares the mode field keeps a mode. -/
theorem Psr.HasMode.of_agreeOff {p q : Psr} {mask : Word} (hq : q.HasMode)
    (h : AgreeOff mask p.raw q.raw) (hm : ~~~mask &&& modeMask = modeMask) : p.HasMode := by
  obtain ⟨m, hm'⟩ := hq
  exact ⟨m, (Psr.mode?_eq_of_agreeOff h hm).trans hm'⟩

/-- Where the field holds a mode, nothing is told about reading it. -/
theorem Psr.HasMode.modeEvent?_eq {p : Psr} (h : p.HasMode) : p.modeEvent? = none := by
  rw [modeEvent?, h.mode?_eq]

namespace Core

variable {k : Core}

/-- A switch writes the mode it goes to. -/
theorem hasMode_switchMode (h : k.cpsr.HasMode) (m : Mode) :
    (k.switchMode m).cpsr.HasMode := by
  by_cases hm : k.mode = m
  · rw [switchMode_of_eq hm]
    exact h
  · rw [switchMode_of_ne hm]
    exact ⟨m, k.cpsr.mode?_setMode m⟩

/-- A status that is installed has a mode, and one that is refused leaves the old one. -/
theorem hasMode_tryInstall (h : k.cpsr.HasMode) (p : Psr) :
    (k.tryInstall p).cpsr.HasMode := by
  cases hp : p.mode? with
  | error e =>
      rw [tryInstall_of_error hp]
      exact h
  | ok m =>
      rw [tryInstall_of_ok hp]
      exact ⟨m, hp⟩

/-- The saved status may hold anything: without a mode it is not taken back. -/
theorem hasMode_restored (h : k.cpsr.HasMode) : k.restored.cpsr.HasMode := by
  rw [restored]
  cases k.spsr? with
  | none => exact h
  | some p => exact hasMode_tryInstall h p

end Core

/-- Every legal action keeps the mode in the current status. -/
theorem Action.hasMode_onCore (a : Action) {k : Core} (legal : a.Legal k)
    (h : k.cpsr.HasMode) : (a.onCore k).cpsr.HasMode := by
  cases a with
  | updateFlags f => exact h.of_agreeOff (legal k.cpsr) (by decide)
  | exchange s target => exact h.of_agreeOff (k.cpsr.setT_agreeOff s.toBit) (by decide)
  | moveStatus value fields => exact Core.hasMode_tryInstall h _
  | restore target => exact Core.hasMode_restored h
  | _ => exact h

/-! ## Steps and runs -/

namespace Machine

variable {B : Type} [Bus B] {m : Machine B}

/-- So does every state that an instruction passes through. -/
theorem hasMode_of_acts {x y : Execution B} (h : x.core.cpsr.HasMode) (acts : Acts x y) :
    y.core.cpsr.HasMode :=
  acts.keeps_core (P := fun k => k.cpsr.HasMode) (fun a _ => a.hasMode_onCore) h

/-- A step keeps the mode, whether its instruction traps or not. -/
theorem hasMode_step (h : m.core.cpsr.HasMode) : m.step.2.core.cpsr.HasMode := by
  cases ht : m.trap? with
  | none =>
      obtain ⟨pc, hpc⟩ := endCore_eq m.core.instructionSet m.flight
      rw [core_step, hpc]
      exact hasMode_of_acts (x := .start m.core.aligned m.bus) h (acts_flight ht)
  | some e =>
      rw [core_step_of_trap ht]
      exact ⟨_, (Core.enter_entered (k := m.core.aligned) h e).mode⟩

/-- The status holds a mode after any number of steps. -/
theorem hasMode_after (h : m.core.cpsr.HasMode) (n : Nat) :
    (m.after n).core.cpsr.HasMode := by
  induction n with
  | zero => exact h
  | succ n ih =>
      rw [after_succ]
      exact hasMode_step ih

/-- It holds one after a call of the loop, which is some steps. -/
theorem hasMode_execute (h : m.core.cpsr.HasMode) (budget : Int32) :
    (m.execute budget).2.core.cpsr.HasMode := by
  obtain ⟨n, hn⟩ := run_alike runLimit budget m
  rw [execute_eq_run, hn.core]
  exact hasMode_after h n

/-! ## Host operations -/

theorem core_enterException (m : Machine B) (e : Exception) :
    (m.enterException e).2.core = m.core.enter e := by
  obtain ⟨es, hes⟩ := (Execution.start m.core m.bus).takeException_eq e
  show (Execution.takeException _ e).core = _
  rw [hes]
  rfl

theorem bus_enterException (m : Machine B) (e : Exception) :
    (m.enterException e).2.bus = m.bus := by
  obtain ⟨es, hes⟩ := (Execution.start m.core m.bus).takeException_eq e
  show (Execution.takeException _ e).bus = _
  rw [hes]
  rfl

end Machine

/-- Reset begins in a mode that the configuration names. -/
theorem Config.hasMode_resetStatus (c : Config) : c.resetStatus.HasMode := by
  have h : AgreeOff 0xE0 c.resetStatus.raw (Psr.ofMode c.resetMode).raw :=
    ((Psr.setT_agreeOff _ _).mono (by decide)).trans <|
      ((Psr.setFiqDisabled_agreeOff _ _).mono (by decide)).trans
        ((Psr.setIrqDisabled_agreeOff _ _).mono (by decide))
  exact Psr.HasMode.of_agreeOff ⟨c.resetMode, Psr.mode?_ofMode c.resetMode⟩ h (by decide)

/-- Everything that a host can do to a machine, but for overwriting the current status
    without a check. -/
inductive HostOp (B : Type) where
  | step
  | execute (budget : Int32)
  | raiseIrq
  | enterException (e : Exception)
  | changeMode (n : Word)
  | switchMode (mode : Mode)
  | writeStatus (p : Psr)
  | restore (snapshot : Core)
  | reset
  | requestBreak
  | setHook (hook : Hook)
  | clearHook
  | isBreakpoint (a : Word)
  | takeDiagnostic
  | write (i : Reg) (v : Word)
  | setSpsr (mode : Mode) (p : Psr)
  | replaceBank (bank : Bank)
  | replaceBus (bus : B)

namespace HostOp

variable {B : Type} [Bus B]

/-- The machine after an operation, whether it was refused or not. -/
def apply (m : Machine B) : HostOp B → Machine B
  | step => m.step.2
  | execute budget => (m.execute budget).2
  | raiseIrq => m.raiseIrq.2
  | enterException e => (m.enterException e).2
  | changeMode n => (m.attemptMode n).state
  | switchMode mode => m.switchMode mode
  | writeStatus p => (m.attemptStatus p).state
  | restore snapshot => (m.attemptRestore snapshot).state
  | reset => m.reset
  | requestBreak => m.requestBreak
  | setHook hook => m.setHook hook
  | clearHook => m.clearHook
  | isBreakpoint a => (m.isBreakpoint a).2
  | takeDiagnostic => m.takeDiagnostic.2
  | write i v => m.write i v
  | setSpsr mode p => m.setSpsr mode p
  | replaceBank bank => { m with core := { m.core with bank } }
  | replaceBus bus => { m with bus }

/-! What can be refused comes to one of two machines: the one that was asked for, and the
    one that there was. -/

/-- The operation leaves what an accepted attempt made, and the same machine after a refusal. -/
theorem apply_changeMode (m : Machine B) (n : Word) :
    apply m (.changeMode n) = m ∨ ∃ mode, apply m (.changeMode n) = m.switchMode mode := by
  show (m.attemptMode n).state = m ∨ ∃ mode, (m.attemptMode n).state = m.switchMode mode
  cases hn : Mode.ofBits n with
  | error e => exact .inl (congrArg Attempt.state (Machine.attemptMode_of_error hn))
  | ok mode => exact .inr ⟨mode, congrArg Attempt.state (Machine.attemptMode_of_ok hn)⟩

/-- The same of a status that is set from outside. -/
theorem apply_writeStatus (m : Machine B) (p : Psr) :
    apply m (.writeStatus p) = m ∨ ∃ x : Execution B, x.core.cpsr = p ∧ p.HasMode
      ∧ apply m (.writeStatus p) = Machine.commit m.host x := by
  show (m.attemptStatus p).state = m ∨ ∃ x : Execution B, x.core.cpsr = p ∧ p.HasMode
    ∧ (m.attemptStatus p).state = Machine.commit m.host x
  cases hp : p.mode? with
  | error e => exact .inl (congrArg Attempt.state (Machine.attemptStatus_of_error hp))
  | ok mode =>
      exact .inr ⟨_, rfl, ⟨mode, hp⟩, congrArg Attempt.state (Machine.attemptStatus_of_ok hp)⟩

/-- The same of a core that is put back. -/
theorem apply_restore (m : Machine B) (k : Core) :
    apply m (.restore k) = m ∨ k.cpsr.HasMode ∧ apply m (.restore k)
      = { m with core := k, host := { m.host with lastFetch := none, resumeAt := none } } := by
  show (m.attemptRestore k).state = m ∨ k.cpsr.HasMode ∧ (m.attemptRestore k).state = _
  cases hk : k.cpsr.mode? with
  | error e => exact .inl (congrArg Attempt.state (Machine.attemptRestore_of_error hk))
  | ok mode =>
      exact .inr ⟨⟨mode, hk⟩, congrArg Attempt.state (Machine.attemptRestore_of_ok hk)⟩

/-- Every host operation keeps the mode. -/
theorem hasMode_apply {m : Machine B} (h : m.core.cpsr.HasMode) (op : HostOp B) :
    (apply m op).core.cpsr.HasMode := by
  cases op with
  | step => exact Machine.hasMode_step h
  | execute budget => exact Machine.hasMode_execute h budget
  | raiseIrq =>
      show m.raiseIrq.2.core.cpsr.HasMode
      rw [Machine.raiseIrq]
      by_cases hd : m.core.cpsr.irqDisabled = true
      · rw [if_pos hd]
        exact h
      · rw [if_neg hd, Machine.core_enterException]
        exact ⟨_, (Core.enter_entered h .irq).mode⟩
  | enterException e =>
      show (m.enterException e).2.core.cpsr.HasMode
      rw [Machine.core_enterException]
      exact ⟨_, (Core.enter_entered h e).mode⟩
  | changeMode n =>
      rcases apply_changeMode m n with hsame | ⟨mode, hmode⟩
      · rw [hsame]
        exact h
      · rw [hmode]
        exact Core.hasMode_switchMode h mode
  | switchMode mode => exact Core.hasMode_switchMode h mode
  | writeStatus p =>
      rcases apply_writeStatus m p with hsame | ⟨x, hx, hp, hcommit⟩
      · rw [hsame]
        exact h
      · rw [hcommit]
        exact hx ▸ hp
  | restore snapshot =>
      rcases apply_restore m snapshot with hsame | ⟨hk, hrestored⟩
      · rw [hsame]
        exact h
      · rw [hrestored]
        exact hk
  | reset => exact m.host.config.hasMode_resetStatus
  | _ => exact h

/-- And so does any sequence of them. -/
theorem hasMode_foldl (ops : List (HostOp B)) {m : Machine B} (h : m.core.cpsr.HasMode) :
    (ops.foldl apply m).core.cpsr.HasMode := by
  induction ops generalizing m with
  | nil => exact h
  | cons op ops ih => exact ih (hasMode_apply h op)

/-- **The current status always holds a mode**: whatever a host does to a machine from
    its creation on, in any order and however often, the mode field holds the bits of
    one of the seven modes, in every state that the next instruction passes through as
    well, so that no mode is ever read out of a field that holds none. -/
theorem status_always_holds_a_mode (bus : B) (config : Config) (threshold : Level)
    (ops : List (HostOp B)) :
    let m := ops.foldl apply (Machine.new bus config threshold)
    (∃ mode : Mode, m.core.cpsr.modeBits = mode.bits ∧ m.core.cpsr.mode? = .ok mode
        ∧ m.core.cpsr.mode = mode)
      ∧ m.core.cpsr.modeEvent? = none
      ∧ ∀ x, Acts (.start m.core.aligned m.bus) x → x.core.cpsr.modeEvent? = none := by
  intro m
  have h : m.core.cpsr.HasMode := hasMode_foldl ops config.hasMode_resetStatus
  refine ⟨⟨m.core.cpsr.mode, ?_, h.mode?_eq, rfl⟩, h.modeEvent?_eq, ?_⟩
  · exact Mode.ofBits_eq_ok.mp h.mode?_eq
  · intro x acts
    exact (Machine.hasMode_of_acts (x := .start m.core.aligned m.bus) h acts).modeEvent?_eq

end HostOp

end Armv4t
