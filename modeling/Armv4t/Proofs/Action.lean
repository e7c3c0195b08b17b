import Armv4t.Arm.Execute
import Armv4t.Proofs.Status

/-! # Actions — what every instruction is made of

    Whatever an instruction does, it does by a few actions: it loads and stores,
    notes what it did, writes registers, branches, sets flags, and installs or
    saves a status.  An action is legal where an instruction may take it: plain
    writes spare R15, flags spare the rest of the status, status transfers belong
    to the 32-bit set, and only modes with a saved status save one.

    * `Action.onCore` says what an action does to the core, and it is all that any
      action does to it (`Action.core_run`);
    * `Acts x y` is a sequence of legal actions, and what every legal action keeps
      holds after any such sequence (`Acts.keeps`).

    That every instruction is such a sequence, trapping aside, is proved with the
    simulations. -/

namespace Armv4t

namespace Core

/-- The core that an attempt to install a status leaves. -/
def tryInstall (k : Core) (p : Psr) : Core := (k.install p).state

/-- The core after a return from an exception; a mode without a saved status changes
    nothing. -/
def restored (k : Core) : Core :=
  match k.spsr? with
  | some p => k.tryInstall p
  | none => k

/-- Saves a status for the current mode. -/
def saveStatus (k : Core) (p : Psr) : Core := { k with bank := k.bank.setSpsr k.mode p }

/-- A register as user mode sees it. -/
def userRegister (k : Core) (r : Reg) : Word := k.bank.userRegister k.registers k.mode r

/-- Writes a register as user mode sees it. -/
def setUserRegister (k : Core) (r : Reg) (v : Word) : Core :=
  { k with
    registers := (k.bank.setUserRegister k.registers k.mode r v).1
    bank := (k.bank.setUserRegister k.registers k.mode r v).2 }

variable {k : Core} {p : Psr}

/-- A status with a mode is installed whole. -/
theorem tryInstall_of_ok {m : Mode} (h : p.mode? = .ok m) :
    k.tryInstall p = (k.switchMode m).setCpsr p :=
  congrArg Attempt.state (install_of_ok h)

/-- A status without a mode changes nothing. -/
theorem tryInstall_of_error {e : InvalidMode} (h : p.mode? = .error e) : k.tryInstall p = k :=
  congrArg Attempt.state (install_of_error h)

/-- A saved status is tried. -/
theorem restored_of_some (h : k.spsr? = some p) : k.restored = k.tryInstall p := by
  rw [restored, h]

theorem restored_of_none (h : k.spsr? = none) : k.restored = k := by
  rw [restored, h]

/-- A mode that has a saved status to show is one of those that have one. -/
theorem hasSpsr_of_some (h : k.spsr? = some p) : k.mode.hasSpsr = true := by
  have hk : k.bank.spsr? k.mode = some p := h
  cases hm : k.mode <;> rw [hm] at hk <;> first | rfl | exact nomatch hk

end Core

namespace Execution

variable {B : Type} (x : Execution B)

/-- Trying a status does to the core of a flight what it does to a core alone. -/
theorem core_tryStatus (p : Psr) : (x.tryStatus p).core = x.core.tryInstall p := by
  cases hp : p.mode? with
  | ok m =>
      rw [tryStatus_of_ok hp, Core.tryInstall_of_ok hp]
      rfl
  | error e =>
      rw [tryStatus_of_error hp, Core.tryInstall_of_error hp]
      rfl

/-- So does taking the saved status back. -/
theorem core_restoreStatus : x.restoreStatus.core = x.core.restored := by
  rw [restoreStatus]
  cases hp : x.core.spsr? with
  | none => rw [Core.restored_of_none hp]
  | some p => rw [Core.restored_of_some hp, ← core_tryStatus]

/-- The entry into a handler: only the core changes, R15 counts as written, and the
    trail gets events only. -/
theorem takeException_eq (e : Exception) :
    ∃ es : List Event, x.takeException e =
      { x with
        core := x.core.enter e
        flushed := true
        trail := es.map Activity.event ++ x.trail } := by
  have htold : ∃ es : List Event, x.tellMode e.targetMode
      = { x with trail := es.map Activity.event ++ x.trail } := by
    rw [tellMode]
    by_cases h : x.core.mode = e.targetMode
    · rw [if_pos h]
      exact ⟨[], rfl⟩
    · rw [if_neg h]
      exact ⟨[.modeSwitched x.core.mode e.targetMode], rfl⟩
  obtain ⟨es, hes⟩ := htold
  refine ⟨.exceptionTaken e x.core.pc (x.core.returnAddress e) :: es, ?_⟩
  rw [takeException, hes]
  rfl

/-- The same after one event more. -/
theorem tell_takeException_eq (told : Event) (e : Exception) :
    ∃ es : List Event, (x.tell told).takeException e =
      { x with
        core := x.core.enter e
        flushed := true
        trail := es.map Activity.event ++ x.trail } := by
  obtain ⟨es, hes⟩ := (x.tell told).takeException_eq e
  refine ⟨es ++ [told], ?_⟩
  rw [hes, List.map_append, List.append_assoc]
  rfl

end Execution

/-! ## Actions -/

/-- One action of an instruction in flight. -/
inductive Action where
  | load (width : Width) (sequential : Bool) (address : Word)
  | store (width : Width) (sequential : Bool) (address value : Word)
  | tell (e : Event)
  | wait (n : Int32)
  | scatter
  | setRegister (i : Reg) (v : Word)
  | branchTo (target : Word)
  | updateFlags (f : Psr → Psr)
  /-- A branch exchange. -/
  | exchange (s : InstructionSet) (target : Word)
  /-- A transfer to the current status. -/
  | moveStatus (value : Word) (fields : Arm.StatusFields)
  /-- A return from an exception. -/
  | restore (target : Word)
  | saveStatus (p : Psr)
  | setUserRegister (i : Reg) (v : Word)

namespace Action

/-- What an action does. -/
def run {B : Type} [Bus B] (a : Action) (x : Execution B) : Execution B :=
  match a with
  | load width sequential address => (x.load width sequential address).2
  | store width sequential address value => x.store width sequential address value
  | tell e => x.tell e
  | wait n => x.wait n
  | scatter => x.scatter
  | setRegister i v => x.setRegister i v
  | branchTo target => x.branchTo target
  | updateFlags f => x.updateCpsr f
  | exchange s target => (x.updateCpsr (·.setInstructionSet s)).branchTo target
  | moveStatus value fields => x.tryStatus (Arm.statusAfterMove x.core value fields)
  | restore target => x.restoreStatus.branchTo target
  | saveStatus p => x.withCore (x.core.saveStatus p)
  | setUserRegister i v => x.withCore (x.core.setUserRegister i v)

/-- Where an instruction may take an action. -/
def Legal (a : Action) (k : Core) : Prop :=
  match a with
  | setRegister i _ | setUserRegister i _ => i ≠ Reg.pc
  | updateFlags f => ∀ p, AgreeOff Psr.flagsMask (f p).raw p.raw
  | moveStatus _ _ => k.instructionSet = .arm
  | saveStatus _ => k.mode.hasSpsr = true
  | _ => True

/-- What an action does to the core. -/
def onCore (a : Action) (k : Core) : Core :=
  match a with
  | load .. | store .. | tell _ | wait _ | scatter => k
  | setRegister i v => k.setRegister i v
  | branchTo target => k.jump target
  | updateFlags f => k.setCpsr (f k.cpsr)
  | exchange s target => (k.setCpsr (k.cpsr.setInstructionSet s)).jump target
  | moveStatus value fields => k.tryInstall (Arm.statusAfterMove k value fields)
  | restore target => k.restored.jump target
  | saveStatus p => k.saveStatus p
  | setUserRegister i v => k.setUserRegister i v

theorem core_run {B : Type} [Bus B] (a : Action) (x : Execution B) :
    (a.run x).core = a.onCore x.core := by
  cases a with
  | moveStatus value fields => exact x.core_tryStatus _
  | restore target =>
      show x.restoreStatus.core.jump target = x.core.restored.jump target
      rw [x.core_restoreStatus]
  | _ => rfl

end Action

/-! ## Sequences of actions -/

/-- One instruction in flight comes out of another by legal actions. -/
inductive Acts {B : Type} [Bus B] (x : Execution B) : Execution B → Prop where
  | none : Acts x x
  | act {y : Execution B} (a : Action) (before : Acts x y) (legal : a.Legal y.core) :
      Acts x (a.run y)

namespace Acts

variable {B : Type} [Bus B] {x y : Execution B}

/-- What every legal action keeps holds after a sequence of them. -/
theorem keeps {P : Execution B → Prop} (h : Acts x y)
    (step : ∀ (a : Action) (z : Execution B), a.Legal z.core → P z → P (a.run z))
    (hx : P x) : P y := by
  induction h with
  | none => exact hx
  | act a _ legal ih => exact step a _ legal ih

/-- The same for what depends on the core alone. -/
theorem keeps_core {P : Core → Prop} (h : Acts x y)
    (step : ∀ (a : Action) (k : Core), a.Legal k → P k → P (a.onCore k))
    (hx : P x.core) : P y.core := by
  refine h.keeps (P := fun z => P z.core) ?_ hx
  intro a z legal hz
  rw [a.core_run]
  exact step a z.core legal hz

end Acts

end Armv4t
