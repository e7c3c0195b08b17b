import Armv4t.Config
import Armv4t.Execution

/-! # The machine — a core on a bus, watched by a host

    The core and the bus are all that a program can observe.  What only the host
    sees stands apart: the counters of instructions and cycles, the last code
    fetch that was charged, a request to break, a hook for breakpoints, the last
    fault, and a journal.

    Host operations act between instructions.  They tell the journal what the
    same operations tell inside one. -/

namespace Armv4t

/-- A predicate that is asked about every address before it executes.  It may
    answer by all that it was asked before, the last address first. -/
structure Hook where
  answer : List Word → Word → Bool
  asked : List Word

namespace Hook

/-- The hook that stops at some addresses, always. -/
def ofList (addresses : List Word) : Hook := ⟨fun _ a => addresses.contains a, []⟩

/-- Asks about an address; the hook remembers the question. -/
def ask (h : Hook) (a : Word) : Bool × Hook :=
  (h.answer h.asked a, { h with asked := a :: h.asked })

end Hook

/-- What the host of a machine sees beside its core and its bus. -/
structure Host where
  config : Config
  /-- The address of the last code fetch that was charged. -/
  lastFetch : Option Word
  breakRequested : Bool
  hook : Option Hook
  /-- The breakpoint the last run stopped at; the next one passes it. -/
  resumeAt : Option Word
  /-- The last status without a mode that a program tried to install. -/
  diagnostic : Option InvalidMode
  instructions : UInt64
  cycles : UInt64
  journal : Journal

namespace Host

/-- A host that has seen nothing yet, with a journal from some level on. -/
def blank (config : Config) (threshold : Level) : Host :=
  { config
    lastFetch := none
    breakRequested := false
    hook := none
    resumeAt := none
    diagnostic := none
    instructions := 0
    cycles := 0
    journal := .empty threshold }

/-- The host after a reset: only the hook and the journal stay. -/
def reset (h : Host) : Host :=
  { Host.blank h.config h.journal.threshold with hook := h.hook, journal := h.journal }

/-- The host with one event more in its journal. -/
@[inline] def tell (h : Host) (e : Event) : Host := { h with journal := h.journal.add e }

/-- Adds to the counters; a negative time counts by its size. -/
def account (h : Host) (instructions : UInt64) (cycles : Int32) : Host :=
  { h with
    instructions := h.instructions + instructions
    cycles := h.cycles + cycles.toInt.natAbs.toUInt64 }

/-- Asks the hook about an address; without a hook the answer is no. -/
def ask (h : Host) (a : Word) : Bool × Host :=
  match h.hook with
  | none => (false, h)
  | some hook =>
    let (answer, hook) := hook.ask a
    (answer, { h with hook := some hook })

end Host

/-- The journal after one entry of a trail: an event as it is, an access as the
    notes that the bus has on it. -/
def Activity.record {B : Type} [Bus B] (bus : B) (a : Activity) (j : Journal) : Journal :=
  match a with
  | .event e => j.add e
  | .access a =>
    if j.keeps .trace then
      j.addNotes <| match a.kind with
        | .load => Bus.readNotes bus a.width (a.width.align a.address)
        | .store => Bus.writeNotes bus a.width (a.width.align a.address) a.value
    else j

/-- The host after an instruction in flight: its fault and its trail are kept. -/
def Host.observe {B : Type} [Bus B] (h : Host) (x : Execution B) : Host :=
  { h with
    diagnostic := x.fault <|> h.diagnostic
    journal := x.trail.foldr (Activity.record x.bus) h.journal }

/-- A core on a bus, and its host. -/
structure Machine (B : Type) where
  core : Core
  bus : B
  host : Host

namespace Machine

variable {B : Type}

/-- Puts the core in its reset state.  The bus and the hook stay. -/
def reset (m : Machine B) : Machine B :=
  let core := m.host.config.resetCore
  { m with core, host := m.host.reset.tell (.reset core.pc core.cpsr) }

/-- A machine after its reset, with a journal of the events from some level on. -/
def new (bus : B) (config : Config) (threshold : Level) : Machine B :=
  reset ⟨config.resetCore, bus, .blank config threshold⟩

/-- A register as the host reads it; R15 is the next instruction. -/
def read (m : Machine B) (i : Reg) : Word := m.core.registers.read i

/-- Writes a register as it comes, R15 included. -/
def write (m : Machine B) (i : Reg) (v : Word) : Machine B :=
  { m with core := m.core.setRegister i v }

/-- Overwrites the current status register, without a check and without banking. -/
def pokeStatus (m : Machine B) (p : Psr) : Machine B := { m with core := m.core.setCpsr p }

/-- Overwrites the saved status of a mode; a mode without one changes nothing. -/
def setSpsr (m : Machine B) (mode : Mode) (p : Psr) : Machine B :=
  { m with core := { m.core with bank := m.core.bank.setSpsr mode p } }

/-- Asks a run to stop before its next instruction. -/
def requestBreak (m : Machine B) : Machine B :=
  { m with host := { m.host with breakRequested := true } }

/-- Installs a hook for breakpoints. -/
def setHook (m : Machine B) (hook : Hook) : Machine B :=
  { m with host := { m.host with hook := some hook } }

/-- Takes the hook away, and forgets where the last run stopped. -/
def clearHook (m : Machine B) : Machine B :=
  { m with host := { m.host with hook := none, resumeAt := none } }

/-- Asks the hook about an address. -/
def isBreakpoint (m : Machine B) (a : Word) : Bool × Machine B :=
  let (answer, host) := m.host.ask a
  (answer, { m with host })

/-- The last fault, which is forgotten. -/
def takeDiagnostic (m : Machine B) : Option InvalidMode × Machine B :=
  (m.host.diagnostic, { m with host := { m.host with diagnostic := none } })

/-- The state that is needed to go on elsewhere. -/
def snapshot (m : Machine B) : Core := m.core

/-- Goes on from a snapshot; one whose status has no mode is refused.  The pipeline
    starts again. -/
def attemptRestore (m : Machine B) (k : Core) : Attempt InvalidMode (Machine B) :=
  match k.cpsr.mode? with
  | .ok _ =>
    .done { m with core := k, host := { m.host with lastFetch := none, resumeAt := none } }
  | .error e => .refused e m

/-- A core whose status has a mode replaces the one of the machine. -/
theorem attemptRestore_of_ok {m : Machine B} {k : Core} {mode : Mode}
    (h : k.cpsr.mode? = .ok mode) :
    m.attemptRestore k
      = .done { m with
          core := k, host := { m.host with lastFetch := none, resumeAt := none } } := by
  rw [attemptRestore, h]

/-- A core whose status has none is refused, and the machine keeps its own. -/
theorem attemptRestore_of_error {m : Machine B} {k : Core} {e : InvalidMode}
    (h : k.cpsr.mode? = .error e) : m.attemptRestore k = .refused e m := by
  rw [attemptRestore, h]

/-- The machine that goes on from a snapshot, or the refusal. -/
def restore (m : Machine B) (k : Core) : Except InvalidMode (Machine B) :=
  (m.attemptRestore k).outcome

variable [Bus B]

/-- Takes over what an instruction in flight has done. -/
def commit (host : Host) (x : Execution B) : Machine B := ⟨x.core, x.bus, host.observe x⟩

/-- Goes to a mode and exchanges the banked registers. -/
def switchMode (m : Machine B) (mode : Mode) : Machine B :=
  commit m.host ((Execution.start m.core m.bus).switchMode mode)

/-- Goes to the mode with a number; one that names no mode is refused. -/
def attemptMode (m : Machine B) (n : Word) : Attempt InvalidMode (Machine B) :=
  match Mode.ofBits n with
  | .ok mode => .done (m.switchMode mode)
  | .error e => .refused e m

/-- A number of a mode is gone to. -/
theorem attemptMode_of_ok {m : Machine B} {n : Word} {mode : Mode}
    (h : Mode.ofBits n = .ok mode) : m.attemptMode n = .done (m.switchMode mode) := by
  rw [attemptMode, h]

/-- Any other number leaves the machine as it was. -/
theorem attemptMode_of_error {m : Machine B} {n : Word} {e : InvalidMode}
    (h : Mode.ofBits n = .error e) : m.attemptMode n = .refused e m := by
  rw [attemptMode, h]

/-- The machine in the mode with a number, or the refusal. -/
def changeMode (m : Machine B) (n : Word) : Except InvalidMode (Machine B) :=
  (m.attemptMode n).outcome

/-- Replaces the whole status register; one without a mode is refused. -/
def attemptStatus (m : Machine B) (p : Psr) : Attempt InvalidMode (Machine B) :=
  ((Execution.start m.core m.bus).writeStatus p).map (commit m.host)

/-- A status with a mode is installed, and what it changes is told. -/
theorem attemptStatus_of_ok {m : Machine B} {p : Psr} {mode : Mode} (h : p.mode? = .ok mode) :
    m.attemptStatus p
      = .done (commit m.host (((Execution.start m.core m.bus).tellMode p.mode).withCore
          ((m.core.switchMode mode).setCpsr p))) := by
  rw [attemptStatus, Execution.writeStatus_of_ok h]
  rfl

/-- A refusal leaves the machine as it was. -/
theorem attemptStatus_of_error {m : Machine B} {p : Psr} {e : InvalidMode}
    (h : p.mode? = .error e) : m.attemptStatus p = .refused e m := by
  rw [attemptStatus, Execution.writeStatus_of_error h]
  rfl

/-- The machine with another status, or the refusal. -/
def writeStatus (m : Machine B) (p : Psr) : Except InvalidMode (Machine B) :=
  (m.attemptStatus p).outcome

/-- The cycles of filling the empty pipeline, a fetch at R15 and the one after it,
    and the address of the latter. -/
def refill (bus : B) (core : Core) : Int32 × Word :=
  let set := core.instructionSet
  let next := core.pc + set.size
  let wide := set == .arm
  (Bus.cost bus false wide core.pc + Bus.cost bus true wide next, next)

/-- Enters the handler of an exception from outside, and gives the cycles. -/
def enterException (m : Machine B) (e : Exception) : Int32 × Machine B :=
  let m := commit m.host ((Execution.start m.core m.bus).takeException e)
  let (cycles, last) := refill m.bus m.core
  (cycles, { m with host := { m.host with lastFetch := some last }.account 0 cycles })

/-- Asks for an interrupt; nothing happens while they are disabled. -/
def raiseIrq (m : Machine B) : Int32 × Machine B :=
  if m.core.cpsr.irqDisabled then (0, m) else m.enterException .irq

end Machine

end Armv4t
