import Armv4t.Machine
import Armv4t.Thumb.Execute

/-! # Running — one instruction, and as many as a budget of cycles pays for

    An instruction costs the code fetch two slots ahead of it, its data accesses,
    its internal cycles and, if it wrote R15, the two fetches that fill the
    pipeline again.  All of them are charged when it ends, on the bus as it is then.

    A run has one loop per instruction set.  Each loop decodes its own set only;
    an instruction that flips the T bit hands the rest of the budget over to the
    other loop.  Before every instruction a run asks whether it has to stop. -/

namespace Armv4t

/-- The cycles of the data accesses on a trail, each at the cost that the bus gives for it
    when the instruction has ended.  A core that charges an access before it makes it
    would ask the bus as it was by then.  The two differ only on a bus that charges
    otherwise once something was written to it: where no write changes a cost, as in
    mapped and in flat memory, charging in order comes to the same (`Guarded.Agrees`). -/
def dataCycles {B : Type} [Bus B] (bus : B) (trail : List Activity) : Int32 :=
  trail.foldr
    (fun a n => match a with
      | .access a => n + Bus.cost bus a.sequential a.width.isWord a.address
      | .event _ => n)
    0

namespace Host

/-- Tells the journal which instruction executes, after the notes on its fetch. -/
@[inline] def tellFetch {B : Type} [Bus B] (h : Host) (bus : B) (width : Width) (pc : Word)
    (e : Event) : Host :=
  if h.journal.keeps .trace then
    { h with journal := (h.journal.addNotes (Bus.readNotes bus width pc)).add e }
  else h

/-- Whether a run stops before the instruction at an address.  A requested break is
    used up; the breakpoint that the last run stopped at is passed once, without
    asking. -/
def shouldStop (h : Host) (pc : Word) : Bool × Host :=
  if h.breakRequested then (true, { h with breakRequested := false }.tell (.breakTaken pc))
  else if h.config.haltOnInvalidMode ∧ h.diagnostic.isSome then (true, h)
  else if h.resumeAt = some pc then (false, { h with resumeAt := none })
  else
    let (hit, h) := { h with resumeAt := none }.ask pc
    if hit then (true, { h.tell (.breakpointHit pc) with resumeAt := some pc }) else (false, h)

end Host

namespace Machine

variable {B : Type} [Bus B]

/-- Ends an instruction at an address: charges it on the bus that it left, and goes to the
    next one. -/
def finish (host : Host) (set : InstructionSet) (pc : Word) (x : Execution B) :
    Int32 × Machine B :=
  let slot := pc + 2 * set.size
  let sequential := !x.scattered && host.lastFetch == some (slot - set.size)
  let spent := Bus.cost x.bus sequential (set == .arm) slot + dataCycles x.bus x.trail + x.internal
  let (cycles, last, core) :=
    if x.flushed then
      let (filled, last) := refill x.bus x.core
      (spent + filled, last, x.core)
    else (spent, slot, x.core.setRegister Reg.pc (x.core.pc + set.size))
  let m := commit host (x.withCore core)
  (cycles, { m with host := { m.host with lastFetch := some last }.account 1 cycles })

/-- One instruction of the 32-bit set: its cycles and the machine after it. -/
def stepArm (m : Machine B) : Int32 × Machine B :=
  let ⟨core, bus, host⟩ := m
  let pc := alignWord core.pc
  let core := core.setRegister Reg.pc pc
  let word := Bus.readWord bus pc
  let opcode := Arm.decode word
  let host := host.tellFetch bus .word pc (.executingArm pc word)
  if core.cpsr.satisfies opcode.condition then
    finish host .arm pc (Arm.execute opcode (.start core bus))
  else finish host .arm pc (.start core bus)

/-- One instruction of the 16-bit set: its cycles and the machine after it. -/
def stepThumb (m : Machine B) : Int32 × Machine B :=
  let ⟨core, bus, host⟩ := m
  let pc := alignHalf core.pc
  let core := core.setRegister Reg.pc pc
  let half := (Bus.readHalf bus pc).toUInt16
  let opcode := Thumb.decode half
  let host := host.tellFetch bus .half pc (.executingThumb pc half)
  finish host .thumb pc (Thumb.execute opcode (.start core bus))

/-- Executes exactly one instruction, whatever asks to stop. -/
def step (m : Machine B) : Int32 × Machine B :=
  let m := { m with host := { m.host with resumeAt := none } }
  match m.core.instructionSet with
  | .arm => m.stepArm
  | .thumb => m.stepThumb

mutual

/-- Runs instructions of the 32-bit set while the budget lasts. -/
def runArm : Nat → Int32 → Machine B → Int32 × Machine B
  | 0, budget, m => (budget, m)
  | limit + 1, budget, m =>
    if 0 < budget then
      let ⟨core, bus, host⟩ := m
      match host.shouldStop core.pc with
      | (true, host) => (budget, ⟨core, bus, host⟩)
      | (false, host) =>
        let (cycles, m) := stepArm ⟨core, bus, host⟩
        match m.core.instructionSet with
        | .arm => runArm limit (budget - cycles) m
        | .thumb => runThumb limit (budget - cycles) m
    else (budget, m)

/-- Runs instructions of the 16-bit set while the budget lasts. -/
def runThumb : Nat → Int32 → Machine B → Int32 × Machine B
  | 0, budget, m => (budget, m)
  | limit + 1, budget, m =>
    if 0 < budget then
      let ⟨core, bus, host⟩ := m
      match host.shouldStop core.pc with
      | (true, host) => (budget, ⟨core, bus, host⟩)
      | (false, host) =>
        let (cycles, m) := stepThumb ⟨core, bus, host⟩
        match m.core.instructionSet with
        | .arm => runArm limit (budget - cycles) m
        | .thumb => runThumb limit (budget - cycles) m
    else (budget, m)

end

/-- The most instructions of one run.  Where every access takes a cycle no budget
    pays for that many; only on a bus with free accesses would a run be longer. -/
def runLimit : Nat := 0x4000000000000000

/-- Runs instructions until the budget is spent or something asks to stop, and gives
    what is left of the budget: negative when the last instruction overran it. -/
def execute (m : Machine B) (budget : Int32) : Int32 × Machine B :=
  match m.core.instructionSet with
  | .arm => runArm runLimit budget m
  | .thumb => runThumb runLimit budget m

end Machine

end Armv4t
