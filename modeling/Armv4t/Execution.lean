import Armv4t.Core
import Armv4t.Event
import Armv4t.Transfer

/-! # An instruction in flight

    While an instruction executes it changes the core and the bus, and it leaves a
    trail: the data accesses it made, the internal cycles it spent, whether it
    wrote R15, and what there is to tell.  The time an instruction takes is read
    off the trail afterwards; nothing an instruction does depends on it. -/

namespace Armv4t

/-- One data access of an instruction.  The address is the one the instruction
    computed; the bus sees it aligned.  The value is the stored one, zero for a
    load. -/
structure Access where
  kind : TransferKind
  width : Width
  sequential : Bool
  address : Word
  value : Word
  deriving DecidableEq, Repr

/-- One entry of the trail. -/
inductive Activity where
  | access (access : Access)
  | event (event : Event)
  deriving DecidableEq, Repr

/-- An instruction in flight over a bus. -/
structure Execution (B : Type) where
  core : Core
  bus : B
  /-- R15 was written, so that the pipeline is empty. -/
  flushed : Bool
  /-- The code fetch of this instruction does not follow the one before. -/
  scattered : Bool
  /-- Cycles without any access. -/
  internal : Int32
  /-- The trail, the last entry first. -/
  trail : List Activity
  /-- The last status without a mode that was to be installed. -/
  fault : Option InvalidMode

namespace Execution

variable {B : Type}

/-- An instruction that has done nothing yet. -/
def start (core : Core) (bus : B) : Execution B := ⟨core, bus, false, false, 0, [], none⟩

/-- The data accesses, the first one first. -/
def accesses (x : Execution B) : List Access :=
  x.trail.reverse.filterMap fun
    | .access a => some a
    | .event _ => none

/-- A register as the instruction reads it. -/
@[inline] def read (x : Execution B) (i : Reg) (role : PcRole) : Word := x.core.read i role

/-- Replaces the core and leaves no trail. -/
@[inline] def withCore (x : Execution B) (k : Core) : Execution B := { x with core := k }

/-- Puts an event on the trail. -/
def tell (x : Execution B) (e : Event) : Execution B := { x with trail := .event e :: x.trail }

/-- Spends internal cycles. -/
def wait (x : Execution B) (n : Int32) : Execution B := { x with internal := x.internal + n }

/-- Makes the code fetch of the instruction a non-sequential one. -/
def scatter (x : Execution B) : Execution B := { x with scattered := true }

/-- Stores a register without any further effect. -/
def setRegister (x : Execution B) (i : Reg) (v : Word) : Execution B :=
  { x with core := x.core.setRegister i v }

/-- Continues at an address, aligned for the current instruction set. -/
def branchTo (x : Execution B) (target : Word) : Execution B :=
  { x with core := x.core.jump target, flushed := true }

/-- Writes a register the way an instruction does: R15 branches. -/
def writeRegister (x : Execution B) (i : Reg) (v : Word) : Execution B :=
  if i = Reg.pc then x.branchTo v else x.setRegister i v

/-- Writes the moved base of a transfer; R15 never moves. -/
def writeBase (x : Execution B) (rn : Reg) (v : Word) : Execution B :=
  if rn = Reg.pc then x.tell .writeBackIgnored else x.setRegister rn v

/-- Changes the current status register in place, for the flags and the T bit. -/
def updateCpsr (x : Execution B) (f : Psr → Psr) : Execution B :=
  { x with core := x.core.setCpsr (f x.core.cpsr) }

/-- Tells about a change to a mode, if it is one. -/
def tellMode (x : Execution B) (m : Mode) : Execution B :=
  if x.core.mode = m then x else x.tell (.modeSwitched x.core.mode m)

/-- Goes to a mode and exchanges the banked registers. -/
def switchMode (x : Execution B) (m : Mode) : Execution B :=
  (x.tellMode m).withCore (x.core.switchMode m)

/-- Replaces the whole status register, or refuses one without a mode.  The core is the
    one that the attempt left. -/
def writeStatus (x : Execution B) (p : Psr) : Attempt InvalidMode (Execution B) :=
  let tried := x.core.install p
  match tried.refusal with
  | none => .done ((x.tellMode p.mode).withCore tried.state)
  | some e => .refused e (x.withCore tried.state)

/-- Replaces the whole status register; a refusal is told and kept as the fault, and the
    instruction goes on with what it left. -/
def tryStatus (x : Execution B) (p : Psr) : Execution B :=
  let tried := x.writeStatus p
  match tried.refusal with
  | none => tried.state
  | some e => { tried.state.tell (.invalidMode e tried.state.core.pc) with fault := some e }

section

variable {x : Execution B} {p : Psr}

/-- A status with a mode is told of, if the mode is another one, and installed. -/
theorem writeStatus_of_ok {m : Mode} (h : p.mode? = .ok m) :
    x.writeStatus p
      = .done ((x.tellMode p.mode).withCore ((x.core.switchMode m).setCpsr p)) := by
  rw [writeStatus, Core.install_of_ok h]
  rfl

/-- A refusal leaves the instruction as it was. -/
theorem writeStatus_of_error {e : InvalidMode} (h : p.mode? = .error e) :
    x.writeStatus p = .refused e x := by
  rw [writeStatus, Core.install_of_error h]
  rfl

/-- Where the status has a mode, trying it is writing it. -/
theorem tryStatus_of_ok {m : Mode} (h : p.mode? = .ok m) :
    x.tryStatus p = (x.tellMode p.mode).withCore ((x.core.switchMode m).setCpsr p) := by
  rw [tryStatus, writeStatus_of_ok h]
  rfl

/-- Where it has none, the core stays and the fault remembers why. -/
theorem tryStatus_of_error {e : InvalidMode} (h : p.mode? = .error e) :
    x.tryStatus p = { x.tell (.invalidMode e x.core.pc) with fault := some e } := by
  rw [tryStatus, writeStatus_of_error h]
  rfl

end

/-- Returns from an exception: the saved status of the current mode becomes the
    current one.  A mode without a saved status changes nothing. -/
def restoreStatus (x : Execution B) : Execution B :=
  match x.core.spsr? with
  | some p => x.tryStatus p
  | none => x

/-- Enters the handler of an exception. -/
def takeException (x : Execution B) (e : Exception) : Execution B :=
  let entered := (x.tellMode e.targetMode).withCore (x.core.enter e)
  { entered with flushed := true }.tell
    (.exceptionTaken e x.core.pc (x.core.returnAddress e))

variable [Bus B]

/-- A load of some width at the address aligned to it. -/
def load (x : Execution B) (width : Width) (sequential : Bool) (a : Word) :
    Word × Execution B :=
  (Bus.read x.bus width (width.align a),
    { x with trail := .access ⟨.load, width, sequential, a, 0⟩ :: x.trail })

/-- A store of some width at the address aligned to it. -/
def store (x : Execution B) (width : Width) (sequential : Bool) (a v : Word) : Execution B :=
  { x with
    bus := Bus.write x.bus width (width.align a) v
    trail := .access ⟨.store, width, sequential, a, v⟩ :: x.trail }

/-- A word load: the aligned word, rotated so that the addressed byte comes lowest. -/
def loadWord (x : Execution B) (a : Word) : Word × Execution B :=
  let (v, x) := x.load .word false a
  (rotateRight v (8 * (a &&& 3)), x)

/-- A halfword load: the aligned halfword, rotated as a word at an odd address. -/
def loadHalf (x : Execution B) (a : Word) : Word × Execution B :=
  let (v, x) := x.load .half false a
  (rotateRight v (8 * (a &&& 1)), x)

/-- A byte load. -/
def loadByte (x : Execution B) (a : Word) : Word × Execution B := x.load .byte false a

/-- A signed byte load. -/
def loadSignedByte (x : Execution B) (a : Word) : Word × Execution B :=
  let (v, x) := x.loadByte a
  (signExtend v 8, x)

/-- A signed halfword load; an odd address loads the signed byte. -/
def loadSignedHalf (x : Execution B) (a : Word) : Word × Execution B :=
  if bit a 0 then x.loadSignedByte a
  else
    let (v, x) := x.load .half false a
    (signExtend v 16, x)

/-- A load of a word or a byte. -/
def loadQuantity (x : Execution B) (q : Quantity) (a : Word) : Word × Execution B :=
  match q with
  | .word => x.loadWord a
  | .byte => x.loadByte a

/-- A store of a word or a byte. -/
def storeQuantity (x : Execution B) (q : Quantity) (a v : Word) : Execution B :=
  match q with
  | .word => x.store .word false a v
  | .byte => x.store .byte false a v

end Execution

end Armv4t
