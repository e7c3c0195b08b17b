import Armv4t.Arm.Assembly
import Armv4t.Exception
import Armv4t.Status
import Armv4t.Thumb.Assembly

/-! # Events — what a machine tells about itself

    Every event has a level and a text.  A journal keeps the events from some
    level on, so that a long run need not keep those of every instruction. -/

namespace Armv4t

/-- How much an event matters. -/
inductive Level where
  | trace
  | debug
  | info
  | warn
  | error
  deriving DecidableEq, Repr, Inhabited

namespace Level

/-- The levels in ascending order. -/
def rank : Level → Nat
  | trace => 0
  | debug => 1
  | info => 2
  | warn => 3
  | error => 4

/-- The word before the text of an event. -/
def name : Level → String
  | trace => "TRACE"
  | debug => "DEBUG"
  | info => "INFO"
  | warn => "WARN"
  | error => "ERROR"

end Level

/-- Something worth telling. -/
inductive Event where
  | note (note : BusNote)
  | loaded (length : Nat) (address : Word)
  | reset (pc : Word) (cpsr : Psr)
  | executingArm (pc word : Word)
  | executingThumb (pc : Word) (half : Half)
  | undefinedArm (pc word : Word)
  | undefinedThumb (pc : Word) (half : Half)
  | modeSwitched (old new : Mode)
  | invalidMode (error : InvalidMode) (pc : Word)
  | invalidStatus (error : InvalidMode) (status : Psr)
  | stateBitWritten (t : Bool)
  | statusWriteIgnored (mode : Mode)
  | exchanged (target : Word) (set : InstructionSet)
  | writeBackIgnored
  | exceptionTaken (exception : Exception) (pc link : Word)
  | breakTaken (pc : Word)
  | breakpointHit (pc : Word)
  deriving DecidableEq, Repr

namespace Event

/-- How much the event matters. -/
def level : Event → Level
  | note _ | executingArm _ _ | executingThumb _ _ => .trace
  | undefinedArm _ _ | undefinedThumb _ _ | invalidMode _ _ | invalidStatus _ _ => .warn
  | _ => .debug

/-- The event in words. -/
def text : Event → String
  | note (.unusedRead a) => "read on unused memory " ++ addressTextSmall a
  | note (.ignoredWrite value a) =>
    "ignored write of 0x" ++ hexSmall 2 value.toNat ++ " at " ++ addressTextSmall a
  | loaded length a => "loaded " ++ toString length ++ " bytes at " ++ addressTextSmall a
  | reset pc cpsr => "reset to " ++ addressText pc ++ " in " ++ cpsr.text
  | executingArm pc word => addressText pc ++ ": " ++ (Arm.decode word).text
  | executingThumb pc half => addressText pc ++ ": " ++ (Thumb.decode half).text
  | undefinedArm pc word =>
    "undefined instruction 0x" ++ hex 8 word.toNat ++ " at " ++ addressText pc
  | undefinedThumb pc half =>
    "undefined instruction 0x" ++ hex 4 half.toNat ++ " at " ++ addressText pc
  | modeSwitched old new => "mode " ++ old.short ++ " -> " ++ new.short
  | invalidMode error pc => error.message ++ " at " ++ addressText pc
  | invalidStatus error status =>
    error.message ++ " in PSR=" ++ addressText status.raw ++ ", reading as Supervisor"
  | stateBitWritten t => "MSR changes T to " ++ (if t then "true" else "false")
  | statusWriteIgnored mode => "MSR to SPSR ignored in " ++ mode.short
  | exchanged target set => "BX to " ++ addressText target ++ " switches to " ++ set.name
  | writeBackIgnored => "write-back to R15 ignored"
  | exceptionTaken exception pc link =>
    exception.name ++ " taken at " ++ addressText pc ++ ", return address " ++ addressText link
  | breakTaken pc => "break at " ++ addressText pc
  | breakpointHit pc => "breakpoint at " ++ addressText pc

/-- The level and the text. -/
def line (e : Event) : String := e.level.name ++ " " ++ e.text

end Event

/-- The event of reading a mode out of a status register that holds none. -/
def Psr.modeEvent? (p : Psr) : Option Event :=
  match p.mode? with
  | .ok _ => none
  | .error e => some (.invalidStatus e p)

/-- The events from some level on, the last one first. -/
structure Journal where
  threshold : Level
  events : List Event
  deriving Inhabited

namespace Journal

/-- A journal without events. -/
def empty (threshold : Level) : Journal := ⟨threshold, []⟩

/-- Whether the journal keeps the events of a level. -/
@[inline] def keeps (j : Journal) (l : Level) : Bool := j.threshold.rank ≤ l.rank

/-- The journal with one event more, if it keeps such events. -/
def add (j : Journal) (e : Event) : Journal :=
  if j.keeps e.level then { j with events := e :: j.events } else j

/-- The journal with the notes of a bus added in their order. -/
def addNotes (j : Journal) (notes : List BusNote) : Journal :=
  notes.foldl (fun j n => j.add (.note n)) j

/-- The lines of the journal, the first event first. -/
def lines (j : Journal) : List String := j.events.reverse.map Event.line

end Journal

end Armv4t
