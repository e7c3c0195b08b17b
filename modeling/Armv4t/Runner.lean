import Armv4t.CommandLine
import Armv4t.ConfigFile
import Armv4t.Memory.Mapped
import Armv4t.Run

/-! # The runner — an image on mapped memory, run for a number of cycles

    The machine gets its cycles in slices, and the run ends early when a slice
    left a fault behind.  The log tells what was loaded, what the machine warned
    of, and the state at the end.

    Files come in through a function, so that a run is a function as well. -/

namespace Armv4t.Runner

/-- Why a run did not start. -/
inductive Failure where
  /-- The slice is not positive. -/
  | slice (slice : Int32)
  /-- A file that cannot be read. -/
  | unreadable (path : String)
  /-- The configuration file is malformed. -/
  | config (path : String)
  /-- The image does not fit where it was to be loaded. -/
  | load (error : DoesNotFit)
  deriving DecidableEq, Repr

/-- What is wrong. -/
def Failure.message : Failure → String
  | slice n => "slice must be positive, got " ++ toString n.toInt
  | unreadable path => "cannot read " ++ path
  | config path => "invalid config: " ++ path
  | load e => "cannot load image: " ++ e.message

/-- An entry of the log of a run. -/
inductive LogEntry where
  | loaded (path : String) (length : Nat) (address : Word)
  | machine (event : Event)
  | stopped (fault : InvalidMode)
  | ran (instructions cycles : UInt64)
  | register (i : Reg) (value : Word)
  | status (cpsr : Psr)
  deriving DecidableEq, Repr

namespace LogEntry

/-- How much the entry matters. -/
def level : LogEntry → Level
  | machine e => e.level
  | stopped _ => .error
  | _ => .info

/-- The entry in words. -/
def text : LogEntry → String
  | loaded path length a =>
    "loaded " ++ path ++ " (" ++ toString length ++ " bytes) at " ++ addressText a
  | machine e => e.text
  | stopped fault => "stopped: " ++ fault.message
  | ran instructions cycles =>
    "ran " ++ toString instructions.toNat ++ " instructions in " ++ toString cycles.toNat
      ++ " cycles"
  | register i value => "R" ++ padRight 2 (toString i.val) ++ " = " ++ addressText value
  | status cpsr => "CPSR = " ++ cpsr.text

/-- The level and the text. -/
def line (e : LogEntry) : String := e.level.name ++ " " ++ e.text

end LogEntry

/-- The settings in the file that the arguments name, or the standard ones. -/
def readSettings (readFile : String → Option ByteArray) : Option String → Except Failure Settings
  | none => .ok .standard
  | some path =>
    match readFile path with
    | none => .error (.unreadable path)
    | some bytes =>
      match String.fromUTF8? bytes >>= Settings.parse? with
      | some settings => .ok settings
      | none => .error (.config path)

/-- A reset vector of zero stands for the address of the image. -/
def startAt (c : Config) (address : Word) : Config :=
  if c.resetVector = 0 then { c with resetVector := address } else c

/-- The budget of the next slice, when so many cycles are left. -/
def nextBudget (slice : Int32) (left : UInt64) : Int32 :=
  if left < slice.toInt.toNat.toUInt64 then left.toUInt32.toInt32 else slice

/-- Runs slice after slice until the cycles are used up or a slice left a fault.
    Every slice uses at least one cycle, so that the first argument bounds their
    number if it is the number of cycles. -/
def runSlices {B : Type} [Bus B] (total : UInt64) (slice : Int32) :
    Nat → Machine B → Option InvalidMode × Machine B
  | 0, m => (none, m)
  | limit + 1, m =>
    if m.host.cycles < total then
      let (_, m) := m.execute (nextBudget slice (total - m.host.cycles))
      match m.takeDiagnostic with
      | (none, m) => runSlices total slice limit m
      | (some fault, m) => (some fault, m)
    else (none, m)

/-- What the log tells about the machine when a run has ended. -/
def finalEntries {B : Type} (m : Machine B) : List LogEntry :=
  .ran m.host.instructions m.host.cycles
    :: Reg.all.map (fun i => .register i (m.read i))
    ++ [.status m.core.cpsr]

/-- A whole run: its log, or why it did not start. -/
def run (a : CommandLine.Arguments) (readFile : String → Option ByteArray) :
    Except Failure (List LogEntry) := do
  if a.slice ≤ 0 then throw (.slice a.slice)
  let settings ← readSettings readFile a.config
  let some image := readFile a.image | throw (.unreadable a.image)
  let memory ← ((MappedMemory.zero settings.waitControl).load a.loadAddress image).mapError .load
  let config := startAt settings.machine a.loadAddress
  let (fault, m) := runSlices a.cycles a.slice a.cycles.toNat (Machine.new memory config .info)
  return .loaded a.image image.size a.loadAddress
    :: (m.host.journal.events.reverse.map .machine ++ fault.toList.map .stopped ++ finalEntries m)

end Armv4t.Runner
