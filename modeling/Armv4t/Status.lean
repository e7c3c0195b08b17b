import Armv4t.Condition
import Armv4t.Mode

/-! # Status registers — flags, interrupt masks, instruction set and mode

    | bits  | 31 30 29 28 | 7              | 6              | 5         | 4 to 0 |
    |-------|-------------|----------------|----------------|-----------|--------|
    |       | N  Z  C  V  | IRQ disabled   | FIQ disabled   | T: 16-bit | mode   |

    The other bits are kept as written.  The current status register holds the
    bits of a mode in every state a program can reach; a saved one is plain
    storage and may hold anything. -/

namespace Armv4t

/-- The two instruction sets. -/
inductive InstructionSet where
  | arm
  | thumb
  deriving DecidableEq, Repr, Inhabited

namespace InstructionSet

/-- The width of one instruction in bytes. -/
def size : InstructionSet → Word
  | arm => 4
  | thumb => 2

/-- The instruction set that the T bit selects. -/
def ofBit : Bool → InstructionSet
  | false => arm
  | true => thumb

/-- The T bit of an instruction set. -/
def toBit : InstructionSet → Bool
  | arm => false
  | thumb => true

/-- The name used in messages. -/
def name : InstructionSet → String
  | arm => "Arm"
  | thumb => "Thumb"

/-- The instruction address at or below an address. -/
def align : InstructionSet → Word → Word
  | arm, a => alignWord a
  | thumb, a => alignHalf a

end InstructionSet

/-- A program status register. -/
structure Psr where
  raw : Word
  deriving DecidableEq, Repr, Inhabited

namespace Psr

/-- The bits an unprivileged write may touch. -/
def flagsMask : Word := 0xF0000000

/-- The mode field alone. -/
def ofMode (m : Mode) : Psr := ⟨m.bits⟩

@[inline] def n (p : Psr) : Bool := bit p.raw 31
@[inline] def z (p : Psr) : Bool := bit p.raw 30
@[inline] def c (p : Psr) : Bool := bit p.raw 29
@[inline] def v (p : Psr) : Bool := bit p.raw 28
@[inline] def irqDisabled (p : Psr) : Bool := bit p.raw 7
@[inline] def fiqDisabled (p : Psr) : Bool := bit p.raw 6
@[inline] def t (p : Psr) : Bool := bit p.raw 5

/-- The four flags. -/
def flags (p : Psr) : Flags := ⟨p.n, p.z, p.c, p.v⟩

/-- The mode field. -/
def modeBits (p : Psr) : Word := p.raw &&& 0x1F

/-- The instruction set selected by the T bit. -/
def instructionSet (p : Psr) : InstructionSet := .ofBit p.t

/-- The mode in the mode field, if it holds one. -/
def mode? (p : Psr) : Except InvalidMode Mode := Mode.ofBits p.modeBits

/-- The mode in the mode field; a field that holds none reads as supervisor. -/
def mode (p : Psr) : Mode :=
  match p.mode? with
  | .ok m => m
  | .error _ => .supervisor

@[inline] def setN (p : Psr) (b : Bool) : Psr := ⟨putBit p.raw 31 b⟩
@[inline] def setZ (p : Psr) (b : Bool) : Psr := ⟨putBit p.raw 30 b⟩
@[inline] def setC (p : Psr) (b : Bool) : Psr := ⟨putBit p.raw 29 b⟩
@[inline] def setV (p : Psr) (b : Bool) : Psr := ⟨putBit p.raw 28 b⟩
@[inline] def setIrqDisabled (p : Psr) (b : Bool) : Psr := ⟨putBit p.raw 7 b⟩
@[inline] def setFiqDisabled (p : Psr) (b : Bool) : Psr := ⟨putBit p.raw 6 b⟩
@[inline] def setT (p : Psr) (b : Bool) : Psr := ⟨putBit p.raw 5 b⟩

/-- Sets all four flags. -/
def setFlags (p : Psr) (f : Flags) : Psr := p.setC f.c |>.setZ f.z |>.setN f.n |>.setV f.v

/-- Sets N and Z from a result and keeps C and V. -/
def setNZ (p : Psr) (result : Word) : Psr := p.setN (bit result 31) |>.setZ (result == 0)

/-- Sets N and Z from a 64-bit result and keeps C and V. -/
def setNZLong (p : Psr) (result : UInt64) : Psr :=
  p.setN ((result >>> 63) &&& 1 == 1) |>.setZ (result == 0)

/-- Selects an instruction set. -/
def setInstructionSet (p : Psr) (s : InstructionSet) : Psr := p.setT s.toBit

/-- Writes the mode field as it comes, its five lowest bits. -/
def setModeBits (p : Psr) (n : Word) : Psr := ⟨(p.raw &&& ~~~0x1F) ||| (n &&& 0x1F)⟩

/-- Writes a mode into the mode field. -/
def setMode (p : Psr) (m : Mode) : Psr := p.setModeBits m.bits

/-- Takes the bits under the mask from a value and keeps the others. -/
def writeMasked (p : Psr) (value mask : Word) : Psr :=
  ⟨(p.raw &&& ~~~mask) ||| (value &&& mask)⟩

/-- Whether an instruction with a condition executes. -/
def satisfies (p : Psr) (cond : Condition) : Bool := cond.holds p.flags

/-- The flags and masks as letters (a dash for a clear one), the mode field in
    binary and the whole register in hexadecimal. -/
def text (p : Psr) : String :=
  let mark (on : Bool) (letter : String) : String := if on then letter else "-"
  mark p.n "N" ++ mark p.z "Z" ++ mark p.c "C" ++ mark p.v "V" ++ " "
    ++ mark p.irqDisabled "I" ++ mark p.fiqDisabled "F" ++ mark p.t "T" ++ " "
    ++ binary 5 p.modeBits.toNat ++ " (" ++ hex 8 p.raw.toNat ++ ")"

end Psr

end Armv4t
