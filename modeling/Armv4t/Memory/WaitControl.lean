import Armv4t.Word

/-! # Wait states — what an access to each region costs

    | region       | bus | 16-bit access, first / next | 32-bit access, first / next |
    |--------------|-----|-----------------------------|-----------------------------|
    | 02           | 16  | 3 / 3                       | 6 / 6                       |
    | 05, 06       | 16  | 1 / 1                       | 2 / 2                       |
    | 08 to 0D     | 16  | 1 + F / 1 + S               | 2 + F + S / 2 + 2 S         |
    | 0E, 0F       | 8   | 1 + F / 1 + F               | 1 + F / 1 + F               |
    | all others   | 32  | 1 / 1                       | 1 / 1                       |

    A region is the highest byte of an address.  The waits F of a first and S of a
    following access to the cartridge come from the wait control register:

    | bits    | 0-1    | 2-3       | 4         | 5-6       | 7         | 8-9       | 10        |
    |---------|--------|-----------|-----------|-----------|-----------|-----------|-----------|
    | meaning | SRAM F | 08, 09: F | 08, 09: S | 0A, 0B: F | 0A, 0B: S | 0C, 0D: F | 0C, 0D: S | -/

namespace Armv4t

/-- The wait control register.  Of each two-bit field only the two lowest bits count. -/
structure WaitControl where
  sram : Byte
  first0 : Byte
  second0 : Bool
  first1 : Byte
  second1 : Bool
  first2 : Byte
  second2 : Bool
  deriving DecidableEq, Repr, Inhabited

namespace WaitControl

/-- The register of zeros. -/
def zero : WaitControl := ⟨0, 0, false, 0, false, 0, false⟩

/-- The register with eleven bits. -/
def ofBits (raw : Half) : WaitControl :=
  let w := raw.toUInt32
  { sram := (field w 0 2).toUInt8
    first0 := (field w 2 2).toUInt8
    second0 := bit w 4
    first1 := (field w 5 2).toUInt8
    second1 := bit w 7
    first2 := (field w 8 2).toUInt8
    second2 := bit w 10 }

/-- The eleven bits of the register. -/
def toBits (k : WaitControl) : Half :=
  let two (b : Byte) : Half := (b &&& 3).toUInt16
  let one (b : Bool) : Half := b.toUInt16
  two k.sram ||| (two k.first0 <<< 2) ||| (one k.second0 <<< 4) ||| (two k.first1 <<< 5)
    ||| (one k.second1 <<< 7) ||| (two k.first2 <<< 8) ||| (one k.second2 <<< 10)

end WaitControl

/-- The waits of a first access that a two-bit field selects. -/
def firstWait (n : Byte) : Int32 :=
  let n := n &&& 3
  if n = 0 then 4 else if n = 1 then 3 else if n = 2 then 2 else 8

/-- The costs of one region: 16-bit and 32-bit accesses, first and following. -/
structure RegionCost where
  first16 : Int32
  next16 : Int32
  first32 : Int32
  next32 : Int32
  deriving DecidableEq, Repr, Inhabited

namespace RegionCost

/-- A region that answers every access in one time. -/
def uniform (n : Int32) : RegionCost := ⟨n, n, n, n⟩

/-- A region on a 16-bit bus: a word goes through as two halfwords, the second one
    following the first. -/
def halves (first next : Int32) : RegionCost := ⟨first, next, first + next, next + next⟩

/-- The cost of one access. -/
@[inline] def cycles (c : RegionCost) (sequential word : Bool) : Int32 :=
  match sequential, word with
  | false, false => c.first16
  | true, false => c.next16
  | false, true => c.first32
  | true, true => c.next32

end RegionCost

/-- The costs of the regions that depend on the wait control register. -/
structure WaitStates where
  window0 : RegionCost
  window1 : RegionCost
  window2 : RegionCost
  sram : RegionCost
  deriving DecidableEq, Repr, Inhabited

namespace WaitStates

/-- The costs that a wait control register selects. -/
def ofControl (k : WaitControl) : WaitStates :=
  let window (first : Byte) (second : Bool) (slow : Int32) : RegionCost :=
    .halves (1 + firstWait first) (1 + if second then 1 else slow)
  { window0 := window k.first0 k.second0 2
    window1 := window k.first1 k.second1 4
    window2 := window k.first2 k.second2 8
    sram := .uniform (1 + firstWait k.sram) }

/-- The costs of the region of an address. -/
def region (s : WaitStates) (a : Word) : RegionCost :=
  match (a >>> 24).toNat with
  | 0x02 => .halves 3 3
  | 0x05 | 0x06 => .halves 1 1
  | 0x08 | 0x09 => s.window0
  | 0x0A | 0x0B => s.window1
  | 0x0C | 0x0D => s.window2
  | 0x0E | 0x0F => s.sram
  | _ => .uniform 1

/-- The cost of one access. -/
def cycles (s : WaitStates) (sequential word : Bool) (a : Word) : Int32 :=
  (s.region a).cycles sequential word

end WaitStates

end Armv4t
