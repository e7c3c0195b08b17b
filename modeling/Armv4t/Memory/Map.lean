import Armv4t.Word

/-! # The memory map — which byte of which region an address names

    | region    | addresses            | size    | beyond the size            |
    |-----------|----------------------|---------|----------------------------|
    | bios      | 00000000 to 00003FFF | 16 KiB  | nothing                    |
    | ewram     | 02                   | 256 KiB | repeats                    |
    | iwram     | 03                   | 32 KiB  | repeats                    |
    | io        | 04000000 to 040003FF | 1 KiB   | nothing                    |
    | palette   | 05                   | 1 KiB   | repeats                    |
    | vram      | 06                   | 96 KiB  | the last 32 KiB of 128 repeat those before |
    | oam       | 07                   | 1 KiB   | repeats                    |
    | cartridge | 08 to 0D             | 32 MiB  | repeats                    |
    | sram      | 0E and 0F            | 64 KiB  | repeats                    | -/

namespace Armv4t

/-- A region of a fixed size: all of them but the cartridge. -/
inductive Region where
  | bios
  | ewram
  | iwram
  | io
  | palette
  | vram
  | oam
  | sram
  deriving DecidableEq, Repr, Inhabited

namespace Region

/-- The number of bytes. -/
@[reducible] def size : Region → Nat
  | bios => 0x4000
  | ewram => 0x40000
  | iwram => 0x8000
  | io => 0x400
  | palette => 0x400
  | vram => 0x18000
  | oam => 0x400
  | sram => 0x10000

/-- Programs can write every region but the first. -/
def writable : Region → Bool
  | bios => false
  | _ => true

end Region

/-- The most bytes that a cartridge holds. -/
def cartridgeLimit : Nat := 0x2000000

/-- A byte of the memory map. -/
inductive Location where
  | cell (region : Region) (offset : Nat)
  | cartridge (offset : Nat)
  deriving DecidableEq, Repr

/-- The byte an address names, if there is memory at all. -/
def locate (a : Word) : Option Location :=
  let n := a.toNat
  match n / 0x1000000 with
  | 0x00 => if n < 0x4000 then some (.cell .bios n) else none
  | 0x02 => some (.cell .ewram (n % 0x40000))
  | 0x03 => some (.cell .iwram (n % 0x8000))
  | 0x04 => if n % 0x1000000 < 0x400 then some (.cell .io (n % 0x400)) else none
  | 0x05 => some (.cell .palette (n % 0x400))
  | 0x06 =>
    let offset := n % 0x20000
    some (.cell .vram (if offset < 0x18000 then offset else offset - 0x8000))
  | 0x07 => some (.cell .oam (n % 0x400))
  | 0x08 | 0x09 | 0x0A | 0x0B | 0x0C | 0x0D => some (.cartridge (n % cartridgeLimit))
  | 0x0E | 0x0F => some (.cell .sram (n % 0x10000))
  | _ => none

/-- Whether a byte written at an address is dropped: outside the map, in the first
    region and in the cartridge. -/
def dropsWrite (a : Word) : Bool :=
  match locate a with
  | some (.cell r _) => !r.writable
  | _ => true

end Armv4t
