import Armv4t.Attempt
import Armv4t.Bus
import Armv4t.Memory.Map
import Armv4t.Memory.Storage
import Armv4t.Memory.WaitControl
import Armv4t.Numeral

/-! # Mapped memory — the regions of the map behind one bus

    Every region is plain storage; what is written to the I/O region reads back.
    The cartridge holds as many bytes as were loaded into it.  Past its end the
    bus still shows the address lines: the halfword at an address reads as the
    lower half of the halfword's number. -/

namespace Armv4t

/-- The contents of the regions and the wait states. -/
structure MappedMemory where
  bios : Storage Region.bios.size
  ewram : Storage Region.ewram.size
  iwram : Storage Region.iwram.size
  io : Storage Region.io.size
  palette : Storage Region.palette.size
  vram : Storage Region.vram.size
  oam : Storage Region.oam.size
  sram : Storage Region.sram.size
  /-- The cartridge, as long as what was loaded. -/
  cartridge : ByteArray
  control : WaitControl
  /-- The costs that the wait control register selects. -/
  states : WaitStates

/-- Data that goes past the end of its region, or lies outside of all. -/
structure DoesNotFit where
  address : Word
  length : Nat
  deriving DecidableEq, Repr

/-- What is wrong: how many bytes, and where. -/
def DoesNotFit.message (e : DoesNotFit) : String :=
  toString e.length ++ " bytes do not fit at " ++ addressTextSmall e.address

namespace MappedMemory

/-- Regions of zeros and an empty cartridge. -/
def zero (control : WaitControl) : MappedMemory :=
  { bios := .zero _
    ewram := .zero _
    iwram := .zero _
    io := .zero _
    palette := .zero _
    vram := .zero _
    oam := .zero _
    sram := .zero _
    cartridge := .empty
    control
    states := .ofControl control }

/-- The bytes of a region. -/
@[inline] def cells (m : MappedMemory) (r : Region) : Storage r.size :=
  match r with
  | .bios => m.bios
  | .ewram => m.ewram
  | .iwram => m.iwram
  | .io => m.io
  | .palette => m.palette
  | .vram => m.vram
  | .oam => m.oam
  | .sram => m.sram

/-- Changes the bytes of a region. -/
@[inline] def modify (m : MappedMemory) (r : Region) (f : Storage r.size → Storage r.size) :
    MappedMemory :=
  match r with
  | .bios => { m with bios := f m.bios }
  | .ewram => { m with ewram := f m.ewram }
  | .iwram => { m with iwram := f m.iwram }
  | .io => { m with io := f m.io }
  | .palette => { m with palette := f m.palette }
  | .vram => { m with vram := f m.vram }
  | .oam => { m with oam := f m.oam }
  | .sram => { m with sram := f m.sram }

/-- Sets the wait control register. -/
def setControl (m : MappedMemory) (control : WaitControl) : MappedMemory :=
  { m with control, states := .ofControl control }

/-- What the bus shows past the end of the cartridge: a byte of the number of the
    halfword at the address. -/
def openBus (a : Word) : Byte := byteOfWord (a >>> 1) (a &&& 1)

/-- The byte at an address. -/
def readByte (m : MappedMemory) (a : Word) : Byte :=
  match locate a with
  | none => 0
  | some (.cell r offset) => (m.cells r).get offset
  | some (.cartridge offset) =>
    if h : offset < m.cartridge.size then m.cartridge.get offset h else openBus a

/-- The memory after a byte was written at an address. -/
def writeByte (m : MappedMemory) (a : Word) (b : Byte) : MappedMemory :=
  match locate a with
  | some (.cell r offset) => if r.writable then m.modify r (·.set offset b) else m
  | _ => m

/-- The memory after bytes were written at successive addresses. -/
def writeBytes (m : MappedMemory) (a : Word) : List Byte → MappedMemory
  | [] => m
  | b :: bs => (m.writeByte a b).writeBytes (a + 1) bs

/-- Copies data to an address, write protection aside, if it fits into what is there.  The
    cartridge grows before that, as far as the data needs, unless it would get too long. -/
def attemptLoad (m : MappedMemory) (a : Word) (data : ByteArray) :
    Attempt DoesNotFit MappedMemory :=
  let misfit : DoesNotFit := ⟨a, data.size⟩
  match locate a with
  | none => .refused misfit m
  | some (.cell r offset) =>
    if h : offset + data.size ≤ r.size then .done (m.modify r (·.load offset data h))
    else .refused misfit m
  | some (.cartridge offset) =>
    let stop := offset + data.size
    if cartridgeLimit < stop then .refused misfit m
    else
      let grown := { m with cartridge := extendTo stop m.cartridge }
      if stop ≤ grown.cartridge.size then
        .done { grown with cartridge := overwrite grown.cartridge offset data }
      else .refused misfit grown

/-- The memory with the data, or the refusal. -/
def load (m : MappedMemory) (a : Word) (data : ByteArray) : Except DoesNotFit MappedMemory :=
  (m.attemptLoad a data).outcome

instance : Bus MappedMemory where
  readByte := readByte
  write m width a value := m.writeBytes a (bytesOf width value)
  cost m sequential word a := m.states.cycles sequential word a
  unused _ a := (locate a).isNone
  readOnly _ a := dropsWrite a

end MappedMemory

end Armv4t
