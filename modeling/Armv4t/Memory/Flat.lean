import Armv4t.Bus
import Armv4t.Memory.Storage

/-! # Flat memory — one mebibyte, repeated over the whole address space

    Every access costs the same, but for the difference between a sequential and
    a non-sequential one.  The writes of the core are kept in order, so that a
    test can see them. -/

namespace Armv4t

/-- One mebibyte of memory that repeats through the address space. -/
structure FlatMemory where
  cells : Storage 0x100000
  /-- The cost of a sequential access. -/
  sequential : Int32
  /-- The cost of any other access. -/
  nonSequential : Int32
  /-- The writes of the core, the last one first. -/
  writes : List (Word × Width)

namespace FlatMemory

/-- A memory of zeros with a cost per access. -/
def zero (sequential nonSequential : Int32) : FlatMemory :=
  ⟨.zero _, sequential, nonSequential, []⟩

/-- The place of an address in the memory. -/
@[inline] def index (a : Word) : Nat := a.toNat % 0x100000

/-- The byte at an address. -/
@[inline] def readByte (m : FlatMemory) (a : Word) : Byte := m.cells.get (index a)

/-- Puts one byte in the memory, unseen. -/
def poke (m : FlatMemory) (a : Word) (b : Byte) : FlatMemory :=
  { m with cells := m.cells.set (index a) b }

/-- Puts bytes at successive addresses in the memory, unseen. -/
def pokeBytes (m : FlatMemory) (a : Word) : List Byte → FlatMemory
  | [] => m
  | b :: bs => (m.poke a b).pokeBytes (a + 1) bs

/-- A write of the core: the bytes are stored and the write is kept. -/
def write (m : FlatMemory) (width : Width) (a value : Word) : FlatMemory :=
  let stored := m.pokeBytes a (bytesOf width value)
  { stored with writes := (a, width) :: stored.writes }

instance : Bus FlatMemory where
  readByte := readByte
  write := write
  cost m sequential _ _ := if sequential then m.sequential else m.nonSequential
  unused _ _ := false
  readOnly _ _ := false

/-- A poked byte reads back at every address that names the same place. -/
theorem readByte_poke (m : FlatMemory) (a c : Word) (b : Byte) :
    (m.poke a b).readByte c = if index a = index c then b else m.readByte c := by
  have h : index a < 0x100000 := Nat.mod_lt _ (by decide)
  simp [poke, readByte, Storage.get_set, h]

end FlatMemory

end Armv4t
