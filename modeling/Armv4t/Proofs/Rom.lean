import Armv4t.Machine

/-! # Small memories — buses small enough to run by hand

    A read-only memory holds a few words from address zero on and zeros after them,
    and charges one cycle for every access.  A metered memory holds any bytes, takes
    writes, and charges by a tariff.  Concrete runs over both reduce to their results. -/

namespace Armv4t

/-- A read-only memory. -/
structure Rom where
  words : List Word
  deriving DecidableEq, Repr

instance : Bus Rom where
  readByte m a := byteOfWord (m.words.getD (a >>> 2).toNat 0) (a &&& 3)
  write m _ _ _ := m
  cost _ _ _ _ := 1
  unused _ _ := false
  readOnly _ _ := true

/-- A machine after its reset in some mode, at the first word of a read-only memory. -/
def Rom.machine (words : List Word) (mode : Mode) : Machine Rom :=
  .new ⟨words⟩ { Config.standard with resetMode := mode } .error

/-- The same in supervisor mode, with runs that halt on a fault. -/
def Rom.haltingMachine (words : List Word) : Machine Rom :=
  .new ⟨words⟩ { Config.standard with haltOnInvalidMode := true } .error

/-- A memory of bytes with a tariff. -/
structure Metered where
  byte : Word → Byte
  /-- The cycles of an access: sequential or not, 32-bit or not, and where. -/
  tariff : Bool → Bool → Word → Int32

/-- The memory with bytes replaced at successive addresses. -/
def Metered.put (m : Metered) (a : Word) (bs : List Byte) : Metered :=
  { m with byte := fun b => bs.getD (b - a).toNat (m.byte b) }

instance : Bus Metered where
  readByte m a := m.byte a
  write m width a value := m.put a (bytesOf width value)
  cost m sequential wide a := m.tariff sequential wide a
  unused _ _ := false
  readOnly _ _ := false

/-- A machine after its reset in some mode, at the first of some words in a memory that
    is otherwise zero. -/
def Metered.machine (words : List Word) (tariff : Bool → Bool → Word → Int32) (mode : Mode) :
    Machine Metered :=
  .new ⟨Bus.readByte (Rom.mk words), tariff⟩ { Config.standard with resetMode := mode } .error

end Armv4t
