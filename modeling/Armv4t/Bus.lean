import Armv4t.Word

/-! # The bus — what the core asks of its memory

    The core owns no storage.  It reads bytes, writes one, two or four of them at
    an aligned address, and asks what an access costs.  A wider read is the bytes
    at successive addresses, lowest first; addresses wrap.

    That leaves out a bus on which reading does something: a device that counts its
    reads or hands out one value after the other, and one whose words are not made of
    its bytes.  Mapped and flat memory are none of these; a statement about every bus
    is one about every memory that a read leaves as it is. -/

namespace Armv4t

/-- The width of an access. -/
inductive Width where
  | byte
  | half
  | word
  deriving DecidableEq, Repr, Inhabited

namespace Width

/-- The number of bytes. -/
def bytes : Width → Nat
  | byte => 1
  | half => 2
  | word => 4

/-- The address at or below an address that is aligned to the width. -/
def align : Width → Word → Word
  | byte, a => a
  | half, a => alignHalf a
  | word, a => alignWord a

/-- Only a word counts as a 32-bit access. -/
def isWord : Width → Bool
  | word => true
  | _ => false

end Width

/-- The bytes of a value that a write of some width stores, lowest first. -/
def bytesOf (width : Width) (value : Word) : List Byte :=
  match width with
  | .byte => [value.toUInt8]
  | .half => [byteOfWord value 0, byteOfWord value 1]
  | .word => [byteOfWord value 0, byteOfWord value 1, byteOfWord value 2, byteOfWord value 3]

/-- Bytes with the successive addresses they stand at. -/
def placed (a : Word) : List Byte → List (Word × Byte)
  | [] => []
  | b :: bs => (a, b) :: placed (a + 1) bs

/-- What a bus has to say about a byte that it does not hold. -/
inductive BusNote where
  /-- A byte was read where there is no memory. -/
  | unusedRead (address : Word)
  /-- A byte was written where nothing can be written. -/
  | ignoredWrite (value : Byte) (address : Word)
  deriving DecidableEq, Repr

/-- A memory that the core can be attached to: one that a read does not change, and
    whose halfwords and words are made of its bytes. -/
class Bus (B : Type) where
  /-- The byte at an address.  It is there to be read as often as one likes. -/
  readByte : B → Word → Byte
  /-- The bus after the lowest bytes of a value were written at an address. -/
  write : B → Width → Word → Word → B
  /-- The cycles of one access: sequential or not, 32-bit or not, and where. -/
  cost : B → Bool → Bool → Word → Int32
  /-- Whether a byte read at an address finds no memory. -/
  unused : B → Word → Bool
  /-- Whether a byte written at an address is dropped. -/
  readOnly : B → Word → Bool

namespace Bus

variable {B : Type} [Bus B]

/-- The halfword made of the bytes at an address and the next one. -/
@[specialize] def readHalf (m : B) (a : Word) : Word :=
  wordOfBytes (readByte m a) (readByte m (a + 1)) 0 0

/-- The word made of the four bytes from an address on. -/
@[specialize] def readWord (m : B) (a : Word) : Word :=
  wordOfBytes (readByte m a) (readByte m (a + 1)) (readByte m (a + 2)) (readByte m (a + 3))

/-- The value of a read of some width. -/
@[specialize] def read (m : B) (width : Width) (a : Word) : Word :=
  match width with
  | .byte => (readByte m a).toUInt32
  | .half => readHalf m a
  | .word => readWord m a

/-- The notes on a read. -/
def readNotes (m : B) (width : Width) (a : Word) : List BusNote :=
  (placed a (bytesOf width 0)).filterMap fun (a, _) =>
    if unused m a then some (.unusedRead a) else none

/-- The notes on a write. -/
def writeNotes (m : B) (width : Width) (a value : Word) : List BusNote :=
  (placed a (bytesOf width value)).filterMap fun (a, b) =>
    if readOnly m a then some (.ignoredWrite b a) else none

end Bus

end Armv4t
