import Armv4t.Bus
import Armv4t.Registers

/-! # Transfers — the fields that loads and stores share

    Which way data goes, how much of it, where the address comes from, and which
    registers a block names.  Both instruction sets decode into these. -/

namespace Armv4t

/-- Which way a transfer goes. -/
inductive TransferKind where
  | store
  | load
  deriving DecidableEq, Repr, Inhabited

/-- The kind that the load bit selects. -/
def TransferKind.ofBit : Bool → TransferKind
  | false => store
  | true => load

/-- What a single transfer moves. -/
inductive Quantity where
  | word
  | byte
  deriving DecidableEq, Repr, Inhabited

/-- The quantity that the byte bit selects. -/
def Quantity.ofBit : Bool → Quantity
  | false => word
  | true => byte

/-- The transfers of halfwords and of signed values.  No store is signed. -/
inductive HalfTransfer where
  | storeHalf
  | loadHalf
  | loadSignedByte
  | loadSignedHalf
  deriving DecidableEq, Repr, Inhabited

/-- Whether the offset is added before the transfer or after it. -/
inductive Indexing where
  | post
  | pre
  deriving DecidableEq, Repr, Inhabited

/-- The indexing that the pre-index bit selects. -/
def Indexing.ofBit : Bool → Indexing
  | false => post
  | true => pre

/-- Whether the offset is subtracted or added. -/
inductive Direction where
  | down
  | up
  deriving DecidableEq, Repr, Inhabited

/-- The direction that the up bit selects. -/
def Direction.ofBit : Bool → Direction
  | false => down
  | true => up

/-- A base moved by an offset; addresses wrap. -/
def Direction.apply : Direction → Word → Word → Word
  | up, base, offset => base + offset
  | down, base, offset => base - offset

/-- How a transfer finds its address, and whether the base keeps the move. -/
structure Addressing where
  indexing : Indexing
  direction : Direction
  writeBack : Bool
  deriving DecidableEq, Repr, Inhabited

namespace Addressing

/-- A moved base stays moved when written back, and always when moved afterwards. -/
def movesBase (a : Addressing) : Bool := a.writeBack || a.indexing == .post

/-- The address of a single transfer, from the base and the moved base. -/
def address (a : Addressing) (base moved : Word) : Word :=
  match a.indexing with
  | .pre => moved
  | .post => base

end Addressing

/-- The registers named by sixteen bits, ascending. -/
def registersIn (list : Half) : List Reg :=
  Reg.all.filter fun r => bit list.toUInt32 r.val.toUInt32

/-- The first address and the moved base of a block of `count` words. -/
def blockRange (a : Addressing) (base count : Word) : Word × Word :=
  let size := count * 4
  match a.direction, a.indexing with
  | .up, .post => (base, base + size)
  | .up, .pre => (base + 4, base + size)
  | .down, .post => (base - size + 4, base - size)
  | .down, .pre => (base - size, base - size)

/-- Names between braces. -/
def bracedList (names : List String) : String :=
  "\x7b" ++ ", ".intercalate names ++ "\x7d"

end Armv4t
