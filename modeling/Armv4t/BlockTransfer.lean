import Armv4t.Execution

/-! # Block transfers — several registers at successive words

    The registers move in ascending order, the lowest one at the lowest address;
    only the first access is non-sequential.  An empty list moves R15 and the base
    as if sixteen words had gone through.

    With the S bit set the registers are those of user mode, except in a load of
    R15, which restores the saved status instead. -/

namespace Armv4t

/-- A block transfer, with its list and addresses made out. -/
structure Block where
  rn : Reg
  writeBack : Bool
  /-- The base after the transfer. -/
  moved : Word
  /-- The registers are those of user mode. -/
  user : Bool
  /-- Loading R15 restores the saved status. -/
  restore : Bool
  /-- The mode in which the transfer began. -/
  mode : Mode
  deriving DecidableEq, Repr

namespace Execution

variable {B : Type}

/-- The value that a block stores for a register.  The base is stored as it was
    when it comes first, and as it will be when it comes later. -/
def storedValue (x : Execution B) (b : Block) (first : Bool) (r : Reg) : Word :=
  if r = Reg.pc then x.core.effectivePc .stored
  else if b.user then x.core.bank.userRegister x.core.registers b.mode r
  else if r = b.rn ∧ b.writeBack ∧ !first then b.moved
  else x.core.registers.read r

/-- Puts a loaded word into a register of a block. -/
def acceptLoaded (x : Execution B) (b : Block) (r : Reg) (v : Word) : Execution B :=
  if r = Reg.pc then (if b.restore then x.restoreStatus else x).branchTo v
  else if b.user then
    let (registers, bank) := x.core.bank.setUserRegister x.core.registers b.mode r v
    x.withCore { x.core with registers, bank }
  else x.setRegister r v

variable [Bus B]

/-- Stores the registers of a block from an address on. -/
def storeBlock (b : Block) (first : Bool) (a : Word) : List Reg → Execution B → Execution B
  | [], x => x
  | r :: rs, x =>
    storeBlock b false (a + 4) rs (x.store .word (!first) a (x.storedValue b first r))

/-- Loads the registers of a block from an address on. -/
def loadBlock (b : Block) (first : Bool) (a : Word) : List Reg → Execution B → Execution B
  | [], x => x
  | r :: rs, x =>
    let (v, x) := x.load .word (!first) a
    loadBlock b false (a + 4) rs (x.acceptLoaded b r v)

/-- A block transfer: which way, how addressed, with the S bit, base and list. -/
def transferBlock (x : Execution B) (kind : TransferKind) (addressing : Addressing) (s : Bool)
    (rn : Reg) (list : Half) : Execution B :=
  let registers := if list = 0 then [Reg.pc] else registersIn list
  let count := if list = 0 then 16 else registers.length.toUInt32
  let (first, moved) := blockRange addressing (x.core.registers.read rn) count
  let loadsPc := kind = .load ∧ Reg.pc ∈ registers
  let block : Block :=
    { rn
      writeBack := addressing.writeBack
      moved
      user := s && !loadsPc
      restore := s
      mode := x.core.mode }
  match kind with
  | .store =>
    let x := (storeBlock block true first registers x).scatter
    if addressing.writeBack then x.writeBase rn moved else x
  | .load =>
    -- A loaded base wins over the moved one.
    let x := if addressing.writeBack ∧ rn ∉ registers then x.writeBase rn moved else x
    (loadBlock block true first registers x).wait 1

end Execution

end Armv4t
