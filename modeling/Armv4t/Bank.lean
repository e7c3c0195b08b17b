import Armv4t.Registers
import Armv4t.Status

/-! # The register bank — the registers of the modes that are not live

    A mode that takes over brings its own copies of some registers: FIQ its own
    R8 to R14, the other four exception modes their own R13 and R14, each with a
    saved status register.  User and system share the base copies of R8 to R14
    and have no saved status register.

    Outside FIQ the live R8 to R12 are always the base ones, so leaving any such
    mode stores them with the base copies. -/

namespace Armv4t

/-- The FIQ copies of R8 to R14 and its saved status. -/
structure FiqBank where
  registers : HighRegisters
  spsr : Psr
  deriving DecidableEq, Inhabited

/-- The copies of R13 and R14 of one exception mode and its saved status. -/
structure PairBank where
  r13 : Word
  r14 : Word
  spsr : Psr
  deriving DecidableEq, Inhabited

/-- Takes over the live R13 and R14. -/
def PairBank.keep (p : PairBank) (live : HighRegisters) : PairBank :=
  { p with r13 := live.sp, r14 := live.lr }

/-- The registers that are not live. -/
structure Bank where
  /-- R8 to R14 of user and system. -/
  user : HighRegisters
  fiq : FiqBank
  supervisor : PairBank
  abort : PairBank
  irq : PairBank
  undefined : PairBank
  deriving DecidableEq, Inhabited

/-- What a mode keeps in the bank. -/
inductive Shadow where
  /-- User and system: the base R8 to R14. -/
  | base (registers : HighRegisters)
  /-- FIQ: R8 to R14 and a saved status. -/
  | fiq (registers : HighRegisters) (spsr : Psr)
  /-- The other exception modes: R13, R14 and a saved status. -/
  | pair (r13 r14 : Word) (spsr : Psr)
  deriving DecidableEq

namespace Bank

/-- A bank of zeros. -/
def zero : Bank :=
  let pair : PairBank := ⟨0, 0, ⟨0⟩⟩
  ⟨Vector.replicate 7 0, ⟨Vector.replicate 7 0, ⟨0⟩⟩, pair, pair, pair, pair⟩

/-- What a mode keeps in the bank. -/
def shadow (b : Bank) : Mode → Shadow
  | .user | .system => .base b.user
  | .fiq => .fiq b.fiq.registers b.fiq.spsr
  | .supervisor => .pair b.supervisor.r13 b.supervisor.r14 b.supervisor.spsr
  | .abort => .pair b.abort.r13 b.abort.r14 b.abort.spsr
  | .irq => .pair b.irq.r13 b.irq.r14 b.irq.spsr
  | .undefined => .pair b.undefined.r13 b.undefined.r14 b.undefined.spsr

/-- The saved status of a mode, if it has one. -/
def spsr? (b : Bank) : Mode → Option Psr
  | .user | .system => none
  | .fiq => some b.fiq.spsr
  | .supervisor => some b.supervisor.spsr
  | .abort => some b.abort.spsr
  | .irq => some b.irq.spsr
  | .undefined => some b.undefined.spsr

/-- Replaces the saved status of a mode; a mode without one changes nothing. -/
def setSpsr (b : Bank) (m : Mode) (p : Psr) : Bank :=
  match m with
  | .user | .system => b
  | .fiq => { b with fiq := { b.fiq with spsr := p } }
  | .supervisor => { b with supervisor := { b.supervisor with spsr := p } }
  | .abort => { b with abort := { b.abort with spsr := p } }
  | .irq => { b with irq := { b.irq with spsr := p } }
  | .undefined => { b with undefined := { b.undefined with spsr := p } }

/-- Puts away the live R8 to R14 of a mode that is being left.  Outside FIQ the base
    copies of R8 to R12 are among them. -/
def store (b : Bank) (m : Mode) (live : HighRegisters) : Bank :=
  let user := live.withPair b.user.sp b.user.lr
  match m with
  | .user | .system => { b with user := live }
  | .fiq => { b with fiq := { b.fiq with registers := live } }
  | .supervisor => { b with supervisor := b.supervisor.keep live, user }
  | .abort => { b with abort := b.abort.keep live, user }
  | .irq => { b with irq := b.irq.keep live, user }
  | .undefined => { b with undefined := b.undefined.keep live, user }

/-- The R8 to R14 that a mode brings with it. -/
def highOf (b : Bank) (m : Mode) : HighRegisters :=
  let withPair (p : PairBank) : HighRegisters := b.user.withPair p.r13 p.r14
  match m with
  | .user | .system => b.user
  | .fiq => b.fiq.registers
  | .supervisor => withPair b.supervisor
  | .abort => withPair b.abort
  | .irq => withPair b.irq
  | .undefined => withPair b.undefined

/-- Exchanges the live R8 to R14 of one mode for those of another.  Between a mode
    and itself nothing moves. -/
def exchange (b : Bank) (live : Registers) (old new : Mode) : Registers × Bank :=
  if old = new then (live, b)
  else
    let b := b.store old live.high
    (live.setHigh (b.highOf new), b)

/-- Where user mode's copy of a register lies while another mode is live: a place
    in the base copies, or nowhere when the register is live. -/
def userSlot? (m : Mode) (i : Reg) : Option (Fin 7) :=
  if h : 8 ≤ i.val ∧ i.val ≤ 14 then
    match m with
    | .user | .system => none
    | .fiq => some ⟨i.val - 8, by omega⟩
    | _ => if 13 ≤ i.val then some ⟨i.val - 8, by omega⟩ else none
  else none

/-- A register as user mode sees it while a mode is live. -/
def userRegister (b : Bank) (live : Registers) (m : Mode) (i : Reg) : Word :=
  match userSlot? m i with
  | some k => b.user[k]
  | none => live.read i

/-- Writes a register as user mode sees it while a mode is live. -/
def setUserRegister (b : Bank) (live : Registers) (m : Mode) (i : Reg) (v : Word) :
    Registers × Bank :=
  match userSlot? m i with
  | some k => (live, { b with user := b.user.set k.val v k.isLt })
  | none => (live.write i v, b)

end Bank

end Armv4t
