import Armv4t.Word

/-! # Conditions — the sixteen tests on the four flags

    Every 32-bit instruction carries one; of the 16-bit ones only the
    conditional branch does.  The code `0xF` is reserved and never holds. -/

namespace Armv4t

/-- The flags: negative, zero, carry (no borrow) and signed overflow. -/
structure Flags where
  n : Bool
  z : Bool
  c : Bool
  v : Bool
  deriving DecidableEq, Repr, Inhabited

/-- A condition, in the order of the codes. -/
inductive Condition where
  | eq | ne | cs | cc | mi | pl | vs | vc
  | hi | ls | ge | lt | gt | le | al | nv
  deriving DecidableEq, Repr, Inhabited

namespace Condition

/-- The condition with a four-bit code. -/
def ofCode (n : Fin 16) : Condition :=
  match n.val with
  | 0x0 => eq | 0x1 => ne | 0x2 => cs | 0x3 => cc
  | 0x4 => mi | 0x5 => pl | 0x6 => vs | 0x7 => vc
  | 0x8 => hi | 0x9 => ls | 0xA => ge | 0xB => lt
  | 0xC => gt | 0xD => le | 0xE => al | _ => nv

/-- Whether the flags satisfy the condition. -/
def holds (f : Flags) : Condition → Bool
  | eq => f.z
  | ne => !f.z
  | cs => f.c
  | cc => !f.c
  | mi => f.n
  | pl => !f.n
  | vs => f.v
  | vc => !f.v
  | hi => f.c && !f.z
  | ls => !f.c || f.z
  | ge => f.n == f.v
  | lt => f.n != f.v
  | gt => !f.z && (f.n == f.v)
  | le => f.z || (f.n != f.v)
  | al => true
  | nv => false

/-- The two-letter name. -/
def name : Condition → String
  | eq => "EQ" | ne => "NE" | cs => "CS" | cc => "CC"
  | mi => "MI" | pl => "PL" | vs => "VS" | vc => "VC"
  | hi => "HI" | ls => "LS" | ge => "GE" | lt => "LT"
  | gt => "GT" | le => "LE" | al => "AL" | nv => "NV"

/-- The suffix of an assembler mnemonic; the condition that always holds has none. -/
def suffix : Condition → String
  | al => ""
  | c => c.name

end Condition

end Armv4t
