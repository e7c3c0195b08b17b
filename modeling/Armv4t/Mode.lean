import Armv4t.Numeral
import Armv4t.Word

/-! # Modes — the seven operating modes and their five bits

    | mode       | bits  | banked registers         | saved status |
    |------------|-------|--------------------------|--------------|
    | user       | 10000 | none, owns R8 to R14     | no           |
    | fiq        | 10001 | R8 to R14                | yes          |
    | irq        | 10010 | R13 and R14              | yes          |
    | supervisor | 10011 | R13 and R14              | yes          |
    | abort      | 10111 | R13 and R14              | yes          |
    | undefined  | 11011 | R13 and R14              | yes          |
    | system     | 11111 | shares those of user     | no           | -/

namespace Armv4t

/-- An operating mode. -/
inductive Mode where
  | user
  | fiq
  | irq
  | supervisor
  | abort
  | undefined
  | system
  deriving DecidableEq, Repr, Inhabited

/-- The number that names no mode. -/
structure InvalidMode where
  bits : Word
  deriving DecidableEq, Repr

/-- What is wrong, with the number in binary. -/
def InvalidMode.message (e : InvalidMode) : String :=
  "invalid mode bits 0b" ++ binary 5 e.bits.toNat

namespace Mode

/-- Every mode, in the order of their bits. -/
def all : List Mode := [user, fiq, irq, supervisor, abort, undefined, system]

/-- The mode field of a status register. -/
def bits : Mode → Word
  | user => 0x10
  | fiq => 0x11
  | irq => 0x12
  | supervisor => 0x13
  | abort => 0x17
  | undefined => 0x1B
  | system => 0x1F

/-- The mode a number names; the number that names none is kept in the error. -/
def ofBits (n : Word) : Except InvalidMode Mode :=
  if n = 0x10 then .ok user
  else if n = 0x11 then .ok fiq
  else if n = 0x12 then .ok irq
  else if n = 0x13 then .ok supervisor
  else if n = 0x17 then .ok abort
  else if n = 0x1B then .ok undefined
  else if n = 0x1F then .ok system
  else .error ⟨n⟩

/-- Reading a mode's bits gives the mode. -/
@[simp] theorem ofBits_bits (m : Mode) : ofBits m.bits = .ok m := by
  cases m <;> rfl

/-- User and system have no saved status register. -/
def hasSpsr : Mode → Bool
  | user | system => false
  | _ => true

/-- Every mode but user may write the whole status register. -/
def privileged : Mode → Bool
  | user => false
  | _ => true

/-- The three-letter name used in messages. -/
def short : Mode → String
  | user => "usr"
  | fiq => "fiq"
  | irq => "irq"
  | supervisor => "svc"
  | abort => "abt"
  | undefined => "und"
  | system => "sys"

/-- The full name used in configuration files. -/
def name : Mode → String
  | user => "User"
  | fiq => "Fiq"
  | irq => "Irq"
  | supervisor => "Supervisor"
  | abort => "Abort"
  | undefined => "Undefined"
  | system => "System"

/-- The mode with a full name. -/
def ofName? (s : String) : Option Mode := all.find? (fun m => m.name == s)

end Mode

end Armv4t
