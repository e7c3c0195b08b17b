import Armv4t.Word

/-! # Registers — the sixteen that the current mode sees

    R13 is the stack pointer, R14 the link register and R15 the program counter.
    The program counter holds the address of the instruction that executes;
    what an instruction reads from it is decided elsewhere, by the pipeline. -/

namespace Armv4t

/-- A register number. -/
abbrev Reg := Fin 16

/-- Two numbers are the same register when they are the same number; the instance that a
    look into a list of registers finds first. -/
instance (priority := 2000) : LawfulBEq Reg := inferInstance

/-- A register number that the 16-bit instructions reach: R0 to R7. -/
abbrev LowReg := Fin 8

/-- A low register as one of the sixteen. -/
def LowReg.wide (r : LowReg) : Reg := r.castLE (by decide)

/-- The stack pointer. -/
def Reg.sp : Reg := ⟨13, by decide⟩

/-- The link register. -/
def Reg.lr : Reg := ⟨14, by decide⟩

/-- The program counter. -/
def Reg.pc : Reg := ⟨15, by decide⟩

/-- The name of a register in assembler text. -/
def Reg.name (r : Reg) : String := "R" ++ toString r.val

/-- The name of a low register in assembler text. -/
def LowReg.name (r : LowReg) : String := "R" ++ toString r.val

/-- Every register number, ascending. -/
def Reg.all : List Reg := List.finRange 16

/-- The values of the sixteen registers. -/
abbrev Registers := Vector Word 16

/-- The values of R8 to R14, the registers that some mode banks. -/
abbrev HighRegisters := Vector Word 7

namespace HighRegisters

/-- R13. -/
def sp (h : HighRegisters) : Word := h[5]

/-- R14. -/
def lr (h : HighRegisters) : Word := h[6]

/-- The same R8 to R12 with another R13 and R14. -/
def withPair (h : HighRegisters) (r13 r14 : Word) : HighRegisters :=
  #v[h[0], h[1], h[2], h[3], h[4], r13, r14]

end HighRegisters

namespace Registers

/-- Sixteen zeros. -/
def zero : Registers := Vector.replicate 16 0

/-- The value of a register. -/
@[inline] def read (rs : Registers) (i : Reg) : Word := rs[i]

/-- The file with one register replaced. -/
@[inline] def write (rs : Registers) (i : Reg) (v : Word) : Registers := rs.set i.val v i.isLt

/-- The program counter. -/
@[inline] def pc (rs : Registers) : Word := rs.read Reg.pc

/-- The file with the program counter replaced. -/
@[inline] def setPc (rs : Registers) (v : Word) : Registers := rs.write Reg.pc v

/-- R8 to R14. -/
def high (rs : Registers) : HighRegisters :=
  #v[rs[8], rs[9], rs[10], rs[11], rs[12], rs[13], rs[14]]

/-- The file with R8 to R14 replaced. -/
def setHigh (rs : Registers) (h : HighRegisters) : Registers :=
  #v[rs[0], rs[1], rs[2], rs[3], rs[4], rs[5], rs[6], rs[7],
    h[0], h[1], h[2], h[3], h[4], h[5], h[6], rs[15]]

/-- A written register reads back, and the others keep their values. -/
theorem read_write (rs : Registers) (i j : Reg) (v : Word) :
    (rs.write i v).read j = if i = j then v else rs.read j := by
  simp [read, write, Vector.getElem_set, Fin.ext_iff]

end Registers

end Armv4t
