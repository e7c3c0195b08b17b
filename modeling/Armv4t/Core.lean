import Armv4t.Attempt
import Armv4t.Bank
import Armv4t.Exception

/-! # The core — the state that a program can observe

    Sixteen live registers, the current status register and the bank.  Whatever
    else a machine carries (counters, break requests, the last code fetch) never
    finds its way back into these.

    R15 holds the address of the instruction that executes.  The pipeline runs
    ahead of it, so a program reads something further on:

    | read as                       | 32-bit set | 16-bit set     |
    |-------------------------------|------------|----------------|
    | operand, base of a branch     | PC + 8     | PC + 4         |
    | operand beside a register shift | PC + 12  | PC + 4         |
    | value stored to memory        | PC + 12    | PC + 6         |
    | base of a literal             | PC + 8     | (PC + 4) with bit 1 clear | -/

namespace Armv4t

/-- How an instruction reads R15. -/
inductive PcRole where
  | operand
  /-- A register beside a shift by register, which takes one cycle more. -/
  | shiftOperand
  /-- A value written to memory. -/
  | stored
  /-- The base of a relative branch. -/
  | branchBase
  /-- The word-aligned base of a load from, or an address in, the code. -/
  | literalBase
  deriving DecidableEq, Repr, Inhabited

/-- The address that a program reads from R15 at an instruction. -/
def pipelinedPc (s : InstructionSet) (role : PcRole) (pc : Word) : Word :=
  match s, role with
  | .arm, .shiftOperand | .arm, .stored => pc + 12
  | .arm, _ => pc + 8
  | .thumb, .stored => pc + 6
  | .thumb, .literalBase => (pc + 4) &&& ~~~2
  | .thumb, _ => pc + 4

/-- The live registers, the current status and the bank. -/
structure Core where
  registers : Registers
  cpsr : Psr
  bank : Bank
  deriving DecidableEq, Inhabited

namespace Core

/-- The current mode. -/
@[inline] def mode (k : Core) : Mode := k.cpsr.mode

/-- The instruction set that executes. -/
@[inline] def instructionSet (k : Core) : InstructionSet := k.cpsr.instructionSet

/-- The address of the instruction that executes. -/
@[inline] def pc (k : Core) : Word := k.registers.pc

/-- R15 as the executing instruction reads it. -/
def effectivePc (k : Core) (role : PcRole) : Word :=
  pipelinedPc k.instructionSet role k.pc

/-- A register as the executing instruction reads it. -/
def read (k : Core) (i : Reg) (role : PcRole) : Word :=
  if i = Reg.pc then k.effectivePc role else k.registers.read i

/-- Stores a register without any further effect. -/
@[inline] def setRegister (k : Core) (i : Reg) (v : Word) : Core :=
  { k with registers := k.registers.write i v }

/-- Moves R15 to an address, aligned for the current instruction set. -/
def jump (k : Core) (target : Word) : Core :=
  k.setRegister Reg.pc (k.instructionSet.align target)

/-- Replaces the current status register and touches nothing else. -/
@[inline] def setCpsr (k : Core) (p : Psr) : Core := { k with cpsr := p }

/-- The saved status of the current mode. -/
def spsr? (k : Core) : Option Psr := k.bank.spsr? k.mode

/-- Goes to a mode and exchanges the banked registers.  Nothing happens when it is
    the current one. -/
def switchMode (k : Core) (m : Mode) : Core :=
  if k.mode = m then k
  else
    let (registers, bank) := k.bank.exchange k.registers k.mode m
    { registers, bank, cpsr := k.cpsr.setMode m }

/-- Replaces the whole status register and exchanges the banked registers for its
    mode.  A status without a mode is refused before anything is done. -/
def install (k : Core) (p : Psr) : Attempt InvalidMode Core :=
  match p.mode? with
  | .ok m => .done ((k.switchMode m).setCpsr p)
  | .error e => .refused e k

/-- A status with a mode is installed, with the registers of that mode. -/
theorem install_of_ok {k : Core} {p : Psr} {m : Mode} (h : p.mode? = .ok m) :
    k.install p = .done ((k.switchMode m).setCpsr p) := by
  rw [install, h]

/-- A refusal leaves the core as it was. -/
theorem install_of_error {k : Core} {p : Psr} {e : InvalidMode} (h : p.mode? = .error e) :
    k.install p = .refused e k := by
  rw [install, h]

/-- The address that an exception leaves in the link register. -/
def returnAddress (k : Core) : Exception → Word
  | .softwareInterrupt | .undefined => k.pc + k.instructionSet.size
  | .irq => k.pc + 4

/-- Enters the handler of an exception: the status is saved in the target mode, the
    link register gets the return address, the handler runs in the 32-bit set
    with interrupt requests disabled. -/
def enter (k : Core) (e : Exception) : Core :=
  let m := e.targetMode
  let link := k.returnAddress e
  let inMode := k.switchMode m
  let saved := { inMode with bank := inMode.bank.setSpsr m k.cpsr }
  let linked := saved.setRegister Reg.lr link
  (linked.setCpsr (linked.cpsr.setInstructionSet .arm |>.setIrqDisabled true)).jump e.vector

end Core

end Armv4t
