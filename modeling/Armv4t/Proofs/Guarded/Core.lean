import Armv4t.Proofs.Banking
import Armv4t.Proofs.Guarded.Operand
import Mathlib.Tactic.IntervalCases

/-! # Guarded cores — status bits, banks and register reads stay in range

    The core again, with each bit of a status register guarded, each part of a register
    file that moves between the bank and the live registers checked against both ends,
    and each place in the base copies computed as the number of the register less
    eight and checked against the seven places there are.

    Whatever the registers, the status, the saved statuses and the bank hold, a guarded
    operation gives what the plain one gives. -/

namespace Armv4t.Guarded

/-! ## Status registers -/

/-- The four flags. -/
def flags (p : Psr) : Option Flags := do
  some ⟨← getBit 32 p.raw 31, ← getBit 32 p.raw 30, ← getBit 32 p.raw 29, ← getBit 32 p.raw 28⟩

/-- The carry flag. -/
def carry (p : Psr) : Option Bool := getBit 32 p.raw 29

/-- The overflow flag. -/
def overflow (p : Psr) : Option Bool := getBit 32 p.raw 28

/-- The T bit. -/
def stateBit (p : Psr) : Option Bool := getBit 32 p.raw 5

/-- The instruction set that the T bit selects. -/
def instructionSet (p : Psr) : Option InstructionSet := do
  some (.ofBit (← stateBit p))

/-- Whether an instruction with a condition executes. -/
def satisfies (p : Psr) (condition : Condition) : Option Bool := do
  some (condition.holds (← flags p))

/-- A status with a bit replaced. -/
def put (i : Word) (p : Psr) (b : Bool) : Option Psr := do some ⟨← setBit 32 p.raw i b⟩

/-- Sets all four flags. -/
def setFlags (p : Psr) (f : Flags) : Option Psr := do
  let p ← put 29 p f.c
  let p ← put 30 p f.z
  let p ← put 31 p f.n
  put 28 p f.v

/-- Sets N and Z from a result. -/
def setNZ (p : Psr) (result : Word) : Option Psr := do
  let p ← put 31 p (← getBit 32 result 31)
  put 30 p (result == 0)

/-- Sets N and Z from a 64-bit result. -/
def setNZLong (p : Psr) (result : UInt64) : Option Psr := do
  let p ← put 31 p (← getBitWide result 63)
  put 30 p (result == 0)

/-- Sets N and Z from a shifted value and C from the shifter. -/
def setShifted (p : Psr) (s : Shifted) : Option Psr := do
  let p ← setNZ p s.value
  put 29 p s.carry

/-- Selects an instruction set. -/
def setInstructionSet (p : Psr) (s : InstructionSet) : Option Psr := put 5 p s.toBit

variable (p : Psr)

/-- The flags stand at the four highest bits, all of them inside the word. -/
@[simp] theorem flags_eq : flags p = some p.flags := by
  simp [flags, Psr.flags, Psr.n, Psr.z, Psr.c, Psr.v]

@[simp] theorem carry_eq : carry p = some p.c := getBit_eq (by decide)

@[simp] theorem overflow_eq : overflow p = some p.v := getBit_eq (by decide)

@[simp] theorem stateBit_eq : stateBit p = some p.t := getBit_eq (by decide)

/-- Either value of the T bit selects a set. -/
@[simp] theorem instructionSet_eq : instructionSet p = some p.instructionSet := by
  simp [instructionSet, Psr.instructionSet]

/-- A condition is evaluated on flags that can be read. -/
@[simp] theorem satisfies_eq (condition : Condition) :
    satisfies p condition = some (p.satisfies condition) := by
  simp [satisfies, Psr.satisfies]

/-- A status has thirty-two bits to replace. -/
@[simp] theorem put_eq {i : Word} (h : i < 32) (b : Bool) :
    put i p b = some ⟨putBit p.raw i b⟩ := by
  simp [put, h]

/-- The four flags are written one after another, in the order of the plain operation. -/
@[simp] theorem setFlags_eq (f : Flags) : setFlags p f = some (p.setFlags f) := by
  simp [setFlags, Psr.setFlags, Psr.setC, Psr.setZ, Psr.setN, Psr.setV]

/-- N is the top bit of a result, which every word has. -/
@[simp] theorem setNZ_eq (result : Word) : setNZ p result = some (p.setNZ result) := by
  simp [setNZ, Psr.setNZ, Psr.setN, Psr.setZ]

/-- The same of a result of 64 bits. -/
@[simp] theorem setNZLong_eq (result : UInt64) :
    setNZLong p result = some (p.setNZLong result) := by
  simp [setNZLong, Psr.setNZLong, Psr.setN, Psr.setZ]

@[simp] theorem setShifted_eq (s : Shifted) :
    setShifted p s = some ((p.setNZ s.value).setC s.carry) := by
  simp [setShifted, Psr.setC]

/-- The T bit is inside the word too. -/
@[simp] theorem setInstructionSet_eq (s : InstructionSet) :
    setInstructionSet p s = some (p.setInstructionSet s) := by
  simp [setInstructionSet, Psr.setInstructionSet, Psr.setT]

/-! ## The bank -/

/-- The part of a register file from `lo` up to before `hi`, as long as is asked for. -/
def slice {n : Nat} (v : Vector Word n) (lo hi : Nat) {size : Nat} :
    Option (Vector Word size) :=
  if h : lo ≤ hi ∧ hi ≤ n ∧ hi - lo = size then some (Vector.ofFn fun i => v[lo + i.val])
  else none

/-- A register file with the part from `lo` up to before `hi` replaced by one as long. -/
def paste {n : Nat} (v : Vector Word n) (lo hi : Nat) {size : Nat} (part : Vector Word size) :
    Option (Vector Word n) :=
  if h : lo ≤ hi ∧ hi ≤ n ∧ hi - lo = size then
    some (Vector.ofFn fun i => if h' : lo ≤ i.val ∧ i.val < hi then part[i.val - lo] else v[i])
  else none

/-- A register file with one register replaced. -/
def replace {n : Nat} (v : Vector Word n) (k : Fin n) (w : Word) : Vector Word n :=
  Vector.ofFn fun i => if i = k then w else v.get i

/-- The bank after the live R8 to R14 went into what their mode keeps there. -/
def putAway (b : Bank) (m : Mode) (live : HighRegisters) : Bank :=
  match m with
  | .user | .system => { b with user := live }
  | .fiq => { b with fiq := { b.fiq with registers := live } }
  | .supervisor => { b with supervisor := b.supervisor.keep live }
  | .abort => { b with abort := b.abort.keep live }
  | .irq => { b with irq := b.irq.keep live }
  | .undefined => { b with undefined := b.undefined.keep live }

/-- Exchanges the live R8 to R14 of one mode for those of another. -/
def exchange (b : Bank) (live : Registers) (old new : Mode) : Option (Registers × Bank) := do
  if old = new then some (live, b)
  else
    let outgoing : HighRegisters ← slice live 8 15
    let b := putAway b old outgoing
    let b ←
      if old = .fiq then some b
      else do
        let base : Vector Word 5 ← slice outgoing 0 5
        some { b with user := ← paste b.user 0 5 base }
    let live ← paste live 8 15 (b.highOf new)
    some (live, b)

/-- Where user mode's copy of a register lies while another mode is live. -/
def userSlot (m : Mode) (i : Reg) : Option (Option (Fin 7)) := do
  if m = .user ∨ m = .system ∨ i.val ≤ 7 ∨ i.val = 15 then some none
  else if (m = .fiq ∧ 8 ≤ i.val) ∨ 13 ≤ i.val then
    some (some (← index 7 (← subWord i.val.toUInt32 8)))
  else some none

/-- A register as user mode sees it while a mode is live. -/
def userRegister (b : Bank) (live : Registers) (m : Mode) (i : Reg) : Option Word := do
  match ← userSlot m i with
  | some k => some (b.user.get k)
  | none => some (live.read i)

/-- Writes a register as user mode sees it while a mode is live. -/
def setUserRegister (b : Bank) (live : Registers) (m : Mode) (i : Reg) (v : Word) :
    Option (Registers × Bank) := do
  match ← userSlot m i with
  | some k => some (live, { b with user := replace b.user k v })
  | none => some (live.write i v, b)

/-- One register of a file is replaced in place. -/
@[simp] theorem replace_eq {n : Nat} (v : Vector Word n) (k : Fin n) (w : Word) :
    replace v k w = v.set k.val w k.isLt := by
  refine Vector.ext fun i hi => ?_
  rw [replace, Vector.getElem_ofFn, Vector.getElem_set]
  show (if (⟨i, hi⟩ : Fin n) = k then w else v[i]) = _
  simp only [Fin.ext_iff, eq_comm]

/-- The live R8 to R14 are a part of the register file. -/
theorem slice_high (live : Registers) : slice live 8 15 = some live.high := by
  refine (dif_pos (by decide)).trans (congrArg some (Vector.ext fun i hi => ?_))
  rw [Vector.getElem_ofFn]
  interval_cases i <;> rfl

/-- R8 to R12 are a part of R8 to R14. -/
theorem slice_base (h : HighRegisters) :
    slice h 0 5 = some #v[h.get 0, h.get 1, h.get 2, h.get 3, h.get 4] := by
  refine (dif_pos (by decide)).trans (congrArg some (Vector.ext fun i hi => ?_))
  rw [Vector.getElem_ofFn]
  interval_cases i <;> rfl

/-- The base copies with other R8 to R12. -/
theorem paste_base (user h : HighRegisters) :
    paste user 0 5 #v[h.get 0, h.get 1, h.get 2, h.get 3, h.get 4]
      = some (h.withPair user.sp user.lr) := by
  refine (dif_pos (by decide)).trans (congrArg some (Vector.ext fun i hi => ?_))
  rw [Vector.getElem_ofFn]
  interval_cases i <;> rfl

/-- The register file with other R8 to R14. -/
theorem paste_high (live : Registers) (h : HighRegisters) :
    paste live 8 15 h = some (live.setHigh h) := by
  refine (dif_pos (by decide)).trans (congrArg some (Vector.ext fun i hi => ?_))
  rw [Vector.getElem_ofFn]
  interval_cases i <;> rfl

/-- Putting back what is there changes nothing. -/
theorem withPair_self (h : HighRegisters) : h.withPair h.sp h.lr = h := by
  refine Vector.ext fun i hi => ?_
  interval_cases i <;> rfl

/-- Between any two modes the parts that move have their places in file and bank. -/
@[simp] theorem exchange_eq (b : Bank) (live : Registers) (old new : Mode) :
    exchange b live old new = some (b.exchange live old new) := by
  by_cases h : old = new
  · simp [exchange, Bank.exchange, h]
  · -- every mode but FIQ leaves its R8 to R12 in the base copies
    cases old <;>
      simp [exchange, Bank.exchange, h, slice_high, slice_base, paste_base, paste_high, putAway,
        Bank.store, withPair_self]

/-- A register that user mode keeps in the base copies has a place there. -/
@[simp] theorem userSlot_eq (m : Mode) (i : Reg) : userSlot m i = some (Bank.userSlot? m i) := by
  cases m <;> revert i <;> decide

/-- User mode sees every register, from whichever mode is live. -/
@[simp] theorem userRegister_eq (b : Bank) (live : Registers) (m : Mode) (i : Reg) :
    userRegister b live m i = some (b.userRegister live m i) := by
  rw [userRegister, userSlot_eq, Bank.userRegister]
  cases Bank.userSlot? m i <;> rfl

/-- And it may write every one. -/
@[simp] theorem setUserRegister_eq (b : Bank) (live : Registers) (m : Mode) (i : Reg)
    (v : Word) : setUserRegister b live m i v = some (b.setUserRegister live m i v) := by
  rw [setUserRegister, userSlot_eq, Bank.setUserRegister]
  cases Bank.userSlot? m i <;> simp

/-! ## The core -/

/-- R15 as the executing instruction reads it. -/
def effectivePc (k : Core) (role : PcRole) : Option Word := do
  some (pipelinedPc (← instructionSet k.cpsr) role k.pc)

/-- A register as the executing instruction reads it. -/
def read (k : Core) (i : Reg) (role : PcRole) : Option Word :=
  if i = Reg.pc then effectivePc k role else some (k.registers.read i)

/-- Moves R15 to an address. -/
def jump (k : Core) (target : Word) : Option Core := do
  some (k.setRegister Reg.pc ((← instructionSet k.cpsr).align target))

/-- Goes to a mode and exchanges the banked registers. -/
def switchMode (k : Core) (m : Mode) : Option Core := do
  if k.mode = m then some k
  else
    let (registers, bank) ← exchange k.bank k.registers k.mode m
    some { registers, bank, cpsr := k.cpsr.setMode m }

/-- Replaces the whole status register, or refuses one without a mode. -/
def install (k : Core) (p : Psr) : Option (Attempt InvalidMode Core) := do
  match p.mode? with
  | .ok m => some (.done ((← switchMode k m).setCpsr p))
  | .error e => some (.refused e k)

/-- The address that an exception leaves in the link register. -/
def returnAddress (k : Core) (e : Exception) : Option Word := do
  match e with
  | .softwareInterrupt | .undefined => some (k.pc + (← instructionSet k.cpsr).size)
  | .irq => some (k.pc + 4)

/-- Enters the handler of an exception. -/
def enter (k : Core) (e : Exception) : Option Core := do
  let m := e.targetMode
  let link ← returnAddress k e
  let inMode ← switchMode k m
  let saved := { inMode with bank := inMode.bank.setSpsr m k.cpsr }
  let linked := saved.setRegister Reg.lr link
  let status ← setInstructionSet linked.cpsr .arm
  let status ← put 7 status true
  jump (linked.setCpsr status) e.vector

variable (k : Core)

/-- R15 reads ahead by a wrapping sum. -/
@[simp] theorem effectivePc_eq (role : PcRole) :
    effectivePc k role = some (k.effectivePc role) := by
  simp [effectivePc, Core.effectivePc, Core.instructionSet]

/-- All sixteen registers can be read, in every role. -/
@[simp] theorem read_eq (i : Reg) (role : PcRole) : read k i role = some (k.read i role) := by
  simp [read, Core.read]

@[simp] theorem jump_eq (target : Word) : jump k target = some (k.jump target) := by
  simp [jump, Core.jump, Core.instructionSet]

/-- A mode switch exchanges what can be exchanged. -/
@[simp] theorem switchMode_eq (m : Mode) : switchMode k m = some (k.switchMode m) := by
  simp [switchMode, Core.switchMode]

/-- A status is installed or refused, and either is a result. -/
@[simp] theorem install_eq : install k p = some (k.install p) := by
  cases h : p.mode? <;> simp [install, Core.install, h]

/-- The return address is a wrapping sum as well. -/
@[simp] theorem returnAddress_eq (e : Exception) :
    returnAddress k e = some (k.returnAddress e) := by
  cases e <;> simp [returnAddress, Core.returnAddress, Core.instructionSet]

/-- A handler is entered from every core. -/
@[simp] theorem enter_eq (e : Exception) : enter k e = some (k.enter e) := by
  simp [enter, Core.enter, Psr.setIrqDisabled]

end Armv4t.Guarded
