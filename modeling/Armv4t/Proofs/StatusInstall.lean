import Armv4t.Proofs.Alignment
import Armv4t.Proofs.BlockLoad
import Armv4t.Proofs.Writes

/-! # Installing a status — what an instruction does before and after

    A status with a mode is taken over as it is, and every mode keeps its registers
    (`Core.installed_of_hasMode`); one without is refused, and nothing moves.

    Three instructions install one: a transfer to the current status, data processing
    that sets the flags and writes R15, and a load of a block with the S bit and R15.
    `Arm.Replaces` says for each which status that is, which registers it has before,
    and where it goes afterwards; that is all it does (`Arm.execute_of_replaces`). -/

namespace Armv4t

/-! ## Installing a status -/

/-- A core that has taken over a status, and goes on at an address: the status is the one
    that was asked for, the registers of its mode are live, and every register of every
    mode and every saved status is what it was. -/
structure Core.Installed (k : Core) (p : Psr) (pc : Word) (k' : Core) : Prop where
  cpsr : k'.cpsr = p
  live : ∀ i : HighReg, k'.registers.read i.wide = k.view p.mode i
  views : ∀ m i, k'.view m i = k.view m i
  low : ∀ r : Reg, r.val < 8 → k'.registers.read r = k.registers.read r
  spsrs : ∀ m, k'.bank.spsr? m = k.bank.spsr? m
  pc : k'.pc = pc

namespace Core

variable {k : Core} {p : Psr}

/-- The switch is made for the mode of the status, before the status is written. -/
theorem installed_of_hasMode (h : p.HasMode) (k : Core) (pc : Word) :
    k.Installed p pc ((k.tryInstall p).setRegister Reg.pc pc) := by
  have hmode : p.mode = (k.switchMode p.mode).mode := (k.mode_switchMode p.mode).symm
  have hviews (m : Mode) (i : HighReg) :
      (((k.switchMode p.mode).setCpsr p).setRegister Reg.pc pc).view m i = k.view m i := by
    rw [view_setRegister_pc, view_setCpsr hmode, view_switchMode]
  rw [tryInstall_of_ok h.mode?_eq]
  refine ⟨rfl, ?_, hviews, ?_, ?_, pc_setRegister_pc _ pc⟩
  · intro i
    exact (view_live _ i).symm.trans (hviews p.mode i)
  · intro r hr
    have hne : Reg.pc ≠ r := fun h => absurd (h ▸ hr) (by decide)
    show ((k.switchMode p.mode).registers.write Reg.pc pc).read r = _
    rw [Registers.read_write, if_neg hne]
    exact k.read_switchMode_of_low p.mode (Or.inl hr)
  · intro m
    exact k.spsr?_switchMode p.mode m

theorem tryInstall_of_not_hasMode (h : ¬ p.HasMode) (k : Core) : k.tryInstall p = k :=
  tryInstall_of_error (Psr.mode?_of_not_hasMode h)

theorem cpsr_tryInstall (h : p.HasMode) (k : Core) : (k.tryInstall p).cpsr = p := by
  rw [tryInstall_of_ok h.mode?_eq]
  rfl

/-- R15 may be written before a status is installed or after it. -/
theorem tryInstall_setRegister_pc (k : Core) (v : Word) (p : Psr) :
    (k.setRegister Reg.pc v).tryInstall p = (k.tryInstall p).setRegister Reg.pc v := by
  cases hp : p.mode? with
  | ok m =>
      rw [tryInstall_of_ok hp, tryInstall_of_ok hp, switchMode_setRegister_pc]
      rfl
  | error e => rw [tryInstall_of_error hp, tryInstall_of_error hp]

/-- Of two writes to R15 the last one counts. -/
theorem setRegister_pc_twice (k : Core) (v w : Word) :
    (k.setRegister Reg.pc v).setRegister Reg.pc w = k.setRegister Reg.pc w := by
  show { k with registers := (k.registers.write Reg.pc v).write Reg.pc w } = _
  have hwrite : (k.registers.write Reg.pc v).write Reg.pc w = k.registers.write Reg.pc w := by
    refine Registers.ext_read ?_
    intro r
    rw [Registers.read_write, Registers.read_write, Registers.read_write]
    by_cases hr : Reg.pc = r
    · rw [if_pos hr, if_pos hr]
    · rw [if_neg hr, if_neg hr, if_neg hr]
  rw [hwrite]
  rfl

end Core

/-- An instruction in flight that has tried to install a status in a core: a refusal is
    kept as the fault, and nothing else is different. -/
structure Execution.Tried {B : Type} (k : Core) (bus : B) (p : Psr) (x : Execution B) : Prop where
  core : x.core = k.tryInstall p
  bus : x.bus = bus
  accepted : p.HasMode → x.fault = none
  refused : ¬ p.HasMode → x.fault = some ⟨p.raw &&& 0x1F⟩

theorem Execution.tried_tryStatus {B : Type} {x : Execution B} (hx : x.fault = none) (p : Psr) :
    Tried x.core x.bus p (x.tryStatus p) := by
  refine ⟨x.core_tryStatus p, x.bus_tryStatus p, ?_, ?_⟩
  · intro h
    rw [tryStatus_of_ok h.mode?_eq]
    show (x.tellMode p.mode).fault = none
    rw [tellMode]
    by_cases hmode : x.core.mode = p.mode
    · rw [if_pos hmode, hx]
    · rw [if_neg hmode]
      exact hx
  · intro h
    rw [tryStatus_of_error (Psr.mode?_of_not_hasMode h)]

namespace Arm

variable {B : Type} {k : Core} {bus : B} {p : Psr}

/-! ## Ending an instruction that installs a status -/

/-- The core after an instruction that replaces the status. -/
def replacedCore (k : Core) (p : Psr) (rs : Registers) (next : InstructionSet → Word) : Core :=
  let k' := ({ k with registers := rs } : Core).tryInstall p
  k'.setRegister Reg.pc (next k'.instructionSet)

/-- What an instruction has left that replaces the status, once it is ended. -/
structure Replaced (k : Core) (bus : B) (p : Psr) (rs : Registers)
    (next : InstructionSet → Word) (x : Execution B) : Prop where
  core : Machine.endCore .arm x = replacedCore k p rs next
  bus : x.bus = bus
  accepted : p.HasMode → x.fault = none
  refused : ¬ p.HasMode → x.fault = some ⟨p.raw &&& 0x1F⟩

/-- A branch after the status was tried, over registers that are the same but for R15. -/
theorem replaced_branch {rs : Registers} {x : Execution B}
    (h : x.Tried { k with registers := rs } bus p) (target : Word) :
    Replaced k bus p (rs.write Reg.pc target) (·.align target) (x.branchTo target) := by
  refine ⟨?_, h.bus, h.accepted, h.refused⟩
  have hended : Machine.endCore .arm (x.branchTo target) = x.core.jump target := rfl
  have hwritten : ({ k with registers := rs.write Reg.pc target } : Core).tryInstall p
      = x.core.setRegister Reg.pc target := by
    rw [h.core]
    exact Core.tryInstall_setRegister_pc { k with registers := rs } target p
  rw [hended]
  calc x.core.jump target
      = (x.core.setRegister Reg.pc target).setRegister Reg.pc
          (x.core.instructionSet.align target) := (Core.setRegister_pc_twice _ _ _).symm
    _ = replacedCore k p (rs.write Reg.pc target) (·.align target) := by
        rw [replacedCore, hwritten]
        rfl

/-- Without a branch the next instruction comes after the status was tried. -/
theorem replaced_next {x : Execution B} (hcore : x.core = k) (hbus : x.bus = bus)
    (hfault : x.fault = none) (hflushed : x.flushed = false) (p : Psr) :
    Replaced k bus p k.registers (fun _ => k.pc + 4) (x.tryStatus p) := by
  have htried := Execution.tried_tryStatus hfault p
  rw [hcore, hbus] at htried
  have hstays : (x.tryStatus p).flushed = false :=
    (congrArg Footprint.flushed (x.footprint_tryStatus p)).trans hflushed
  refine ⟨?_, htried.bus, htried.accepted, htried.refused⟩
  rw [Machine.endCore, hstays, if_neg Bool.false_ne_true, htried.core, Core.pc_tryInstall]
  rfl

/-! ## A transfer, and a return by data processing -/

/-- The mask of a transfer to the current status. -/
theorem statusAfterMove_eq (k : Core) (value : Word) (fields : StatusFields) :
    statusAfterMove k value fields = k.cpsr.writeMasked (value ||| 0x10)
      (if k.mode = .user then fields.mask &&& 0xF0000000 else fields.mask) := by
  rw [statusAfterMove]
  cases k.mode <;> rfl

/-- What a transfer tells about the T bit stands on the trail alone. -/
theorem execute_transfer (fields : StatusFields) (operand : StatusOperand) :
    Replaced k bus (k.cpsr.writeMasked (operand.evaluate (.start k bus) ||| 0x10)
        (if k.mode = .user then fields.mask &&& 0xF0000000 else fields.mask))
      k.registers (fun _ => k.pc + 4) (moveToStatus .cpsr fields operand (.start k bus)) := by
  rw [← statusAfterMove_eq, moveToCpsr_eq]
  generalize hp : statusAfterMove k (operand.evaluate (.start k bus)) fields = p
  have hp' : statusAfterMove (Execution.start k bus).core (operand.evaluate (.start k bus)) fields
      = p := hp
  rw [hp']
  by_cases ht : p.t = (Execution.start k bus).core.cpsr.t
  · dsimp only
    rw [if_pos ht]
    exact replaced_next (x := .start k bus) rfl rfl rfl rfl p
  · dsimp only
    rw [if_neg ht]
    exact replaced_next (x := (Execution.start k bus).tell (.stateBitWritten p.t)) rfl rfl rfl rfl p

/-- Restoring the saved status is trying it. -/
theorem tried_restoreStatus {x : Execution B} (hx : x.fault = none)
    (hp : x.core.spsr? = some p) : x.restoreStatus.Tried x.core x.bus p := by
  rw [Execution.restoreStatus, hp]
  exact Execution.tried_tryStatus hx p

/-- Data processing takes no flags of its own where a status is restored. -/
theorem execute_compute (op : AluOp) (rn : Reg) (operand : Operand) (hop : op.test = false)
    (hp : k.spsr? = some p) :
    Replaced k bus p k.registers
      (fun s => s.align (op.compute (k.read rn operand.role) (operand.evaluate (.start k bus)).1
        k.cpsr.c k.cpsr.v).value)
      (dataProcessing op true rn Reg.pc operand (.start k bus)) := by
  obtain ⟨n, hn⟩ := operand.evaluate_eq (.start k bus)
  have hspsr : k.mode.hasSpsr = true := Core.hasSpsr_of_some hp
  let x : Execution B := { Execution.start k bus with internal := n }
  have htried : x.restoreStatus.Tried k bus p := tried_restoreStatus (x := x) rfl hp
  have heq : dataProcessing op true rn Reg.pc operand (.start k bus)
      = x.restoreStatus.branchTo (op.compute (k.read rn operand.role)
        (operand.evaluate (.start k bus)).1 k.cpsr.c k.cpsr.v).value := by
    rw [dataProcessing]
    dsimp only
    rw [hn, hop, if_neg Bool.false_ne_true, if_pos rfl]
    exact congrArg (Execution.branchTo · _) (if_pos ⟨rfl, hspsr⟩)
  rw [heq]
  refine ⟨?_, htried.bus, htried.accepted, htried.refused⟩
  show x.restoreStatus.core.jump _ = _
  rw [htried.core]
  rfl

end Arm

/-! ## A return by a load of a block -/

namespace Arm

variable {B : Type} [Bus B] {k : Core} {bus : B} {p : Psr}

/-- A load of a block makes its loads before the status is restored. -/
theorem execute_load (a : Addressing) (rn : Reg) (list : Half) (hpc : Reg.pc ∈ listed list)
    (hp : k.spsr? = some p) :
    Replaced k bus p (k.loadedBlock bus a rn list) (·.align (k.loadedBlock bus a rn list).pc)
      ((Execution.start k bus).transferBlock .load a true rn list) := by
  obtain ⟨rs, target, y, hloaded, hcore, hbus, hfault, heq⟩ :=
    (Execution.start k bus).transferBlock_return a rn hpc
  have htried : y.restoreStatus.Tried { k with registers := rs } bus p := by
    have h := tried_restoreStatus (p := p) hfault (by rw [hcore]; exact hp)
    rw [hcore, hbus] at h
    exact h
  have hreplaced := replaced_branch htried target
  have hloaded' : k.loadedBlock bus a rn list = rs.write Reg.pc target := hloaded
  have htarget : (k.loadedBlock bus a rn list).pc = target := by
    rw [hloaded']
    show (rs.write Reg.pc target).read Reg.pc = target
    rw [Registers.read_write, if_pos rfl]
  rw [heq, htarget, hloaded']
  exact ⟨hreplaced.core, hreplaced.bus, hreplaced.accepted, hreplaced.refused⟩

/-! ## The instructions that install a status -/

/-- An instruction replaces the status by `p`; before that the registers are `rs`, and
    afterwards it goes on at an address that may depend on the set. -/
inductive Replaces (k : Core) (bus : B) :
    Instruction → Psr → Registers → (InstructionSet → Word) → Prop where
  /-- A transfer takes the bits that it may write from its operand, with the highest bit
      of the mode field set; user mode may write the flags alone. -/
  | transfer (fields : StatusFields) (operand : StatusOperand) :
      Replaces k bus (.moveToStatus .cpsr fields operand)
        (k.cpsr.writeMasked (operand.evaluate (.start k bus) ||| 0x10)
          (if k.mode = .user then fields.mask &&& 0xF0000000 else fields.mask))
        k.registers fun _ => k.pc + 4
  /-- Data processing that writes R15 and sets the flags, where there is a saved status. -/
  | compute {p : Psr} (op : AluOp) (rn : Reg) (operand : Operand) (hop : op.test = false)
      (hp : k.spsr? = some p) :
      Replaces k bus (.dataProcessing op true rn Reg.pc operand) p k.registers
        fun s => s.align (op.compute (k.read rn operand.role) (operand.evaluate (.start k bus)).1
          k.cpsr.c k.cpsr.v).value
  /-- A load of a block with R15 and the S bit, where there is a saved status. -/
  | load {p : Psr} (a : Addressing) (rn : Reg) (list : Half) (hpc : Reg.pc ∈ listed list)
      (hp : k.spsr? = some p) :
      Replaces k bus (.blockTransfer .load a true rn list) p (k.loadedBlock bus a rn list)
        fun s => s.align (k.loadedBlock bus a rn list).pc

/-- **An instruction replaces the status whole or not at all**, and the rest of it is
    carried out either way. -/
theorem execute_of_replaces {i : Instruction} {rs : Registers} {next : InstructionSet → Word}
    (h : Replaces k bus i p rs next) (c : Condition) (raw : Word) :
    Replaced k bus p rs next (execute ⟨c, i, raw⟩ (.start k bus)) := by
  cases h with
  | transfer fields operand => exact execute_transfer fields operand
  | compute op rn operand hop hp => exact execute_compute op rn operand hop hp
  | load a rn list hpc hp => exact execute_load a rn list hpc hp

end Arm

end Armv4t
