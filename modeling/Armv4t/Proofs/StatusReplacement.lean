import Armv4t.Proofs.Halting
import Armv4t.Proofs.Rom
import Armv4t.Proofs.StatusInstall

/-! # Status replacement — all or nothing

    A step that replaces the current status takes over a status with a mode as it is; one
    without leaves the status and the bank alone, and only the rest of the instruction is
    carried out (`step_of_replaces`).  Where the configuration says so, a status that was
    refused ends every run from then on (`refused_status_halts`).

    The host is refused in the same way, and then nothing changes at all
    (`changeMode_all_or_nothing`, `writeStatus_all_or_nothing`, `restore_all_or_nothing`). -/

namespace Armv4t

variable {B : Type} [Bus B]

namespace Machine

/-! ## A step -/

/-- A step that tries to replace the status by `p`. -/
theorem step_of_replaces {m : Machine B} {o : Arm.Opcode} {p : Psr} {rs : Registers}
    {next : InstructionSet → Word} (hf : m.fetched = .arm o)
    (h : Arm.Replaces m.core.aligned m.bus o.instruction p rs next) :
    m.step.2.core = Arm.replacedCore m.core.aligned p rs next ∧ m.step.2.bus = m.bus
      ∧ (p.HasMode → m.step.2.host.diagnostic = m.host.diagnostic)
      ∧ (¬ p.HasMode → m.step.2.host.diagnostic = some ⟨p.raw &&& 0x1F⟩) := by
  have hset := instructionSet_of_fetched_arm hf
  obtain ⟨c, i, raw⟩ := o
  have hflight : m.flight = Arm.execute ⟨c, i, raw⟩ (.start m.core.aligned m.bus) := by
    rw [flight, hf, Fetched.execute]
  have hr := Arm.execute_of_replaces h c raw
  rw [← hflight] at hr
  have hhost := host_step m
  refine ⟨?_, ?_, ?_, ?_⟩
  · rw [core_step, hset]
    exact hr.core
  · rw [bus_step]
    exact hr.bus
  · intro hp
    rw [hhost.diagnostic, hr.accepted hp]
    rfl
  · intro hp
    rw [hhost.diagnostic, hr.refused hp]
    rfl

/-- Where the configuration says so, a refused status ends every run from then on. -/
theorem refused_status_halts {m : Machine B} {e : InvalidMode}
    (hd : m.step.2.host.diagnostic = some e)
    (hc : m.host.config.haltOnInvalidMode = true) {later : Machine B}
    (h : m.step.2.Onward later) {budget : Int32} (hb : 0 < budget) :
    ∃ j, later.execute budget = (budget, { later with
      host := { later.host with breakRequested := false, journal := j } }) := by
  have hf : m.step.2.host.Halts := by
    refine ⟨(host_step m).config ▸ hc, ?_⟩
    rw [hd]
    rfl
  exact execute_of_halts (h.halts hf) hb

/-! ## The host -/

/-- The host goes to a mode by its number, or nowhere. -/
theorem changeMode_all_or_nothing (m : Machine B) (n : Word) :
    (∀ mode : Mode, n = mode.bits → ∃ m', m.changeMode n = .ok m'
        ∧ (HostOp.changeMode n).apply m = m' ∧ m'.bus = m.bus
        ∧ m.core.Rebanked m'.core ∧ m'.core.mode = mode)
      ∧ ((∀ mode : Mode, n ≠ mode.bits) → m.changeMode n = .error ⟨n⟩
        ∧ (HostOp.changeMode n).apply m = m) := by
  rw [changeMode, HostOp.apply]
  constructor
  · rintro mode rfl
    rw [attemptMode_of_ok (Mode.ofBits_bits mode)]
    exact ⟨m.switchMode mode, rfl, rfl, (Execution.start m.core m.bus).bus_tellMode mode,
      Core.Rebanked.switchMode m.core mode, m.core.mode_switchMode mode⟩
  · intro h
    rw [attemptMode_of_error (Mode.ofBits_eq_error h)]
    exact ⟨rfl, rfl⟩

/-- The host replaces the status whole, or not at all. -/
theorem writeStatus_all_or_nothing (m : Machine B) (p : Psr) :
    (p.HasMode → ∃ m', m.writeStatus p = .ok m' ∧ (HostOp.writeStatus p).apply m = m'
        ∧ m'.bus = m.bus ∧ m.core.Installed p m.core.pc m'.core)
      ∧ (¬ p.HasMode → m.writeStatus p = .error ⟨p.raw &&& 0x1F⟩
        ∧ (HostOp.writeStatus p).apply m = m) := by
  rw [writeStatus, HostOp.apply]
  constructor
  · intro h
    rw [attemptStatus_of_ok h.mode?_eq, ← Core.tryInstall_of_ok h.mode?_eq]
    refine ⟨_, rfl, rfl, ?_, ?_⟩
    · exact (Execution.start m.core m.bus).bus_tellMode p.mode
    · -- R15 is written with what it holds
      have hinstalled := Core.installed_of_hasMode h m.core m.core.pc
      have hpc := Core.setRegister_pc (m.core.tryInstall p)
      rw [Core.pc_tryInstall] at hpc
      rw [hpc] at hinstalled
      exact hinstalled
  · intro h
    rw [attemptStatus_of_error (Psr.mode?_of_not_hasMode h)]
    exact ⟨rfl, rfl⟩

/-- The host goes on from a whole snapshot, or from where it is. -/
theorem restore_all_or_nothing (m : Machine B) (k : Core) :
    (k.cpsr.HasMode → ∃ m', m.restore k = .ok m' ∧ (HostOp.restore k).apply m = m'
        ∧ m'.bus = m.bus ∧ m'.core = k)
      ∧ (¬ k.cpsr.HasMode → m.restore k = .error ⟨k.cpsr.raw &&& 0x1F⟩
        ∧ (HostOp.restore k).apply m = m) := by
  rw [restore, HostOp.apply]
  constructor
  · intro h
    rw [attemptRestore_of_ok h.mode?_eq]
    exact ⟨_, rfl, rfl, rfl, rfl⟩
  · intro h
    rw [attemptRestore_of_error (Psr.mode?_of_not_hasMode h)]
    exact ⟨rfl, rfl⟩

/-- **The status is replaced whole or not at all.**  A step that carries out a transfer to
    the status, or a return by data processing or by a load of a block, leaves the bus
    alone.  Where the status has a mode it is taken over as it is, over the registers that
    the instruction has by then.  Where it has none, R15 goes on in the old set, the
    status, the bank and all other registers stay, and the mode field is what the host
    finds; a machine that halts on it executes nothing more, until the host takes it or
    resets the machine.  What the host asks for itself is done whole or not at all. -/
theorem status_is_replaced_whole_or_not_at_all (m : Machine B) :
    (∀ (o : Arm.Opcode) (p : Psr) (rs : Registers) (next : InstructionSet → Word),
      m.fetched = .arm o → Arm.Replaces m.core.aligned m.bus o.instruction p rs next →
      let k : Core := { m.core with registers := rs }
      m.step.2.bus = m.bus
        ∧ (p.HasMode → k.Installed p (next p.instructionSet) m.step.2.core
          ∧ m.step.2.host.diagnostic = m.host.diagnostic)
        ∧ (¬ p.HasMode → m.step.2.core = k.setRegister Reg.pc (next .arm)
          ∧ m.step.2.host.diagnostic = some ⟨p.raw &&& 0x1F⟩
          ∧ (m.host.config.haltOnInvalidMode = true →
            ∀ later, m.step.2.Onward later → ∀ budget : Int32, 0 < budget →
              ∃ j, later.execute budget = (budget, { later with
                host := { later.host with breakRequested := false, journal := j } }))))
      ∧ (∀ n : Word,
        (∀ mode : Mode, n = mode.bits → ∃ m', m.changeMode n = .ok m'
          ∧ (HostOp.changeMode n).apply m = m' ∧ m'.bus = m.bus
          ∧ m.core.Rebanked m'.core ∧ m'.core.mode = mode)
        ∧ ((∀ mode : Mode, n ≠ mode.bits) → m.changeMode n = .error ⟨n⟩
          ∧ (HostOp.changeMode n).apply m = m))
      ∧ (∀ p : Psr,
        (p.HasMode → ∃ m', m.writeStatus p = .ok m' ∧ (HostOp.writeStatus p).apply m = m'
          ∧ m'.bus = m.bus ∧ m.core.Installed p m.core.pc m'.core)
        ∧ (¬ p.HasMode → m.writeStatus p = .error ⟨p.raw &&& 0x1F⟩
          ∧ (HostOp.writeStatus p).apply m = m))
      ∧ ∀ k : Core,
        (k.cpsr.HasMode → ∃ m', m.restore k = .ok m' ∧ (HostOp.restore k).apply m = m'
          ∧ m'.bus = m.bus ∧ m'.core = k)
        ∧ (¬ k.cpsr.HasMode → m.restore k = .error ⟨k.cpsr.raw &&& 0x1F⟩
          ∧ (HostOp.restore k).apply m = m) := by
  refine ⟨?_, m.changeMode_all_or_nothing, m.writeStatus_all_or_nothing,
    m.restore_all_or_nothing⟩
  intro o p rs next hf h k
  obtain ⟨hcore, hbus, haccepted, hrefused⟩ := step_of_replaces hf h
  refine ⟨hbus, ?_, ?_⟩
  · intro hp
    refine ⟨?_, haccepted hp⟩
    have hset : (k.tryInstall p).instructionSet = p.instructionSet :=
      congrArg Psr.instructionSet (Core.cpsr_tryInstall hp k)
    rw [hcore, Arm.replacedCore]
    show k.Installed p _ ((k.tryInstall p).setRegister Reg.pc
      (next (k.tryInstall p).instructionSet))
    rw [hset]
    exact Core.installed_of_hasMode hp k _
  · intro hp
    have hdiagnostic := hrefused hp
    refine ⟨?_, hdiagnostic, ?_⟩
    · have hset : k.instructionSet = .arm := instructionSet_of_fetched_arm hf
      rw [hcore, Arm.replacedCore]
      show (k.tryInstall p).setRegister Reg.pc (next (k.tryInstall p).instructionSet) = _
      rw [Core.tryInstall_of_not_hasMode hp, hset]
    · intro hc later honward budget hb
      exact refused_status_halts hdiagnostic hc honward hb

/-- `LDMIA R13!, {R0, R8, R15}^` in supervisor mode, whose saved status holds no mode: the
    loads, the moved base and the branch are made, and nothing else.  `MSR CPSR_c, #1`
    goes to FIQ mode, and the other R13 is put away. -/
theorem status_is_replaced_whole_or_not_at_all_of_load_and_transfer :
    let m := Rom.haltingMachine [0xE8FD8101, 7, 0x46]
    let n := (Rom.haltingMachine [0xE321F001]).write Reg.sp 9
    m.step.2.core.cpsr = m.core.cpsr ∧ m.step.2.core.bank = m.core.bank
      ∧ m.step.2.core.registers.read 0 = 0xE8FD8101 ∧ m.step.2.core.registers.read 8 = 7
      ∧ m.step.2.core.registers.read Reg.sp = 12 ∧ m.step.2.core.pc = 0x44
      ∧ m.step.2.host.diagnostic = some ⟨0⟩
      ∧ (∀ later, m.step.2.Onward later → ∀ budget : Int32, 0 < budget →
        ∃ j, later.execute budget = (budget, { later with
          host := { later.host with breakRequested := false, journal := j } }))
      ∧ n.step.2.core.cpsr = ⟨0x11⟩ ∧ n.step.2.core.registers.read Reg.sp = 0
      ∧ n.step.2.core.view .supervisor HighReg.sp = 9 := by
  intro m n
  have hload : (Rom.haltingMachine [0xE8FD8101, 7, 0x46]).fetched
      = .arm ⟨.al, .blockTransfer .load ⟨.post, .up, true⟩ true Reg.sp 0x8101, 0xE8FD8101⟩ := rfl
  have hspsr : (Rom.haltingMachine [0xE8FD8101, 7, 0x46]).core.aligned.spsr? = some ⟨0⟩ := rfl
  have htransfer : ((Rom.haltingMachine [0xE321F001]).write Reg.sp 9).fetched
      = .arm ⟨.al, .moveToStatus .cpsr ⟨true, false⟩ (.immediate ⟨1, 0⟩), 0xE321F001⟩ := rfl
  obtain ⟨-, -, hrefused⟩ := (status_is_replaced_whole_or_not_at_all m).1 _ ⟨0⟩ _ _ hload
    (.load _ _ _ (by decide) hspsr)
  obtain ⟨-, haccepted, -⟩ := (status_is_replaced_whole_or_not_at_all n).1 _ _ _ _ htransfer
    (.transfer ⟨true, false⟩ (.immediate ⟨1, 0⟩))
  obtain ⟨hcore, hdiagnostic, hhalts⟩ := hrefused (by rintro ⟨mode, hmode⟩; cases hmode)
  obtain ⟨hinstalled, -⟩ := haccepted ⟨.fiq, by decide +kernel⟩
  refine ⟨?_, ?_, ?_, ?_, ?_, ?_, hdiagnostic, hhalts rfl, ?_, ?_, ?_⟩
  · rw [hcore]; rfl
  · rw [hcore]; rfl
  · rw [hcore]; decide +kernel
  · rw [hcore]; decide +kernel
  · rw [hcore]; decide +kernel
  · rw [hcore]; decide +kernel
  · rw [hinstalled.cpsr]; decide +kernel
  · rw [show Reg.sp = HighReg.sp.wide from rfl, hinstalled.live]; decide +kernel
  · rw [hinstalled.views]; decide +kernel

/-- Two things are not kept.  After a reset runs go on, though nobody has taken the fault;
    and a load of R15 alone that moves its base leaves supervisor mode with another R13,
    which was not loaded. -/
theorem reset_forgets_fault_and_base_is_moved :
    let m := Rom.haltingMachine [0xE321F004]
    let n := (Rom.haltingMachine [0xE8FD8000]).setSpsr .supervisor (.ofMode .user)
    m.step.2.host.diagnostic = some ⟨0x14⟩ ∧ (m.step.2.execute 3).1 = 3
      ∧ (m.step.2.reset.execute 3).1 = 2
      ∧ (m.step.2.reset.execute 3).2.host.instructions = 1
      ∧ n.step.2.core.cpsr = .ofMode .user ∧ Reg.sp ∉ registersIn 0x8000
      ∧ n.core.view .supervisor HighReg.sp = 0
      ∧ n.step.2.core.view .supervisor HighReg.sp = 4 := by
  refine ⟨?_, ?_, ?_, ?_, ?_, ?_, ?_, ?_⟩ <;> decide +kernel

end Machine

end Armv4t
