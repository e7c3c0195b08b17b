import Armv4t.Proofs.Confinement
import Armv4t.Proofs.Lockstep

/-! # Secrecy — user mode cannot read what is banked

    Confinement says what user mode may write.  Here is what it may read: two cores in
    user mode that differ in their banks at most (`Core.Veiled`) are the same to a
    program, though three kinds of instruction go through the bank.

    * A saved status is none in user mode, so that reading it, writing it and returning
      to it never get as far as the bank.
    * The registers of user mode are the live ones, so that a transfer of them moves live
      registers, and what is kept of them in the bank is dead.
    * A status that user mode installs keeps its mode, so that no register is exchanged.

    So the veil is a congruence (`Core.congruence_veiled`), and machines behind it stay in
    lockstep until one of them traps, at which step both do
    (`Machine.user_mode_cannot_read_bank`). -/

namespace Armv4t

/-- Two cores in user mode that differ in their banks at most. -/
structure Core.Veiled (k l : Core) : Prop where
  registers : k.registers = l.registers
  cpsr : k.cpsr = l.cpsr
  user : k.cpsr.mode? = .ok .user

namespace Core.Veiled

variable {k l : Core}

theorem mode_left (h : k.Veiled l) : k.mode = .user := Psr.mode_eq_of_mode? h.user

theorem mode_right (h : k.Veiled l) : l.mode = .user :=
  Psr.mode_eq_of_mode? (h.cpsr ▸ h.user)

/-- Neither has a saved status. -/
theorem spsr?_eq (h : k.Veiled l) : k.spsr? = none ∧ l.spsr? = none := by
  constructor
  · rw [Core.spsr?, h.mode_left, Bank.spsr?]
  · rw [Core.spsr?, h.mode_right, Bank.spsr?]

/-- Both see their live registers as those of user mode. -/
theorem userRegister_eq (h : k.Veiled l) (r : Reg) : k.userRegister r = l.userRegister r := by
  rw [Core.userRegister, Core.userRegister, Bank.userRegister, Bank.userRegister, h.mode_left,
    h.mode_right, Bank.userSlot?_user, h.registers]

/-- A transfer to the status comes out the same. -/
theorem statusAfterMove_eq (h : k.Veiled l) (value : Word) (fields : Arm.StatusFields) :
    Arm.statusAfterMove k value fields = Arm.statusAfterMove l value fields := by
  rw [Arm.statusAfterMove, Arm.statusAfterMove, h.mode_left, h.mode_right, h.cpsr]

/-- A write to one register on both sides. -/
theorem setRegister (h : k.Veiled l) (i : Reg) (v : Word) :
    (k.setRegister i v).Veiled (l.setRegister i v) :=
  ⟨congrArg (·.write i v) h.registers, h.cpsr, h.user⟩

/-- One status on both sides, where it is one of user mode. -/
theorem setCpsr (h : k.Veiled l) {p : Psr} (hp : p.mode? = .ok .user) :
    (k.setCpsr p).Veiled (l.setCpsr p) :=
  ⟨h.registers, rfl, hp⟩

/-- A branch on both sides. -/
theorem jump (h : k.Veiled l) (target : Word) : (k.jump target).Veiled (l.jump target) := by
  have hset : k.instructionSet = l.instructionSet := congrArg Psr.instructionSet h.cpsr
  rw [Core.jump, Core.jump, hset]
  exact h.setRegister Reg.pc _

/-- A status of user mode is installed without an exchange of registers. -/
theorem tryInstall (h : k.Veiled l) {p : Psr} (hp : p.mode? = .ok .user) :
    (k.tryInstall p).Veiled (l.tryInstall p) := by
  rw [Core.tryInstall_of_ok hp, Core.tryInstall_of_ok hp, Core.switchMode_of_eq h.mode_left,
    Core.switchMode_of_eq h.mode_right]
  exact h.setCpsr hp

/-- **No legal action lifts the veil.** -/
theorem onCore (h : k.Veiled l) (a : Action) (legal : a.Legal k) :
    (a.onCore k).Veiled (a.onCore l) := by
  have huser : (a.onCore k).cpsr.mode? = .ok .user :=
    (a.confined_onCore legal h.user).mode?_eq.trans h.user
  cases a with
  | load | store | tell | wait | scatter => exact h
  | setRegister i v => exact h.setRegister i v
  | branchTo target => exact h.jump target
  | updateFlags f =>
      show (k.setCpsr (f k.cpsr)).Veiled (l.setCpsr (f l.cpsr))
      rw [← h.cpsr]
      exact h.setCpsr huser
  | exchange s target =>
      show ((k.setCpsr (k.cpsr.setInstructionSet s)).jump target).Veiled
        ((l.setCpsr (l.cpsr.setInstructionSet s)).jump target)
      rw [← h.cpsr]
      exact (h.setCpsr huser).jump target
  | moveStatus value fields =>
      show (k.tryInstall (Arm.statusAfterMove k value fields)).Veiled
        (l.tryInstall (Arm.statusAfterMove l value fields))
      rw [← h.statusAfterMove_eq]
      have hflags := Arm.statusAfterMove_agreeOff h.mode_left value fields
      exact h.tryInstall ((Psr.mode?_eq_of_agreeOff hflags (by decide)).trans h.user)
  | restore target =>
      -- there is no saved status to return to, and the branch is all
      show (k.restored.jump target).Veiled (l.restored.jump target)
      rw [Core.restored_of_none h.spsr?_eq.1, Core.restored_of_none h.spsr?_eq.2]
      exact h.jump target
  | saveStatus p =>
      have hhas : k.mode.hasSpsr = true := legal
      rw [h.mode_left] at hhas
      exact nomatch hhas
  | setUserRegister i v =>
      have hlive (c : Core) (hc : c.mode = .user) : c.setUserRegister i v = c.setRegister i v := by
        rw [Core.setUserRegister, hc, Bank.setUserRegister, Bank.userSlot?_user]
        rfl
      show (k.setUserRegister i v).Veiled (l.setUserRegister i v)
      rw [hlive k h.mode_left, hlive l h.mode_right]
      exact h.setRegister i v

end Core.Veiled

/-- A program finds the same behind the veil, and whatever it does leaves it so. -/
theorem Core.congruence_veiled : Core.Congruence Core.Veiled where
  registers := fun h => h.registers
  cpsr := fun h => h.cpsr
  spsr := fun h => h.spsr?_eq.1.trans h.spsr?_eq.2.symm
  userRegister := fun h => h.userRegister_eq
  setPc := fun h pc => h.setRegister Reg.pc pc
  act := fun h a legal => h.onCore a legal

namespace Machine

variable {B : Type} [Bus B] {m m' : Machine B}

/-- In user mode a step traps exactly where its instruction is one that traps. -/
theorem trapped_iff (hu : m.core.cpsr.mode? = .ok .user) :
    m.core.Trapped m.step.2.core ↔ m.trap? ≠ none := by
  constructor
  · intro htrapped ht
    exact (confined_step hu ht).not_trapped hu htrapped
  · intro ht
    obtain ⟨e, he⟩ := Option.ne_none_iff_exists'.mp ht
    exact trapped_step ⟨.user, hu⟩ he

/-- What two machines have in common whose banks alone differ: the veil over their cores,
    the bus, and the last code fetch. -/
structure SameView (m m' : Machine B) : Prop where
  lockstep : Lockstep Core.Veiled Eq m m'
  lastFetch : m.host.lastFetch = m'.host.lastFetch

namespace SameView

omit [Bus B] in
theorem user (h : SameView m m') : m.core.cpsr.mode? = .ok .user := h.lockstep.core.user

omit [Bus B] in
theorem user_right (h : SameView m m') : m'.core.cpsr.mode? = .ok .user :=
  h.lockstep.core.cpsr ▸ h.user

/-- The next instruction traps on both or on neither. -/
theorem trap?_eq (h : SameView m m') : m.trap? = m'.trap? :=
  h.lockstep.trap? Core.congruence_veiled Bus.bisimulation_eq

theorem trapped_iff (h : SameView m m') :
    m.core.Trapped m.step.2.core ↔ m'.core.Trapped m'.step.2.core := by
  rw [Machine.trapped_iff h.user, Machine.trapped_iff h.user_right, h.trap?_eq]

/-- An instruction that does not trap goes the same way on both. -/
theorem flight (h : SameView m m') (ht : m.trap? = none) :
    Twinned Core.Veiled Eq m.flight m'.flight :=
  h.lockstep.flight Core.congruence_veiled Bus.bisimulation_eq ht

/-- A step that does not trap leaves the same view. -/
theorem step (h : SameView m m') (ht : m.trap? = none) : SameView m.step.2 m'.step.2 where
  lockstep := h.lockstep.step Core.congruence_veiled (h.flight ht)
  lastFetch := h.lockstep.lastFetch_step Core.congruence_veiled (h.flight ht)

/-- It takes as long on both. -/
theorem cycles (h : SameView m m') (ht : m.trap? = none) : m.step.1 = m'.step.1 :=
  h.lockstep.cycles_step Core.congruence_veiled (h.flight ht) h.lastFetch
    (congrArg Bus.cost (h.step ht).lockstep.bus)

/-- The view stays the same in a run, up to its first trap; by induction on the steps. -/
theorem after (h : SameView m m') {n : Nat} (ht : ∀ i < n, (m.after i).trap? = none) :
    SameView (m.after n) (m'.after n) := by
  induction n with
  | zero => exact h
  | succ n ih =>
      have hn := ih fun i hi => ht i (Nat.lt_succ_of_lt hi)
      rw [after_succ, after_succ]
      exact hn.step (ht n (Nat.lt_succ_self n))

end SameView

/-- A run in user mode in which no step traps consists of instructions that do not trap,
    by induction on the steps: none of them leaves user mode. -/
theorem trap?_eq_none_of_not_trapped (hu : m.core.cpsr.mode? = .ok .user) {n : Nat}
    (h : ∀ i < n, ¬ (m.after i).core.Trapped (m.after (i + 1)).core) :
    ∀ i < n, (m.after i).trap? = none ∧ (m.after i).core.cpsr.mode? = .ok .user := by
  have hnext {i : Nat} (hi : i < n) (hui : (m.after i).core.cpsr.mode? = .ok .user) :
      (m.after i).trap? = none := by
    have hnot := h i hi
    rw [after_succ, trapped_iff hui, not_not] at hnot
    exact hnot
  intro i
  induction i with
  | zero =>
      intro hi
      exact ⟨hnext hi hu, hu⟩
  | succ i ih =>
      intro hi
      obtain ⟨hti, hui⟩ := ih (Nat.lt_of_succ_lt hi)
      have hui' : (m.after (i + 1)).core.cpsr.mode? = .ok .user := by
        rw [after_succ]
        exact (confined_step hui hti).mode?_eq.trans hui
      exact ⟨hnext hi hui', hui'⟩

/-- **User mode cannot read what is banked.**  Of two machines in user mode with the same
    live registers, status, bus and last code fetch, and any banks, let the first one make
    `n` steps without a trap.  Then before each of these steps and after them all the live
    registers, the status and the bus are the same on both; every one of the steps makes the
    same accesses and takes as long; and each step, the one after them included, traps on
    both machines or on neither. -/
theorem user_mode_cannot_read_bank (hregisters : m.core.registers = m'.core.registers)
    (hcpsr : m.core.cpsr = m'.core.cpsr) (hu : m.core.cpsr.mode? = .ok .user)
    (hbus : m.bus = m'.bus) (hfetch : m.host.lastFetch = m'.host.lastFetch) (n : Nat)
    (hn : ∀ i < n, ¬ (m.after i).core.Trapped (m.after (i + 1)).core) :
    (∀ i ≤ n, (m.after i).core.registers = (m'.after i).core.registers
        ∧ (m.after i).core.cpsr = (m'.after i).core.cpsr
        ∧ (m.after i).bus = (m'.after i).bus
        ∧ ((m.after i).core.Trapped (m.after (i + 1)).core
          ↔ (m'.after i).core.Trapped (m'.after (i + 1)).core))
      ∧ ∀ i < n, (m.after i).flight.footprint = (m'.after i).flight.footprint
        ∧ (m.after i).step.1 = (m'.after i).step.1 := by
  have hview : SameView m m' := ⟨⟨⟨hregisters, hcpsr, hu⟩, hbus⟩, hfetch⟩
  have htrap := trap?_eq_none_of_not_trapped hu hn
  have hafter {i : Nat} (hi : i ≤ n) : SameView (m.after i) (m'.after i) :=
    hview.after fun j hj => (htrap j (Nat.lt_of_lt_of_le hj hi)).1
  constructor
  · intro i hi
    have h := hafter hi
    refine ⟨h.lockstep.core.registers, h.lockstep.core.cpsr, h.lockstep.bus, ?_⟩
    rw [after_succ, after_succ]
    exact h.trapped_iff
  · intro i hi
    have h := hafter (Nat.le_of_lt hi)
    have ht := (htrap i hi).1
    exact ⟨(h.flight ht).footprint, h.cycles ht⟩

/-- A program that tries each way into the bank: it reads the saved status and writes it,
    stores the registers of user mode and loads them back, and loads R15 with a return from
    an exception, into a software interrupt. -/
def bankProbe : List Word :=
  [0xE3A01040,    -- MOV R1, #0x40
   0xE3A09020,    -- MOV R9, #0x20
   0xE14F0000,    -- MRS R0, SPSR
   0xE16FF000,    -- MSR SPSR_fsxc, R0
   0xE8C17F00,    -- STMIA R1, {R8-R14}^
   0xE8D17F00,    -- LDMIA R1, {R8-R14}^
   0xE8D18001,    -- LDMIA R1, {R0, R15}^
   0, 0xEF000000] -- SWI #0

/-- The probe finds nothing: over two banks that differ in everything its seven steps have
    the same effects, and then it traps on both. -/
theorem user_mode_cannot_read_bank_of_probe :
    let pair : PairBank := ⟨1, 2, ⟨0x1F⟩⟩
    let secret : Bank :=
      ⟨Vector.replicate 7 3, ⟨Vector.replicate 7 4, ⟨0x10⟩⟩, pair, pair, pair, pair⟩
    let m := Metered.machine bankProbe (fun _ _ _ => 1) .user
    let m' := { m with core := { m.core with bank := secret } }
    m.core.bank ≠ m'.core.bank
      ∧ (m.after 7).core.registers = (m'.after 7).core.registers
      ∧ (m.after 7).core.pc = 0x20
      ∧ (m.after 7).core.Trapped (m.after 8).core
      ∧ (m'.after 7).core.Trapped (m'.after 8).core := by
  intro pair secret m m'
  have hu : m.core.cpsr.mode? = .ok .user := by decide +kernel
  have hquiet : ∀ i < 7, (m.after i).trap? = none
      ∧ (m.after i).core.cpsr.mode? = .ok .user := by decide +kernel
  have huntrapped : ∀ i < 7, ¬ (m.after i).core.Trapped (m.after (i + 1)).core := by
    intro i hi
    obtain ⟨ht, hui⟩ := hquiet i hi
    rw [after_succ, trapped_iff hui, ht]
    exact not_not.mpr rfl
  obtain ⟨hsame, -⟩ := @user_mode_cannot_read_bank Metered _ m m' rfl rfl hu rfl rfl 7
    huntrapped
  obtain ⟨hregisters, -, -, htraps⟩ := hsame 7 (Nat.le_refl 7)
  have htrapped : (m.after 7).core.Trapped (m.after 8).core := by
    have hswi : (m.after 7).trap? = some .softwareInterrupt := by decide +kernel
    rw [after_succ]
    exact trapped_step ⟨.user, by decide +kernel⟩ hswi
  exact ⟨by decide +kernel, hregisters, by decide +kernel, htrapped, htraps.mp htrapped⟩

end Machine

end Armv4t
