import Armv4t.Proofs.Action
import Armv4t.Proofs.Transfer

/-! # Simulation — two instructions in flight that stay related

    Two instructions in flight that find the same, and that stay related under
    each legal action, stay related under every instruction, trapping aside.  The
    one argument serves for a single run as well: an instruction that is related
    to itself as long as it takes legal actions is a sequence of legal actions
    (`simulation_acts`).

    This module carries a relation through what the two instruction sets share:
    the loads, and the block transfer by induction on its list. -/

namespace Armv4t

variable {B C : Type} [Bus B] [Bus C]

/-- A relation between two instructions in flight that every legal action keeps, and
    under which both find the same registers, statuses and memory. -/
structure Simulation (R : Execution B → Execution C → Prop) : Prop where
  registers : ∀ {x y}, R x y → x.core.registers = y.core.registers
  cpsr : ∀ {x y}, R x y → x.core.cpsr = y.core.cpsr
  spsr : ∀ {x y}, R x y → x.core.spsr? = y.core.spsr?
  userRegister : ∀ {x y}, R x y → ∀ r, x.core.userRegister r = y.core.userRegister r
  loaded : ∀ {x y}, R x y → ∀ w s a, (x.load w s a).1 = (y.load w s a).1
  act : ∀ {x y}, R x y → ∀ a : Action, a.Legal x.core → R (a.run x) (a.run y)

/-- Taking legal actions is a simulation of an instruction by itself. -/
theorem simulation_acts (x₀ : Execution B) :
    Simulation fun x y : Execution B => x = y ∧ Acts x₀ x where
  registers := fun ⟨h, _⟩ => h ▸ rfl
  cpsr := fun ⟨h, _⟩ => h ▸ rfl
  spsr := fun ⟨h, _⟩ => h ▸ rfl
  userRegister := fun ⟨h, _⟩ _ => h ▸ rfl
  loaded := fun ⟨h, _⟩ _ _ _ => h ▸ rfl
  act := fun ⟨h, acts⟩ a legal => ⟨h ▸ rfl, acts.act a legal⟩

namespace Simulation

variable {R : Execution B → Execution C → Prop} {x : Execution B} {y : Execution C}

/-! ## The actions, one by one -/

/-- The accesses of two related instructions are the same, and leave them related. -/
theorem load (h : Simulation R) (r : R x y) (w : Width) (s : Bool) (a : Word) :
    R (x.load w s a).2 (y.load w s a).2 := h.act r (.load w s a) trivial

theorem store (h : Simulation R) (r : R x y) (w : Width) (s : Bool) (a v : Word) :
    R (x.store w s a v) (y.store w s a v) := h.act r (.store w s a v) trivial

theorem tell (h : Simulation R) (r : R x y) (e : Event) : R (x.tell e) (y.tell e) :=
  h.act r (.tell e) trivial

theorem wait (h : Simulation R) (r : R x y) (n : Int32) : R (x.wait n) (y.wait n) :=
  h.act r (.wait n) trivial

theorem scatter (h : Simulation R) (r : R x y) : R x.scatter y.scatter :=
  h.act r .scatter trivial

/-- R15 is excepted: it is written by branches only. -/
theorem setRegister (h : Simulation R) (r : R x y) (i : Reg) (v : Word) (hi : i ≠ Reg.pc) :
    R (x.setRegister i v) (y.setRegister i v) := h.act r (.setRegister i v) hi

/-- Both sides go to the same address, aligned for the set that both are in. -/
theorem branchTo (h : Simulation R) (r : R x y) (a : Word) :
    R (x.branchTo a) (y.branchTo a) := h.act r (.branchTo a) trivial

/-- A change of the status that leaves everything but the flags. -/
theorem updateFlags (h : Simulation R) (r : R x y) (f : Psr → Psr)
    (hf : ∀ p, AgreeOff Psr.flagsMask (f p).raw p.raw) :
    R (x.updateCpsr f) (y.updateCpsr f) := h.act r (.updateFlags f) hf

/-- The set changes together with R15, in one action. -/
theorem exchange (h : Simulation R) (r : R x y) (s : InstructionSet) (a : Word) :
    R ((x.updateCpsr (·.setInstructionSet s)).branchTo a)
      ((y.updateCpsr (·.setInstructionSet s)).branchTo a) := h.act r (.exchange s a) trivial

/-- MSR to the current status; only the 32-bit set has it. -/
theorem moveStatus (h : Simulation R) (r : R x y) (hs : x.core.instructionSet = .arm)
    (v : Word) (fields : Arm.StatusFields) :
    R (x.tryStatus (Arm.statusAfterMove x.core v fields))
      (y.tryStatus (Arm.statusAfterMove y.core v fields)) := h.act r (.moveStatus v fields) hs

/-- An exception return: the saved status, and R15 with it. -/
theorem restore (h : Simulation R) (r : R x y) (a : Word) :
    R (x.restoreStatus.branchTo a) (y.restoreStatus.branchTo a) := h.act r (.restore a) trivial

/-- MSR to the saved status, in a mode that has one. -/
theorem saveStatus (h : Simulation R) (r : R x y) (hs : x.core.mode.hasSpsr = true)
    (p : Psr) : R (x.withCore (x.core.saveStatus p)) (y.withCore (y.core.saveStatus p)) :=
  h.act r (.saveStatus p) hs

/-- A user register is written through the bank, from whichever mode is current. -/
theorem setUserRegister (h : Simulation R) (r : R x y) (i : Reg) (v : Word)
    (hi : i ≠ Reg.pc) :
    R (x.withCore (x.core.setUserRegister i v)) (y.withCore (y.core.setUserRegister i v)) :=
  h.act r (.setUserRegister i v) hi

/-! ## What related instructions find -/

/-- The mode stands in the status. -/
theorem mode (h : Simulation R) (r : R x y) : x.core.mode = y.core.mode :=
  congrArg Psr.mode (h.cpsr r)

/-- So does the instruction set. -/
theorem instructionSet (h : Simulation R) (r : R x y) :
    x.core.instructionSet = y.core.instructionSet :=
  congrArg Psr.instructionSet (h.cpsr r)

/-- R15 is one of the live registers. -/
theorem pc (h : Simulation R) (r : R x y) : x.core.pc = y.core.pc :=
  congrArg Registers.pc (h.registers r)

/-- Ahead of R15 by what the set says, which is the same on both sides. -/
theorem effectivePc (h : Simulation R) (r : R x y) (role : PcRole) :
    x.core.effectivePc role = y.core.effectivePc role := by
  show pipelinedPc _ role _ = pipelinedPc _ role _
  rw [h.instructionSet r, h.pc r]

/-- Any operand reads the same on both sides, in whatever role. -/
theorem read (h : Simulation R) (r : R x y) (i : Reg) (role : PcRole) :
    x.read i role = y.read i role := by
  show (if i = Reg.pc then x.core.effectivePc role else x.core.registers.read i)
    = if i = Reg.pc then y.core.effectivePc role else y.core.registers.read i
  rw [h.effectivePc r, h.registers r]

/-! ## Writing registers -/

/-- A register write is one of two legal actions, by its destination. -/
theorem writeRegister (h : Simulation R) (r : R x y) (i : Reg) (v : Word) :
    R (x.writeRegister i v) (y.writeRegister i v) := by
  rw [Execution.writeRegister, Execution.writeRegister]
  by_cases hi : i = Reg.pc
  · rw [if_pos hi, if_pos hi]
    exact h.branchTo r v
  · rw [if_neg hi, if_neg hi]
    exact h.setRegister r i v hi

/-- Where the base is R15 nothing is written, and both sides tell so. -/
theorem writeBase (h : Simulation R) (r : R x y) (i : Reg) (v : Word) :
    R (x.writeBase i v) (y.writeBase i v) := by
  rw [Execution.writeBase, Execution.writeBase]
  by_cases hi : i = Reg.pc
  · rw [if_pos hi, if_pos hi]
    exact h.tell r _
  · rw [if_neg hi, if_neg hi]
    exact h.setRegister r i v hi

/-! ## Loads -/

/-- Two loads give one value and leave related instructions. -/
def Loads (R : Execution B → Execution C → Prop) (p : Word × Execution B)
    (q : Word × Execution C) : Prop :=
  p.1 = q.1 ∧ R p.2 q.2

omit [Bus B] [Bus C] in
/-- Equal values from related instructions. -/
theorem Loads.mk {v w : Word} (hv : v = w) (r : R x y) : Loads R (v, x) (w, y) := ⟨hv, r⟩

/-- Both sides turn the same word by the same low bits of the address. -/
theorem loadWord (h : Simulation R) (r : R x y) (a : Word) :
    Loads R (x.loadWord a) (y.loadWord a) := by
  rw [Execution.loadWord_eq, Execution.loadWord_eq, h.loaded r]
  exact Loads.mk rfl (h.load r _ _ _)

/-- Both sides turn the same halfword by the lowest bit of the address. -/
theorem loadHalf (h : Simulation R) (r : R x y) (a : Word) :
    Loads R (x.loadHalf a) (y.loadHalf a) := by
  rw [Execution.loadHalf_eq, Execution.loadHalf_eq, h.loaded r]
  exact Loads.mk rfl (h.load r _ _ _)

theorem loadByte (h : Simulation R) (r : R x y) (a : Word) :
    Loads R (x.loadByte a) (y.loadByte a) :=
  ⟨h.loaded r .byte false a, h.load r _ _ _⟩

/-- The sign extends the same byte. -/
theorem loadSignedByte (h : Simulation R) (r : R x y) (a : Word) :
    Loads R (x.loadSignedByte a) (y.loadSignedByte a) := by
  rw [Execution.loadSignedByte_eq, Execution.loadSignedByte_eq, h.loaded r]
  exact Loads.mk rfl (h.load r _ _ _)

/-- At an odd address both sides load a signed byte. -/
theorem loadSignedHalf (h : Simulation R) (r : R x y) (a : Word) :
    Loads R (x.loadSignedHalf a) (y.loadSignedHalf a) := by
  rw [Execution.loadSignedHalf_eq, Execution.loadSignedHalf_eq]
  by_cases hodd : bit a 0 = true
  · rw [if_pos hodd, if_pos hodd]
    exact h.loadSignedByte r a
  · rw [if_neg hodd, if_neg hodd, h.loaded r]
    exact Loads.mk rfl (h.load r _ _ _)

theorem loadQuantity (h : Simulation R) (r : R x y) (q : Quantity) (a : Word) :
    Loads R (x.loadQuantity q a) (y.loadQuantity q a) := by
  cases q with
  | word => exact h.loadWord r a
  | byte => exact h.loadByte r a

/-- A word or a byte is stored by one access. -/
theorem storeQuantity (h : Simulation R) (r : R x y) (q : Quantity) (a v : Word) :
    R (x.storeQuantity q a v) (y.storeQuantity q a v) := by
  cases q with
  | word => exact h.store r _ _ _ _
  | byte => exact h.store r _ _ _ _

/-! ## Block transfers -/

/-- A block whose registers are those of user mode was begun in the mode that is
    still current; nothing it does before R15 changes the mode. -/
def UserMode (b : Block) (x : Execution B) : Prop := b.user = true → b.mode = x.core.mode

/-- Both sides find the same value to store, in the live registers or in the bank. -/
theorem storedValue (h : Simulation R) (r : R x y) {b : Block} (hb : UserMode b x)
    (first : Bool) (i : Reg) : x.storedValue b first i = y.storedValue b first i := by
  rw [Execution.storedValue, Execution.storedValue, h.effectivePc r]
  by_cases hu : b.user = true
  · have hx : x.core.bank.userRegister x.core.registers x.core.mode i
        = y.core.bank.userRegister y.core.registers y.core.mode i := h.userRegister r i
    rw [if_pos hu, if_pos hu, hb hu, hx, ← h.mode r]
  · rw [if_neg hu, if_neg hu, h.registers r]

/-- The stores of a block, by induction on the registers still to come. -/
theorem storeBlock (h : Simulation R) {b : Block} (list : List Reg) :
    ∀ (first : Bool) (a : Word) {x : Execution B} {y : Execution C}, R x y → UserMode b x →
      R (Execution.storeBlock b first a list x) (Execution.storeBlock b first a list y) := by
  induction list with
  | nil => intro first a x y r _; exact r
  | cons i list ih =>
      intro first a x y r hb
      rw [Execution.storeBlock, Execution.storeBlock, h.storedValue r hb]
      exact ih false (a + 4) (h.store r _ _ _ _) hb

/-- One loaded register of a block. -/
theorem acceptLoaded (h : Simulation R) (r : R x y) {b : Block} (hb : UserMode b x)
    (i : Reg) (v : Word) : R (x.acceptLoaded b i v) (y.acceptLoaded b i v) := by
  rw [Execution.acceptLoaded, Execution.acceptLoaded]
  by_cases hi : i = Reg.pc
  · rw [if_pos hi, if_pos hi]
    by_cases hr : b.restore = true
    · rw [if_pos hr, if_pos hr]
      exact h.restore r v
    · rw [if_neg hr, if_neg hr]
      exact h.branchTo r v
  · rw [if_neg hi, if_neg hi]
    by_cases hu : b.user = true
    · -- the write goes by the mode that the block remembers, which is the current one
      rw [if_pos hu, if_pos hu]
      have hx := h.setUserRegister r i v hi
      rw [Core.setUserRegister, Core.setUserRegister, ← h.mode r, ← hb hu] at hx
      exact hx
    · rw [if_neg hu, if_neg hu]
      exact h.setRegister r i v hi

omit [Bus B] in
/-- The moved base leaves the mode. -/
theorem userMode_writeBase {b : Block} (hb : UserMode b x) (rn : Reg) (v : Word) :
    UserMode b (x.writeBase rn v) := by
  intro hu
  rw [hb hu, Execution.writeBase]
  by_cases hrn : rn = Reg.pc
  · rw [if_pos hrn]
    rfl
  · rw [if_neg hrn]
    rfl

omit [Bus B] in
/-- A loaded register other than R15 leaves the mode. -/
theorem userMode_acceptLoaded {b : Block} (hb : UserMode b x) {i : Reg} (hi : i ≠ Reg.pc)
    (v : Word) : UserMode b (x.acceptLoaded b i v) := by
  intro hu
  rw [hb hu, Execution.acceptLoaded, if_neg hi, if_pos hu]
  rfl

/-- The loads of a block, by induction on the registers still to come.  A block of
    user registers never loads R15. -/
theorem loadBlock (h : Simulation R) {b : Block} (list : List Reg) :
    ∀ (first : Bool) (a : Word) {x : Execution B} {y : Execution C}, R x y → UserMode b x →
      (b.user = true → Reg.pc ∉ list) →
      R (Execution.loadBlock b first a list x) (Execution.loadBlock b first a list y) := by
  induction list with
  | nil => intro first a x y r _ _; exact r
  | cons i list ih =>
      intro first a x y r hb hpc
      have r' := h.load r .word (!first) a
      have hv := h.loaded r .word (!first) a
      have hstep : R ((x.load .word (!first) a).2.acceptLoaded b i (x.load .word (!first) a).1)
          ((y.load .word (!first) a).2.acceptLoaded b i (y.load .word (!first) a).1) := by
        rw [hv]
        exact h.acceptLoaded r' hb i _
      refine ih false (a + 4) hstep ?_ ?_
      · -- only R15 could have changed the mode
        intro hu
        have hi : i ≠ Reg.pc := fun hi => hpc hu (hi ▸ List.mem_cons_self)
        exact userMode_acceptLoaded (x := (x.load .word (!first) a).2) hb hi _ hu
      · intro hu hmem
        exact hpc hu (List.mem_cons_of_mem i hmem)

/-- Related instructions lay a block out alike. -/
theorem block (h : Simulation R) (r : R x y) (kind : TransferKind) (a : Addressing) (s : Bool)
    (rn : Reg) (list : Half) :
    x.core.block kind a s rn list = y.core.block kind a s rn list := by
  rw [Core.block, Core.block, Core.blockRange, Core.blockRange, h.registers r, h.mode r]

/-- A block transfer keeps a simulation: the base moves after the stores, and before the loads
    where the list does not name it. -/
theorem transferBlock (h : Simulation R) (r : R x y) (kind : TransferKind) (a : Addressing)
    (s : Bool) (rn : Reg) (list : Half) :
    R (x.transferBlock kind a s rn list) (y.transferBlock kind a s rn list) := by
  have hrange : x.core.blockRange a rn list = y.core.blockRange a rn list := by
    rw [Core.blockRange, Core.blockRange, h.registers r]
  cases kind with
  | store =>
      rw [Execution.transferBlock_store, Execution.transferBlock_store, hrange]
      -- the block was laid out just now, in the mode that is still current
      have hb : UserMode (x.core.block .store a s rn list) x := fun _ => rfl
      have r' := h.scatter
        (h.storeBlock (listed list) true (y.core.blockRange a rn list).1 r hb)
      rw [h.block r] at r' ⊢
      dsimp only
      by_cases hw : a.writeBack = true
      · rw [if_pos hw, if_pos hw]
        exact h.writeBase r' rn _
      · rw [if_neg hw, if_neg hw]
        exact r'
  | load =>
      rw [Execution.transferBlock_load, Execution.transferBlock_load, hrange]
      have hpc : (x.core.block .load a s rn list).user = true → Reg.pc ∉ listed list :=
        Core.pc_not_mem_of_user
      dsimp only
      by_cases hw : a.writeBack = true ∧ rn ∉ listed list
      · rw [if_pos hw, if_pos hw, h.block r]
        rw [h.block r] at hpc
        have r' := h.writeBase r rn (y.core.block .load a s rn list).moved
        have hb : UserMode (y.core.block .load a s rn list) x := fun _ => (h.mode r).symm
        exact h.wait (h.loadBlock (listed list) true _ r' (userMode_writeBase hb rn _) hpc) 1
      · rw [if_neg hw, if_neg hw]
        have r' := h.loadBlock (listed list) true (y.core.blockRange a rn list).1 r
          (fun _ => rfl) hpc
        rw [h.block r] at r' ⊢
        exact h.wait r' 1

end Simulation

end Armv4t
