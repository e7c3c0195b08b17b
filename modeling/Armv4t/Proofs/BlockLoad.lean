import Armv4t.Proofs.Action
import Armv4t.Proofs.Banking
import Armv4t.Proofs.Transfer

/-! # Block loads — registers from successive words

    A block that is loaded into the registers of the current mode puts into each register
    the word at its place in the list, and leaves everything else alone
    (`Registers.loaded`, `loadBlock_current`).

    R15 comes last.  A block that returns from an exception restores the saved status
    between that load and the branch, so that all loads are made in the old mode
    (`loadBlock_return`), and so is the move of the base (`transferBlock_return`). -/

namespace Armv4t

namespace Registers

variable {rs : Registers} {word : Word → Word} {a : Word} {r : Reg} {list : List Reg}

/-- The file with some registers loaded from successive words. -/
def loaded (rs : Registers) (word : Word → Word) (a : Word) (list : List Reg) : Registers :=
  Vector.ofFn fun r =>
    if r ∈ list then word (a + 4 * UInt32.ofNat (list.idxOf r)) else rs.read r

theorem read_loaded (rs : Registers) (word : Word → Word) (a : Word) (list : List Reg) (r : Reg) :
    (rs.loaded word a list).read r
      = if r ∈ list then word (a + 4 * UInt32.ofNat (list.idxOf r)) else rs.read r := by
  simp only [read, loaded, Fin.getElem_fin, Vector.getElem_ofFn]

theorem loaded_nil (rs : Registers) (word : Word → Word) (a : Word) :
    rs.loaded word a [] = rs := by
  refine ext_read ?_
  intro r
  rw [read_loaded, if_neg List.not_mem_nil]

/-- The first register may be loaded before the others. -/
theorem loaded_cons (h : r ∉ list) :
    rs.loaded word a (r :: list) = (rs.write r (word a)).loaded word (a + 4) list := by
  refine ext_read ?_
  intro i
  rw [read_loaded, read_loaded, read_write]
  by_cases hi : r = i
  · rw [← hi, if_pos List.mem_cons_self, if_neg h, if_pos rfl, List.idxOf_cons_self]
    exact congrArg word (UInt32.add_zero a)
  · by_cases hmem : i ∈ list
    · rw [if_pos (List.mem_cons_of_mem r hmem), if_pos hmem, List.idxOf_cons_ne list hi,
        wordAddress_succ]
    · have hcons : i ∉ r :: list := fun hc => (List.mem_cons.mp hc).elim (fun h => hi h.symm) hmem
      rw [if_neg hcons, if_neg hmem, if_neg hi]

/-- The last register may be loaded after the others. -/
theorem loaded_concat (h : r ∉ list) :
    rs.loaded word a (list ++ [r])
      = (rs.loaded word a list).write r (word (a + 4 * UInt32.ofNat list.length)) := by
  refine ext_read ?_
  intro i
  rw [read_write, read_loaded, read_loaded]
  by_cases hi : r = i
  · rw [← hi, if_pos (List.mem_append_right list List.mem_cons_self), if_pos rfl,
      List.idxOf_append_of_notMem h, List.idxOf_cons_self, Nat.add_zero]
  · rw [if_neg hi]
    by_cases hmem : i ∈ list
    · rw [if_pos (List.mem_append_left [r] hmem), if_pos hmem, List.idxOf_append_of_mem hmem]
    · have hconcat : i ∉ list ++ [r] := by
        intro hc
        rcases List.mem_append.mp hc with hc | hc
        · exact hmem hc
        · exact hi (List.mem_singleton.mp hc).symm
      rw [if_neg hconcat, if_neg hmem]

end Registers

namespace Execution

variable {B : Type} [Bus B] {b : Block}

/-- The word that a block loads from an address. -/
def wordAt (bus : B) (a : Word) : Word := Bus.read bus .word (alignWord a)

/-- An instruction in flight that has loaded some registers, and nothing else but the
    accesses on its trail. -/
structure Loaded (x : Execution B) (a : Word) (list : List Reg) (y : Execution B) : Prop where
  core : y.core
    = { x.core with registers := x.core.registers.loaded (wordAt x.bus) a list }
  bus : y.bus = x.bus
  fault : y.fault = x.fault

/-- The registers before R15, by induction on the list: each load leaves the same bus to
    the next one. -/
theorem loadBlock_current (hu : b.user = false) (list : List Reg) (hn : list.Nodup)
    (hpc : Reg.pc ∉ list) (first : Bool) (a : Word) (x : Execution B) :
    Loaded x a list (loadBlock b first a list x) := by
  induction list generalizing first a x with
  | nil =>
      refine ⟨?_, rfl, rfl⟩
      rw [Registers.loaded_nil]
      rfl
  | cons r list ih =>
      obtain ⟨hr, hn'⟩ := List.nodup_cons.mp hn
      have hr' : r ≠ Reg.pc := fun h => hpc (h ▸ List.mem_cons_self)
      have hpc' : Reg.pc ∉ list := fun h => hpc (List.mem_cons_of_mem r h)
      -- one load, and the register is written plain
      let x' := (x.load .word (!first) a).2.setRegister r (wordAt x.bus a)
      have hone : loadBlock b first a (r :: list) x = loadBlock b false (a + 4) list x' := by
        rw [loadBlock]
        dsimp only
        rw [acceptLoaded, if_neg hr', hu, if_neg Bool.false_ne_true]
        rfl
      have h := ih hn' hpc' false (a + 4) x'
      rw [hone]
      refine ⟨?_, h.bus, h.fault⟩
      rw [h.core, Registers.loaded_cons hr]
      rfl

/-- Loads one after the other. -/
theorem loadBlock_concat (b : Block) (list : List Reg) (r : Reg) (first : Bool) (a : Word)
    (x : Execution B) :
    ∃ sequential, loadBlock b first a (list ++ [r]) x
      = let y := loadBlock b first a list x
        let (v, z) := y.load .word sequential (a + 4 * UInt32.ofNat list.length)
        z.acceptLoaded b r v := by
  induction list generalizing first a x with
  | nil =>
      refine ⟨!first, ?_⟩
      have ha : a + 4 * UInt32.ofNat ([] : List Reg).length = a := UInt32.add_zero a
      rw [ha]
      rfl
  | cons i list ih =>
      obtain ⟨sequential, hseq⟩ := ih false (a + 4)
        (((x.load .word (!first) a).2).acceptLoaded b i (x.load .word (!first) a).1)
      refine ⟨sequential, ?_⟩
      rw [List.length_cons, wordAddress_succ]
      exact hseq

/-- **A block that returns from an exception** loads its registers into the old mode,
    restores the saved status, and branches to the word that was loaded last. -/
theorem loadBlock_return (hu : b.user = false) (hr : b.restore = true) {list : List Reg}
    (hn : list.Nodup) (hpc : Reg.pc ∉ list) (first : Bool) (a : Word) (x : Execution B) :
    ∃ y, Loaded x a list y ∧ loadBlock b first a (list ++ [Reg.pc]) x
      = y.restoreStatus.branchTo (wordAt x.bus (a + 4 * UInt32.ofNat list.length)) := by
  obtain ⟨sequential, hseq⟩ := loadBlock_concat b list Reg.pc first a x
  have h := loadBlock_current hu list hn hpc first a x
  refine ⟨((loadBlock b first a list x).load .word sequential
    (a + 4 * UInt32.ofNat list.length)).2, ⟨h.core, h.bus, h.fault⟩, ?_⟩
  rw [hseq]
  dsimp only
  rw [acceptLoaded, if_pos rfl, hr, if_pos rfl, ← h.bus]
  rfl

end Execution

/-! ## A transfer that returns from an exception -/

/-- The registers before a block is loaded: the base is moved, unless it is loaded itself. -/
def Core.blockBase (k : Core) (a : Addressing) (rn : Reg) (list : Half) : Registers :=
  if a.writeBack ∧ rn ∉ listed list then k.registers.write rn (k.blockRange a rn list).2
  else k.registers

/-- The registers once a block is loaded. -/
def Core.loadedBlock {B : Type} [Bus B] (k : Core) (bus : B) (a : Addressing) (rn : Reg)
    (list : Half) : Registers :=
  (k.blockBase a rn list).loaded (Execution.wordAt bus) (k.blockRange a rn list).1 (listed list)

namespace Execution

variable {B : Type}

/-- A base that is not R15 is moved in the registers alone, before anything is loaded. -/
theorem moveBlockBase_of_ne (x : Execution B) (a : Addressing) {rn : Reg} {list : Half}
    (hrn : rn ∉ listed list → rn ≠ Reg.pc) :
    (if a.writeBack ∧ rn ∉ listed list then x.writeBase rn (x.core.blockRange a rn list).2 else x)
      = x.withCore { x.core with registers := x.core.blockBase a rn list } := by
  rw [Core.blockBase]
  by_cases hw : a.writeBack = true ∧ rn ∉ listed list
  · rw [if_pos hw, if_pos hw, writeBase, if_neg (hrn hw.2)]
    rfl
  · rw [if_neg hw, if_neg hw]
    rfl

/-- A block that loads R15 never moves R15 as its base. -/
theorem moveBlockBase (x : Execution B) (a : Addressing) (rn : Reg) {list : Half}
    (hpc : Reg.pc ∈ listed list) :
    (if a.writeBack ∧ rn ∉ listed list then x.writeBase rn (x.core.blockRange a rn list).2 else x)
      = x.withCore { x.core with registers := x.core.blockBase a rn list } :=
  x.moveBlockBase_of_ne a fun hrn h => hrn (h ▸ hpc)

variable [Bus B]

/-- All of the transfer but R15 comes before the saved status is restored, and the branch
    comes after it. -/
theorem transferBlock_return (x : Execution B) (a : Addressing) (rn : Reg) {list : Half}
    (hpc : Reg.pc ∈ listed list) :
    ∃ (rs : Registers) (target : Word) (y : Execution B),
      x.core.loadedBlock x.bus a rn list = rs.write Reg.pc target
      ∧ y.core = { x.core with registers := rs } ∧ y.bus = x.bus ∧ y.fault = x.fault
      ∧ x.transferBlock .load a true rn list = (y.restoreStatus.branchTo target).wait 1 := by
  obtain ⟨before, hbefore, hn, hpc'⟩ := listed_of_pc hpc
  let start := (x.core.blockRange a rn list).1
  let z := x.withCore { x.core with registers := x.core.blockBase a rn list }
  have huser : (x.core.block .load a true rn list).user = false :=
    Bool.eq_false_of_not_eq_true fun h => Core.pc_not_mem_of_user h hpc
  obtain ⟨y, hy, heq⟩ := loadBlock_return huser rfl hn hpc' true start z
  refine ⟨_, wordAt x.bus (start + 4 * UInt32.ofNat before.length), y, ?_, hy.core, hy.bus,
    hy.fault, ?_⟩
  · rw [Core.loadedBlock, hbefore, Registers.loaded_concat hpc']
    rfl
  · rw [transferBlock_load]
    show (loadBlock _ true start (listed list)
      (if a.writeBack ∧ rn ∉ listed list then x.writeBase rn (x.core.blockRange a rn list).2
        else x)).wait 1 = _
    rw [x.moveBlockBase a rn hpc, hbefore, heq]
    rfl

end Execution

end Armv4t
