import Armv4t.BlockTransfer

/-! # Transfers — loads and blocks in equations

    A load is the bytes at the aligned address, turned into the loaded value, and
    one access on the trail.  A block transfer is laid out before its first access:
    which registers move, from which address on, and where the base ends.  The
    equations below open both without opening what they are made of. -/

namespace Armv4t

namespace Execution

variable {B : Type} [Bus B]

/-! ## Loads -/

theorem loadWord_eq (x : Execution B) (a : Word) :
    x.loadWord a = (rotateRight (x.load .word false a).1 (8 * (a &&& 3)),
      (x.load .word false a).2) := rfl

theorem loadHalf_eq (x : Execution B) (a : Word) :
    x.loadHalf a = (rotateRight (x.load .half false a).1 (8 * (a &&& 1)),
      (x.load .half false a).2) := rfl

theorem loadSignedByte_eq (x : Execution B) (a : Word) :
    x.loadSignedByte a = (signExtend (x.load .byte false a).1 8,
      (x.load .byte false a).2) := rfl

theorem loadSignedHalf_eq (x : Execution B) (a : Word) :
    x.loadSignedHalf a = if bit a 0 then x.loadSignedByte a
      else (signExtend (x.load .half false a).1 16, (x.load .half false a).2) := rfl

end Execution

/-! ## The layout of a block -/

/-- The registers that a list moves: an empty list moves R15. -/
def listed (list : Half) : List Reg := if list = 0 then [Reg.pc] else registersIn list

/-- The number of words by which a list moves the base: an empty list moves it by
    sixteen. -/
def listedCount (list : Half) : Word :=
  if list = 0 then 16 else (listed list).length.toUInt32

/-- No list moves a register twice. -/
theorem nodup_listed (list : Half) : (listed list).Nodup := by
  rw [listed]
  by_cases hzero : list = 0
  · rw [if_pos hzero]
    exact List.pairwise_singleton _ Reg.pc
  · rw [if_neg hzero]
    have hall : Reg.all.Nodup := by decide
    exact List.Pairwise.filter _ hall

/-- R15 comes last in every list that names it. -/
theorem listed_of_pc {list : Half} (h : Reg.pc ∈ listed list) :
    ∃ before, listed list = before ++ [Reg.pc] ∧ before.Nodup ∧ Reg.pc ∉ before := by
  obtain ⟨before, hbefore⟩ : ∃ before, listed list = before ++ [Reg.pc] := by
    rw [listed] at h ⊢
    by_cases hzero : list = 0
    · rw [if_pos hzero]
      exact ⟨[], rfl⟩
    · rw [if_neg hzero] at h ⊢
      obtain ⟨init, hall⟩ : ∃ init, Reg.all = init ++ [Reg.pc] := ⟨Reg.all.take 15, by decide⟩
      have hpc : (fun r : Reg => bit list.toUInt32 r.val.toUInt32) Reg.pc = true :=
        (List.mem_filter.mp h).2
      refine ⟨init.filter fun r => bit list.toUInt32 r.val.toUInt32, ?_⟩
      rw [registersIn, hall, List.filter_append]
      exact congrArg _ (List.filter_cons_of_pos hpc)
  have hnodup := nodup_listed list
  rw [hbefore] at hnodup
  obtain ⟨hn, -, hdisjoint⟩ := List.nodup_append.mp hnodup
  exact ⟨before, hbefore, hn, fun hmem => hdisjoint _ hmem _ List.mem_cons_self rfl⟩

/-- The next register takes the next word. -/
theorem wordAddress_succ (a : Word) (j : Nat) :
    a + 4 * UInt32.ofNat (j + 1) = a + 4 + 4 * UInt32.ofNat j := by
  rw [UInt32.ofNat_add, UInt32.mul_add, UInt32.add_comm (4 * _), ← UInt32.add_assoc]
  rfl

/-- The first address and the moved base of a block transfer. -/
def Core.blockRange (k : Core) (a : Addressing) (rn : Reg) (list : Half) : Word × Word :=
  Armv4t.blockRange a (k.registers.read rn) (listedCount list)

/-- A block transfer, with its list and addresses made out. -/
def Core.block (k : Core) (kind : TransferKind) (a : Addressing) (s : Bool) (rn : Reg)
    (list : Half) : Block where
  rn
  writeBack := a.writeBack
  moved := (k.blockRange a rn list).2
  user := s && !decide (kind = .load ∧ Reg.pc ∈ listed list)
  restore := s
  mode := k.mode

/-- A block of user registers does not load R15. -/
theorem Core.pc_not_mem_of_user {k : Core} {a : Addressing} {s : Bool} {rn : Reg} {list : Half}
    (h : (k.block .load a s rn list).user = true) : Reg.pc ∉ listed list := by
  intro hmem
  have hd : decide (TransferKind.load = .load ∧ Reg.pc ∈ listed list) = true :=
    decide_eq_true ⟨rfl, hmem⟩
  rw [Core.block, hd] at h
  cases s <;> exact Bool.noConfusion h

namespace Execution

variable {B : Type} [Bus B]

/-- A store of a block: the registers first, the base afterwards. -/
theorem transferBlock_store (x : Execution B) (a : Addressing) (s : Bool) (rn : Reg)
    (list : Half) :
    x.transferBlock .store a s rn list =
      let b := x.core.block .store a s rn list
      let y := (storeBlock b true (x.core.blockRange a rn list).1 (listed list) x).scatter
      if a.writeBack then y.writeBase rn b.moved else y := rfl

/-- A load of a block: the base first, unless it is loaded, and the registers
    afterwards. -/
theorem transferBlock_load (x : Execution B) (a : Addressing) (s : Bool) (rn : Reg)
    (list : Half) :
    x.transferBlock .load a s rn list =
      let b := x.core.block .load a s rn list
      let y := if a.writeBack ∧ rn ∉ listed list then x.writeBase rn b.moved else x
      (loadBlock b true (x.core.blockRange a rn list).1 (listed list) y).wait 1 := rfl

end Execution

end Armv4t
