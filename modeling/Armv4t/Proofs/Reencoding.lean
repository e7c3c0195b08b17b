import Armv4t.Proofs.Counterpart
import Armv4t.Proofs.Internal
import Armv4t.Proofs.Rom

/-! # Re-encoding — one instruction set carried out as the other

    An instruction that does not name R15 is blind to it and to T: from two states that
    differ in nothing else it leads to two states that differ in nothing else, with one
    memory and one trail (`Arm.execute_abreast`).  The counterparts of the 16-bit set are
    such instructions (`Thumb.Instruction.plain_counterpart`), so that each of them does in
    the 32-bit set what it stands for in the 16-bit one (`Thumb.execute_reencoded`).

    A block transfer of an empty list moves R15 without naming it.  A load of one is no
    exception, for R15 is not compared; a store of one stores R15 as the pipeline of each
    set has it, and agrees in everything but that word. -/

namespace Armv4t

/-! ## Cores that differ in R15 and T -/

/-- Two cores that differ in R15 and in the T bit at most. -/
structure Core.SameData (k l : Core) : Prop where
  read : ∀ r, r ≠ Reg.pc → l.registers.read r = k.registers.read r
  status : AgreeOff 0x20 l.cpsr.raw k.cpsr.raw
  bank : l.bank = k.bank

namespace Core.SameData

variable {k l : Core}

/-- The carry is not the T bit. -/
theorem c (h : k.SameData l) : l.cpsr.c = k.cpsr.c := h.status.bit_eq (by decide) (by decide)

theorem v (h : k.SameData l) : l.cpsr.v = k.cpsr.v := h.status.bit_eq (by decide) (by decide)

/-- No flag is the T bit. -/
theorem flags (h : k.SameData l) : l.cpsr.flags = k.cpsr.flags := by
  have hn : l.cpsr.n = k.cpsr.n := h.status.bit_eq (by decide) (by decide)
  have hz : l.cpsr.z = k.cpsr.z := h.status.bit_eq (by decide) (by decide)
  rw [Psr.flags, Psr.flags, hn, hz, h.c, h.v]

/-- The mode field lies below T. -/
theorem mode (h : k.SameData l) : l.mode = k.mode := by
  have hmode : l.cpsr.mode? = k.cpsr.mode? := Psr.mode?_eq_of_agreeOff h.status (by decide)
  rw [Core.mode, Core.mode, Psr.mode, Psr.mode, hmode]

/-- One value goes into one register, R15 or another. -/
theorem setRegister (h : k.SameData l) (i : Reg) (v : Word) :
    (k.setRegister i v).SameData (l.setRegister i v) := by
  refine ⟨?_, h.status, h.bank⟩
  intro r hr
  show (l.registers.write i v).read r = (k.registers.write i v).read r
  rw [Registers.read_write, Registers.read_write, h.read r hr]

/-- A jump aligns its target for the set that executes, which R15 alone shows. -/
theorem jump (h : k.SameData l) (target : Word) : (k.jump target).SameData (l.jump target) := by
  refine ⟨?_, h.status, h.bank⟩
  intro r hr
  show (l.registers.write Reg.pc _).read r = (k.registers.write Reg.pc _).read r
  rw [Registers.read_write, Registers.read_write, if_neg (Ne.symm hr), if_neg (Ne.symm hr),
    h.read r hr]

/-- The flags are written to the same bits of both. -/
theorem setFlags (h : k.SameData l) (f : Flags) :
    (k.setCpsr (k.cpsr.setFlags f)).SameData (l.setCpsr (l.cpsr.setFlags f)) :=
  ⟨h.read, (((h.status.putBit 29 f.c).putBit 30 f.z).putBit 31 f.n).putBit 28 f.v, h.bank⟩

theorem setNZ (h : k.SameData l) (v : Word) :
    (k.setCpsr (k.cpsr.setNZ v)).SameData (l.setCpsr (l.cpsr.setNZ v)) :=
  ⟨h.read, (h.status.putBit 31 (bit v 31)).putBit 30 (v == 0), h.bank⟩

/-- Clearing T is such a difference. -/
theorem setT (k : Core) (b : Bool) : k.SameData (k.setCpsr (k.cpsr.setT b)) :=
  ⟨fun _ _ => rfl, k.cpsr.setT_agreeOff b, rfl⟩

end Core.SameData

/-! ## Instructions in flight over such cores -/

/-- Two instructions in flight that differ in R15 and in the T bit at most. -/
def Execution.Abreast {B : Type} (x y : Execution B) : Prop :=
  ∃ l, x.core.SameData l ∧ y = x.withCore l

namespace Execution.Abreast

variable {B : Type} {x y : Execution B}

/-- Of two instructions abreast only the cores differ. -/
theorem core (h : x.Abreast y) : x.core.SameData y.core := by
  obtain ⟨l, hl, rfl⟩ := h
  exact hl

/-- What is not R15 reads the same. -/
theorem read (h : x.Abreast y) {r : Reg} (hr : r ≠ Reg.pc) (role : PcRole) :
    y.read r role = x.read r role := by
  show (if r = Reg.pc then _ else y.core.registers.read r)
    = if r = Reg.pc then _ else x.core.registers.read r
  rw [if_neg hr, if_neg hr, h.core.read r hr]

/-- What leaves the core alone, and does not look at it, keeps instructions abreast. -/
theorem frame (h : x.Abreast y) {f : Execution B → Execution B}
    (hf : ∀ l, f (x.withCore l) = (f x).withCore l) (hcore : (f x).core = x.core) :
    (f x).Abreast (f y) := by
  obtain ⟨l, hl, rfl⟩ := h
  refine ⟨l, ?_, hf l⟩
  rw [hcore]
  exact hl

/-- Waiting, scattering and telling look at no core. -/
theorem wait (h : x.Abreast y) (n : Int32) : (x.wait n).Abreast (y.wait n) :=
  h.frame (f := (·.wait n)) (fun _ => rfl) rfl

theorem scatter (h : x.Abreast y) : x.scatter.Abreast y.scatter :=
  h.frame (f := (·.scatter)) (fun _ => rfl) rfl

theorem tell (h : x.Abreast y) (e : Event) : (x.tell e).Abreast (y.tell e) :=
  h.frame (f := (·.tell e)) (fun _ => rfl) rfl

theorem setRegister (h : x.Abreast y) (i : Reg) (v : Word) :
    (x.setRegister i v).Abreast (y.setRegister i v) := by
  obtain ⟨l, hl, rfl⟩ := h
  exact ⟨l.setRegister i v, hl.setRegister i v, rfl⟩

/-- Both jump, and R15 is not compared. -/
theorem branchTo (h : x.Abreast y) (a : Word) : (x.branchTo a).Abreast (y.branchTo a) := by
  obtain ⟨l, hl, rfl⟩ := h
  exact ⟨l.jump a, hl.jump a, rfl⟩

theorem setFlags (h : x.Abreast y) (f : Flags) :
    (x.updateCpsr (·.setFlags f)).Abreast (y.updateCpsr (·.setFlags f)) := by
  obtain ⟨l, hl, rfl⟩ := h
  exact ⟨_, hl.setFlags f, rfl⟩

/-- A result of both sets N and Z of both. -/
theorem setNZ (h : x.Abreast y) (v : Word) :
    (x.updateCpsr (·.setNZ v)).Abreast (y.updateCpsr (·.setNZ v)) := by
  obtain ⟨l, hl, rfl⟩ := h
  exact ⟨_, hl.setNZ v, rfl⟩

/-- R15 may be the destination: a branch of both keeps them abreast. -/
theorem writeRegister (h : x.Abreast y) (i : Reg) (v : Word) :
    (x.writeRegister i v).Abreast (y.writeRegister i v) := by
  rw [Execution.writeRegister, Execution.writeRegister]
  split
  · exact h.branchTo v
  · exact h.setRegister i v

/-- Both move their base, or both tell that they do not. -/
theorem writeBase (h : x.Abreast y) (i : Reg) (v : Word) :
    (x.writeBase i v).Abreast (y.writeBase i v) := by
  rw [Execution.writeBase, Execution.writeBase]
  split
  · exact h.tell _
  · exact h.setRegister i v

variable [Bus B]

/-- One access to one bus, with one value. -/
theorem store (h : x.Abreast y) (w : Width) (s : Bool) (a v : Word) :
    (x.store w s a v).Abreast (y.store w s a v) :=
  h.frame (f := (·.store w s a v)) (fun _ => rfl) rfl

/-- A load leaves the bus alone, and tells the trail of one access. -/
theorem load (h : x.Abreast y) (w : Width) (s : Bool) (a : Word) :
    (x.load w s a).2.Abreast (y.load w s a).2 :=
  h.frame (f := fun z => (z.load w s a).2) (fun _ => rfl) rfl

/-- They load one value, for they have one bus. -/
theorem loaded_eq (h : x.Abreast y) (w : Width) (s : Bool) (a : Word) :
    (y.load w s a).1 = (x.load w s a).1 := by
  obtain ⟨l, hl, rfl⟩ := h
  rfl

theorem storeQuantity (h : x.Abreast y) (q : Quantity) (a v : Word) :
    (x.storeQuantity q a v).Abreast (y.storeQuantity q a v) := by
  cases q with
  | word => exact h.store .word false a v
  | byte => exact h.store .byte false a v

end Execution.Abreast

/-! ## Instructions that do not name R15 -/

namespace Arm

/-- A second operand that does not name R15. -/
def Operand.Plain : Operand → Prop
  | .immediate _ => True
  | .shifted rm _ (.immediate _) => rm ≠ Reg.pc
  | .shifted rm _ (.register rs) => rm ≠ Reg.pc ∧ rs ≠ Reg.pc

/-- An offset that does not name R15. -/
def TransferOffset.Plain : TransferOffset → Prop
  | .immediate _ => True
  | .shifted rm _ _ => rm ≠ Reg.pc

def HalfOffset.Plain : HalfOffset → Prop
  | .immediate _ => True
  | .register rm => rm ≠ Reg.pc

/-- An instruction of the families that both sets have, whose fields do not name R15.
    A block may load R15, but not store it. -/
def Instruction.Plain : Instruction → Prop
  | .dataProcessing _ _ rn rd o => rn ≠ Reg.pc ∧ rd ≠ Reg.pc ∧ o.Plain
  | .multiply _ _ rd rn rs rm => rd ≠ Reg.pc ∧ rn ≠ Reg.pc ∧ rs ≠ Reg.pc ∧ rm ≠ Reg.pc
  | .singleTransfer _ _ _ rn rd o => rn ≠ Reg.pc ∧ rd ≠ Reg.pc ∧ o.Plain
  | .halfTransfer _ _ rn rd o => rn ≠ Reg.pc ∧ rd ≠ Reg.pc ∧ o.Plain
  | .blockTransfer kind _ s rn list =>
    s = false ∧ rn ≠ Reg.pc ∧ (kind = .store → Reg.pc ∉ listed list)
  | _ => False

variable {B : Type} {x y : Execution B}

/-- An operand that does not name R15 has one value, and takes one time. -/
theorem evaluate_abreast (h : x.Abreast y) {o : Operand} (ho : o.Plain) :
    (o.evaluate y).1 = (o.evaluate x).1 ∧ (o.evaluate x).2.Abreast (o.evaluate y).2 := by
  cases o with
  | immediate i =>
      refine ⟨?_, h⟩
      show i.operand y.core.cpsr.c = i.operand x.core.cpsr.c
      rw [h.core.c]
  | shifted rm kind amount =>
      cases amount with
      | immediate amount =>
          refine ⟨?_, h⟩
          show shift kind .opcode (y.read rm .operand) _ y.core.cpsr.c = shift _ _ _ _ _
          rw [h.read ho, h.core.c]
      | register rs =>
          -- an amount in a register costs a cycle, which reads no register
          refine ⟨?_, h.wait 1⟩
          show shift kind .register (y.read rm .shiftOperand) (y.read rs .shiftOperand &&& 0xFF)
            y.core.cpsr.c = shift _ _ _ _ _
          rw [h.read ho.1, h.read ho.2, h.core.c]

/-- Data processing that does not name R15 sees the same operands and the same carry. -/
theorem dataProcessing_abreast (h : x.Abreast y) (op : AluOp) (setFlags : Bool) {rn rd : Reg}
    {o : Operand} (hn : rn ≠ Reg.pc) (hd : rd ≠ Reg.pc) (ho : o.Plain) :
    (dataProcessing op setFlags rn rd o x).Abreast (dataProcessing op setFlags rn rd o y) := by
  obtain ⟨hsecond, h'⟩ := evaluate_abreast h ho
  rw [dataProcessing_of_ne x hd, dataProcessing_of_ne y hd]
  dsimp only
  rw [h'.read hn, hsecond, h'.core.c, h'.core.v]
  generalize op.compute _ (o.evaluate x).1 _ _ = result
  have hwritten : (if op.test then (o.evaluate x).2 else
        (o.evaluate x).2.setRegister rd result.value).Abreast
      (if op.test then (o.evaluate y).2 else (o.evaluate y).2.setRegister rd result.value) := by
    split
    · exact h'
    · exact h'.setRegister rd result.value
  split
  · exact hwritten.setFlags result.flags
  · exact hwritten

/-- A multiply takes as long on both sides, for its multiplier is the same. -/
theorem multiply_abreast (h : x.Abreast y) (accumulate setFlags : Bool) {rd rn rs rm : Reg}
    (hn : rn ≠ Reg.pc) (hs : rs ≠ Reg.pc) (hm : rm ≠ Reg.pc) :
    (multiply accumulate setFlags rd rn rs rm x).Abreast
      (multiply accumulate setFlags rd rn rs rm y) := by
  simp only [multiply, h.core.read rn hn, h.core.read rs hs, h.core.read rm hm]
  have hwritten := (h.wait (multiplierCycles (x.core.registers.read rs) true
    + if accumulate then 1 else 0)).writeRegister rd
  split
  · exact (hwritten _).setNZ _
  · exact hwritten _

theorem moveBase_abreast (h : x.Abreast y) (a : Addressing) (rn : Reg) (moved : Word) :
    (moveBase a rn moved x).Abreast (moveBase a rn moved y) := by
  rw [moveBase, moveBase]
  split
  · exact h.writeBase rn moved
  · exact h

/-- The shift of an offset sees the same register and the same carry. -/
theorem transferOffset_abreast (h : x.Abreast y) {o : TransferOffset} (ho : o.Plain) :
    o.evaluate y = o.evaluate x := by
  cases o with
  | immediate offset => rfl
  | shifted rm kind amount =>
      show (shift kind .opcode (y.read rm .operand) _ y.core.cpsr.c).value = _
      rw [h.read ho, h.core.c]
      rfl

theorem halfOffset_abreast (h : x.Abreast y) {o : HalfOffset} (ho : o.Plain) :
    o.evaluate y = o.evaluate x := by
  cases o with
  | immediate offset => rfl
  | register rm => exact h.read ho .operand

/-- Two loads of one value that leave instructions abreast. -/
def LoadsAbreast (p q : Word × Execution B) : Prop := q.1 = p.1 ∧ p.2.Abreast q.2

/-- One value for one register, behind one cycle. -/
theorem finishLoad_abreast {p q : Word × Execution B} (h : LoadsAbreast p q)
    (a : Addressing) (rn rd : Reg) (moved : Word) :
    (finishLoad a rn rd moved p).Abreast (finishLoad a rn rd moved q) := by
  obtain ⟨hv, h⟩ := h
  rw [finishLoad, finishLoad, hv]
  exact (moveBase_abreast (h.wait 1) a rn moved).writeRegister rd p.1

variable [Bus B]

/-- What is made of a loaded value does not matter. -/
theorem load_abreast (h : x.Abreast y) (f : Word → Word) (w : Width) (a : Word) :
    LoadsAbreast (f (x.load w false a).1, (x.load w false a).2)
      (f (y.load w false a).1, (y.load w false a).2) :=
  ⟨congrArg f (h.loaded_eq w false a), h.load w false a⟩

theorem loadQuantity_abreast (h : x.Abreast y) (q : Quantity) (a : Word) :
    LoadsAbreast (x.loadQuantity q a) (y.loadQuantity q a) := by
  cases q with
  | word => exact load_abreast h (rotateRight · (8 * (a &&& 3))) .word a
  | byte => exact load_abreast h id .byte a

/-- The address tells both whether it is a byte. -/
theorem loadSignedHalf_abreast (h : x.Abreast y) (a : Word) :
    LoadsAbreast (x.loadSignedHalf a) (y.loadSignedHalf a) := by
  rw [Execution.loadSignedHalf_eq, Execution.loadSignedHalf_eq]
  split
  · exact load_abreast h (signExtend · 8) .byte a
  · exact load_abreast h (signExtend · 16) .half a

/-- Base, offset and stored value are the same, and so are the accesses. -/
theorem singleTransfer_abreast (h : x.Abreast y) (kind : TransferKind) (q : Quantity)
    (a : Addressing) {rn rd : Reg} {o : TransferOffset} (hn : rn ≠ Reg.pc) (hd : rd ≠ Reg.pc)
    (ho : o.Plain) :
    (singleTransfer kind q a rn rd o x).Abreast (singleTransfer kind q a rn rd o y) := by
  simp only [singleTransfer, h.read hn, h.read hd, transferOffset_abreast h ho]
  cases kind with
  | store => exact moveBase_abreast (h.storeQuantity q _ _).scatter a rn _
  | load => exact finishLoad_abreast (loadQuantity_abreast h q _) a rn rd _

/-- The same of the four halfword and signed transfers. -/
theorem halfTransfer_abreast (h : x.Abreast y) (t : HalfTransfer) (a : Addressing)
    {rn rd : Reg} {o : HalfOffset} (hn : rn ≠ Reg.pc) (hd : rd ≠ Reg.pc) (ho : o.Plain) :
    (halfTransfer t a rn rd o x).Abreast (halfTransfer t a rn rd o y) := by
  simp only [halfTransfer, h.read hn, h.read hd, halfOffset_abreast h ho]
  cases t with
  | storeHalf => exact moveBase_abreast (h.store .half false _ _).scatter a rn _
  | loadHalf => exact finishLoad_abreast (load_abreast h (rotateRight · _) .half _) a rn rd _
  | loadSignedByte => exact finishLoad_abreast (load_abreast h (signExtend · 8) .byte _) a rn rd _
  | loadSignedHalf => exact finishLoad_abreast (loadSignedHalf_abreast h _) a rn rd _

end Arm

/-! ## Blocks -/

namespace Execution.Abreast

variable {B : Type} {x y : Execution B}

/-- Instructions abreast lay a block out alike. -/
theorem block (h : x.Abreast y) (kind : TransferKind) (a : Addressing) (s : Bool) {rn : Reg}
    (hn : rn ≠ Reg.pc) (list : Half) :
    y.core.block kind a s rn list = x.core.block kind a s rn list := by
  rw [Core.block, Core.block, Core.blockRange, Core.blockRange, h.core.read rn hn, h.core.mode]

/-- A loaded register of a block, R15 included. -/
theorem acceptLoaded (h : x.Abreast y) {b : Block} (hu : b.user = false)
    (hr : b.restore = false) (r : Reg) (v : Word) :
    (x.acceptLoaded b r v).Abreast (y.acceptLoaded b r v) := by
  rw [Execution.acceptLoaded, Execution.acceptLoaded, hu, hr]
  split
  · exact h.branchTo v
  · exact h.setRegister r v

variable [Bus B]

/-- The stores of a block without R15, by induction on the registers still to come. -/
theorem storeBlock {b : Block} (hu : b.user = false) (list : List Reg) :
    ∀ (first : Bool) (a : Word) {x y : Execution B}, x.Abreast y → Reg.pc ∉ list →
      (Execution.storeBlock b first a list x).Abreast (Execution.storeBlock b first a list y) := by
  induction list with
  | nil => intro first a x y h _; exact h
  | cons r list ih =>
      intro first a x y h hpc
      have hr : r ≠ Reg.pc := fun hr => hpc (hr ▸ List.mem_cons_self)
      have hvalue : y.storedValue b first r = x.storedValue b first r := by
        rw [storedValue, storedValue, if_neg hr, if_neg hr, hu, h.core.read r hr]
        rfl
      rw [Execution.storeBlock, Execution.storeBlock, hvalue]
      exact ih false (a + 4) (h.store _ _ _ _) fun hmem => hpc (List.mem_cons_of_mem r hmem)

/-- The loads of a block, by induction on the registers still to come. -/
theorem loadBlock {b : Block} (hu : b.user = false) (hr : b.restore = false)
    (list : List Reg) :
    ∀ (first : Bool) (a : Word) {x y : Execution B}, x.Abreast y →
      (Execution.loadBlock b first a list x).Abreast (Execution.loadBlock b first a list y) := by
  induction list with
  | nil => intro first a x y h; exact h
  | cons r list ih =>
      intro first a x y h
      rw [Execution.loadBlock, Execution.loadBlock]
      dsimp only
      rw [h.loaded_eq]
      exact ih false (a + 4) ((h.load .word (!first) a).acceptLoaded hu hr r _)

theorem transferBlock (h : x.Abreast y) (kind : TransferKind) (a : Addressing) {rn : Reg}
    (hn : rn ≠ Reg.pc) {list : Half} (hpc : kind = .store → Reg.pc ∉ listed list) :
    (x.transferBlock kind a false rn list).Abreast (y.transferBlock kind a false rn list) := by
  have hrange : y.core.blockRange a rn list = x.core.blockRange a rn list := by
    rw [Core.blockRange, Core.blockRange, h.core.read rn hn]
  cases kind with
  | store =>
      rw [transferBlock_store, transferBlock_store, hrange, h.block .store a false hn]
      dsimp only
      have hstored := (storeBlock rfl (listed list) true (x.core.blockRange a rn list).1 h
        (b := x.core.block .store a false rn list) (hpc rfl)).scatter
      split
      · exact hstored.writeBase rn _
      · exact hstored
  | load =>
      rw [transferBlock_load, transferBlock_load, hrange, h.block .load a false hn]
      dsimp only
      split
      · exact (loadBlock rfl rfl _ _ _ (h.writeBase rn _)).wait 1
      · exact (loadBlock rfl rfl _ _ _ h).wait 1

end Execution.Abreast

/-- **An instruction that does not name R15 is blind to it and to T.** -/
theorem Arm.execute_abreast {B : Type} [Bus B] {x y : Execution B} (h : x.Abreast y) {o : Opcode}
    (ho : o.instruction.Plain) : (execute o x).Abreast (execute o y) := by
  rw [execute, execute]
  generalize o.instruction = i at ho ⊢
  cases i with
  | dataProcessing op setFlags rn rd operand =>
      obtain ⟨hn, hd, hoperand⟩ := ho
      exact dataProcessing_abreast h op setFlags hn hd hoperand
  | multiply accumulate setFlags rd rn rs rm =>
      obtain ⟨-, hn, hs, hm⟩ := ho
      exact multiply_abreast h accumulate setFlags hn hs hm
  | singleTransfer kind quantity a rn rd offset =>
      obtain ⟨hn, hd, hoffset⟩ := ho
      exact singleTransfer_abreast h kind quantity a hn hd hoffset
  | halfTransfer t a rn rd offset =>
      obtain ⟨hn, hd, hoffset⟩ := ho
      exact halfTransfer_abreast h t a hn hd hoffset
  | blockTransfer kind a s rn list =>
      obtain ⟨rfl, hn, hpc⟩ := ho
      exact h.transferBlock kind a hn hpc
  | _ => exact ho.elim

/-! ## The counterparts are among them -/

/-- Only an empty list moves R15, where no bit names it. -/
theorem pc_not_mem_listed {list : Half} (h0 : list ≠ 0) (hlt : list.toNat < 0x8000) :
    Reg.pc ∉ listed list := by
  rw [listed, if_neg h0, registersIn, List.mem_filter]
  rintro ⟨-, hbit⟩
  rw [bit_eq_getLsbD _ (by decide)] at hbit
  have hfalse : list.toUInt32.toBitVec.getLsbD 15 = false := by
    show list.toUInt32.toNat.testBit 15 = false
    rw [UInt16.toNat_toUInt32]
    exact Nat.testBit_lt_two_pow hlt
  exact Bool.false_ne_true (hfalse.symm.trans hbit)

namespace Thumb

/-- A store whose list names no register, which stores R15. -/
def Instruction.storesEmpty : Instruction → Bool
  | .pushPop .store false list | .blockTransfer .store _ list => list == 0
  | _ => false

/-- The counterpart of an operation on low registers names low registers. -/
theorem RegisterOp.plain_counterpart {op : RegisterOp} {rs rd : LowReg} {i : Arm.Instruction}
    (h : op.counterpart? rs.wide rd.wide = some i) : i.Plain := by
  have hs := rs.wide_ne_pc
  have hd := rd.wide_ne_pc
  cases op with
  | lsl | lsr | asr | ror =>
      obtain rfl := Option.some.inj h
      exact ⟨by decide, hd, hd, hs⟩
  | neg =>
      obtain rfl := Option.some.inj h
      exact ⟨hs, hd, True.intro⟩
  | mul =>
      obtain rfl := Option.some.inj h
      exact ⟨hd, by decide, hd, hs⟩
  | _ =>
      obtain rfl := Option.some.inj h
      exact ⟨hd, hd, hs⟩

/-- The counterpart of an operation on an immediate names its low register. -/
theorem ImmediateOp.plain_counterpart (op : ImmediateOp) (rd : LowReg) (v : Word) :
    (op.counterpart rd.wide v).Plain := by
  have hd := rd.wide_ne_pc
  cases op with
  | mov => exact ⟨by decide, hd, True.intro⟩
  | cmp | add | sub => exact ⟨hd, hd, True.intro⟩

/-- An operation on high registers has a counterpart where it does not name R15. -/
theorem HighOp.plain_counterpart {op : HighOp} {rs rd : Reg} {i : Arm.Instruction}
    (h : op.counterpart? rs rd = some i) : i.Plain := by
  rw [counterpart?.eq_def] at h
  by_cases hpc : rs = Reg.pc ∨ rd = Reg.pc
  · rw [if_pos hpc] at h
    cases h
  · rw [if_neg hpc] at h
    obtain ⟨hs, hd⟩ := not_or.mp hpc
    cases op with
    | add | cmp =>
        obtain rfl := Option.some.inj h
        exact ⟨hd, hd, hs⟩
    | mov =>
        obtain rfl := Option.some.inj h
        exact ⟨by decide, hd, hs⟩
    | bx => cases h

/-- A list of low registers, with R14 or without, does not name R15 unless it is empty. -/
theorem pc_not_mem_stackList (extra : Bool) {list : Half} (hlist : list < 0x100)
    (h : extra = false → list ≠ 0) : Reg.pc ∉ listed (stackList .store extra list) := by
  have hlt : list.toNat < 0x100 := UInt16.lt_iff_toNat_lt.mp hlist
  cases extra with
  | false => exact pc_not_mem_listed (h rfl) (Nat.lt_trans hlt (by decide))
  | true =>
      have hto : (list ||| 0x4000).toNat = list.toNat ||| 0x4000 := UInt16.toNat_or list 0x4000
      refine pc_not_mem_listed ?_ ?_
      · intro h0
        have hzero : list.toNat ||| 0x4000 = 0 := by
          rw [← hto]
          exact congrArg UInt16.toNat h0
        exact absurd (Nat.or_eq_zero_iff.mp hzero).2 (by decide)
      · show (list ||| 0x4000).toNat < 2 ^ 15
        rw [hto]
        exact Nat.or_lt_two_pow (Nat.lt_trans hlt (by decide)) (by decide)

/-- **The counterparts do not name R15**, but for the store of an empty list. -/
theorem Instruction.plain_counterpart {t : Instruction} {i : Arm.Instruction}
    (h : t.counterpart? = some i) (ht : t.Encodable) (hempty : t.storesEmpty = false) :
    i.Plain := by
  cases t with
  | moveShifted kind amount rs rd =>
      obtain rfl := Option.some.inj h
      exact ⟨by decide, rd.wide_ne_pc, rs.wide_ne_pc⟩
  | addSubtract subtract operand rs rd =>
      have hoperand : operand.counterpart.Plain := by
        cases operand with
        | immediate n => exact True.intro
        | register rn => exact rn.wide_ne_pc
      obtain rfl := Option.some.inj h
      exact ⟨rs.wide_ne_pc, rd.wide_ne_pc, hoperand⟩
  | immediateOp op rd value =>
      obtain rfl := Option.some.inj h
      exact op.plain_counterpart rd value
  | registerOp op rs rd => exact RegisterOp.plain_counterpart h
  | highOp op rs rd => exact HighOp.plain_counterpart h
  | transferByRegister kind quantity ro rb rd =>
      obtain rfl := Option.some.inj h
      exact ⟨rb.wide_ne_pc, rd.wide_ne_pc, ro.wide_ne_pc⟩
  | halfByRegister kind ro rb rd =>
      obtain rfl := Option.some.inj h
      exact ⟨rb.wide_ne_pc, rd.wide_ne_pc, ro.wide_ne_pc⟩
  | transferByOffset kind quantity offset rb rd =>
      obtain rfl := Option.some.inj h
      exact ⟨rb.wide_ne_pc, rd.wide_ne_pc, True.intro⟩
  | halfByOffset kind offset rb rd =>
      obtain rfl := Option.some.inj h
      exact ⟨rb.wide_ne_pc, rd.wide_ne_pc, True.intro⟩
  | stackTransfer kind rd offset =>
      obtain rfl := Option.some.inj h
      exact ⟨by decide, rd.wide_ne_pc, True.intro⟩
  | loadAddress fromStack rd offset =>
      cases fromStack with
      | true =>
          obtain rfl := Option.some.inj h
          exact ⟨by decide, rd.wide_ne_pc, True.intro⟩
      | false => cases h
  | adjustStack subtract offset =>
      obtain rfl := Option.some.inj h
      exact ⟨by decide, by decide, True.intro⟩
  | pushPop kind extra list =>
      cases kind with
      | store =>
          have hlist : extra = false → list ≠ 0 := by
            rintro rfl
            exact beq_eq_false_iff_ne.mp hempty
          obtain rfl := Option.some.inj h
          exact ⟨rfl, by decide, fun _ => pc_not_mem_stackList extra ht hlist⟩
      | load =>
          cases extra with
          | true => cases h
          | false =>
              obtain rfl := Option.some.inj h
              exact ⟨rfl, by decide, fun hk => nomatch hk⟩
  | blockTransfer kind rb list =>
      obtain rfl := Option.some.inj h
      refine ⟨rfl, rb.wide_ne_pc, ?_⟩
      rintro rfl
      exact pc_not_mem_stackList false ht fun _ => beq_eq_false_iff_ne.mp hempty
  | _ => cases h

end Thumb

/-! ## The store of an empty list -/

namespace Execution.Abreast

variable {B : Type} {x y : Execution B}

/-- Instructions abreast have one bus. -/
theorem bus (h : x.Abreast y) : y.bus = x.bus := by
  obtain ⟨l, -, rfl⟩ := h
  rfl

/-- They made the same accesses and told the same. -/
theorem trail (h : x.Abreast y) : y.trail = x.trail := by
  obtain ⟨l, -, rfl⟩ := h
  rfl

/-- What they made is charged for alike. -/
theorem footprint (h : x.Abreast y) : y.footprint = x.footprint := by
  obtain ⟨l, -, rfl⟩ := h
  rfl

/-- They spend the same internal cycles. -/
theorem internal (h : x.Abreast y) : y.internal = x.internal := by
  obtain ⟨l, -, rfl⟩ := h
  rfl

end Execution.Abreast

/-- What two instructions in flight have in common in any case: all that a core holds
    beside R15 and T, and all that they are to be charged for. -/
structure Execution.Agrees {B : Type} (x y : Execution B) : Prop where
  core : x.core.SameData y.core
  flags : y.core.cpsr.flags = x.core.cpsr.flags
  footprint : y.footprint = x.footprint
  internal : y.internal = x.internal

/-- Both have stored one word at one address, R15 as each of them reads it. -/
def Execution.StoredPc {B : Type} [Bus B] (before : B) (k l : Core) (x y : Execution B) : Prop :=
  ∃ a, x.bus = Bus.write before .word a (k.effectivePc .stored)
    ∧ y.bus = Bus.write before .word a (l.effectivePc .stored)

section

variable {B : Type} [Bus B]

/-- An empty list stores R15 as the pipeline has it, and moves the base. -/
theorem Execution.transferBlock_store_empty (x : Execution B) (direction : Direction)
    (indexing : Indexing) {rn : Reg} (hn : rn ≠ Reg.pc) :
    let a : Addressing := ⟨indexing, direction, true⟩
    x.transferBlock .store a false rn 0
      = ((x.store .word false (x.core.blockRange a rn 0).1
        (x.core.effectivePc .stored)).scatter).setRegister rn (x.core.blockRange a rn 0).2 :=
  if_neg hn

/-- Instructions abreast that store an empty list agree but for the word they store. -/
theorem Execution.Abreast.storeEmpty {x y : Execution B} (h : x.Abreast y) (direction : Direction)
    (indexing : Indexing) {rn : Reg} (hn : rn ≠ Reg.pc) :
    let stored (z : Execution B) : Execution B :=
      z.transferBlock .store ⟨indexing, direction, true⟩ false rn 0
    (stored x).Agrees (stored y) ∧ StoredPc x.bus x.core y.core (stored x) (stored y) := by
  intro stored
  have hrange : y.core.blockRange ⟨indexing, direction, true⟩ rn 0
      = x.core.blockRange ⟨indexing, direction, true⟩ rn 0 := by
    rw [Core.blockRange, Core.blockRange, h.core.read rn hn]
  have hx : stored x = _ := x.transferBlock_store_empty direction indexing hn
  have hy : stored y = _ := y.transferBlock_store_empty direction indexing hn
  have hcore : (stored x).core.SameData (stored y).core := by
    rw [hx, hy, hrange]
    exact h.core.setRegister rn _
  refine ⟨⟨hcore, hcore.flags, ?_, ?_⟩, ?_⟩
  · rw [y.footprint_transferBlock, x.footprint_transferBlock, hrange, h.footprint]
  · rw [y.internal_transferBlock, x.internal_transferBlock, h.internal]
  · refine ⟨Width.word.align (x.core.blockRange ⟨indexing, direction, true⟩ rn 0).1, ?_, ?_⟩
    · rw [hx]
      rfl
    · rw [hy, hrange, ← h.bus]
      rfl

end

/-! ## One set carried out as the other -/

namespace Thumb

/-- The counterpart of a store of an empty list is such a store. -/
theorem Instruction.counterpart_of_storesEmpty {t : Instruction} {i : Arm.Instruction}
    (h : t.counterpart? = some i) (hempty : t.storesEmpty = true) :
    ∃ direction indexing rn, rn ≠ Reg.pc
      ∧ i = .blockTransfer .store ⟨indexing, direction, true⟩ false rn 0 := by
  cases t with
  | pushPop kind extra list =>
      cases kind with
      | store =>
          cases extra with
          | false =>
              obtain rfl : list = 0 := beq_iff_eq.mp hempty
              obtain rfl := Option.some.inj h
              exact ⟨.down, .pre, Reg.sp, by decide, rfl⟩
          | true => exact Bool.noConfusion hempty
      | load => exact Bool.noConfusion hempty
  | blockTransfer kind rb list =>
      cases kind with
      | store =>
          obtain rfl : list = 0 := beq_iff_eq.mp hempty
          obtain rfl := Option.some.inj h
          exact ⟨.up, .post, rb.wide, rb.wide_ne_pc, rfl⟩
      | load => exact Bool.noConfusion hempty
  | _ => exact Bool.noConfusion hempty

variable {B : Type} [Bus B] {h : Half} {o : Arm.Opcode} {k l : Core}

/-- **The 16-bit set is the 32-bit one, encoded anew**: a halfword that has a counterpart
    does to a core and to a bus what the counterpart does, whatever R15 and T are there.
    Every register but R15, the flags, the mode, the bank, the data accesses to be charged
    for and the internal cycles end the same, and so does the memory with each access that
    was made to it, unless the instruction stores an empty list: then each set stores R15 as
    it reads it. -/
theorem execute_reencoded (ho : (decode h).instruction.counterpart? = some o.instruction)
    (hkl : k.SameData l) (bus : B) :
    let x := execute (decode h) (.start k bus)
    let y := Arm.execute o (.start l bus)
    x.Agrees y
      ∧ ((decode h).instruction.storesEmpty = false → y.bus = x.bus ∧ y.trail = x.trail)
      ∧ ((decode h).instruction.storesEmpty = true → Execution.StoredPc bus k l x y) := by
  intro x y
  have hstart : (Execution.start k bus).Abreast (.start l bus) := ⟨l, hkl, rfl⟩
  have hx : x = Arm.execute o (.start k bus) :=
    (execute_eq_counterpart ho (encodable_decode h)).symm
  cases hempty : (decode h).instruction.storesEmpty with
  | false =>
      have habreast : x.Abreast y := by
        rw [hx]
        exact Arm.execute_abreast hstart
          (Instruction.plain_counterpart ho (encodable_decode h) hempty)
      refine ⟨⟨habreast.core, habreast.core.flags, habreast.footprint, habreast.internal⟩, ?_, ?_⟩
      · intro _
        exact ⟨habreast.bus, habreast.trail⟩
      · exact fun he => Bool.noConfusion he
  | true =>
      obtain ⟨direction, indexing, rn, hn, hi⟩ :=
        Instruction.counterpart_of_storesEmpty ho hempty
      have hexecute (z : Execution B) : Arm.execute o z
          = z.transferBlock .store ⟨indexing, direction, true⟩ false rn 0 := by
        rw [Arm.execute, hi]
      obtain ⟨hagrees, hstored⟩ := hstart.storeEmpty direction indexing hn
      dsimp only at hagrees hstored
      rw [← hexecute, ← hexecute, ← hx] at hagrees hstored
      exact ⟨hagrees, fun hne => Bool.noConfusion hne, fun _ => hstored⟩

/-- `STMIA R1!, {R1, R2}` in both sets: from one state, but for T, they end with the same
    registers and the same memory. -/
theorem execute_reencoded_of_block :
    let start := (Rom.machine [] .supervisor).core.setRegister 1 0x100
    let k := start.setCpsr (start.cpsr.setT true)
    let l := k.setCpsr (k.cpsr.setT false)
    let memory : Metered := ⟨fun _ => 0, fun _ _ _ => 1⟩
    let x := execute (decode 0xC106) (.start k memory)
    let y := Arm.execute (Arm.decode 0xE8A10006) (.start l memory)
    k.instructionSet = .thumb ∧ l.instructionSet = .arm ∧ x.core.registers.read 1 = 0x108
      ∧ x.Agrees y ∧ y.bus = x.bus ∧ y.trail = x.trail := by
  intro start k l memory x y
  have ho : (decode 0xC106).instruction.counterpart?
      = some (Arm.decode 0xE8A10006).instruction := by
    decide
  have hkl : k.SameData l := Core.SameData.setT k false
  obtain ⟨hagrees, hmemory, -⟩ := execute_reencoded ho hkl memory
  exact ⟨by decide +kernel, by decide +kernel, by decide +kernel, hagrees,
    hmemory (by decide)⟩

end Thumb

end Armv4t
