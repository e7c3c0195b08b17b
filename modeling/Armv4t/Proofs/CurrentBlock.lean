import Armv4t.Proofs.FlatWords
import Armv4t.Proofs.Mask
import Armv4t.Proofs.PipelineView
import Armv4t.Proofs.Reserved

/-! # Blocks of the current mode — which words move, and where to

    A block transfer without the S bit moves the registers of its list, in ascending
    order, at successive words; `Fetched.MovesBlock` names the instructions of both sets
    that do so.  From the base and the number of words follow the first address
    (`Addressing.first`) and the base afterwards (`Addressing.moved`), in each of the four
    ways to address a block; addresses wrap, and the low bits of the base count for the
    base alone.

    * A store puts down its registers as they were before it, but for R15, which the
      pipeline has moved on, and for a base that is written back and does not come first
      (`Execution.stores_transferBlock`, by induction on the list);
    * a load puts each word into its register, and a loaded base wins over the moved one
      (`Execution.loads_transferBlock`);
    * on flat memory the stored words read back, and no byte of another word has changed:
      `Machine.block_of_current_mode` states both for a step. -/

namespace Armv4t

/-! ## The list -/

/-- The number of words that a list stands for: an empty one stands for sixteen, though
    R15 alone moves. -/
def wordCount (list : Half) : Nat := if list = 0 then 16 else (registersIn list).length

/-- The words that the base moves by are counted as a word, and none is lost. -/
theorem listedCount_eq (list : Half) : listedCount list = UInt32.ofNat (wordCount list) := by
  rw [listedCount, wordCount]
  by_cases hzero : list = 0
  · rw [if_pos hzero, if_pos hzero]
    rfl
  · rw [if_neg hzero, if_neg hzero, listed, if_neg hzero, Nat.toUInt32_eq]

/-- A block has at most sixteen words, the empty list among them. -/
theorem wordCount_le (list : Half) : wordCount list ≤ 16 := by
  rw [wordCount]
  by_cases hzero : list = 0
  · rw [if_pos hzero]
  · rw [if_neg hzero]
    exact (List.length_filter_le _ Reg.all).trans_eq (List.length_finRange)

/-- A bit of the list names the register of its number. -/
theorem mem_registersIn {list : Half} {r : Reg} :
    r ∈ registersIn list ↔ list.toNat.testBit r.val = true := by
  have hlt : r.val.toUInt32 < 32 := by
    revert r
    decide
  have hval : r.val.toUInt32.toNat = r.val := by
    revert r
    decide
  rw [registersIn, List.mem_filter, bit_eq_getLsbD _ hlt, hval,
    and_iff_right (show r ∈ Reg.all from List.mem_finRange r)]
  show list.toUInt32.toNat.testBit r.val = true ↔ _
  rw [UInt16.toNat_toUInt32]

/-- The registers of a list come in ascending order. -/
theorem listed_ascending (list : Half) : (listed list).Pairwise (· < ·) := by
  rw [listed]
  by_cases hzero : list = 0
  · rw [if_pos hzero]
    exact List.pairwise_singleton _ Reg.pc
  · rw [if_neg hzero]
    exact List.Pairwise.filter _ (List.pairwise_lt_finRange 16)

theorem length_listed_le_wordCount (list : Half) : (listed list).length ≤ wordCount list := by
  rw [listed, wordCount]
  by_cases hzero : list = 0
  · rw [if_pos hzero, if_pos hzero]
    decide
  · rw [if_neg hzero, if_neg hzero]

/-- The values of a block fill no more than flat memory. -/
theorem length_mapIdx_listed_le (list : Half) (f : Nat → Reg → Word) :
    ((listed list).mapIdx f).length ≤ 0x40000 := by
  rw [List.length_mapIdx]
  exact (length_listed_le_wordCount list).trans ((wordCount_le list).trans (by decide))

/-! ## The addresses -/

namespace Addressing

/-- The first address of a block of `n` words. -/
def first (a : Addressing) (base : Word) (n : Nat) : Word :=
  match a.direction, a.indexing with
  | .up, .post => base
  | .up, .pre => base + 4
  | .down, .post => base - 4 * UInt32.ofNat n + 4
  | .down, .pre => base - 4 * UInt32.ofNat n

/-- The base that `n` words have moved. -/
def moved (a : Addressing) (base : Word) (n : Nat) : Word :=
  match a.direction with
  | .up => base + 4 * UInt32.ofNat n
  | .down => base - 4 * UInt32.ofNat n

end Addressing

/-- The first address and the moved base go by the number of words. -/
theorem Core.blockRange_eq (k : Core) (a : Addressing) (rn : Reg) (list : Half) :
    k.blockRange a rn list
      = (a.first (k.registers.read rn) (wordCount list),
        a.moved (k.registers.read rn) (wordCount list)) := by
  obtain ⟨indexing, direction, writeBack⟩ := a
  rw [Core.blockRange, listedCount_eq, Armv4t.blockRange, UInt32.mul_comm]
  cases direction <;> cases indexing <;> rfl

/-! ## Storing words -/

/-- Word accesses at successive words from an address on, one for each value.  The first
    one may stand alone; the others follow on. -/
def wordAccesses (kind : TransferKind) (first : Bool) (a : Word) (vs : List Word) :
    List Access :=
  vs.mapIdx fun j v => ⟨kind, .word, !(first && j == 0), a + 4 * UInt32.ofNat j, v⟩

/-- The first access of a block stands apart from the ones that follow on. -/
theorem wordAccesses_cons (kind : TransferKind) (first : Bool) (a v : Word) (vs : List Word) :
    wordAccesses kind first a (v :: vs)
      = ⟨kind, .word, !first, a, v⟩ :: wordAccesses kind false (a + 4) vs := by
  rw [wordAccesses, List.mapIdx_cons, wordAccesses]
  simp only [wordAddress_succ]
  simp

namespace Execution

variable {B : Type} [Bus B]

/-- What a block stores for its registers, one after the other. -/
def storedValues (x : Execution B) (b : Block) (first : Bool) (list : List Reg) : List Word :=
  list.mapIdx fun j r => x.storedValue b (first && j == 0) r

/-- An instruction in flight that has stored some words, and nothing else. -/
structure Stored (x : Execution B) (first : Bool) (a : Word) (vs : List Word)
    (y : Execution B) : Prop where
  core : y.core = x.core
  bus : y.bus = Bus.written x.bus (wordsFrom a vs)
  flushed : y.flushed = x.flushed
  accesses : y.accesses = x.accesses ++ wordAccesses .store first a vs

/-- **Storing a block**, by induction on the list: a store leaves the core, from which the
    values are read, to the next one. -/
theorem stored_storeBlock (b : Block) (list : List Reg) (first : Bool) (a : Word)
    (x : Execution B) :
    Stored x first a (x.storedValues b first list) (storeBlock b first a list x) := by
  induction list generalizing first a x with
  | nil => exact ⟨rfl, rfl, rfl, (List.append_nil _).symm⟩
  | cons r list ih =>
      let y := x.store .word (!first) a (x.storedValue b first r)
      have hvalues : x.storedValues b first (r :: list)
          = x.storedValue b first r :: y.storedValues b false list := by
        have hhead : (first && (0 : Nat) == 0) = first := Bool.and_true first
        have hrest (j : Nat) : (first && j + 1 == 0) = (false && j == 0) := Bool.and_false first
        rw [storedValues, List.mapIdx_cons, hhead, storedValues]
        simp only [hrest]
        rfl
      have h := ih false (a + 4) y
      rw [storeBlock, hvalues]
      refine ⟨h.core, ?_, h.flushed, ?_⟩
      · rw [h.bus, written_wordsFrom_cons]
        rfl
      · have hone : y.accesses
            = x.accesses ++ [⟨.store, .word, !first, a, x.storedValue b first r⟩] :=
          x.accesses_access _ x.trail
        rw [h.accesses, hone, wordAccesses_cons, List.append_assoc]
        rfl

end Execution

/-! ## Loading words -/

/-- What a register takes of a loaded word: R15 takes the word aligned. -/
def Core.taken (k : Core) (r : Reg) (v : Word) : Word :=
  if r = Reg.pc then k.instructionSet.align v else v

/-- The core once a block has loaded a register file; a loaded R15 branches. -/
def Core.accepted (k : Core) (rs : Registers) (list : List Reg) : Core :=
  if Reg.pc ∈ list then ({ k with registers := rs } : Core).jump rs.pc
  else { k with registers := rs }

namespace Core

variable (k : Core) (rs : Registers) {list : List Reg}

/-- A register of the list ends with its word, R15 with the word aligned. -/
theorem read_accepted (r : Reg) :
    (k.accepted rs list).registers.read r
      = if r ∈ list then k.taken r (rs.read r) else rs.read r := by
  rw [accepted, taken]
  by_cases hpc : Reg.pc ∈ list
  · rw [if_pos hpc]
    show (rs.write Reg.pc (k.instructionSet.align (rs.read Reg.pc))).read r = _
    rw [Registers.read_write]
    by_cases hr : Reg.pc = r
    · rw [if_pos hr, ← hr, if_pos hpc, if_pos rfl]
    · rw [if_neg hr, if_neg (Ne.symm hr), ite_self]
  · rw [if_neg hpc]
    by_cases hr : r = Reg.pc
    · rw [hr, if_neg hpc]
    · rw [if_neg hr, ite_self]

theorem cpsr_accepted : (k.accepted rs list).cpsr = k.cpsr := by
  rw [accepted]
  split <;> rfl

theorem bank_accepted : (k.accepted rs list).bank = k.bank := by
  rw [accepted]
  split <;> rfl

/-- R15 is written with the word, and then with the word aligned. -/
theorem accepted_write_pc (hpc : Reg.pc ∈ list) (v : Word) :
    k.accepted (rs.write Reg.pc v) list = ({ k with registers := rs } : Core).jump v := by
  have hread : (rs.write Reg.pc v).pc = v := (Registers.read_write rs Reg.pc Reg.pc v).trans rfl
  rw [accepted, if_pos hpc, hread]
  exact congrArg (fun rs => { k with registers := rs }) (Vector.set_set ..)

/-- A listed register takes the word at its place. -/
theorem read_accepted_of_listed {word : Word → Word} {a : Word} (hn : list.Nodup) {j : Nat}
    {r : Reg} (hj : list[j]? = some r) :
    (k.accepted (rs.loaded word a list) list).registers.read r
      = k.taken r (word (a + 4 * UInt32.ofNat j)) := by
  obtain ⟨hlt, rfl⟩ := List.getElem?_eq_some_iff.mp hj
  have hmem := List.getElem_mem hlt
  rw [read_accepted, if_pos hmem, Registers.read_loaded, if_pos hmem, hn.idxOf_getElem j hlt]

/-- Any other register keeps its value. -/
theorem read_accepted_of_unlisted {word : Word → Word} {a : Word} {r : Reg} (hr : r ∉ list) :
    (k.accepted (rs.loaded word a list) list).registers.read r = rs.read r := by
  rw [read_accepted, if_neg hr, Registers.read_loaded, if_neg hr]

end Core

namespace Execution

variable {B : Type} [Bus B] {b : Block}

/-- The accesses of a load in the current mode, by induction on the list. -/
theorem accesses_loadBlock (hu : b.user = false) (hr : b.restore = false) (list : List Reg)
    (first : Bool) (a : Word) (x : Execution B) :
    (loadBlock b first a list x).accesses
      = x.accesses ++ wordAccesses .load first a (list.map fun _ => 0) := by
  induction list generalizing first a x with
  | nil => exact (List.append_nil _).symm
  | cons r list ih =>
      let y := (x.load .word (!first) a).2
      have haccepted (v : Word) : (y.acceptLoaded b r v).accesses
          = x.accesses ++ [⟨.load, .word, !first, a, 0⟩] := by
        refine Eq.trans ?_ (x.accesses_access _ x.trail)
        rw [acceptLoaded, hu, hr, if_neg Bool.false_ne_true, if_neg Bool.false_ne_true]
        split <;> rfl
      rw [loadBlock]
      dsimp only
      rw [ih, haccepted, List.map_cons, wordAccesses_cons, List.append_assoc]
      rfl

/-- **Loading a block** into the registers of the current mode.  R15 comes last and
    branches once everything else is loaded. -/
theorem core_loadBlock (hu : b.user = false) (hr : b.restore = false) (list : Half)
    (first : Bool) (a : Word) (x : Execution B) :
    (loadBlock b first a (listed list) x).core
        = x.core.accepted (x.core.registers.loaded (wordAt x.bus) a (listed list)) (listed list)
      ∧ (loadBlock b first a (listed list) x).bus = x.bus := by
  by_cases hpc : Reg.pc ∈ listed list
  · -- the registers before R15 are loaded into the file, and R15 on top of that
    obtain ⟨before, hbefore, hn, hpc'⟩ := listed_of_pc hpc
    obtain ⟨sequential, hseq⟩ := loadBlock_concat b before Reg.pc first a x
    have h := loadBlock_current hu before hn hpc' first a x
    rw [hbefore, Registers.loaded_concat hpc', Core.accepted_write_pc _ _ (hbefore ▸ hpc), hseq]
    dsimp only
    rw [acceptLoaded, if_pos rfl, hr, if_neg Bool.false_ne_true, ← h.core, ← h.bus]
    exact ⟨rfl, rfl⟩
  · have h := loadBlock_current hu (listed list) (nodup_listed list) hpc first a x
    rw [Core.accepted, if_neg hpc]
    exact ⟨h.core, h.bus⟩

end Execution

/-! ## A transfer -/

/-- The first address of a block. -/
def Core.blockStart (k : Core) (a : Addressing) (rn : Reg) (list : Half) : Word :=
  a.first (k.registers.read rn) (wordCount list)

/-- What a store in the current mode puts down for the register at a place of its list:
    R15 as the pipeline has it, and the base as it was when it comes first, as it will be
    when it comes later. -/
def Core.blockValue (k : Core) (a : Addressing) (rn : Reg) (list : Half) (j : Nat) (r : Reg) :
    Word :=
  if r = Reg.pc then k.effectivePc .stored
  else if r = rn ∧ a.writeBack ∧ j ≠ 0 then a.moved (k.registers.read rn) (wordCount list)
  else k.registers.read r

/-- The values of a store, one after the other. -/
def Core.blockValues (k : Core) (a : Addressing) (rn : Reg) (list : Half) : List Word :=
  (listed list).mapIdx (k.blockValue a rn list)

/-- The core with the base of a block written back, if it is. -/
def Core.based (k : Core) (a : Addressing) (rn : Reg) (list : Half) : Core :=
  if a.writeBack then k.setRegister rn (a.moved (k.registers.read rn) (wordCount list)) else k

namespace Core

variable (k : Core) (a : Addressing) (rn : Reg) (list : Half)

/-- The base is moved if W is set, and nothing else. -/
theorem read_based (r : Reg) :
    (k.based a rn list).registers.read r
      = if r = rn ∧ a.writeBack then a.moved (k.registers.read rn) (wordCount list)
        else k.registers.read r := by
  rw [based]
  by_cases hw : a.writeBack = true
  · rw [if_pos hw]
    show (k.registers.write rn _).read r = _
    rw [Registers.read_write]
    by_cases hr : rn = r
    · rw [if_pos hr, if_pos ⟨hr.symm, hw⟩]
    · rw [if_neg hr, if_neg fun h => hr h.1.symm]
  · rw [if_neg hw, if_neg fun h => hw h.2]

/-- A register that is not loaded holds what it held, or the moved base. -/
theorem read_blockBase {list : Half} {r : Reg} (hr : r ∉ listed list) :
    (k.blockBase a rn list).read r = (k.based a rn list).registers.read r := by
  rw [read_based, blockBase, blockRange_eq]
  by_cases hrn : r = rn
  · subst hrn
    by_cases hw : a.writeBack = true
    · rw [if_pos ⟨hw, hr⟩, if_pos ⟨rfl, hw⟩, Registers.read_write, if_pos rfl]
    · rw [if_neg fun h => hw h.1, if_neg fun h => hw h.2]
  · have hkept : ¬ (r = rn ∧ a.writeBack = true) := fun h => hrn h.1
    by_cases hw : a.writeBack = true ∧ rn ∉ listed list
    · rw [if_pos hw, if_neg hkept, Registers.read_write, if_neg (Ne.symm hrn)]
    · rw [if_neg hw, if_neg hkept]

theorem cpsr_based : (k.based a rn list).cpsr = k.cpsr := by
  rw [based]
  split <;> rfl

theorem bank_based : (k.based a rn list).bank = k.bank := by
  rw [based]
  split <;> rfl

end Core

namespace Execution

variable {B : Type} [Bus B] (x : Execution B) (a : Addressing) {rn : Reg} (list : Half)

omit [Bus B] in
/-- A base other than R15 is written back. -/
theorem writeBase_eq_based (hrn : rn ≠ Reg.pc) {k : Core} (hk : x.core = k) :
    (if a.writeBack then x.writeBase rn (k.blockRange a rn list).2 else x)
      = x.withCore (k.based a rn list) := by
  subst hk
  rw [Core.based, writeBase, if_neg hrn, Core.blockRange_eq]
  split <;> rfl

/-- An instruction in flight that has stored a block of the current mode. -/
structure StoresBlock (x : Execution B) (a : Addressing) (rn : Reg) (list : Half)
    (y : Execution B) : Prop where
  core : y.core = x.core.based a rn list
  bus : y.bus
    = Bus.written x.bus (wordsFrom (x.core.blockStart a rn list) (x.core.blockValues a rn list))
  flushed : y.flushed = x.flushed
  accesses : y.accesses = x.accesses
    ++ wordAccesses .store true (x.core.blockStart a rn list) (x.core.blockValues a rn list)

/-- An instruction in flight that has loaded a block of the current mode. -/
structure LoadsBlock (x : Execution B) (a : Addressing) (rn : Reg) (list : Half)
    (y : Execution B) : Prop where
  listed : ∀ (j : Nat) (r : Reg), (listed list)[j]? = some r → y.core.registers.read r
    = x.core.taken r (wordAt x.bus (x.core.blockStart a rn list + 4 * UInt32.ofNat j))
  /-- A loaded base wins over the moved one. -/
  unlisted : ∀ r ∉ Armv4t.listed list,
    y.core.registers.read r = (x.core.based a rn list).registers.read r
  cpsr : y.core.cpsr = x.core.cpsr
  bank : y.core.bank = x.core.bank
  bus : y.bus = x.bus
  flushed : y.flushed = (x.flushed || decide (Reg.pc ∈ Armv4t.listed list))
  accesses : y.accesses = x.accesses ++ wordAccesses .load true (x.core.blockStart a rn list)
    ((Armv4t.listed list).map fun _ => 0)

omit [Bus B] in
/-- The values of the block are those that the rule for the base says. -/
theorem storedValues_block :
    x.storedValues (x.core.block .store a false rn list) true (listed list)
      = x.core.blockValues a rn list := by
  rw [storedValues, Core.blockValues]
  congr 1
  funext j r
  rw [storedValue, Core.blockValue, Core.block, Core.blockRange_eq]
  simp

/-- A store of a block, with the S bit or without: the base moves once all is stored. -/
theorem transferBlock_stored (s : Bool) (hrn : rn ≠ Reg.pc) :
    ∃ y, x.Stored true (x.core.blockStart a rn list)
        (x.storedValues (x.core.block .store a s rn list) true (listed list)) y
      ∧ x.transferBlock .store a s rn list = y.scatter.withCore (x.core.based a rn list) := by
  have hy := stored_storeBlock (x.core.block .store a s rn list) (listed list) true
    (x.core.blockStart a rn list) x
  have hstart : (x.core.blockRange a rn list).1 = x.core.blockStart a rn list :=
    congrArg Prod.fst (x.core.blockRange_eq a rn list)
  refine ⟨_, hy, ?_⟩
  rw [transferBlock_store, hstart]
  exact writeBase_eq_based _ a list hrn hy.core

/-- **A store of a block in the current mode.** -/
theorem stores_transferBlock (hrn : rn ≠ Reg.pc) :
    x.StoresBlock a rn list (x.transferBlock .store a false rn list) := by
  obtain ⟨y, hy, heq⟩ := x.transferBlock_stored a list false hrn
  rw [x.storedValues_block] at hy
  rw [heq]
  exact ⟨rfl, hy.bus, hy.flushed, hy.accesses⟩

/-- **A load of a block in the current mode**: the base moves before anything is loaded,
    unless it is loaded itself. -/
theorem loads_transferBlock (hrn : rn ≠ Reg.pc) :
    x.LoadsBlock a rn list (x.transferBlock .load a false rn list) := by
  let b := x.core.block .load a false rn list
  let start := x.core.blockStart a rn list
  have hstart : (x.core.blockRange a rn list).1 = start :=
    congrArg Prod.fst (x.core.blockRange_eq a rn list)
  let y := x.withCore { x.core with registers := x.core.blockBase a rn list }
  have heq : x.transferBlock .load a false rn list
      = (loadBlock b true start (listed list) y).wait 1 := by
    rw [transferBlock_load, hstart]
    show (loadBlock b true start (listed list) (if a.writeBack ∧ rn ∉ listed list
      then x.writeBase rn (x.core.blockRange a rn list).2 else x)).wait 1 = _
    rw [x.moveBlockBase_of_ne a fun _ => hrn]
  obtain ⟨hcore, hbus⟩ := core_loadBlock (b := b) rfl rfl list true start y
  have hflushed : (loadBlock b true start (listed list) y).flushed
      = (x.flushed || decide (Reg.pc ∈ listed list)) := by
    have h := congrArg Footprint.flushed (y.footprint_loadBlock b (listed list) true start)
    simp only [footprint, Footprint.append_eq, Footprint.words, Footprint.writes,
      Bool.or_false] at h
    exact h
  have hacc := accesses_loadBlock (b := b) rfl rfl (listed list) true start y
  rw [heq]
  refine ⟨?_, ?_, ?_, ?_, hbus, hflushed, hacc⟩
  · intro j r hj
    show (loadBlock b true start (listed list) y).core.registers.read r = _
    rw [hcore, Core.read_accepted_of_listed _ _ (nodup_listed list) hj]
    rfl
  · intro r hr
    show (loadBlock b true start (listed list) y).core.registers.read r = _
    rw [hcore, Core.read_accepted_of_unlisted _ _ hr]
    exact x.core.read_blockBase a rn hr
  · show (loadBlock b true start (listed list) y).core.cpsr = _
    rw [hcore, Core.cpsr_accepted]
    rfl
  · show (loadBlock b true start (listed list) y).core.bank = _
    rw [hcore, Core.bank_accepted]
    rfl

end Execution

/-! ## Instructions -/

/-- An instruction, as it was fetched, that moves a block of the current mode: a transfer
    without the S bit of the 32-bit set, and every one of the 16-bit set. -/
inductive Fetched.MovesBlock : Fetched → TransferKind → Addressing → Reg → Half → Prop where
  | arm (c : Condition) (kind : TransferKind) (a : Addressing) (rn : Reg) (list : Half)
      (raw : Word) : MovesBlock (.arm ⟨c, .blockTransfer kind a false rn list, raw⟩) kind a rn list
  | stack (kind : TransferKind) (extra : Bool) (list raw : Half) :
      MovesBlock (.thumb ⟨.pushPop kind extra list, raw⟩) kind (Thumb.stackAddressing kind) Reg.sp
        (Thumb.stackList kind extra list)
  | multiple (kind : TransferKind) (rb : LowReg) (list raw : Half) :
      MovesBlock (.thumb ⟨.blockTransfer kind rb list, raw⟩) kind ⟨.post, .up, true⟩ rb.wide list

/-- Every form of a block transfer is the one transfer with its own addressing. -/
theorem Fetched.MovesBlock.execute_eq {f : Fetched} {kind : TransferKind} {a : Addressing}
    {rn : Reg} {list : Half} (h : f.MovesBlock kind a rn list) {B : Type} [Bus B]
    (x : Execution B) : f.execute x = x.transferBlock kind a false rn list := by
  cases h with
  | arm c kind a rn list raw => rfl
  | stack kind extra list raw => exact Thumb.pushPop_eq x kind extra list
  | multiple kind rb list raw => rfl

/-! ## Steps -/

namespace Machine

section Generic

variable {B : Type} (m : Machine B) (a : Addressing) (rn : Reg) (list : Half)

/-- The first address of a block. -/
def blockStart : Word := a.first (m.read rn) (wordCount list)

/-- The base of a block once it is moved. -/
def blockMoved : Word := a.moved (m.read rn) (wordCount list)

/-- What a store puts down for the register at a place of its list.  R15 is three
    instructions on: 12 bytes in the 32-bit set, 6 in the 16-bit set. -/
def blockValue (j : Nat) (r : Reg) : Word :=
  if r = Reg.pc then m.core.instructionSet.align m.core.pc + 3 * m.core.instructionSet.size
  else if r = rn ∧ a.writeBack ∧ j ≠ 0 then m.blockMoved a rn list
  else m.read r

variable {m rn}

/-- A stored R15 reads three instructions ahead of the aligned one. -/
theorem effectivePc_aligned_stored :
    m.core.aligned.effectivePc .stored
      = m.core.instructionSet.align m.core.pc + 3 * m.core.instructionSet.size := by
  have hset : m.core.aligned.instructionSet = m.core.instructionSet := rfl
  rw [Core.effectivePc, hset, Core.pc_aligned]
  cases m.core.instructionSet <;> rfl

/-- Alignment changes no word that a block stores. -/
theorem blockValue_aligned (hrn : rn ≠ Reg.pc) :
    m.core.aligned.blockValue a rn list = m.blockValue a rn list := by
  funext j r
  rw [Core.blockValue, blockValue, effectivePc_aligned_stored, read_aligned hrn]
  by_cases hr : r = Reg.pc
  · rw [if_pos hr, if_pos hr]
  · rw [if_neg hr, if_neg hr, read_aligned hr]
    rfl

variable {a list}

theorem blockStart_aligned (hrn : rn ≠ Reg.pc) :
    m.core.aligned.blockStart a rn list = m.blockStart a rn list := by
  rw [Core.blockStart, read_aligned hrn, blockStart]

/-- Nor does it change the registers that a moved base leaves. -/
theorem read_based_aligned (hrn : rn ≠ Reg.pc) {r : Reg} (hr : r ≠ Reg.pc) :
    (m.core.aligned.based a rn list).registers.read r
      = if r = rn ∧ a.writeBack then m.blockMoved a rn list else m.read r := by
  rw [Core.read_based, read_aligned hrn, read_aligned hr, blockMoved]

theorem pc_based_aligned (hrn : rn ≠ Reg.pc) :
    (m.core.aligned.based a rn list).registers.read Reg.pc
      = m.core.instructionSet.align m.core.pc := by
  rw [Core.read_based, if_neg fun h => hrn h.1.symm]
  exact Core.pc_aligned m.core

end Generic

variable {m : Machine FlatMemory} {kind : TransferKind} {a : Addressing} {rn : Reg} {list : Half}

/-- A step that stored a block of the current mode, and did nothing else. -/
structure BlockStored (m : Machine FlatMemory) (a : Addressing) (rn : Reg) (list : Half)
    (m' : Machine FlatMemory) : Prop where
  accesses : m.flight.accesses = wordAccesses .store true (m.blockStart a rn list)
    ((listed list).mapIdx (m.blockValue a rn list))
  /-- Each word reads back. -/
  words : ∀ (j : Nat) (r : Reg), (listed list)[j]? = some r →
    Execution.wordAt m'.bus (m.blockStart a rn list + 4 * UInt32.ofNat j)
      = m.blockValue a rn list j r
  /-- No byte of another word has changed. -/
  rest : ∀ b, (∀ j < (listed list).length,
      FlatMemory.slot (m.blockStart a rn list + 4 * UInt32.ofNat j) ≠ FlatMemory.slot b) →
    m'.bus.readByte b = m.bus.readByte b
  registers : ∀ r, r ≠ Reg.pc →
    m'.read r = if r = rn ∧ a.writeBack then m.blockMoved a rn list else m.read r
  pc : m'.core.pc = m.nextPc
  cpsr : m'.core.cpsr = m.core.cpsr
  bank : m'.core.bank = m.core.bank

/-- A step that loaded a block of the current mode, and did nothing else. -/
structure BlockLoaded (m : Machine FlatMemory) (a : Addressing) (rn : Reg) (list : Half)
    (m' : Machine FlatMemory) : Prop where
  accesses : m.flight.accesses = wordAccesses .load true (m.blockStart a rn list)
    ((listed list).map fun _ => 0)
  /-- A listed register takes the word at its place; R15 takes it aligned. -/
  listed : ∀ (j : Nat) (r : Reg), (listed list)[j]? = some r → m'.read r
    = m.core.taken r (Execution.wordAt m.bus (m.blockStart a rn list + 4 * UInt32.ofNat j))
  unlisted : ∀ r, r ≠ Reg.pc → r ∉ Armv4t.listed list →
    m'.read r = if r = rn ∧ a.writeBack then m.blockMoved a rn list else m.read r
  pc : Reg.pc ∉ Armv4t.listed list → m'.core.pc = m.nextPc
  cpsr : m'.core.cpsr = m.core.cpsr
  bank : m'.core.bank = m.core.bank
  bus : m'.bus = m.bus

theorem flight_of_movesBlock (hf : m.fetched.MovesBlock kind a rn list) :
    m.flight = (Execution.start m.core.aligned m.bus).transferBlock kind a false rn list :=
  hf.execute_eq _

/-- **A step over a store of a block.** -/
theorem blockStored_step (hf : m.fetched.MovesBlock .store a rn list) (hrn : rn ≠ Reg.pc) :
    m.BlockStored a rn list m.step.2 := by
  obtain ⟨hcore, hbus, hflushed, hacc⟩ :=
    (Execution.start m.core.aligned m.bus).stores_transferBlock a list hrn
  rw [← flight_of_movesBlock hf] at hcore hbus hflushed hacc
  have hvalues : m.core.aligned.blockValues a rn list
      = (listed list).mapIdx (m.blockValue a rn list) := by
    rw [Core.blockValues, blockValue_aligned a list hrn]
  simp only [Execution.start, blockStart_aligned hrn, hvalues] at hcore hbus hflushed hacc
  refine ⟨hacc, ?_, ?_, ?_, ?_, ?_, ?_⟩
  · intro j r hj
    rw [bus_step, hbus]
    refine FlatMemory.wordAt_written m.bus (length_mapIdx_listed_le list _) _ ?_
    rw [List.getElem?_mapIdx, hj]
    rfl
  · intro b hb
    rw [bus_step, hbus]
    refine FlatMemory.readByte_written_of_ne m.bus _ _ b ?_
    rw [List.length_mapIdx]
    exact hb
  · intro r hr
    rw [m.read_step hr, hcore, read_based_aligned hrn hr]
  · rw [pc_step, hflushed, if_neg Bool.false_ne_true, hcore]
    exact congrArg (· + m.core.instructionSet.size) (pc_based_aligned hrn)
  · rw [cpsr_step, hcore, Core.cpsr_based]
    rfl
  · rw [bank_step, hcore, Core.bank_based]
    rfl

/-- **A step over a load of a block.** -/
theorem blockLoaded_step (hf : m.fetched.MovesBlock .load a rn list) (hrn : rn ≠ Reg.pc) :
    m.BlockLoaded a rn list m.step.2 := by
  obtain ⟨hlisted, hunlisted, hcpsr, hbank, hbus, hflushed, hacc⟩ :=
    (Execution.start m.core.aligned m.bus).loads_transferBlock a list hrn
  rw [← flight_of_movesBlock hf] at hlisted hunlisted hcpsr hbank hbus hflushed hacc
  simp only [Execution.start, blockStart_aligned hrn, Bool.false_or]
    at hlisted hunlisted hflushed hacc
  refine ⟨hacc, ?_, ?_, ?_, ?_, ?_, ?_⟩
  · intro j r hj
    by_cases hr : r = Reg.pc
    · have hmem : Reg.pc ∈ listed list := hr ▸ List.mem_of_getElem? hj
      rw [hr] at hj ⊢
      show m.step.2.core.pc = _
      rw [pc_step, hflushed, if_pos (decide_eq_true hmem)]
      exact hlisted j Reg.pc hj
    · rw [m.read_step hr]
      exact hlisted j r hj
  · intro r hr hmem
    rw [m.read_step hr, hunlisted r hmem, read_based_aligned hrn hr]
  · intro hmem
    rw [pc_step, hflushed, decide_eq_false hmem, if_neg Bool.false_ne_true]
    refine congrArg (· + m.core.instructionSet.size) ?_
    exact (hunlisted Reg.pc hmem).trans (pc_based_aligned hrn)
  · rw [cpsr_step, hcpsr]
    rfl
  · rw [bank_step, hbank]
    rfl
  · rw [bus_step, hbus]
    rfl

/-- **A block of the current mode**, from every state, with every base but R15 and every
    list.  The registers of the list move in ascending order, one word access for each, at
    successive words from the first address on; an empty list moves R15 alone, but its
    addresses and its base are those of sixteen words.  A store leaves in memory what the
    registers held before it (R15 three instructions on, the base as it will be if it is
    written back and comes later than the first), and a load puts the words into the
    registers, R15 last and aligned.  Nothing else changes but the base, if it is written
    back, and R15, which goes on. -/
theorem block_of_current_mode (hf : m.fetched.MovesBlock kind a rn list) (hrn : rn ≠ Reg.pc) :
    (listed list).Pairwise (· < ·)
      ∧ (∀ r, r ∈ listed list ↔ if list = 0 then r = Reg.pc else list.toNat.testBit r.val = true)
      ∧ match kind with
        | .store => m.BlockStored a rn list m.step.2
        | .load => m.BlockLoaded a rn list m.step.2 := by
  refine ⟨listed_ascending list, ?_, ?_⟩
  · intro r
    rw [listed]
    by_cases hzero : list = 0
    · rw [if_pos hzero, if_pos hzero, List.mem_singleton]
    · rw [if_neg hzero, if_neg hzero, mem_registersIn]
  · cases kind with
    | store => exact blockStored_step hf hrn
    | load => exact blockLoaded_step hf hrn

/-- A machine after its reset, at a word in flat memory that is otherwise zero. -/
def ofWord (w : Word) : Machine FlatMemory :=
  .new (Bus.write (FlatMemory.zero 1 1) .word 0 w) Config.standard .error

/-- `STMDB R2!, {R1, R2, R15}` with 7 in R2 stores at the last two words of the address space
    and at the first one, over itself; the base is stored as it will be. -/
theorem block_of_current_mode_of_wrapping :
    let m := ((ofWord 0xE9228006).write 1 5).write 2 7
    m.fetched.MovesBlock .store ⟨.pre, .down, true⟩ 2 0x8006 ∧ (2 : Reg) ≠ Reg.pc
      ∧ Execution.wordAt m.step.2.bus 0xFFFFFFFB = 5
      ∧ Execution.wordAt m.step.2.bus 0xFFFFFFFF = 0xFFFFFFFB
      ∧ Execution.wordAt m.step.2.bus 3 = 12
      ∧ m.step.2.read 2 = 0xFFFFFFFB ∧ m.step.2.core.pc = 4 := by
  intro m
  have hword : m.fetchedWord = 0xE9228006 :=
    (FlatMemory.zero 1 1).wordAt_write 0 0xE9228006
  have hblock : m.fetched.MovesBlock .store ⟨.pre, .down, true⟩ 2 0x8006 := by
    rw [fetched_of_arm (by decide +kernel) (by rw [hword]; decide +kernel), hword]
    exact .arm .al .store ⟨.pre, .down, true⟩ 2 0x8006 0xE9228006
  have hne : (2 : Reg) ≠ Reg.pc := by decide
  obtain ⟨-, -, hstored⟩ := block_of_current_mode hblock hne
  -- the place of each word, and what was put there
  have hword' {j : Nat} {r : Reg} {a v : Word} (hj : (listed 0x8006)[j]? = some r)
      (ha : m.blockStart ⟨.pre, .down, true⟩ 2 0x8006 + 4 * UInt32.ofNat j = a)
      (hv : m.blockValue ⟨.pre, .down, true⟩ 2 0x8006 j r = v) :
      Execution.wordAt m.step.2.bus a = v := by
    rw [← ha, hstored.words j r hj, hv]
  refine ⟨hblock, hne, ?_, ?_, ?_, ?_, ?_⟩
  · exact @hword' 0 1 _ _ (by decide) (by decide +kernel) (by decide +kernel)
  · exact @hword' 1 2 _ _ (by decide) (by decide +kernel) (by decide +kernel)
  · exact @hword' 2 Reg.pc _ _ (by decide) (by decide +kernel) (by decide +kernel)
  · rw [hstored.registers 2 hne]
    decide +kernel
  · rw [hstored.pc]
    decide +kernel

end Machine

end Armv4t
