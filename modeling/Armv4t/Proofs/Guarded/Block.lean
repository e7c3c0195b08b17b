import Armv4t.Proofs.Guarded.Running
import Armv4t.Proofs.StepBound

/-! # Guarded blocks — sixteen words at most, none of them out of range

    A block transfer asks its list for sixteen bits, counts the registers it names, and
    multiplies the place of each one by four.  With S set it reaches into the bank.
    The loops are guarded here with the place of the next register counted from zero,
    and the invariant is that the places still to come end at sixteen. -/

namespace Armv4t

open Bus

namespace Guarded

/-! ## Lists -/

/-- The registers of which a question that may fail says yes. -/
def keep (ask : Reg → Option Bool) : List Reg → Option (List Reg)
  | [] => some []
  | r :: rs => do
    let yes ← ask r
    let rest ← keep ask rs
    some (if yes then r :: rest else rest)

/-- The bits of a list that moves something: an empty one names R15. -/
def listBits (list : Half) : Option Word :=
  if list = 0 then one 16 15 else some list.toUInt32

/-- The registers named by sixteen bits. -/
def registersIn (bits : Word) : Option (List Reg) :=
  keep (fun r => getBit 16 bits r.val.toUInt32) Reg.all

/-- The first address and the moved base of a block of `count` words. -/
def blockRange (a : Addressing) (base count : Word) : Option (Word × Word) := do
  let size ← mulWord count 4
  match a.direction, a.indexing with
  | .up, .post => some (base, base + size)
  | .up, .pre => some (base + 4, base + size)
  | .down, .post => some (base - size + 4, base - size)
  | .down, .pre => some (base - size, base - size)

theorem keep_eq {ask : Reg → Option Bool} {p : Reg → Bool} (h : ∀ r, ask r = some (p r))
    (rs : List Reg) : keep ask rs = some (rs.filter p) := by
  induction rs with
  | nil => rfl
  | cons r rs ih =>
      rw [keep, h, ih, List.filter_cons]
      rfl

/-- The number of a register is that of a bit in a list. -/
theorem getBit_reg (bits : Word) (r : Reg) :
    getBit 16 bits r.val.toUInt32 = some (bit bits r.val.toUInt32) := by
  refine getBit_eq (UInt32.lt_iff_toNat_lt.mpr ?_)
  exact Nat.lt_of_le_of_lt (Nat.mod_le _ _) r.isLt

/-- The bits of a list name the registers that it moves, and each of them says whether
    its register is one. -/
theorem exists_listBits (list : Half) :
    ∃ bits, listBits list = some bits ∧ registersIn bits = some (listed list)
      ∧ ∀ r : Reg, bit bits r.val.toUInt32 = decide (r ∈ listed list) := by
  by_cases h : list = 0
  · -- an empty list moves R15 alone
    refine ⟨0x8000, ?_, ?_, ?_⟩
    · rw [listBits, if_pos h]
      rfl
    · rw [registersIn, keep_eq (getBit_reg _), listed, if_pos h]
      decide
    · rw [listed, if_pos h]
      decide
  · refine ⟨list.toUInt32, if_neg h, ?_, ?_⟩
    · rw [registersIn, keep_eq (getBit_reg _), listed, if_neg h]
      rfl
    · intro r
      have hall : r ∈ Reg.all := List.mem_finRange r
      rw [listed, if_neg h, Armv4t.registersIn]
      simp [List.mem_filter, hall]

/-- Sixteen words at most have a size. -/
theorem blockRange_eq (a : Addressing) (base : Word) (list : Half) :
    blockRange a base (listedCount list)
      = some (Armv4t.blockRange a base (listedCount list)) := by
  have hcount : (listedCount list).toNat ≤ 16 := by
    rw [listedCount]
    split
    · exact Nat.le_refl 16
    · exact Nat.le_trans (Nat.mod_le _ _) (length_listed_le list)
  have hsize : mulWord (listedCount list) 4 = some (listedCount list * 4) :=
    mulWord_eq (show _ * 4 < 2 ^ 32 by omega)
  obtain ⟨indexing, direction, writeBack⟩ := a
  cases indexing <;> cases direction <;> simp [blockRange, Armv4t.blockRange, hsize]

/-! ## Loops -/

namespace Running

variable {B : Type} (t : Running B)

/-- The value that a block stores for the register at some place. -/
def storedValue (block : Block) (n : Nat) (r : Reg) : Option Word :=
  let k := t.flight.core
  if r = Reg.pc then effectivePc k .stored
  else if block.user then userRegister k.bank k.registers block.mode r
  else if r = block.rn ∧ block.writeBack ∧ 0 < n then some block.moved
  else some (k.registers.read r)

/-- Puts a loaded word into a register of a block. -/
def acceptLoaded (block : Block) (r : Reg) (v : Word) : Option (Running B) := do
  if r = Reg.pc then
    let t ← if block.restore then t.restoreStatus else some t
    t.branchTo v
  else if block.user then
    let k := t.flight.core
    let (registers, bank) ← setUserRegister k.bank k.registers block.mode r v
    some (t.map (·.withCore { k with registers, bank }))
  else some (t.map (·.setRegister r v))

variable [Bus B]

/-- Stores the registers of a block from some place on. -/
def storeBlock (block : Block) (start : Word) (n : Nat) : List Reg → Running B →
    Option (Running B)
  | [], t => some t
  | r :: rs, t => do
    let a := start + (← mulWord 4 n.toUInt32)
    let t ← t.store .word (0 < n) a (← t.storedValue block n r)
    storeBlock block start (n + 1) rs t

/-- Loads the registers of a block from some place on. -/
def loadBlock (block : Block) (start : Word) (n : Nat) : List Reg → Running B →
    Option (Running B)
  | [], t => some t
  | r :: rs, t => do
    let a := start + (← mulWord 4 n.toUInt32)
    let (v, t) ← t.load .word (0 < n) a
    loadBlock block start (n + 1) rs (← t.acceptLoaded block r v)

/-- A block transfer: which way, how addressed, with the S bit, base and list. -/
def transferBlock (kind : TransferKind) (a : Addressing) (s : Bool) (rn : Reg)
    (list : Half) : Option (Running B) := do
  let k := t.flight.core
  let bits ← listBits list
  let registers ← registersIn bits
  let count := if list = 0 then 16 else registers.length.toUInt32
  let (start, moved) ← blockRange a (k.registers.read rn) count
  let loadsPc ← getBit 16 bits 15
  let block : Block :=
    { rn
      writeBack := a.writeBack
      moved
      user := s && !(kind == .load && loadsPc)
      restore := s
      mode := k.mode }
  match kind with
  | .store =>
    let t ← storeBlock block start 0 registers t
    let t := t.map (·.scatter)
    some (if a.writeBack then t.map (·.writeBase rn moved) else t)
  | .load =>
    let listsBase ← getBit 16 bits rn.val.toUInt32
    let t := if a.writeBack && !listsBase then t.map (·.writeBase rn moved) else t
    let t ← loadBlock block start 0 registers t
    t.wait 1

end Running

variable {B : Type} [Bus B] {b : B} {k : Nat} {t : Running B}

/-- The place of a register of a block. -/
theorem mulWord_place {n : Nat} (h : n < 16) :
    mulWord 4 n.toUInt32 = some (4 * n.toUInt32) := by
  have hn : n.toUInt32.toNat ≤ n := Nat.mod_le _ _
  exact mulWord_eq (show 4 * n.toUInt32.toNat < 2 ^ 32 by omega)

/-- The next register takes the next word. -/
theorem place_succ (a : Word) (n : Nat) :
    a + 4 * (n + 1).toUInt32 = a + 4 * n.toUInt32 + 4 := by
  simp only [Nat.toUInt32_eq]
  rw [wordAddress_succ, UInt32.add_assoc, UInt32.add_comm 4, ← UInt32.add_assoc]

/-- The first register takes the first one. -/
theorem place_zero (a : Word) : a + 4 * (0 : Nat).toUInt32 = a := by
  show a + 4 * 0 = a
  rw [UInt32.mul_zero, UInt32.add_zero]

omit [Bus B] in
@[simp] theorem storedValue_eq (block : Block) (n : Nat) (r : Reg) :
    t.storedValue block n r = some (t.flight.storedValue block (n == 0) r) := by
  simp [Running.storedValue, Execution.storedValue, Nat.pos_iff_ne_zero]

theorem Fair.acceptLoaded (h : Fair b k t) (block : Block) (r : Reg) (v : Word) :
    Gives (t.acceptLoaded block r v) (Follows b k (t.flight.acceptLoaded block r v)) := by
  rw [Running.acceptLoaded, Execution.acceptLoaded]
  by_cases hr : r = Reg.pc
  · rw [if_pos hr, if_pos hr]
    cases block.restore with
    | true =>
        refine h.restoreStatus.bind ?_
        rintro t₁ ⟨ht, h₁⟩
        rw [if_pos rfl, ← ht]
        exact h₁.branchTo v
    | false => exact h.branchTo v
  · rw [if_neg hr, if_neg hr]
    cases block.user with
    | true =>
        rw [if_pos rfl, if_pos rfl]
        dsimp only
        rw [setUserRegister_eq]
        exact h.mapped (.withCore _ _)
    | false => exact h.mapped (.setRegister _ r v)

/-- The stores of a block, by induction on the registers still to come. -/
theorem Fair.storeBlock (block : Block) (start : Word) (rs : List Reg) {n : Nat}
    (hn : n + rs.length ≤ 16) (hk : k + rs.length ≤ 1000) (h : Fair b k t) :
    Gives (Running.storeBlock block start n rs t)
      (Follows b (k + rs.length)
        (Execution.storeBlock block (n == 0) (start + 4 * n.toUInt32) rs t.flight)) := by
  induction rs generalizing n k t with
  | nil => exact h.done
  | cons r rs ih =>
      rw [List.length_cons] at hn hk
      rw [Running.storeBlock, Execution.storeBlock, mulWord_place (by omega), storedValue_eq]
      have hseq : (!(n == 0)) = decide (0 < n) := by
        cases n <;> rfl
      refine (h.store (by omega) .word _ _ _).bind ?_
      rintro t₁ ⟨ht, h₁⟩
      have hrest := ih (n := n + 1) (by omega) (by omega) h₁
      rw [place_succ] at hrest
      rw [hseq, ← ht, List.length_cons, Nat.add_comm rs.length, ← Nat.add_assoc]
      exact hrest

/-- And the loads. -/
theorem Fair.loadBlock (block : Block) (start : Word) (rs : List Reg) {n : Nat}
    (hn : n + rs.length ≤ 16) (hk : k + rs.length ≤ 1000) (h : Fair b k t) :
    Gives (Running.loadBlock block start n rs t)
      (Follows b (k + rs.length)
        (Execution.loadBlock block (n == 0) (start + 4 * n.toUInt32) rs t.flight)) := by
  induction rs generalizing n k t with
  | nil => exact h.done
  | cons r rs ih =>
      rw [List.length_cons] at hn hk
      rw [Running.loadBlock, Execution.loadBlock, mulWord_place (by omega)]
      have hseq : (!(n == 0)) = decide (0 < n) := by
        cases n <;> rfl
      refine (h.load (by omega) .word _ _).bind ?_
      rintro ⟨v, t₁⟩ ⟨hv, ht, h₁⟩
      refine (h₁.acceptLoaded block r v).bind ?_
      rintro t₂ ⟨ht₂, h₂⟩
      have hrest := ih (n := n + 1) (by omega) (by omega) h₂
      rw [place_succ] at hrest
      dsimp only at hv ht
      dsimp only
      rw [hseq, ← hv, ← ht, ← ht₂, List.length_cons, Nat.add_comm rs.length, ← Nat.add_assoc]
      exact hrest

/-- The stores of a whole block. -/
theorem Fair.storeBlock_start (h : Fair b 0 t) (block : Block) (start : Word) {rs : List Reg}
    (hrs : rs.length ≤ 16) :
    Gives (Running.storeBlock block start 0 rs t)
      (Follows b 16 (Execution.storeBlock block true start rs t.flight)) := by
  have hstore := h.storeBlock block start rs (n := 0) (by omega) (by omega)
  rw [place_zero] at hstore
  exact hstore.within (by omega)

/-- And the loads. -/
theorem Fair.loadBlock_start (h : Fair b 0 t) (block : Block) (start : Word) {rs : List Reg}
    (hrs : rs.length ≤ 16) :
    Gives (Running.loadBlock block start 0 rs t)
      (Follows b 16 (Execution.loadBlock block true start rs t.flight)) := by
  have hload := h.loadBlock block start rs (n := 0) (by omega) (by omega)
  rw [place_zero] at hload
  exact hload.within (by omega)

/-- A block transfer is charged for sixteen words at most, and a load for one cycle more. -/
theorem Fair.transferBlock (h : Fair b 0 t) (kind : TransferKind) (a : Addressing) (s : Bool)
    (rn : Reg) (list : Half) :
    Gives (t.transferBlock kind a s rn list)
      (Follows b 17 (t.flight.transferBlock kind a s rn list)) := by
  obtain ⟨bits, hbits, hlisted, hbit⟩ := exists_listBits list
  have hlength := length_listed_le list
  have hcount : (if list = 0 then 16 else (listed list).length.toUInt32) = listedCount list := rfl
  have hpc : getBit 16 bits 15 = some (decide (Reg.pc ∈ listed list)) := by
    rw [← hbit]
    exact getBit_reg bits Reg.pc
  have hrn : getBit 16 bits rn.val.toUInt32 = some (decide (rn ∈ listed list)) := by
    rw [getBit_reg, hbit]
  have huser : (kind == .load && decide (Reg.pc ∈ listed list))
      = decide (kind = .load ∧ Reg.pc ∈ listed list) := by
    cases kind <;> simp
  rw [Running.transferBlock]
  simp only [hbits, hlisted, hcount, blockRange_eq, hpc, hrn, huser, Option.bind_eq_bind,
    Option.bind_some]
  cases kind with
  | store =>
      rw [Execution.transferBlock_store]
      refine (h.storeBlock_start (t.flight.core.block .store a s rn list)
        (t.flight.core.blockRange a rn list).1 hlength).bind ?_
      rintro t₁ ⟨ht, h₁⟩
      dsimp only
      rw [← ht]
      exact (gives_some (Follows.ite (h₁.scatter.2.writeBase rn _) h₁.scatter)).within (by decide)
  | load =>
      rw [Execution.transferBlock_load]
      -- the base moves first, unless it is loaded
      have hbase : Follows b 0
          (if a.writeBack ∧ rn ∉ listed list then
            t.flight.writeBase rn (t.flight.core.blockRange a rn list).2 else t.flight)
          (if a.writeBack && !decide (rn ∈ listed list) then
            t.map (·.writeBase rn (t.flight.core.blockRange a rn list).2) else t) := by
        simp only [Bool.and_eq_true, Bool.not_eq_true', decide_eq_false_iff_not]
        exact (h.writeBase rn _).ite h.still
      obtain ⟨ht, h₁⟩ := hbase
      refine (h₁.loadBlock_start (t.flight.core.block .load a s rn list)
        (t.flight.core.blockRange a rn list).1 hlength).bind ?_
      rintro t₂ ⟨ht₂, h₂⟩
      rw [ht] at ht₂
      dsimp only
      rw [show (t.flight.core.block .load a s rn list).moved
        = (t.flight.core.blockRange a rn list).2 from rfl, ← ht₂]
      exact h₂.waitOne (by decide)

end Guarded

end Armv4t
