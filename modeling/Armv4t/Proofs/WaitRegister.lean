import Armv4t.Proofs.Fields
import Armv4t.Proofs.Loading

/-! # The wait register — costs that follow its eleven bits

    Mapped memory keeps the costs of its regions beside the wait control register that
    selects them.  The register has fields wider than what counts of them; what counts are
    eleven bits, and these are a number.

    * The fields of a register and the parts of its number are the same
      (`WaitFields.ofNumber_toBits`), and a number gives its eleven lowest bits to a register
      and gets them back (`WaitControl.toBits_ofBits`);
    * the costs that a register selects are those of its fields, page by page
      (`WaitStates.toInt_cycles`), so they are in step with each other as the pages are
      (`PageLaw`);
    * no operation but the setting of the register changes it, and every one keeps the costs
      in step (`MappedMemory.Coherent.perform`); so does a run
      (`MappedMemory.Coherent.performAll`).

    `MappedMemory.costs_follow_register` puts this together. -/

namespace Armv4t

/-! ## The bits of the register -/

/-- A halfword holds a number of so many bits. -/
def Half.Holds (x : Half) (bits n : Nat) : Prop := x.toNat = n ∧ n < 2 ^ bits

/-- Two numbers side by side, if there is room for both. -/
theorem Half.Holds.beside {x y p : Half} {d e m n : Nat} (hx : Half.Holds x d m)
    (hy : Half.Holds y e n) (hp : p.toNat = d) (hfree : d < 16) (hroom : d + e ≤ 16) :
    Half.Holds (x ||| (y <<< p)) (d + e) (m + 2 ^ d * n) := by
  obtain ⟨rfl, hm⟩ := hx
  obtain ⟨rfl, hn⟩ := hy
  have hsum : x.toNat + 2 ^ d * y.toNat < 2 ^ (d + e) := by
    calc x.toNat + 2 ^ d * y.toNat < 2 ^ d + 2 ^ d * y.toNat := Nat.add_lt_add_right hm _
      _ = 2 ^ d * (y.toNat + 1) := by rw [Nat.mul_succ, Nat.add_comm]
      _ ≤ 2 ^ d * 2 ^ e := Nat.mul_le_mul_left _ hn
      _ = 2 ^ (d + e) := (Nat.pow_add ..).symm
  have hfit : y.toNat <<< d < 2 ^ 16 := by
    rw [Nat.shiftLeft_eq, Nat.mul_comm]
    calc 2 ^ d * y.toNat ≤ x.toNat + 2 ^ d * y.toNat := Nat.le_add_left ..
      _ < 2 ^ (d + e) := hsum
      _ ≤ 2 ^ 16 := Nat.pow_le_pow_right (by decide) hroom
  refine ⟨?_, hsum⟩
  rw [UInt16.toNat_or, UInt16.toNat_shiftLeft, hp, Nat.mod_eq_of_lt hfree,
    Nat.mod_eq_of_lt hfit, or_shiftLeft_eq_add hm]

/-- What the fields of a register hold, so far as it counts. -/
structure WaitFields where
  sram : Nat
  first0 : Nat
  second0 : Nat
  first1 : Nat
  second1 : Nat
  first2 : Nat
  second2 : Nat

namespace WaitFields

/-- The fields in the bits of a number. -/
def ofNumber (n : Nat) : WaitFields :=
  ⟨n % 4, n / 4 % 4, n / 16 % 2, n / 32 % 4, n / 128 % 2, n / 256 % 4, n / 1024 % 2⟩

/-- The number of some fields, side by side. -/
def number (f : WaitFields) : Nat :=
  f.sram + 4 * f.first0 + 16 * f.second0 + 32 * f.first1 + 128 * f.second1 + 256 * f.first2
    + 1024 * f.second2

/-- The fields of a register: of each the two lowest bits, or one. -/
def ofControl (k : WaitControl) : WaitFields :=
  { sram := k.sram.toNat % 4
    first0 := k.first0.toNat % 4
    second0 := k.second0.toNat
    first1 := k.first1.toNat % 4
    second1 := k.second1.toNat
    first2 := k.first2.toNat % 4
    second2 := k.second2.toNat }

theorem number_ofNumber (n : Nat) : (ofNumber n).number = n % 2 ^ 11 := by
  simp only [number, ofNumber]
  omega

/-- The two bits of a field that count. -/
theorem toNat_and_three (b : Byte) : (b &&& 3).toNat = b.toNat % 4 := by
  rw [UInt8.toNat_and]
  exact Nat.and_two_pow_sub_one_eq_mod b.toNat 2

theorem holds_field (b : Byte) : Half.Holds (b &&& 3).toUInt16 2 (b.toNat % 4) := by
  refine ⟨?_, Nat.mod_lt _ (by decide)⟩
  rw [UInt8.toNat_toUInt16, toNat_and_three]

theorem holds_flag (b : Bool) : Half.Holds b.toUInt16 1 b.toNat := by
  cases b
  · exact ⟨rfl, by decide⟩
  · exact ⟨rfl, by decide⟩

/-- **The bits of a register are the number of its fields.** -/
theorem holds_toBits (k : WaitControl) : Half.Holds k.toBits 11 (ofControl k).number := by
  have window0 := ((holds_field k.sram).beside (holds_field k.first0) (p := 2) rfl (by decide)
    (by decide)).beside (holds_flag k.second0) (p := 4) rfl (by decide) (by decide)
  have window1 := (window0.beside (holds_field k.first1) (p := 5) rfl (by decide)
    (by decide)).beside (holds_flag k.second1) (p := 7) rfl (by decide) (by decide)
  exact (window1.beside (holds_field k.first2) (p := 8) rfl (by decide)
    (by decide)).beside (holds_flag k.second2) (p := 10) rfl (by decide) (by decide)

/-- And the fields in these bits are those of the register. -/
theorem ofNumber_toBits (k : WaitControl) : ofNumber k.toBits.toNat = ofControl k := by
  have h0 := k.second0.toNat_lt
  have h1 := k.second1.toNat_lt
  have h2 := k.second2.toNat_lt
  simp only [(holds_toBits k).1, number, ofControl, ofNumber, mk.injEq]
  omega

/-- The fields that bits give to a register are those in the bits. -/
theorem ofControl_ofBits (raw : Half) : ofControl (.ofBits raw) = ofNumber raw.toNat := by
  have hfield (lo : Word) (hlo : lo < 32) :
      (field raw.toUInt32 lo 2).toUInt8.toNat % 4 = raw.toNat / 2 ^ lo.toNat % 4 := by
    rw [UInt32.toNat_toUInt8, toNat_field _ hlo (by decide), UInt16.toNat_toUInt32]
    show raw.toNat / 2 ^ lo.toNat % 4 % 256 % 4 = _
    omega
  have hbit (i : Word) (hi : i < 32) :
      (bit raw.toUInt32 i).toNat = raw.toNat / 2 ^ i.toNat % 2 := by
    have hvalue : ∀ b : Bool, b.toNat = (if b then (1 : Word) else 0).toNat := by decide
    rw [hvalue, ← field_one, toNat_field _ hi (by decide), UInt16.toNat_toUInt32]
    rfl
  have hlowest : raw.toNat / 2 ^ (0 : Word).toNat = raw.toNat := Nat.div_one _
  rw [ofNumber, ofControl, mk.injEq]
  exact ⟨hlowest ▸ hfield 0 (by decide), hfield 2 (by decide), hbit 4 (by decide),
    hfield 5 (by decide), hbit 7 (by decide), hfield 8 (by decide), hbit 10 (by decide)⟩

end WaitFields

namespace WaitControl

/-- **The eleven lowest bits come back, and nothing of the others.** -/
theorem toBits_ofBits (raw : Half) : (ofBits raw).toBits = raw &&& 0x07FF := by
  have hmask : (raw &&& 0x07FF).toNat = raw.toNat % 2 ^ 11 := by
    rw [UInt16.toNat_and]
    exact Nat.and_two_pow_sub_one_eq_mod raw.toNat 11
  rw [← UInt16.toNat_inj, hmask]
  calc (ofBits raw).toBits.toNat
      = (WaitFields.ofControl (ofBits raw)).number := (WaitFields.holds_toBits _).1
    _ = (WaitFields.ofNumber raw.toNat).number := by rw [WaitFields.ofControl_ofBits]
    _ = raw.toNat % 2 ^ 11 := WaitFields.number_ofNumber _

/-- So the bits of a register come back as they are. -/
theorem toBits_ofBits_toBits (k : WaitControl) : (ofBits k.toBits).toBits = k.toBits := by
  have hsame : WaitFields.ofControl (ofBits k.toBits) = WaitFields.ofControl k :=
    (WaitFields.ofControl_ofBits _).trans (WaitFields.ofNumber_toBits k)
  rw [← UInt16.toNat_inj, (WaitFields.holds_toBits _).1, hsame, (WaitFields.holds_toBits k).1]

end WaitControl

/-! ## The costs by the fields -/

/-- The waits of a first access that a field of two bits selects. -/
def firstWaits (n : Nat) : Int := if n = 0 then 4 else if n = 1 then 3 else if n = 2 then 2 else 8

/-- The waits of a following access: one if a bit is set, and else those of the window. -/
def nextWaits (slow : Int) (n : Nat) : Int := if n = 1 then 1 else slow

/-- The cycles of a first and of a following halfword, for the pages on a 16-bit bus. -/
def halfwordCycles? (f : WaitFields) (page : Nat) : Option (Int × Int) :=
  match page with
  | 0x02 => some (3, 3)
  | 0x05 | 0x06 => some (1, 1)
  | 0x08 | 0x09 => some (1 + firstWaits f.first0, 1 + nextWaits 2 f.second0)
  | 0x0A | 0x0B => some (1 + firstWaits f.first1, 1 + nextWaits 4 f.second1)
  | 0x0C | 0x0D => some (1 + firstWaits f.first2, 1 + nextWaits 8 f.second2)
  | _ => none

/-- These pages. -/
def halfwordPages : List Nat := [0x02, 0x05, 0x06, 0x08, 0x09, 0x0A, 0x0B, 0x0C, 0x0D]

theorem halfwordCycles?_of_mem {page : Nat} (h : page ∈ halfwordPages) (f : WaitFields) :
    ∃ first next, halfwordCycles? f page = some (first, next) := by
  simp only [halfwordPages, List.mem_cons, List.not_mem_nil, or_false] at h
  rcases h with rfl | rfl | rfl | rfl | rfl | rfl | rfl | rfl | rfl <;> exact ⟨_, _, rfl⟩

theorem halfwordCycles?_of_not_mem {page : Nat} (h : page ∉ halfwordPages) (f : WaitFields) :
    halfwordCycles? f page = none := by
  unfold halfwordCycles?
  split
  all_goals first | rfl | exact absurd (by decide) h

/-- The cycles of an access that goes by halfwords: a word is two of them, and the second one
    follows the first. -/
def byHalfwords (first next : Int) (sequential word : Bool) : Int :=
  match sequential, word with
  | false, false => first
  | true, false => next
  | false, true => first + next
  | true, true => 2 * next

/-- The cycles of an access to a page, by the fields of the register. -/
def pageCycles (f : WaitFields) (page : Nat) (sequential word : Bool) : Int :=
  match halfwordCycles? f page with
  | some (first, next) => byHalfwords first next sequential word
  | none => if page = 0x0E ∨ page = 0x0F then 1 + firstWaits f.sram else 1

/-- A page on another bus costs the same for every access. -/
theorem pageCycles_of_not_mem {page : Nat} (h : page ∉ halfwordPages) (f : WaitFields)
    (sequential word : Bool) : pageCycles f page sequential word
      = if page = 0x0E ∨ page = 0x0F then 1 + firstWaits f.sram else 1 := by
  rw [pageCycles, halfwordCycles?_of_not_mem h]

theorem toInt_firstWait (b : Byte) : (firstWait b).toInt = firstWaits (b.toNat % 4) := by
  have heq (n : Byte) : b &&& 3 = n ↔ b.toNat % 4 = n.toNat := by
    rw [← UInt8.toNat_inj, WaitFields.toNat_and_three]
  simp only [firstWait, heq, apply_ite Int32.toInt]
  rfl

/-- A window of the cartridge. -/
theorem toInt_window (first : Byte) (second : Bool) (slow : Int32)
    (hslow : slow = 2 ∨ slow = 4 ∨ slow = 8) (sequential word : Bool) :
    ((RegionCost.halves (1 + firstWait first) (1 + if second then 1 else slow)).cycles
        sequential word).toInt
      = byHalfwords (1 + firstWaits (first.toNat % 4)) (1 + nextWaits slow.toInt second.toNat)
        sequential word := by
  rw [← toInt_firstWait]
  rcases firstWait_cases first with h | h | h | h <;> rw [h] <;>
    rcases hslow with rfl | rfl | rfl <;> revert second sequential word <;> decide

/-- The static memory of the cartridge. -/
theorem toInt_sram (first : Byte) (sequential word : Bool) :
    ((RegionCost.uniform (1 + firstWait first)).cycles sequential word).toInt
      = 1 + firstWaits (first.toNat % 4) := by
  rw [← toInt_firstWait]
  rcases firstWait_cases first with h | h | h | h <;> rw [h] <;>
    revert sequential word <;> decide

/-- **The costs that a register selects are those of its fields**, page by page. -/
theorem WaitStates.toInt_cycles (k : WaitControl) (sequential word : Bool) (a : Word) :
    ((ofControl k).cycles sequential word a).toInt
      = pageCycles (.ofControl k) (page a) sequential word := by
  have hpage : (a >>> 24).toNat = page a := by
    rw [UInt32.toNat_shiftRight]
    exact Nat.shiftRight_eq_div_pow a.toNat 24
  have window0 := toInt_window k.first0 k.second0 2 (by decide) sequential word
  have window1 := toInt_window k.first1 k.second1 4 (by decide) sequential word
  have window2 := toInt_window k.first2 k.second2 8 (by decide) sequential word
  have sram := toInt_sram k.sram sequential word
  rw [cycles, region, hpage]
  generalize page a = p
  split
  · cases sequential <;> cases word <;> rfl
  · cases sequential <;> cases word <;> rfl
  · cases sequential <;> cases word <;> rfl
  · exact window0
  · exact window0
  · exact window1
  · exact window1
  · exact window2
  · exact window2
  · exact sram
  · exact sram
  · -- the pages that are left have a bus as wide as a word
    have hpages : p ∉ halfwordPages := by
      simp only [halfwordPages, List.mem_cons, List.not_mem_nil, or_false]
      rintro (rfl | rfl | rfl | rfl | rfl | rfl | rfl | rfl | rfl) <;> contradiction
    have hsram : ¬ (p = 0x0E ∨ p = 0x0F) := by
      rintro (rfl | rfl) <;> contradiction
    rw [pageCycles_of_not_mem hpages, if_neg hsram]
    cases sequential <;> cases word <;> rfl

/-- What the pages have in common, whatever the register holds: a word on a 16-bit bus costs
    two halfwords, the second one following the first; the static memory of the cartridge
    costs the same for every access, and the pages on a 32-bit bus one cycle; both pages of a
    window cost the same; and no access costs less than one cycle or more than eighteen. -/
structure PageLaw (cost : Bool → Bool → Word → Int32) : Prop where
  halfwords : ∀ a, page a ∈ halfwordPages →
    (cost false true a).toInt = (cost false false a).toInt + (cost true false a).toInt
      ∧ (cost true true a).toInt = 2 * (cost true false a).toInt
  bytes : ∀ a, page a = 0x0E ∨ page a = 0x0F →
    ∀ sequential word, cost sequential word a = cost false false a
  words : ∀ a, page a ∉ halfwordPages → ¬ (page a = 0x0E ∨ page a = 0x0F) →
    ∀ sequential word, cost sequential word a = 1
  windows : ∀ a b, page a ∈ [0x08, 0x0A, 0x0C] → page b = page a + 1 →
    ∀ sequential word, cost sequential word b = cost sequential word a
  moderate : ∀ sequential word a, InRange (cost sequential word a)

/-- Costs that are those of some fields follow the law of the pages. -/
theorem PageLaw.of_pageCycles {cost : Bool → Bool → Word → Int32} {f : WaitFields}
    (h : ∀ sequential word a,
      (cost sequential word a).toInt = pageCycles f (page a) sequential word)
    (hmoderate : ∀ sequential word a, InRange (cost sequential word a)) : PageLaw cost where
  halfwords a ha := by
    obtain ⟨first, next, hcycles⟩ := halfwordCycles?_of_mem ha f
    simp only [h, pageCycles, hcycles]
    exact ⟨rfl, rfl⟩
  bytes a ha sequential word := by
    have hpages : page a ∉ halfwordPages := by
      rcases ha with ha | ha <;> rw [ha] <;> decide
    rw [← Int32.toInt_inj, h, h, pageCycles_of_not_mem hpages, pageCycles_of_not_mem hpages]
  words a ha hsram sequential word := by
    rw [← Int32.toInt_inj, h, pageCycles_of_not_mem ha, if_neg hsram]
    rfl
  windows a b ha hb sequential word := by
    simp only [List.mem_cons, List.not_mem_nil, or_false] at ha
    rw [← Int32.toInt_inj, h, h, hb]
    rcases ha with ha | ha | ha <;> rw [ha] <;> rfl
  moderate := hmoderate

/-! ## Runs of operations -/

/-- Something that is done to a memory. -/
inductive MemoryOp where
  | setControl (k : WaitControl)
  | read (width : Width) (a : Word)
  | write (width : Width) (a v : Word)
  | load (a : Word) (data : ByteArray)

/-- The register that was set last. -/
def lastControl (k : WaitControl) : List MemoryOp → WaitControl
  | [] => k
  | .setControl k' :: ops => lastControl k' ops
  | _ :: ops => lastControl k ops

namespace MappedMemory

/-- The memory after an operation.  What is read does not change it, and neither does data
    that does not fit. -/
def perform (m : MappedMemory) : MemoryOp → MappedMemory
  | .setControl k => m.setControl k
  | .read _ _ => m
  | .write width a v => Bus.write m width a v
  | .load a data => m.afterLoad a data

/-- The memory after some operations. -/
def performAll (m : MappedMemory) : List MemoryOp → MappedMemory
  | [] => m
  | op :: ops => (m.perform op).performAll ops

/-- **Only setting the register changes it**, and every operation keeps the costs in step. -/
theorem Coherent.perform {m : MappedMemory} (h : m.Coherent) (op : MemoryOp) :
    (m.perform op).Coherent ∧ (m.perform op).control = lastControl m.control [op] := by
  cases op with
  | setControl k => exact ⟨m.coherent_setControl k, rfl⟩
  | read width a => exact ⟨h, rfl⟩
  | write width a v => exact ⟨h.write width a v, congrArg Prod.fst (m.tuning_write width a v)⟩
  | load a data =>
      have htuning := m.tuning_attemptLoad a data
      exact ⟨h.of_tuning htuning, congrArg Prod.fst htuning⟩

/-- So after a run the register is the one that was set last, and the costs are its own; by
    induction on the operations. -/
theorem Coherent.performAll {m : MappedMemory} (h : m.Coherent) (ops : List MemoryOp) :
    (m.performAll ops).Coherent ∧ (m.performAll ops).control = lastControl m.control ops := by
  induction ops generalizing m with
  | nil => exact ⟨h, rfl⟩
  | cons op ops ih =>
      obtain ⟨hstep, hcontrol⟩ := h.perform op
      obtain ⟨hrun, hlast⟩ := ih hstep
      refine ⟨hrun, hlast.trans ?_⟩
      rw [hcontrol]
      cases op <;> rfl

/-- The costs of a memory in step with its register are those of the register's bits. -/
theorem Coherent.toInt_cost {m : MappedMemory} (h : m.Coherent) (sequential word : Bool)
    (a : Word) : (Bus.cost m sequential word a).toInt
      = pageCycles (.ofNumber m.control.toBits.toNat) (page a) sequential word := by
  show (m.states.cycles sequential word a).toInt = _
  rw [h, WaitFields.ofNumber_toBits]
  exact WaitStates.toInt_cycles m.control sequential word a

/-- Two memories in step with registers of the same bits cost the same at the same page,
    whatever they hold. -/
theorem Coherent.cost_eq {m m' : MappedMemory} (h : m.Coherent) (h' : m'.Coherent)
    (hbits : m'.control.toBits = m.control.toBits) {a b : Word} (hpage : page b = page a)
    (sequential word : Bool) : Bus.cost m' sequential word b = Bus.cost m sequential word a := by
  rw [← Int32.toInt_inj, h.toInt_cost, h'.toInt_cost, hbits, hpage]

/-- **Costs follow the wait register**, through every run that sets it, reads, writes and
    loads.  They are those of the bits of the register that was set last, at the page of the
    address: two runs that set the same eleven bits last cost the same there, whatever else
    they did, and so does a fresh memory with a register made of these bits.  The eleven bits
    are all that a number gives to the register.  And whatever the register holds, the costs
    follow the law of the pages. -/
theorem costs_follow_register (start : WaitControl) (ops : List MemoryOp) :
    let m := (zero start).performAll ops
    let k := lastControl start ops
    m.control = k
      ∧ (∀ sequential word a, (Bus.cost m sequential word a).toInt
        = pageCycles (.ofNumber k.toBits.toNat) (page a) sequential word)
      ∧ (∀ sequential word a, Bus.cost m sequential word a
        = Bus.cost (zero (.ofBits k.toBits)) sequential word a)
      ∧ (∀ start' ops', (lastControl start' ops').toBits = k.toBits →
        ∀ a b, page b = page a → ∀ sequential word,
          Bus.cost ((zero start').performAll ops') sequential word b
            = Bus.cost m sequential word a)
      ∧ (∀ raw : Half, (WaitControl.ofBits raw).toBits = raw &&& 0x07FF)
      ∧ PageLaw (Bus.cost m) := by
  intro m k
  obtain ⟨hm, hcontrol⟩ := (coherent_zero start).performAll ops
  have hcost (sequential word : Bool) (a : Word) : (Bus.cost m sequential word a).toInt
      = pageCycles (.ofNumber k.toBits.toNat) (page a) sequential word := by
    rw [hm.toInt_cost, hcontrol]
    rfl
  refine ⟨hcontrol, hcost, ?_, ?_, WaitControl.toBits_ofBits,
    .of_pageCycles hcost (cost_inRange hm)⟩
  · intro sequential word a
    have hbits : m.control.toBits = (WaitControl.ofBits k.toBits).toBits := by
      rw [WaitControl.toBits_ofBits_toBits, hcontrol]
      rfl
    exact (coherent_zero _).cost_eq hm hbits rfl sequential word
  · intro start' ops' hbits a b hpage sequential word
    obtain ⟨hm', hcontrol'⟩ := (coherent_zero start').performAll ops'
    refine hm.cost_eq hm' ?_ hpage sequential word
    rw [hcontrol', hcontrol]
    exact hbits

/-- A register with more in its fields than counts, set before the I/O register of the same
    name is written and data is loaded: a first word of the second window takes 1 + 3 and
    1 + 4 cycles, in both its pages, and as many after a run that only sets these bits. -/
theorem costs_follow_register_of_wide_fields :
    let k : WaitControl := ⟨0xFE, 7, true, 0x81, false, 3, true⟩
    let ops : List MemoryOp := [.setControl k, .write .word 0x04000204 0x4317,
      .load 0x0B000000 ⟨#[1, 2]⟩, .read .half 0x0E000000]
    let m := (zero .zero).performAll ops
    let ops' : List MemoryOp := [.setControl (.ofBits 0xFF3E)]
    (Bus.cost m false true 0x0A000000).toInt = 9
      ∧ Bus.cost m false true 0x0BFFFFFC = Bus.cost m false true 0x0A000000
      ∧ (lastControl .zero ops').toBits = (lastControl .zero ops).toBits
      ∧ page 0x0A123456 = page 0x0A000000
      ∧ Bus.cost ((zero .zero).performAll ops') false true 0x0A123456
        = Bus.cost m false true 0x0A000000 := by
  intro k ops m ops'
  have hbits : (lastControl .zero ops').toBits = (lastControl .zero ops).toBits := by decide
  have hpage : page 0x0A123456 = page 0x0A000000 := by decide
  obtain ⟨-, hcost, -, hrun, -, hlaw⟩ := costs_follow_register .zero ops
  refine ⟨(hcost false true 0x0A000000).trans (by decide), ?_, hbits, hpage, ?_⟩
  · exact hlaw.windows 0x0A000000 0x0BFFFFFC (by decide) (by decide) false true
  · exact hrun .zero ops' hbits 0x0A000000 0x0A123456 hpage false true

end MappedMemory

end Armv4t
