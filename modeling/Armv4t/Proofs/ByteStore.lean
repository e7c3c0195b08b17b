import Mathlib.Algebra.Ring.Nat
import Armv4t.Memory.Mapped
import Armv4t.Proofs.Dispatch
import Armv4t.Proofs.Writes

/-! # The byte store — mapped memory, told by addresses alone

    What an address reads as is settled by addresses alone, without a word about regions
    and offsets: by which addresses name the same byte (`Aliased`), which ones can be
    written (`Writable`), and which byte was written last under any of a byte's names
    (`lastWritten`).

    * Two addresses are aliased exactly where they are located in the same place of a
      region that can be written (`aliased_iff`);
    * so a write of one byte changes what its aliases read as, and nothing else
      (`MappedMemory.readByte_writeByte`), and after any writes, whatever their widths and
      wherever they wrap, a byte reads as it was written last
      (`MappedMemory.readByte_written`), by induction on the writes;
    * what was never written reads as its place in the memory map says
      (`MappedMemory.readByte_of_not_writable`). -/

namespace Armv4t

/-! ## Addresses -/

/-- The highest byte of an address, which names its region. -/
def page (a : Word) : Nat := a.toNat / 0x1000000

/-- A region that repeats through its pages, over and over after so many bytes. -/
structure Repeating where
  pages : List Nat
  modulus : Nat
  deriving DecidableEq

/-- The regions that repeat: working memory, internal and external, the palette, the
    object attributes and the static memory of the cartridge. -/
def repeating : List Repeating :=
  [⟨[0x02], 0x40000⟩, ⟨[0x03], 0x8000⟩, ⟨[0x05], 0x400⟩, ⟨[0x07], 0x400⟩, ⟨[0x0E, 0x0F], 0x10000⟩]

/-- The place of an address in the 128 KiB through which the video memory repeats. -/
def videoOffset (a : Word) : Nat := a.toNat % 0x20000

/-- Two places of the 128 KiB name one byte of the video memory: they are the same, or
    both lie in the upper half, whose last 32 KiB repeat those before. -/
def SameVideoByte (v w : Nat) : Prop :=
  v = w ∨ 0x10000 ≤ v ∧ 0x10000 ≤ w ∧ v % 0x8000 = w % 0x8000

instance (v w : Nat) : Decidable (SameVideoByte v w) := inferInstanceAs (Decidable (_ ∨ _))

/-- An address of the registers of the I/O region, which does not repeat. -/
def InIo (a : Word) : Prop := page a = 0x04 ∧ a.toNat % 0x1000000 < 0x400

instance (a : Word) : Decidable (InIo a) := inferInstanceAs (Decidable (_ ∧ _))

/-- Two addresses under which one and the same byte can be written. -/
def Aliased (a b : Word) : Prop :=
  (∃ r ∈ repeating, page a ∈ r.pages ∧ page b ∈ r.pages
      ∧ a.toNat % r.modulus = b.toNat % r.modulus)
    ∨ (page a = 0x06 ∧ page b = 0x06 ∧ SameVideoByte (videoOffset a) (videoOffset b))
    ∨ (InIo a ∧ a = b)

instance (a b : Word) : Decidable (Aliased a b) := inferInstanceAs (Decidable (_ ∨ _ ∨ _))

/-- An address of a byte that can be written. -/
def Writable (a : Word) : Prop :=
  page a ∈ [0x02, 0x03, 0x05, 0x06, 0x07, 0x0E, 0x0F] ∨ InIo a

instance (a : Word) : Decidable (Writable a) := inferInstanceAs (Decidable (_ ∨ _))

/-- An address of the cartridge. -/
def InCartridge (a : Word) : Prop := 0x08 ≤ page a ∧ page a ≤ 0x0D

instance (a : Word) : Decidable (InCartridge a) := inferInstanceAs (Decidable (_ ∧ _))

/-! ## Where an address is located -/

/-- The byte of the video memory at a place of the 128 KiB. -/
def videoPlace (v : Nat) : Nat := if v < 0x18000 then v else v - 0x8000

theorem videoPlace_lt {v : Nat} (h : v < 0x20000) : videoPlace v < 0x18000 := by
  rw [videoPlace]
  split <;> omega

theorem videoPlace_eq_iff {v w : Nat} (hv : v < 0x20000) (hw : w < 0x20000) :
    videoPlace v = videoPlace w ↔ SameVideoByte v w := by
  rw [videoPlace, videoPlace, SameVideoByte]
  split <;> split <;> omega

theorem videoOffset_lt (a : Word) : videoOffset a < 0x20000 := Nat.mod_lt _ (by decide)

/-- An address stands for an offset in a region. -/
def Region.At (r : Region) (a : Word) (offset : Nat) : Prop :=
  match r with
  | .bios => a.toNat < 0x4000 ∧ a.toNat = offset
  | .ewram => page a = 0x02 ∧ a.toNat % 0x40000 = offset
  | .iwram => page a = 0x03 ∧ a.toNat % 0x8000 = offset
  | .io => InIo a ∧ a.toNat % 0x400 = offset
  | .palette => page a = 0x05 ∧ a.toNat % 0x400 = offset
  | .vram => page a = 0x06 ∧ videoPlace (videoOffset a) = offset
  | .oam => page a = 0x07 ∧ a.toNat % 0x400 = offset
  | .sram => (page a = 0x0E ∨ page a = 0x0F) ∧ a.toNat % 0x10000 = offset

theorem locate_eq_cell_iff {a : Word} {r : Region} {offset : Nat} :
    locate a = some (.cell r offset) ↔ r.At a offset := by
  constructor
  · intro h
    rw [locate] at h
    split at h <;> rename_i hp
    all_goals try split at h
    all_goals cases h
    all_goals first | exact ⟨hp, rfl⟩ | simp_all [Region.At, page, InIo]
  · intro h
    cases r with
    | bios =>
        obtain ⟨hlow, rfl⟩ := h
        have hp : a.toNat / 0x1000000 = 0 := by omega
        simp [locate, hp, hlow]
    | io =>
        obtain ⟨⟨hp, hlow⟩, rfl⟩ := h
        rw [page] at hp
        simp [locate, hp, hlow]
    | sram =>
        obtain ⟨hp, rfl⟩ := h
        rw [page] at hp
        rcases hp with hp | hp <;> simp [locate, hp]
    | vram =>
        obtain ⟨hp, rfl⟩ := h
        rw [page] at hp
        rw [locate, hp]
        rfl
    | _ =>
        obtain ⟨hp, rfl⟩ := h
        rw [page] at hp
        simp [locate, hp]

theorem locate_eq_cartridge_iff {a : Word} {offset : Nat} :
    locate a = some (.cartridge offset) ↔ InCartridge a ∧ a.toNat % 0x2000000 = offset := by
  constructor
  · intro h
    rw [locate] at h
    split at h <;> rename_i hp
    all_goals try split at h
    all_goals cases h
    all_goals simp [InCartridge, page, hp, cartridgeLimit]
  · rintro ⟨⟨hlow, hhigh⟩, rfl⟩
    rw [page] at hlow hhigh
    have hp : a.toNat / 0x1000000 = 8 ∨ a.toNat / 0x1000000 = 9 ∨ a.toNat / 0x1000000 = 10
        ∨ a.toNat / 0x1000000 = 11 ∨ a.toNat / 0x1000000 = 12 ∨ a.toNat / 0x1000000 = 13 := by
      omega
    rcases hp with hp | hp | hp | hp | hp | hp <;> simp [locate, hp, cartridgeLimit]

/-- An offset lies in its region. -/
theorem Region.At.lt_size {r : Region} {a : Word} {offset : Nat} (h : r.At a offset) :
    offset < r.size := by
  cases r with
  | bios => exact h.2 ▸ h.1
  | vram =>
      obtain ⟨-, rfl⟩ := h
      exact videoPlace_lt (videoOffset_lt a)
  | _ =>
      obtain ⟨-, rfl⟩ := h
      exact Nat.mod_lt _ (by decide)

/-- What a repeating region and its row of the table have to do with each other. -/
theorem Region.at_iff_of_repeating {t : Repeating} (ht : t ∈ repeating) :
    ∃ r : Region, r.writable = true
      ∧ ∀ a offset, r.At a offset ↔ page a ∈ t.pages ∧ a.toNat % t.modulus = offset := by
  simp only [repeating, List.mem_cons, List.not_mem_nil, or_false] at ht
  rcases ht with rfl | rfl | rfl | rfl | rfl
  · exact ⟨.ewram, rfl, by simp [Region.At]⟩
  · exact ⟨.iwram, rfl, by simp [Region.At]⟩
  · exact ⟨.palette, rfl, by simp [Region.At]⟩
  · exact ⟨.oam, rfl, by simp [Region.At]⟩
  · exact ⟨.sram, rfl, by simp [Region.At]⟩

/-- A region that can be written repeats, but for two. -/
theorem Region.repeating_of_writable {r : Region} (hr : r.writable = true) :
    r = .vram ∨ r = .io ∨ ∃ t ∈ repeating,
      ∀ a offset, r.At a offset ↔ page a ∈ t.pages ∧ a.toNat % t.modulus = offset := by
  cases r with
  | bios => exact nomatch hr
  | vram => exact Or.inl rfl
  | io => exact Or.inr (Or.inl rfl)
  | ewram => exact Or.inr (Or.inr ⟨⟨[0x02], 0x40000⟩, by decide, by simp [Region.At]⟩)
  | iwram => exact Or.inr (Or.inr ⟨⟨[0x03], 0x8000⟩, by decide, by simp [Region.At]⟩)
  | palette => exact Or.inr (Or.inr ⟨⟨[0x05], 0x400⟩, by decide, by simp [Region.At]⟩)
  | oam => exact Or.inr (Or.inr ⟨⟨[0x07], 0x400⟩, by decide, by simp [Region.At]⟩)
  | sram => exact Or.inr (Or.inr ⟨⟨[0x0E, 0x0F], 0x10000⟩, by decide, by simp [Region.At]⟩)

/-- **Aliases are the names of one place**: two addresses are aliased exactly where they
    stand for the same offset in the same region, one that can be written. -/
theorem aliased_iff {a b : Word} :
    Aliased a b ↔ ∃ r : Region, r.writable = true ∧ ∃ offset, r.At a offset ∧ r.At b offset := by
  have hvideo := videoPlace_eq_iff (videoOffset_lt a) (videoOffset_lt b)
  constructor
  · rintro (⟨t, ht, ha, hb, h⟩ | ⟨ha, hb, h⟩ | ⟨ha, rfl⟩)
    · obtain ⟨r, hr, hat⟩ := Region.at_iff_of_repeating ht
      exact ⟨r, hr, _, (hat a _).mpr ⟨ha, rfl⟩, (hat b _).mpr ⟨hb, h.symm⟩⟩
    · exact ⟨.vram, rfl, _, ⟨ha, rfl⟩, ⟨hb, (hvideo.mpr h).symm⟩⟩
    · exact ⟨.io, rfl, _, ⟨ha, rfl⟩, ⟨ha, rfl⟩⟩
  · rintro ⟨r, hr, offset, ha, hb⟩
    rcases Region.repeating_of_writable hr with rfl | rfl | ⟨t, ht, hat⟩
    · exact Or.inr (Or.inl ⟨ha.1, hb.1, hvideo.mp (ha.2.trans hb.2.symm)⟩)
    · -- within the first KiB of one page the offset is all of the address
      obtain ⟨⟨hpa, hla⟩, ha⟩ := ha
      obtain ⟨⟨hpb, hlb⟩, hb⟩ := hb
      rw [page] at hpa hpb
      refine Or.inr (Or.inr ⟨⟨hpa, hla⟩, ?_⟩)
      rw [← UInt32.toNat_inj]
      omega
    · obtain ⟨hpa, ha⟩ := (hat a offset).mp ha
      obtain ⟨hpb, hb⟩ := (hat b offset).mp hb
      exact Or.inl ⟨t, ht, hpa, hpb, ha.trans hb.symm⟩

/-- An address can be written where it is located in such a region. -/
theorem writable_iff {a : Word} :
    Writable a ↔ ∃ r : Region, r.writable = true ∧ ∃ offset, r.At a offset := by
  constructor
  · rintro (h | h)
    · simp only [List.mem_cons, List.not_mem_nil, or_false] at h
      rcases h with h | h | h | h | h | h | h
      · exact ⟨.ewram, rfl, _, h, rfl⟩
      · exact ⟨.iwram, rfl, _, h, rfl⟩
      · exact ⟨.palette, rfl, _, h, rfl⟩
      · exact ⟨.vram, rfl, _, h, rfl⟩
      · exact ⟨.oam, rfl, _, h, rfl⟩
      · exact ⟨.sram, rfl, _, Or.inl h, rfl⟩
      · exact ⟨.sram, rfl, _, Or.inr h, rfl⟩
    · exact ⟨.io, rfl, _, h, rfl⟩
  · rintro ⟨r, hr, offset, h⟩
    cases r with
    | bios => exact nomatch hr
    | io => exact Or.inr h.1
    | _ =>
        refine Or.inl ?_
        have hpage := h.1
        simp only [List.mem_cons, List.not_mem_nil, or_false]
        omega

/-- So a write reaches all addresses that are located where its own is. -/
theorem aliased_iff_locate {a b : Word} : Aliased a b ↔ Writable a ∧ locate a = locate b := by
  rw [aliased_iff, writable_iff]
  constructor
  · rintro ⟨r, hr, offset, ha, hb⟩
    have hlocate := (locate_eq_cell_iff.mpr ha).trans (locate_eq_cell_iff.mpr hb).symm
    exact ⟨⟨r, hr, offset, ha⟩, hlocate⟩
  · rintro ⟨⟨r, hr, offset, ha⟩, hlocate⟩
    rw [locate_eq_cell_iff.mpr ha] at hlocate
    exact ⟨r, hr, offset, ha, locate_eq_cell_iff.mp hlocate.symm⟩

theorem Aliased.writable {a b : Word} (h : Aliased a b) : Writable b := by
  obtain ⟨r, hr, offset, -, hb⟩ := aliased_iff.mp h
  exact writable_iff.mpr ⟨r, hr, offset, hb⟩

/-! ## One byte -/

namespace MappedMemory

variable (m : MappedMemory)

theorem cells_modify (r : Region) (f : Storage r.size → Storage r.size) :
    (m.modify r f).cells r = f (m.cells r) := by
  cases r <;> rfl

theorem cells_modify_of_ne {r s : Region} (h : r ≠ s) (f : Storage r.size → Storage r.size) :
    (m.modify r f).cells s = m.cells s := by
  cases r <;> cases s <;> first | rfl | exact absurd rfl h

theorem cartridge_modify (r : Region) (f : Storage r.size → Storage r.size) :
    (m.modify r f).cartridge = m.cartridge := by
  cases r <;> rfl

/-- A byte of a region, at any of its addresses. -/
theorem readByte_of_at {r : Region} {a : Word} {offset : Nat} (h : r.At a offset) :
    m.readByte a = (m.cells r).get offset := by
  rw [readByte, locate_eq_cell_iff.mpr h]

/-- A write where nothing can be written changes nothing. -/
theorem writeByte_of_not_writable {a : Word} (h : ¬ Writable a) (v : Byte) :
    m.writeByte a v = m := by
  rw [writeByte]
  cases hl : locate a with
  | none => rfl
  | some place =>
      cases place with
      | cartridge offset => rfl
      | cell r offset =>
          have hr : r.writable ≠ true := fun hr =>
            h (writable_iff.mpr ⟨r, hr, offset, locate_eq_cell_iff.mp hl⟩)
          exact if_neg hr

/-- A write where something can be written changes one byte of one region. -/
theorem writeByte_of_at {r : Region} (hr : r.writable = true) {a : Word} {offset : Nat}
    (h : r.At a offset) (v : Byte) : m.writeByte a v = m.modify r (·.set offset v) := by
  rw [writeByte, locate_eq_cell_iff.mpr h]
  exact if_pos hr

/-- Regions that cannot be written stay as they are. -/
theorem fixed_writeByte (a : Word) (v : Byte) :
    (m.writeByte a v).bios = m.bios ∧ (m.writeByte a v).cartridge = m.cartridge := by
  by_cases ha : Writable a
  · obtain ⟨r, hr, offset, h⟩ := writable_iff.mp ha
    have hbios : r ≠ .bios := by
      rintro rfl
      exact nomatch hr
    rw [m.writeByte_of_at hr h]
    exact ⟨m.cells_modify_of_ne hbios _, m.cartridge_modify r _⟩
  · rw [m.writeByte_of_not_writable ha]
    exact ⟨rfl, rfl⟩

/-- One byte of a region replaced, as any address sees it. -/
theorem readByte_modify_set {r : Region} {i : Nat} (hi : i < r.size) (v : Byte) (b : Word) :
    (m.modify r (·.set i v)).readByte b
      = if locate b = some (.cell r i) then v else m.readByte b := by
  rw [readByte, readByte]
  cases hl : locate b with
  | none => rfl
  | some place =>
      cases place with
      | cartridge offset =>
          dsimp only
          rw [m.cartridge_modify, if_neg (by simp)]
      | cell s j =>
          dsimp only
          by_cases hs : r = s
          · subst hs
            rw [m.cells_modify, Storage.get_set]
            simp [hi, eq_comm]
          · rw [m.cells_modify_of_ne hs, if_neg (by simp [Ne.symm hs])]

/-- **A write of one byte changes what its aliases read as, and nothing else.** -/
theorem readByte_writeByte (a b : Word) (v : Byte) :
    (m.writeByte a v).readByte b = if Aliased a b then v else m.readByte b := by
  by_cases ha : Writable a
  · obtain ⟨r, hr, i, hi⟩ := writable_iff.mp ha
    have halias : Aliased a b ↔ locate b = some (.cell r i) := by
      rw [aliased_iff_locate, locate_eq_cell_iff.mpr hi, and_iff_right ha, eq_comm]
    rw [m.writeByte_of_at hr hi, m.readByte_modify_set hi.lt_size]
    exact if_congr halias.symm rfl rfl
  · have hnot : ¬ Aliased a b := fun h => ha (aliased_iff_locate.mp h).1
    rw [m.writeByte_of_not_writable ha, if_neg hnot]

end MappedMemory

/-! ## Many bytes -/

/-- The last of some bytes, each with its address, that was put under a name of `b`. -/
def lastIn (bs : List (Word × Byte)) (b : Word) : Option Byte :=
  (bs.reverse.find? fun p => Aliased p.1 b).map Prod.snd

theorem lastIn_append (bs cs : List (Word × Byte)) (b : Word) :
    lastIn (bs ++ cs) b = (lastIn cs b).or (lastIn bs b) := by
  rw [lastIn, List.reverse_append, List.find?_append, Option.map_or]
  rfl

theorem lastIn_cons (a : Word) (v : Byte) (bs : List (Word × Byte)) (b : Word) :
    lastIn ((a, v) :: bs) b = (lastIn bs b).or (if Aliased a b then some v else none) := by
  rw [← List.singleton_append, lastIn_append]
  congr 1
  by_cases h : Aliased a b <;> simp [lastIn, h]

/-- A byte that nothing can be written under was not written. -/
theorem lastIn_of_not_writable {b : Word} (h : ¬ Writable b) (bs : List (Word × Byte)) :
    lastIn bs b = none := by
  have hnone : bs.reverse.find? (fun p => Aliased p.1 b) = none := by
    rw [List.find?_eq_none]
    intro p _
    rw [decide_eq_true_eq]
    exact fun hp => h hp.writable
  rw [lastIn, hnone, Option.map_none]

/-- The bytes of a write, each with its address. -/
def Write.bytes (w : Write) : List (Word × Byte) := placed w.address (bytesOf w.width w.value)

/-- The byte that some writes put last under a name of `b`. -/
def lastWritten (ws : List Write) (b : Word) : Option Byte := lastIn (ws.flatMap Write.bytes) b

namespace MappedMemory

/-- Bytes at successive addresses read as they were written last. -/
theorem readByte_writeBytes (m : MappedMemory) (a : Word) (bs : List Byte) (b : Word) :
    (m.writeBytes a bs).readByte b = (lastIn (placed a bs) b).getD (m.readByte b) := by
  induction bs generalizing m a with
  | nil => rfl
  | cons v bs ih =>
      rw [writeBytes, ih, readByte_writeByte, placed, lastIn_cons, Option.getD_or]
      congr 1
      split <;> rfl

/-- **A byte reads as it was written last**, under any of its names, and as it did where it
    was not written; by induction on the writes. -/
theorem readByte_written (m : MappedMemory) (ws : List Write) (b : Word) :
    Bus.readByte (Bus.written m ws) b = (lastWritten ws b).getD (Bus.readByte m b) := by
  induction ws generalizing m with
  | nil => rfl
  | cons w ws ih =>
      have hw : Bus.readByte (Bus.write m w.width w.address w.value) b
          = (lastIn w.bytes b).getD (Bus.readByte m b) :=
        m.readByte_writeBytes w.address (bytesOf w.width w.value) b
      show Bus.readByte (Bus.written (Bus.write m w.width w.address w.value) ws) b = _
      rw [ih, hw, lastWritten, lastWritten, List.flatMap_cons, lastIn_append, Option.getD_or]

/-! ## What was never written -/

end MappedMemory

/-- What the address lines show: of the lower half of the halfword's number, the low byte at
    an even address and the high one at an odd address. -/
def addressByte (a : Word) : Byte :=
  let n := a.toNat / 2 % 0x10000
  if a.toNat % 2 = 0 then UInt8.ofNat n else UInt8.ofNat (n / 0x100)

theorem openBus_eq (a : Word) : MappedMemory.openBus a = addressByte a := by
  have hlow : (a &&& 1).toNat = a.toNat % 2 := by
    rw [UInt32.toNat_and]
    exact Nat.and_two_pow_sub_one_eq_mod a.toNat 1
  have hhalf : (a >>> 1).toNat = a.toNat / 2 := by
    rw [UInt32.toNat_shiftRight]
    exact Nat.shiftRight_eq_div_pow a.toNat 1
  rw [MappedMemory.openBus, byteOfWord, addressByte]
  by_cases h : a.toNat % 2 = 0
  · have hbit : a &&& 1 = 0 := by
      rw [← UInt32.toNat_inj, hlow, h]
      rfl
    rw [if_pos h, hbit, ← UInt8.toNat_inj]
    show ((a >>> 1) >>> 0).toUInt8.toNat = _
    rw [UInt32.shiftRight_zero, UInt32.toNat_toUInt8, hhalf, UInt8.toNat_ofNat']
    omega
  · have hbit : a &&& 1 = 1 := by
      rw [← UInt32.toNat_inj, hlow, Nat.mod_two_ne_zero.mp h]
      rfl
    rw [if_neg h, hbit, ← UInt8.toNat_inj]
    show ((a >>> 1) >>> 8).toUInt8.toNat = _
    rw [UInt32.toNat_toUInt8, UInt32.toNat_shiftRight, hhalf, UInt8.toNat_ofNat']
    show (a.toNat / 2) >>> 8 % 2 ^ 8 = _
    rw [Nat.shiftRight_eq_div_pow]
    omega

/-- What an address reads as that cannot be written: a byte of the first region, a byte of
    the cartridge, the address lines past its end, and zero where there is no memory. -/
def MappedMemory.fixedByte (m : MappedMemory) (b : Word) : Byte :=
  if b.toNat < 0x4000 then m.bios.get b.toNat
  else if InCartridge b then
    if b.toNat % 0x2000000 < m.cartridge.size then byteAt m.cartridge (b.toNat % 0x2000000)
    else addressByte b
  else 0

/-- **What cannot be written reads as its place in the memory map says.** -/
theorem MappedMemory.readByte_of_not_writable (m : MappedMemory) {b : Word} (h : ¬ Writable b) :
    m.readByte b = m.fixedByte b := by
  rw [fixedByte]
  by_cases hlow : b.toNat < 0x4000
  · rw [if_pos hlow]
    exact m.readByte_of_at (r := .bios) ⟨hlow, rfl⟩
  · rw [if_neg hlow]
    by_cases hrom : InCartridge b
    · rw [if_pos hrom, readByte, locate_eq_cartridge_iff.mpr ⟨hrom, rfl⟩]
      by_cases hsize : b.toNat % 0x2000000 < m.cartridge.size
      · rw [if_pos hsize, byteAt, dif_pos hsize]
        exact dif_pos hsize
      · rw [if_neg hsize]
        exact (dif_neg hsize).trans (openBus_eq b)
    · rw [if_neg hrom, readByte]
      cases hl : locate b with
      | none => rfl
      | some place =>
          -- every other place can be written
          cases place with
          | cartridge offset => exact absurd (locate_eq_cartridge_iff.mp hl).1 hrom
          | cell r offset =>
              have hat := locate_eq_cell_iff.mp hl
              cases hr : r.writable with
              | true => exact absurd (writable_iff.mpr ⟨r, hr, offset, hat⟩) h
              | false =>
                  cases r with
                  | bios => exact absurd hat.1 hlow
                  | _ => cases hr

/-! ## Wider accesses -/

/-- The number that some bytes stand for, the first one lowest. -/
def littleEndian : List Byte → Nat
  | [] => 0
  | b :: bs => b.toNat + 0x100 * littleEndian bs

/-- The successive addresses of an access; they wrap. -/
def Width.addresses (width : Width) (a : Word) : List Word :=
  (List.range width.bytes).map fun i => a + UInt32.ofNat i

/-- Two numbers side by side, the lower one below the place of the higher. -/
theorem or_shiftLeft_eq_add {low high n : Nat} (h : low < 2 ^ n) :
    low ||| high <<< n = low + 2 ^ n * high := by
  rw [Nat.or_comm, ← Nat.shiftLeft_add_eq_or_of_lt h, Nat.shiftLeft_eq, Nat.mul_comm,
    Nat.add_comm]

/-- A word reads as its four bytes. -/
theorem toNat_wordOfBytes (b₀ b₁ b₂ b₃ : Byte) :
    (wordOfBytes b₀ b₁ b₂ b₃).toNat = littleEndian [b₀, b₁, b₂, b₃] := by
  have h₀ := b₀.toNat_lt
  have h₁ := b₁.toNat_lt
  have h₂ := b₂.toNat_lt
  have h₃ := b₃.toNat_lt
  -- no byte is shifted out of the word
  have hshift {b n : Nat} (hb : b < 2 ^ 8) (hn : n ≤ 24) : b <<< n % 2 ^ 32 = b <<< n := by
    rw [Nat.shiftLeft_eq]
    refine Nat.mod_eq_of_lt ?_
    calc b * 2 ^ n < 2 ^ 8 * 2 ^ n := Nat.mul_lt_mul_of_pos_right hb (Nat.two_pow_pos n)
      _ ≤ 2 ^ 8 * 2 ^ 24 := Nat.mul_le_mul_left _ (Nat.pow_le_pow_right (by decide) hn)
      _ = 2 ^ 32 := by decide
  have hvalue : (wordOfBytes b₀ b₁ b₂ b₃).toNat
      = b₀.toNat ||| b₁.toNat <<< 8 ||| b₂.toNat <<< 16 ||| b₃.toNat <<< 24 := by
    rw [← hshift h₁ (n := 8) (by decide), ← hshift h₂ (n := 16) (by decide),
      ← hshift h₃ (n := 24) (by decide)]
    rfl
  have hhalf : b₀.toNat + 2 ^ 8 * b₁.toNat < 2 ^ 16 := by omega
  have hthree : b₀.toNat + 2 ^ 8 * b₁.toNat + 2 ^ 16 * b₂.toNat < 2 ^ 24 := by omega
  rw [hvalue, or_shiftLeft_eq_add h₀, or_shiftLeft_eq_add hhalf, or_shiftLeft_eq_add hthree]
  simp only [littleEndian]
  omega

/-- **A read of any width gives its bytes at successive addresses, the lowest first.** -/
theorem Bus.toNat_read {B : Type} [Bus B] (m : B) (width : Width) (a : Word) :
    (read m width a).toNat = littleEndian ((width.addresses a).map (readByte m)) := by
  have hzero : a + UInt32.ofNat 0 = a := UInt32.add_zero a
  cases width with
  | byte =>
      show (readByte m a).toNat = (readByte m (a + UInt32.ofNat 0)).toNat + 0x100 * 0
      rw [hzero]
      rfl
  | half =>
      rw [read, readHalf, toNat_wordOfBytes]
      simp [Width.addresses, Width.bytes, List.range_succ, littleEndian]
  | word =>
      rw [read, readWord, toNat_wordOfBytes]
      simp [Width.addresses, Width.bytes, List.range_succ, littleEndian]

/-- The bytes of a value, the lowest first, are as many as the width says and stand for as
    much of the value as fits into them. -/
theorem littleEndian_bytesOf (width : Width) (value : Word) :
    (bytesOf width value).length = width.bytes
      ∧ littleEndian (bytesOf width value) = value.toNat % 0x100 ^ width.bytes := by
  have hbyte (i : Word) (hi : i.toNat < 4) :
      (byteOfWord value i).toNat = value.toNat / 2 ^ (8 * i.toNat) % 0x100 := by
    rw [byteOfWord, UInt32.toNat_toUInt8, UInt32.toNat_shiftRight, UInt32.toNat_mul,
      Nat.shiftRight_eq_div_pow]
    have hn : (UInt32.toNat 8 * i.toNat % 2 ^ 32) % 32 = 8 * i.toNat := by
      show (8 * i.toNat % 2 ^ 32) % 32 = 8 * i.toNat
      omega
    rw [hn]
  cases width with
  | byte => exact ⟨rfl, UInt32.toNat_toUInt8 value⟩
  | half =>
      refine ⟨rfl, ?_⟩
      simp only [bytesOf, littleEndian, hbyte 0 (by decide), hbyte 1 (by decide), Width.bytes]
      show value.toNat / 1 % 256 + 256 * (value.toNat / 256 % 256 + 256 * 0) = _
      omega
  | word =>
      refine ⟨rfl, ?_⟩
      simp only [bytesOf, littleEndian, hbyte 0 (by decide), hbyte 1 (by decide),
        hbyte 2 (by decide), hbyte 3 (by decide), Width.bytes]
      show value.toNat / 1 % 256 + 256 * (value.toNat / 256 % 256
        + 256 * (value.toNat / 65536 % 256 + 256 * (value.toNat / 16777216 % 256 + 256 * 0))) = _
      have hlt := value.toNat_lt
      omega

/-! ## The store -/

/-- A write as writes of single bytes. -/
def Write.split (w : Write) : List Write := w.bytes.map fun p => ⟨.byte, p.1, p.2.toUInt32⟩

/-- The bytes of a write stand at the successive addresses of its width. -/
theorem Write.bytes_eq (w : Write) :
    w.bytes.map Prod.fst = w.width.addresses w.address
      ∧ w.bytes.map Prod.snd = bytesOf w.width w.value := by
  obtain ⟨width, a, v⟩ := w
  have hzero : a = a + UInt32.ofNat 0 := (UInt32.add_zero a).symm
  have htwo : a + 1 + 1 = a + 2 := UInt32.add_assoc a 1 1
  have hthree : a + 2 + 1 = a + 3 := UInt32.add_assoc a 2 1
  cases width with
  | byte => exact ⟨congrArg (fun a => [a]) hzero, rfl⟩
  | half => exact ⟨congrArg (fun b => [b, a + 1]) hzero, rfl⟩
  | word =>
      refine ⟨?_, rfl⟩
      show [a, a + 1, a + 1 + 1, a + 1 + 1 + 1] = [a + UInt32.ofNat 0, a + 1, a + 2, a + 3]
      rw [htwo, hthree, ← hzero]

namespace MappedMemory

/-- Bytes at successive addresses are written one after the other. -/
theorem writeBytes_eq_written (m : MappedMemory) (a : Word) (bs : List Byte) :
    m.writeBytes a bs
      = Bus.written m ((placed a bs).map fun p => ⟨.byte, p.1, p.2.toUInt32⟩) := by
  induction bs generalizing m a with
  | nil => rfl
  | cons b bs ih =>
      have hbyte : Bus.write m .byte a b.toUInt32 = m.writeByte a b := by
        show m.writeBytes a [b.toUInt32.toUInt8] = m.writeByte a b
        rw [UInt8.toUInt8_toUInt32]
        rfl
      rw [writeBytes, ih]
      show _ = Bus.written (Bus.write m .byte a b.toUInt32) _
      rw [hbyte]

/-- **A write of any width is a write of each of its bytes.** -/
theorem write_eq_written (m : MappedMemory) (w : Write) :
    Bus.write m w.width w.address w.value = Bus.written m w.split :=
  m.writeBytes_eq_written w.address (bytesOf w.width w.value)

/-- What no program can change: the first region and the cartridge. -/
def readOnlyPart (m : MappedMemory) : Storage Region.bios.size × ByteArray := (m.bios, m.cartridge)

theorem readOnlyPart_writeBytes (m : MappedMemory) (a : Word) (bs : List Byte) :
    (m.writeBytes a bs).readOnlyPart = m.readOnlyPart := by
  induction bs generalizing m a with
  | nil => rfl
  | cons b bs ih =>
      obtain ⟨hbios, hcartridge⟩ := m.fixed_writeByte a b
      rw [writeBytes, ih, readOnlyPart, hbios, hcartridge]
      rfl

theorem readOnlyPart_written (m : MappedMemory) (ws : List Write) :
    (Bus.written m ws).readOnlyPart = m.readOnlyPart := by
  induction ws generalizing m with
  | nil => rfl
  | cons w ws ih =>
      exact (ih (Bus.write m w.width w.address w.value)).trans
        (m.readOnlyPart_writeBytes w.address (bytesOf w.width w.value))

/-- The byte at an address after some writes: the last one that was written under any of
    its names, or what was there before, where something can be written; and what its place
    in the memory map says anywhere else. -/
def byteAfter (m : MappedMemory) (ws : List Write) (b : Word) : Byte :=
  if Writable b then (lastWritten ws b).getD (m.readByte b) else m.fixedByte b

theorem readByte_written_eq_byteAfter (m : MappedMemory) (ws : List Write) (b : Word) :
    Bus.readByte (Bus.written m ws) b = m.byteAfter ws b := by
  rw [readByte_written, byteAfter]
  by_cases h : Writable b
  · rw [if_pos h]
    rfl
  · rw [if_neg h, lastWritten, lastIn_of_not_writable h]
    exact m.readByte_of_not_writable h

end MappedMemory

open MappedMemory

/-- A run of steps, or one of a budget, leaves what no program can change. -/
theorem Machine.readOnlyPart_run (k : Machine MappedMemory) :
    (∀ n, (k.after n).bus.readOnlyPart = k.bus.readOnlyPart)
      ∧ ∀ budget, (k.execute budget).2.bus.readOnlyPart = k.bus.readOnlyPart := by
  have hafter (n : Nat) : (k.after n).bus.readOnlyPart = k.bus.readOnlyPart := by
    obtain ⟨ws, hws⟩ := k.written_after n
    rw [hws, readOnlyPart_written]
  refine ⟨hafter, ?_⟩
  intro budget
  obtain ⟨n, hn⟩ := run_alike runLimit budget k
  rw [execute_eq_run, hn.bus]
  exact hafter n

/-- The place of an address lies within its region; one of the cartridge may lie past the
    end of what was loaded, but not past the most that a cartridge holds. -/
def Location.Inside (m : MappedMemory) : Location → Prop
  | .cell r offset => offset < (m.cells r).bytes.size
  | .cartridge offset => offset < cartridgeLimit

/-- **Mapped memory is one store of bytes.**  Whatever is written to it, in any widths and
    anywhere, a byte reads afterwards as it was written last under any of its names, or as
    it did before, and where nothing can be written as its place in the memory map says.
    Wider accesses read and write their bytes at successive addresses, the lowest one first.
    Reads change nothing, no write and no run changes the first region or the cartridge,
    and no address is located outside its region. -/
theorem mapped_memory_is_a_byte_store (m : MappedMemory) (ws : List Write) :
    (∀ b, Bus.readByte (Bus.written m ws) b = m.byteAfter ws b)
      ∧ (∀ width a, (Bus.read m width a).toNat
        = littleEndian ((width.addresses a).map (Bus.readByte m)))
      ∧ (∀ w : Write, Bus.write m w.width w.address w.value = Bus.written m w.split
        ∧ w.bytes.map Prod.fst = w.width.addresses w.address
        ∧ littleEndian (w.bytes.map Prod.snd) = w.value.toNat % 0x100 ^ w.width.bytes)
      ∧ (∀ (x : Execution MappedMemory) (width : Width) (sequential : Bool) (a : Word),
        (x.load width sequential a).2.bus = x.bus)
      ∧ (Bus.written m ws).readOnlyPart = m.readOnlyPart
      ∧ (∀ k : Machine MappedMemory, (∀ n, (k.after n).bus.readOnlyPart = k.bus.readOnlyPart)
        ∧ ∀ budget, (k.execute budget).2.bus.readOnlyPart = k.bus.readOnlyPart)
      ∧ ∀ a, ∀ place ∈ locate a, place.Inside m := by
  refine ⟨m.readByte_written_eq_byteAfter ws, Bus.toNat_read m, ?_, fun _ _ _ _ => rfl,
    m.readOnlyPart_written ws, Machine.readOnlyPart_run, ?_⟩
  · intro w
    obtain ⟨haddresses, hbytes⟩ := w.bytes_eq
    refine ⟨m.write_eq_written w, haddresses, ?_⟩
    rw [hbytes]
    exact (littleEndian_bytesOf w.width w.value).2
  · intro a place hplace
    cases place with
    | cell r offset =>
        have hat := locate_eq_cell_iff.mp (Option.mem_def.mp hplace)
        show offset < (m.cells r).bytes.size
        rw [(m.cells r).size_bytes]
        exact hat.lt_size
    | cartridge offset =>
        obtain ⟨-, rfl⟩ := locate_eq_cartridge_iff.mp (Option.mem_def.mp hplace)
        exact Nat.mod_lt _ (by decide)

/-- A word across the end of the video memory reads back through the repeated half, a word
    that wraps at the end of all addresses is lost, and past the end of the cartridge the
    address lines show. -/
theorem mapped_memory_is_a_byte_store_of_straddling :
    let m := MappedMemory.zero .zero
    let ws : List Write := [⟨.word, 0x06017FFE, 0x04030201⟩, ⟨.word, 0xFFFFFFFE, 0xFFFFFFFF⟩]
    Bus.readByte (Bus.written m ws) 0x06010001 = 4
      ∧ Bus.readByte (Bus.written m ws) 0x06FF7FFF = 2
      ∧ Bus.readByte (Bus.written m ws) 0x09FFFFEE = 0xF7
      ∧ (Bus.written m ws).readOnlyPart = m.readOnlyPart := by
  intro m ws
  obtain ⟨hbyte, -, -, -, hfixed, -⟩ := mapped_memory_is_a_byte_store m ws
  refine ⟨?_, ?_, ?_, hfixed⟩
  · rw [hbyte]
    decide +kernel
  · rw [hbyte]
    decide +kernel
  · rw [hbyte]
    decide +kernel

end Armv4t
