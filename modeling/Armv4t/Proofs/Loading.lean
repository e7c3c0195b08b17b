import Armv4t.Proofs.ByteStore
import Armv4t.Proofs.WaitStates

/-! # Loading — data that is put into the memory map, all of it or none

    A load names one address, and the bytes of the data go to the addresses from there on.
    The address alone decides which storage takes them and from which offset; a read finds
    each byte by its own address.  The two agree as long as the data stays within the
    storage (`locate_add`), also from an address where the video memory or the cartridge
    repeats.

    * Data is refused where there is no memory, or where it would go past the end, and
      the attempt leaves the memory as it was (`MappedMemory.attemptLoad_of_not_fits`);
    * otherwise every byte reads back, a cartridge that has to grow holds zeros before the
      data, and what the data does not name reads as it did (`MappedMemory.TookIn`).

    `MappedMemory.load_all_or_nothing` puts both together. -/

namespace Armv4t

/-! ## Bytes of an array -/

section Bytes

variable (bs data : ByteArray)

theorem byteAt_of_ge {bs : ByteArray} {i : Nat} (h : bs.size ≤ i) : byteAt bs i = 0 :=
  dif_neg (Nat.not_lt.mpr h)

/-- Zeros at the end read as what is past the end. -/
theorem byteAt_pushZeros (n i : Nat) : byteAt (pushZeros n bs) i = byteAt bs i := by
  induction n generalizing bs with
  | zero => rfl
  | succ n ih =>
      have hsize : bs.data.size = bs.size := rfl
      rw [pushZeros, ih, byteAt_eq, byteAt_eq, ByteArray.data_push, Array.getElem?_push, hsize]
      by_cases hi : i = bs.size
      · rw [if_pos hi, Array.getElem?_eq_none (by omega)]
        rfl
      · rw [if_neg hi]

theorem byteAt_extendTo (n i : Nat) : byteAt (extendTo n bs) i = byteAt bs i :=
  byteAt_pushZeros bs _ i

/-- Data that lies within an array replaces the bytes at its own places, and no others. -/
theorem byteAt_overwrite {offset : Nat} (h : offset + data.size ≤ bs.size) (i : Nat) :
    byteAt (overwrite bs offset data) i
      = if offset ≤ i ∧ i < offset + data.size then byteAt data (i - offset) else byteAt bs i := by
  have hbs : bs.data.size = bs.size := rfl
  have hdata : data.data.size = data.size := rfl
  have hoffset : min offset bs.size = offset := Nat.min_eq_left (by omega)
  simp only [byteAt_eq, overwrite, ByteArray.data_append, ByteArray.data_extract,
    Array.getElem?_append, Array.getElem?_extract, Array.size_append, Array.size_extract, hbs,
    hdata, hoffset, Nat.min_self, Nat.sub_zero, Nat.zero_add]
  by_cases hlow : i < offset
  · -- before the data
    have hin : i < offset + data.size := by omega
    have hout : ¬ (offset ≤ i ∧ i < offset + data.size) := by omega
    rw [if_pos hin, if_pos hlow, if_pos hlow, if_neg hout]
  by_cases hmid : i < offset + data.size
  · rw [if_pos hmid, if_neg hlow, if_pos ⟨Nat.le_of_not_lt hlow, hmid⟩]
  · -- behind the data, up to the end of the array
    have hplace : offset + data.size + (i - (offset + data.size)) = i := by omega
    have hout : ¬ (offset ≤ i ∧ i < offset + data.size) := fun h => hmid h.2
    rw [if_neg hmid, if_neg hout, hplace]
    by_cases hi : i < bs.size
    · have hleft : i - (offset + data.size) < bs.size - (offset + data.size) := by omega
      rw [if_pos hleft]
    · have hleft : ¬ i - (offset + data.size) < bs.size - (offset + data.size) := by omega
      rw [if_neg hleft, Array.getElem?_eq_none (Nat.le_of_not_lt hi)]

end Bytes

/-- A storage that was loaded holds the data at its places, and what it held elsewhere. -/
theorem Storage.get_load {n : Nat} (s : Storage n) (offset : Nat) (data : ByteArray)
    (h : offset + data.size ≤ n) (i : Nat) :
    (s.load offset data h).get i
      = if offset ≤ i ∧ i < offset + data.size then byteAt data (i - offset) else s.get i :=
  byteAt_overwrite s.bytes data (h.trans_eq s.size_bytes.symm) i

/-! ## Places -/

namespace Location

/-- The place of a byte within the storage that holds it. -/
def offset : Location → Nat
  | cell _ offset | cartridge offset => offset

/-- The most bytes that this storage holds. -/
def limit : Location → Nat
  | cell r _ => r.size
  | cartridge _ => cartridgeLimit

/-- The place some bytes on. -/
def advance : Location → Nat → Location
  | cell r offset, i => cell r (offset + i)
  | cartridge offset, i => cartridge (offset + i)

end Location

theorem page_of_locate {a : Word} {place : Location} (h : locate a = some place) :
    page a ≤ 0x0F := by
  cases place with
  | cartridge offset => exact (locate_eq_cartridge_iff.mp h).1.2.trans (by decide)
  | cell r offset =>
      have hat := locate_eq_cell_iff.mp h
      cases r with
      | bios =>
          have hlow := hat.1
          rw [page]
          omega
      | io => exact hat.1.1.trans_le (by decide)
      | sram => exact hat.1.elim (fun h => h.trans_le (by decide)) fun h => h.trans_le (by decide)
      | _ => exact hat.1.trans_le (by decide)

/-- Below the last 32 KiB of the 128, and within them, the places of the video memory go on
    one after the other. -/
theorem videoPlace_add {v i : Nat} (hv : v < 0x20000) (hi : videoPlace v + i < 0x18000) :
    v + i < 0x20000 ∧ videoPlace (v + i) = videoPlace v + i := by
  rw [videoPlace] at hi ⊢
  rw [videoPlace]
  split at hi <;> split <;> omega

/-- **The next addresses name the next places**, as long as the storage goes on; no address
    wraps and none leaves the pages of its region. -/
theorem locate_add {a : Word} {place : Location} (h : locate a = some place) {i : Nat}
    (hi : place.offset + i < place.limit) :
    locate (a + UInt32.ofNat i) = some (place.advance i) := by
  have hpage := page_of_locate h
  rw [page] at hpage
  have hlimit : place.limit ≤ 0x2000000 := by
    cases place with
    | cartridge offset => exact Nat.le_refl _
    | cell r offset =>
        show r.size ≤ 0x2000000
        cases r <;> decide
  have hlt : i < 0x2000000 := by omega
  have hi' : (UInt32.ofNat i).toNat = i :=
    UInt32.toNat_ofNat_of_lt' (Nat.lt_trans hlt (by decide))
  have hsum : (a + UInt32.ofNat i).toNat = a.toNat + i := by
    rw [UInt32.toNat_add, hi']
    omega
  cases place with
  | cartridge offset =>
      obtain ⟨⟨hlow, hhigh⟩, ho⟩ := locate_eq_cartridge_iff.mp h
      have hi : offset + i < 0x2000000 := hi
      rw [page] at hlow hhigh
      refine locate_eq_cartridge_iff.mpr ?_
      rw [InCartridge, page, hsum]
      omega
  | cell r offset =>
      have hat := locate_eq_cell_iff.mp h
      refine locate_eq_cell_iff.mpr ?_
      have hi : offset + i < r.size := hi
      cases r with
      | bios =>
          simp only [Region.At, Region.size] at hat hi ⊢
          omega
      | vram =>
          obtain ⟨hp, rfl⟩ := hat
          obtain ⟨hlast, hnext⟩ := videoPlace_add (videoOffset_lt a) hi
          have hoffset : videoOffset (a + UInt32.ofNat i) = videoOffset a + i := by
            rw [videoOffset] at hlast ⊢
            rw [videoOffset, hsum]
            omega
          rw [page] at hp
          rw [videoOffset] at hlast
          refine ⟨?_, hoffset ▸ hnext⟩
          rw [page, hsum]
          omega
      | _ =>
          simp only [Region.At, Region.size, InIo, page] at hat hi ⊢
          omega

/-! ## Addresses of one byte -/

/-- Two addresses name one byte: they are aliases, or in the cartridge and apart by what it
    holds at most, or the same. -/
def SameByte (a b : Word) : Prop :=
  Aliased a b ∨ (InCartridge a ∧ InCartridge b ∧ a.toNat % 0x2000000 = b.toNat % 0x2000000) ∨ a = b

instance (a b : Word) : Decidable (SameByte a b) := inferInstanceAs (Decidable (_ ∨ _ ∨ _))

/-- Where there is memory, one byte is one place. -/
theorem sameByte_iff {a b : Word} {place : Location} (h : locate a = some place) :
    SameByte a b ↔ locate b = some place := by
  constructor
  · rintro (halias | ⟨ha, hb, hab⟩ | rfl)
    · exact (aliased_iff_locate.mp halias).2.symm.trans h
    · rw [← h, locate_eq_cartridge_iff.mpr ⟨hb, rfl⟩, locate_eq_cartridge_iff.mpr ⟨ha, hab⟩]
    · exact h
  · intro hb
    cases place with
    | cartridge offset =>
        obtain ⟨ha, hao⟩ := locate_eq_cartridge_iff.mp h
        obtain ⟨hb, hbo⟩ := locate_eq_cartridge_iff.mp hb
        exact Or.inr (Or.inl ⟨ha, hb, hao.trans hbo.symm⟩)
    | cell r offset =>
        have ha := locate_eq_cell_iff.mp h
        have hb := locate_eq_cell_iff.mp hb
        cases hr : r.writable with
        | true => exact Or.inl (aliased_iff.mpr ⟨r, hr, offset, ha, hb⟩)
        | false =>
            -- the first region does not repeat
            cases r with
            | bios => exact Or.inr (Or.inr (UInt32.toNat_inj.mp (ha.2.trans hb.2.symm)))
            | _ => cases hr

/-- So many bytes lie within the storage that the first address names. -/
def Fits (a : Word) (n : Nat) : Prop :=
  ∃ place, locate a = some place ∧ place.offset + n ≤ place.limit

/-- What the addresses of fitting data name. -/
theorem sameByte_add_iff {a b : Word} {place : Location} (h : locate a = some place) {n i : Nat}
    (hfit : place.offset + n ≤ place.limit) (hi : i < n) :
    SameByte (a + UInt32.ofNat i) b ↔ locate b = some (place.advance i) :=
  sameByte_iff (locate_add h (by omega))

/-! ## The load -/

namespace MappedMemory

variable (m : MappedMemory) {a : Word} {data : ByteArray}

/-- The memory that an attempt to load data leaves. -/
def afterLoad (m : MappedMemory) (a : Word) (data : ByteArray) : MappedMemory :=
  (m.attemptLoad a data).state

/-- A byte between the end of the cartridge and the data that makes it grow. -/
def InGap (m : MappedMemory) (a b : Word) : Prop :=
  InCartridge a ∧ InCartridge b
    ∧ m.cartridge.size ≤ b.toNat % 0x2000000 ∧ b.toNat % 0x2000000 < a.toNat % 0x2000000

instance (a b : Word) : Decidable (m.InGap a b) :=
  inferInstanceAs (Decidable (_ ∧ _ ∧ _ ∧ _))

/-- A memory `m'` that holds data from an address on, and otherwise what `m` does. -/
structure TookIn (m : MappedMemory) (a : Word) (data : ByteArray) (m' : MappedMemory) : Prop where
  bytes : ∀ i < data.size, m'.readByte (a + UInt32.ofNat i) = byteAt data i
  /-- Where the address lines showed before the data, there are zeros now. -/
  rest : ∀ b, (∀ i < data.size, ¬ SameByte (a + UInt32.ofNat i) b) →
    m'.readByte b = if m.InGap a b then 0 else m.readByte b
  /-- The wait control register and the costs. -/
  tuning : m'.tuning = m.tuning

theorem readByte_of_cartridge {b : Word} {offset : Nat} (h : locate b = some (.cartridge offset)) :
    m.readByte b = if offset < m.cartridge.size then byteAt m.cartridge offset else openBus b := by
  rw [readByte, h]
  by_cases hsize : offset < m.cartridge.size
  · rw [if_pos hsize, byteAt, dif_pos hsize]
    exact dif_pos hsize
  · rw [if_neg hsize]
    exact dif_neg hsize

/-- Only the addresses of the cartridge see it. -/
theorem readByte_of_not_cartridge {b : Word} (h : ¬ InCartridge b) (cartridge : ByteArray) :
    ({ m with cartridge } : MappedMemory).readByte b = m.readByte b := by
  rw [readByte, readByte]
  cases hl : locate b with
  | none => rfl
  | some place =>
      cases place with
      | cell r offset => cases r <;> rfl
      | cartridge offset => exact absurd (locate_eq_cartridge_iff.mp hl).1 h

/-- **Data in a region of a fixed size.** -/
theorem tookIn_region {r : Region} {offset : Nat} (h : locate a = some (.cell r offset))
    (hfit : offset + data.size ≤ r.size) :
    m.TookIn a data (m.modify r (·.load offset data hfit)) := by
  have hsame {b : Word} {i : Nat} (hi : i < data.size) :
      SameByte (a + UInt32.ofNat i) b ↔ locate b = some (.cell r (offset + i)) :=
    sameByte_add_iff h hfit hi
  refine ⟨?_, ?_, m.tuning_modify r _⟩
  · intro i hi
    have hat := locate_eq_cell_iff.mp ((hsame hi).mp (Or.inr (Or.inr rfl)))
    rw [readByte_of_at _ hat, cells_modify, Storage.get_load,
      if_pos ⟨Nat.le_add_right _ _, Nat.add_lt_add_left hi _⟩, Nat.add_sub_cancel_left]
  · intro b hb
    have hgap : ¬ m.InGap a b := by
      rintro ⟨ha, -⟩
      rw [locate_eq_cartridge_iff.mpr ⟨ha, rfl⟩] at h
      cases h
    rw [if_neg hgap, readByte, readByte]
    cases hl : locate b with
    | none => rfl
    | some place =>
        cases place with
        | cartridge j =>
            dsimp only
            rw [m.cartridge_modify]
        | cell s j =>
            dsimp only
            by_cases hs : r = s
            · subst hs
              -- a byte of the same region, at none of the places of the data
              have hout : ¬ (offset ≤ j ∧ j < offset + data.size) := by
                rintro ⟨hlow, hhigh⟩
                refine hb (j - offset) (by omega) ((hsame (by omega)).mpr ?_)
                rw [hl, Nat.add_sub_cancel' hlow]
              rw [m.cells_modify, Storage.get_load, if_neg hout]
            · rw [m.cells_modify_of_ne hs]

/-- **Data in the cartridge**, which grows as far as the data needs. -/
theorem tookIn_cartridge {offset : Nat} (h : locate a = some (.cartridge offset))
    (hfit : offset + data.size ≤ cartridgeLimit) :
    m.TookIn a data { m with
      cartridge := overwrite (extendTo (offset + data.size) m.cartridge) offset data } := by
  have hsame {b : Word} {i : Nat} (hi : i < data.size) :
      SameByte (a + UInt32.ofNat i) b ↔ locate b = some (.cartridge (offset + i)) :=
    sameByte_add_iff h hfit hi
  have hlong := le_size_extendTo (offset + data.size) m.cartridge
  -- what the grown cartridge reads as, at any of its addresses
  have hread {b : Word} {j : Nat} (hl : locate b = some (.cartridge j)) :
      ({ m with cartridge := overwrite (extendTo (offset + data.size) m.cartridge) offset data } :
          MappedMemory).readByte b
        = if j < max m.cartridge.size (offset + data.size) then
            if offset ≤ j ∧ j < offset + data.size then byteAt data (j - offset)
            else byteAt m.cartridge j
          else openBus b := by
    rw [readByte_of_cartridge _ hl]
    dsimp only
    rw [size_overwrite hlong, size_extendTo, byteAt_overwrite _ _ hlong, byteAt_extendTo]
  refine ⟨?_, ?_, rfl⟩
  · intro i hi
    have hl := (hsame hi).mp (Or.inr (Or.inr rfl))
    rw [hread hl, if_pos (by omega), if_pos (by omega), Nat.add_sub_cancel_left]
  · intro b hb
    obtain ⟨ha, hao⟩ := locate_eq_cartridge_iff.mp h
    by_cases hc : InCartridge b
    · generalize hj : b.toNat % 0x2000000 = j
      have hl : locate b = some (.cartridge j) := locate_eq_cartridge_iff.mpr ⟨hc, hj⟩
      have hout : ¬ (offset ≤ j ∧ j < offset + data.size) := by
        rintro ⟨hlow, hhigh⟩
        refine hb (j - offset) (by omega) ((hsame (by omega)).mpr ?_)
        rw [hl, Nat.add_sub_cancel' hlow]
      have hgap : m.InGap a b ↔ m.cartridge.size ≤ j ∧ j < offset := by
        rw [InGap, hao, hj, and_iff_right ha, and_iff_right hc]
      rw [hread hl, if_neg hout, m.readByte_of_cartridge hl, if_congr hgap rfl rfl]
      by_cases hold : j < m.cartridge.size
      · rw [if_pos (by omega), if_neg (by omega), if_pos hold]
      · by_cases hnew : j < offset
        · rw [if_pos (by omega), if_pos (by omega), byteAt_of_ge (Nat.le_of_not_lt hold)]
        · rw [if_neg (by omega), if_neg (by omega), if_neg hold]
    · rw [if_neg fun hgap => hc hgap.2.1, m.readByte_of_not_cartridge hc]

/-- Data that fits is taken in. -/
theorem attemptLoad_of_fits (h : Fits a data.size) :
    ∃ m', m.attemptLoad a data = .done m' ∧ m.TookIn a data m' := by
  obtain ⟨place, hl, hfit⟩ := h
  cases place with
  | cell r offset =>
      refine ⟨_, ?_, m.tookIn_region hl hfit⟩
      rw [attemptLoad, hl]
      exact dif_pos hfit
  | cartridge offset =>
      refine ⟨_, ?_, m.tookIn_cartridge hl hfit⟩
      rw [attemptLoad, hl]
      -- once the cartridge has grown, the data fits into it
      exact (if_neg (Nat.not_lt.mpr hfit)).trans (if_pos (le_size_extendTo _ m.cartridge))

/-- Data that does not fit is refused, and the memory is left as it was: the cartridge does
    not grow for it. -/
theorem attemptLoad_of_not_fits (h : ¬ Fits a data.size) :
    m.attemptLoad a data = .refused ⟨a, data.size⟩ m := by
  rw [attemptLoad]
  cases hl : locate a with
  | none => rfl
  | some place =>
      have hout (hfit : place.offset + data.size ≤ place.limit) : False := h ⟨place, hl, hfit⟩
      cases place with
      | cell r offset => exact dif_neg hout
      | cartridge offset => exact if_pos (Nat.lt_of_not_le hout)

/-- **A load puts all of its data into the memory, or nothing.**  It is refused exactly where
    the first address names no memory, or where the data goes past the end of the storage
    that it names: for the cartridge what it holds at most, whatever it holds now, and for
    every other region its size, whether a program can write it or not.  What is refused
    changes nothing.  Otherwise every byte of the data reads back at its own address.  Every
    other byte reads as it did, but for those between the old end of the cartridge and the
    data, which are zeros now; and no access costs more or less. -/
theorem load_all_or_nothing (m : MappedMemory) (a : Word) (data : ByteArray) :
    match m.load a data with
    | .error e => ¬ Fits a data.size ∧ e = ⟨a, data.size⟩ ∧ m.afterLoad a data = m
    | .ok m' => Fits a data.size ∧ m.afterLoad a data = m' ∧ m.TookIn a data m' := by
  rw [load, afterLoad]
  by_cases h : Fits a data.size
  · obtain ⟨m', hload, htook⟩ := m.attemptLoad_of_fits h
    rw [hload]
    exact ⟨h, rfl, htook⟩
  · rw [m.attemptLoad_of_not_fits h]
    exact ⟨h, rfl, rfl⟩

/-- Two bytes at the second window of an empty cartridge show in the third one, where a zero
    now stands before them; at the last place of the video memory they are refused. -/
theorem load_all_or_nothing_of_gap :
    let m := MappedMemory.zero .zero
    let data : ByteArray := ⟨#[7, 8]⟩
    (∃ m', m.load 0x0A000004 data = .ok m' ∧ m'.readByte 0x0A000005 = 8
        ∧ m'.readByte 0x0C000002 = 0 ∧ m.readByte 0x0C000002 = 1)
      ∧ m.load 0x06FFFFFF data = .error ⟨0x06FFFFFF, 2⟩ := by
  intro m data
  constructor
  · have h := load_all_or_nothing m 0x0A000004 data
    cases hload : m.load 0x0A000004 data with
    | error e =>
        rw [hload] at h
        exact absurd ⟨.cartridge 4, by decide +kernel, by decide +kernel⟩ h.1
    | ok m' =>
        rw [hload] at h
        obtain ⟨-, -, htook⟩ := h
        refine ⟨m', rfl, htook.bytes 1 (by decide), ?_, by decide +kernel⟩
        rw [htook.rest 0x0C000002 (by decide +kernel)]
        decide +kernel
  · have h := load_all_or_nothing m 0x06FFFFFF data
    cases hload : m.load 0x06FFFFFF data with
    | error e =>
        rw [hload] at h
        rw [h.2.1]
        rfl
    | ok m' =>
        -- the offset is the last one of the region
        rw [hload] at h
        obtain ⟨⟨place, hplace, hfit⟩, -⟩ := h
        have hlast : locate 0x06FFFFFF = some (.cell .vram 0x17FFF) := by decide +kernel
        rw [hlast] at hplace
        obtain rfl := Option.some.inj hplace
        exact absurd hfit (by decide +kernel)

end MappedMemory

end Armv4t
