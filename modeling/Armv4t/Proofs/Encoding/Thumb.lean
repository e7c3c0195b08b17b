import Armv4t.Proofs.Fields
import Armv4t.Thumb.Decode

/-! # Encodings of the 16-bit set — which halfwords are which instructions

    The decoder goes by the high byte, range after range.  The table below gives each
    format by its fixed bits, as the ranges are made of them: a range that starts at a
    multiple of its size fixes the bits above.

    * every halfword stands in the row of the instruction it decodes to
      (`Encodes.decode`);
    * the high bytes of the gaps are undefined, and only they (`undefined_iff`). -/

namespace Armv4t.Thumb

/-- The high bytes that no format uses. -/
def Reserved (w : Word) : Prop :=
  0xB1 ≤ field w 8 8 ∧ field w 8 8 ≤ 0xB3 ∨ 0xB6 ≤ field w 8 8 ∧ field w 8 8 ≤ 0xBB
    ∨ field w 8 8 = 0xBE ∨ field w 8 8 = 0xBF ∨ field w 8 8 = 0xDE
    ∨ 0xE8 ≤ field w 8 8 ∧ field w 8 8 ≤ 0xEF

instance (w : Word) : Decidable (Reserved w) := inferInstanceAs (Decidable (_ ∨ _))

/-- Which halfwords encode an instruction. -/
inductive Encodes (w : Word) : Instruction → Prop where
  | moveShifted (fixed : field w 13 3 = 0b000) (kind : field w 11 2 ≠ 0b11) :
      Encodes w (.moveShifted (.ofCode (field w 11 2)) (quint w 6) (octal w 3) (octal w 0))
  | addRegister (fixed : field w 11 5 = 0b00011) (form : bit w 10 = false) :
      Encodes w (.addSubtract (bit w 9) (.register (octal w 6)) (octal w 3) (octal w 0))
  | addImmediate (fixed : field w 11 5 = 0b00011) (form : bit w 10 = true) :
      Encodes w (.addSubtract (bit w 9) (.immediate (octal w 6)) (octal w 3) (octal w 0))
  | immediateOp (fixed : field w 13 3 = 0b001) :
      Encodes w (.immediateOp (.ofCode (field w 11 2)) (octal w 8) (field w 0 8))
  | registerOp (fixed : field w 10 6 = 0b010000) :
      Encodes w (.registerOp (.ofCode (nibble w 6)) (octal w 3) (octal w 0))
  | highOp (fixed : field w 10 6 = 0b010001) :
      Encodes w (.highOp (.ofCode (field w 8 2)) (highRegister w 3 6) (highRegister w 0 7))
  | loadLiteral (fixed : field w 11 5 = 0b01001) :
      Encodes w (.loadLiteral (octal w 8) (field w 0 8 <<< 2))
  | halfByRegister (fixed : field w 12 4 = 0b0101) (form : bit w 9 = true) :
      Encodes w (.halfByRegister (decodeHalfKind w) (octal w 6) (octal w 3) (octal w 0))
  | transferByRegister (fixed : field w 12 4 = 0b0101) (form : bit w 9 = false) :
      Encodes w (.transferByRegister (.ofBit (bit w 11)) (.ofBit (bit w 10)) (octal w 6)
        (octal w 3) (octal w 0))
  | wordByOffset (fixed : field w 13 3 = 0b011) (form : bit w 12 = false) :
      Encodes w (.transferByOffset (.ofBit (bit w 11)) .word (field w 6 5 <<< 2) (octal w 3)
        (octal w 0))
  | byteByOffset (fixed : field w 13 3 = 0b011) (form : bit w 12 = true) :
      Encodes w (.transferByOffset (.ofBit (bit w 11)) .byte (field w 6 5) (octal w 3)
        (octal w 0))
  | halfByOffset (fixed : field w 12 4 = 0b1000) :
      Encodes w (.halfByOffset (.ofBit (bit w 11)) (field w 6 5 <<< 1) (octal w 3) (octal w 0))
  | stackTransfer (fixed : field w 12 4 = 0b1001) :
      Encodes w (.stackTransfer (.ofBit (bit w 11)) (octal w 8) (field w 0 8 <<< 2))
  | loadAddress (fixed : field w 12 4 = 0b1010) :
      Encodes w (.loadAddress (bit w 11) (octal w 8) (field w 0 8 <<< 2))
  | adjustStack (fixed : field w 8 8 = 0b10110000) :
      Encodes w (.adjustStack (bit w 7) (field w 0 7 <<< 2))
  | pushPop (fixed : field w 12 4 = 0b1011) (form : field w 9 2 = 0b10) :
      Encodes w (.pushPop (.ofBit (bit w 11)) (bit w 8) (field w 0 8).toUInt16)
  | blockTransfer (fixed : field w 12 4 = 0b1100) :
      Encodes w (.blockTransfer (.ofBit (bit w 11)) (octal w 8) (field w 0 8).toUInt16)
  | branchIf (fixed : field w 12 4 = 0b1101) (condition : field w 8 4 ≤ 0b1101) :
      Encodes w (.branchIf (.ofCode (nibble w 8)) (signExtend (field w 0 8 <<< 1) 9))
  | softwareInterrupt (fixed : field w 8 8 = 0b11011111) :
      Encodes w (.softwareInterrupt (field w 0 8))
  | branch (fixed : field w 11 5 = 0b11100) :
      Encodes w (.branch (signExtend (field w 0 11 <<< 1) 12))
  | longBranch (fixed : field w 12 4 = 0b1111) :
      Encodes w (.longBranch (bit w 11) (field w 0 11))
  | undefined (h : Reserved w) : Encodes w .undefined

variable {w : Word}

/-! ## The high byte as a number -/

/-- The high byte of a halfword. -/
def high (w : Word) : Nat := w.toNat / 256 % 256

theorem toNat_high (w : Word) : (field w 8 8).toNat = high w :=
  toNat_field w (by decide) (by decide)

theorem high_le_iff {v : Word} : field w 8 8 ≤ v ↔ high w ≤ v.toNat := by
  rw [UInt32.le_iff_toNat_le, toNat_high]

theorem le_high_iff {v : Word} : v ≤ field w 8 8 ↔ v.toNat ≤ high w := by
  rw [UInt32.le_iff_toNat_le, toNat_high]

theorem high_eq_iff {v : Word} : field w 8 8 = v ↔ high w = v.toNat := by
  rw [← UInt32.toNat_inj, toNat_high]

/-- A field inside the high byte is a part of it. -/
theorem field_high {lo n v : Word} (h : 8 ≤ lo.toNat ∧ lo.toNat + n.toNat ≤ 16) :
    field w lo n = v ↔ high w / 2 ^ (lo.toNat - 8) % 2 ^ n.toNat = v.toNat := by
  obtain ⟨h8, h16⟩ := h
  have hlo : lo < 32 := Nat.lt_of_le_of_lt (Nat.le_of_add_right_le h16) (by decide)
  have hn : n < 32 := Nat.lt_of_le_of_lt (Nat.le_of_add_left_le h16) (by decide)
  obtain ⟨k, hk⟩ := Nat.exists_eq_add_of_le h8
  obtain ⟨r, hr⟩ := Nat.exists_eq_add_of_le (show n.toNat + k ≤ 8 by omega)
  have hsub : lo.toNat - 8 = k := by omega
  have h256 : 256 = 2 ^ k * (2 ^ n.toNat * 2 ^ r) := by
    rw [← Nat.pow_add, ← Nat.pow_add, ← Nat.add_assoc, Nat.add_comm k, ← hr]
  have hpart : w.toNat / 2 ^ (8 + k) % 2 ^ n.toNat = high w / 2 ^ k % 2 ^ n.toNat := by
    rw [high, Nat.pow_add, ← Nat.div_div_eq_div_mul]
    show w.toNat / 256 / 2 ^ k % 2 ^ n.toNat = w.toNat / 256 % 256 / 2 ^ k % 2 ^ n.toNat
    generalize w.toNat / 256 = u
    rw [h256, Nat.mod_mul_right_div_self, Nat.mod_mul_right_mod]
  rw [← UInt32.toNat_inj, toNat_field w hlo hn, hsub, hk, hpart]

/-- The gaps as ranges of a number. -/
theorem reserved_iff : Reserved w ↔ 0xB1 ≤ high w ∧ high w ≤ 0xB3
    ∨ 0xB6 ≤ high w ∧ high w ≤ 0xBB ∨ high w = 0xBE ∨ high w = 0xBF ∨ high w = 0xDE
    ∨ 0xE8 ≤ high w ∧ high w ≤ 0xEF := by
  rw [Reserved, high_le_iff, high_le_iff, high_le_iff, le_high_iff, le_high_iff, le_high_iff,
    high_eq_iff, high_eq_iff, high_eq_iff]
  rfl

/-! ## Every halfword stands in a row -/

/-- A range of high bytes fixes the bits above it. -/
theorem Encodes.byRegister (h₁ : 0x50 ≤ high w) (h₂ : high w ≤ 0x5F) :
    Encodes w (decodeByRegister w) := by
  have fixed : field w 12 4 = 0b0101 :=
    (field_high (by decide)).mpr (show high w / 16 % 16 = 5 by omega)
  rw [decodeByRegister]
  cases form : bit w 9 with
  | true => exact .halfByRegister fixed form
  | false => exact .transferByRegister fixed form

theorem Encodes.byOffset (h₁ : 0x60 ≤ high w) (h₂ : high w ≤ 0x7F) :
    Encodes w (decodeByOffset w) := by
  have fixed : field w 13 3 = 0b011 :=
    (field_high (by decide)).mpr (show high w / 32 % 8 = 3 by omega)
  rw [decodeByOffset]
  cases form : bit w 12 with
  | true => exact .byteByOffset fixed form
  | false => exact .wordByOffset fixed form

/-- **Every halfword stands in the row of the instruction it decodes to.** -/
theorem Encodes.decode (w : Word) : Encodes w (decodeInstruction w) := by
  have hbyte : high w < 256 := Nat.mod_lt _ (by decide)
  simp only [decodeInstruction, high_le_iff, le_high_iff, high_eq_iff, UInt32.reduceToNat]
  -- the ranges in the order of the cascade, each one bounded below by those before it
  by_cases h17 : high w ≤ 0x17
  · rw [if_pos h17]
    refine .moveShifted
      ((field_high (by decide)).mpr (show high w / 32 % 8 = 0 by omega))
      (mt (field_high (by decide)).mp (show ¬ high w / 8 % 4 = 3 by omega))
  rw [if_neg h17]
  by_cases h1F : high w ≤ 0x1F
  · rw [if_pos h1F]
    have fixed : field w 11 5 = 0b00011 :=
      (field_high (by decide)).mpr (show high w / 8 % 32 = 3 by omega)
    cases form : bit w 10 with
    | true => exact .addImmediate fixed form
    | false => exact .addRegister fixed form
  rw [if_neg h1F]
  by_cases h3F : high w ≤ 0x3F
  · rw [if_pos h3F]
    exact .immediateOp ((field_high (by decide)).mpr (show high w / 32 % 8 = 1 by omega))
  rw [if_neg h3F]
  by_cases h43 : high w ≤ 0x43
  · rw [if_pos h43]
    exact .registerOp ((field_high (by decide)).mpr (show high w / 4 % 64 = 16 by omega))
  rw [if_neg h43]
  by_cases h47 : high w ≤ 0x47
  · rw [if_pos h47]
    exact .highOp ((field_high (by decide)).mpr (show high w / 4 % 64 = 17 by omega))
  rw [if_neg h47]
  by_cases h4F : high w ≤ 0x4F
  · rw [if_pos h4F]
    exact .loadLiteral ((field_high (by decide)).mpr (show high w / 8 % 32 = 9 by omega))
  rw [if_neg h4F]
  by_cases h5F : high w ≤ 0x5F
  · rw [if_pos h5F]
    exact .byRegister (by omega) h5F
  rw [if_neg h5F]
  by_cases h7F : high w ≤ 0x7F
  · rw [if_pos h7F]
    exact .byOffset (by omega) h7F
  rw [if_neg h7F]
  by_cases h8F : high w ≤ 0x8F
  · rw [if_pos h8F]
    exact .halfByOffset ((field_high (by decide)).mpr (show high w / 16 % 16 = 8 by omega))
  rw [if_neg h8F]
  by_cases h9F : high w ≤ 0x9F
  · rw [if_pos h9F]
    exact .stackTransfer ((field_high (by decide)).mpr (show high w / 16 % 16 = 9 by omega))
  rw [if_neg h9F]
  by_cases hAF : high w ≤ 0xAF
  · rw [if_pos hAF]
    exact .loadAddress ((field_high (by decide)).mpr (show high w / 16 % 16 = 10 by omega))
  rw [if_neg hAF]
  by_cases hB0 : high w = 0xB0
  · rw [if_pos hB0]
    exact .adjustStack (high_eq_iff.mpr hB0)
  rw [if_neg hB0]
  by_cases hpush : high w = 0xB4 ∨ high w = 0xB5 ∨ high w = 0xBC ∨ high w = 0xBD
  · rw [if_pos hpush]
    exact .pushPop
      ((field_high (by decide)).mpr (show high w / 16 % 16 = 11 by omega))
      ((field_high (by decide)).mpr (show high w / 2 % 4 = 2 by omega))
  rw [if_neg hpush]
  by_cases hBF : high w ≤ 0xBF
  · rw [if_pos hBF]
    exact .undefined (reserved_iff.mpr (by omega))
  rw [if_neg hBF]
  by_cases hCF : high w ≤ 0xCF
  · rw [if_pos hCF]
    exact .blockTransfer ((field_high (by decide)).mpr (show high w / 16 % 16 = 12 by omega))
  rw [if_neg hCF]
  by_cases hDD : high w ≤ 0xDD
  · rw [if_pos hDD]
    refine .branchIf
      ((field_high (by decide)).mpr (show high w / 16 % 16 = 13 by omega)) ?_
    have hcond : field w 8 4 = UInt32.ofNat (high w % 16) := by
      refine (field_high (by decide)).mpr ?_
      rw [UInt32.toNat_ofNat_of_lt' (Nat.lt_trans (Nat.mod_lt _ (by decide)) (by decide))]
      show high w / 1 % 16 = high w % 16
      rw [Nat.div_one]
    rw [hcond, UInt32.le_iff_toNat_le,
      UInt32.toNat_ofNat_of_lt' (Nat.lt_trans (Nat.mod_lt _ (by decide)) (by decide))]
    show high w % 16 ≤ 13
    omega
  rw [if_neg hDD]
  by_cases hDF : high w = 0xDF
  · rw [if_pos hDF]
    exact .softwareInterrupt (high_eq_iff.mpr hDF)
  rw [if_neg hDF]
  by_cases hE7 : 0xE0 ≤ high w ∧ high w ≤ 0xE7
  · rw [if_pos hE7]
    exact .branch ((field_high (by decide)).mpr (show high w / 8 % 32 = 28 by omega))
  rw [if_neg hE7]
  by_cases hF0 : 0xF0 ≤ high w
  · rw [if_pos hF0]
    exact .longBranch ((field_high (by decide)).mpr (show high w / 16 % 16 = 15 by omega))
  rw [if_neg hF0]
  exact .undefined (reserved_iff.mpr (by omega))

/-- A gap falls through every range below it, and through those above. -/
theorem Reserved.decode (h : Reserved w) : decodeInstruction w = .undefined := by
  have hgap := reserved_iff.mp h
  have above {n : Nat} (hn : n ≤ 0xB0) : ¬ high w ≤ n := by omega
  simp only [decodeInstruction, high_le_iff, le_high_iff, high_eq_iff, UInt32.reduceToNat]
  rw [if_neg (above (show 0x17 ≤ _ by decide)), if_neg (above (show 0x1F ≤ _ by decide)),
    if_neg (above (show 0x3F ≤ _ by decide)), if_neg (above (show 0x43 ≤ _ by decide)),
    if_neg (above (show 0x47 ≤ _ by decide)), if_neg (above (show 0x4F ≤ _ by decide)),
    if_neg (above (show 0x5F ≤ _ by decide)), if_neg (above (show 0x7F ≤ _ by decide)),
    if_neg (above (show 0x8F ≤ _ by decide)), if_neg (above (show 0x9F ≤ _ by decide)),
    if_neg (above (show 0xAF ≤ _ by decide)), if_neg (show ¬ high w = 0xB0 by omega),
    if_neg (show ¬ (high w = 0xB4 ∨ high w = 0xB5 ∨ high w = 0xBC ∨ high w = 0xBD) by omega)]
  by_cases hBF : high w ≤ 0xBF
  · rw [if_pos hBF]
  rw [if_neg hBF, if_neg (show ¬ high w ≤ 0xCF by omega), if_neg (show ¬ high w ≤ 0xDD by omega),
    if_neg (show ¬ high w = 0xDF by omega),
    if_neg (show ¬ (0xE0 ≤ high w ∧ high w ≤ 0xE7) by omega),
    if_neg (show ¬ 0xF0 ≤ high w by omega)]

/-- **The gaps are undefined, and only they.** -/
theorem undefined_iff (w : Word) : decodeInstruction w = .undefined ↔ Reserved w := by
  constructor
  · intro h
    have row := Encodes.decode w
    rw [h] at row
    cases row with
    | undefined reserved => exact reserved
  · exact Reserved.decode

end Armv4t.Thumb
