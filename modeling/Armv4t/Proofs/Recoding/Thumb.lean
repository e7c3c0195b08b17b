import Armv4t.Proofs.Encoding.Thumb
import Armv4t.Proofs.Parts

/-! # Recoding the 16-bit set — an instruction back into its halfword

    As in the 32-bit set every operand goes back where the decoder took it from.  No
    format leaves a bit free, so that what comes out is the halfword itself, for every
    instruction but the undefined one (`Encodes.recoded`). -/

namespace Armv4t

/-! ## Codes -/

/-- The codes follow the order of the conditions. -/
def Condition.code (c : Condition) : Word := UInt32.ofNat c.ctorIdx

/-- A low register number, in its place. -/
def LowReg.code (r : LowReg) (lo : Word) : Word := r.val.toUInt32 <<< lo

namespace Thumb

/-- The codes follow the order of the operations. -/
def RegisterOp.code (op : RegisterOp) : Word := UInt32.ofNat op.ctorIdx

def HighOp.code : HighOp → Word
  | add => 0
  | cmp => 1
  | mov => 2
  | bx => 3

def ImmediateOp.code : ImmediateOp → Word
  | mov => 0
  | cmp => 1
  | add => 2
  | sub => 3

def AddOperand.code : AddOperand → Word
  | .immediate n => (0x0400 : Word) ||| n.val.toUInt32 <<< 6
  | .register rn => rn.code 6

/-- The two bits of a halfword transfer with a register offset. -/
def halfCode : HalfTransfer → Word
  | .storeHalf => 0x0000
  | .loadHalf => 0x0800
  | .loadSignedByte => 0x0400
  | .loadSignedHalf => 0x0C00

/-- A register number of four bits: three of them together, the highest apart. -/
def highCode (r : Reg) (lo top : Word) : Word :=
  (r.val.toUInt32 &&& 7) <<< lo ||| flag (bit r.val.toUInt32 3) top

/-- The halfword of an instruction. -/
def Instruction.code : Instruction → Word
  | .moveShifted kind amount rs rd =>
    kind.code <<< 11 ||| amount.val.toUInt32 <<< 6 ||| rs.code 3 ||| rd.code 0
  | .addSubtract subtract operand rs rd =>
    (0x1800 : Word) ||| flag subtract 9 ||| operand.code ||| rs.code 3 ||| rd.code 0
  | .immediateOp op rd value => (0x2000 : Word) ||| op.code <<< 11 ||| rd.code 8 ||| value
  | .registerOp op rs rd => (0x4000 : Word) ||| op.code <<< 6 ||| rs.code 3 ||| rd.code 0
  | .highOp op rs rd => (0x4400 : Word) ||| op.code <<< 8 ||| highCode rs 3 6 ||| highCode rd 0 7
  | .loadLiteral rd offset => (0x4800 : Word) ||| rd.code 8 ||| offset >>> 2
  | .transferByRegister kind quantity ro rb rd =>
    (0x5000 : Word) ||| flag (kind == .load) 11 ||| flag (quantity == .byte) 10 ||| ro.code 6
      ||| rb.code 3 ||| rd.code 0
  | .halfByRegister kind ro rb rd =>
    (0x5200 : Word) ||| halfCode kind ||| ro.code 6 ||| rb.code 3 ||| rd.code 0
  | .transferByOffset kind .word offset rb rd =>
    (0x6000 : Word) ||| flag (kind == .load) 11 ||| (offset >>> 2) <<< 6 ||| rb.code 3 ||| rd.code 0
  | .transferByOffset kind .byte offset rb rd =>
    (0x7000 : Word) ||| flag (kind == .load) 11 ||| offset <<< 6 ||| rb.code 3 ||| rd.code 0
  | .halfByOffset kind offset rb rd =>
    (0x8000 : Word) ||| flag (kind == .load) 11 ||| (offset >>> 1) <<< 6 ||| rb.code 3 ||| rd.code 0
  | .stackTransfer kind rd offset =>
    (0x9000 : Word) ||| flag (kind == .load) 11 ||| rd.code 8 ||| offset >>> 2
  | .loadAddress fromStack rd offset =>
    (0xA000 : Word) ||| flag fromStack 11 ||| rd.code 8 ||| offset >>> 2
  | .adjustStack subtract offset => (0xB000 : Word) ||| flag subtract 7 ||| offset >>> 2
  | .pushPop kind extra list =>
    (0xB400 : Word) ||| flag (kind == .load) 11 ||| flag extra 8 ||| list.toUInt32
  | .blockTransfer kind rb list =>
    (0xC000 : Word) ||| flag (kind == .load) 11 ||| rb.code 8 ||| list.toUInt32
  | .branchIf condition offset =>
    (0xD000 : Word) ||| condition.code <<< 8 ||| (offset >>> 1) &&& 0xFF
  | .softwareInterrupt comment => (0xDF00 : Word) ||| comment
  | .branch offset => (0xE000 : Word) ||| (offset >>> 1) &&& 0x7FF
  | .longBranch second offset => (0xF000 : Word) ||| flag second 11 ||| offset
  | .undefined => 0

end Thumb

/-! ## The pieces -/

namespace IsPart

variable {w : Word}

theorem ofLow (w lo : Word) : IsPart (fieldMask lo 3) w (LowReg.code (octal w lo) lo) :=
  ofNumber (by decide)

theorem ofCondition (w lo : Word) :
    IsPart (fieldMask lo 4) w ((Condition.ofCode (nibble w lo)).code <<< lo) := by
  have hcode (n : Fin 16) : (Condition.ofCode n).code = n.val.toUInt32 := by
    revert n
    decide
  rw [hcode]
  exact ofReg w lo

theorem ofRegisterOp (w lo : Word) :
    IsPart (fieldMask lo 4) w ((Thumb.RegisterOp.ofCode (nibble w lo)).code <<< lo) := by
  have hcode (n : Fin 16) : (Thumb.RegisterOp.ofCode n).code = n.val.toUInt32 := by
    revert n
    decide
  rw [hcode]
  exact ofReg w lo

theorem ofHighOp (w lo : Word) :
    IsPart (fieldMask lo 2) w ((Thumb.HighOp.ofCode (field w lo 2)).code <<< lo) := by
  have hcode : (Thumb.HighOp.ofCode (field w lo 2)).code = field w lo 2 := by
    rcases two_bits (field_le w lo 2) with h | h | h | h <;> rw [h] <;> rfl
  rw [hcode]
  exact ofField w lo 2

theorem ofImmediateOp (w lo : Word) :
    IsPart (fieldMask lo 2) w ((Thumb.ImmediateOp.ofCode (field w lo 2)).code <<< lo) := by
  have hcode : (Thumb.ImmediateOp.ofCode (field w lo 2)).code = field w lo 2 := by
    rcases two_bits (field_le w lo 2) with h | h | h | h <;> rw [h] <;> rfl
  rw [hcode]
  exact ofField w lo 2

/-- A register number whose highest bit stands apart. -/
theorem ofHighRegister (w lo top : Word) :
    IsPart (fieldMask lo 3 ||| fieldMask top 1) w
      (Thumb.highCode (Thumb.highRegister w lo top) lo top) := by
  have hsplit : ∀ (b : Bool) (n : Fin 8),
      let r : Reg := nibble ((if b then 8 else 0) ||| UInt32.ofNat n.val) 0
      r.val.toUInt32 &&& 7 = UInt32.ofNat n.val ∧ bit r.val.toUInt32 3 = b := by
    decide
  have hlt : (field w lo 3).toNat < 8 :=
    Nat.lt_of_le_of_lt (UInt32.le_iff_toNat_le.mp (field_le w lo 3)) (by decide)
  obtain ⟨hlow, htop⟩ := hsplit (bit w top) ⟨_, hlt⟩
  rw [show UInt32.ofNat (field w lo 3).toNat = field w lo 3 from UInt32.ofNat_toNat] at hlow htop
  rw [Thumb.highCode, Thumb.highRegister, hlow, htop]
  exact (ofField w lo 3).or (ofBit w top)

theorem ofHalfBits (w : Word) : IsPart 0x0C00 w (Thumb.halfCode (Thumb.decodeHalfKind w)) := by
  have parts := (ofBit w 10).or (ofBit w 11)
  rw [Thumb.decodeHalfKind]
  cases h10 : bit w 10 <;> cases h11 : bit w 11 <;> rw [h10, h11] at parts <;>
    exact parts.of_eq (by decide) (by decide)

/-- A field that counts units of some size. -/
theorem ofScaled (w : Word) {p n s : Word} (h : p < 32 ∧ n < 32 ∧ n.toNat + s.toNat < 32) :
    IsPart (fieldMask p n) w (((field w p n <<< s) >>> s) <<< p) := by
  rw [scaled w h.1 h.2.1 h.2.2]
  exact ofField w p n

/-- The same for the lowest field. -/
theorem ofScaledLowest (w : Word) {n s : Word} (h : n < 32 ∧ n.toNat + s.toNat < 32) :
    IsPart (fieldMask 0 n) w ((field w 0 n <<< s) >>> s) := by
  rw [scaled w (by decide) h.1 h.2]
  exact ofLowest w n

/-- A list of registers in the lowest byte. -/
theorem ofByteList (w : Word) : IsPart 0xFF w (field w 0 8).toUInt16.toUInt32 := by
  have hlist := ofHalf (field w 0 8)
  have hbyte : field w 0 8 &&& 0xFFFF = field w 0 8 := by
    rw [field, UInt32.and_assoc]
    rfl
  exact (ofLowest w 8).of_eq (by decide) (hbyte.symm.trans hlist.symm)

end IsPart

namespace Thumb

variable {w : Word}

/-! ## The rows -/

/-- **Every row adds up to its halfword**, but for the undefined ones. -/
theorem Encodes.recoded {i : Instruction} (h : Encodes w i) (hi : i ≠ .undefined) :
    IsPart 0xFFFF w i.code := by
  cases h with
  | moveShifted fixed kind =>
      have parts := (((IsPart.ofShiftKind w 11).or (.ofQuint w 6)).or (.ofLow w 3)).or (.ofLow w 0)
      exact ((IsPart.fixed fixed).blank parts).of_eq (by decide) rfl
  | addRegister fixed form =>
      have parts := ((((IsPart.fixed fixed).or (.ofBit w 9)).or
        ((IsPart.known form).blank (.ofLow w 6))).or (.ofLow w 3)).or (.ofLow w 0)
      exact parts.of_eq (by decide) rfl
  | addImmediate fixed form =>
      have parts := ((((IsPart.fixed fixed).or (.ofBit w 9)).or
        ((IsPart.known form).or (.ofLow w 6))).or (.ofLow w 3)).or (.ofLow w 0)
      exact parts.of_eq (by decide) rfl
  | immediateOp fixed =>
      have parts := (((IsPart.fixed fixed).or (.ofImmediateOp w 11)).or (.ofLow w 8)).or
        (.ofLowest w 8)
      exact parts.of_eq (by decide) rfl
  | registerOp fixed =>
      have parts := (((IsPart.fixed fixed).or (.ofRegisterOp w 6)).or (.ofLow w 3)).or (.ofLow w 0)
      exact parts.of_eq (by decide) rfl
  | highOp fixed =>
      have parts := (((IsPart.fixed fixed).or (.ofHighOp w 8)).or (.ofHighRegister w 3 6)).or
        (.ofHighRegister w 0 7)
      exact parts.of_eq (by decide) rfl
  | loadLiteral fixed =>
      have parts := ((IsPart.fixed fixed).or (.ofLow w 8)).or
        (.ofScaledLowest w (n := 8) (s := 2) (by decide))
      exact parts.of_eq (by decide) rfl
  | halfByRegister fixed form =>
      have row := (IsPart.fixed fixed).or (.known form)
      have parts := (((row.or (.ofHalfBits w)).or (.ofLow w 6)).or (.ofLow w 3)).or (.ofLow w 0)
      exact parts.of_eq (by decide) rfl
  | transferByRegister fixed form =>
      have row := (IsPart.known form).blank (IsPart.fixed fixed)
      have parts := ((((row.or (.ofLoadBit w 11)).or (.ofByteBit w 10)).or (.ofLow w 6)).or
        (.ofLow w 3)).or (.ofLow w 0)
      exact parts.of_eq (by decide) rfl
  | wordByOffset fixed form =>
      have row := (IsPart.known form).blank (IsPart.fixed fixed)
      have parts := (((row.or (.ofLoadBit w 11)).or
        (.ofScaled w (p := 6) (n := 5) (s := 2) (by decide))).or (.ofLow w 3)).or (.ofLow w 0)
      exact parts.of_eq (by decide) rfl
  | byteByOffset fixed form =>
      have row := (IsPart.fixed fixed).or (.known form)
      have parts := (((row.or (.ofLoadBit w 11)).or (.ofField w 6 5)).or (.ofLow w 3)).or
        (.ofLow w 0)
      exact parts.of_eq (by decide) rfl
  | halfByOffset fixed =>
      have parts := ((((IsPart.fixed fixed).or (.ofLoadBit w 11)).or
        (.ofScaled w (p := 6) (n := 5) (s := 1) (by decide))).or (.ofLow w 3)).or (.ofLow w 0)
      exact parts.of_eq (by decide) rfl
  | stackTransfer fixed =>
      have parts := (((IsPart.fixed fixed).or (.ofLoadBit w 11)).or (.ofLow w 8)).or
        (.ofScaledLowest w (n := 8) (s := 2) (by decide))
      exact parts.of_eq (by decide) rfl
  | loadAddress fixed =>
      have parts := (((IsPart.fixed fixed).or (.ofBit w 11)).or (.ofLow w 8)).or
        (.ofScaledLowest w (n := 8) (s := 2) (by decide))
      exact parts.of_eq (by decide) rfl
  | adjustStack fixed =>
      have parts := ((IsPart.fixed fixed).or (.ofBit w 7)).or
        (.ofScaledLowest w (n := 7) (s := 2) (by decide))
      exact parts.of_eq (by decide) rfl
  | pushPop fixed form =>
      have row := (IsPart.fixed fixed).or (.fixed form)
      have parts := ((row.or (.ofLoadBit w 11)).or (.ofBit w 8)).or (.ofByteList w)
      exact parts.of_eq (by decide) rfl
  | blockTransfer fixed =>
      have parts := (((IsPart.fixed fixed).or (.ofLoadBit w 11)).or (.ofLow w 8)).or (.ofByteList w)
      exact parts.of_eq (by decide) rfl
  | branchIf fixed condition =>
      have offset := IsPart.ofSigned w (n := 8) (s := 1) (k := 9) (by decide) (by decide) rfl
        (by decide) rfl
      have parts := ((IsPart.fixed fixed).or (.ofCondition w 8)).or offset
      exact parts.of_eq (by decide) rfl
  | softwareInterrupt fixed =>
      exact ((IsPart.fixed fixed).or (.ofLowest w 8)).of_eq (by decide) rfl
  | branch fixed =>
      have offset := IsPart.ofSigned w (n := 11) (s := 1) (k := 12) (by decide) (by decide) rfl
        (by decide) rfl
      exact ((IsPart.fixed fixed).or offset).of_eq (by decide) rfl
  | longBranch fixed =>
      have parts := ((IsPart.fixed fixed).or (.ofBit w 11)).or (.ofLowest w 11)
      exact parts.of_eq (by decide) rfl
  | undefined reserved => exact absurd rfl hi

end Thumb

end Armv4t
