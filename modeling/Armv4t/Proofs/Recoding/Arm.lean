import Armv4t.Proofs.Encoding.Arm
import Armv4t.Proofs.Parts

/-! # Recoding the 32-bit set — an instruction back into its word

    Every operand of an instruction is put back where the decoder took it from.  What
    comes out is the word itself, without the condition and without the bits that its
    family ignores: a few families leave some bits free, and what traps keeps none.

    * the pieces that instructions are made of each give back their own bits;
    * row by row of the table of encodings these add up to the word
      (`Encodes.recoded`). -/

namespace Armv4t

/-! ## Codes -/

/-- The codes follow the order of the operations. -/
def AluOp.code (op : AluOp) : Word := UInt32.ofNat op.ctorIdx

/-- The load bit, and the two bits for signed and halfword. -/
def HalfTransfer.code : HalfTransfer → Word
  | storeHalf => 0x00000020
  | loadHalf => 0x00100020
  | loadSignedByte => 0x00100040
  | loadSignedHalf => 0x00100060

def Addressing.code (a : Addressing) : Word :=
  flag (a.indexing == .pre) 24 ||| flag (a.direction == .up) 23 ||| flag a.writeBack 21

namespace Arm

def Operand.code : Operand → Word
  | .immediate i => 0x02000000 ||| i.toField
  | .shifted rm kind (.immediate n) => rm.code 0 ||| kind.code <<< 5 ||| n.val.toUInt32 <<< 7
  | .shifted rm kind (.register rs) => (0x10 : Word) ||| rm.code 0 ||| kind.code <<< 5 ||| rs.code 8

def StatusRegister.code (r : StatusRegister) : Word := flag (r == .spsr) 22

def StatusOperand.code : StatusOperand → Word
  | .register rm => rm.code 0
  | .immediate i => 0x02000000 ||| i.toField

def TransferOffset.code : TransferOffset → Word
  | .immediate offset => offset
  | .shifted rm kind n =>
    (0x02000000 : Word) ||| rm.code 0 ||| kind.code <<< 5 ||| n.val.toUInt32 <<< 7

/-- The two halves of an offset stand apart. -/
def HalfOffset.code : HalfOffset → Word
  | .immediate offset => (0x00400000 : Word) ||| (offset >>> 4) <<< 8 ||| offset &&& 0xF
  | .register rm => rm.code 0

/-- The word of an instruction, with a zero for every bit that is ignored. -/
def Instruction.code : Instruction → Word
  | .dataProcessing op setFlags rn rd operand =>
    operand.code ||| op.code <<< 21 ||| flag setFlags 20 ||| rn.code 16 ||| rd.code 12
  | .moveFromStatus source rd => 0x01000000 ||| source.code ||| rd.code 12
  | .moveToStatus target fields operand =>
    0x01200000 ||| target.code ||| flag fields.control 16 ||| flag fields.flags 19 ||| operand.code
  | .multiply accumulate setFlags rd rn rs rm =>
    0x00000090 ||| flag accumulate 21 ||| flag setFlags 20 ||| rd.code 16 ||| rn.code 12
      ||| rs.code 8 ||| rm.code 0
  | .multiplyLong signed accumulate setFlags rdHigh rdLow rs rm =>
    0x00800090 ||| flag signed 22 ||| flag accumulate 21 ||| flag setFlags 20 ||| rdHigh.code 16
      ||| rdLow.code 12 ||| rs.code 8 ||| rm.code 0
  | .swap quantity rn rd rm =>
    0x01000090 ||| flag (quantity == .byte) 22 ||| rn.code 16 ||| rd.code 12 ||| rm.code 0
  | .branchExchange rm => 0x012FFF10 ||| rm.code 0
  | .halfTransfer kind a rn rd offset =>
    0x00000090 ||| kind.code ||| a.code ||| rn.code 16 ||| rd.code 12 ||| offset.code
  | .singleTransfer kind quantity a rn rd offset =>
    0x04000000 ||| flag (kind == .load) 20 ||| flag (quantity == .byte) 22 ||| a.code
      ||| rn.code 16 ||| rd.code 12 ||| offset.code
  | .blockTransfer kind a s rn list =>
    0x08000000 ||| flag (kind == .load) 20 ||| a.code ||| flag s 22 ||| rn.code 16
      ||| list.toUInt32
  | .branch link offset => (0x0A000000 : Word) ||| flag link 24 ||| (offset >>> 2) &&& 0x00FFFFFF
  | .softwareInterrupt comment => 0x0F000000 ||| comment
  | .coprocessor | .undefined => 0

/-- The bits below the condition that decoding an instruction ignores. -/
def Instruction.ignored : Instruction → Word
  | .halfTransfer _ _ _ _ (.register _) => 0x00000F00
  | .moveFromStatus .. => 0x000F0F0F
  | .moveToStatus _ _ (.register _) => 0x0006FF00
  | .moveToStatus _ _ (.immediate _) => 0x0006F000
  | .coprocessor | .undefined => 0x0FFFFFFF
  | _ => 0

end Arm

/-! ## The pieces -/

namespace IsPart

variable {w : Word}

theorem ofAluOp (w lo : Word) :
    IsPart (fieldMask lo 4) w ((AluOp.ofCode (nibble w lo)).code <<< lo) := by
  have hcode (n : Fin 16) : (AluOp.ofCode n).code = n.val.toUInt32 := by
    revert n
    decide
  rw [hcode]
  exact ofReg w lo

theorem ofRotated (w : Word) : IsPart 0xFFF w (RotatedImmediate.ofField w).toField :=
  ((ofReg w 8).or (ofByte w)).of_eq (by decide) rfl

theorem ofAddressing (w : Word) : IsPart 0x01A00000 w (Arm.decodeAddressing w).code := by
  have hpre (b : Bool) : (Indexing.ofBit b == .pre) = b := by
    cases b <;> rfl
  have hup (b : Bool) : (Direction.ofBit b == .up) = b := by
    cases b <;> rfl
  have h := ((ofBit w 24).or (ofBit w 23)).or (ofBit w 21)
  rw [Arm.decodeAddressing, Addressing.code, hpre, hup]
  exact h.of_eq (by decide) rfl

theorem ofStatusRegister (w : Word) :
    IsPart 0x00400000 w (Arm.decodeStatusRegister w).code := by
  have h := ofBit w 22
  rw [Arm.decodeStatusRegister]
  cases h22 : bit w 22 with
  | true =>
      rw [h22] at h
      exact h
  | false =>
      rw [h22] at h
      exact h

/-- The load bit and the two bits beside it, where they tell a kind of transfer. -/
theorem ofHalfKind {kind : HalfTransfer} (h : Arm.decodeHalfKind w = some kind) :
    IsPart 0x00100060 w kind.code := by
  have parts := ((ofBit w 20).or (ofBit w 6)).or (ofBit w 5)
  rw [Arm.decodeHalfKind] at h
  -- four of the eight combinations name a kind, and the name gives the bits back
  cases h20 : bit w 20 <;> cases h6 : bit w 6 <;> cases h5 : bit w 5 <;>
    rw [h20, h6, h5] at h parts <;> cases h <;> exact parts.of_eq (by decide) (by decide)

end IsPart

namespace Arm

variable {w : Word}

/-! ## The rows -/

/-- The upper half of an offset, which the decoder moved next to the lower one. -/
theorem upper_half (w : Word) : ((field w 8 4 <<< 4) ||| field w 0 4) >>> 4 = field w 8 4 := by
  have hlow : field w 0 4 >>> 4 = 0 := by
    rw [field, UInt32.shiftRight_and]
    exact UInt32.and_zero
  rw [UInt32.shiftRight_or, IsPart.scaled w (by decide) (by decide) (by decide), hlow,
    UInt32.or_zero]

/-- And the lower half. -/
theorem lower_half (w : Word) : ((field w 8 4 <<< 4) ||| field w 0 4) &&& 0xF = field w 0 4 := by
  have hhigh : (field w 8 4 <<< 4) &&& 0xF = 0 := by
    rw [field, UInt32.shiftLeft_and, UInt32.and_assoc]
    exact UInt32.and_zero
  have hlow : field w 0 4 &&& 0xF = field w 0 4 := by
    rw [field, UInt32.and_assoc]
    rfl
  rw [or_and_mask, hhigh, hlow, UInt32.zero_or]

/-- The offset of a halfword transfer shows its two fields. -/
theorem HalfOffset.recoded (w : Word) (form : bit w 22 = true) :
    IsPart 0x00400F0F w (code (.immediate ((field w 8 4 <<< 4) ||| field w 0 4))) := by
  have parts := ((IsPart.known form).or (.ofField w 8 4)).or (.ofLowest w 4)
  rw [code, upper_half, lower_half]
  exact parts.of_eq (by decide) rfl

/-- **Every row adds up to its word**: the codes of the operands and the fixed bits fill
    all bits but the condition and those that the row ignores. -/
theorem Encodes.recoded {i : Instruction} (h : Encodes w i) :
    IsPart (~~~(0xF0000000 ||| i.ignored)) w i.code := by
  cases h with
  | immediateOperation family flags =>
      show IsPart (~~~(0xF0000000 ||| 0)) w _
      have operand := (IsPart.fixed family).or (.ofRotated w)
      have parts := (((operand.or (.ofAluOp w 21)).or (.ofBit w 20)).or (.ofReg w 16)).or
        (.ofReg w 12)
      exact parts.of_eq (by decide) rfl
  | shiftedOperation family form flags =>
      show IsPart (~~~(0xF0000000 ||| 0)) w _
      have shifted := ((IsPart.ofReg w 0).or (.ofShiftKind w 5)).or (.ofQuint w 7)
      have operand := (IsPart.fixed family).blank ((IsPart.known form).blank shifted)
      have parts := (((operand.or (.ofAluOp w 21)).or (.ofBit w 20)).or (.ofReg w 16)).or
        (.ofReg w 12)
      exact parts.of_eq (by decide) rfl
  | registerShiftedOperation family high form flags =>
      show IsPart (~~~(0xF0000000 ||| 0)) w _
      have shifted := (((IsPart.known form).or (.ofReg w 0)).or (.ofShiftKind w 5)).or (.ofReg w 8)
      have operand := (IsPart.fixed family).blank ((IsPart.known high).blank shifted)
      have parts := (((operand.or (.ofAluOp w 21)).or (.ofBit w 20)).or (.ofReg w 16)).or
        (.ofReg w 12)
      exact parts.of_eq (by decide) rfl
  | moveFromStatus fixed op form =>
      show IsPart (~~~(0xF0000000 ||| 0x000F0F0F)) w _
      have row := (IsPart.fixed op).blank ((IsPart.fixed form).blank (IsPart.fixed fixed))
      have parts := (row.or (.ofStatusRegister w)).or (.ofReg w 12)
      exact parts.of_eq (by decide) rfl
  | moveRegisterToStatus fixed op form =>
      show IsPart (~~~(0xF0000000 ||| 0x0006FF00)) w _
      have row := (IsPart.fixed form).blank ((IsPart.fixed fixed).or (.fixed op))
      have parts := (((row.or (.ofStatusRegister w)).or (.ofBit w 16)).or (.ofBit w 19)).or
        (.ofReg w 0)
      exact parts.of_eq (by decide) rfl
  | moveImmediateToStatus fixed op =>
      show IsPart (~~~(0xF0000000 ||| 0x0006F000)) w _
      -- bit 25 stands with the operand
      have row := ((IsPart.fixed fixed).restrict 0x0D800000).or (.fixed op)
      have operand := ((IsPart.fixed fixed).restrict 0x02000000).or (.ofRotated w)
      have parts := (((row.or (.ofStatusRegister w)).or (.ofBit w 16)).or (.ofBit w 19)).or operand
      exact parts.of_eq (by decide) rfl
  | multiply fixed form =>
      show IsPart (~~~(0xF0000000 ||| 0)) w _
      have row := (IsPart.fixed fixed).blank (IsPart.fixed form)
      have parts := (((((row.or (.ofBit w 21)).or (.ofBit w 20)).or (.ofReg w 16)).or
        (.ofReg w 12)).or (.ofReg w 8)).or (.ofReg w 0)
      exact parts.of_eq (by decide) rfl
  | multiplyLong fixed form =>
      show IsPart (~~~(0xF0000000 ||| 0)) w _
      have row := (IsPart.fixed fixed).or (.fixed form)
      have parts := ((((((row.or (.ofBit w 22)).or (.ofBit w 21)).or (.ofBit w 20)).or
        (.ofReg w 16)).or (.ofReg w 12)).or (.ofReg w 8)).or (.ofReg w 0)
      exact parts.of_eq (by decide) rfl
  | swap fixed op zero form =>
      show IsPart (~~~(0xF0000000 ||| 0)) w _
      have row := (IsPart.fixed op).blank
        ((IsPart.fixed zero).blank ((IsPart.fixed fixed).or (.fixed form)))
      have parts := (((row.or (.ofByteBit w 22)).or (.ofReg w 16)).or (.ofReg w 12)).or
        (.ofReg w 0)
      exact parts.of_eq (by decide) rfl
  | branchExchange fixed =>
      show IsPart (~~~(0xF0000000 ||| 0)) w _
      exact ((IsPart.fixed fixed).or (.ofReg w 0)).of_eq (by decide) rfl
  | halfByRegister family form high low hkind =>
      show IsPart (~~~(0xF0000000 ||| 0x00000F00)) w _
      have row := (IsPart.fixed family).blank
        ((IsPart.known form).blank ((IsPart.known high).or (.known low)))
      have parts := ((((row.or (.ofHalfKind hkind)).or (.ofAddressing w)).or (.ofReg w 16)).or
        (.ofReg w 12)).or (.ofReg w 0)
      exact parts.of_eq (by decide) rfl
  | halfByOffset family form high low hkind =>
      show IsPart (~~~(0xF0000000 ||| 0)) w _
      have row := (IsPart.fixed family).blank ((IsPart.known high).or (.known low))
      have parts := ((((row.or (.ofHalfKind hkind)).or (.ofAddressing w)).or (.ofReg w 16)).or
        (.ofReg w 12)).or (HalfOffset.recoded w form)
      exact parts.of_eq (by decide) rfl
  | transferByOffset family =>
      show IsPart (~~~(0xF0000000 ||| 0)) w _
      have parts := ((((((IsPart.fixed family).or (.ofLoadBit w 20)).or (.ofByteBit w 22)).or
        (.ofAddressing w)).or (.ofReg w 16)).or (.ofReg w 12)).or (.ofLowest w 12)
      exact parts.of_eq (by decide) rfl
  | transferByRegister family form =>
      show IsPart (~~~(0xF0000000 ||| 0)) w _
      have shifted := ((((IsPart.fixed family).restrict 0x02000000).or (.ofReg w 0)).or
        (.ofShiftKind w 5)).or (.ofQuint w 7)
      have parts := ((((((IsPart.fixed family).restrict 0x0C000000).or (.ofLoadBit w 20)).or
        (.ofByteBit w 22)).or (.ofAddressing w)).or (.ofReg w 16)).or (.ofReg w 12)
      exact (parts.or ((IsPart.known form).blank shifted)).of_eq (by decide) rfl
  | blockTransfer family =>
      show IsPart (~~~(0xF0000000 ||| 0)) w _
      have parts := (((((IsPart.fixed family).or (.ofLoadBit w 20)).or (.ofAddressing w)).or
        (.ofBit w 22)).or (.ofReg w 16)).or (.ofHalf w)
      exact parts.of_eq (by decide) rfl
  | branch family =>
      show IsPart (~~~(0xF0000000 ||| 0)) w _
      have offset := IsPart.ofSigned w (n := 24) (s := 2) (k := 26) (by decide) (by decide) rfl
        (by decide) rfl
      exact (((IsPart.fixed family).or (.ofBit w 24)).or offset).of_eq (by decide) rfl
  | softwareInterrupt family =>
      show IsPart (~~~(0xF0000000 ||| 0)) w _
      exact ((IsPart.fixed family).or (.ofLowest w 24)).of_eq (by decide) rfl
  | coprocessor | undefined => exact UInt32.and_zero.symm

end Arm

end Armv4t
