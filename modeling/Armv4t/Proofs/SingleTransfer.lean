import Armv4t.Proofs.CurrentBlock
import Armv4t.Proofs.DataProcessing
import Armv4t.Proofs.Executing
import Armv4t.Proofs.FlatWords
import Armv4t.Proofs.Transfer

/-! # Single transfers — one register, one access

    A single transfer moves one value between a register and the memory, and may move its
    base.  The words of the two families differ in where they hold the width and the offset;
    from there on they are one transfer (`Arm.singleTransfer_eq`, `Arm.halfTransfer_eq`).

    * `Arm.singleWord_iff` and `Arm.halfWord_iff` tell the words by their bits;
    * the memory sees an aligned address, and a load makes up for it: what it reads is
      rotated, or its sign is copied (`Execution.loadValue`);
    * a store of any width changes the bytes of its own place alone
      (`FlatMemory.readByte_write_aligned`);
    * the base moves before a loaded register is written, and so the loaded value stays
      where the two are the same (`Arm.moveValue_load`); a stored register is read before
      the base moves (`Arm.moveValue_store`).

    `Machine.single_transfer` states all of it for a step. -/

namespace Armv4t

/-- The width of a quantity. -/
def Quantity.width : Quantity → Width
  | word => .word
  | byte => .byte

namespace HalfTransfer

/-- The width of what is moved. -/
def width : HalfTransfer → Width
  | loadSignedByte => .byte
  | _ => .half

/-- The sign is copied into the rest of the register. -/
def signed : HalfTransfer → Bool
  | loadSignedByte | loadSignedHalf => true
  | _ => false

end HalfTransfer

/-! ## The words -/

namespace Arm

/-- The words of the word and byte transfers, by their bits: an offset from a register is
    moved by a number of places from the opcode. -/
structure SingleWord (w : Word) : Prop where
  family : field w 26 2 = 0b01
  offset : ¬ (bit w 25 = true ∧ bit w 4 = true)

/-- The words of the halfword and signed transfers, by their bits: those of neither kind are
    multiplies, and no store is signed. -/
structure HalfWord (w : Word) : Prop where
  family : field w 25 3 = 0b000
  high : bit w 7 = true
  low : bit w 4 = true
  kind : bit w 6 = true ∨ bit w 5 = true
  store : bit w 20 = false → bit w 6 = false

variable {w : Word}

/-- Bits 27 and 26 settle the family, bits 25 and 4 that nothing else takes the word. -/
theorem SingleWord.decode (h : SingleWord w) : decodeInstruction w = decodeSingleTransfer w := by
  cases h25 : bit w 25 with
  | false =>
      have family := ((AgreeOn.of_pattern 0x04000000 h.family rfl).union
        (AgreeOn.of_bit_pattern 0x04000000 h25 rfl)).field_eq (p := 25) (n := 3) (by decide)
      rw [decodeInstruction, family]
      rfl
  | true =>
      have family := ((AgreeOn.of_pattern 0x06000000 h.family rfl).union
        (AgreeOn.of_bit_pattern 0x06000000 h25 rfl)).field_eq (p := 25) (n := 3) (by decide)
      rw [decodeInstruction, family]
      exact if_neg fun h4 => h.offset ⟨h25, h4⟩

/-- The kind of a halfword transfer, by its bits. -/
def halfKind (w : Word) : HalfTransfer :=
  if bit w 20 then
    if bit w 6 then if bit w 5 then .loadSignedHalf else .loadSignedByte else .loadHalf
  else .storeHalf

/-- The two families have nothing in common. -/
theorem HalfWord.not_single (h : HalfWord w) : field w 26 2 ≠ 0b01 := by
  rw [show field w 26 2 = 0 from (AgreeOn.of_pattern 0 h.family rfl).field_eq (by decide)]
  decide

/-- The bits of the kind are not both clear. -/
theorem HalfWord.half (h : HalfWord w) (h6 : bit w 6 = false) : bit w 5 = true :=
  h.kind.resolve_left (mt h6.symm.trans Bool.false_ne_true)

/-- L, S and H name one of four transfers. -/
theorem HalfWord.decodeKind (h : HalfWord w) : decodeHalfKind w = some (halfKind w) := by
  rw [decodeHalfKind, halfKind]
  cases h20 : bit w 20 with
  | true =>
      cases h6 : bit w 6 with
      | true => cases bit w 5 <;> rfl
      | false =>
          rw [h.half h6]
          rfl
  | false =>
      have h6 := h.store h20
      rw [h6, h.half h6]
      rfl

theorem HalfWord.decode (h : HalfWord w) :
    decodeInstruction w = .halfTransfer (halfKind w) (decodeAddressing w) (nibble w 16)
      (nibble w 12) (if bit w 22 then .immediate ((field w 8 4 <<< 4) ||| field w 0 4)
        else .register (nibble w 0)) := by
  have hform : field w 4 4 ≠ 0b1001 := by
    intro form
    have hword := AgreeOn.of_pattern 0x90 form rfl
    rcases h.kind with h6 | h5
    · exact Bool.noConfusion (h6.symm.trans (hword.bit_eq (by decide) : bit w 6 = false))
    · exact Bool.noConfusion (h5.symm.trans (hword.bit_eq (by decide) : bit w 5 = false))
  have hboth : (bit w 7 && bit w 4) = true := (Bool.and_eq_true ..).mpr ⟨h.high, h.low⟩
  rw [decodeInstruction_of_register h.family, decodeRegisterFamily, if_neg hform, if_pos hboth,
    decodeHalfTransfer, h.decodeKind]

/-- **The word and byte transfers are what these words decode to, and no others.** -/
theorem singleWord_iff : SingleWord w ↔ ∃ kind quantity a rn rd offset,
    decodeInstruction w = .singleTransfer kind quantity a rn rd offset := by
  constructor
  · intro h
    exact ⟨_, _, _, _, _, _, h.decode⟩
  · rintro ⟨kind, quantity, a, rn, rd, offset, h⟩
    have row := Encodes.decode w
    rw [h] at row
    cases row with
    | transferByOffset family =>
        have hword := AgreeOn.of_pattern 0x04000000 family rfl
        have h25 : bit w 25 = false := hword.bit_eq (by decide)
        exact ⟨hword.field_eq (by decide), fun h => Bool.noConfusion (h25.symm.trans h.1)⟩
    | transferByRegister family form =>
        have hword := AgreeOn.of_pattern 0x06000000 family rfl
        exact ⟨hword.field_eq (by decide), fun h => Bool.noConfusion (form.symm.trans h.2)⟩

/-- A kind that the bits tell is that of a halfword transfer. -/
theorem halfWord_of_kind {kind : HalfTransfer} (family : field w 25 3 = 0b000)
    (high : bit w 7 = true) (low : bit w 4 = true) (h : decodeHalfKind w = some kind) :
    HalfWord w := by
  have hsome (hnone : decodeHalfKind w = none) : False :=
    Option.some_ne_none kind (h.symm.trans hnone)
  refine ⟨family, high, low, ?_, ?_⟩
  · cases h6 : bit w 6 with
    | true => exact Or.inl rfl
    | false =>
        cases h5 : bit w 5 with
        | true => exact Or.inr rfl
        | false =>
            refine (hsome ?_).elim
            rw [decodeHalfKind, h6, h5]
            cases bit w 20 <;> rfl
  · intro h20
    cases h6 : bit w 6 with
    | false => rfl
    | true =>
        refine (hsome ?_).elim
        rw [decodeHalfKind, h20, h6]

/-- **And so are the halfword and signed ones.** -/
theorem halfWord_iff : HalfWord w ↔ ∃ kind a rn rd offset,
    decodeInstruction w = .halfTransfer kind a rn rd offset := by
  constructor
  · intro h
    exact ⟨_, _, _, _, _, h.decode⟩
  · rintro ⟨kind, a, rn, rd, offset, h⟩
    have row := Encodes.decode w
    rw [h] at row
    cases row with
    | halfByRegister family form high low hkind => exact halfWord_of_kind family high low hkind
    | halfByOffset family form high low hkind => exact halfWord_of_kind family high low hkind

/-! ### What the words tell -/

/-- The width of what a single transfer moves, by its word. -/
def transferWidth (w : Word) : Width :=
  if field w 26 2 = 0b01 then if bit w 22 then .byte else .word
  else if bit w 5 then .half else .byte

/-- Only a halfword transfer can be signed. -/
def transferSigned (w : Word) : Bool := if field w 26 2 = 0b01 then false else bit w 6

/-- The base is written back, or moved after the transfer. -/
def movesBase (w : Word) : Bool := bit w 21 || !bit w 24

/-- The kind of a halfword transfer, as all the words tell it. -/
theorem HalfWord.parts (h : HalfWord w) :
    (halfKind w).kind = .ofBit (bit w 20) ∧ (halfKind w).width = transferWidth w
      ∧ (halfKind w).signed = transferSigned w := by
  rw [transferWidth, transferSigned, if_neg h.not_single, if_neg h.not_single, halfKind]
  cases h20 : bit w 20 with
  | true =>
      cases h6 : bit w 6 with
      | true => cases bit w 5 <;> exact ⟨rfl, rfl, rfl⟩
      | false =>
          rw [h.half h6]
          exact ⟨rfl, rfl, rfl⟩
  | false =>
      have h6 := h.store h20
      rw [h.half h6, h6]
      exact ⟨rfl, rfl, rfl⟩

end Arm

/-! ## What is loaded -/

/-- A rotation is that of the bits. -/
theorem rotateRight_eq (w : Word) {n : Word} (hn : n < 32) :
    rotateRight w n = ⟨w.toBitVec.rotateRight n.toNat⟩ := by
  have hlt : n.toNat < 32 := hn
  refine UInt32.toBitVec_inj.mp (BitVec.eq_of_getLsbD_eq fun i hi => ?_)
  rw [getLsbD_rotateRight w hn hi, BitVec.getLsbD_rotateRight, Nat.mod_eq_of_lt hlt]
  by_cases hin : i < 32 - n.toNat
  · rw [decide_eq_true hin, cond_true, Nat.mod_eq_of_lt (by omega)]
  · rw [decide_eq_false hin, cond_false, decide_eq_true hi, Bool.true_and]
    exact congrArg _ (by omega)

/-- A rotation by as many bytes as an address stands above a multiple. -/
theorem rotateRight_bytes (w a : Word) {mask : Word} {k : Nat} (hmask : mask.toNat = 2 ^ k - 1)
    (hk : k ≤ 2) :
    rotateRight w (8 * (a &&& mask)) = ⟨w.toBitVec.rotateRight (8 * (a.toNat % 2 ^ k))⟩ := by
  have hle : 2 ^ k ≤ 2 ^ 2 := Nat.pow_le_pow_right (by decide) hk
  have hmod : a.toNat % 2 ^ k < 2 ^ k := Nat.mod_lt _ (Nat.two_pow_pos k)
  have hplaces : (8 * (a &&& mask) : Word).toNat = 8 * (a.toNat % 2 ^ k) := by
    rw [UInt32.toNat_mul, UInt32.toNat_and, hmask, Nat.and_two_pow_sub_one_eq_mod]
    exact Nat.mod_eq_of_lt (by show 8 * (a.toNat % 2 ^ k) < 2 ^ 32; omega)
  have hfew : (8 * (a &&& mask) : Word) < 32 := by
    rw [UInt32.lt_iff_toNat_lt, hplaces]
    show 8 * (a.toNat % 2 ^ k) < 32
    omega
  rw [rotateRight_eq w hfew, hplaces]

/-- The width of the access for a value: a signed halfword at an odd address is a byte. -/
def Width.accessed (width : Width) (signed : Bool) (a : Word) : Width :=
  if signed ∧ width = .half ∧ a.toNat % 2 = 1 then .byte else width

/-- The value that is made of what stands at an aligned address: the sign is copied, and
    without one the addressed byte comes lowest. -/
def Width.extend (width : Width) (signed : Bool) (a v : Word) : Word :=
  if signed then ⟨(v.toBitVec.setWidth (8 * width.bytes)).signExtend 32⟩
  else ⟨v.toBitVec.rotateRight (8 * (a.toNat % width.bytes))⟩

/-- A byte without a sign is left as it is. -/
theorem extend_byte (a v : Word) : Width.byte.extend false a v = v := by
  show (⟨v.toBitVec.rotateRight (8 * (a.toNat % 1))⟩ : Word) = v
  rw [Nat.mod_one]
  exact UInt32.toBitVec_inj.mp (BitVec.eq_of_getLsbD_eq fun i hi => by simp [hi])

/-- The sign of a value of some width is copied. -/
theorem extend_signed (width : Width) (a v : Word) {k : Word}
    (hk : 0 < k.toNat ∧ k.toNat ≤ 32) (hbits : k.toNat = 8 * width.bytes) :
    signExtend v k = width.extend true a v := by
  refine UInt32.toBitVec_inj.mp ((signExtend_eq v hk).trans ?_)
  rw [hbits]
  rfl

namespace Execution

variable {B : Type} [Bus B] (x : Execution B)

/-- A load of a value of some width, signed or not. -/
def loadValue (width : Width) (signed : Bool) (a : Word) : Word × Execution B :=
  let width := width.accessed signed a
  let (v, x) := x.load width false a
  (width.extend signed a v, x)

/-- A word load turns its bytes by the two low bits of the address. -/
theorem loadWord_eq_value (a : Word) : x.loadWord a = x.loadValue .word false a := by
  rw [loadWord_eq, rotateRight_bytes (k := 2) _ _ rfl (by decide)]
  rfl

/-- A halfword load turns them by the lowest one. -/
theorem loadHalf_eq_value (a : Word) : x.loadHalf a = x.loadValue .half false a := by
  rw [loadHalf_eq, rotateRight_bytes (k := 1) _ _ rfl (by decide)]
  rfl

theorem loadByte_eq_value (a : Word) : x.loadByte a = x.loadValue .byte false a :=
  congrArg (fun v => (v, (x.load .byte false a).2)) (extend_byte a (x.load .byte false a).1).symm

/-- A signed byte is a byte with its sign. -/
theorem loadSignedByte_eq_value (a : Word) :
    x.loadSignedByte a = x.loadValue .byte true a := by
  rw [loadSignedByte_eq, extend_signed .byte a _ (by decide) rfl]
  rfl

/-- A signed halfword is one at an even address, and a signed byte at an odd one. -/
theorem loadSignedHalf_eq_value (a : Word) :
    x.loadSignedHalf a = x.loadValue .half true a := by
  have hodd : bit a 0 = decide (a.toNat % 2 = 1) := by
    rw [bit_eq_decide _ (by decide)]
    show decide (a.toNat / 2 ^ 0 % 2 = 1) = _
    rw [Nat.pow_zero, Nat.div_one]
  rw [loadSignedHalf_eq, hodd, loadValue, Width.accessed]
  by_cases h : a.toNat % 2 = 1
  · rw [decide_eq_true h, if_pos rfl, if_pos ⟨rfl, rfl, h⟩]
    exact x.loadSignedByte_eq_value a
  · rw [decide_eq_false h, if_neg Bool.false_ne_true, if_neg fun hall => h hall.2.2,
      extend_signed .half a _ (by decide) rfl]

end Execution

/-! ## What is stored -/

namespace FlatMemory

/-- Bytes at successive addresses, by induction on them: each is where it was put, and every
    other byte stays, as long as the memory does not begin anew between them. -/
theorem readByte_pokeBytes (m : FlatMemory) (a c : Word) (bs : List Byte)
    (h : index a + bs.length ≤ 0x100000) :
    (m.pokeBytes a bs).readByte c
      = if index a ≤ index c then bs.getD (index c - index a) (m.readByte c)
        else m.readByte c := by
  induction bs generalizing m a with
  | nil => exact (ite_self _).symm
  | cons b bs ih =>
      -- behind the first byte the others count from the next place
      have hrest : (m.pokeBytes a (b :: bs)).readByte c = if index a + 1 ≤ index c then
          bs.getD (index c - (index a + 1)) ((m.poke a b).readByte c)
          else (m.poke a b).readByte c := by
        cases bs with
        | nil => exact (ite_self _).symm
        | cons b' bs =>
            have hlen : index a + (bs.length + 2) ≤ 0x100000 := h
            have hnext : index (a + 1) = index a + 1 := by
              have hi : a.toNat % 0x100000 + (bs.length + 2) ≤ 0x100000 := hlen
              rw [index, UInt32.toNat_add]
              show (a.toNat + 1) % 2 ^ 32 % 0x100000 = a.toNat % 0x100000 + 1
              omega
            have hfit : index (a + 1) + (b' :: bs).length ≤ 0x100000 := by
              rw [hnext]
              show index a + 1 + (bs.length + 1) ≤ _
              omega
            rw [pokeBytes, ih (m.poke a b) (a + 1) hfit, hnext]
      rw [hrest, readByte_poke]
      rcases Nat.lt_trichotomy (index a) (index c) with hlt | heq | hgt
      · have hsucc : index a + 1 ≤ index c := hlt
        rw [if_pos hsucc, if_neg (Nat.ne_of_lt hlt), if_pos (Nat.le_of_lt hlt),
          show index c - index a = (index c - (index a + 1)) + 1 by omega, List.getD_cons_succ]
      · rw [if_neg (by omega), if_pos heq, if_pos (Nat.le_of_eq heq), heq, Nat.sub_self,
          List.getD_cons_zero]
      · rw [if_neg (by omega), if_neg (by omega), if_neg (by omega)]

/-- The bytes of a value. -/
theorem getD_bytesOf (width : Width) (v : Word) {i : Nat} (hi : i < width.bytes) (b : Byte) :
    (bytesOf width v).getD i b = byteOfWord v (UInt32.ofNat i) := by
  have hzero : v.toUInt8 = byteOfWord v (UInt32.ofNat 0) :=
    congrArg UInt32.toUInt8 (UInt32.shiftRight_zero (a := v)).symm
  cases width with
  | byte =>
      obtain rfl : i = 0 := Nat.lt_one_iff.mp hi
      exact hzero
  | half =>
      obtain rfl | rfl : i = 0 ∨ i = 1 := by
        have h2 : i < 2 := hi
        omega
      all_goals rfl
  | word =>
      obtain rfl | rfl | rfl | rfl : i = 0 ∨ i = 1 ∨ i = 2 ∨ i = 3 := by
        have h4 : i < 4 := hi
        omega
      all_goals rfl

/-- An aligned access does not reach the end of the memory from below. -/
theorem index_align_add_le (width : Width) (a : Word) :
    index (width.align a) + width.bytes ≤ 0x100000 := by
  have halign (s : InstructionSet) : (s.align a).toNat % s.size.toNat = 0 :=
    (s.align_eq_self_iff _).mp (s.align_align a)
  cases width with
  | byte => exact Nat.mod_lt _ (by decide)
  | half =>
      have h2 : (alignHalf a).toNat % 2 = 0 := halign .thumb
      show (alignHalf a).toNat % 0x100000 + 2 ≤ 0x100000
      omega
  | word =>
      have h4 : (alignWord a).toNat % 4 = 0 := halign .arm
      show (alignWord a).toNat % 0x100000 + 4 ≤ 0x100000
      omega

/-- **A store of any width** puts its bytes where its aligned address names them, and leaves
    every other byte alone. -/
theorem readByte_write_aligned (m : FlatMemory) (width : Width) (a v c : Word) :
    (m.write width (width.align a) v).readByte c
      = if index (width.align a) ≤ index c ∧ index c < index (width.align a) + width.bytes then
          byteOfWord v (UInt32.ofNat (index c - index (width.align a)))
        else m.readByte c := by
  have hlen : (bytesOf width v).length = width.bytes := (littleEndian_bytesOf width v).1
  have hfit : index (width.align a) + (bytesOf width v).length ≤ 0x100000 := by
    rw [hlen]
    exact index_align_add_le width a
  have hstored : (m.write width (width.align a) v).readByte c
      = (m.pokeBytes (width.align a) (bytesOf width v)).readByte c := by
    simp only [readByte, write]
  rw [hstored, readByte_pokeBytes m _ c _ hfit]
  by_cases hle : index (width.align a) ≤ index c
  · rw [if_pos hle]
    by_cases hlt : index c < index (width.align a) + width.bytes
    · rw [if_pos ⟨hle, hlt⟩, getD_bytesOf width v (by omega)]
    · rw [if_neg fun h => hlt h.2, List.getD_eq_getElem?_getD, List.getElem?_eq_none (by omega)]
      rfl
  · rw [if_neg hle, if_neg fun h => hle h.1]

end FlatMemory

/-! ## The instruction -/

namespace Core

/-- A core whose base is where a transfer leaves it: R15 is never moved. -/
def withBase (k : Core) (moves : Bool) (rn : Reg) (v : Word) : Core :=
  if moves = true ∧ rn ≠ Reg.pc then k.setRegister rn v else k

variable {k : Core} {moves : Bool} {rn : Reg} {v : Word}

/-- The base is moved, and no other register. -/
theorem read_withBase {i : Reg} (hi : i ≠ Reg.pc) :
    (k.withBase moves rn v).registers.read i
      = if moves = true ∧ i = rn then v else k.registers.read i := by
  rw [withBase]
  by_cases h : moves = true ∧ rn ≠ Reg.pc
  · rw [if_pos h]
    refine (Registers.read_write ..).trans (if_congr ?_ rfl rfl)
    exact ⟨fun hr => ⟨h.1, hr.symm⟩, fun hr => hr.2.symm⟩
  · rw [if_neg h, if_neg]
    rintro ⟨hm, rfl⟩
    exact h ⟨hm, hi⟩

/-- R15 is never moved as a base. -/
theorem pc_withBase : (k.withBase moves rn v).pc = k.pc := by
  rw [withBase]
  by_cases h : moves = true ∧ rn ≠ Reg.pc
  · rw [if_pos h]
    exact k.pc_setRegister_of_ne h.2 v
  · rw [if_neg h]

theorem cpsr_withBase : (k.withBase moves rn v).cpsr = k.cpsr := by
  rw [withBase]
  split <;> rfl

theorem bank_withBase : (k.withBase moves rn v).bank = k.bank := by
  rw [withBase]
  split <;> rfl

end Core

namespace Arm

section

variable {B : Type} (x : Execution B)

/-- Write-back moves the base, and may tell that it did not. -/
theorem moveBase_eq (a : Addressing) (rn : Reg) (v : Word) :
    ∃ trail, moveBase a rn v x = { x with core := x.core.withBase a.movesBase rn v, trail }
      ∧ { x with trail }.accesses = x.accesses := by
  rw [moveBase, Core.withBase]
  by_cases ha : a.movesBase = true
  · rw [if_pos ha, Execution.writeBase]
    by_cases hr : rn = Reg.pc
    · rw [if_pos hr, if_neg fun h => h.2 hr]
      exact ⟨_, rfl, x.accesses_event _ _⟩
    · rw [if_neg hr, if_pos ⟨ha, hr⟩]
      exact ⟨x.trail, rfl, rfl⟩
  · rw [if_neg ha, if_neg fun h => ha h.1]
    exact ⟨x.trail, rfl, rfl⟩

theorem writeRegister_eq (i : Reg) (v : Word) :
    x.writeRegister i v = { x with
      core := x.core.takeResult false i v
      flushed := x.flushed || decide (i = Reg.pc) } := by
  rw [Execution.writeRegister, Core.takeResult, if_neg Bool.false_ne_true]
  by_cases h : i = Reg.pc
  · rw [if_pos h, if_pos h, decide_eq_true h, Bool.or_true]
    rfl
  · rw [if_neg h, if_neg h, decide_eq_false h, Bool.or_false]
    rfl

end

variable {B : Type} [Bus B] (x : Execution B)

/-- The one transfer that all of them are: a value of some width, signed or not, to or from
    a register. -/
def moveValue (kind : TransferKind) (width : Width) (signed : Bool) (a : Addressing)
    (rn rd : Reg) (offset : Word) (x : Execution B) : Execution B :=
  let base := x.read rn .operand
  let moved := a.direction.apply base offset
  let address := a.address base moved
  match kind with
  | .store => moveBase a rn moved (x.store width false address (x.read rd .stored)).scatter
  | .load => finishLoad a rn rd moved (x.loadValue width signed address)

/-- A word or byte transfer moves a value of its width without a sign. -/
theorem singleTransfer_eq (kind : TransferKind) (q : Quantity) (a : Addressing) (rn rd : Reg)
    (offset : TransferOffset) :
    singleTransfer kind q a rn rd offset x
      = moveValue kind q.width false a rn rd (offset.evaluate x) x := by
  unfold singleTransfer moveValue
  cases kind with
  | store => cases q <;> rfl
  | load =>
      cases q with
      | word => exact congrArg (finishLoad a rn rd _) (x.loadWord_eq_value _)
      | byte => exact congrArg (finishLoad a rn rd _) (x.loadByte_eq_value _)

/-- A halfword or signed transfer moves a value of its own kind. -/
theorem halfTransfer_eq (kind : HalfTransfer) (a : Addressing) (rn rd : Reg)
    (offset : HalfOffset) :
    halfTransfer kind a rn rd offset x
      = moveValue kind.kind kind.width kind.signed a rn rd (offset.evaluate x) x := by
  unfold halfTransfer moveValue
  cases kind with
  | storeHalf => rfl
  | loadHalf => exact congrArg (finishLoad a rn rd _) (x.loadHalf_eq_value _)
  | loadSignedByte => exact congrArg (finishLoad a rn rd _) (x.loadSignedByte_eq_value _)
  | loadSignedHalf => exact congrArg (finishLoad a rn rd _) (x.loadSignedHalf_eq_value _)

/-- What a store does: one access, then the base. -/
theorem moveValue_store (width : Width) (signed : Bool) (a : Addressing) (rn rd : Reg)
    {offset moved address value : Word}
    (hmoved : a.direction.apply (x.read rn .operand) offset = moved)
    (haddress : a.address (x.read rn .operand) moved = address)
    (hvalue : x.read rd .stored = value) :
    ∃ trail, moveValue .store width signed a rn rd offset x = { x with
          core := x.core.withBase a.movesBase rn moved
          bus := Bus.write x.bus width (width.align address) value
          scattered := true
          trail }
      ∧ { x with trail }.accesses = x.accesses ++ [⟨.store, width, false, address, value⟩] := by
  subst hmoved haddress hvalue
  obtain ⟨trail, htrail, haccesses⟩ := moveBase_eq (x.store width false
    (a.address (x.read rn .operand) (a.direction.apply (x.read rn .operand) offset))
    (x.read rd .stored)).scatter a rn (a.direction.apply (x.read rn .operand) offset)
  exact ⟨trail, htrail, haccesses.trans (x.accesses_access _ _)⟩

/-- What a load does: one access, the base, and then the register, which is the base if
    they are the same. -/
theorem moveValue_load (width : Width) (signed : Bool) (a : Addressing) (rn rd : Reg)
    {offset moved address : Word}
    (hmoved : a.direction.apply (x.read rn .operand) offset = moved)
    (haddress : a.address (x.read rn .operand) moved = address) :
    let accessed := width.accessed signed address
    ∃ trail, moveValue .load width signed a rn rd offset x = { x with
          core := (x.core.withBase a.movesBase rn moved).takeResult false rd
            (accessed.extend signed address (Bus.read x.bus accessed (accessed.align address)))
          flushed := x.flushed || decide (rd = Reg.pc)
          internal := x.internal + 1
          trail }
      ∧ { x with trail }.accesses = x.accesses ++ [⟨.load, accessed, false, address, 0⟩] := by
  subst hmoved haddress
  intro accessed
  obtain ⟨trail, htrail, haccesses⟩ := moveBase_eq ((x.loadValue width signed
    (a.address (x.read rn .operand) (a.direction.apply (x.read rn .operand) offset))).2.wait 1)
    a rn (a.direction.apply (x.read rn .operand) offset)
  refine ⟨trail, ?_, haccesses.trans (x.accesses_access _ _)⟩
  unfold moveValue
  dsimp only
  rw [finishLoad, htrail, writeRegister_eq]
  rfl

end Arm

/-! ## The step -/

namespace Machine

section

variable {B : Type} (m : Machine B) (w : Word)

/-- The offset of a single transfer: twelve bits or a register that is moved, and for the
    halfword transfers eight bits or a register. -/
def transferOffset : Word :=
  if field w 26 2 = 0b01 then
    if bit w 25 then
      ((ShiftKind.ofCode (field w 5 2)).byOpcode (quint w 7).val
        ⟨m.operand .operand (nibble w 0), m.core.cpsr.c⟩).value
    else field w 0 12
  else if bit w 22 then (field w 8 4 <<< 4) ||| field w 0 4
  else m.operand .operand (nibble w 0)

/-- The base, moved by the offset; addresses wrap. -/
def transferMoved : Word :=
  if bit w 23 then m.operand .operand (nibble w 16) + m.transferOffset w
  else m.operand .operand (nibble w 16) - m.transferOffset w

/-- The address: the base, before it is moved or after. -/
def transferAddress : Word :=
  if bit w 24 then m.transferMoved w else m.operand .operand (nibble w 16)

/-- The width of the access at the address. -/
def transferAccess : Width :=
  (Arm.transferWidth w).accessed (Arm.transferSigned w) (m.transferAddress w)

/-- The place of the access. -/
def transferPlace : Word := (m.transferAccess w).align (m.transferAddress w)

/-- The value that a load makes of what stands there. -/
def transferLoaded [Bus B] : Word :=
  (m.transferAccess w).extend (Arm.transferSigned w) (m.transferAddress w)
    (Bus.read m.bus (m.transferAccess w) (m.transferPlace w))

end

variable {B : Type} [Bus B] {m : Machine B} {w : Word}

/-- What all the words of single transfers have in common. -/
theorem flight_of_transfer (hm : m.CarriesOut w) (hw : Arm.SingleWord w ∨ Arm.HalfWord w) :
    m.flight = Arm.moveValue (.ofBit (bit w 20)) (Arm.transferWidth w) (Arm.transferSigned w)
      (Arm.decodeAddressing w) (nibble w 16) (nibble w 12) (m.transferOffset w)
      (.start m.core.aligned m.bus) := by
  let x : Execution B := .start m.core.aligned m.bus
  have hread : x.read (nibble w 0) .operand = m.operand .operand (nibble w 0) :=
    hm.read_operand _ _
  rcases hw with hw | hw
  · have hwidth : (Quantity.ofBit (bit w 22)).width = Arm.transferWidth w := by
      rw [Arm.transferWidth, if_pos hw.family]
      cases bit w 22 <;> rfl
    have hsigned : false = Arm.transferSigned w := (if_pos hw.family).symm
    have hoffset : (if bit w 25 then Arm.TransferOffset.shifted (nibble w 0)
        (.ofCode (field w 5 2)) (quint w 7) else .immediate (field w 0 12)).evaluate x
        = m.transferOffset w := by
      rw [transferOffset, if_pos hw.family]
      cases bit w 25 with
      | false => rfl
      | true =>
          have hamount : ∀ n : Fin 32, n.val.toUInt32.toNat = n.val := by decide
          rw [if_pos rfl, if_pos rfl, ← hread, ← hamount]
          exact congrArg Shifted.value (shift_opcode_eq _ _ _ _)
    rw [hm.flight_eq hw.decode, ← hwidth, ← hsigned, ← hoffset]
    exact Arm.singleTransfer_eq x _ _ _ _ _ _
  · have hoffset : (if bit w 22 then Arm.HalfOffset.immediate ((field w 8 4 <<< 4) ||| field w 0 4)
        else .register (nibble w 0)).evaluate x = m.transferOffset w := by
      rw [transferOffset, if_neg hw.not_single]
      cases bit w 22 with
      | false => exact hread
      | true => rfl
    obtain ⟨hkind, hwidth, hsigned⟩ := hw.parts
    rw [hm.flight_eq hw.decode, ← hkind, ← hwidth, ← hsigned, ← hoffset]
    exact Arm.halfTransfer_eq x _ _ _ _ _

/-- What the addressing bits of a word say. -/
theorem moved_decoded (w base offset : Word) :
    (Arm.decodeAddressing w).direction.apply base offset
      = if bit w 23 then base + offset else base - offset := by
  rw [Arm.decodeAddressing]
  cases bit w 23 <;> rfl

/-- Bit 24 tells whether the moved base is the address. -/
theorem address_decoded (w base moved : Word) :
    (Arm.decodeAddressing w).address base moved = if bit w 24 then moved else base := by
  rw [Arm.decodeAddressing, Addressing.address]
  cases bit w 24 <;> rfl

theorem movesBase_decoded (w : Word) : (Arm.decodeAddressing w).movesBase = Arm.movesBase w := by
  rw [Arm.decodeAddressing, Addressing.movesBase, Arm.movesBase]
  cases bit w 24 <;> rfl

/-- A step that moved a value, and its base, and did nothing else. -/
structure Transferred (m : Machine FlatMemory) (w : Word) (m' : Machine FlatMemory) : Prop where
  accesses : m.flight.accesses = [⟨.ofBit (bit w 20), m.transferAccess w, false,
    m.transferAddress w, if bit w 20 then 0 else m.operand .stored (nibble w 12)⟩]
  /-- A loaded register that is the base keeps what was loaded. -/
  registers : ∀ i, i ≠ Reg.pc → m'.read i =
    if bit w 20 = true ∧ i = nibble w 12 then m.transferLoaded w
    else if Arm.movesBase w = true ∧ i = nibble w 16 then m.transferMoved w else m.read i
  /-- R15 branches to what was loaded, and is never moved as a base. -/
  pc : m'.core.pc = if bit w 20 = true ∧ nibble w 12 = Reg.pc then alignWord (m.transferLoaded w)
    else m.nextPc
  cpsr : m'.core.cpsr = m.core.cpsr
  bank : m'.core.bank = m.core.bank
  bus : m'.bus = if bit w 20 then m.bus
    else m.bus.write (m.transferAccess w) (m.transferPlace w) (m.operand .stored (nibble w 12))

/-- The bytes of the access are those of the stored value, and no other byte changes. -/
theorem Transferred.byte {m m' : Machine FlatMemory} (h : m.Transferred w m') (c : Word) :
    m'.bus.readByte c =
      if bit w 20 = false ∧ FlatMemory.index (m.transferPlace w) ≤ FlatMemory.index c
        ∧ FlatMemory.index c
          < FlatMemory.index (m.transferPlace w) + (m.transferAccess w).bytes then
        byteOfWord (m.operand .stored (nibble w 12))
          (UInt32.ofNat (FlatMemory.index c - FlatMemory.index (m.transferPlace w)))
      else m.bus.readByte c := by
  rw [h.bus]
  cases bit w 20 with
  | true => rw [if_pos rfl, if_neg fun h => Bool.noConfusion h.1]
  | false =>
      rw [if_neg Bool.false_ne_true]
      refine (m.bus.readByte_write_aligned _ _ _ c).trans (if_congr ?_ rfl rfl)
      exact (and_iff_right rfl).symm

/-- What the transfer leaves in flight is what the step ends with. -/
theorem transferred_of_flight {m : Machine FlatMemory} (hm : m.CarriesOut w)
    (hcore : m.flight.core = (m.core.aligned.withBase (Arm.movesBase w) (nibble w 16)
      (m.transferMoved w)).takeResult (!bit w 20) (nibble w 12) (m.transferLoaded w))
    (hflushed : m.flight.flushed = decide (bit w 20 = true ∧ nibble w 12 = Reg.pc))
    (hbus : m.flight.bus = if bit w 20 then m.bus
      else m.bus.write (m.transferAccess w) (m.transferPlace w) (m.operand .stored (nibble w 12)))
    (haccesses : m.flight.accesses = [⟨.ofBit (bit w 20), m.transferAccess w, false,
      m.transferAddress w, if bit w 20 then 0 else m.operand .stored (nibble w 12)⟩]) :
    m.Transferred w m.step.2 := by
  have htest (p : Prop) : (!bit w 20) = false ∧ p ↔ bit w 20 = true ∧ p :=
    and_congr_left' (Bool.not_eq_false' _).to_iff
  refine ⟨haccesses, ?_, ?_, ?_, ?_, ?_⟩
  · intro i hi
    rw [m.read_step hi, hcore, Core.read_takeResult hi, Core.read_withBase hi, read_aligned hi,
      if_congr (htest _) rfl rfl]
  · rw [pc_step, hcore, hflushed, Core.pc_takeResult, if_congr (htest _) rfl rfl,
      Core.pc_withBase, hm.pc_aligned, hm.nextPc_eq, hm.set]
    by_cases hbranch : bit w 20 = true ∧ nibble w 12 = Reg.pc
    · have hset : (m.core.aligned.withBase (Arm.movesBase w) (nibble w 16)
          (m.transferMoved w)).instructionSet = .arm :=
        (congrArg Psr.instructionSet Core.cpsr_withBase).trans hm.set
      rw [if_pos hbranch, if_pos hbranch, if_pos (decide_eq_true hbranch), hset]
      rfl
    · rw [if_neg hbranch, if_neg hbranch, decide_eq_false hbranch, if_neg Bool.false_ne_true]
      rfl
  · rw [cpsr_step, hcore]
    exact Core.cpsr_takeResult.trans Core.cpsr_withBase
  · rw [bank_step, hcore]
    exact Core.bank_takeResult.trans Core.bank_withBase
  · rw [bus_step, hbus]

/-- A store of a halfword is not signed, and neither is any other. -/
theorem transferSigned_of_store (hw : Arm.SingleWord w ∨ Arm.HalfWord w)
    (h20 : bit w 20 = false) : Arm.transferSigned w = false := by
  rw [Arm.transferSigned]
  by_cases h : field w 26 2 = 0b01
  · exact if_pos h
  · rw [if_neg h]
    exact (hw.resolve_left fun hs => h hs.family).store h20

/-- Every single transfer is one access, and moves one value and its base. -/
theorem transferred_step {m : Machine FlatMemory} (hm : m.CarriesOut w)
    (hw : Arm.SingleWord w ∨ Arm.HalfWord w) : m.Transferred w m.step.2 := by
  let x : Execution FlatMemory := .start m.core.aligned m.bus
  have hread (r : Reg) (role : PcRole) : x.read r role = m.operand role r := hm.read_operand r role
  have hmoved : (Arm.decodeAddressing w).direction.apply (x.read (nibble w 16) .operand)
      (m.transferOffset w) = m.transferMoved w := by
    rw [moved_decoded, hread]
    rfl
  have haddress : (Arm.decodeAddressing w).address (x.read (nibble w 16) .operand)
      (m.transferMoved w) = m.transferAddress w := by
    rw [address_decoded, hread]
    rfl
  have hflight := flight_of_transfer hm hw
  cases h20 : bit w 20 with
  | false =>
      have haccess : m.transferAccess w = Arm.transferWidth w := by
        rw [transferAccess, transferSigned_of_store hw h20]
        exact if_neg fun h => Bool.noConfusion h.1
      obtain ⟨trail, htrail, haccesses⟩ := Arm.moveValue_store x (Arm.transferWidth w)
        (Arm.transferSigned w) (Arm.decodeAddressing w) (nibble w 16) (nibble w 12) hmoved
        haddress (hread (nibble w 12) .stored)
      rw [h20] at hflight
      have h := hflight.trans htrail
      rw [movesBase_decoded, ← haccess] at h
      refine transferred_of_flight hm ?_ ?_ ?_ ?_
      · rw [h, h20]
        rfl
      · rw [h, h20]
        rfl
      · rw [h, h20]
        rfl
      · rw [h, h20, haccess]
        exact haccesses
  | true =>
      obtain ⟨trail, htrail, haccesses⟩ := Arm.moveValue_load x (Arm.transferWidth w)
        (Arm.transferSigned w) (Arm.decodeAddressing w) (nibble w 16) (nibble w 12) hmoved
        haddress
      rw [h20] at hflight
      have h := hflight.trans htrail
      rw [movesBase_decoded] at h
      refine transferred_of_flight hm ?_ ?_ ?_ ?_
      · rw [h, h20]
        rfl
      · rw [h, h20]
        exact decide_eq_decide.mpr (and_iff_right rfl).symm
      · rw [h, h20]
        rfl
      · rw [h, h20]
        exact haccesses

/-- **Single transfers, end to end**, from every state of the 32-bit set on flat memory and for
    every word whose condition holds.  There is one access, at the base or at the moved base,
    which the memory sees aligned.  A load turns what stands there into a word: without a sign
    the addressed byte comes lowest, with one it is copied, and a signed halfword at an odd
    address is a signed byte.  A store puts the register there as it was before the step, R15
    three instructions on, and changes no other byte.  The base keeps its move, unless it is
    R15 or the register that was loaded; R15 branches to what was loaded, in the same set.
    Nothing else changes, but that R15 goes on. -/
theorem single_transfer {m : Machine FlatMemory} (hm : m.CarriesOut w)
    (hw : Arm.SingleWord w ∨ Arm.HalfWord w) :
    m.Transferred w m.step.2
      ∧ ∀ c, m.step.2.bus.readByte c =
        if bit w 20 = false ∧ FlatMemory.index (m.transferPlace w) ≤ FlatMemory.index c
          ∧ FlatMemory.index c
            < FlatMemory.index (m.transferPlace w) + (m.transferAccess w).bytes then
          byteOfWord (m.operand .stored (nibble w 12))
            (UInt32.ofNat (FlatMemory.index c - FlatMemory.index (m.transferPlace w)))
        else m.bus.readByte c := by
  have hstep := transferred_step hm hw
  exact ⟨hstep, hstep.byte⟩

/-- `LDRSH R2, [R2, #1]!` with 2 in R2 loads a signed byte of its own word, the highest one,
    and R2 keeps it; `STR R15, [R15, #-4]` at address zero puts 12 at the next word. -/
theorem single_transfer_of_own_word :
    let load := (ofWord 0xE1F220F1).write 2 2
    let store := ofWord 0xE50FF004
    load.flight.accesses = [⟨.load, .byte, false, 3, 0⟩] ∧ load.step.2.read 2 = 0xFFFFFFE1
      ∧ store.flight.accesses = [⟨.store, .word, false, 4, 12⟩]
      ∧ store.step.2.bus.readByte 4 = 12 ∧ store.step.2.core.pc = 4 := by
  intro load store
  have hword : load.fetchedWord = 0xE1F220F1 := (FlatMemory.zero 1 1).wordAt_write 0 0xE1F220F1
  have hword' : store.fetchedWord = 0xE50FF004 := (FlatMemory.zero 1 1).wordAt_write 0 0xE50FF004
  have hload : load.CarriesOut 0xE1F220F1 := ⟨by decide +kernel, hword, by decide +kernel⟩
  have hstore : store.CarriesOut 0xE50FF004 := ⟨by decide +kernel, hword', by decide +kernel⟩
  obtain ⟨hl, -⟩ := single_transfer hload
    (Or.inr ⟨by decide, by decide, by decide, Or.inl (by decide), fun h => absurd h (by decide)⟩)
  obtain ⟨hs, hbyte⟩ := single_transfer hstore (Or.inl ⟨by decide, by decide⟩)
  have hvalue : load.transferLoaded 0xE1F220F1 = 0xFFFFFFE1 := by
    have haccess : load.transferAccess 0xE1F220F1 = .byte := by decide +kernel
    have hplace : load.transferPlace 0xE1F220F1 = 3 := by decide +kernel
    have hread : Bus.read load.bus .byte 3 = 0xE1 := by
      refine (congrArg UInt8.toUInt32
        ((FlatMemory.zero 1 1).readByte_write_aligned .word 0 0xE1F220F1 3)).trans ?_
      decide +kernel
    rw [transferLoaded, haccess, hplace, hread]
    decide +kernel
  have hplace : store.transferPlace 0xE50FF004 = 4 := by decide +kernel
  have haccess : store.transferAccess 0xE50FF004 = .word := by decide +kernel
  refine ⟨?_, ?_, ?_, ?_, ?_⟩
  · exact hl.accesses.trans (by decide +kernel)
  · exact (hl.registers 2 (by decide)).trans ((if_pos (by decide)).trans hvalue)
  · exact hs.accesses.trans (by decide +kernel)
  · refine (hbyte 4).trans ((if_pos ?_).trans ?_)
    · rw [hplace, haccess]
      decide +kernel
    · rw [hplace]
      decide +kernel
  · exact hs.pc.trans (by decide +kernel)

end Machine

end Armv4t
