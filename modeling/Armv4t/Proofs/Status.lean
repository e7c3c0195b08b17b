import Armv4t.Proofs.Mask
import Armv4t.Status

/-! # Status registers — what each change leaves alone

    Every change to a status register is a change under a mask: the flags under
    `flagsMask`, the flags and T under `openMask`, the entry into a handler under
    `entryMask`, the mode field under `modeMask`.  The mode survives every change
    under a mask that spares the mode field. -/

namespace Armv4t

/-- A number names a mode exactly when it is the bits of that mode. -/
theorem Mode.ofBits_eq_ok {n : Word} {m : Mode} : Mode.ofBits n = .ok m ↔ n = m.bits := by
  constructor
  · intro h
    rw [Mode.ofBits] at h
    -- one branch for each mode, and a last one that names none
    (repeat' split at h) <;> cases h <;> assumption
  · intro h
    rw [h]
    exact Mode.ofBits_bits m

/-- A number that is not the bits of a mode is given back in the error. -/
theorem Mode.ofBits_eq_error {n : Word} (h : ∀ m : Mode, n ≠ m.bits) :
    Mode.ofBits n = .error ⟨n⟩ := by
  rw [Mode.ofBits, if_neg (show ¬ n = 0x10 from h .user), if_neg (show ¬ n = 0x11 from h .fiq),
    if_neg (show ¬ n = 0x12 from h .irq), if_neg (show ¬ n = 0x13 from h .supervisor),
    if_neg (show ¬ n = 0x17 from h .abort), if_neg (show ¬ n = 0x1B from h .undefined),
    if_neg (show ¬ n = 0x1F from h .system)]

/-- The bits of a mode fit in the mode field. -/
theorem Mode.bits_and_field (m : Mode) : m.bits &&& 0x1F = m.bits := by
  cases m <;> rfl

namespace Psr

/-- The mode field. -/
def modeMask : Word := 0x0000001F

/-- N, Z, C, V and T, which a program may change in any mode. -/
def openMask : Word := 0xF0000020

/-- The mode field, T and I, which the entry into a handler sets. -/
def entryMask : Word := 0x000000BF

/-- The mode field holds the bits of a mode. -/
def HasMode (p : Psr) : Prop := ∃ m, p.mode? = .ok m

variable {p q : Psr} {m : Mode}

/-! ## The mode field -/

/-- A field that holds the bits of a mode reads as that mode. -/
theorem mode_eq_of_mode? (h : p.mode? = .ok m) : p.mode = m := by
  rw [mode, h]

/-- Where the field holds a mode, the mode that is read is the one it holds. -/
theorem HasMode.mode?_eq (h : p.HasMode) : p.mode? = .ok p.mode := by
  obtain ⟨m, hm⟩ := h
  rw [mode_eq_of_mode? hm]
  exact hm

/-- A field that holds no mode is what is wrong. -/
theorem mode?_of_not_hasMode (h : ¬ p.HasMode) : p.mode? = .error ⟨p.raw &&& 0x1F⟩ := by
  refine Mode.ofBits_eq_error ?_
  intro m hm
  exact h ⟨m, Mode.ofBits_eq_ok.mpr hm⟩

/-- The mode survives a change under a mask that spares the mode field. -/
theorem mode?_eq_of_agreeOff {mask : Word} (h : AgreeOff mask p.raw q.raw)
    (hm : ~~~mask &&& modeMask = modeMask) : p.mode? = q.mode? := by
  show Mode.ofBits (p.raw &&& modeMask) = Mode.ofBits (q.raw &&& modeMask)
  rw [h.and_eq hm]

/-- A mode that was written is the one that is read. -/
theorem mode?_setMode (p : Psr) (m : Mode) : (p.setMode m).mode? = .ok m := by
  refine Mode.ofBits_eq_ok.mpr ?_
  show ((p.raw &&& ~~~0x1F) ||| (m.bits &&& 0x1F)) &&& 0x1F = m.bits
  rw [or_and_mask, UInt32.and_assoc, UInt32.not_and_self, UInt32.and_zero, UInt32.zero_or,
    UInt32.and_assoc, UInt32.and_self, Mode.bits_and_field]

/-- Reading the mode does not fall back where one was written. -/
theorem mode_setMode (p : Psr) (m : Mode) : (p.setMode m).mode = m :=
  mode_eq_of_mode? (mode?_setMode p m)

/-- A status made for a mode holds it. -/
theorem mode?_ofMode (m : Mode) : (ofMode m).mode? = .ok m := by
  cases m <;> rfl

/-! ## The mask of each change -/

/-- A mode is written under the mode mask. -/
theorem setMode_agreeOff (p : Psr) (m : Mode) : AgreeOff modeMask (p.setMode m).raw p.raw :=
  blend_agreeOff p.raw m.bits modeMask

/-- A masked write stays under its mask, whatever the value is. -/
theorem writeMasked_agreeOff (p : Psr) (value mask : Word) :
    AgreeOff mask (p.writeMasked value mask).raw p.raw :=
  blend_agreeOff p.raw value mask

/-- Each flag lies under the flags mask, N first. -/
theorem setN_agreeOff (p : Psr) (b : Bool) : AgreeOff flagsMask (p.setN b).raw p.raw :=
  (putBit_agreeOff p.raw 31 b).mono (by decide)

theorem setZ_agreeOff (p : Psr) (b : Bool) : AgreeOff flagsMask (p.setZ b).raw p.raw :=
  (putBit_agreeOff p.raw 30 b).mono (by decide)

theorem setC_agreeOff (p : Psr) (b : Bool) : AgreeOff flagsMask (p.setC b).raw p.raw :=
  (putBit_agreeOff p.raw 29 b).mono (by decide)

theorem setV_agreeOff (p : Psr) (b : Bool) : AgreeOff flagsMask (p.setV b).raw p.raw :=
  (putBit_agreeOff p.raw 28 b).mono (by decide)

/-- All four flags lie under the flags mask. -/
theorem setFlags_agreeOff (p : Psr) (f : Flags) :
    AgreeOff flagsMask (p.setFlags f).raw p.raw :=
  (setV_agreeOff _ f.v).trans <| (setN_agreeOff _ f.n).trans <|
    (setZ_agreeOff _ f.z).trans (setC_agreeOff p f.c)

/-- N and Z of a result lie under it as well. -/
theorem setNZ_agreeOff (p : Psr) (result : Word) :
    AgreeOff flagsMask (p.setNZ result).raw p.raw :=
  (setZ_agreeOff _ _).trans (setN_agreeOff p _)

theorem setNZLong_agreeOff (p : Psr) (result : UInt64) :
    AgreeOff flagsMask (p.setNZLong result).raw p.raw :=
  (setZ_agreeOff _ _).trans (setN_agreeOff p _)

/-- T alone is bit 5, and the two interrupt bits stand above it. -/
theorem setT_agreeOff (p : Psr) (b : Bool) : AgreeOff 0x20 (p.setT b).raw p.raw :=
  putBit_agreeOff p.raw 5 b

theorem setIrqDisabled_agreeOff (p : Psr) (b : Bool) :
    AgreeOff 0x80 (p.setIrqDisabled b).raw p.raw :=
  putBit_agreeOff p.raw 7 b

theorem setFiqDisabled_agreeOff (p : Psr) (b : Bool) :
    AgreeOff 0x40 (p.setFiqDisabled b).raw p.raw :=
  putBit_agreeOff p.raw 6 b

/-! ## The flags -/

/-- The flags that were written are the ones that are read. -/
theorem flags_setFlags (p : Psr) (f : Flags) : (p.setFlags f).flags = f := by
  have h28 : (28 : Word) < 32 := by decide
  have h29 : (29 : Word) < 32 := by decide
  have h30 : (30 : Word) < 32 := by decide
  have h31 : (31 : Word) < 32 := by decide
  -- C is written first and V last, each to a bit of its own
  have hbits (i : Word) (hi : i < 32) : bit (p.setFlags f).raw i
      = if 28 = i then f.v else if 31 = i then f.n else if 30 = i then f.z
        else if 29 = i then f.c else bit p.raw i := by
    show bit (putBit (putBit (putBit (putBit p.raw 29 f.c) 30 f.z) 31 f.n) 28 f.v) i = _
    rw [bit_putBit _ h28 hi, bit_putBit _ h31 hi, bit_putBit _ h30 hi, bit_putBit _ h29 hi]
  show (⟨bit _ 31, bit _ 30, bit _ 29, bit _ 28⟩ : Flags) = f
  rw [hbits 31 h31, hbits 30 h30, hbits 29 h29, hbits 28 h28]
  rfl

/-- N and Z from a value, C from a shifter, and V kept. -/
theorem setFlags_of_shift (p : Psr) (v : Word) (c : Bool) :
    p.setFlags ⟨bit v 31, v == 0, c, p.v⟩ = (p.setNZ v).setC c := by
  refine congrArg Psr.mk (eq_of_bit_eq ?_)
  intro i hi
  show bit (putBit (putBit (putBit (putBit p.raw 29 c) 30 (v == 0)) 31 (bit v 31)) 28
      (bit p.raw 28)) i
    = bit (putBit (putBit (putBit p.raw 31 (bit v 31)) 30 (v == 0)) 29 c) i
  have h28 : (28 : Word) < 32 := by decide
  have h29 : (29 : Word) < 32 := by decide
  have h30 : (30 : Word) < 32 := by decide
  have h31 : (31 : Word) < 32 := by decide
  simp only [bit_putBit _ h28 hi, bit_putBit _ h29 hi, bit_putBit _ h30 hi, bit_putBit _ h31 hi]
  grind

/-- Writing C with what it holds changes nothing. -/
theorem setC_setNZ (p : Psr) (v : Word) : (p.setNZ v).setC p.c = p.setNZ v := by
  refine congrArg Psr.mk (eq_of_bit_eq ?_)
  intro i hi
  show bit (putBit (putBit (putBit p.raw 31 (bit v 31)) 30 (v == 0)) 29 (bit p.raw 29)) i
    = bit (putBit (putBit p.raw 31 (bit v 31)) 30 (v == 0)) i
  have h29 : (29 : Word) < 32 := by decide
  have h30 : (30 : Word) < 32 := by decide
  have h31 : (31 : Word) < 32 := by decide
  simp only [bit_putBit _ h29 hi, bit_putBit _ h30 hi, bit_putBit _ h31 hi]
  grind

/-! ## The bits that a handler is entered with -/

/-- Masking interrupts keeps the set. -/
theorem t_setIrqDisabled (p : Psr) (b : Bool) : (p.setIrqDisabled b).t = p.t := by
  show bit (putBit p.raw 7 b) 5 = bit p.raw 5
  rw [bit_putBit p.raw (by decide) (by decide)]
  rfl

/-- The set that was selected is the one that is read. -/
theorem t_setT (p : Psr) (b : Bool) : (p.setT b).t = b := by
  show bit (putBit p.raw 5 b) 5 = b
  rw [bit_putBit p.raw (by decide) (by decide)]
  rfl

/-- Interrupts that were masked are masked. -/
theorem irqDisabled_setIrqDisabled (p : Psr) (b : Bool) :
    (p.setIrqDisabled b).irqDisabled = b := by
  show bit (putBit p.raw 7 b) 7 = b
  rw [bit_putBit p.raw (by decide) (by decide)]
  rfl

end Psr

end Armv4t
