/-! # Words — the fixed-width numbers of the processor

    A word has 32 bits, a halfword 16 and a byte 8; all arithmetic on them wraps.
    Bits count from the least significant one.  The readers below pick a word
    apart the way an instruction decoder does: one bit, one field of adjacent
    bits, one register number, one signed field. -/

namespace Armv4t

/-- A word: 32 bits. -/
abbrev Word := UInt32

/-- A halfword: 16 bits. -/
abbrev Half := UInt16

/-- A byte: 8 bits. -/
abbrev Byte := UInt8

/-- The bit of a word at position `i < 32`. -/
@[inline] def bit (w i : Word) : Bool := (w >>> i) &&& 1 == 1

/-- A word with the bit at position `i < 32` replaced. -/
@[inline] def putBit (w i : Word) (b : Bool) : Word :=
  if b then w ||| (1 <<< i) else w &&& ~~~(1 <<< i)

/-- The `n < 32` bits of a word from position `lo` up, moved down to bit 0. -/
@[inline] def field (w lo n : Word) : Word := (w >>> lo) &&& ((1 <<< n) - 1)

/-- The four bits from position `lo` up, as a number below sixteen. -/
@[inline] def nibble (w lo : Word) : Fin 16 := Fin.ofNat 16 (field w lo 4).toNat

/-- The three bits from position `lo` up, as a number below eight. -/
@[inline] def octal (w lo : Word) : Fin 8 := Fin.ofNat 8 (field w lo 3).toNat

/-- The five bits from position `lo` up, as a number below thirty-two. -/
@[inline] def quint (w lo : Word) : Fin 32 := Fin.ofNat 32 (field w lo 5).toNat

/-- The lowest `n` bits of a word read as a two's complement number, `0 < n ≤ 32`. -/
@[inline] def signExtend (w n : Word) : Word :=
  ((w <<< (32 - n)).toInt32 >>> (32 - n).toInt32).toUInt32

/-- A word rotated right by `n < 32` bits. -/
@[inline] def rotateRight (w n : Word) : Word := (w >>> n) ||| (w <<< (32 - n))

/-- The word address at or below an address. -/
@[inline] def alignWord (a : Word) : Word := a &&& ~~~3

/-- The halfword address at or below an address. -/
@[inline] def alignHalf (a : Word) : Word := a &&& ~~~1

/-- The word made of four bytes, the first one lowest. -/
@[inline] def wordOfBytes (b₀ b₁ b₂ b₃ : Byte) : Word :=
  b₀.toUInt32 ||| (b₁.toUInt32 <<< 8) ||| (b₂.toUInt32 <<< 16) ||| (b₃.toUInt32 <<< 24)

/-- The byte of a word that stands `i < 4` bytes above its lowest one. -/
@[inline] def byteOfWord (w i : Word) : Byte := (w >>> (8 * i)).toUInt8

end Armv4t
