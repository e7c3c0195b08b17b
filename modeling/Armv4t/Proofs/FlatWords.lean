import Armv4t.Memory.Flat
import Armv4t.Proofs.BlockLoad
import Armv4t.Proofs.ByteStore
import Armv4t.Proofs.Fields

/-! # Flat memory, word by word

    Flat memory repeats after 2^20 bytes, so that an address names one of 2^18 words of it
    and a byte in that word.  A store of a word changes the word that its address names,
    under all of its names, and no byte of any other.

    * `FlatMemory.slot` is the number of the word that an address names; successive words
      have different numbers for a long way (`FlatMemory.slot_ne`);
    * a stored word reads back (`FlatMemory.wordAt_write`) and leaves the bytes of the
      other words alone (`FlatMemory.readByte_write_of_ne`);
    * by induction, so do words that are stored at successive addresses
      (`FlatMemory.wordAt_written`, `FlatMemory.readByte_written_of_ne`). -/

namespace Armv4t

theorem toNat_alignWord (a : Word) : (alignWord a).toNat = a.toNat / 4 * 4 := by
  have hparts : alignWord a = ((a >>> 2) &&& 0x3FFFFFFF) <<< 2 :=
    (shiftLeft_and_shiftRight a 0x3FFFFFFF 2).symm
  have hlt := a.toNat_lt
  have hquarter : (a >>> 2).toNat = a.toNat / 4 := by
    rw [UInt32.toNat_shiftRight]
    exact Nat.shiftRight_eq_div_pow a.toNat 2
  have hmask : ((a >>> 2) &&& 0x3FFFFFFF).toNat = a.toNat / 4 := by
    rw [UInt32.toNat_and, hquarter]
    refine (Nat.and_two_pow_sub_one_eq_mod (a.toNat / 4) 30).trans (Nat.mod_eq_of_lt ?_)
    omega
  rw [hparts, UInt32.toNat_shiftLeft, hmask, Nat.shiftLeft_eq]
  show a.toNat / 4 * 4 % 2 ^ 32 = _
  omega

/-- A word is put together again from its bytes. -/
theorem wordOfBytes_byteOfWord (v : Word) :
    wordOfBytes (byteOfWord v 0) (byteOfWord v 1) (byteOfWord v 2) (byteOfWord v 3) = v := by
  have hbytes := (littleEndian_bytesOf .word v).2
  have hlt := v.toNat_lt
  rw [← UInt32.toNat_inj, toNat_wordOfBytes]
  exact hbytes.trans (Nat.mod_eq_of_lt hlt)

/-- Words to be stored at successive addresses, each at the aligned one. -/
def wordsFrom (a : Word) (vs : List Word) : List Write :=
  vs.mapIdx fun j v => ⟨.word, alignWord (a + 4 * UInt32.ofNat j), v⟩

theorem wordsFrom_cons (a v : Word) (vs : List Word) :
    wordsFrom a (v :: vs) = ⟨.word, alignWord a, v⟩ :: wordsFrom (a + 4) vs := by
  rw [wordsFrom, List.mapIdx_cons]
  simp only [wordAddress_succ]
  rw [show a + 4 * UInt32.ofNat 0 = a from UInt32.add_zero a, wordsFrom]

/-- The first word is stored before the others. -/
theorem written_wordsFrom_cons {B : Type} [Bus B] (b : B) (a v : Word) (vs : List Word) :
    Bus.written b (wordsFrom a (v :: vs))
      = Bus.written (Bus.write b .word (alignWord a) v) (wordsFrom (a + 4) vs) := by
  rw [wordsFrom_cons]
  rfl

/-- The distance of some words in bytes, short of the whole address space. -/
theorem toNat_wordDistance {n : Nat} (hn : n < 0x40000000) :
    (4 * UInt32.ofNat n : Word).toNat = 4 * n := by
  have hn' : (UInt32.ofNat n).toNat = n :=
    UInt32.toNat_ofNat_of_lt' (Nat.lt_trans hn (by decide))
  rw [UInt32.toNat_mul, hn']
  show 4 * n % 2 ^ 32 = 4 * n
  omega

namespace FlatMemory

/-- The number of the word that an address names. -/
def slot (a : Word) : Nat := a.toNat % 0x100000 / 4

/-- The bytes of a word stand one after the other. -/
theorem index_alignWord_add (a : Word) {i : Nat} (hi : i < 4) :
    index (alignWord a + UInt32.ofNat i) = 4 * slot a + i := by
  have hlt := a.toNat_lt
  have hi' : (UInt32.ofNat i).toNat = i :=
    UInt32.toNat_ofNat_of_lt' (Nat.lt_trans hi (by decide))
  rw [index, slot, UInt32.toNat_add, toNat_alignWord, hi']
  omega

/-- The bytes of a word are those that share its number. -/
theorem slot_alignWord_add (a : Word) {i : Nat} (hi : i < 4) :
    slot (alignWord a + UInt32.ofNat i) = slot a := by
  show index (alignWord a + UInt32.ofNat i) / 4 = slot a
  rw [index_alignWord_add a hi]
  omega

/-- An address with `n` words between it and another one names another word. -/
theorem slot_ne (a : Word) {n : Nat} (hpos : 0 < n) (hn : n < 0x40000) :
    slot (a + 4 * UInt32.ofNat n) ≠ slot a := by
  have hlt := a.toNat_lt
  rw [slot, slot, UInt32.toNat_add, toNat_wordDistance (Nat.lt_trans hn (by decide))]
  omega

/-! ## One word -/

variable (m : FlatMemory)

/-- A store of a word puts its four bytes in the word that its address names. -/
theorem readByte_write (a v c : Word) :
    (m.write .word (alignWord a) v).readByte c
      = if 4 * slot a + 3 = index c then byteOfWord v 3
        else if 4 * slot a + 2 = index c then byteOfWord v 2
        else if 4 * slot a + 1 = index c then byteOfWord v 1
        else if 4 * slot a = index c then byteOfWord v 0
        else m.readByte c := by
  have h0 : index (alignWord a) = 4 * slot a := by
    have h := index_alignWord_add a (i := 0) (by decide)
    rwa [show alignWord a + UInt32.ofNat 0 = alignWord a from UInt32.add_zero _] at h
  have h1 : index (alignWord a + 1) = 4 * slot a + 1 := index_alignWord_add a (by decide)
  have h2 : index (alignWord a + 1 + 1) = 4 * slot a + 2 := by
    rw [UInt32.add_assoc]
    exact index_alignWord_add a (i := 2) (by decide)
  have h3 : index (alignWord a + 1 + 1 + 1) = 4 * slot a + 3 := by
    rw [UInt32.add_assoc, UInt32.add_assoc]
    exact index_alignWord_add a (i := 3) (by decide)
  have hstored : (m.write .word (alignWord a) v).readByte c
      = (m.pokeBytes (alignWord a) (bytesOf .word v)).readByte c := by
    simp only [readByte, write]
  rw [hstored, bytesOf, pokeBytes, pokeBytes, pokeBytes, pokeBytes, pokeBytes, readByte_poke,
    readByte_poke, readByte_poke, readByte_poke, h0, h1, h2, h3]

/-- Each byte of the word is where it was put. -/
theorem readByte_write_same (a v : Word) {i : Nat} (hi : i < 4) :
    (m.write .word (alignWord a) v).readByte (alignWord a + UInt32.ofNat i)
      = byteOfWord v (UInt32.ofNat i) := by
  rw [readByte_write, index_alignWord_add a hi]
  obtain rfl | rfl | rfl | rfl : i = 0 ∨ i = 1 ∨ i = 2 ∨ i = 3 := by omega
  all_goals simp

/-- It leaves the bytes of the other words alone. -/
theorem readByte_write_of_ne {a c : Word} (h : slot a ≠ slot c) (v : Word) :
    (m.write .word (alignWord a) v).readByte c = m.readByte c := by
  have hc : slot c = index c / 4 := rfl
  rw [readByte_write, if_neg (by omega), if_neg (by omega), if_neg (by omega), if_neg (by omega)]

/-- A word reads as its four bytes do. -/
theorem wordAt_eq {m : FlatMemory} {c v : Word}
    (h : ∀ i < 4, m.readByte (alignWord c + UInt32.ofNat i) = byteOfWord v (UInt32.ofNat i)) :
    Execution.wordAt m c = v := by
  have h0 := h 0 (by decide)
  rw [show alignWord c + UInt32.ofNat 0 = alignWord c from UInt32.add_zero _] at h0
  have h1 := h 1 (by decide)
  have h2 := h 2 (by decide)
  have h3 := h 3 (by decide)
  refine Eq.trans ?_ (wordOfBytes_byteOfWord v)
  show wordOfBytes (m.readByte (alignWord c)) (m.readByte (alignWord c + UInt32.ofNat 1))
    (m.readByte (alignWord c + UInt32.ofNat 2)) (m.readByte (alignWord c + UInt32.ofNat 3)) = _
  rw [h0, h1, h2, h3]
  rfl

/-- A stored word reads back. -/
theorem wordAt_write (a v : Word) :
    Execution.wordAt (Bus.write m .word (alignWord a) v) a = v :=
  wordAt_eq fun _ hi => m.readByte_write_same a v hi

/-! ## Words at successive addresses -/

/-- **Words that are stored at successive addresses leave every other byte alone**, by
    induction on the words. -/
theorem readByte_written_of_ne (vs : List Word) (a b : Word)
    (h : ∀ j < vs.length, slot (a + 4 * UInt32.ofNat j) ≠ slot b) :
    (Bus.written m (wordsFrom a vs)).readByte b = m.readByte b := by
  induction vs generalizing m a with
  | nil => rfl
  | cons v vs ih =>
      have hhead : slot a ≠ slot b := by
        have h0 := h 0 (Nat.succ_pos _)
        rwa [show a + 4 * UInt32.ofNat 0 = a from UInt32.add_zero a] at h0
      rw [written_wordsFrom_cons, ih _ (a + 4)]
      · exact m.readByte_write_of_ne hhead v
      intro j hj
      rw [← wordAddress_succ]
      exact h (j + 1) (Nat.succ_lt_succ hj)

/-- **They all read back**, as long as the memory does not begin anew between them. -/
theorem wordAt_written {vs : List Word} (hlen : vs.length ≤ 0x40000) (a : Word) {j : Nat} {v : Word}
    (hj : vs[j]? = some v) :
    Execution.wordAt (Bus.written m (wordsFrom a vs)) (a + 4 * UInt32.ofNat j) = v := by
  induction vs generalizing m a j with
  | nil => cases hj
  | cons u us ih =>
      rw [written_wordsFrom_cons]
      cases j with
      | zero =>
          -- what comes later goes to other words
          rw [show a + 4 * UInt32.ofNat 0 = a from UInt32.add_zero a]
          obtain rfl : u = v := Option.some.inj hj
          refine wordAt_eq ?_
          intro i hi
          rw [readByte_written_of_ne _ us (a + 4)]
          · exact m.readByte_write_same a u hi
          intro j hj
          rw [slot_alignWord_add a hi, ← wordAddress_succ]
          exact slot_ne a (Nat.succ_pos j) (Nat.lt_of_lt_of_le (Nat.succ_lt_succ hj) hlen)
      | succ j =>
          rw [wordAddress_succ]
          exact ih _ (Nat.le_of_succ_le hlen) (a + 4) hj

end FlatMemory

end Armv4t
