import Mathlib.Data.List.Forall2
import Mathlib.Data.Nat.Digits.Defs
import Armv4t.CommandLine

/-! # Address texts — the grammar of an address on the command line

    An address is written in hexadecimal digits of either case (`Hexadecimal`), perhaps
    behind `0x` or `0X`, and with underscores anywhere behind that (`SpellsAddress`).

    The reader goes from the left and stops at the first thing that is wrong, with the number
    that it has so far at hand.  That number only grows, so the limit is met at the end if it
    is met on the way (`readDigits_eq_ok_iff`, by induction on the digits), and the number at
    the end is the one that the digits write.

    One thing more is read than the grammar has: a plus sign before the digits, also behind
    `0x`.  `CommandLine.address_by_grammar_unless_plus` gives the exact extent: the texts of
    the grammar are those that are read and hold no plus sign. -/

namespace Armv4t

/-- A character writes a hexadecimal digit, in either case. -/
def HexDigit (c : Char) (d : Nat) : Prop :=
  d < 16 ∧ (c = d.digitChar ∨ c = d.digitChar.toUpper)

instance (c : Char) (d : Nat) : Decidable (HexDigit c d) := inferInstanceAs (Decidable (_ ∧ _))

/-- Some characters write a number: at least one digit, the highest one first. -/
def Hexadecimal (cs : List Char) (n : Nat) : Prop :=
  cs ≠ [] ∧ ∃ ds, List.Forall₂ HexDigit cs ds ∧ Nat.ofDigits 16 ds.reverse = n

/-- What an address may begin with. -/
def addressStarts : List (List Char) := [[], ['0', 'x'], ['0', 'X']]

/-- A text writes an address below the limit: a start, then a sign and digits, and underscores
    anywhere among these. -/
def SpellsAddress (sign cs : List Char) (n : Nat) : Prop :=
  ∃ start body digits, start ∈ addressStarts ∧ cs = start ++ body
    ∧ body.filter (· != '_') = sign ++ digits ∧ Hexadecimal digits n ∧ n < 2 ^ 32

/-! ## Digits -/

/-- Digits that stand side by side, such as the letters of one case: a character between the
    first one and the last is as many digits above the first one as it is characters above it. -/
theorem hexDigit_of_range {lo hi c : Char} (first : Nat) (hlo : lo ≤ c) (hhi : c ≤ hi)
    (hdigits : ∀ k ≤ hi.toNat - lo.toNat, HexDigit (Char.ofNat (lo.toNat + k)) (k + first)) :
    HexDigit c (c.toNat - lo.toNat + first) := by
  have hlo' : lo.toNat ≤ c.toNat := hlo
  have hhi' : c.toNat ≤ hi.toNat := hhi
  have hdigit := hdigits (c.toNat - lo.toNat) (Nat.sub_le_sub_right hhi' _)
  rwa [Nat.add_sub_cancel' hlo', Char.ofNat_toNat] at hdigit

theorem digit?_of_hexDigit {c : Char} {d : Nat} (h : HexDigit c d) : digit? 16 c = some d := by
  obtain ⟨hlt, hchar⟩ := h
  have hsmall : ∀ d : Fin 16, digit? 16 (Nat.digitChar d) = some d.val := by decide
  have hlarge : ∀ d : Fin 16, digit? 16 (Nat.digitChar d).toUpper = some d.val := by decide
  rcases hchar with rfl | rfl
  · exact hsmall ⟨d, hlt⟩
  · exact hlarge ⟨d, hlt⟩

theorem hexDigit_of_digit? {c : Char} {d : Nat} (h : digit? 16 c = some d) : HexDigit c d := by
  obtain ⟨hlt, hvalue⟩ := Option.ite_none_right_eq_some.mp h
  obtain rfl := Option.some.inj hvalue
  by_cases hdecimal : '0' ≤ c ∧ c ≤ '9'
  · rw [if_pos hdecimal]
    exact hexDigit_of_range 0 hdecimal.1 hdecimal.2 (by decide)
  · rw [if_neg hdecimal] at hlt ⊢
    by_cases hsmall : 'a' ≤ c ∧ c ≤ 'f'
    · rw [if_pos hsmall]
      exact hexDigit_of_range 10 hsmall.1 hsmall.2 (by decide)
    · rw [if_neg hsmall] at hlt ⊢
      by_cases hlarge : 'A' ≤ c ∧ c ≤ 'F'
      · rw [if_pos hlarge]
        exact hexDigit_of_range 10 hlarge.1 hlarge.2 (by decide)
      · rw [if_neg hlarge] at hlt
        exact absurd hlt (Nat.lt_irrefl 16)

theorem digit?_eq_some_iff {c : Char} {d : Nat} : digit? 16 c = some d ↔ HexDigit c d :=
  ⟨hexDigit_of_digit?, digit?_of_hexDigit⟩

/-- What is no digit does not stand in a number. -/
theorem Hexadecimal.not_mem {cs : List Char} {n : Nat} (h : Hexadecimal cs n) {c : Char}
    (hc : digit? 16 c = none) : c ∉ cs := by
  obtain ⟨-, ds, hds, -⟩ := h
  induction hds with
  | nil => exact List.not_mem_nil
  | cons hd _ ih =>
      intro hmem
      rcases List.mem_cons.mp hmem with rfl | hrest
      · exact nomatch hc.symm.trans (digit?_eq_some_iff.mpr hd)
      · exact ih hrest

/-! ## Reading digits -/

/-- The digits so far are the digits of a number. -/
theorem foldl_digits (base : Nat) (ds : List Nat) :
    ds.foldl (fun n d => n * base + d) 0 = Nat.ofDigits base ds.reverse := by
  rw [Nat.ofDigits_eq_foldr, List.foldr_reverse]
  congr 1
  funext n d
  rw [Nat.mul_comm, Nat.add_comm]
  rfl

/-- A number only grows by its digits. -/
theorem le_foldl_digits {base : Nat} (hbase : 0 < base) (ds : List Nat) (n : Nat) :
    n ≤ ds.foldl (fun n d => n * base + d) n := by
  induction ds generalizing n with
  | nil => exact Nat.le_refl n
  | cons d ds ih =>
      calc n ≤ n * base := Nat.le_mul_of_pos_right n hbase
        _ ≤ n * base + d := Nat.le_add_right ..
        _ ≤ _ := ih _

/-- **The limit is met at the end if it is met on the way**, by induction on the characters:
    what is read are digits, and their number is below the limit. -/
theorem readDigits_eq_ok_iff {base limit : Nat} (hbase : 0 < base) {cs : List Char} {n m : Nat}
    (hn : n ≤ limit) : readDigits base limit n cs = .ok m
      ↔ ∃ ds, List.Forall₂ (fun c d => digit? base c = some d) cs ds
        ∧ ds.foldl (fun n d => n * base + d) n = m ∧ m ≤ limit := by
  induction cs generalizing n with
  | nil =>
      rw [readDigits]
      constructor
      · intro h
        obtain rfl := Except.ok.inj h
        exact ⟨[], .nil, rfl, hn⟩
      · rintro ⟨ds, hds, hm, -⟩
        cases hds
        exact congrArg _ hm
  | cons c cs ih =>
      rw [readDigits]
      cases hdigit : digit? base c with
      | none =>
          refine iff_of_false nofun ?_
          rintro ⟨ds, hds, -, -⟩
          cases hds with
          | cons hd _ => exact nomatch hd.symm.trans hdigit
      | some d =>
          show (if n * base + d ≤ limit then _ else _) = _ ↔ _
          by_cases hle : n * base + d ≤ limit
          · rw [if_pos hle, ih hle]
            constructor
            · rintro ⟨ds, hds, hm⟩
              exact ⟨d :: ds, .cons hdigit hds, hm⟩
            · rintro ⟨ds, hds, hm⟩
              cases hds with
              | cons hd hrest =>
                  obtain rfl := Option.some.inj (hdigit.symm.trans hd)
                  exact ⟨_, hrest, hm⟩
          · rw [if_neg hle]
            refine iff_of_false nofun ?_
            -- the digits behind would have to bring the number down again
            rintro ⟨ds, hds, hm, hlimit⟩
            cases hds with
            | @cons _ d' _ ds hd _ =>
                obtain rfl := Option.some.inj (hdigit.symm.trans hd)
                have hgrow := le_foldl_digits hbase ds (n * base + d)
                exact hle (hgrow.trans (hm.trans_le hlimit))

/-- What is read of hexadecimal digits is the number that they write. -/
theorem readDigits_hex_iff {limit : Nat} {cs : List Char} {n : Nat} :
    cs ≠ [] ∧ readDigits 16 limit 0 cs = .ok n ↔ Hexadecimal cs n ∧ n ≤ limit := by
  rw [readDigits_eq_ok_iff (by decide) (Nat.zero_le limit)]
  constructor
  · rintro ⟨hne, ds, hds, hn, hle⟩
    refine ⟨⟨hne, ds, hds.imp fun _ _ => digit?_eq_some_iff.mp, ?_⟩, hle⟩
    rw [← hn, foldl_digits]
  · rintro ⟨⟨hne, ds, hds, hn⟩, hle⟩
    refine ⟨hne, ds, hds.imp fun _ _ => digit?_eq_some_iff.mpr, ?_, hle⟩
    rw [foldl_digits, hn]

/-- A plus sign is no digit. -/
theorem readDigits_plus (base limit n : Nat) (cs : List Char) :
    readDigits base limit n ('+' :: cs) = .error .invalidDigit := by
  have hdigit : digit? base '+' = none := if_neg (Nat.lt_irrefl base)
  rw [readDigits, hdigit]

/-- A plus sign is left out, if something stands behind it. -/
theorem readNat_eq_ok_iff {base limit : Nat} {cs : List Char} {n : Nat} :
    readNat base limit cs = .ok n
      ↔ ∃ sign digits, (sign = [] ∨ sign = ['+']) ∧ cs = sign ++ digits ∧ digits ≠ []
        ∧ readDigits base limit 0 digits = .ok n := by
  constructor
  · intro h
    unfold readNat at h
    split at h
    · exact nomatch h
    · exact nomatch h
    · next digits hne => exact ⟨['+'], digits, Or.inr rfl, rfl, fun hnil => hne (hnil ▸ rfl), h⟩
    · next hne _ _ => exact ⟨[], cs, Or.inl rfl, rfl, hne, h⟩
  · rintro ⟨sign, digits, hsign, rfl, hne, h⟩
    obtain ⟨c, cs, rfl⟩ := List.exists_cons_of_ne_nil hne
    rcases hsign with rfl | rfl
    · have hc : c ≠ '+' := by
        rintro rfl
        exact nomatch (readDigits_plus base limit 0 cs).symm.trans h
      show readNat base limit (c :: cs) = .ok n
      unfold readNat
      split
      · next hnil => exact nomatch hnil
      · next heq => exact absurd (List.cons.inj heq).1 hc
      · next heq => exact absurd (List.cons.inj heq).1 hc
      · exact h
    · exact h

/-! ## Addresses -/

/-- What is no digit, no underscore and no sign does not stand behind the start. -/
theorem not_mem_of_filter {sign body digits : List Char} {n : Nat}
    (hfilter : body.filter (· != '_') = sign ++ digits) (hdigits : Hexadecimal digits n)
    {c : Char} (hc : digit? 16 c = none) (hne : c ≠ '_') (hsign : c ∉ sign) : c ∉ body := by
  intro hmem
  have hkept : c ∈ sign ++ digits := by
    rw [← hfilter]
    exact List.mem_filter.mpr ⟨hmem, bne_iff_ne.mpr hne⟩
  rcases List.mem_append.mp hkept with h | h
  · exact hsign h
  · exact hdigits.not_mem hc h

/-- A text of the grammar holds no sign. -/
theorem SpellsAddress.plus_not_mem {cs : List Char} {n : Nat} (h : SpellsAddress [] cs n) :
    '+' ∉ cs := by
  obtain ⟨start, body, digits, hstart, rfl, hfilter, hdigits, -⟩ := h
  have hnone : ∀ start ∈ addressStarts, '+' ∉ start := by decide
  intro hmem
  rcases List.mem_append.mp hmem with hin | hin
  · exact hnone start hstart hin
  · exact not_mem_of_filter hfilter hdigits (by decide) (by decide) List.not_mem_nil hin

/-- And a sign that a text is spelled with stands in it. -/
theorem SpellsAddress.mem_of_sign {c : Char} {cs : List Char} {n : Nat}
    (h : SpellsAddress [c] cs n) : c ∈ cs := by
  obtain ⟨start, body, digits, -, rfl, hfilter, -⟩ := h
  have hin : c ∈ body.filter (· != '_') := by
    rw [hfilter]
    exact List.mem_cons_self ..
  exact List.mem_append_right _ (List.mem_filter.mp hin).1

namespace CommandLine

/-- The digits of an address are what is behind a start that it may have. -/
theorem addressDigits_eq (cs : List Char) :
    ∃ start body, start ∈ addressStarts ∧ cs = start ++ body
      ∧ addressDigits cs = body.filter (· != '_') := by
  unfold addressDigits
  dsimp only
  split
  · next rest => exact ⟨['0', 'x'], rest, by decide, rfl, rfl⟩
  · next rest => exact ⟨['0', 'X'], rest, by decide, rfl, rfl⟩
  · exact ⟨[], cs, by decide, rfl, rfl⟩

/-- And the start is what comes before it, where no other one could be meant. -/
theorem addressDigits_append {start body : List Char} (hstart : start ∈ addressStarts)
    (hx : 'x' ∉ body) (hX : 'X' ∉ body) :
    addressDigits (start ++ body) = body.filter (· != '_') := by
  rcases List.mem_cons.mp hstart with rfl | hstart
  · -- there is no start to take away
    show addressDigits body = _
    unfold addressDigits
    dsimp only
    split
    · exact absurd (List.mem_cons_of_mem _ (List.mem_cons_self ..)) hx
    · exact absurd (List.mem_cons_of_mem _ (List.mem_cons_self ..)) hX
    · rfl
  · rcases List.mem_pair.mp hstart with rfl | rfl <;> rfl

/-- There is no second start in a sign and digits, so what is read is the sign and the
    digits. -/
theorem addressDigits_of_filter {sign start body digits : List Char} {n : Nat}
    (hsign : sign = [] ∨ sign = ['+']) (hstart : start ∈ addressStarts)
    (hfilter : body.filter (· != '_') = sign ++ digits) (hdigits : Hexadecimal digits n) :
    addressDigits (start ++ body) = sign ++ digits := by
  have hbody (c : Char) (hnone : digit? 16 c = none) (hne : c ≠ '_') (hplus : c ≠ '+') :
      c ∉ body := by
    refine not_mem_of_filter hfilter hdigits hnone hne ?_
    rcases hsign with rfl | rfl
    · exact List.not_mem_nil
    · exact fun h => hplus (List.mem_singleton.mp h)
  have hx : 'x' ∉ body := hbody 'x' rfl (by decide) (by decide)
  have hX : 'X' ∉ body := hbody 'X' rfl (by decide) (by decide)
  rw [addressDigits_append hstart hx hX, hfilter]

/-- **What is read as an address**: the texts of the grammar, and those with a plus sign. -/
theorem readAddress_eq_ok_iff {cs : List Char} {v : Word} :
    readAddress cs = .ok v
      ↔ ∃ sign, (sign = [] ∨ sign = ['+']) ∧ SpellsAddress sign cs v.toNat := by
  rw [readAddress]
  constructor
  · intro h
    cases hread : readNat 16 0xFFFFFFFF (addressDigits cs) with
    | error e => exact nomatch (congrArg (Except.map Nat.toUInt32) hread).symm.trans h
    | ok n =>
        obtain rfl : n.toUInt32 = v :=
          Except.ok.inj ((congrArg (Except.map Nat.toUInt32) hread).symm.trans h)
        obtain ⟨sign, digits, hsign, hdigits, hnumber⟩ := readNat_eq_ok_iff.mp hread
        obtain ⟨hhex, hle⟩ := readDigits_hex_iff.mp hnumber
        obtain ⟨start, body, hstart, hcs, hbody⟩ := addressDigits_eq cs
        have hlt : n < 2 ^ 32 := Nat.lt_succ_of_le hle
        have hn : n.toUInt32.toNat = n := UInt32.toNat_ofNat_of_lt' hlt
        rw [hn]
        exact ⟨sign, hsign, start, body, digits, hstart, hcs, hbody.symm.trans hdigits, hhex, hlt⟩
  · rintro ⟨sign, hsign, start, body, digits, hstart, rfl, hfilter, hhex, hlt⟩
    have hdigits : addressDigits (start ++ body) = sign ++ digits :=
      addressDigits_of_filter hsign hstart hfilter hhex
    have hread : readNat 16 0xFFFFFFFF (addressDigits (start ++ body)) = .ok v.toNat :=
      readNat_eq_ok_iff.mpr
        ⟨sign, digits, hsign, hdigits, readDigits_hex_iff.mpr ⟨hhex, Nat.le_of_lt_succ hlt⟩⟩
    rw [hread]
    exact congrArg Except.ok UInt32.ofNat_toNat

/-- **An address is read by its grammar, unless there is a plus sign.**  What is read is the
    number that the text writes, with nothing or with one plus sign before its digits; and
    the texts of the grammar are those among them without a plus sign.  Everything else is
    refused, also a number past the limit or a minus sign. -/
theorem address_by_grammar_unless_plus (s : String) (v : Word) :
    (readAddress s.toList = .ok v
        ↔ SpellsAddress [] s.toList v.toNat ∨ SpellsAddress ['+'] s.toList v.toNat)
      ∧ (SpellsAddress [] s.toList v.toNat ↔ readAddress s.toList = .ok v ∧ '+' ∉ s.toList) := by
  generalize s.toList = cs
  have hread : readAddress cs = .ok v
      ↔ SpellsAddress [] cs v.toNat ∨ SpellsAddress ['+'] cs v.toNat := by
    rw [readAddress_eq_ok_iff]
    constructor
    · rintro ⟨sign, rfl | rfl, h⟩
      · exact Or.inl h
      · exact Or.inr h
    · rintro (h | h)
      · exact ⟨[], Or.inl rfl, h⟩
      · exact ⟨['+'], Or.inr rfl, h⟩
  refine ⟨hread, ?_⟩
  constructor
  · intro h
    exact ⟨hread.mpr (Or.inl h), h.plus_not_mem⟩
  · rintro ⟨h, hplus⟩
    rcases hread.mp h with h | h
    · exact h
    · exact absurd h.mem_of_sign hplus

/-- The sign may even stand behind the start. -/
example : readAddress "0x+10".toList = .ok 0x10 := by decide

end CommandLine

end Armv4t
