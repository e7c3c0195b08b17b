import Armv4t.Proofs.CurrentBlock

/-! # The stored base — what a block leaves in memory of its own base

    A store whose list names its base puts the base down as it was if it comes first, and
    as it will be if it is written back and comes later (`Machine.baseByRule`).  That is so
    without the S bit.  With it every register is read as user mode sees it, and the base,
    where user mode shares it, is read before it moves: it is put down as it was, wherever
    it comes.

    `Machine.stored_base_by_rule_iff` says where the rule holds, and what is stored where it
    does not. -/

namespace Armv4t

/-- A block of one word at least moves its base. -/
theorem Addressing.moved_ne (a : Addressing) (base : Word) {n : Nat} (hpos : 0 < n) (hn : n ≤ 16) :
    a.moved base n ≠ base := by
  have hlt := base.toNat_lt
  have hdistance : (4 * UInt32.ofNat n : Word).toNat = 4 * n := toNat_wordDistance (by omega)
  obtain ⟨indexing, direction, writeBack⟩ := a
  intro h
  have hnat := congrArg UInt32.toNat h
  cases direction with
  | up =>
      rw [show moved _ base n = base + 4 * UInt32.ofNat n from rfl, UInt32.toNat_add,
        hdistance] at hnat
      omega
  | down =>
      rw [show moved _ base n = base - 4 * UInt32.ofNat n from rfl, UInt32.toNat_sub,
        hdistance] at hnat
      omega

namespace Machine

variable {B : Type} {c : Condition} {a : Addressing} {s : Bool} {rn : Reg} {list : Half}
  {raw : Word} {j : Nat}

/-- What the rule says that a store puts down for its base at a place of the list: the old
    base if it comes first or is not written back, and the moved one otherwise. -/
def baseByRule (m : Machine B) (a : Addressing) (rn : Reg) (list : Half) (j : Nat) : Word :=
  if a.writeBack ∧ j ≠ 0 then m.blockMoved a rn list else m.read rn

variable [Bus B] {m : Machine B}

omit [Bus B] in
/-- What a store puts down for a base that user mode shares. -/
theorem storedValue_base (hrn : rn ≠ Reg.pc) (hshared : Bank.userSlot? m.core.mode rn = none) :
    (Execution.start m.core.aligned m.bus).storedValue (m.core.aligned.block .store a s rn list)
        (true && j == 0) rn
      = if s then m.read rn else m.baseByRule a rn list j := by
  let b := m.core.aligned.block .store a s rn list
  have huser : b.user = s := Bool.and_true s
  have hmoved : b.moved = m.blockMoved a rn list := by
    show (m.core.aligned.blockRange a rn list).2 = _
    rw [Core.blockRange_eq, read_aligned hrn]
    rfl
  rw [Execution.storedValue, if_neg hrn, huser, hmoved]
  cases s with
  | true =>
      rw [if_pos rfl, if_pos rfl]
      show m.core.aligned.bank.userRegister m.core.aligned.registers m.core.mode rn = _
      rw [Bank.userRegister, hshared]
      exact read_aligned hrn
  | false =>
      rw [if_neg Bool.false_ne_true, if_neg Bool.false_ne_true, baseByRule]
      show (if rn = rn ∧ a.writeBack ∧ _ then _ else m.core.aligned.registers.read rn) = _
      rw [read_aligned hrn]
      simp

/-- **Where the rule for a stored base holds.**  A store whose list names its base, one that
    user mode shares, puts down for it one word at the place of the base in the list.
    Without the S bit that word is the one that the rule says.  With the S bit it is the old
    base, so that the rule holds where the base comes first or is not written back, and
    nowhere else.  The base ends in the same way with the S bit and without. -/
theorem stored_base_by_rule_iff
    (hf : m.fetched = .arm ⟨c, .blockTransfer .store a s rn list, raw⟩) (hrn : rn ≠ Reg.pc)
    (hshared : Bank.userSlot? m.core.mode rn = none) (hj : (listed list)[j]? = some rn) :
    ∃ (v : Word) (vs : List Word),
      m.flight.accesses[j]?
          = some ⟨.store, .word, !(j == 0), m.blockStart a rn list + 4 * UInt32.ofNat j, v⟩
        ∧ m.step.2.bus = Bus.written m.bus (wordsFrom (m.blockStart a rn list) vs)
        ∧ vs[j]? = some v
        ∧ v = (if s then m.read rn else m.baseByRule a rn list j)
        ∧ (v = m.baseByRule a rn list j ↔ s = false ∨ a.writeBack = false ∨ j = 0)
        ∧ m.step.2.read rn = if a.writeBack then m.blockMoved a rn list else m.read rn := by
  let x := Execution.start m.core.aligned m.bus
  obtain ⟨y, hy, heq⟩ := x.transferBlock_stored a list s hrn
  have hflight : m.flight = y.scatter.withCore (x.core.based a rn list) := by
    rw [flight, hf]
    exact heq
  have hstart : x.core.blockStart a rn list = m.blockStart a rn list := blockStart_aligned hrn
  rw [hstart] at hy
  have hv : (x.storedValues (x.core.block .store a s rn list) true (listed list))[j]?
      = some (if s then m.read rn else m.baseByRule a rn list j) := by
    rw [Execution.storedValues, List.getElem?_mapIdx, hj, ← storedValue_base hrn hshared]
    rfl
  have hmoved : m.blockMoved a rn list ≠ m.read rn := by
    refine a.moved_ne _ ?_ (wordCount_le list)
    exact Nat.lt_of_lt_of_le (List.length_pos_of_mem (List.mem_of_getElem? hj))
      (length_listed_le_wordCount list)
  refine ⟨_, _, ?_, ?_, hv, rfl, ?_, ?_⟩
  · have hacc : m.flight.accesses = wordAccesses .store true (m.blockStart a rn list)
        (x.storedValues (x.core.block .store a s rn list) true (listed list)) := by
      rw [hflight]
      exact hy.accesses
    rw [hacc, wordAccesses, List.getElem?_mapIdx, hv]
    rfl
  · rw [bus_step, hflight]
    exact hy.bus
  · rw [baseByRule]
    cases s with
    | false => simp
    | true =>
        rw [if_pos rfl]
        -- the old base was stored, and the moved one is different
        by_cases hrule : a.writeBack = true ∧ j ≠ 0
        · rw [if_pos hrule]
          refine iff_of_false hmoved.symm ?_
          rintro (h | h | h)
          · exact Bool.noConfusion h
          · exact Bool.noConfusion (hrule.1.symm.trans h)
          · exact hrule.2 h
        · rw [if_neg hrule]
          refine iff_of_true rfl (Or.inr ?_)
          by_cases hw : a.writeBack = true
          · exact Or.inr (not_not.mp fun h => hrule ⟨hw, h⟩)
          · exact Or.inl (Bool.eq_false_of_not_eq_true hw)
  · rw [m.read_step hrn, hflight]
    exact (read_based_aligned hrn hrn).trans (if_congr (and_iff_right rfl) rfl rfl)

/-- `STMIA R2!, {R1, R2}^` in supervisor mode puts 0x300 down for R2, which ends as 0x308,
    though the rule says 0x308. -/
theorem stored_base_by_rule_iff_of_second :
    let reset := Metered.machine [0xE8E20006] (fun _ _ _ => 1) .supervisor
    let m := (reset.write 1 0x11).write 2 0x300
    m.baseByRule ⟨.post, .up, true⟩ 2 6 1 = 0x308 ∧ m.step.2.read 2 = 0x308
      ∧ ∃ vs, m.step.2.bus = Bus.written m.bus (wordsFrom 0x300 vs) ∧ vs[1]? = some 0x300 := by
  intro reset m
  have hword : m.fetchedWord = 0xE8E20006 := by decide +kernel
  have hf : m.fetched
      = .arm ⟨.al, .blockTransfer .store ⟨.post, .up, true⟩ true 2 6, 0xE8E20006⟩ := by
    rw [fetched_of_arm (by decide +kernel) (by rw [hword]; decide +kernel), hword]
    rfl
  obtain ⟨v, vs, -, hbus, hv, hold, -, hread⟩ :=
    stored_base_by_rule_iff (m := m) (j := 1) hf (by decide) (by decide +kernel) (by decide)
  have hstart : m.blockStart ⟨.post, .up, true⟩ 2 6 = 0x300 := by decide +kernel
  refine ⟨by decide +kernel, hread.trans (by decide +kernel), vs, ?_, ?_⟩
  · exact hbus.trans (congrArg (fun a => Bus.written m.bus (wordsFrom a vs)) hstart)
  · rw [hv, hold]
    decide +kernel

end Machine

end Armv4t
