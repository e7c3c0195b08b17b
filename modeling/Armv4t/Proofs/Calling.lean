import Armv4t.Proofs.ByteStore
import Armv4t.Proofs.DataProcessing
import Armv4t.Proofs.Executing
import Armv4t.Proofs.Parts

/-! # Calling — to a routine and back

    A call leaves the address of the next instruction in R14 and branches (`Linked`).  In the
    32-bit set that is one word; in the 16-bit set the distance does not fit into one
    halfword, and two of them share it: the first puts the upper part into R14, the second
    adds the lower one to it, and each reads R15 from where it stands itself.

    * as integers, modulo the address space, the two parts make the one distance in two's
      complement that they are written as (`toInt_halves`, `linked_longBranch`);
    * bit 0 of R14 tells the set to return to, and so an exchange to the address in R14
      returns to the set of the call (`returned_of_exchange`), and in the 32-bit set a move
      to R15 does as well (`returned_of_move`);
    * `call_and_return` states both together, for a return from any later state. -/

namespace Armv4t

/-! ## Distances -/

/-- A signed field of a word, modulo the address space. -/
theorem toNat_signExtend (x : Word) {k : Word} (hk : 0 < k.toNat ∧ k.toNat ≤ 32) :
    ((signExtend x k).toNat : Int) = (x.toBitVec.setWidth k.toNat).toInt % 2 ^ 32 := by
  have hlt := (signExtend x k).toNat_lt
  rw [← BitVec.toInt_signExtend_of_le hk.2, ← signExtend_eq x hk, BitVec.toInt_eq_toNat_bmod]
  refine Eq.trans ?_ Int.bmod_emod.symm
  show ((signExtend x k).toNat : Int) = (signExtend x k).toNat % (2 ^ 32 : Nat)
  omega

/-- The two parts of a long distance, which counts halfwords. -/
theorem toInt_halves (hi lo : BitVec 11) :
    (hi ++ lo ++ 0#1).toInt = 2 ^ 12 * hi.toInt + 2 * lo.toNat := by
  rw [BitVec.toInt_append, BitVec.toInt_append]
  show 2 ^ 1 * (2 ^ 11 * hi.toInt + lo.toNat) + (0 : Nat) = _
  omega

/-- What the first half of a long branch leaves in R14. -/
def upperTarget (pc : Word) (hi : BitVec 11) : Word :=
  pc + 4 + (signExtend (UInt32.ofNat hi.toNat) 11 <<< (12 : Word))

/-- Where the second half branches to. -/
def longTarget (upper : Word) (lo : BitVec 11) : Word :=
  upper + (UInt32.ofNat lo.toNat <<< (1 : Word))

/-- **The target of a long branch**, put together from both parts. -/
theorem toNat_longTarget (pc : Word) (hi lo : BitVec 11) :
    ((longTarget (upperTarget pc hi) lo).toNat : Int)
      = (pc.toNat + 4 + (hi ++ lo ++ 0#1).toInt) % 2 ^ 32 := by
  have hlo := lo.isLt
  have hupper : ((signExtend (UInt32.ofNat hi.toNat) 11).toNat : Int) = hi.toInt % 2 ^ 32 := by
    have hpart : (UInt32.ofNat hi.toNat).toBitVec.setWidth 11 = hi := by
      refine BitVec.eq_of_toNat_eq ?_
      show hi.toNat % 2 ^ 32 % 2 ^ 11 = hi.toNat
      have hhi := hi.isLt
      omega
    refine (toNat_signExtend _ (by decide)).trans ?_
    rw [show (11 : Word).toNat = 11 from rfl, hpart]
  have hlower : (UInt32.ofNat lo.toNat <<< (1 : Word)).toNat = 2 * lo.toNat := by
    rw [UInt32.toNat_shiftLeft, Nat.shiftLeft_eq]
    show lo.toNat % 2 ^ 32 * 2 ^ 1 % 2 ^ 32 = 2 * lo.toNat
    omega
  rw [toInt_halves, longTarget, upperTarget, UInt32.toNat_add, hlower, UInt32.toNat_add,
    UInt32.toNat_add, UInt32.toNat_shiftLeft, Nat.shiftLeft_eq]
  show (((((pc.toNat + 4) % 2 ^ 32 + (signExtend _ _).toNat * 2 ^ 12 % 2 ^ 32) % 2 ^ 32
    + 2 * lo.toNat) % 2 ^ 32 : Nat) : Int) = _
  omega

/-- A distance that counts words. -/
theorem toInt_words (f : BitVec 24) : (f ++ 0#2).toInt = 4 * f.toInt := by
  rw [BitVec.toInt_append]
  show 2 ^ 2 * f.toInt + (0 : Nat) = _
  omega

/-- Where a word branches to. -/
def branchTarget (pc w : Word) : Word :=
  pc + 8 + signExtend (field w 0 24 <<< (2 : Word)) 26

/-- **The target of a branch.** -/
theorem toNat_branchTarget (pc w : Word) :
    ((branchTarget pc w).toNat : Int)
      = (pc.toNat + 8 + 4 * (w.toBitVec.setWidth 24).toInt) % 2 ^ 32 := by
  have hwords : (field w 0 24 <<< (2 : Word)).toBitVec.setWidth 26
      = w.toBitVec.setWidth 24 ++ 0#2 := by
    refine BitVec.eq_of_toNat_eq ?_
    rw [BitVec.toNat_setWidth, UInt32.toNat_toBitVec, UInt32.toNat_shiftLeft,
      toNat_field w (by decide) (by decide), BitVec.toNat_append, BitVec.toNat_ofNat,
      Nat.zero_mod, Nat.or_zero, Nat.shiftLeft_eq, Nat.shiftLeft_eq, BitVec.toNat_setWidth]
    show w.toNat / 2 ^ 0 % 2 ^ 24 * 2 ^ 2 % 2 ^ 32 % 2 ^ 26 = w.toNat % 2 ^ 24 * 2 ^ 2
    omega
  have hdistance := toNat_signExtend (field w 0 24 <<< (2 : Word)) (k := 26) (by decide)
  rw [show (26 : Word).toNat = 26 from rfl, hwords, toInt_words] at hdistance
  rw [branchTarget, UInt32.toNat_add, UInt32.toNat_add]
  show ((((pc.toNat + 8) % 2 ^ 32 + (signExtend _ _).toNat) % 2 ^ 32 : Nat) : Int) = _
  omega

/-! ## The words -/

/-- One half of a long branch, with its part of the distance. -/
def Thumb.longHalf (second : Bool) (n : BitVec 11) : Half :=
  (if second then 0xF800 else 0xF000) ||| UInt16.ofNat n.toNat

namespace Thumb

theorem toNat_longHalf (second : Bool) (n : BitVec 11) :
    (longHalf second n).toUInt32.toNat = n.toNat + 2 ^ 11 * (30 + second.toNat) := by
  have hn := n.isLt
  have hfit : (UInt16.ofNat n.toNat).toNat = n.toNat :=
    UInt16.toNat_ofNat_of_lt' (Nat.lt_trans hn (by decide))
  rw [longHalf, UInt16.toNat_toUInt32, UInt16.toNat_or, hfit, Nat.or_comm]
  cases second with
  | false => exact @or_shiftLeft_eq_add _ 30 _ hn
  | true => exact @or_shiftLeft_eq_add _ 31 _ hn

/-- The highest bytes are those of the long branches. -/
theorem decode_of_longBranch {w : Word} (h : 0xF0 ≤ high w) :
    decodeInstruction w = .longBranch (bit w 11) (field w 0 11) := by
  have above {n : Nat} (hn : n < 0xF0) : ¬ high w ≤ n := by omega
  have other {n : Nat} (hn : n < 0xF0) : ¬ high w = n := by omega
  simp only [decodeInstruction, high_le_iff, le_high_iff, high_eq_iff, UInt32.reduceToNat]
  rw [if_neg (above (show 0x17 < _ by decide)), if_neg (above (show 0x1F < _ by decide)),
    if_neg (above (show 0x3F < _ by decide)), if_neg (above (show 0x43 < _ by decide)),
    if_neg (above (show 0x47 < _ by decide)), if_neg (above (show 0x4F < _ by decide)),
    if_neg (above (show 0x5F < _ by decide)), if_neg (above (show 0x7F < _ by decide)),
    if_neg (above (show 0x8F < _ by decide)), if_neg (above (show 0x9F < _ by decide)),
    if_neg (above (show 0xAF < _ by decide)), if_neg (other (show 0xB0 < _ by decide)),
    if_neg (show ¬ (high w = 0xB4 ∨ high w = 0xB5 ∨ high w = 0xBC ∨ high w = 0xBD) by omega),
    if_neg (above (show 0xBF < _ by decide)), if_neg (above (show 0xCF < _ by decide)),
    if_neg (above (show 0xDD < _ by decide)), if_neg (other (show 0xDF < _ by decide)),
    if_neg (show ¬ (0xE0 ≤ high w ∧ high w ≤ 0xE7) by omega), if_pos h]

theorem decode_longHalf (second : Bool) (n : BitVec 11) :
    decodeInstruction (longHalf second n).toUInt32
      = .longBranch second (UInt32.ofNat n.toNat) := by
  have hn := n.isLt
  have hsecond := second.toNat_le
  have hw := toNat_longHalf second n
  generalize (longHalf second n).toUInt32 = w at hw
  -- five bits above the part of the distance, and the last of them tells the halves apart
  have hfixed : w.toNat / 2 ^ 11 = 30 + second.toNat := by omega
  have hhigh : 0xF0 ≤ high w := by
    rw [high]
    omega
  have hbit : bit w 11 = second := by
    rw [bit_eq_decide w (by decide)]
    show decide (w.toNat / 2 ^ 11 % 2 = 1) = second
    rw [hfixed]
    cases second <;> rfl
  have hpart : field w 0 11 = UInt32.ofNat n.toNat := by
    rw [← UInt32.toNat_inj, toNat_field w (by decide) (by decide),
      UInt32.toNat_ofNat_of_lt' (Nat.lt_trans hn (by decide))]
    show w.toNat / 2 ^ 0 % 2 ^ 11 = n.toNat
    omega
  rw [decode_of_longBranch hhigh, hbit, hpart]

end Thumb

namespace Arm

variable {w : Word}

theorem decode_of_call (h : field w 24 4 = 0b1011) :
    decodeInstruction w = .branch true (signExtend (field w 0 24 <<< 2) 26) := by
  have hword := AgreeOn.of_pattern 0x0B000000 h rfl
  have family : field w 25 3 = 0b101 := hword.field_eq (by decide)
  have h24 : bit w 24 = true := hword.bit_eq (by decide)
  rw [decodeInstruction, family]
  show decodeBranch w = _
  rw [decodeBranch, h24]

theorem decode_of_exchange (h : field w 0 28 = 0x12FFF1E) :
    decodeInstruction w = .branchExchange Reg.lr := by
  have hword := AgreeOn.of_pattern 0x012FFF1E h rfl
  have plain : ¬ (bit w 7 && bit w 4) = true := by
    rw [show bit w 7 = false from hword.bit_eq (by decide)]
    exact Bool.false_ne_true
  have hform : field w 4 4 = 1 := hword.field_eq (by decide)
  have htest : isTestWithoutFlags w = true :=
    isTestWithoutFlags_iff.mpr ⟨hword.field_eq (by decide), hword.bit_eq (by decide)⟩
  have hfixed : field w 4 4 = 1 ∧ field w 21 2 = 1 ∧ field w 8 12 = 0xFFF :=
    ⟨hform, hword.field_eq (by decide), hword.field_eq (by decide)⟩
  have hrm : nibble w 0 = Reg.lr := by
    rw [nibble, show field w 0 4 = 14 from hword.field_eq (by decide)]
    rfl
  rw [decodeInstruction_of_register (hword.field_eq (by decide)), decodeRegisterFamily,
    if_neg (by rw [hform]; decide), if_neg plain, if_pos htest, decodeMiscellaneous,
    if_neg (by rw [hform]; decide), if_pos hfixed, hrm]

theorem decode_of_moveLink (h : field w 0 28 = 0x1A0F00E) :
    decodeInstruction w
      = .dataProcessing .mov false 0 Reg.pc (.shifted Reg.lr .lsl (.immediate 0)) := by
  have hword := AgreeOn.of_pattern 0x01A0F00E h rfl
  have hdata : DataWord w := by
    refine ⟨hword.field_eq (by decide), Or.inr ?_, ?_⟩
    · rw [show bit w 7 = false from hword.bit_eq (by decide)]
      exact fun h7 => Bool.false_ne_true h7.1
    · rw [show field w 23 2 = 3 from hword.field_eq (by decide)]
      exact fun h23 => absurd h23.1 (by decide)
  have hnibble (lo : Word) (hlo : field (fieldMask 0 28) lo 4 = 0xF) :
      nibble w lo = nibble 0x01A0F00E lo :=
    congrArg (fun n : Word => Fin.ofNat 16 n.toNat) (hword.field_eq hlo)
  have hquint : quint w 7 = 0 :=
    congrArg (fun n : Word => Fin.ofNat 32 n.toNat) (hword.field_eq (p := 7) (n := 5) (by decide))
  rw [hdata.decode, decodeDataProcessing, decodeOperand, hnibble 21 (by decide),
    hnibble 16 (by decide), hnibble 12 (by decide), hnibble 0 (by decide), hquint,
    show bit w 20 = false from hword.bit_eq (by decide),
    show bit w 25 = false from hword.bit_eq (by decide),
    show bit w 4 = false from hword.bit_eq (by decide),
    show field w 5 2 = 0 from hword.field_eq (by decide)]
  rfl

/-- A move to R15 is a branch. -/
theorem moveLink_eq {B : Type} (x : Execution B) :
    dataProcessing .mov false 0 Reg.pc (.shifted Reg.lr .lsl (.immediate 0)) x
      = x.branchTo (x.core.registers.read Reg.lr) := rfl

end Arm

/-! ## Calls -/

namespace Machine

variable {B : Type} [Bus B] {m : Machine B} {w : Word}

omit [Bus B] in
/-- R14 and R15 were written, and nothing else. -/
structure Linked (m : Machine B) (pc link : Word) (m' : Machine B) : Prop where
  pc : m'.core.pc = pc
  link : m'.read Reg.lr = link
  registers : ∀ i, i ≠ Reg.lr → i ≠ Reg.pc → m'.read i = m.read i
  cpsr : m'.core.cpsr = m.core.cpsr
  bank : m'.core.bank = m.core.bank
  bus : m'.bus = m.bus

omit [Bus B] in
theorem Linked.trans {m' m'' : Machine B} {pc pc' link link' : Word}
    (h : m.Linked pc link m') (h' : m'.Linked pc' link' m'') : m.Linked pc' link' m'' where
  pc := h'.pc
  link := h'.link
  registers i hlr hpc := (h'.registers i hlr hpc).trans (h.registers i hlr hpc)
  cpsr := h'.cpsr.trans h.cpsr
  bank := h'.bank.trans h.bank
  bus := h'.bus.trans h.bus

omit [Bus B] in
theorem read_linked {v : Word} {i : Reg} (hpc : i ≠ Reg.pc) :
    (m.core.aligned.setRegister Reg.lr v).registers.read i
      = if i = Reg.lr then v else m.read i := by
  show (m.core.aligned.registers.write Reg.lr v).read i = _
  rw [Registers.read_write, read_aligned hpc, if_congr eq_comm rfl rfl]

theorem linked_of_flight {k : Core} (flushed : Bool) {pc link : Word}
    (h : m.flight = { Execution.start m.core.aligned m.bus with core := k, flushed := flushed })
    (hpc : (if flushed then k.pc else k.pc + m.core.instructionSet.size) = pc)
    (hread : ∀ i, i ≠ Reg.pc → k.registers.read i = if i = Reg.lr then link else m.read i)
    (hcpsr : k.cpsr = m.core.cpsr) (hbank : k.bank = m.core.bank) :
    m.Linked pc link m.step.2 := by
  refine ⟨?_, ?_, ?_, ?_, ?_, ?_⟩
  · rw [pc_step, h]
    exact hpc
  · rw [m.read_step (by decide), h, hread Reg.lr (by decide), if_pos rfl]
  · intro i hlr hi
    rw [m.read_step hi, h, hread i hi, if_neg hlr]
  · rw [cpsr_step, h]
    exact hcpsr
  · rw [bank_step, h]
    exact hbank
  · rw [bus_step, h]
    rfl

/-- An instruction that writes R14 alone. -/
theorem linked_of_write {link : Word}
    (h : m.flight = (Execution.start m.core.aligned m.bus).setRegister Reg.lr link) :
    m.Linked m.nextPc link m.step.2 := by
  have hpc : (m.core.aligned.setRegister Reg.lr link).pc
      = m.core.instructionSet.align m.core.pc :=
    (Core.pc_setRegister_of_ne _ (by decide) _).trans m.core.pc_aligned
  exact linked_of_flight false h
    (congrArg (· + m.core.instructionSet.size) hpc) (fun i hi => read_linked hi) rfl rfl

/-- And one that branches as well. -/
theorem linked_of_branch {link target : Word}
    (h : m.flight
      = ((Execution.start m.core.aligned m.bus).setRegister Reg.lr link).branchTo target) :
    m.Linked (m.core.instructionSet.align target) link m.step.2 := by
  refine linked_of_flight true h (Core.pc_setRegister_pc _ _) ?_ rfl rfl
  intro i hi
  refine Eq.trans ?_ (read_linked hi)
  show ((m.core.aligned.setRegister Reg.lr link).registers.write Reg.pc _).read i = _
  rw [Registers.read_write, if_neg (Ne.symm hi)]

omit [Bus B] in
theorem size_of_thumb (hs : m.core.instructionSet = .thumb) : m.core.instructionSet.size = 2 := by
  rw [hs]
  rfl

/-- The halfword at an address. -/
def halfAt (m : Machine B) (a : Word) : Half := (Bus.readHalf m.bus a).toUInt16

/-- A machine of the 16-bit set, at a halfword. -/
theorem flight_of_thumb (hs : m.core.instructionSet = .thumb) (hp : m.core.PcAligned)
    {h : Half} (hh : m.halfAt m.core.pc = h) {i : Thumb.Instruction}
    (hi : Thumb.decodeInstruction h.toUInt32 = i) :
    m.flight = Thumb.execute ⟨i, h⟩ (.start m.core m.bus) := by
  have hpc : alignHalf m.core.pc = m.core.pc := by
    have hp' : m.core.instructionSet.align m.core.pc = m.core.pc := hp
    rw [hs] at hp'
    exact hp'
  have hfetched : m.fetchedHalf = h := by
    rw [fetchedHalf, hpc]
    exact hh
  rw [flight, fetched_of_thumb hs, hfetched, hp.aligned_eq, ← hi]
  rfl

/-- The first half of a call writes R14. -/
theorem linked_first (hs : m.core.instructionSet = .thumb) (hp : m.core.PcAligned)
    {hi : BitVec 11} (hh : m.halfAt m.core.pc = Thumb.longHalf false hi) :
    m.Linked (m.core.pc + 2) (upperTarget m.core.pc hi) m.step.2 := by
  have hnext : m.nextPc = m.core.pc + 2 := by
    rw [nextPc, hp, size_of_thumb hs]
  have hahead : m.core.effectivePc .branchBase = m.core.pc + 4 := by
    rw [Core.effectivePc, hs]
    rfl
  have hflight := flight_of_thumb hs hp hh (Thumb.decode_longHalf false hi)
  rw [← hnext]
  refine linked_of_write (hflight.trans ?_)
  rw [upperTarget, hp.aligned_eq, ← hahead]
  rfl

/-- The second half branches from there, and leaves the address after it in R14. -/
theorem linked_second (hs : m.core.instructionSet = .thumb) (hp : m.core.PcAligned)
    {lo : BitVec 11} (hh : m.halfAt m.core.pc = Thumb.longHalf true lo) :
    m.Linked (alignHalf (longTarget (m.read Reg.lr) lo)) ((m.core.pc + 2) ||| 1) m.step.2 := by
  have hflight := flight_of_thumb hs hp hh (Thumb.decode_longHalf true lo)
  have halign : m.core.instructionSet.align (longTarget (m.read Reg.lr) lo)
      = alignHalf (longTarget (m.read Reg.lr) lo) := by
    rw [hs]
    rfl
  rw [← halign]
  refine linked_of_branch (hflight.trans ?_)
  rw [hp.aligned_eq]
  rfl

/-- **Two halfwords make one call**, from an even address. -/
theorem linked_longBranch (hs : m.core.instructionSet = .thumb) (hp : m.core.PcAligned)
    {hi lo : BitVec 11} (hfirst : m.halfAt m.core.pc = Thumb.longHalf false hi)
    (hsecond : m.halfAt (m.core.pc + 2) = Thumb.longHalf true lo) :
    ∃ target : Word,
      (target.toNat : Int) = (m.core.pc.toNat + 4 + (hi ++ lo ++ 0#1).toInt) % 2 ^ 32
      ∧ m.Linked target ((m.core.pc + 4) ||| 1) (m.after 2) := by
  have hnat := toNat_longTarget m.core.pc hi lo
  have hone := linked_first hs hp hfirst
  have hs' : m.step.2.core.instructionSet = .thumb :=
    (congrArg Psr.instructionSet hone.cpsr).trans hs
  have hsecond' : m.step.2.halfAt m.step.2.core.pc = Thumb.longHalf true lo := by
    rw [hone.pc, halfAt, hone.bus]
    exact hsecond
  have htwo := linked_second hs' m.pcAligned_step hsecond'
  -- both parts count halfwords, and so the target is even as the address of the call is
  have htarget : alignHalf (longTarget (upperTarget m.core.pc hi) lo)
      = longTarget (upperTarget m.core.pc hi) lo := by
    refine (InstructionSet.align_eq_self_iff .thumb _).mpr ?_
    rw [Core.PcAligned, InstructionSet.align_eq_self_iff, size_of_thumb hs] at hp
    rw [toInt_halves] at hnat
    have heven : m.core.pc.toNat % 2 = 0 := hp
    show (longTarget (upperTarget m.core.pc hi) lo).toNat % 2 = 0
    omega
  have hahead : m.core.pc + 2 + 2 = m.core.pc + 4 := by
    rw [UInt32.add_assoc]
    rfl
  rw [hone.link, hone.pc, htarget, hahead] at htwo
  exact ⟨_, hnat, hone.trans htwo⟩

/-- **One word makes a call** in the 32-bit set. -/
theorem linked_branch (hm : m.CarriesOut w) (hw : field w 24 4 = 0b1011) (hp : m.core.PcAligned) :
    ∃ target : Word,
      (target.toNat : Int)
          = (m.core.pc.toNat + 8 + 4 * (w.toBitVec.setWidth 24).toInt) % 2 ^ 32
        ∧ m.Linked target (m.core.pc + 4) m.step.2 := by
  have hnat := toNat_branchTarget m.core.pc w
  have htarget : m.core.instructionSet.align (branchTarget m.core.pc w)
      = branchTarget m.core.pc w := by
    rw [Core.PcAligned, hm.set, InstructionSet.align_eq_self_iff] at hp
    rw [hm.set, InstructionSet.align_eq_self_iff]
    have hword : m.core.pc.toNat % 4 = 0 := hp
    show (branchTarget m.core.pc w).toNat % 4 = 0
    omega
  have hahead : m.core.effectivePc .branchBase = m.core.pc + 8 := Core.effectivePc_of_arm hm.set _
  refine ⟨branchTarget m.core.pc w, hnat, ?_⟩
  rw [← htarget]
  refine linked_of_branch ((hm.flight_eq (Arm.decode_of_call hw)).trans ?_)
  rw [hp.aligned_eq, branchTarget, ← hahead]
  rfl

end Machine

/-! ## Returns -/

namespace Psr

theorem instructionSet_setInstructionSet (p : Psr) (s : InstructionSet) :
    (p.setInstructionSet s).instructionSet = s := by
  show InstructionSet.ofBit (p.setT s.toBit).t = s
  rw [t_setT]
  cases s <;> rfl

/-- The set that is selected already is selected without a change. -/
theorem setInstructionSet_self {p : Psr} {s : InstructionSet} (h : p.instructionSet = s) :
    p.setInstructionSet s = p := by
  have ht : s.toBit = bit p.raw 5 := by
    rw [← h]
    show (InstructionSet.ofBit (bit p.raw 5)).toBit = bit p.raw 5
    cases bit p.raw 5 <;> rfl
  refine congrArg Psr.mk (eq_of_bit_eq fun i hi => ?_)
  rw [bit_putBit _ (by decide) hi]
  by_cases h5 : 5 = i
  · rw [if_pos h5, ht, h5]
  · rw [if_neg h5]

end Psr

/-- Bit 0 of an address that was left by the 16-bit set. -/
theorem bit_or_one (a : Word) : bit (a ||| 1) 0 = true := by
  rw [bit_eq_getLsbD _ (by decide), UInt32.toBitVec_or, BitVec.getLsbD_or]
  exact Bool.or_true _

theorem bit_zero_of_even {a : Word} (h : a.toNat % 2 = 0) : bit a 0 = false := by
  rw [bit_eq_decide _ (by decide)]
  refine decide_eq_false ?_
  show ¬ a.toNat / 2 ^ 0 % 2 = 1
  omega

/-- And that bit is no part of the address. -/
theorem alignHalf_or_one {a : Word} (h : alignHalf a = a) : alignHalf (a ||| 1) = a := by
  have hone : (1 : Word) &&& ~~~1 = 0 := by decide
  rw [alignHalf, or_and_mask, hone, UInt32.or_zero]
  exact h

/-- An exchange, up to what it tells. -/
theorem Arm.branchExchange_eq {B : Type} (rm : Reg) (x : Execution B) {target : Word}
    {set : InstructionSet} (ht : x.read rm .operand = target)
    (hs : InstructionSet.ofBit (bit target 0) = set) :
    ∃ es, branchExchange rm x =
      { x with
        core := (x.core.setCpsr (x.core.cpsr.setInstructionSet set)).jump target
        flushed := true
        trail := es } := by
  rw [branchExchange, ht, hs]
  by_cases h : set = x.core.instructionSet
  · rw [if_pos h]
    exact ⟨x.trail, rfl⟩
  · rw [if_neg h]
    exact ⟨_ :: x.trail, rfl⟩

namespace Machine

variable {B : Type} [Bus B] {m : Machine B} {w : Word}

omit [Bus B] in
/-- R15 and the T bit were written, and nothing else. -/
structure Returned (m : Machine B) (set : InstructionSet) (pc : Word) (m' : Machine B) :
    Prop where
  pc : m'.core.pc = pc
  set : m'.core.instructionSet = set
  registers : ∀ i, i ≠ Reg.pc → m'.read i = m.read i
  status : AgreeOff 0x20 m'.core.cpsr.raw m.core.cpsr.raw
  bank : m'.core.bank = m.core.bank
  bus : m'.bus = m.bus

/-- A machine at an exchange to the address in R14, in either set. -/
def ExchangesToLink (m : Machine B) : Prop :=
  match m.core.instructionSet with
  | .arm => ∃ w, m.CarriesOut w ∧ field w 0 28 = 0x12FFF1E
  | .thumb => m.fetchedHalf = 0x4770

/-- A machine at a move of R14 to R15. -/
def MovesLink (m : Machine B) : Prop := ∃ w, m.CarriesOut w ∧ field w 0 28 = 0x1A0F00E

theorem returned_of_flight (set : InstructionSet) {target : Word} (es : List Activity)
    (h : m.flight =
      { Execution.start m.core.aligned m.bus with
        core := (m.core.aligned.setCpsr (m.core.cpsr.setInstructionSet set)).jump target
        flushed := true
        trail := es }) : m.Returned set (set.align target) m.step.2 := by
  have hset := m.core.cpsr.instructionSet_setInstructionSet set
  refine ⟨?_, ?_, ?_, ?_, ?_, ?_⟩
  · rw [pc_step, h]
    refine (Core.pc_setRegister_pc _ _).trans ?_
    exact congrArg (InstructionSet.align · target) hset
  · rw [Core.instructionSet, cpsr_step, h]
    exact hset
  · intro i hi
    rw [m.read_step hi, h]
    show (m.core.aligned.registers.write Reg.pc _).read i = _
    rw [Registers.read_write, if_neg (Ne.symm hi)]
    exact read_aligned hi
  · rw [cpsr_step, h]
    exact m.core.cpsr.setT_agreeOff set.toBit
  · rw [bank_step, h]
    rfl
  · rw [bus_step, h]
    rfl

/-- **An exchange to the address in R14 returns to the set that bit 0 of it tells.** -/
theorem returned_of_exchange (h : m.ExchangesToLink) {link : Word} {set : InstructionSet}
    (hlink : m.read Reg.lr = link) (hs : InstructionSet.ofBit (bit link 0) = set) :
    m.Returned set (set.align link) m.step.2 := by
  let x : Execution B := .start m.core.aligned m.bus
  have hread : x.read Reg.lr .operand = link := by
    show m.core.aligned.read Reg.lr .operand = link
    rw [Core.read, if_neg (by decide), read_aligned (by decide)]
    exact hlink
  have hexchange : m.flight = Arm.branchExchange Reg.lr x := by
    rw [ExchangesToLink] at h
    cases hset : m.core.instructionSet with
    | arm =>
        rw [hset] at h
        obtain ⟨w, hm, hw⟩ := h
        exact hm.flight_eq (Arm.decode_of_exchange hw)
    | thumb =>
        rw [hset] at h
        have hhalf : m.fetchedHalf = 0x4770 := h
        rw [flight, fetched_of_thumb hset, hhalf]
        rfl
  obtain ⟨es, hes⟩ := Arm.branchExchange_eq Reg.lr x hread hs
  exact returned_of_flight set es (hexchange.trans hes)

/-- **A move of R14 to R15 returns** in the 32-bit set. -/
theorem returned_of_move (h : m.MovesLink) :
    m.Returned .arm (alignWord (m.read Reg.lr)) m.step.2 := by
  obtain ⟨w, hm, hw⟩ := h
  have hcpsr : m.core.cpsr.setInstructionSet .arm = m.core.cpsr :=
    Psr.setInstructionSet_self hm.set
  have hlink : m.core.aligned.registers.read Reg.lr = m.read Reg.lr := read_aligned (by decide)
  have hflight := (hm.flight_eq (Arm.decode_of_moveLink hw)).trans
    (Arm.moveLink_eq (.start m.core.aligned m.bus))
  refine returned_of_flight .arm [] (hflight.trans ?_)
  rw [hcpsr, ← hlink]
  rfl

/-- **A call and its return**, with every wrap of the address space.  From an even address of
    the 16-bit set two halfwords branch by their distance from the one after the next of them;
    R14 is the address after both, with bit 0 set.  From a word-aligned address of the 32-bit
    set one word does, and R14 is the address after it.  Nothing else changes.  Whatever
    happens then, a machine with the same R14 that is at an exchange to it, or that moves it
    to R15 after a call of the 32-bit set, goes on after the call in the set of the call. -/
theorem call_and_return :
    (∀ {m : Machine B} {hi lo : BitVec 11}, m.core.instructionSet = .thumb →
        m.core.pc.toNat % 2 = 0 → m.halfAt m.core.pc = Thumb.longHalf false hi →
        m.halfAt (m.core.pc + 2) = Thumb.longHalf true lo →
        ∃ target : Word,
          (target.toNat : Int) = (m.core.pc.toNat + 4 + (hi ++ lo ++ 0#1).toInt) % 2 ^ 32
          ∧ m.Linked target ((m.core.pc + 4) ||| 1) (m.after 2)
          ∧ (m.after 2).core.instructionSet = .thumb
          ∧ ∀ n : Machine B, n.read Reg.lr = (m.after 2).read Reg.lr → n.ExchangesToLink →
            n.Returned .thumb (m.core.pc + 4) n.step.2)
      ∧ ∀ {m : Machine B} {w : Word}, m.CarriesOut w → field w 24 4 = 0b1011 →
        m.core.pc.toNat % 4 = 0 →
        ∃ target : Word,
          (target.toNat : Int)
              = (m.core.pc.toNat + 8 + 4 * (w.toBitVec.setWidth 24).toInt) % 2 ^ 32
            ∧ m.Linked target (m.core.pc + 4) m.step.2
            ∧ ∀ n : Machine B, n.read Reg.lr = m.step.2.read Reg.lr →
              n.ExchangesToLink ∨ n.MovesLink → n.Returned .arm (m.core.pc + 4) n.step.2 := by
  constructor
  · intro m hi lo hs heven hfirst hsecond
    have hp : m.core.PcAligned := by
      rw [Core.PcAligned, InstructionSet.align_eq_self_iff, size_of_thumb hs]
      exact heven
    obtain ⟨target, hnat, hlinked⟩ := linked_longBranch hs hp hfirst hsecond
    have hback : InstructionSet.thumb.align (m.core.pc + 4) = m.core.pc + 4 := by
      rw [InstructionSet.align_eq_self_iff, UInt32.toNat_add]
      show (m.core.pc.toNat + 4) % 2 ^ 32 % 2 = 0
      omega
    refine ⟨target, hnat, hlinked, ?_, ?_⟩
    · rw [← hs]
      exact congrArg Psr.instructionSet hlinked.cpsr
    · intro n hn hexchange
      have hset : InstructionSet.ofBit (bit ((m.core.pc + 4) ||| 1) 0) = .thumb := by
        rw [bit_or_one]
        rfl
      rw [← alignHalf_or_one hback]
      exact returned_of_exchange hexchange (hn.trans hlinked.link) hset
  · intro m w hm hw hword
    have hp : m.core.PcAligned := by
      rw [Core.PcAligned, InstructionSet.align_eq_self_iff, hm.set]
      exact hword
    obtain ⟨target, hnat, hlinked⟩ := linked_branch hm hw hp
    have hback : InstructionSet.arm.align (m.core.pc + 4) = m.core.pc + 4 := by
      rw [InstructionSet.align_eq_self_iff, UInt32.toNat_add]
      show (m.core.pc.toNat + 4) % 2 ^ 32 % 4 = 0
      omega
    refine ⟨target, hnat, hlinked, ?_⟩
    intro n hn hreturn
    have hlink : n.read Reg.lr = m.core.pc + 4 := hn.trans hlinked.link
    have hset : InstructionSet.ofBit (bit (m.core.pc + 4) 0) = .arm := by
      rw [bit_zero_of_even (by rw [UInt32.toNat_add]; show (_ + 4) % 2 ^ 32 % 2 = 0; omega)]
      rfl
    rw [← hback]
    rcases hreturn with hexchange | hmove
    · exact returned_of_exchange hexchange hlink hset
    · rw [← hlink]
      exact returned_of_move hmove

/-- Calls at address zero to the last word of the address space, in either set, and their
    returns. -/
theorem call_and_return_of_wrap :
    let call := (Rom.machine [0xFFFCF7FF] .user).pokeStatus ⟨0x30⟩
    let back := ((Rom.machine [0x4770] .user).pokeStatus ⟨0x30⟩).write Reg.lr 5
    let wideCall := Rom.machine [0xEBFFFFFD] .user
    let wideBack := (Rom.machine [0xE1A0F00E] .user).write Reg.lr 4
    (call.after 2).core.pc = 0xFFFFFFFC ∧ (call.after 2).read Reg.lr = 5
      ∧ back.step.2.core.pc = 4 ∧ back.step.2.core.instructionSet = .thumb
      ∧ wideCall.step.2.core.pc = 0xFFFFFFFC ∧ wideCall.step.2.read Reg.lr = 4
      ∧ wideBack.step.2.core.pc = 4 ∧ wideBack.step.2.core.instructionSet = .arm := by
  intro call back wideCall wideBack
  obtain ⟨hhalves, hword⟩ := call_and_return (B := Rom)
  obtain ⟨target, hnat, hlinked, -, hback⟩ := @hhalves call 0x7FF 0x7FC
    (by decide +kernel) (by decide +kernel) (by decide +kernel) (by decide +kernel)
  have hcarries : wideCall.CarriesOut 0xEBFFFFFD :=
    ⟨by decide +kernel, by decide +kernel, by decide +kernel⟩
  obtain ⟨target', hnat', hlinked', hback'⟩ := hword hcarries (by decide) (by decide +kernel)
  have htarget : target = 0xFFFFFFFC :=
    UInt32.toNat_inj.mp (Int.ofNat_inj.mp (hnat.trans (by decide +kernel)))
  have htarget' : target' = 0xFFFFFFFC :=
    UInt32.toNat_inj.mp (Int.ofNat_inj.mp (hnat'.trans (by decide +kernel)))
  have hlink : (call.after 2).read Reg.lr = 5 := hlinked.link.trans (by decide +kernel)
  have hlink' : wideCall.step.2.read Reg.lr = 4 := hlinked'.link.trans (by decide +kernel)
  have hset : back.core.instructionSet = .thumb := by decide +kernel
  have hexchange : back.ExchangesToLink := by
    rw [ExchangesToLink, hset]
    show back.fetchedHalf = 0x4770
    decide +kernel
  have hmove : wideBack.MovesLink :=
    ⟨0xE1A0F00E, ⟨by decide +kernel, by decide +kernel, by decide +kernel⟩, by decide⟩
  have hreturned := hback back (Eq.trans (by decide +kernel) hlink.symm) hexchange
  have hreturned' := hback' wideBack (Eq.trans (by decide +kernel) hlink'.symm) (Or.inr hmove)
  exact ⟨hlinked.pc.trans htarget, hlink, hreturned.pc.trans (by decide +kernel),
    hreturned.set, hlinked'.pc.trans htarget', hlink',
    hreturned'.pc.trans (by decide +kernel), hreturned'.set⟩

end Machine

end Armv4t
