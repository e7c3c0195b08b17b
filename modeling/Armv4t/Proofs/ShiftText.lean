import Armv4t.Arm.Assembly
import Armv4t.Arm.Execute
import Armv4t.Memory.Flat
import Armv4t.Numeral.Read
import Armv4t.Proofs.Encoding.Thumb
import Armv4t.Proofs.Parts
import Armv4t.Thumb.Assembly
import Armv4t.Thumb.Execute

/-! # Shift texts — the shift that a line shows, and the one that is executed

    A line of assembler text falls into parts, with blanks, commas, brackets and signs
    between them.  In the 32-bit set a shift stands behind the last register, as a mnemonic
    and a number or as `RRX`; in the 16-bit set the mnemonic of the line is the shift and the
    last part the number.  Both are read from the end of the line, whatever comes before.

    * What keeps parts apart does so anywhere (`parts_append_gap`), so the end of a line can
      be read by itself;
    * a shifted operand behind a register reads as the shift that its five bits stand for
      (`Arm.shownShift?_of_endsIn`), and every data-processing line and every transfer with
      a shifted offset ends in one (`Arm.endsIn_dataProcessing`, `Arm.endsIn_singleTransfer`);
    * a line of the 16-bit set reads as its five bits themselves
      (`Thumb.shownShift?_moveShifted`), which is the same but for LSR and ASR by zero
      (`ShiftForm.places_tells_iff`).

    `shown_shift_is_executed_unless_right_by_zero` gives the exact extent. -/

namespace Armv4t

/-! ## Shifts -/

/-- A shift in the form that a line shows. -/
inductive ShiftForm where
  /-- By a number of places. -/
  | places (kind : ShiftKind) (amount : Word)
  /-- By one place through the carry. -/
  | throughCarry
  deriving DecidableEq

namespace ShiftForm

/-- The operand that a shift makes of a value and a carry.  A number of places is what it
    would be in a register. -/
def apply (s : ShiftForm) (value : Word) (carry : Bool) : Shifted :=
  match s with
  | places kind amount => shift kind .register value amount carry
  | throughCarry => rotateThroughCarry value carry

/-- The shift that five bits of an opcode stand for. -/
def ofOpcode : ShiftKind → Fin 32 → ShiftForm
  | .lsr, ⟨0, _⟩ => places .lsr 32
  | .asr, ⟨0, _⟩ => places .asr 32
  | .ror, ⟨0, _⟩ => throughCarry
  | kind, amount => places kind amount.val.toUInt32

/-- A shift is what an operand with five bits in its opcode goes through. -/
def Tells (s : ShiftForm) (kind : ShiftKind) (amount : Fin 32) : Prop :=
  ∀ value carry, shift kind .opcode value amount.val.toUInt32 carry = s.apply value carry

/-- The bits are the number of places, unless they are a zero to the right. -/
theorem ofOpcode_eq_places {kind : ShiftKind} {amount : Fin 32} (h : kind = .lsl ∨ amount ≠ 0) :
    ofOpcode kind amount = places kind amount.val.toUInt32 := by
  unfold ofOpcode
  split
  · exact absurd rfl (h.resolve_left nofun)
  · exact absurd rfl (h.resolve_left nofun)
  · exact absurd rfl (h.resolve_left nofun)
  · rfl

/-- A zero to the right stands for 32 places. -/
theorem ofOpcode_right {kind : ShiftKind} {amount : Fin 32} (hzero : amount = 0)
    (hkind : kind = .lsr ∨ kind = .asr) : ofOpcode kind amount = places kind 32 := by
  rw [hzero]
  rcases hkind with rfl | rfl <;> rfl

/-- **The five bits are told by the shift that they stand for.** -/
theorem ofOpcode_tells (kind : ShiftKind) (amount : Fin 32) :
    (ofOpcode kind amount).Tells kind amount := by
  intro value carry
  by_cases hzero : amount = 0
  · rw [hzero]
    cases kind <;> rfl
  · -- where an amount comes from only matters when it is zero
    have hne : ∀ amount : Fin 32, amount ≠ 0 → amount.val.toUInt32 ≠ 0 := by decide
    rw [ofOpcode_eq_places (Or.inr hzero), apply, shift, shift, if_neg (hne amount hzero),
      if_neg (hne amount hzero)]

/-- **They tell it themselves, unless they are a zero to the right.** -/
theorem places_tells_iff {kind : ShiftKind} (amount : Fin 32) (hkind : kind ≠ .ror) :
    (places kind amount.val.toUInt32).Tells kind amount ↔ kind = .lsl ∨ amount ≠ 0 := by
  constructor
  · intro h
    by_contra hnot
    obtain ⟨hlsl, hzero⟩ := not_or.mp hnot
    obtain rfl := not_not.mp hzero
    -- no place leaves a one as it is, and 32 places to the right leave nothing of it
    have hone := h 1 false
    cases kind with
    | lsl => exact hlsl rfl
    | ror => exact hkind rfl
    | lsr | asr => exact absurd hone (by decide)
  · intro h
    rw [← ofOpcode_eq_places h]
    exact ofOpcode_tells kind amount

end ShiftForm

/-! ## The parts of a line -/

/-- What stands between the parts of a line. -/
def isBreak (c : Char) : Bool := c ∈ [' ', ',', '[', ']', '!', '-']

/-- The parts of a line. -/
def parts (line : String) : List String :=
  ((line.toList.splitOnP isBreak).filter (· ≠ [])).map String.ofList

/-- A text that keeps two parts apart. -/
def IsGap (s : String) : Prop := s ≠ "" ∧ s.toList.all isBreak = true

instance (s : String) : Decidable (IsGap s) := inferInstanceAs (Decidable (_ ∧ _))

/-- Breaks before a part are not seen, by induction on the breaks. -/
theorem filter_splitOnP_breaks {gap : List Char} (h : ∀ c ∈ gap, isBreak c = true)
    (cs : List Char) : ((gap ++ cs).splitOnP isBreak).filter (· ≠ [])
      = (cs.splitOnP isBreak).filter (· ≠ []) := by
  induction gap with
  | nil => rfl
  | cons c gap ih =>
      have hc : isBreak c = true := h c (List.mem_cons_self ..)
      rw [List.cons_append, List.splitOnP_cons_eq_if_modifyHead, if_pos hc]
      exact ih fun d hd => h d (List.mem_cons_of_mem _ hd)

/-- **A gap keeps parts apart**, whatever stands before it and behind it. -/
theorem parts_append_gap {gap : String} (h : IsGap gap) (a b : String) :
    parts (a ++ gap ++ b) = parts a ++ parts b := by
  obtain ⟨hne, hall⟩ := h
  have hbreaks := List.all_eq_true.mp hall
  cases hgap : gap.toList with
  | nil => exact absurd (String.toList_eq_nil_iff.mp hgap) hne
  | cons c rest =>
      rw [hgap] at hbreaks
      have hc : isBreak c = true := hbreaks c (List.mem_cons_self ..)
      have hrest : ∀ d ∈ rest, isBreak d = true :=
        fun d hd => hbreaks d (List.mem_cons_of_mem _ hd)
      have hline : (a ++ gap ++ b).toList = a.toList ++ c :: (rest ++ b.toList) := by
        rw [String.toList_append, String.toList_append, hgap, List.append_assoc, List.cons_append]
      rw [parts, hline, List.splitOnP_append_cons _ _ hc, List.filter_append,
        filter_splitOnP_breaks hrest, List.map_append]
      rfl

/-- A gap at the end is not seen. -/
theorem parts_append_close {close : String} (h : close = "" ∨ IsGap close) (a : String) :
    parts (a ++ close) = parts a := by
  rcases h with rfl | h
  · rw [String.append_empty]
  · have hgap := parts_append_gap h a ""
    rw [String.append_empty] at hgap
    exact hgap.trans (List.append_nil _)

/-! ## Reading a shift -/

/-- The shift with a mnemonic. -/
def shiftNamed? (s : String) : Option ShiftKind :=
  [ShiftKind.lsl, .lsr, .asr, .ror].find? fun kind => kind.name = s

/-- The number behind a number sign. -/
def amountIn? (s : String) : Option Word :=
  match s.toList with
  | '#' :: digits =>
    match readNat 10 0xFFFFFFFF digits with
    | .ok n => some n.toUInt32
    | .error _ => none
  | _ => none

theorem shiftNamed?_name (kind : ShiftKind) : shiftNamed? kind.name = some kind := by
  cases kind <;> decide

/-- A number of places is one part of a line, and reads as itself. -/
theorem amountIn?_toString {n : Nat} (h : n ≤ 32) :
    parts ("#" ++ toString n) = ["#" ++ toString n]
      ∧ amountIn? ("#" ++ toString n) = some n.toUInt32 := by
  have hall : ∀ n : Fin 33, parts ("#" ++ toString n.val) = ["#" ++ toString n.val]
      ∧ amountIn? ("#" ++ toString n.val) = some n.val.toUInt32 := by
    decide +kernel
  exact hall ⟨n, Nat.lt_succ_of_le h⟩

/-- The name of a register is one part of a line, and reads as nothing else. -/
theorem parts_name (r : Reg) : parts r.name = [r.name] := by
  revert r
  decide

theorem shiftNamed?_reg (r : Reg) : shiftNamed? r.name = none := by
  revert r
  decide

theorem name_ne_rrx (r : Reg) : r.name ≠ "RRX" := by
  revert r
  decide

theorem parts_kind (kind : ShiftKind) : parts kind.name = [kind.name] := by
  cases kind <;> decide

/-- A line ends in an operand that stands behind a register. -/
def EndsIn (operand line : String) : Prop :=
  ∃ (front before between behind : String) (r : Reg), IsGap before ∧ IsGap between
    ∧ (behind = "" ∨ IsGap behind)
    ∧ line = front ++ before ++ r.name ++ between ++ operand ++ behind

/-- So the last parts of the line are the register and the parts of the operand. -/
theorem EndsIn.parts_eq {operand line : String} (h : EndsIn operand line) :
    ∃ (front : String) (r : Reg), parts line = parts front ++ r.name :: parts operand := by
  obtain ⟨front, before, between, behind, r, hbefore, hbetween, hbehind, rfl⟩ := h
  refine ⟨front, r, ?_⟩
  rw [parts_append_close hbehind, parts_append_gap hbetween, parts_append_gap hbefore, parts_name,
    List.append_assoc]
  rfl

/-- Something more may stand before it. -/
theorem EndsIn.prepend {operand line : String} (h : EndsIn operand line) (start : String) :
    EndsIn operand (start ++ line) := by
  obtain ⟨front, before, between, behind, r, hbefore, hbetween, hbehind, rfl⟩ := h
  refine ⟨start ++ front, before, between, behind, r, hbefore, hbetween, hbehind, ?_⟩
  simp only [String.append_assoc]

namespace Arm

/-- The shift that a line of the 32-bit set shows for a register at its end: a mnemonic and a
    number, or `RRX`, or none, which is no places. -/
def shownShift? (line : String) : Option ShiftForm :=
  match (parts line).reverse with
  | [] => none
  | last :: rest =>
    if last = "RRX" then some .throughCarry
    else
      match rest.head?.bind shiftNamed? with
      | some kind => (amountIn? last).map (.places kind)
      | none => if last ∈ Reg.all.map Reg.name then some (.places .lsl 0) else none

/-- A shifted register is shown by its name alone, with `RRX`, or with a mnemonic and a number
    of places; and it is the shift that its five bits stand for. -/
theorem shiftedText_cases (rm : Reg) (kind : ShiftKind) (amount : Fin 32) :
    (shiftedText rm kind amount = rm.name ∧ ShiftForm.ofOpcode kind amount = .places .lsl 0)
      ∨ (shiftedText rm kind amount = rm.name ++ ", " ++ "RRX"
        ∧ ShiftForm.ofOpcode kind amount = .throughCarry)
      ∨ ∃ n ≤ 32, shiftedText rm kind amount
          = rm.name ++ ", " ++ (kind.name ++ " " ++ ("#" ++ toString n))
        ∧ ShiftForm.ofOpcode kind amount = .places kind n.toUInt32 := by
  have hnumber (n : Nat) : rm.name ++ ", " ++ kind.name ++ " #" ++ toString n
      = rm.name ++ ", " ++ (kind.name ++ " " ++ ("#" ++ toString n)) := by
    rw [show " #" = " " ++ "#" from rfl]
    simp only [String.append_assoc]
  by_cases hzero : amount = 0
  · subst hzero
    cases kind with
    | lsl => exact Or.inl ⟨rfl, rfl⟩
    | ror =>
        have htext : rm.name ++ ", RRX" = rm.name ++ ", " ++ "RRX" := by
          rw [String.append_assoc]
          rfl
        exact Or.inr (Or.inl ⟨htext, rfl⟩)
    | lsr | asr => exact Or.inr (Or.inr ⟨32, Nat.le_refl _, hnumber 32, rfl⟩)
  · have hne : amount.val ≠ 0 := fun h => hzero (Fin.ext h)
    refine Or.inr (Or.inr ⟨amount.val, Nat.le_of_lt amount.isLt, ?_, ?_⟩)
    · rw [shiftedText, if_neg fun h => hne h.1, if_neg fun h => hne h.1, ← hnumber]
      dsimp only
      rw [if_neg hne]
    · exact ShiftForm.ofOpcode_eq_places (Or.inr hzero)

/-- A register behind a register is not shifted. -/
theorem shownShift?_of_plain {line : String} {front : List String} {r rm : Reg}
    (h : parts line = front ++ [r.name, rm.name]) :
    shownShift? line = some (.places .lsl 0) := by
  have hname : rm.name ∈ Reg.all.map Reg.name := List.mem_map_of_mem (List.mem_finRange rm)
  rw [shownShift?, h, List.reverse_append]
  show (if rm.name = "RRX" then _ else _) = _
  rw [if_neg (name_ne_rrx rm)]
  show (match shiftNamed? r.name with | some kind => _ | none => _) = _
  rw [shiftNamed?_reg]
  exact if_pos hname

/-- A mnemonic and a number are that number of places. -/
theorem shownShift?_of_places {line : String} {front : List String} {kind : ShiftKind} {n : Nat}
    (hn : n ≤ 32) (h : parts line = front ++ [kind.name, "#" ++ toString n]) :
    shownShift? line = some (.places kind n.toUInt32) := by
  have hamount := (amountIn?_toString hn).2
  have hsharp : "#" ++ toString n ≠ "RRX" := by
    intro h
    rw [h] at hamount
    exact nomatch hamount
  rw [shownShift?, h, List.reverse_append]
  show (if "#" ++ toString n = "RRX" then _ else _) = _
  rw [if_neg hsharp]
  show (match shiftNamed? kind.name with | some kind => _ | none => _) = _
  rw [shiftNamed?_name]
  show (amountIn? ("#" ++ toString n)).map _ = _
  rw [hamount]
  rfl

/-- **A shifted register reads as the shift that its five bits stand for.** -/
theorem shownShift?_of_endsIn {rm : Reg} {kind : ShiftKind} {amount : Fin 32} {line : String}
    (h : EndsIn (shiftedText rm kind amount) line) :
    shownShift? line = some (.ofOpcode kind amount) := by
  obtain ⟨front, r, hparts⟩ := h.parts_eq
  have hcomma : IsGap ", " := by decide
  have hblank : IsGap " " := by decide
  rcases shiftedText_cases rm kind amount with
    ⟨htext, hform⟩ | ⟨htext, hform⟩ | ⟨n, hn, htext, hform⟩
  · rw [htext, parts_name] at hparts
    rw [hform]
    exact shownShift?_of_plain hparts
  · rw [htext, parts_append_gap hcomma, parts_name] at hparts
    rw [hform, shownShift?, hparts, List.reverse_append]
    rfl
  · rw [htext, parts_append_gap hcomma, parts_append_gap hblank, parts_name, parts_kind,
      (amountIn?_toString hn).1] at hparts
    have hend : parts line
        = (parts front ++ [r.name, rm.name]) ++ [kind.name, "#" ++ toString n] := by
      rw [hparts, List.append_assoc]
      rfl
    rw [hform]
    exact shownShift?_of_places hn hend

/-- The offset of a transfer is read across its sign and behind the brackets. -/
example : (Arm.decode 0xE6110042).text = "E6110042  LDR R0, [R1], -R2, ASR #32"
    ∧ shownShift? "E6110042  LDR R0, [R1], -R2, ASR #32" = some (.places .asr 32) := by
  decide +kernel

/-- Data processing shows its second operand behind a register. -/
theorem endsIn_dataProcessing (op : AluOp) (setFlags : Bool) (rn rd : Reg) (operand : Operand)
    (condition : Condition) :
    EndsIn operand.text
      ((Instruction.dataProcessing op setFlags rn rd operand).text condition) := by
  have hblank : IsGap " " := by decide
  have hcomma : IsGap ", " := by decide
  dsimp only [Instruction.text]
  split
  · exact ⟨_, _, _, "", rn, hblank, hcomma, Or.inl rfl, (String.append_empty ..).symm⟩
  split
  · exact ⟨_, _, _, "", rd, hblank, hcomma, Or.inl rfl, (String.append_empty ..).symm⟩
  · exact ⟨_, _, _, "", rn, hcomma, hcomma, Or.inl rfl, (String.append_empty ..).symm⟩

/-- An address shows its offset behind the base, within the brackets or behind them. -/
theorem endsIn_addressingText (a : Addressing) (rn : Reg) (offset start : String) :
    EndsIn offset (start ++ ", " ++ addressingText a rn offset) := by
  obtain ⟨indexing, direction, writeBack⟩ := a
  cases indexing with
  | pre =>
      have hbetween : IsGap (", " ++ if direction = .down then "-" else "") := by
        cases direction <;> decide
      have hbehind : IsGap ("]" ++ if writeBack then "!" else "") := by
        cases writeBack <;> decide
      refine ⟨start, ", " ++ "[", _, _, rn, by decide, hbetween, Or.inr hbehind, ?_⟩
      simp only [addressingText, String.append_assoc]
  | post =>
      have hbetween : IsGap ("], " ++ if direction = .down then "-" else "") := by
        cases direction <;> decide
      refine ⟨start, ", " ++ "[", _, "", rn, by decide, hbetween, Or.inl rfl, ?_⟩
      simp only [addressingText, String.append_assoc, String.append_empty]

theorem endsIn_singleTransfer (kind : TransferKind) (quantity : Quantity) (a : Addressing)
    (rn rd : Reg) (offset : TransferOffset) (condition : Condition) :
    EndsIn offset.text
      ((Instruction.singleTransfer kind quantity a rn rd offset).text condition) :=
  endsIn_addressingText a rn offset.text _

end Arm

namespace Thumb

/-- The shift that a line of the 16-bit set shows: its mnemonic, and a number at its end behind
    two registers. -/
def shownShift? (line : String) : Option ShiftForm :=
  match (parts line).reverse with
  | amount :: _ :: _ :: mnemonic :: _ =>
    (shiftNamed? mnemonic).bind fun kind => (amountIn? amount).map (.places kind)
  | _ => none

/-- **A line of the 16-bit set shows the five bits themselves.** -/
theorem shownShift?_moveShifted (kind : ShiftKind) (amount : Fin 32) (rs rd : LowReg)
    (raw : Half) :
    shownShift? (Opcode.text ⟨.moveShifted kind amount rs rd, raw⟩)
      = some (.places kind amount.val.toUInt32) := by
  have hblank : IsGap " " := by decide
  have hcomma : IsGap ", " := by decide
  have hblanks : IsGap "  " := by decide
  obtain ⟨hpart, hamount⟩ := amountIn?_toString (Nat.le_of_lt amount.isLt)
  have hline : Opcode.text ⟨.moveShifted kind amount rs rd, raw⟩
      = hex 4 raw.toNat ++ "  " ++ (kind.name ++ " " ++ (rd.name ++ ", " ++ (rs.name ++ ", "
        ++ ("#" ++ toString amount.val)))) := by
    rw [Opcode.text, Instruction.text, show ", #" = ", " ++ "#" from rfl]
    simp only [String.append_assoc]
  have hlow : ∀ r : LowReg, parts r.name = [r.name] := by decide
  rw [shownShift?, hline, parts_append_gap hblanks, parts_append_gap hblank,
    parts_append_gap hcomma, parts_append_gap hcomma, parts_kind, hlow, hlow, hpart,
    List.reverse_append]
  show ((shiftNamed? kind.name).bind fun kind =>
    (amountIn? ("#" ++ toString amount.val)).map (ShiftForm.places kind)) = _
  rw [shiftNamed?_name, hamount]
  rfl

end Thumb

/-! ## The shown shift is the executed one -/

/-- Only one code rotates. -/
theorem ShiftKind.ofCode_ne_ror {n : Word} (hn : n ≤ 3) (hne : n ≠ 3) :
    ShiftKind.ofCode n ≠ .ror := by
  rcases IsPart.two_bits hn with rfl | rfl | rfl | rfl
  · decide
  · decide
  · decide
  · exact absurd rfl hne

/-- No move of the 16-bit set has it. -/
theorem Thumb.kind_ne_ror {h : Half} {kind : ShiftKind} {amount : Fin 32} {rs rd : LowReg}
    (hdecode : (decode h).instruction = .moveShifted kind amount rs rd) : kind ≠ .ror := by
  have row := Encodes.decode h.toUInt32
  rw [show decodeInstruction h.toUInt32 = _ from hdecode] at row
  cases row with
  | moveShifted fixed kind => exact ShiftKind.ofCode_ne_ror (field_le h.toUInt32 11 2) kind

/-- **A shift is executed as it is shown, unless it is a zero to the right in the 16-bit set.**
    Every data-processing word and every transfer of the 32-bit set that shifts a register by
    five bits shows the shift that its operand goes through, whatever is shifted and with
    whatever carry; LSR and ASR by zero show the 32 places that they stand for.  In the 16-bit
    set the five bits are shown as they are, which tells the shift exactly where they are not
    zero or the shift is to the left; elsewhere it goes by 32 places. -/
theorem shown_shift_is_executed_unless_right_by_zero {B : Type} [Bus B] :
    (∀ (w : Word) (op : AluOp) (setFlags : Bool) (rn rd rm : Reg) (kind : ShiftKind)
        (amount : Fin 32),
        (Arm.decode w).instruction
            = .dataProcessing op setFlags rn rd (.shifted rm kind (.immediate amount)) →
          ∃ shown, Arm.shownShift? (Arm.decode w).text = some shown ∧ shown.Tells kind amount
            ∧ (amount = 0 → kind = .lsr ∨ kind = .asr → shown = .places kind 32)
            ∧ ∀ x : Execution B,
              ((Arm.Operand.shifted rm kind (.immediate amount)).evaluate x).1
                = shown.apply (x.read rm .operand) x.core.cpsr.c)
      ∧ (∀ (w : Word) (transfer : TransferKind) (quantity : Quantity) (a : Addressing)
        (rn rd rm : Reg) (kind : ShiftKind) (amount : Fin 32),
        (Arm.decode w).instruction
            = .singleTransfer transfer quantity a rn rd (.shifted rm kind amount) →
          ∃ shown, Arm.shownShift? (Arm.decode w).text = some shown ∧ shown.Tells kind amount
            ∧ (amount = 0 → kind = .lsr ∨ kind = .asr → shown = .places kind 32)
            ∧ ∀ x : Execution B, (Arm.TransferOffset.shifted rm kind amount).evaluate x
                = (shown.apply (x.read rm .operand) x.core.cpsr.c).value)
      ∧ ∀ (h : Half) (kind : ShiftKind) (amount : Fin 32) (rs rd : LowReg),
        (Thumb.decode h).instruction = .moveShifted kind amount rs rd →
          Thumb.shownShift? (Thumb.decode h).text = some (.places kind amount.val.toUInt32)
            ∧ ((ShiftForm.places kind amount.val.toUInt32).Tells kind amount
              ↔ kind = .lsl ∨ amount ≠ 0)
            ∧ (amount = 0 → kind = .lsr ∨ kind = .asr →
              (ShiftForm.places kind 32).Tells kind amount)
            ∧ ∀ x : Execution B, Thumb.execute (Thumb.decode h) x
                = let s := (ShiftForm.ofOpcode kind amount).apply
                    (x.core.registers.read rs.wide) x.core.cpsr.c
                  Thumb.setShiftFlags s (x.setRegister rd.wide s.value) := by
  refine ⟨?_, ?_, ?_⟩
  · intro w op setFlags rn rd rm kind amount hdecode
    have htells := ShiftForm.ofOpcode_tells kind amount
    have hline : EndsIn (Arm.shiftedText rm kind amount) (Arm.decode w).text := by
      rw [Arm.Opcode.text, hdecode]
      exact (Arm.endsIn_dataProcessing op setFlags rn rd _ _).prepend _
    exact ⟨_, Arm.shownShift?_of_endsIn hline, htells, ShiftForm.ofOpcode_right,
      fun x => htells _ _⟩
  · intro w transfer quantity a rn rd rm kind amount hdecode
    have htells := ShiftForm.ofOpcode_tells kind amount
    have hline : EndsIn (Arm.shiftedText rm kind amount) (Arm.decode w).text := by
      rw [Arm.Opcode.text, hdecode]
      exact (Arm.endsIn_singleTransfer transfer quantity a rn rd _ _).prepend _
    exact ⟨_, Arm.shownShift?_of_endsIn hline, htells, ShiftForm.ofOpcode_right,
      fun x => congrArg Shifted.value (htells _ _)⟩
  · intro h kind amount rs rd hdecode
    have htells := ShiftForm.ofOpcode_tells kind amount
    refine ⟨?_, ShiftForm.places_tells_iff amount (Thumb.kind_ne_ror hdecode), ?_, ?_⟩
    · rw [Thumb.Opcode.text, hdecode]
      exact Thumb.shownShift?_moveShifted kind amount rs rd h
    · intro hzero hkind
      rw [← ShiftForm.ofOpcode_right hzero hkind]
      exact htells
    · intro x
      rw [Thumb.execute, hdecode, ← htells]
      rfl

/-- A rotation through the carry and a transfer shifted by 32 places are shown as they are
    executed; LSR by zero in the 16-bit set is shown as no places and goes by 32. -/
theorem shown_shift_is_executed_unless_right_by_zero_of_zeros :
    ((Arm.decode 0xE1B00061).instruction
          = .dataProcessing .mov true 0 0 (.shifted 1 .ror (.immediate 0))
        ∧ Arm.shownShift? (Arm.decode 0xE1B00061).text = some .throughCarry
        ∧ ShiftForm.throughCarry.Tells .ror 0)
      ∧ ((Arm.decode 0xE6110042).instruction
          = .singleTransfer .load .word ⟨.post, .down, false⟩ 1 0 (.shifted 2 .asr 0)
        ∧ Arm.shownShift? (Arm.decode 0xE6110042).text = some (.places .asr 32)
        ∧ (ShiftForm.places .asr 32).Tells .asr 0)
      ∧ (Thumb.decode 0x0808).instruction = .moveShifted .lsr 0 1 0
        ∧ Thumb.shownShift? (Thumb.decode 0x0808).text = some (.places .lsr 0)
        ∧ ¬ (ShiftForm.places .lsr 0).Tells .lsr 0
        ∧ (ShiftForm.places .lsr 32).Tells .lsr 0 := by
  have hdata : (Arm.decode 0xE1B00061).instruction
      = .dataProcessing .mov true 0 0 (.shifted 1 .ror (.immediate 0)) := by decide
  have htransfer : (Arm.decode 0xE6110042).instruction
      = .singleTransfer .load .word ⟨.post, .down, false⟩ 1 0 (.shifted 2 .asr 0) := by decide
  have hmove : (Thumb.decode 0x0808).instruction = .moveShifted .lsr 0 1 0 := by decide
  have hrrx : Arm.shownShift? (Arm.decode 0xE1B00061).text = some .throughCarry := by
    decide +kernel
  obtain ⟨ofData, ofTransfer, ofMove⟩ :=
    shown_shift_is_executed_unless_right_by_zero (B := FlatMemory)
  obtain ⟨first, hfirst, htells, -⟩ := ofData _ _ _ _ _ _ _ _ hdata
  obtain rfl := Option.some.inj (hfirst.symm.trans hrrx)
  obtain ⟨_, hsecond, htells', hright, -⟩ := ofTransfer _ _ _ _ _ _ _ _ _ htransfer
  obtain rfl := hright rfl (Or.inr rfl)
  obtain ⟨hthird, hiff, hfar, -⟩ := ofMove _ _ _ _ _ hmove
  exact ⟨⟨hdata, hrrx, htells⟩, ⟨htransfer, hsecond, htells'⟩, hmove, hthird,
    fun h => absurd (hiff.mp h) (by decide), hfar rfl (Or.inl rfl)⟩

end Armv4t
