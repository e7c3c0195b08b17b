import Armv4t.Arm.Assembly
import Armv4t.Proofs.Guarded.Block
import Armv4t.Thumb.Assembly

/-! # Guarded text — the trace asks for no bit that a list does not have

    A step tells the trace which instruction it executes.  Most of an instruction is
    shown as it was decoded; a rotated immediate is read from its twelve bits, and a
    register list is asked for its bits, sixteen of them in the 32-bit set and eight in
    the 16-bit set. -/

namespace Armv4t

open Guarded

namespace Arm.Guarded

/-- A rotated immediate as the number it stands for. -/
def immediateText (i : RotatedImmediate) : Option String := do
  let (value, distance) ← immediateParts i
  some ("#0x" ++ hex 1 (rotateRight value distance).toNat)

/-- The second operand of data processing. -/
def operandText : Operand → Option String
  | .immediate i => immediateText i
  | .shifted rm kind amount => some (Operand.shifted rm kind amount).text

/-- The value that a status transfer writes. -/
def statusOperandText : StatusOperand → Option String
  | .immediate i => immediateText i
  | .register rm => some rm.name

/-- Data processing in assembler text, with its second operand. -/
def dataText (op : AluOp) (setFlags : Bool) (rn rd : Reg) (shown : String)
    (condition : Condition) : String :=
  let start := op.name ++ condition.suffix
  let s := if setFlags then "S" else ""
  if op.test then start ++ " " ++ rn.name ++ ", " ++ shown
  else if op.move then start ++ s ++ " " ++ rd.name ++ ", " ++ shown
  else start ++ s ++ " " ++ rd.name ++ ", " ++ rn.name ++ ", " ++ shown

/-- A block transfer in assembler text, with the registers of its list. -/
def blockText (kind : TransferKind) (a : Addressing) (s : Bool) (rn : Reg)
    (registers : List Reg) (condition : Condition) : String :=
  let mnemonic := match kind with
    | .load => "LDM"
    | .store => "STM"
  mnemonic ++ condition.suffix ++ blockSuffix a ++ " " ++ rn.name
    ++ (if a.writeBack then "!" else "") ++ ", "
    ++ bracedList (registers.map Reg.name) ++ (if s then "^" else "")

/-- An instruction in assembler text. -/
def instructionText (i : Instruction) (condition : Condition) : Option String := do
  match i with
  | .dataProcessing op setFlags rn rd operand =>
    some (dataText op setFlags rn rd (← operandText operand) condition)
  | .moveToStatus target fields operand =>
    some ("MSR" ++ condition.suffix ++ " " ++ target.text ++ "_" ++ fields.text ++ ", "
      ++ (← statusOperandText operand))
  | .blockTransfer kind a s rn list =>
    some (blockText kind a s rn (← Guarded.registersIn list.toUInt32) condition)
  | i => some (i.text condition)

/-- The word in hexadecimal and its instruction. -/
def text (o : Opcode) : Option String := do
  some (hex 8 o.raw.toNat ++ "  " ++ (← instructionText o.instruction o.condition))

/-- The rotation of an immediate is at most thirty, and fits. -/
@[simp] theorem immediateText_eq (i : RotatedImmediate) :
    immediateText i = some (Arm.immediateText i) := by
  simp [immediateText, Arm.immediateText]

/-- Of the second operands only an immediate is computed to be shown. -/
@[simp] theorem operandText_eq (o : Operand) : operandText o = some o.text := by
  cases o <;> simp [operandText, Operand.text]

/-- The same of what a status transfer writes. -/
@[simp] theorem statusOperandText_eq (o : StatusOperand) :
    statusOperandText o = some o.text := by
  cases o <;> simp [statusOperandText, StatusOperand.text]

/-- A list has all the bits that it is asked for. -/
@[simp] theorem registersIn_eq (list : Half) :
    Guarded.registersIn list.toUInt32 = some (Armv4t.registersIn list) :=
  keep_eq (getBit_reg _) Reg.all

/-- Every word of the 32-bit set can be shown. -/
@[simp] theorem text_eq (o : Opcode) : text o = some o.text := by
  rw [text, Opcode.text]
  cases o.instruction with
  | dataProcessing op setFlags rn rd operand =>
      simp only [instructionText, operandText_eq, Option.bind_eq_bind, Option.bind_some]
      rfl
  | moveToStatus target fields operand =>
      simp only [instructionText, statusOperandText_eq, Option.bind_eq_bind, Option.bind_some]
      rfl
  | blockTransfer kind a s rn list =>
      simp only [instructionText, registersIn_eq, Option.bind_eq_bind, Option.bind_some]
      rfl
  | _ => rfl

end Arm.Guarded

namespace Thumb.Guarded

/-- The low registers of a list. -/
def lowNames (list : Half) : Option (List String) := do
  let low := Reg.all.filter fun r => r.val < 8
  let registers ← keep (fun r => getBit 16 list.toUInt32 r.val.toUInt32) low
  some (registers.map Reg.name)

/-- An instruction in assembler text. -/
def instructionText (i : Instruction) : Option String := do
  match i with
  | .pushPop .load extra list =>
    some ("POP " ++ bracedList ((← lowNames list) ++ if extra then ["PC"] else []))
  | .pushPop .store extra list =>
    some ("PUSH " ++ bracedList ((← lowNames list) ++ if extra then ["LR"] else []))
  | .blockTransfer kind rb list =>
    let mnemonic := match kind with
      | .load => "LDMIA "
      | .store => "STMIA "
    some (mnemonic ++ rb.name ++ "!, " ++ bracedList (← lowNames list))
  | i => some i.text

/-- The halfword in hexadecimal and its instruction. -/
def text (o : Opcode) : Option String := do
  some (hex 4 o.raw.toNat ++ "  " ++ (← instructionText o.instruction))

/-- A list of the 16-bit set is asked for its eight low bits only. -/
@[simp] theorem lowNames_eq (list : Half) : lowNames list = some (Thumb.lowNames list) := by
  have hkeep := keep_eq (getBit_reg list.toUInt32) (Reg.all.filter fun r => r.val < 8)
  simp only [lowNames, hkeep, Thumb.lowNames, Armv4t.registersIn, List.filter_filter,
    Option.bind_eq_bind, Option.bind_some, Bool.and_comm]

/-- Every halfword can be shown. -/
@[simp] theorem text_eq (o : Opcode) : text o = some o.text := by
  rw [text, Opcode.text]
  cases o.instruction with
  | pushPop kind extra list =>
      cases kind <;>
        simp only [instructionText, lowNames_eq, Option.bind_eq_bind, Option.bind_some] <;> rfl
  | blockTransfer kind rb list =>
      simp only [instructionText, lowNames_eq, Option.bind_eq_bind, Option.bind_some]
      rfl
  | _ => rfl

end Thumb.Guarded

end Armv4t
