import Armv4t.Proofs.Guarded.Arm

/-! # Guarded execution, the 16-bit set — no instruction goes out of range

    The 16-bit set on a running flight.  What differs from the 32-bit set is where a
    register goes into a list that is one byte long, the two shifts of a long branch,
    and a condition that is evaluated by the instruction and not before it; everything
    else is a guarded unit that the 32-bit set uses as well. -/

namespace Armv4t

open Bus

namespace Thumb.Guarded

open Armv4t.Guarded

variable {B : Type}

/-- Sets N and Z from a shifted value and C from the shifter. -/
def setShiftFlags (s : Shifted) (t : Running B) : Option (Running B) :=
  t.updateCpsr (setShifted · s)

/-- A data-processing operation on an operand that is not shifted. -/
def compute (op : AluOp) (first second : Word) (p : Psr) : Option AluResult := do
  let carry ← carry p
  Armv4t.Guarded.compute op first ⟨second, carry⟩ carry (← overflow p)

/-- A data-processing operation into a low register, unless it is a test. -/
def applyAlu (op : AluOp) (rd : LowReg) (first second : Word) (t : Running B) :
    Option (Running B) := do
  let result ← compute op first second t.flight.core.cpsr
  let t := if op.test then t else t.map (·.setRegister rd.wide result.value)
  t.updateCpsr (setFlags · result.flags)

/-- Moves a register shifted by an amount from the opcode. -/
def moveShifted (kind : ShiftKind) (amount : Fin 32) (rs rd : LowReg) (t : Running B) :
    Option (Running B) := do
  let k := t.flight.core
  let s ← Guarded.shift kind .opcode (k.registers.read rs.wide) amount.val.toUInt32
    (← carry k.cpsr)
  setShiftFlags s (t.map (·.setRegister rd.wide s.value))

/-- Adds or subtracts a register or a small number. -/
def addSubtract (subtract : Bool) (operand : AddOperand) (rs rd : LowReg) (t : Running B) :
    Option (Running B) :=
  let k := t.flight.core
  let second := match operand with
    | .immediate n => n.val.toUInt32
    | .register rn => k.registers.read rn.wide
  applyAlu (if subtract then .sub else .add) rd (k.registers.read rs.wide) second t

/-- Moves, compares, adds or subtracts an immediate. -/
def immediateOp (op : ImmediateOp) (rd : LowReg) (value : Word) (t : Running B) :
    Option (Running B) :=
  let first := t.flight.core.registers.read rd.wide
  match op with
  | .mov => (t.map (·.setRegister rd.wide value)).updateCpsr (setNZ · value)
  | .cmp => applyAlu .cmp rd first value t
  | .add => applyAlu .add rd first value t
  | .sub => applyAlu .sub rd first value t

/-- Shifts a low register by the lowest byte of another one. -/
def shiftByRegister (kind : ShiftKind) (rs rd : LowReg) (t : Running B) :
    Option (Running B) := do
  let k := t.flight.core
  let amount := k.registers.read rs.wide &&& 0xFF
  let s ← Guarded.shift kind .register (k.registers.read rd.wide) amount (← carry k.cpsr)
  let t ← t.wait 1
  setShiftFlags s (t.map (·.setRegister rd.wide s.value))

/-- Multiplies two low registers; the old destination is the multiplier. -/
def multiply (rs rd : LowReg) (t : Running B) : Option (Running B) := do
  let k := t.flight.core
  let multiplier := k.registers.read rd.wide
  let result := multiplier * k.registers.read rs.wide
  let t ← t.wait (multiplierCycles multiplier true)
  (t.map (·.setRegister rd.wide result)).updateCpsr (setNZ · result)

/-- An operation on two low registers. -/
def registerOp (op : RegisterOp) (rs rd : LowReg) (t : Running B) : Option (Running B) :=
  let k := t.flight.core
  match op with
  | .lsl => shiftByRegister .lsl rs rd t
  | .lsr => shiftByRegister .lsr rs rd t
  | .asr => shiftByRegister .asr rs rd t
  | .ror => shiftByRegister .ror rs rd t
  | .neg => applyAlu .rsb rd (k.registers.read rs.wide) 0 t
  | .mul => multiply rs rd t
  | op =>
    match op.alu? with
    | some alu => applyAlu alu rd (k.registers.read rd.wide) (k.registers.read rs.wide) t
    | none => some t

/-- An operation on any two registers.  Only the comparison sets flags. -/
def highOp (op : HighOp) (rs rd : Reg) (t : Running B) : Option (Running B) := do
  let k := t.flight.core
  let source ← read k rs .operand
  match op with
  | .add => t.writeRegister rd ((← read k rd .operand) + source)
  | .cmp =>
    let result ← compute .cmp (← read k rd .operand) source k.cpsr
    t.updateCpsr (setFlags · result.flags)
  | .mov => t.writeRegister rd source
  | .bx => Arm.Guarded.branchExchange rs t

/-- The base of the address of something in the code or on the stack. -/
def addressBase (fromStack : Bool) (k : Core) : Option Word :=
  if fromStack then some (k.registers.read Reg.sp) else effectivePc k .literalBase

/-- The address of something in the code or on the stack. -/
def loadAddress (fromStack : Bool) (rd : LowReg) (offset : Word) (t : Running B) :
    Option (Running B) := do
  let base ← addressBase fromStack t.flight.core
  some (t.map (·.setRegister rd.wide (base + offset)))

/-- Moves the stack pointer. -/
def adjustStack (subtract : Bool) (offset : Word) (t : Running B) : Running B :=
  let sp := t.flight.core.registers.read Reg.sp
  t.map (·.setRegister Reg.sp (if subtract then sp - offset else sp + offset))

/-- A branch. -/
def branch (offset : Word) (t : Running B) : Option (Running B) := do
  t.branchTo ((← effectivePc t.flight.core .branchBase) + offset)

/-- One half of a long branch. -/
def longBranch (second : Bool) (offset : Word) (t : Running B) : Option (Running B) := do
  let k := t.flight.core
  if second then
    let target := k.registers.read Reg.lr + (← shiftLeft offset 1)
    (t.map (·.setRegister Reg.lr ((k.pc + 2) ||| 1))).branchTo target
  else
    let high ← shiftLeft (← signExtended offset 11) 12
    let base ← effectivePc k .branchBase
    some (t.map (·.setRegister Reg.lr (base + high)))

/-- A list with one register more, or with nothing more. -/
def listWith (extra : Bool) (i : Word) (list : Half) : Option Half := do
  let mask ← one 16 i
  some (if extra then list ||| mask.toUInt16 else list)

variable [Bus B]

/-- Ends a load: one internal cycle, then the loaded value. -/
def accept (rd : LowReg) (loaded : Option (Word × Running B)) : Option (Running B) := do
  let (v, t) ← loaded
  let t ← t.wait 1
  some (t.map (·.setRegister rd.wide v))

/-- A word or byte transfer at an address. -/
def transfer (kind : TransferKind) (quantity : Quantity) (rd : LowReg) (address : Word)
    (t : Running B) : Option (Running B) := do
  match kind with
  | .load => accept rd (t.loadQuantity quantity address)
  | .store =>
    let t ← t.storeQuantity quantity address (t.flight.core.registers.read rd.wide)
    some (t.map (·.scatter))

/-- A halfword or signed transfer at an address. -/
def halfTransfer (kind : HalfTransfer) (rd : LowReg) (address : Word) (t : Running B) :
    Option (Running B) := do
  match kind with
  | .storeHalf =>
    let t ← t.store .half false address (t.flight.core.registers.read rd.wide)
    some (t.map (·.scatter))
  | .loadHalf => accept rd (t.loadHalf address)
  | .loadSignedByte => accept rd (t.loadSignedByte address)
  | .loadSignedHalf => accept rd (t.loadSignedHalf address)

/-- A push stores downwards from the stack pointer, a pop loads upwards from it. -/
def pushPop (kind : TransferKind) (extra : Bool) (list : Half) (t : Running B) :
    Option (Running B) := do
  match kind with
  | .store =>
    t.transferBlock .store ⟨.pre, .down, true⟩ false Reg.sp (← listWith extra 14 list)
  | .load =>
    t.transferBlock .load ⟨.post, .up, true⟩ false Reg.sp (← listWith extra 15 list)

/-- Executes an instruction of the 16-bit set. -/
def execute (o : Opcode) (t : Running B) : Option (Running B) := do
  let k := t.flight.core
  let low (r : LowReg) : Word := k.registers.read r.wide
  match o.instruction with
  | .moveShifted kind amount rs rd => moveShifted kind amount rs rd t
  | .addSubtract subtract operand rs rd => addSubtract subtract operand rs rd t
  | .immediateOp op rd value => immediateOp op rd value t
  | .registerOp op rs rd => registerOp op rs rd t
  | .highOp op rs rd => highOp op rs rd t
  | .loadLiteral rd offset =>
    transfer .load .word rd ((← effectivePc k .literalBase) + offset) t
  | .transferByRegister kind quantity ro rb rd => transfer kind quantity rd (low rb + low ro) t
  | .halfByRegister kind ro rb rd => halfTransfer kind rd (low rb + low ro) t
  | .transferByOffset kind quantity offset rb rd => transfer kind quantity rd (low rb + offset) t
  | .halfByOffset .load offset rb rd => halfTransfer .loadHalf rd (low rb + offset) t
  | .halfByOffset .store offset rb rd => halfTransfer .storeHalf rd (low rb + offset) t
  | .stackTransfer kind rd offset =>
    transfer kind .word rd (k.registers.read Reg.sp + offset) t
  | .loadAddress fromStack rd offset => loadAddress fromStack rd offset t
  | .adjustStack subtract offset => some (adjustStack subtract offset t)
  | .pushPop kind extra list => pushPop kind extra list t
  | .blockTransfer kind rb list => t.transferBlock kind ⟨.post, .up, true⟩ false rb.wide list
  | .branchIf condition offset =>
    if ← satisfies k.cpsr condition then branch offset t else some t
  | .softwareInterrupt _ => t.takeException .softwareInterrupt
  | .branch offset => branch offset t
  | .longBranch second offset => longBranch second offset t
  | .undefined => (t.map (·.tell (.undefinedThumb k.pc o.raw))).takeException .undefined

/-! ## Every instruction passes -/

omit [Bus B] in
/-- The two flags that enter the arithmetic are single bits, whatever the status is. -/
@[simp] theorem compute_eq (op : AluOp) (first second : Word) (x : Execution B) :
    compute op first second x.core.cpsr = some (Thumb.compute op first second x) := by
  simp [compute, Thumb.compute]

/-- The two lists of a push and a pop. -/
theorem listWith_eq (extra : Bool) (list : Half) :
    listWith extra 14 list = some (if extra then list ||| 0x4000 else list)
      ∧ listWith extra 15 list = some (if extra then list ||| 0x8000 else list) :=
  ⟨rfl, rfl⟩

variable {b : B} {k : Nat} {t : Running B}

/-- The flags of a shift are set without a charge. -/
theorem setShiftFlags_follows (s : Shifted) (h : Fair b k t) :
    Gives (setShiftFlags s t) (Follows b k (Thumb.setShiftFlags s t.flight)) :=
  h.updateCpsr fun p => setShifted_eq p s

/-- The sum and its overflow stay in range for every pair of operands, and are not charged. -/
theorem applyAlu_follows (op : AluOp) (rd : LowReg) (first second : Word) (h : Fair b k t) :
    Gives (applyAlu op rd first second t)
      (Follows b k (Thumb.applyAlu op rd first second t.flight)) := by
  simp only [applyAlu, Thumb.applyAlu, compute_eq, Option.bind_eq_bind, Option.bind_some]
  generalize Thumb.compute op first second t.flight = result
  obtain ⟨ht, h₁⟩ := Follows.ite (c := op.test = true) h.still
    (h.setRegister rd.wide result.value)
  rw [← ht]
  exact h₁.updateCpsr fun p => setFlags_eq p _

/-- A shift by an amount from the opcode never shifts a word by its own width. -/
theorem moveShifted_follows (kind : ShiftKind) (amount : Fin 32) (rs rd : LowReg)
    (h : Fair b k t) :
    Gives (moveShifted kind amount rs rd t)
      (Follows b k (Thumb.moveShifted kind amount rs rd t.flight)) := by
  simp only [moveShifted, carry_eq, Guarded.shift_eq, Option.bind_eq_bind, Option.bind_some]
  exact setShiftFlags_follows _ (h.setRegister rd.wide _).2

/-- The immediate has eight bits, but nothing here depends on that. -/
theorem immediateOp_follows (op : ImmediateOp) (rd : LowReg) (value : Word)
    (h : Fair b k t) :
    Gives (immediateOp op rd value t)
      (Follows b k (Thumb.immediateOp op rd value t.flight)) := by
  cases op with
  | mov => exact (h.setRegister rd.wide value).2.updateCpsr fun p => setNZ_eq p value
  | cmp => exact applyAlu_follows .cmp rd _ value h
  | add => exact applyAlu_follows .add rd _ value h
  | sub => exact applyAlu_follows .sub rd _ value h

/-- The amount is a byte and may be far past the width; the shifter splits it before it
    shifts, and the one cycle is the only charge. -/
theorem shiftByRegister_follows (kind : ShiftKind) (rs rd : LowReg) (h : Fair b 0 t) :
    Gives (shiftByRegister kind rs rd t)
      (Follows b 1 (Thumb.shiftByRegister kind rs rd t.flight)) := by
  simp only [shiftByRegister, Thumb.shiftByRegister, carry_eq, Guarded.shift_eq,
    Option.bind_eq_bind, Option.bind_some]
  refine (h.waitOne (by decide)).bind ?_
  rintro t₁ ⟨ht, h₁⟩
  rw [← ht]
  exact setShiftFlags_follows _ (h₁.setRegister rd.wide _).2

/-- The multiplier takes four cycles at most, and they are charged at once. -/
theorem multiply_follows (rs rd : LowReg) (h : Fair b 0 t) :
    Gives (multiply rs rd t) (Follows b 1 (Thumb.multiply rs rd t.flight)) := by
  obtain ⟨hlow, hhigh⟩ :=
    Arm.Guarded.multiplierCycles_bounds (t.flight.core.registers.read rd.wide) true
  refine (h.wait (by decide) (by omega) (by omega)).bind ?_
  rintro t₁ ⟨ht, h₁⟩
  rw [Thumb.multiply, ← ht]
  exact (h₁.setRegister rd.wide _).2.updateCpsr fun p => setNZ_eq p _

/-- No operation on two low registers is charged more than once. -/
theorem registerOp_follows (op : RegisterOp) (rs rd : LowReg) (h : Fair b 0 t) :
    Gives (registerOp op rs rd t) (Follows b 1 (Thumb.registerOp op rs rd t.flight)) := by
  have halu (alu : AluOp) (first second : Word) :
      Gives (applyAlu alu rd first second t)
        (Follows b 1 (Thumb.applyAlu alu rd first second t.flight)) :=
    (applyAlu_follows alu rd first second h).within (by decide)
  cases op with
  | lsl => exact shiftByRegister_follows .lsl rs rd h
  | lsr => exact shiftByRegister_follows .lsr rs rd h
  | asr => exact shiftByRegister_follows .asr rs rd h
  | ror => exact shiftByRegister_follows .ror rs rd h
  | neg => exact halu .rsb _ 0
  | mul => exact multiply_follows rs rd h
  | and | eor | adc | sbc | tst | cmp | cmn | orr | bic | mvn => exact halu _ _ _

/-- Any of the sixteen registers may stand on either side; reading R15 stays in range. -/
theorem highOp_follows (op : HighOp) (rs rd : Reg) (h : Fair b 0 t) :
    Gives (highOp op rs rd t) (Follows b 0 (Thumb.highOp op rs rd t.flight)) := by
  cases op with
  | add =>
      simp only [highOp, read_eq, Option.bind_eq_bind, Option.bind_some]
      exact h.writeRegister rd _
  | cmp =>
      simp only [highOp, read_eq, compute_eq, Option.bind_eq_bind, Option.bind_some]
      exact h.updateCpsr fun p => setFlags_eq p _
  | mov =>
      simp only [highOp, read_eq, Option.bind_eq_bind, Option.bind_some]
      exact h.writeRegister rd _
  | bx =>
      simp only [highOp, read_eq, Option.bind_eq_bind, Option.bind_some]
      exact Arm.Guarded.branchExchange_follows rs h

/-- An address is computed and not accessed, so that nothing is charged. -/
theorem loadAddress_follows (fromStack : Bool) (rd : LowReg) (offset : Word)
    (h : Fair b k t) :
    Gives (loadAddress fromStack rd offset t)
      (Follows b k (Thumb.loadAddress fromStack rd offset t.flight)) := by
  have hbase : addressBase fromStack t.flight.core = some (if fromStack then
      t.flight.core.registers.read Reg.sp else t.flight.core.effectivePc .literalBase) := by
    cases fromStack <;> simp [addressBase]
  rw [loadAddress, hbase]
  exact gives_some (h.setRegister rd.wide _)

/-- A branch target is a wrapping sum, and in range wherever it lands. -/
theorem branch_follows (offset : Word) (h : Fair b k t) :
    Gives (branch offset t) (Follows b k (Thumb.branch offset t.flight)) := by
  rw [branch, effectivePc_eq]
  exact h.branchTo _

/-- Both shifts of a long branch move by less than a word: by one, and by twelve after the
    sign was extended from bit 10. -/
theorem longBranch_follows (second : Bool) (offset : Word) (h : Fair b k t) :
    Gives (longBranch second offset t)
      (Follows b k (Thumb.longBranch second offset t.flight)) := by
  cases second with
  | true =>
      rw [longBranch, if_pos rfl, shiftLeft_eq (by decide)]
      exact (h.setRegister Reg.lr _).2.branchTo _
  | false =>
      simp only [longBranch, signExtended_eq (show (0 : Word) < 11 by decide)
        (show (11 : Word) ≤ 32 by decide), shiftLeft_eq (show (12 : Word) < 32 by decide),
        effectivePc_eq, Option.bind_eq_bind, Option.bind_some]
      exact gives_some (h.setRegister Reg.lr _)

/-! ## Transfers -/

/-- A load is charged twice, for its access and for the cycle after it. -/
theorem accept_follows (rd : LowReg) {loaded : Option (Word × Running B)}
    {r : Word × Execution B} (h : Gives loaded (Loads b 1 r)) :
    Gives (accept rd loaded) (Follows b 2 ((r.2.wait 1).setRegister rd.wide r.1)) := by
  refine h.bind ?_
  rintro ⟨v, t₁⟩ ⟨rfl, ht₁, h₁⟩
  refine (h₁.waitOne (by decide)).bind ?_
  rintro t₂ ⟨ht₂, h₂⟩
  rw [← ht₁, ← ht₂]
  exact gives_some (h₂.setRegister rd.wide _)

/-- What was stored ends the run of code fetches. -/
theorem scatter_follows {stored : Option (Running B)} {x : Execution B}
    (h : Gives stored (Follows b 1 x)) :
    Gives (stored.bind fun t => some (t.map (·.scatter))) (Follows b 2 x.scatter) := by
  refine h.bind ?_
  rintro t₁ ⟨ht, h₁⟩
  rw [← ht]
  exact (gives_some h₁.scatter).within (by decide)

/-- No transfer of one word or byte takes more than two charges. -/
theorem transfer_follows (kind : TransferKind) (quantity : Quantity) (rd : LowReg)
    (address : Word) (h : Fair b 0 t) :
    Gives (transfer kind quantity rd address t)
      (Follows b 2 (Thumb.transfer kind quantity rd address t.flight)) := by
  cases kind with
  | load => exact accept_follows rd (h.loadQuantity (by decide) quantity address)
  | store => exact scatter_follows (h.storeQuantity (by decide) quantity address _)

/-- The same of a halfword, and of what is read with its sign. -/
theorem halfTransfer_follows (kind : HalfTransfer) (rd : LowReg) (address : Word)
    (h : Fair b 0 t) :
    Gives (halfTransfer kind rd address t)
      (Follows b 2 (Thumb.halfTransfer kind rd address t.flight)) := by
  cases kind with
  | storeHalf => exact scatter_follows (h.store (by decide) .half false address _)
  | loadHalf => exact accept_follows rd (h.loadHalf (by decide) address)
  | loadSignedByte => exact accept_follows rd (h.loadSignedByte (by decide) address)
  | loadSignedHalf => exact accept_follows rd (h.loadSignedHalf (by decide) address)

/-- Nine registers at most are in the list; the bound is that of any block transfer. -/
theorem pushPop_follows (kind : TransferKind) (extra : Bool) (list : Half)
    (h : Fair b 0 t) :
    Gives (pushPop kind extra list t)
      (Follows b 17 (Thumb.pushPop kind extra list t.flight)) := by
  obtain ⟨hpush, hpop⟩ := listWith_eq extra list
  cases kind with
  | load =>
      rw [pushPop, hpop]
      exact h.transferBlock .load _ false Reg.sp _
  | store =>
      rw [pushPop, hpush]
      exact h.transferBlock .store _ false Reg.sp _

/-- **Every instruction of the 16-bit set** has a result on a flight that was not charged
    yet, and it is the plain one, after seventeen charges at most. -/
theorem execute_follows (o : Opcode) (h : Fair b 0 t) :
    Gives (execute o t) (Follows b 17 (Thumb.execute o t.flight)) := by
  rw [execute, Thumb.execute]
  cases o.instruction with
  | moveShifted kind amount rs rd =>
      exact (moveShifted_follows kind amount rs rd h).within (by decide)
  | addSubtract subtract operand rs rd =>
      exact (applyAlu_follows _ rd _ _ h).within (by decide)
  | immediateOp op rd value => exact (immediateOp_follows op rd value h).within (by decide)
  | registerOp op rs rd => exact (registerOp_follows op rs rd h).within (by decide)
  | highOp op rs rd => exact (highOp_follows op rs rd h).within (by decide)
  | loadLiteral rd offset =>
      simp only [effectivePc_eq, Option.bind_eq_bind, Option.bind_some]
      exact (transfer_follows .load .word rd _ h).within (by decide)
  | transferByRegister kind quantity ro rb rd =>
      exact (transfer_follows kind quantity rd _ h).within (by decide)
  | halfByRegister kind ro rb rd =>
      exact (halfTransfer_follows kind rd _ h).within (by decide)
  | transferByOffset kind quantity offset rb rd =>
      exact (transfer_follows kind quantity rd _ h).within (by decide)
  | halfByOffset kind offset rb rd =>
      cases kind with
      | load => exact (halfTransfer_follows .loadHalf rd _ h).within (by decide)
      | store => exact (halfTransfer_follows .storeHalf rd _ h).within (by decide)
  | stackTransfer kind rd offset =>
      exact (transfer_follows kind .word rd _ h).within (by decide)
  | loadAddress fromStack rd offset =>
      exact (loadAddress_follows fromStack rd offset h).within (by decide)
  | adjustStack subtract offset =>
      exact (gives_some (h.setRegister Reg.sp _)).within (by decide)
  | pushPop kind extra list => exact pushPop_follows kind extra list h
  | blockTransfer kind rb list => exact h.transferBlock kind _ false rb.wide list
  | branchIf condition offset =>
      simp only [satisfies_eq, Option.bind_eq_bind, Option.bind_some]
      cases t.flight.core.cpsr.satisfies condition with
      | true => exact (branch_follows offset h).within (by decide)
      | false => exact h.done.within (by decide)
  | softwareInterrupt comment =>
      exact (h.takeException .softwareInterrupt).within (by decide)
  | branch offset => exact (branch_follows offset h).within (by decide)
  | longBranch second offset => exact (longBranch_follows second offset h).within (by decide)
  | undefined => exact ((h.tell _).2.takeException .undefined).within (by decide)

end Thumb.Guarded

end Armv4t
