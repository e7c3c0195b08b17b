import Armv4t.Proofs.Step

/-! # Footprints — what an instruction leaves to be charged for

    Three things about an instruction in flight decide, beside its internal cycles,
    what it costs: the data accesses it made, one after the other, whether it scattered
    its code fetch, and whether it wrote R15.  Together they are its footprint.

    Each instruction leaves a footprint that is known before it is carried out, from
    its fields and the core it starts from: a store scatters, a block touches
    successive words, and what writes R15 is plain from the instruction, the condition
    of a branch aside (`Arm.footprint_execute`, `Thumb.footprint_execute`). -/

namespace Armv4t

/-- An access as a bus charges for it. -/
structure Charge where
  sequential : Bool
  wide : Bool
  address : Word
  deriving DecidableEq, Repr

/-- What the bus sees of a data access. -/
def Access.charge (a : Access) : Charge := ⟨a.sequential, a.width.isWord, a.address⟩

/-- The data accesses of an instruction in order, whether it scattered its code fetch,
    and whether it wrote R15. -/
structure Footprint where
  charges : List Charge
  scattered : Bool
  flushed : Bool
  deriving DecidableEq, Repr

namespace Footprint

/-- Nothing was done. -/
def empty : Footprint := ⟨[], false, false⟩

/-- A write to R15. -/
def branch : Footprint := ⟨[], false, true⟩

/-- One data access. -/
def access (c : Charge) : Footprint := ⟨[c], false, false⟩

/-- A store, once its accesses are made. -/
def store : Footprint := ⟨[], true, false⟩

/-- A write to a register. -/
def write (r : Reg) : Footprint := ⟨[], false, decide (r = Reg.pc)⟩

/-- Writes to some registers. -/
def writes (rs : List Reg) : Footprint := ⟨[], false, decide (Reg.pc ∈ rs)⟩

/-- Word accesses at successive words from an address on.  The first one may stand
    alone; the others follow on. -/
def words (first : Bool) (a : Word) (count : Nat) : Footprint :=
  ⟨(List.range count).map fun j => ⟨!(first && j == 0), true, a + 4 * j.toUInt32⟩, false, false⟩

/-- One footprint after another. -/
def append (f g : Footprint) : Footprint :=
  ⟨f.charges ++ g.charges, f.scattered || g.scattered, f.flushed || g.flushed⟩

instance : Append Footprint := ⟨append⟩

variable (f g h : Footprint)

theorem append_eq :
    f ++ g = ⟨f.charges ++ g.charges, f.scattered || g.scattered, f.flushed || g.flushed⟩ := rfl

@[simp] theorem append_empty : f ++ empty = f := by
  simp [append_eq, empty]

@[simp] theorem empty_append : empty ++ f = f := by
  simp [append_eq, empty]

/-- Footprints are put together like the instructions that leave them, one after another. -/
theorem append_assoc : f ++ g ++ h = f ++ (g ++ h) := by
  simp [append_eq, List.append_assoc, Bool.or_assoc]

/-- A register that is not R15 leaves nothing. -/
theorem write_of_ne {r : Reg} (hr : r ≠ Reg.pc) : write r = empty := by
  rw [write, empty, decide_eq_false hr]

@[simp] theorem write_pc : write Reg.pc = branch := rfl

/-- A list of registers is written one by one. -/
theorem writes_cons (r : Reg) (rs : List Reg) : writes (r :: rs) = write r ++ writes rs := by
  have h : decide (Reg.pc ∈ r :: rs) = (decide (r = Reg.pc) || decide (Reg.pc ∈ rs)) := by
    rw [← Bool.decide_or, decide_eq_decide, List.mem_cons, eq_comm]
  rw [append_eq, writes, h]
  rfl

/-- The words of a block, the first one apart. -/
theorem words_succ (first : Bool) (a : Word) (count : Nat) :
    words first a (count + 1) = access ⟨!first, true, a⟩ ++ words false (a + 4) count := by
  rw [append_eq, words, List.range_succ_eq_map, List.map_cons, List.map_map]
  simp only [words, access, Function.comp_def, Nat.toUInt32_eq, wordAddress_succ]
  simp

/-- A write may be counted before the accesses that come after it or behind them. -/
theorem write_append_words (r : Reg) (first : Bool) (a : Word) (count : Nat) :
    write r ++ words first a count = words first a count ++ write r := by
  simp [append_eq, write, words]

end Footprint

namespace Execution

variable {B : Type} (x : Execution B)

/-- The footprint that an instruction has left so far. -/
def footprint : Footprint := ⟨x.accesses.map Access.charge, x.scattered, x.flushed⟩

/-- Before its first action an instruction has left nothing. -/
@[simp] theorem footprint_start (k : Core) (b : B) : (start k b).footprint = .empty := rfl

/-! ## What each action leaves -/

@[simp] theorem footprint_wait (n : Int32) : (x.wait n).footprint = x.footprint := rfl

@[simp] theorem footprint_withCore (k : Core) : (x.withCore k).footprint = x.footprint := rfl

@[simp] theorem footprint_setRegister (i : Reg) (v : Word) :
    (x.setRegister i v).footprint = x.footprint := rfl

@[simp] theorem footprint_updateCpsr (f : Psr → Psr) :
    (x.updateCpsr f).footprint = x.footprint := rfl

/-- Scattering is what a store leaves behind its accesses. -/
@[simp] theorem footprint_scatter : x.scatter.footprint = x.footprint ++ .store := by
  simp [footprint, scatter, accesses, Footprint.append_eq, Footprint.store]

/-- Writing R15 flushes the pipeline, once or again. -/
@[simp] theorem footprint_branchTo (a : Word) :
    (x.branchTo a).footprint = x.footprint ++ .branch := by
  simp [footprint, branchTo, accesses, Footprint.append_eq, Footprint.branch]

/-- An event is no access. -/
theorem accesses_event (e : Event) (trail : List Activity) :
    { x with trail := .event e :: trail }.accesses = { x with trail }.accesses := by
  simp [accesses]

/-- An access comes after those before it. -/
theorem accesses_access (a : Access) (trail : List Activity) :
    { x with trail := .access a :: trail }.accesses = { x with trail }.accesses ++ [a] := by
  simp [accesses]

/-- Events leave nothing. -/
theorem footprint_events (es : List Event) (core : Core) :
    { x with core, trail := es.map Activity.event ++ x.trail }.footprint = x.footprint := by
  have h : { x with trail := es.map Activity.event ++ x.trail }.accesses = x.accesses := by
    induction es with
    | nil => rfl
    | cons e es ih => exact (x.accesses_event e _).trans ih
  exact congrArg (fun as : List Access => (⟨as.map Access.charge, _, _⟩ : Footprint)) h

@[simp] theorem footprint_tell (e : Event) : (x.tell e).footprint = x.footprint :=
  x.footprint_events [e] x.core

/-- Of all that an entry does, only the write to R15 is charged for. -/
@[simp] theorem footprint_takeException (e : Exception) :
    (x.takeException e).footprint = x.footprint ++ .branch := by
  obtain ⟨es, hes⟩ := x.takeException_eq e
  rw [hes]
  -- what is told of the entry is no access, so that the write to R15 is all
  have h := { x with flushed := true }.footprint_events es (x.core.enter e)
  refine h.trans ?_
  simp [footprint, accesses, Footprint.append_eq, Footprint.branch]

/-- A register write leaves what its destination does. -/
@[simp] theorem footprint_writeRegister (i : Reg) (v : Word) :
    (x.writeRegister i v).footprint = x.footprint ++ .write i := by
  rw [writeRegister]
  by_cases hi : i = Reg.pc
  · rw [if_pos hi, footprint_branchTo, hi, Footprint.write_pc]
  · rw [if_neg hi, Footprint.write_of_ne hi, Footprint.append_empty, footprint_setRegister]

/-- The base is never written where it is R15, so that moving it leaves nothing. -/
@[simp] theorem footprint_writeBase (i : Reg) (v : Word) :
    (x.writeBase i v).footprint = x.footprint := by
  rw [writeBase]
  split <;> simp

/-- What is told of a mode change is an event. -/
@[simp] theorem footprint_tellMode (m : Mode) : (x.tellMode m).footprint = x.footprint := by
  rw [tellMode]
  split <;> simp

/-- A status word leaves nothing, be it installed or refused. -/
@[simp] theorem footprint_tryStatus (p : Psr) : (x.tryStatus p).footprint = x.footprint := by
  cases hp : p.mode? with
  | ok m =>
      rw [tryStatus_of_ok hp]
      exact x.footprint_tellMode p.mode
  | error e =>
      rw [tryStatus_of_error hp]
      exact x.footprint_tell _

/-- Taking the saved status back flushes nothing by itself. -/
@[simp] theorem footprint_restoreStatus : x.restoreStatus.footprint = x.footprint := by
  rw [restoreStatus]
  cases x.core.spsr? with
  | none => rfl
  | some p => exact x.footprint_tryStatus p

/-- A loaded word of a block goes into its register, whichever bank that is in. -/
@[simp] theorem footprint_acceptLoaded (b : Block) (i : Reg) (v : Word) :
    (x.acceptLoaded b i v).footprint = x.footprint ++ .write i := by
  rw [acceptLoaded]
  by_cases hi : i = Reg.pc
  · rw [if_pos hi, footprint_branchTo, hi, Footprint.write_pc]
    split <;> simp
  · rw [if_neg hi, Footprint.write_of_ne hi, Footprint.append_empty]
    split <;> simp

variable [Bus B]

/-- A load leaves its one access. -/
@[simp] theorem footprint_load (w : Width) (s : Bool) (a : Word) :
    (x.load w s a).2.footprint = x.footprint ++ .access ⟨s, w.isWord, a⟩ := by
  simp [footprint, load, accesses, Access.charge, Footprint.append_eq, Footprint.access]

/-- A store leaves its one access as well, and scatters later. -/
@[simp] theorem footprint_store (w : Width) (s : Bool) (a v : Word) :
    (x.store w s a v).footprint = x.footprint ++ .access ⟨s, w.isWord, a⟩ := by
  simp [footprint, store, accesses, Access.charge, Footprint.append_eq, Footprint.access]

/-- At an odd address the access is a byte, which a bus charges like a halfword. -/
@[simp] theorem footprint_loadSignedHalf (a : Word) :
    (x.loadSignedHalf a).2.footprint = x.footprint ++ .access ⟨false, false, a⟩ := by
  rw [loadSignedHalf]
  split
  · exact x.footprint_load .byte false a
  · exact x.footprint_load .half false a

@[simp] theorem footprint_loadQuantity (q : Quantity) (a : Word) :
    (x.loadQuantity q a).2.footprint = x.footprint ++ .access ⟨false, q == .word, a⟩ := by
  cases q with
  | word => exact x.footprint_load .word false a
  | byte => exact x.footprint_load .byte false a

@[simp] theorem footprint_storeQuantity (q : Quantity) (a v : Word) :
    (x.storeQuantity q a v).footprint = x.footprint ++ .access ⟨false, q == .word, a⟩ := by
  cases q with
  | word => exact x.footprint_store .word false a v
  | byte => exact x.footprint_store .byte false a v

/-! ## Blocks -/

/-- The stores of a block touch successive words, one for each register. -/
@[simp] theorem footprint_storeBlock (b : Block) (list : List Reg) (first : Bool) (a : Word) :
    (storeBlock b first a list x).footprint
      = x.footprint ++ .words first a list.length := by
  induction list generalizing x first a with
  | nil => exact x.footprint.append_empty.symm
  | cons r list ih =>
      rw [storeBlock, ih, footprint_store, List.length_cons, Footprint.words_succ,
        Footprint.append_assoc]
      rfl

/-- The loads of a block touch successive words, and write its registers. -/
@[simp] theorem footprint_loadBlock (b : Block) (list : List Reg) (first : Bool) (a : Word) :
    (loadBlock b first a list x).footprint
      = x.footprint ++ .words first a list.length ++ .writes list := by
  induction list generalizing x first a with
  | nil =>
      rw [Footprint.append_assoc]
      exact x.footprint.append_empty.symm
  | cons r list ih =>
      rw [loadBlock]
      dsimp only
      rw [ih, footprint_acceptLoaded, footprint_load, List.length_cons, Footprint.words_succ,
        Footprint.writes_cons]
      simp only [Footprint.append_assoc]
      -- the write to this register comes before the other accesses
      rw [← (Footprint.write r).append_assoc, Footprint.write_append_words,
        Footprint.append_assoc]
      rfl

/-- A block transfer touches the words of its range from the lowest address up, whichever way
    it counts. -/
theorem footprint_transferBlock (kind : TransferKind) (a : Addressing) (s : Bool) (rn : Reg)
    (list : Half) :
    (x.transferBlock kind a s rn list).footprint
      = x.footprint ++ .words true (x.core.blockRange a rn list).1 (listed list).length
        ++ if kind = .load then .writes (listed list) else .store := by
  cases kind with
  | store =>
      rw [transferBlock_store]
      dsimp only
      split <;> simp
  | load =>
      rw [transferBlock_load]
      dsimp only
      split <;> simp

end Execution

/-- The footprint of an action. -/
def Action.footprint : Action → Footprint
  | .load w s a | .store w s a _ => .access ⟨s, w.isWord, a⟩
  | .scatter => .store
  | .branchTo _ | .exchange .. | .restore _ => .branch
  | _ => .empty

/-- An action adds its own footprint to what was left before. -/
theorem Action.footprint_run {B : Type} [Bus B] (a : Action) (x : Execution B) :
    (a.run x).footprint = x.footprint ++ a.footprint := by
  cases a with
  | load w s a => exact x.footprint_load w s a
  | store w s a v => exact x.footprint_store w s a v
  | _ => simp [run, footprint]

/-! ## The 32-bit set -/

/-- The offset of a single transfer, from the core alone. -/
def Arm.TransferOffset.value (k : Core) : Arm.TransferOffset → Word
  | .immediate offset => offset
  | .shifted rm kind amount =>
    (shift kind .opcode (k.read rm .operand) amount.val.toUInt32 k.cpsr.c).value

/-- The offset of a halfword transfer, from the core alone. -/
def Arm.HalfOffset.value (k : Core) : Arm.HalfOffset → Word
  | .immediate offset => offset
  | .register rm => k.read rm .operand

/-- The address of a transfer with an offset. -/
def Core.transferAddress (k : Core) (a : Addressing) (rn : Reg) (offset : Word) : Word :=
  a.address (k.read rn .operand) (a.direction.apply (k.read rn .operand) offset)

/-- The footprint of a block transfer: successive words, and an empty list one of them. -/
def Core.blockFootprint (k : Core) (kind : TransferKind) (a : Addressing) (rn : Reg)
    (list : Half) : Footprint :=
  .words true (k.blockRange a rn list).1 (listed list).length
    ++ if kind = .load then .writes (listed list) else .store

/-- The footprint of a transfer of one value: a load writes a register, a store
    scatters. -/
def Footprint.single (kind : TransferKind) (c : Charge) (rd : Reg) : Footprint :=
  .access c ++ if kind = .load then .write rd else .store

/-- Which way a halfword transfer goes. -/
def HalfTransfer.kind (t : HalfTransfer) : TransferKind :=
  if t = .storeHalf then .store else .load

/-- The footprint of an instruction. -/
def Arm.Instruction.footprint (k : Core) : Arm.Instruction → Footprint
  | .dataProcessing op _ _ rd _ => if op.test then .empty else .write rd
  | .moveFromStatus _ rd => .write rd
  | .moveToStatus .. => .empty
  | .multiply _ _ rd .. => .write rd
  | .multiplyLong _ _ _ rdHigh rdLow .. => .write rdLow ++ .write rdHigh
  | .swap q rn rd _ =>
    let c : Charge := ⟨false, q == .word, k.read rn .operand⟩
    .access c ++ .access c ++ .write rd
  | .halfTransfer t a rn rd o =>
    .single t.kind ⟨false, false, k.transferAddress a rn (o.value k)⟩ rd
  | .singleTransfer kind q a rn rd o =>
    .single kind ⟨false, q == .word, k.transferAddress a rn (o.value k)⟩ rd
  | .blockTransfer kind a _ rn list => k.blockFootprint kind a rn list
  | .branchExchange _ | .branch .. | .coprocessor | .softwareInterrupt _ | .undefined => .branch

namespace Arm

variable {B : Type} (x : Execution B)

theorem footprint_evaluate (o : Operand) : (o.evaluate x).2.footprint = x.footprint := by
  obtain ⟨n, hn⟩ := o.evaluate_eq x
  rw [hn]
  rfl

/-- A data-processing instruction leaves its destination, a test nothing. -/
theorem footprint_dataProcessing (op : AluOp) (setFlags : Bool) (rn rd : Reg)
    (operand : Operand) :
    (dataProcessing op setFlags rn rd operand x).footprint
      = x.footprint ++ if op.test then .empty else .write rd := by
  rw [← footprint_evaluate x operand, dataProcessing]
  generalize operand.evaluate x = evaluated
  obtain ⟨second, y⟩ := evaluated
  dsimp only
  by_cases ht : op.test = true
  · rw [if_pos ht, if_pos ht]
    split <;> simp
  · rw [if_neg ht, if_neg ht]
    by_cases hd : rd = Reg.pc
    · rw [if_pos hd, hd, Execution.footprint_branchTo, Footprint.write_pc]
      repeat' split
      all_goals simp
    · rw [if_neg hd, Footprint.write_of_ne hd]
      split <;> simp

/-- MSR leaves nothing, whether it is carried out or not. -/
theorem footprint_moveToStatus (target : StatusRegister) (fields : StatusFields)
    (operand : StatusOperand) :
    (moveToStatus target fields operand x).footprint = x.footprint := by
  cases target with
  | cpsr =>
      rw [moveToCpsr_eq, Execution.footprint_tryStatus]
      split <;> simp
  | spsr =>
      cases hp : x.core.spsr? with
      | none => rw [moveToSpsr_none _ _ hp, Execution.footprint_tell]
      | some saved => rw [moveToSpsr_some _ _ hp, Execution.footprint_withCore]

/-- BX writes R15, into either set. -/
theorem footprint_branchExchange (rm : Reg) :
    (branchExchange rm x).footprint = x.footprint ++ .branch := by
  simp only [branchExchange]
  split <;> simp

/-- A branch writes R15; its return address is no access. -/
theorem footprint_branch (link : Bool) (offset : Word) :
    (branch link offset x).footprint = x.footprint ++ .branch := by
  cases link <;> simp [branch]

theorem footprint_moveBase (a : Addressing) (rn : Reg) (moved : Word) :
    (moveBase a rn moved x).footprint = x.footprint := by
  rw [moveBase]
  split <;> simp

/-- A load ends with the write to its destination. -/
theorem footprint_finishLoad (a : Addressing) (rn rd : Reg) (moved : Word)
    (loaded : Word × Execution B) :
    (finishLoad a rn rd moved loaded).footprint = loaded.2.footprint ++ .write rd := by
  rw [finishLoad, Execution.footprint_writeRegister, footprint_moveBase,
    Execution.footprint_wait]

theorem value_eq_evaluate (o : TransferOffset) : o.evaluate x = o.value x.core := by
  cases o <;> rfl

theorem halfValue_eq_evaluate (o : HalfOffset) : o.evaluate x = o.value x.core := by
  cases o <;> rfl

end Arm

/-- **An instruction of the 32-bit set leaves its footprint.** -/
theorem Arm.footprint_execute {B : Type} [Bus B] (o : Arm.Opcode) (x : Execution B) :
    (Arm.execute o x).footprint = x.footprint ++ o.instruction.footprint x.core := by
  rw [Arm.execute]
  cases hi : o.instruction with
  | dataProcessing op setFlags rn rd operand =>
      exact footprint_dataProcessing x op setFlags rn rd operand
  | moveFromStatus source rd => exact x.footprint_writeRegister rd _
  | moveToStatus target fields operand =>
      exact (footprint_moveToStatus x target fields operand).trans x.footprint.append_empty.symm
  | multiply accumulate setFlags rd rn rs rm =>
      simp only [multiply, Instruction.footprint]
      split <;> simp
  | multiplyLong signed accumulate setFlags rdHigh rdLow rs rm =>
      simp only [multiplyLong, Instruction.footprint]
      split <;> simp [Footprint.append_assoc]
  | swap quantity rn rd rm =>
      simp [swap, Execution.read, Instruction.footprint, Footprint.append_assoc]
  | branchExchange rm => exact footprint_branchExchange x rm
  | halfTransfer kind a rn rd offset =>
      cases kind <;> simp [halfTransfer, footprint_moveBase, footprint_finishLoad,
        Execution.loadHalf_eq, Execution.loadSignedByte_eq, Execution.read, Width.isWord,
        Instruction.footprint, halfValue_eq_evaluate, Core.transferAddress, Footprint.single,
        HalfTransfer.kind, Footprint.append_assoc]
  | singleTransfer kind quantity a rn rd offset =>
      cases kind <;> simp [singleTransfer, footprint_moveBase, footprint_finishLoad,
        Execution.read, Instruction.footprint, value_eq_evaluate, Core.transferAddress,
        Footprint.single, Footprint.append_assoc]
  | blockTransfer kind a s rn list =>
      rw [x.footprint_transferBlock kind a s rn list, Footprint.append_assoc]
      rfl
  | branch link offset => exact footprint_branch x link offset
  | coprocessor | softwareInterrupt | undefined => simp [Instruction.footprint]

/-! ## The 16-bit set -/

/-- A push stores downwards, a pop loads upwards; both move the stack pointer. -/
def Thumb.stackAddressing : TransferKind → Addressing
  | .store => ⟨.pre, .down, true⟩
  | .load => ⟨.post, .up, true⟩

/-- The registers of a push or a pop, the extra one among them. -/
def Thumb.stackList (kind : TransferKind) (extra : Bool) (list : Half) : Half :=
  if extra then
    match kind with
    | .store => list ||| 0x4000
    | .load => list ||| 0x8000
  else list

/-- The footprint of an instruction. -/
def Thumb.Instruction.footprint (k : Core) : Thumb.Instruction → Footprint
  | .highOp .add _ rd | .highOp .mov _ rd => .write rd
  | .highOp .bx .. | .branch _ | .longBranch true _ | .softwareInterrupt _ | .undefined => .branch
  | .branchIf condition _ => if k.cpsr.satisfies condition then .branch else .empty
  | .loadLiteral rd offset =>
    .single .load ⟨false, true, k.effectivePc .literalBase + offset⟩ rd.wide
  | .transferByRegister kind q ro rb rd =>
    .single kind ⟨false, q == .word, k.registers.read rb.wide + k.registers.read ro.wide⟩ rd.wide
  | .halfByRegister t ro rb rd =>
    .single t.kind ⟨false, false, k.registers.read rb.wide + k.registers.read ro.wide⟩ rd.wide
  | .transferByOffset kind q offset rb rd =>
    .single kind ⟨false, q == .word, k.registers.read rb.wide + offset⟩ rd.wide
  | .halfByOffset kind offset rb rd =>
    .single kind ⟨false, false, k.registers.read rb.wide + offset⟩ rd.wide
  | .stackTransfer kind rd offset =>
    .single kind ⟨false, true, k.registers.read Reg.sp + offset⟩ rd.wide
  | .pushPop kind extra list =>
    k.blockFootprint kind (stackAddressing kind) Reg.sp (stackList kind extra list)
  | .blockTransfer kind rb list => k.blockFootprint kind ⟨.post, .up, true⟩ rb.wide list
  | _ => .empty

/-- Of the 16-bit set a conditional branch alone leaves what the flags decide. -/
theorem Thumb.Instruction.footprint_branchIf (k : Core) (condition : Condition) (offset : Word) :
    (branchIf condition offset).footprint k
      = if k.cpsr.satisfies condition then .branch else .empty :=
  rfl

namespace Thumb

variable {B : Type} (x : Execution B)

/-- The arithmetic of the 16-bit set writes low registers only. -/
theorem footprint_applyAlu (op : AluOp) (rd : LowReg) (first second : Word) :
    (applyAlu op rd first second x).footprint = x.footprint := by
  rw [applyAlu]
  split <;> simp

/-- The same of the operations on two low registers. -/
theorem footprint_registerOp (op : RegisterOp) (rs rd : LowReg) :
    (registerOp op rs rd x).footprint = x.footprint := by
  cases op with
  | lsl | lsr | asr | ror => rfl
  | mul => rfl
  | _ => exact footprint_applyAlu x _ rd _ _

variable [Bus B]

/-- A low register is not R15, so that writing one leaves nothing. -/
theorem footprint_transfer (kind : TransferKind) (quantity : Quantity) (rd : LowReg) (a : Word) :
    (transfer kind quantity rd a x).footprint
      = x.footprint ++ .single kind ⟨false, quantity == .word, a⟩ rd.wide := by
  cases kind <;> simp [transfer, Footprint.single, Footprint.write_of_ne rd.wide_ne_pc,
    Footprint.append_assoc]

/-- A halfword transfer of the 16-bit set leaves what one of the 32-bit set does. -/
theorem footprint_halfTransfer (t : HalfTransfer) (rd : LowReg) (a : Word) :
    (halfTransfer t rd a x).footprint
      = x.footprint ++ .single t.kind ⟨false, false, a⟩ rd.wide := by
  cases t <;> simp [halfTransfer, Footprint.single, Footprint.write_of_ne rd.wide_ne_pc,
    HalfTransfer.kind, Execution.loadHalf_eq, Execution.loadSignedByte_eq, Width.isWord,
    Footprint.append_assoc]

/-- A push or a pop is a block transfer on the stack. -/
theorem pushPop_eq (kind : TransferKind) (extra : Bool) (list : Half) :
    pushPop kind extra list x
      = x.transferBlock kind (stackAddressing kind) false Reg.sp (stackList kind extra list) := by
  cases kind <;> rfl

end Thumb

/-- **An instruction of the 16-bit set leaves its footprint.** -/
theorem Thumb.footprint_execute {B : Type} [Bus B] (o : Thumb.Opcode) (x : Execution B) :
    (Thumb.execute o x).footprint = x.footprint ++ o.instruction.footprint x.core := by
  rw [Thumb.execute]
  cases hi : o.instruction with
  | registerOp op rs rd =>
      exact (footprint_registerOp x op rs rd).trans x.footprint.append_empty.symm
  | loadLiteral rd offset => exact footprint_transfer x .load .word rd _
  | transferByRegister kind quantity ro rb rd => exact footprint_transfer x kind quantity rd _
  | halfByRegister kind ro rb rd => exact footprint_halfTransfer x kind rd _
  | transferByOffset kind quantity offset rb rd => exact footprint_transfer x kind quantity rd _
  | halfByOffset kind offset rb rd =>
      cases kind with
      | load => exact footprint_halfTransfer x .loadHalf rd _
      | store => exact footprint_halfTransfer x .storeHalf rd _
  | stackTransfer kind rd offset => exact footprint_transfer x kind .word rd _
  | pushPop kind extra list =>
      dsimp only
      rw [pushPop_eq, x.footprint_transferBlock, Footprint.append_assoc]
      rfl
  | blockTransfer kind rb list =>
      rw [x.footprint_transferBlock kind _ false rb.wide list, Footprint.append_assoc]
      rfl
  | moveShifted | loadAddress | adjustStack => exact x.footprint.append_empty.symm
  | addSubtract subtract operand rs rd =>
      exact (footprint_applyAlu x _ rd _ _).trans x.footprint.append_empty.symm
  | immediateOp op rd value =>
      refine Eq.trans ?_ x.footprint.append_empty.symm
      cases op with
      | mov => rfl
      | cmp | add | sub => exact footprint_applyAlu x _ rd _ value
  | highOp op rs rd =>
      cases op with
      | add | mov => exact x.footprint_writeRegister rd _
      | cmp => exact x.footprint.append_empty.symm
      | bx => exact Arm.footprint_branchExchange x rs
  | branchIf condition offset =>
      simp only [Instruction.footprint_branchIf, branch]
      split <;> simp
  | branch offset => exact x.footprint_branchTo _
  | longBranch second offset =>
      cases second with
      | true => exact Execution.footprint_branchTo _ _
      | false => exact x.footprint.append_empty.symm
  | softwareInterrupt n => exact x.footprint_takeException .softwareInterrupt
  | undefined =>
      have htell := x.footprint_tell (.undefinedThumb x.core.pc o.raw)
      exact (Execution.footprint_takeException _ .undefined).trans (congrArg (· ++ .branch) htell)

/-! ## Stores -/

/-- An instruction that stores and nothing else; an exchange is none. -/
def Arm.Instruction.stores : Arm.Instruction → Bool
  | .halfTransfer t .. => t.kind == .store
  | .singleTransfer kind .. | .blockTransfer kind .. => kind == .store
  | _ => false

def Thumb.Instruction.stores : Thumb.Instruction → Bool
  | .halfByRegister t .. => t.kind == .store
  | .transferByRegister kind .. | .transferByOffset kind .. | .halfByOffset kind ..
  | .stackTransfer kind .. | .pushPop kind .. | .blockTransfer kind .. => kind == .store
  | _ => false

/-- Of the transfers of one value the stores scatter. -/
theorem Footprint.scattered_single (kind : TransferKind) (c : Charge) (rd : Reg) :
    (single kind c rd).scattered = (kind == .store) := by
  cases kind <;> rfl

/-- Of the block transfers the stores scatter. -/
theorem Core.scattered_blockFootprint (k : Core) (kind : TransferKind) (a : Addressing) (rn : Reg)
    (list : Half) : (k.blockFootprint kind a rn list).scattered = (kind == .store) := by
  cases kind <;> rfl

/-- **The stores scatter, and they alone.** -/
theorem Arm.Instruction.scattered_footprint (i : Arm.Instruction) (k : Core) :
    (i.footprint k).scattered = i.stores := by
  cases i with
  | dataProcessing op setFlags rn rd operand =>
      rw [footprint]
      split <;> rfl
  | halfTransfer t a rn rd o => exact Footprint.scattered_single t.kind _ rd
  | singleTransfer kind q a rn rd o => exact Footprint.scattered_single kind _ rd
  | blockTransfer kind a s rn list => exact k.scattered_blockFootprint kind a rn list
  | _ => rfl

/-- The same of the 16-bit set. -/
theorem Thumb.Instruction.scattered_footprint (i : Thumb.Instruction) (k : Core) :
    (i.footprint k).scattered = i.stores := by
  cases i with
  | highOp op rs rd => cases op <;> rfl
  | longBranch second offset => cases second <;> rfl
  | branchIf condition offset =>
      rw [footprint_branchIf]
      split <;> rfl
  | loadLiteral rd offset => rfl
  | halfByRegister t ro rb rd => exact Footprint.scattered_single t.kind _ rd.wide
  | transferByRegister kind q ro rb rd => exact Footprint.scattered_single kind _ rd.wide
  | transferByOffset kind q offset rb rd => exact Footprint.scattered_single kind _ rd.wide
  | halfByOffset kind offset rb rd => exact Footprint.scattered_single kind _ rd.wide
  | stackTransfer kind rd offset => exact Footprint.scattered_single kind _ rd.wide
  | pushPop kind extra list => exact k.scattered_blockFootprint kind _ Reg.sp _
  | blockTransfer kind rb list => exact k.scattered_blockFootprint kind _ rb.wide list
  | _ => rfl

/-! ## The instruction that a step fetches -/

/-- The footprint of an instruction as it was fetched. -/
def Fetched.footprint (k : Core) : Fetched → Footprint
  | .arm o => o.instruction.footprint k
  | .skipped _ => .empty
  | .thumb o => o.instruction.footprint k

/-- Whether an instruction, as it was fetched, stores. -/
def Fetched.stores : Fetched → Bool
  | .arm o => o.instruction.stores
  | .skipped _ => false
  | .thumb o => o.instruction.stores

/-- What is skipped stores nothing and scatters nothing. -/
theorem Fetched.scattered_footprint (f : Fetched) (k : Core) :
    (f.footprint k).scattered = f.stores := by
  cases f with
  | arm o => exact o.instruction.scattered_footprint k
  | skipped o => rfl
  | thumb o => exact o.instruction.scattered_footprint k

/-- **A flight leaves the footprint of its instruction.** -/
theorem Machine.footprint_flight {B : Type} [Bus B] (m : Machine B) :
    m.flight.footprint = m.fetched.footprint m.core.aligned := by
  rw [flight]
  cases m.fetched with
  | arm o => rw [Fetched.execute, Arm.footprint_execute, Execution.footprint_start,
      Footprint.empty_append]; rfl
  | skipped o => rfl
  | thumb o => rw [Fetched.execute, Thumb.footprint_execute, Execution.footprint_start,
      Footprint.empty_append]; rfl

end Armv4t
