import Armv4t.Proofs.Charge
import Armv4t.Proofs.Guarded.Core
import Armv4t.Proofs.Writes

/-! # Guarded flights — cycles added up while an instruction executes

    The plain flight leaves a trail and is charged for it afterwards.  A running one is
    charged as it goes: before each data access what the bus asks for it at that
    moment, and its internal cycles where it spends them, into one 32-bit sum that may
    not overflow.

    * `Affordable` is what is asked of a bus: no access costs less than nothing or more
      than 2^20 cycles, whatever was written to the bus before.
    * `Fair b k t` says of a running instruction over the bus `b` that it was charged at
      most `k` times, so that its sum stays far from overflowing, and that on a bus with
      steady costs the sum is what the plain flight will be charged for its trail.
    * `Gives o P` says that a guarded computation has a result, and what holds of it;
      `Follows b k x` is the `P` for nearly all of them: the flight is the plain one. -/

namespace Armv4t

open Bus

/-- No access to a bus costs less than nothing or more than 2^20 cycles, and no writes
    change that. -/
def Affordable {B : Type} [Bus B] (b : B) : Prop :=
  ∀ ws sequential wide a,
    0 ≤ (cost (written b ws) sequential wide a).toInt
      ∧ (cost (written b ws) sequential wide a).toInt ≤ 2 ^ 20

namespace Guarded

/-! ## Results -/

/-- A computation has a result, and this holds of it. -/
def Gives {α : Type} (o : Option α) (P : α → Prop) : Prop := ∃ a, o = some a ∧ P a

section Results

variable {α β : Type} {o : Option α} {P Q : α → Prop}

/-- A value is a result. -/
theorem gives_some {a : α} (h : P a) : Gives (some a) P := ⟨a, rfl, h⟩

/-- What is computed from a result has one, if it has one from all that may come. -/
theorem Gives.bind {f : α → Option β} {R : β → Prop} (h : Gives o P)
    (hf : ∀ a, P a → Gives (f a) R) : Gives (o.bind f) R := by
  obtain ⟨a, rfl, ha⟩ := h
  exact hf a ha

/-- Less may be said of a result. -/
theorem Gives.mono (h : Gives o P) (hPQ : ∀ a, P a → Q a) : Gives o Q := by
  obtain ⟨a, ha, hP⟩ := h
  exact ⟨a, ha, hPQ a hP⟩

end Results

/-! ## Running instructions -/

/-- An instruction in flight and the cycles it was charged so far. -/
structure Running (B : Type) where
  flight : Execution B
  cycles : Int32

namespace Running

variable {B : Type} (t : Running B)

/-- Changes the flight and charges nothing. -/
def map (f : Execution B → Execution B) : Running B := { t with flight := f t.flight }

/-- Spends internal cycles. -/
def wait (n : Int32) : Option (Running B) := do
  some ⟨t.flight.wait n, ← addTime t.cycles n⟩

/-- Changes the current status register in place. -/
def updateCpsr (f : Psr → Option Psr) : Option (Running B) := do
  let p ← f t.flight.core.cpsr
  some (t.map (·.updateCpsr fun _ => p))

/-- Continues at an address. -/
def branchTo (target : Word) : Option (Running B) := do
  let core ← jump t.flight.core target
  some (t.map fun x => { x with core, flushed := true })

/-- Writes a register the way an instruction does. -/
def writeRegister (i : Reg) (v : Word) : Option (Running B) :=
  if i = Reg.pc then t.branchTo v else some (t.map (·.setRegister i v))

/-- Replaces the whole status register; a refusal is kept as the fault. -/
def tryStatus (p : Psr) : Option (Running B) := do
  let tried ← install t.flight.core p
  match tried.refusal with
  | none => some (t.map fun x => (x.tellMode p.mode).withCore tried.state)
  | some e =>
    some (t.map fun x =>
      { (x.withCore tried.state).tell (.invalidMode e tried.state.pc) with fault := some e })

/-- Returns from an exception. -/
def restoreStatus : Option (Running B) :=
  match t.flight.core.spsr? with
  | some p => t.tryStatus p
  | none => some t

/-- Enters the handler of an exception. -/
def takeException (e : Exception) : Option (Running B) := do
  let link ← returnAddress t.flight.core e
  let core ← enter t.flight.core e
  some (t.map fun x =>
    { (x.tellMode e.targetMode).withCore core with flushed := true }.tell
      (.exceptionTaken e x.core.pc link))

variable [Bus B]

/-- A load of some width, charged before it is made. -/
def load (width : Width) (sequential : Bool) (a : Word) : Option (Word × Running B) := do
  let cycles ← addTime t.cycles (cost t.flight.bus sequential width.isWord a)
  let (v, x) := t.flight.load width sequential a
  some (v, ⟨x, cycles⟩)

/-- A store of some width, charged before it is made. -/
def store (width : Width) (sequential : Bool) (a v : Word) : Option (Running B) := do
  let cycles ← addTime t.cycles (cost t.flight.bus sequential width.isWord a)
  some ⟨t.flight.store width sequential a v, cycles⟩

/-- A load whose value is worked on before it is given back. -/
def adjust (loaded : Option (Word × Running B)) (f : Word → Option Word) :
    Option (Word × Running B) := do
  let (v, t) ← loaded
  some (← f v, t)

/-- A word load, rotated so that the addressed byte comes lowest. -/
def loadWord (a : Word) : Option (Word × Running B) :=
  adjust (t.load .word false a) fun v => do
    some (rotateRight v (← mulWord 8 (← getBits 32 a 0 1)))

/-- A halfword load, rotated at an odd address. -/
def loadHalf (a : Word) : Option (Word × Running B) :=
  adjust (t.load .half false a) fun v => do some (rotateRight v (← mulWord 8 (a &&& 1)))

/-- A byte load. -/
def loadByte (a : Word) : Option (Word × Running B) := t.load .byte false a

/-- A signed byte load. -/
def loadSignedByte (a : Word) : Option (Word × Running B) :=
  adjust (t.loadByte a) (signExtended · 8)

/-- A signed halfword load; an odd address loads the signed byte. -/
def loadSignedHalf (a : Word) : Option (Word × Running B) := do
  if ← getBit 32 a 0 then t.loadSignedByte a
  else adjust (t.load .half false a) (signExtended · 16)

/-- A load of a word or a byte. -/
def loadQuantity (q : Quantity) (a : Word) : Option (Word × Running B) :=
  match q with
  | .word => t.loadWord a
  | .byte => t.loadByte a

/-- A store of a word or a byte. -/
def storeQuantity (q : Quantity) (a v : Word) : Option (Running B) :=
  match q with
  | .word => t.store .word false a v
  | .byte => t.store .byte false a v

end Running

/-! ## What charges nothing -/

/-- An instruction in flight did nothing that is charged for between two moments. -/
structure Silent {B : Type} [Bus B] (x y : Execution B) : Prop where
  bus : y.bus = x.bus
  internal : y.internal = x.internal
  data : ∀ b : B, dataCycles b y.trail = dataCycles b x.trail

namespace Silent

variable {B : Type} [Bus B] (x : Execution B)

/-- An event is no access, so that the bus is never asked about it. -/
theorem tell (e : Event) : Silent x (x.tell e) := ⟨rfl, rfl, fun _ => rfl⟩

/-- Registers are not on the bus. -/
theorem setRegister (i : Reg) (v : Word) : Silent x (x.setRegister i v) :=
  ⟨rfl, rfl, fun _ => rfl⟩

theorem withCore (k : Core) : Silent x (x.withCore k) := ⟨rfl, rfl, fun _ => rfl⟩

theorem scatter : Silent x x.scatter := ⟨rfl, rfl, fun _ => rfl⟩

theorem branchTo (a : Word) : Silent x (x.branchTo a) := ⟨rfl, rfl, fun _ => rfl⟩

theorem updateCpsr (f : Psr → Psr) : Silent x (x.updateCpsr f) := ⟨rfl, rfl, fun _ => rfl⟩

/-- Writing R15 is charged by the fetches that refill, not here. -/
theorem writeRegister (i : Reg) (v : Word) : Silent x (x.writeRegister i v) := by
  rw [Execution.writeRegister]
  split
  · exact branchTo x v
  · exact setRegister x i v

/-- Moving a base, or telling that it is not moved. -/
theorem writeBase (i : Reg) (v : Word) : Silent x (x.writeBase i v) := by
  rw [Execution.writeBase]
  split
  · exact tell x .writeBackIgnored
  · exact setRegister x i v

/-- Telling of a mode change, or not. -/
theorem tellMode (m : Mode) : Silent x (x.tellMode m) := by
  rw [Execution.tellMode]
  split
  · exact ⟨rfl, rfl, fun _ => rfl⟩
  · exact tell x _

/-- A status word, installed or refused. -/
theorem tryStatus (p : Psr) : Silent x (x.tryStatus p) := by
  cases hp : p.mode? with
  | ok m =>
      rw [Execution.tryStatus_of_ok hp]
      obtain ⟨hbus, hinternal, hdata⟩ := tellMode x p.mode
      exact ⟨hbus, hinternal, hdata⟩
  | error e =>
      rw [Execution.tryStatus_of_error hp]
      exact ⟨rfl, rfl, fun _ => rfl⟩

/-- Taking the saved status back, where there is one. -/
theorem restoreStatus : Silent x x.restoreStatus := by
  rw [Execution.restoreStatus]
  cases x.core.spsr? with
  | none => exact ⟨rfl, rfl, fun _ => rfl⟩
  | some p => exact tryStatus x p

/-- An entry makes no access of its own. -/
theorem takeException (e : Exception) : Silent x (x.takeException e) := by
  obtain ⟨hbus, hinternal, hdata⟩ := tellMode x e.targetMode
  exact ⟨hbus, hinternal, hdata⟩

end Silent

/-! ## Fair running -/

/-- A running instruction over a bus was charged at most so often: its bus is the first
    one with some writes made, its cycles are no more than so many accesses may cost, and
    where the costs are steady they are its internal cycles and those of its trail. -/
structure Fair {B : Type} [Bus B] (b : B) (k : Nat) (t : Running B) : Prop where
  affordable : Affordable b
  reached : ∃ ws, t.flight.bus = written b ws
  nonneg : 0 ≤ t.cycles.toInt
  le : t.cycles.toInt ≤ k * 2 ^ 20
  owed : Steady b → t.cycles = t.flight.internal + dataCycles b t.flight.trail

/-- The flight is the plain one, fairly charged. -/
def Follows {B : Type} [Bus B] (b : B) (k : Nat) (x : Execution B) (t : Running B) : Prop :=
  t.flight = x ∧ Fair b k t

/-- The value and the flight are the plain ones, fairly charged. -/
def Loads {B : Type} [Bus B] (b : B) (k : Nat) {α : Type} (r : α × Execution B)
    (s : α × Running B) : Prop :=
  s.1 = r.1 ∧ Follows b k r.2 s.2

variable {B : Type} [Bus B] {b : B} {j k n : Nat} {t : Running B} {x : Execution B}

/-- A bound on the charges may be raised. -/
theorem Follows.mono (h : Follows b k x t) (hkn : k ≤ n) : Follows b n x t := by
  obtain ⟨hx, hfair⟩ := h
  refine ⟨hx, { hfair with le := ?_ }⟩
  have hle := hfair.le
  omega

/-- A choice between two flights follows where both do. -/
theorem Follows.ite {c : Prop} [Decidable c] {y : Execution B} {u : Running B}
    (h : Follows b k x t) (h' : Follows b k y u) :
    Follows b k (if c then x else y) (if c then t else u) := by
  by_cases hc : c
  · rw [if_pos hc, if_pos hc]
    exact h
  · rw [if_neg hc, if_neg hc]
    exact h'

/-- The same with more charges allowed. -/
theorem Gives.within {o : Option (Running B)} (h : Gives o (Follows b k x)) (hkn : k ≤ n) :
    Gives o (Follows b n x) :=
  h.mono fun _ hx => hx.mono hkn

namespace Fair

/-- As it is. -/
theorem still (h : Fair b k t) : Follows b k t.flight t := ⟨rfl, h⟩

/-- Doing nothing has a result, and charges nothing. -/
theorem done (h : Fair b k t) : Gives (some t) (Follows b k t.flight) := gives_some h.still

/-- What charges nothing stays fair. -/
theorem map (h : Fair b k t) {f : Execution B → Execution B}
    (hf : Silent t.flight (f t.flight)) : Fair b k (t.map f) where
  affordable := h.affordable
  reached := by
    obtain ⟨ws, hws⟩ := h.reached
    exact ⟨ws, hf.bus.trans hws⟩
  nonneg := h.nonneg
  le := h.le
  owed := by
    intro hb
    refine (h.owed hb).trans ?_
    show _ = (f t.flight).internal + dataCycles b (f t.flight).trail
    rw [hf.internal, hf.data]

/-- And follows the plain flight. -/
theorem mapped (h : Fair b k t) {f : Execution B → Execution B}
    (hf : Silent t.flight (f t.flight)) :
    Gives (some (t.map f)) (Follows b k (f t.flight)) :=
  gives_some ⟨rfl, h.map hf⟩

/-- One charge more does not overflow. -/
theorem addTime (h : Fair b k t) (hk : k ≤ 1000) {time : Int32} (h0 : 0 ≤ time.toInt)
    (hmax : time.toInt ≤ 2 ^ 20) :
    Guarded.addTime t.cycles time = some (t.cycles + time)
      ∧ 0 ≤ (t.cycles + time).toInt
      ∧ (t.cycles + time).toInt ≤ ((k + 1 : Nat) : Int) * 2 ^ 20 := by
  have hnonneg := h.nonneg
  have hle := h.le
  have hsum : (t.cycles + time).toInt = t.cycles.toInt + time.toInt :=
    toInt_add_of_fits (by omega) (by omega)
  refine ⟨addTime_eq (by omega) (by omega), by omega, ?_⟩
  rw [hsum]
  omega

/-- Internal cycles are one charge, however many they are. -/
theorem wait (h : Fair b k t) (hk : k ≤ 1000) {time : Int32} (h0 : 0 ≤ time.toInt)
    (hmax : time.toInt ≤ 2 ^ 20) :
    Gives (t.wait time) (Follows b (k + 1) (t.flight.wait time)) := by
  obtain ⟨hadd, hnonneg, hle⟩ := h.addTime hk h0 hmax
  rw [Running.wait, hadd]
  refine gives_some ⟨rfl, ⟨h.affordable, h.reached, hnonneg, hle, ?_⟩⟩
  intro hb
  show t.cycles + time = t.flight.internal + time + dataCycles b t.flight.trail
  rw [h.owed hb, Int32.add_assoc, Int32.add_comm (dataCycles _ _), ← Int32.add_assoc]

/-- One internal cycle. -/
theorem waitOne (h : Fair b k t) (hk : k ≤ 1000) :
    Gives (t.wait 1) (Follows b (k + 1) (t.flight.wait 1)) :=
  h.wait hk (by decide) (by decide)

/-- What the bus asks for an access is what it asked for it at first, if it is steady. -/
theorem cost_eq (h : Fair b k t) (hb : Steady b) : cost t.flight.bus = cost b := by
  obtain ⟨ws, hws⟩ := h.reached
  rw [hws, hb ws]

/-- What the bus asks for an access is in range. -/
theorem cost_bounds (h : Fair b k t) (sequential wide : Bool) (a : Word) :
    0 ≤ (cost t.flight.bus sequential wide a).toInt
      ∧ (cost t.flight.bus sequential wide a).toInt ≤ 2 ^ 20 := by
  obtain ⟨ws, hws⟩ := h.reached
  rw [hws]
  exact h.affordable ws sequential wide a

/-- A load is one charge, made at the price that the bus has at that moment. -/
theorem load (h : Fair b k t) (hk : k ≤ 1000) (width : Width) (sequential : Bool) (a : Word) :
    Gives (t.load width sequential a)
      (Loads b (k + 1) (t.flight.load width sequential a)) := by
  obtain ⟨h0, hmax⟩ := h.cost_bounds sequential width.isWord a
  obtain ⟨hadd, hnonneg, hle⟩ := h.addTime hk h0 hmax
  rw [Running.load, hadd]
  refine gives_some ⟨rfl, rfl, ⟨h.affordable, h.reached, hnonneg, hle, ?_⟩⟩
  intro hb
  show t.cycles + _ = t.flight.internal
    + (dataCycles b t.flight.trail + cost b sequential width.isWord a)
  rw [h.owed hb, h.cost_eq hb, Int32.add_assoc]

/-- A store is one charge as well, and the bus afterwards is the first one with one write
    more. -/
theorem store (h : Fair b k t) (hk : k ≤ 1000) (width : Width) (sequential : Bool)
    (a v : Word) :
    Gives (t.store width sequential a v)
      (Follows b (k + 1) (t.flight.store width sequential a v)) := by
  obtain ⟨h0, hmax⟩ := h.cost_bounds sequential width.isWord a
  obtain ⟨hadd, hnonneg, hle⟩ := h.addTime hk h0 hmax
  rw [Running.store, hadd]
  refine gives_some ⟨rfl, ⟨h.affordable, ?_, hnonneg, hle, ?_⟩⟩
  · obtain ⟨ws, hws⟩ := h.reached
    refine ⟨ws ++ [⟨width, width.align a, v⟩], ?_⟩
    rw [written_append, ← hws]
    rfl
  · intro hb
    show t.cycles + _ = t.flight.internal
      + (dataCycles b t.flight.trail + cost b sequential width.isWord a)
    rw [h.owed hb, h.cost_eq hb, Int32.add_assoc]

end Fair

/-! ## Writes to the core -/

namespace Running

variable {B : Type} (t : Running B)

/-- A target is aligned for a set that can be read. -/
@[simp] theorem branchTo_eq (target : Word) :
    t.branchTo target = some (t.map (·.branchTo target)) := by
  simp [branchTo, map, Execution.branchTo]

/-- Every register can be written, R15 by a branch. -/
@[simp] theorem writeRegister_eq (i : Reg) (v : Word) :
    t.writeRegister i v = some (t.map (·.writeRegister i v)) := by
  by_cases h : i = Reg.pc <;> simp [writeRegister, map, Execution.writeRegister, h]

/-- A status word without a mode is a result too: the fault is kept. -/
@[simp] theorem tryStatus_eq (p : Psr) : t.tryStatus p = some (t.map (·.tryStatus p)) := by
  cases h : (t.flight.core.install p).refusal <;>
    simp [tryStatus, map, Execution.tryStatus, Execution.writeStatus, h] <;> rfl

/-- Where no status is saved there is nothing to be out of range. -/
@[simp] theorem restoreStatus_eq : t.restoreStatus = some (t.map (·.restoreStatus)) := by
  cases h : t.flight.core.spsr? <;> simp [restoreStatus, map, Execution.restoreStatus, h]

/-- A handler can be entered from every state. -/
@[simp] theorem takeException_eq (e : Exception) :
    t.takeException e = some (t.map (·.takeException e)) := by
  simp [takeException, map, Execution.takeException]

end Running

namespace Fair

/-- The status changes by what has a result for every status. -/
theorem updateCpsr (h : Fair b k t) {f : Psr → Option Psr} {g : Psr → Psr}
    (hf : ∀ p, f p = some (g p)) :
    Gives (t.updateCpsr f) (Follows b k (t.flight.updateCpsr g)) := by
  obtain rfl : f = fun p => some (g p) := funext hf
  exact h.mapped (.updateCpsr _ g)

/-- A change to the status that is made or not. -/
theorem flagged (h : Fair b k t) (c : Bool) {f : Psr → Option Psr} {g : Psr → Psr}
    (hf : ∀ p, f p = some (g p)) :
    Gives (if c then t.updateCpsr f else some t)
      (Follows b k (if c then t.flight.updateCpsr g else t.flight)) := by
  cases c with
  | true => exact h.updateCpsr hf
  | false => exact h.done

theorem tell (h : Fair b k t) (e : Event) :
    Follows b k (t.flight.tell e) (t.map (·.tell e)) := ⟨rfl, h.map (.tell _ e)⟩

theorem scatter (h : Fair b k t) : Follows b k t.flight.scatter (t.map (·.scatter)) :=
  ⟨rfl, h.map (.scatter _)⟩

theorem setRegister (h : Fair b k t) (i : Reg) (v : Word) :
    Follows b k (t.flight.setRegister i v) (t.map (·.setRegister i v)) :=
  ⟨rfl, h.map (.setRegister _ i v)⟩

theorem writeBase (h : Fair b k t) (i : Reg) (v : Word) :
    Follows b k (t.flight.writeBase i v) (t.map (·.writeBase i v)) :=
  ⟨rfl, h.map (.writeBase _ i v)⟩

/-- A branch charges nothing until the next fetch. -/
theorem branchTo (h : Fair b k t) (target : Word) :
    Gives (t.branchTo target) (Follows b k (t.flight.branchTo target)) := by
  rw [Running.branchTo_eq]
  exact h.mapped (.branchTo _ target)

theorem writeRegister (h : Fair b k t) (i : Reg) (v : Word) :
    Gives (t.writeRegister i v) (Follows b k (t.flight.writeRegister i v)) := by
  rw [Running.writeRegister_eq]
  exact h.mapped (.writeRegister _ i v)

/-- The flight that follows carries the same fault. -/
theorem tryStatus (h : Fair b k t) (p : Psr) :
    Gives (t.tryStatus p) (Follows b k (t.flight.tryStatus p)) := by
  rw [Running.tryStatus_eq]
  exact h.mapped (.tryStatus _ p)

theorem restoreStatus (h : Fair b k t) :
    Gives t.restoreStatus (Follows b k t.flight.restoreStatus) := by
  rw [Running.restoreStatus_eq]
  exact h.mapped (.restoreStatus _)

theorem takeException (h : Fair b k t) (e : Exception) :
    Gives (t.takeException e) (Follows b k (t.flight.takeException e)) := by
  rw [Running.takeException_eq]
  exact h.mapped (.takeException _ e)

/-! ## Loads and stores of some kind -/

/-- The two lowest bits of an address. -/
theorem field_two (a : Word) : field a 0 2 = a &&& 3 := by
  rw [field, UInt32.shiftRight_zero]
  rfl

/-- Eight times a small number is a distance. -/
theorem mulWord_eight {n : Word} (h : n ≤ 3) : mulWord 8 n = some (8 * n) := by
  have hn : n.toNat ≤ 3 := h
  exact mulWord_eq (show 8 * n.toNat < 2 ^ 32 by omega)

omit [Bus B] in
/-- A value is worked on after the access, and the flight stays as the access left it. -/
theorem adjust_eq (loaded : Option (Word × Running B)) {f : Word → Option Word}
    {g : Word → Word} (hf : ∀ v, f v = some (g v)) :
    Running.adjust loaded f = loaded.bind fun s => some (g s.1, s.2) := by
  simp [Running.adjust, hf]

/-- What was loaded, worked on by something that has a result for every value. -/
theorem adjust {loaded : Option (Word × Running B)} {r : Word × Execution B}
    (h : Gives loaded (Loads b k r)) {f : Word → Option Word} {g : Word → Word}
    (hf : ∀ v, f v = some (g v)) : Gives (Running.adjust loaded f) (Loads b k (g r.1, r.2)) := by
  rw [adjust_eq loaded hf]
  refine h.bind ?_
  rintro ⟨v, t₁⟩ ⟨hv, h₁⟩
  exact gives_some ⟨congrArg g hv, h₁⟩

/-- The distance of the rotation is eight times a number below four. -/
theorem loadWord (h : Fair b k t) (hk : k ≤ 1000) (a : Word) :
    Gives (t.loadWord a) (Loads b (k + 1) (t.flight.loadWord a)) := by
  have hsmall : a &&& 3 ≤ 3 := UInt32.le_iff_toNat_le.mpr Nat.and_le_right
  refine adjust (h.load hk .word false a) (g := (rotateRight · (8 * (a &&& 3)))) ?_
  intro v
  simp [field_two, mulWord_eight hsmall]

/-- Here it is eight times one bit. -/
theorem loadHalf (h : Fair b k t) (hk : k ≤ 1000) (a : Word) :
    Gives (t.loadHalf a) (Loads b (k + 1) (t.flight.loadHalf a)) := by
  have hsmall : (a &&& 1).toNat ≤ 1 := Nat.and_le_right
  have hsmall' : a &&& 1 ≤ 3 := UInt32.le_iff_toNat_le.mpr (Nat.le_trans hsmall (by decide))
  refine adjust (h.load hk .half false a) (g := (rotateRight · (8 * (a &&& 1)))) ?_
  intro v
  simp [mulWord_eight hsmall']

/-- The sign extends from the eight bits of a byte. -/
theorem loadSignedByte (h : Fair b k t) (hk : k ≤ 1000) (a : Word) :
    Gives (t.loadSignedByte a) (Loads b (k + 1) (t.flight.loadSignedByte a)) :=
  adjust (h.load hk .byte false a) fun v => signExtended_eq (by decide) (by decide)

/-- One charge, whichever width the address makes it. -/
theorem loadSignedHalf (h : Fair b k t) (hk : k ≤ 1000) (a : Word) :
    Gives (t.loadSignedHalf a) (Loads b (k + 1) (t.flight.loadSignedHalf a)) := by
  have hword : Gives (Running.adjust (t.load .half false a) (signExtended · 16))
      (Loads b (k + 1)
        (signExtend (t.flight.load .half false a).1 16, (t.flight.load .half false a).2)) :=
    adjust (h.load hk .half false a) fun v => signExtended_eq (by decide) (by decide)
  -- an odd address loads the signed byte
  cases ha : bit a 0 with
  | true => simpa [Running.loadSignedHalf, Execution.loadSignedHalf, ha]
      using h.loadSignedByte hk a
  | false => simpa [Running.loadSignedHalf, Execution.loadSignedHalf, ha] using hword

/-- A byte needs no rotation. -/
theorem loadQuantity (h : Fair b k t) (hk : k ≤ 1000) (q : Quantity) (a : Word) :
    Gives (t.loadQuantity q a) (Loads b (k + 1) (t.flight.loadQuantity q a)) := by
  cases q with
  | word => exact h.loadWord hk a
  | byte => exact h.load hk .byte false a

/-- Word or byte, a store is one charge. -/
theorem storeQuantity (h : Fair b k t) (hk : k ≤ 1000) (q : Quantity) (a v : Word) :
    Gives (t.storeQuantity q a v)
      (Follows b (k + 1) (t.flight.storeQuantity q a v)) := by
  cases q with
  | word => exact h.store hk .word false a v
  | byte => exact h.store hk .byte false a v

end Fair

end Guarded

end Armv4t
