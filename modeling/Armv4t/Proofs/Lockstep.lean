import Armv4t.Proofs.Timing

/-! # Lockstep — two machines that a program cannot tell apart

    Two machines are in lockstep where their cores are related, by a relation that every
    action keeps (`Core.Congruence`), and their buses are, by one that every write keeps
    (`Bus.Bisimulation`).  Their hosts are free.

    * Machines in lockstep fetch the same instruction, and while it is in flight they
      stay related and leave the same footprint (`Machine.Lockstep.flight`);
    * so they are in lockstep after the step (`Machine.Lockstep.step`), with the same
      last code fetch whatever it was before (`Machine.Lockstep.lastFetch_step`);
    * where it was the same before, and the buses charge alike, the step takes as long on
      both (`Machine.Lockstep.cycles_step`). -/

namespace Armv4t

/-! ## Related buses -/

section

variable {B C : Type} [Bus B] [Bus C]

/-- A relation between buses under which they read alike, and which every write keeps. -/
structure Bus.Bisimulation (S : B → C → Prop) : Prop where
  readByte : ∀ {b c}, S b c → ∀ a, Bus.readByte b a = Bus.readByte c a
  write : ∀ {b c}, S b c → ∀ width a v, S (Bus.write b width a v) (Bus.write c width a v)

/-- Buses that hold the same bytes give the same value for a read of any width. -/
theorem Bus.read_congr {b : B} {c : C} (h : ∀ a, readByte b a = readByte c a) (width : Width)
    (a : Word) : read b width a = read c width a := by
  cases width with
  | byte => exact congrArg UInt8.toUInt32 (h a)
  | half => simp only [read, readHalf, h]
  | word => simp only [read, readWord, h]

theorem Bus.bisimulation_eq : Bisimulation (Eq : B → B → Prop) where
  readByte := fun h _ => h ▸ rfl
  write := fun h _ _ _ => h ▸ rfl

end

/-! ## Related cores -/

/-- A relation between cores under which an instruction finds the same, and which every
    legal action keeps. -/
structure Core.Congruence (K : Core → Core → Prop) : Prop where
  registers : ∀ {k l}, K k l → k.registers = l.registers
  cpsr : ∀ {k l}, K k l → k.cpsr = l.cpsr
  spsr : ∀ {k l}, K k l → k.spsr? = l.spsr?
  userRegister : ∀ {k l}, K k l → ∀ r, k.userRegister r = l.userRegister r
  setPc : ∀ {k l}, K k l → ∀ pc, K (k.setRegister Reg.pc pc) (l.setRegister Reg.pc pc)
  act : ∀ {k l}, K k l → ∀ a : Action, a.Legal k → K (a.onCore k) (a.onCore l)

theorem Core.Congruence.pc {K : Core → Core → Prop} (hK : Congruence K) {k l : Core} (h : K k l) :
    k.pc = l.pc :=
  congrArg Registers.pc (hK.registers h)

theorem Core.Congruence.instructionSet {K : Core → Core → Prop} (hK : Congruence K) {k l : Core}
    (h : K k l) : k.instructionSet = l.instructionSet :=
  congrArg Psr.instructionSet (hK.cpsr h)

/-- A congruence that the entry into a handler keeps as well. -/
structure Core.Bisimulation (K : Core → Core → Prop) : Prop extends Core.Congruence K where
  enter : ∀ {k l}, K k l → ∀ e, K (k.enter e) (l.enter e)

theorem Core.bisimulation_eq : Bisimulation Eq where
  registers := fun h => h ▸ rfl
  cpsr := fun h => h ▸ rfl
  spsr := fun h => h ▸ rfl
  userRegister := fun h _ => h ▸ rfl
  setPc := fun h _ => h ▸ rfl
  act := fun h _ _ => h ▸ rfl
  enter := fun h _ => h ▸ rfl

/-- An action keeps related buses related. -/
theorem Action.bus_related {B C : Type} [Bus B] [Bus C] {S : B → C → Prop}
    (hS : Bus.Bisimulation S) (a : Action) {x : Execution B} {y : Execution C}
    (h : S x.bus y.bus) : S (a.run x).bus (a.run y).bus := by
  rw [a.bus_run, a.bus_run]
  cases a with
  | store w s a v => exact hS.write h w (w.align a) v
  | _ => exact h

/-! ## Instructions in flight -/

section

variable {B C : Type} {K : Core → Core → Prop} {S : B → C → Prop}

/-- Two instructions in flight over related cores and buses that have left the same
    footprint and waited for as long. -/
structure Twinned (K : Core → Core → Prop) (S : B → C → Prop) (x : Execution B)
    (y : Execution C) : Prop where
  core : K x.core y.core
  bus : S x.bus y.bus
  footprint : x.footprint = y.footprint
  internal : x.internal = y.internal

namespace Twinned

variable {x : Execution B} {y : Execution C}

theorem flushed (h : Twinned K S x y) : x.flushed = y.flushed :=
  congrArg Footprint.flushed h.footprint

theorem scattered (h : Twinned K S x y) : x.scattered = y.scattered :=
  congrArg Footprint.scattered h.footprint

/-- Twinned instructions leave related cores behind. -/
theorem endCore (h : Twinned K S x y) (hK : Core.Congruence K) (set : InstructionSet) :
    K (Machine.endCore set x) (Machine.endCore set y) := by
  rw [Machine.endCore, Machine.endCore, h.flushed, hK.pc h.core]
  split
  · exact h.core
  · exact hK.setPc h.core _

variable [Bus B] [Bus C]

/-- Being twinned is a simulation. -/
theorem simulation (hK : Core.Congruence K) (hS : Bus.Bisimulation S) :
    Simulation (Twinned K S) where
  registers := fun h => hK.registers h.core
  cpsr := fun h => hK.cpsr h.core
  spsr := fun h => hK.spsr h.core
  userRegister := fun h => hK.userRegister h.core
  loaded := fun h w _ a => Bus.read_congr (hS.readByte h.bus) w (w.align a)
  act := by
    intro x y h a legal
    refine ⟨?_, a.bus_related hS h.bus, ?_, ?_⟩
    · rw [a.core_run, a.core_run]
      exact hK.act h.core a legal
    · rw [a.footprint_run, a.footprint_run, h.footprint]
    · rw [a.internal_run, a.internal_run, h.internal]

/-- Twinned instructions leave the same last code fetch. -/
theorem endFetch (h : Twinned K S x y) (hK : Core.Congruence K) (set : InstructionSet)
    (pc : Word) : Machine.endFetch set pc x = Machine.endFetch set pc y := by
  rw [Machine.endFetch, Machine.endFetch, h.flushed, Machine.refill, Machine.refill,
    hK.pc h.core, hK.instructionSet h.core]

/-- They take as long where their buses charge alike. -/
theorem endCycles (h : Twinned K S x y) (hK : Core.Congruence K)
    (hcost : Bus.cost x.bus = Bus.cost y.bus) (last : Option Word) (set : InstructionSet)
    (pc : Word) : Machine.endCycles last set pc x = Machine.endCycles last set pc y := by
  have hdata : dataCycles x.bus x.trail = dataCycles y.bus y.trail := by
    rw [dataCycles_eq_ofInt, dataCycles_eq_ofInt, dataCharge_eq_totalCost,
      dataCharge_eq_totalCost, h.footprint, totalCost_congr hcost]
  rw [Machine.endCycles, Machine.endCycles, h.scattered, h.flushed, h.internal, hdata,
    Machine.refill, Machine.refill, hK.pc h.core, hK.instructionSet h.core, hcost]

end Twinned

end

/-! ## Machines -/

namespace Machine

variable {B C : Type} {K : Core → Core → Prop} {S : B → C → Prop}

/-- Two machines with related cores and buses; their hosts are free. -/
structure Lockstep (K : Core → Core → Prop) (S : B → C → Prop) (m : Machine B)
    (m' : Machine C) : Prop where
  core : K m.core m'.core
  bus : S m.bus m'.bus

namespace Lockstep

variable {m : Machine B} {m' : Machine C}

/-- Nothing has happened when an instruction starts. -/
theorem start (h : Lockstep K S m m') (hK : Core.Congruence K) :
    Twinned K S (.start m.core.aligned m.bus) (.start m'.core.aligned m'.bus) := by
  refine ⟨?_, h.bus, rfl, rfl⟩
  show K (m.core.setRegister Reg.pc (m.core.instructionSet.align m.core.pc))
    (m'.core.setRegister Reg.pc (m'.core.instructionSet.align m'.core.pc))
  rw [hK.instructionSet h.core, hK.pc h.core]
  exact hK.setPc h.core _

variable [Bus B] [Bus C]

/-- Machines in lockstep fetch the same instruction. -/
theorem fetched (h : Lockstep K S m m') (hK : Core.Congruence K) (hS : Bus.Bisimulation S) :
    m.fetched = m'.fetched := by
  have hword (a : Word) : Bus.readWord m.bus a = Bus.readWord m'.bus a :=
    Bus.read_congr (hS.readByte h.bus) .word a
  have hhalf (a : Word) : Bus.readHalf m.bus a = Bus.readHalf m'.bus a :=
    Bus.read_congr (hS.readByte h.bus) .half a
  simp only [Machine.fetched, hK.instructionSet h.core, hK.pc h.core, hK.cpsr h.core, hword,
    hhalf]

theorem trap? (h : Lockstep K S m m') (hK : Core.Congruence K) (hS : Bus.Bisimulation S) :
    m.trap? = m'.trap? :=
  congrArg Fetched.exception? (h.fetched hK hS)

/-- An instruction that does not trap keeps machines in lockstep while it is in
    flight. -/
theorem flight (h : Lockstep K S m m') (hK : Core.Congruence K) (hS : Bus.Bisimulation S)
    (ht : m.trap? = none) : Twinned K S m.flight m'.flight := by
  have hsim := Twinned.simulation hK hS
  have hstart := h.start hK
  rw [Machine.trap?] at ht
  rw [Machine.flight, Machine.flight, ← h.fetched hK hS]
  cases hf : m.fetched with
  | arm o =>
      rw [hf] at ht
      exact hsim.arm hstart (instructionSet_of_fetched_arm hf) ht
  | skipped o => exact hstart
  | thumb o =>
      rw [hf] at ht
      exact hsim.thumb hstart ht

/-- So does one that traps, where cores stay related that enter one handler. -/
theorem flight_of_trap (h : Lockstep K S m m') (hK : Core.Congruence K)
    (hS : Bus.Bisimulation S) {e : Exception} (ht : m.trap? = some e)
    (he : K (m.core.aligned.enter e) (m'.core.aligned.enter e)) :
    Twinned K S m.flight m'.flight := by
  obtain ⟨es, hes⟩ := Machine.flight_of_trap ht
  obtain ⟨es', hes'⟩ := Machine.flight_of_trap ((h.trap? hK hS).symm.trans ht)
  have hleft {D : Type} (k l : Core) (bus : D) (es : List Event) :
      { Execution.start k bus with
        core := l
        flushed := true
        trail := es.map Activity.event ++ [] }.footprint = .branch :=
    { Execution.start k bus with flushed := true }.footprint_events es l
  rw [hes, hes']
  refine ⟨he, h.bus, ?_, rfl⟩
  exact (hleft _ _ m.bus es).trans (hleft _ _ m'.bus es').symm

/-- Twinned flights end in lockstep. -/
theorem step (h : Lockstep K S m m') (hK : Core.Congruence K)
    (hf : Twinned K S m.flight m'.flight) : Lockstep K S m.step.2 m'.step.2 := by
  constructor
  · rw [core_step, core_step, ← hK.instructionSet h.core]
    exact hf.endCore hK _
  · rw [bus_step, bus_step]
    exact hf.bus

/-- After twinned flights the last code fetches are the same. -/
theorem lastFetch_step (h : Lockstep K S m m') (hK : Core.Congruence K)
    (hf : Twinned K S m.flight m'.flight) :
    m.step.2.host.lastFetch = m'.step.2.host.lastFetch := by
  rw [(host_step m).lastFetch, (host_step m').lastFetch, ← hK.instructionSet h.core,
    ← hK.pc h.core, hf.endFetch hK]

/-- Twinned flights take as long, where the last code fetches were the same and the
    buses charge alike. -/
theorem cycles_step (h : Lockstep K S m m') (hK : Core.Congruence K)
    (hf : Twinned K S m.flight m'.flight) (hlast : m.host.lastFetch = m'.host.lastFetch)
    (hcost : Bus.cost m.step.2.bus = Bus.cost m'.step.2.bus) : m.step.1 = m'.step.1 := by
  rw [bus_step, bus_step] at hcost
  rw [Machine.cycles_step, Machine.cycles_step, ← hK.instructionSet h.core, ← hK.pc h.core,
    ← hlast, hf.endCycles hK hcost]

/-- Under a bisimulation every flight is twinned. -/
theorem twinned (h : Lockstep K S m m') (hK : Core.Bisimulation K) (hS : Bus.Bisimulation S) :
    Twinned K S m.flight m'.flight := by
  cases ht : m.trap? with
  | none => exact h.flight hK.toCongruence hS ht
  | some e =>
      have hstart := h.start hK.toCongruence
      exact h.flight_of_trap hK.toCongruence hS ht (hK.enter hstart.core e)

/-- Under a bisimulation lockstep lasts, by induction on the steps. -/
theorem after (h : Lockstep K S m m') (hK : Core.Bisimulation K) (hS : Bus.Bisimulation S)
    (n : Nat) : Lockstep K S (m.after n) (m'.after n) := by
  induction n with
  | zero => exact h
  | succ n ih =>
      rw [after_succ, after_succ]
      exact ih.step hK.toCongruence (ih.twinned hK hS)

/-- After a step in lockstep the last code fetches are the same, whatever they were. -/
theorem lastFetch_after (h : Lockstep K S m m') (hK : Core.Bisimulation K)
    (hS : Bus.Bisimulation S) (n : Nat) :
    (m.after (n + 1)).host.lastFetch = (m'.after (n + 1)).host.lastFetch := by
  have hn := h.after hK hS n
  rw [after_succ, after_succ]
  exact hn.lastFetch_step hK.toCongruence (hn.twinned hK hS)

end Lockstep

end Machine

end Armv4t
