import Armv4t.Proofs.Alignment
import Armv4t.Proofs.Confinement
import Armv4t.Proofs.Encoding.Arm
import Armv4t.Proofs.Encoding.Thumb

/-! # Reserved encodings — what no program may use traps, and nothing else does

    The tables of the encodings say which words decode to nothing a program may use.
    Such a word is fetched like any other.  Where its condition holds, the step enters
    the undefined handler from the state it was fetched in, and that is all it does;
    where its condition fails, R15 goes on.

    * a machine is about to trap as undefined exactly when the word it fetches is
      reserved and is carried out (`trap?_undefined_iff`);
    * the step is then the entry into the handler (`refused_step`), otherwise it passes
      (`passed_step`), from any state, one without a mode included;
    * both sets together make `reserved_encodings_trap`. -/

namespace Armv4t

/-- The undefined instructions and those of a coprocessor trap as undefined. -/
theorem Arm.Instruction.exception?_undefined_iff {i : Arm.Instruction} :
    i.exception? = some .undefined ↔ i = .undefined ∨ i = .coprocessor := by
  cases i with
  | undefined => exact ⟨fun _ => Or.inl rfl, fun _ => rfl⟩
  | coprocessor => exact ⟨fun _ => Or.inr rfl, fun _ => rfl⟩
  | _ =>
      constructor
      · intro h
        exact nomatch h
      · rintro (h | h) <;> exact nomatch h

theorem Thumb.Instruction.exception?_undefined_iff {i : Thumb.Instruction} :
    i.exception? = some .undefined ↔ i = .undefined := by
  cases i with
  | undefined => exact ⟨fun _ => rfl, fun _ => rfl⟩
  | _ =>
      constructor
      · intro h
        exact nomatch h
      · intro h
        exact nomatch h

namespace Machine

variable {B : Type} [Bus B]

/-- A step that entered the undefined handler, and did nothing else. -/
structure Refused (m m' : Machine B) : Prop where
  core : m'.core = m.core.aligned.enter .undefined
  /-- The way back is the next instruction; what the program had is kept. -/
  entered : m.core.Entered .undefined
    (m.core.instructionSet.align m.core.pc + m.core.instructionSet.size) m'.core
  bus : m'.bus = m.bus
  /-- The data side was not used at all. -/
  accesses : m.flight.accesses = []
  host : ∃ fetch, Ended m.host none fetch m'.host

/-- A step that moved R15 to the next instruction, and did nothing else. -/
structure Passed (m m' : Machine B) : Prop where
  core : m'.core = m.core.setRegister Reg.pc
    (m.core.instructionSet.align m.core.pc + m.core.instructionSet.size)
  bus : m'.bus = m.bus
  accesses : m.flight.accesses = []
  host : ∃ fetch, Ended m.host none fetch m'.host

/-! ## What a machine fetches -/

/-- The word at R15, aligned. -/
def fetchedWord (m : Machine B) : Word := Bus.readWord m.bus (alignWord m.core.pc)

/-- The halfword at R15, aligned. -/
def fetchedHalf (m : Machine B) : Half := (Bus.readHalf m.bus (alignHalf m.core.pc)).toUInt16

variable {m : Machine B}

theorem fetched_of_arm (hs : m.core.instructionSet = .arm)
    (hc : m.core.cpsr.satisfies (Arm.decode m.fetchedWord).condition = true) :
    m.fetched = .arm (Arm.decode m.fetchedWord) := by
  rw [fetched, hs]
  exact if_pos hc

theorem fetched_of_skipped (hs : m.core.instructionSet = .arm)
    (hc : m.core.cpsr.satisfies (Arm.decode m.fetchedWord).condition = false) :
    m.fetched = .skipped (Arm.decode m.fetchedWord) := by
  rw [fetched, hs]
  refine if_neg ?_
  intro h
  exact Bool.noConfusion (hc.symm.trans h)

theorem fetched_of_thumb (hs : m.core.instructionSet = .thumb) :
    m.fetched = .thumb (Thumb.decode m.fetchedHalf) := by
  rw [fetched, hs]
  rfl

/-- The condition that no flags satisfy. -/
theorem not_satisfies_of_never {w : Word} (h : nibble w 28 = 15) (p : Psr) :
    p.satisfies (Arm.decode w).condition = false := by
  show Condition.holds p.flags (.ofCode (nibble w 28)) = false
  rw [h]
  rfl

/-- The word that a machine is about to carry out is one that no program may use. -/
def FetchesReserved (m : Machine B) : Prop :=
  match m.core.instructionSet with
  | .arm => m.core.cpsr.satisfies (Arm.decode m.fetchedWord).condition = true
      ∧ (Arm.Reserved m.fetchedWord ∨ Arm.ForCoprocessor m.fetchedWord)
  | .thumb => Thumb.Reserved m.fetchedHalf.toUInt32

/-- **A machine is about to trap as undefined exactly when it fetches a reserved word
    that is carried out.** -/
theorem trap?_undefined_iff (m : Machine B) : m.trap? = some .undefined ↔ m.FetchesReserved := by
  rw [trap?, FetchesReserved]
  cases hs : m.core.instructionSet with
  | arm =>
      show _ ↔ _ ∧ _
      cases hc : m.core.cpsr.satisfies (Arm.decode m.fetchedWord).condition with
      | true =>
          rw [fetched_of_arm hs hc, ← Arm.trapping_iff]
          show (Arm.decodeInstruction m.fetchedWord).exception? = _ ↔ _
          rw [Arm.Instruction.exception?_undefined_iff, eq_self_iff_true, true_and]
      | false =>
          rw [fetched_of_skipped hs hc]
          constructor
          · intro h
            cases h
          · rintro ⟨h, -⟩
            exact Bool.noConfusion h
  | thumb =>
      show _ ↔ Thumb.Reserved _
      rw [fetched_of_thumb hs, ← Thumb.undefined_iff]
      exact Thumb.Instruction.exception?_undefined_iff

/-! ## The step -/

/-- A trap as undefined is the entry into the handler, from any state. -/
theorem refused_step (h : m.trap? = some .undefined) : m.Refused m.step.2 := by
  obtain ⟨es, hes⟩ := flight_of_trap h
  have hcore := core_step_of_trap h
  have hent := Core.entered_of_mode (Core.mode_linked_undefined m.core.aligned)
  have hlink : m.core.aligned.returnAddress .undefined
      = m.core.instructionSet.align m.core.pc + m.core.instructionSet.size := by
    rw [← Core.pc_aligned]
    rfl
  have hfault : m.flight.fault = none := by
    rw [hes]
    rfl
  have hhost := host_step m
  rw [hfault] at hhost
  refine ⟨hcore, ?_, ?_, ?_, ⟨_, hhost⟩⟩
  · rw [hcore, ← hlink]
    exact hent.of_aligned
  · rw [bus_step, hes]
    rfl
  · -- the trail holds what there was to tell, and no access
    rw [hes, Execution.accesses]
    show ((es.map Activity.event ++ []).reverse.filterMap _) = []
    rw [List.append_nil, ← List.map_reverse, List.filterMap_map]
    exact List.filterMap_eq_nil_iff.mpr fun _ _ => rfl

/-- An instruction whose condition fails is passed over. -/
theorem passed_step (hs : m.core.instructionSet = .arm)
    (hc : m.core.cpsr.satisfies (Arm.decode m.fetchedWord).condition = false) :
    m.Passed m.step.2 := by
  have hflight : m.flight = .start m.core.aligned m.bus := by
    rw [flight, fetched_of_skipped hs hc]
    rfl
  have hhost := host_step m
  have hcore : m.step.2.core = m.core.setRegister Reg.pc
      (m.core.instructionSet.align m.core.pc + m.core.instructionSet.size) := by
    rw [core_step, hflight]
    show m.core.aligned.setRegister Reg.pc (m.core.aligned.pc + _) = _
    rw [Core.pc_aligned]
    exact congrArg (fun rs => { m.core with registers := rs }) (Vector.set_set ..)
  rw [hflight] at hhost
  refine ⟨hcore, ?_, ?_, ⟨_, hhost⟩⟩
  · rw [bus_step, hflight]
    rfl
  · rw [hflight]
    rfl

/-- **Reserved encodings trap, and only they do**: which words decode as undefined or
    for a coprocessor in the 32-bit set, and which halfwords decode as undefined in the
    16-bit set.  From every state a step over such a word enters the undefined handler
    and does nothing else if it is carried out, and passes if its condition fails; the
    condition `0xF` always fails. -/
theorem reserved_encodings_trap :
    (∀ w : Word, (Arm.decode w).instruction = .undefined ∨ (Arm.decode w).instruction = .coprocessor
        ↔ Arm.Reserved w ∨ Arm.ForCoprocessor w)
      ∧ (∀ h : Half, (Thumb.decode h).instruction = .undefined ↔ Thumb.Reserved h.toUInt32)
      ∧ (∀ (w : Word) (p : Psr), nibble w 28 = 15 →
        p.satisfies (Arm.decode w).condition = false)
      ∧ ∀ m : Machine B, (m.FetchesReserved ↔ m.trap? = some .undefined)
        ∧ (m.FetchesReserved → m.Refused m.step.2)
        ∧ (m.core.instructionSet = .arm →
          m.core.cpsr.satisfies (Arm.decode m.fetchedWord).condition = false →
          m.Passed m.step.2) := by
  refine ⟨Arm.trapping_iff, fun h => Thumb.undefined_iff _,
    fun w p h => not_satisfies_of_never h p, ?_⟩
  intro m
  exact ⟨m.trap?_undefined_iff.symm, fun h => refused_step (m.trap?_undefined_iff.mpr h),
    passed_step⟩

/-- A coprocessor instruction in user mode traps; under the condition that never holds it
    passes. -/
theorem reserved_encodings_trap_of_coprocessor :
    (Rom.machine [0xEE000000] .user).Refused (Rom.machine [0xEE000000] .user).step.2
      ∧ (Rom.machine [0xFE000000] .user).Passed (Rom.machine [0xFE000000] .user).step.2 := by
  obtain ⟨-, -, -, hstep⟩ := reserved_encodings_trap (B := Rom)
  constructor
  · have htrap : (Rom.machine [0xEE000000] .user).trap? = some .undefined := by rfl
    exact (hstep _).2.1 ((hstep _).1.mpr htrap)
  · have hset : (Rom.machine [0xFE000000] .user).core.instructionSet = .arm := by rfl
    have hnever := not_satisfies_of_never (w := 0xFE000000) rfl
      (Rom.machine [0xFE000000] .user).core.cpsr
    exact (hstep _).2.2 hset hnever

end Machine

end Armv4t
