import Armv4t.Proofs.Questions

/-! # Fetch addresses — what the hook is asked, and what executes

    The hook is asked about R15 as it stands.  The instruction is fetched at R15 aligned
    for its set.  The two are one address exactly where R15 is on an instruction, which it
    is at every boundary within a run, and at the first one where the host has left it
    there.

    * A turn executes the instruction at the aligned address (`executed_turn`);
    * the address that was asked about is that one at every boundary but a displaced first
      one (`asked_where_fetched_iff`);
    * so a hook that says yes at an address stops every instruction there, but for one that
      a run resumes at or starts from a displaced R15 (`first_of_watched`);
    * the host displaces R15 by writing it, by a snapshot, or by a status that selects the
      other set (`HostOp.Displaces`), and nothing else does (`pcAligned_apply`). -/

namespace Armv4t

namespace Machine

variable {B : Type} [Bus B] {m : Machine B} {budget : Int32} {n k : Nat}

/-! ## The instruction that executes -/

/-- The address that the next instruction is fetched from. -/
def fetchAddress (m : Machine B) : Word := m.core.instructionSet.align m.core.pc

/-- The instruction at an address, as the machine would fetch it. -/
def fetchedAt (m : Machine B) (a : Word) : Fetched :=
  match m.core.instructionSet with
  | .arm =>
    let o := Arm.decode (Bus.readWord m.bus a)
    if m.core.cpsr.satisfies o.condition then .arm o else .skipped o
  | .thumb => .thumb (Thumb.decode (Bus.readHalf m.bus a).toUInt16)

theorem fetched_eq (m : Machine B) : m.fetched = m.fetchedAt m.fetchAddress := by
  rw [fetched, fetchedAt, fetchAddress]
  cases m.core.instructionSet <;> rfl

/-- From one machine to another the instruction at an address has executed. -/
structure Executed (m : Machine B) (a : Word) (m' : Machine B) : Prop where
  core : m'.core = endCore m.core.instructionSet
    ((m.fetchedAt a).execute (.start m.core.aligned m.bus))
  bus : m'.bus = ((m.fetchedAt a).execute (.start m.core.aligned m.bus)).bus

/-- A turn executes the instruction at the aligned address, whatever the hook was asked. -/
theorem executed_turn (s : Int32 × Machine B) : s.2.Executed s.2.fetchAddress (turn s).2 := by
  have halike := (Alike.asked s.2).step.2
  constructor
  · show s.2.asked.step.2.core = _
    rw [halike.core, core_step, flight, fetched_eq]
  · show s.2.asked.step.2.bus = _
    rw [halike.bus, bus_step, flight, fetched_eq]

/-! ## Where it was asked about -/

/-- The address of the question is the address of the fetch, but for a displaced R15 at the
    start of a run. -/
theorem asked_where_fetched_iff (budget : Int32) (m : Machine B) (k : Nat) :
    (turns budget m k).2.core.pc = (turns budget m k).2.fetchAddress
      ↔ 0 < k ∨ m.core.PcOnInstruction := by
  cases k with
  | zero =>
      rw [Core.pcOnInstruction_iff]
      exact ⟨fun h => Or.inr h.symm, fun h => (h.resolve_left (Nat.lt_irrefl 0)).symm⟩
  | succ k =>
      have haligned : (turns budget m (k + 1)).2.core.PcAligned := by
        rw [turns_succ]
        exact (turns budget m k).2.asked.pcAligned_step
      exact ⟨fun _ => Or.inl (Nat.succ_pos k), fun _ => haligned.symm⟩

/-- What executes in spite of a hook that always says yes there is the first instruction of
    a run, which resumes, or starts from a displaced R15. -/
theorem first_of_watched {hook : Hook} {a : Word} (hhook : m.host.hook = some hook)
    (hyes : ∀ asked, hook.answer asked a = true) (h : Executes m budget n) (hk : k < n)
    (ha : (turns budget m k).2.fetchAddress = a) :
    k = 0 ∧ (m.host.resumeAt = some m.core.pc ∨ ¬ m.core.PcOnInstruction) := by
  rcases questioned_within (hhook ▸ Option.some_ne_none hook) h hk with
    ⟨asker, hasker, hno, -⟩ | ⟨rfl, hresume, -⟩
  · -- the answer was no, so the question was about another address
    obtain ⟨asked, hinstalled⟩ := hook_turns hhook fun j hj => h.goesOn j (Nat.lt_trans hj hk)
    rw [hinstalled] at hasker
    obtain rfl := Option.some.inj hasker
    have hpc : (turns budget m k).2.core.pc ≠ (turns budget m k).2.fetchAddress := by
      intro hpc
      rw [hpc, ha] at hno
      exact Bool.noConfusion ((hyes asked).symm.trans hno)
    have hdisplaced := mt (asked_where_fetched_iff budget m k).mpr hpc
    rw [not_or] at hdisplaced
    exact ⟨Nat.eq_zero_of_not_pos hdisplaced.1, Or.inr hdisplaced.2⟩
  · exact ⟨rfl, Or.inl hresume⟩

end Machine

/-! ## What displaces R15 -/

/-- The operations that can leave R15 off an instruction. -/
def HostOp.Displaces {B : Type} : HostOp B → Prop
  | write i _ => i = Reg.pc
  | restore _ | writeStatus _ => True
  | _ => False

/-- A switch of the mode leaves R15 and the instruction set. -/
theorem Core.PcAligned.switchMode {k : Core} (h : k.PcAligned) (m : Mode) :
    (k.switchMode m).PcAligned := by
  have ht : (k.switchMode m).cpsr.t = k.cpsr.t :=
    (k.cpsr_switchMode m).bit_eq (by decide) (by decide)
  exact h.of_eq (congrArg InstructionSet.ofBit ht) (k.read_switchMode_of_low m (Or.inr rfl))

namespace HostOp

variable {B : Type} [Bus B] {m : Machine B}

/-- Every other operation leaves R15 on an instruction where it was. -/
theorem pcAligned_apply (h : m.core.PcAligned) {op : HostOp B} (hop : ¬ op.Displaces) :
    (op.apply m).core.PcAligned := by
  have entered (e : Exception) : (m.enterException e).2.core.PcAligned := by
    rw [Machine.core_enterException]
    exact m.core.pcAligned_enter e
  cases op with
  | step => exact m.pcAligned_step
  | execute budget =>
      obtain ⟨n, hn⟩ := Machine.exists_executes m budget
      show (m.execute budget).2.core.PcAligned
      rw [hn.alike_after.core]
      exact Machine.pcAligned_after h n
  | raiseIrq =>
      show m.raiseIrq.2.core.PcAligned
      rw [Machine.raiseIrq]
      by_cases hd : m.core.cpsr.irqDisabled = true
      · rw [if_pos hd]
        exact h
      · rw [if_neg hd]
        exact entered .irq
  | enterException e => exact entered e
  | changeMode n =>
      rcases apply_changeMode m n with hsame | ⟨mode, hmode⟩
      · rw [hsame]
        exact h
      · rw [hmode]
        exact h.switchMode mode
  | switchMode mode => exact h.switchMode mode
  | reset => exact Core.pcAligned_jump _ m.host.config.resetVector
  | write i v => exact h.of_eq rfl (m.core.pc_setRegister_of_ne hop v)
  | writeStatus | restore => exact absurd trivial hop
  | _ => exact h

/-- By induction on the operations, so does any sequence of them. -/
theorem pcAligned_foldl (ops : List (HostOp B)) {m : Machine B} (h : m.core.PcAligned)
    (hops : ∀ op ∈ ops, ¬ op.Displaces) : (ops.foldl apply m).core.PcAligned := by
  induction ops generalizing m with
  | nil => exact h
  | cons op ops ih =>
      exact ih (pcAligned_apply h (hops op List.mem_cons_self))
        fun o ho => hops o (List.mem_cons_of_mem op ho)

end HostOp

namespace Machine

variable {B : Type} [Bus B]

/-- **The hook sees the address that executes, but for a displaced R15.**  Each instruction
    of a run is the one at R15 aligned for its set.  Unless the run resumes with it, the
    hook was asked about R15 before; and that is the address of the instruction everywhere
    but at a start from an R15 that is off an instruction, where it is not.

    So a hook that always says yes at an address stops every instruction there, but for the
    first one of a run that resumes or starts so.  An R15 that is on an instruction stays
    there until the host writes it, restores a snapshot or writes the status. -/
theorem hook_sees_address_unless_displaced (m : Machine B) :
    (∀ budget n, Executes m budget n → ∀ k < n,
        let before := (turns budget m k).2
        let after := (turns budget m (k + 1)).2
        before.Executed before.fetchAddress after
          ∧ (m.host.hook ≠ none → 0 < k ∨ m.host.resumeAt ≠ some m.core.pc →
            before.Questioned before.core.pc false after)
          ∧ (before.core.pc = before.fetchAddress ↔ 0 < k ∨ m.core.PcOnInstruction))
      ∧ (∀ budget n hook a, m.host.hook = some hook →
        (∀ asked, hook.answer asked a = true) → Executes m budget n →
        ∀ k < n, (turns budget m k).2.fetchAddress = a →
          k = 0 ∧ (m.host.resumeAt = some m.core.pc ∨ ¬ m.core.PcOnInstruction))
      ∧ (m.core.PcOnInstruction → ∀ ops : List (HostOp B), (∀ op ∈ ops, ¬ op.Displaces) →
        (ops.foldl HostOp.apply m).core.PcOnInstruction) := by
  refine ⟨?_, ?_, ?_⟩
  · intro budget n hexecutes k hk before after
    refine ⟨?_, ?_, asked_where_fetched_iff budget m k⟩
    · show (turns budget m k).2.Executed _ (turns budget m (k + 1)).2
      rw [turns_succ]
      exact executed_turn _
    · intro hook hasks
      rcases questioned_within hook hexecutes hk with hquestion | ⟨rfl, hresume, -⟩
      · exact hquestion
      · rcases hasks with hpos | hne
        · exact absurd hpos (Nat.lt_irrefl 0)
        · exact absurd hresume hne
  · intro budget n hook a hhook hyes hexecutes k hk ha
    exact first_of_watched hhook hyes hexecutes hk ha
  · intro h ops hops
    rw [Core.pcOnInstruction_iff] at h ⊢
    exact HostOp.pcAligned_foldl ops h hops

/-- With a breakpoint at address 0 and R15 written with 2, a run asks about 2 and executes
    the instruction at 0; the next one is asked about where it is.  Without that write R15
    stays on an instruction, through an entry into a handler and a run. -/
theorem hook_sees_address_unless_displaced_of_written :
    let placed := (Rom.machine [0xE3A00001, 0xE3A01002] .supervisor).setHook (.ofList [0])
    let m := placed.write Reg.pc 2
    m.Questioned 2 false (turns 2 m 1).2 ∧ m.Executed 0 (turns 2 m 1).2
      ∧ (turns 2 m 1).2.core.registers.read 0 = 1
      ∧ ¬ m.core.PcOnInstruction
      ∧ (turns 2 m 1).2.core.pc = (turns 2 m 1).2.fetchAddress
      ∧ ([.enterException .irq, .execute 2].foldl HostOp.apply placed).core.PcOnInstruction := by
  intro placed m
  have hexecutes : Executes m 2 2 :=
    ⟨by decide +kernel, fun hgo => absurd hgo (by decide +kernel), by decide⟩
  have haddress : (turns 2 m 0).2.fetchAddress = 0 := by decide +kernel
  obtain ⟨hturns, hwatched, -⟩ := hook_sees_address_unless_displaced m
  obtain ⟨-, -, hstays⟩ := hook_sees_address_unless_displaced placed
  obtain ⟨hexecuted, hasks, -⟩ := hturns 2 2 hexecutes 0 (by decide)
  obtain ⟨-, -, hsame⟩ := hturns 2 2 hexecutes 1 (by decide)
  obtain ⟨-, hfirst⟩ := hwatched 2 2 _ 0 rfl (fun _ => rfl) hexecutes 0 (by decide) haddress
  rw [haddress] at hexecuted
  refine ⟨hasks (Option.some_ne_none _) (Or.inr (by decide +kernel)), hexecuted,
    by decide +kernel, hfirst.resolve_left (by decide +kernel),
    hsame.mpr (Or.inl Nat.one_pos), hstays (by decide +kernel) _ ?_⟩
  intro op hop
  rcases List.mem_cons.mp hop with rfl | hop
  · exact id
  · rw [List.mem_singleton.mp hop]
    exact id

end Machine

end Armv4t
