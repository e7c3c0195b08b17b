import Armv4t.Proofs.Halting
import Armv4t.Proofs.Questions

/-! # Breakpoints — stopping where the hook says yes, and going on

    A yes stops a run before anything executes, and its address is remembered.  The next
    run that finds R15 there goes on without asking.

    * Few operations take a machine on from there (`HostOp.Departs`): those that execute an
      instruction, a restore, a reset, and clearing the hook.  Under all others the address
      stays (`Rests.resumeAt_eq`), so that the next run steps over (`steps_over`);
    * whatever is remembered comes from a stop that nothing has taken the machine on from,
      by induction on what the host does (`Session.founded`), so that no other address is
      ever passed without asking;
    * of two runs in a row one executes an instruction (`Series.le_instructions`);
    * a pending break ends one run that has a budget (`execute_of_break`), and no other
      (`breakRequested_execute`).

    `breakpoints_stop_and_resume` puts them together. -/

namespace Armv4t

/-- After the checks no break is pending. -/
theorem Host.breakRequested_shouldStop (h : Host) (pc : Word) :
    (h.shouldStop pc).2.breakRequested = false := by
  by_cases hb : h.breakRequested = true
  · rw [shouldStop_of_break hb]
    rfl
  · have hb' := Bool.eq_false_of_not_eq_true hb
    by_cases hf : h.Halts
    · rw [shouldStop_of_halts hb' hf]
      exact hb'
    · by_cases hr : h.resumeAt = some pc
      · rw [shouldStop_of_resume hb' hf hr]
        exact hb'
      · obtain ⟨hook, hask⟩ := h.ask_eq pc
        rw [shouldStop_of_ask hb' hf hr, hask]
        split <;> exact hb'

namespace Machine

variable {B : Type} [Bus B] {m m' : Machine B} {budget : Int32} {n : Nat}

/-! ## Runs that execute nothing -/

/-- A pending break ends a run that has a budget, and is used up. -/
theorem execute_of_break (hb : m.host.breakRequested = true) (hpos : 0 < budget) :
    m.execute budget
      = (budget, { m with
          host := { m.host with breakRequested := false }.tell (.breakTaken m.core.pc) }) := by
  obtain ⟨hstops, hasked⟩ := asked_of_shouldStop (Host.shouldStop_of_break hb)
  rw [execute_succ, if_pos hpos, if_pos hstops, hasked]

/-- A run without a budget does not even ask. -/
theorem execute_of_not_pos (hpos : ¬ 0 < budget) : m.execute budget = (budget, m) := by
  rw [execute_succ, if_neg hpos]

/-- A run that goes on executes an instruction. -/
theorem Executes.pos (h : Executes m budget n) (hgo : GoesOn (budget, m)) : 0 < n := by
  cases n with
  | zero => exact absurd (h.ends hgo) (by decide)
  | succ n => exact Nat.succ_pos n

end Machine

/-! ## Resting -/

/-- The operations that take a machine on from where it has stopped: those that execute an
    instruction, and those that make the host forget the address. -/
def HostOp.Departs {B : Type} (m : Machine B) : HostOp B → Prop
  | step | reset | clearHook => True
  | restore snapshot => snapshot.cpsr.HasMode
  | execute budget => 0 < budget ∧ m.Ready
  | _ => False

/-- Every other operation keeps the address. -/
theorem HostOp.resumeAt_apply {B : Type} [Bus B] {m : Machine B} {op : HostOp B}
    (h : ¬ op.Departs m) : (op.apply m).host.resumeAt = m.host.resumeAt := by
  cases op with
  | step | reset | clearHook => exact absurd trivial h
  | execute budget =>
      show (m.execute budget).2.host.resumeAt = _
      by_cases hpos : 0 < budget
      · obtain ⟨hstops, hasked⟩ := Machine.stops_of_not_ready fun hready => h ⟨hpos, hready⟩
        rw [Machine.execute_succ, if_pos hpos, if_pos hstops]
        exact hasked
      · rw [Machine.execute_of_not_pos hpos]
  | raiseIrq =>
      show m.raiseIrq.2.host.resumeAt = _
      rw [Machine.raiseIrq]
      split <;> rfl
  | changeMode n =>
      rcases apply_changeMode m n with hsame | ⟨mode, hmode⟩
      · rw [hsame]
      · rw [hmode]
        rfl
  | writeStatus p =>
      rcases apply_writeStatus m p with hsame | ⟨x, -, -, hcommit⟩
      · rw [hsame]
      · rw [hcommit]
        rfl
  | restore snapshot =>
      -- a snapshot without a mode is refused
      rcases apply_restore m snapshot with hsame | ⟨hk, -⟩
      · rw [hsame]
      · exact absurd hk h
  | isBreakpoint a =>
      obtain ⟨hook, hask⟩ := m.host.ask_eq a
      show (m.host.ask a).2.resumeAt = _
      rw [hask]
  | _ => rfl

namespace Machine

variable {B : Type} [Bus B] {m m' : Machine B} {budget : Int32} {n : Nat}

/-- What a machine can become while nothing takes it on: by operations, and by overwriting
    the core and the bus with anything. -/
inductive Rests (m : Machine B) : Machine B → Prop where
  | here : Rests m m
  | call {m' : Machine B} (before : Rests m m') (op : HostOp B) (h : ¬ op.Departs m') :
      Rests m (op.apply m')
  | overwrite {m' : Machine B} (before : Rests m m') (core : Core) (bus : B) :
      Rests m { m' with core, bus }

/-- The address stays, by induction on what is done to the machine. -/
theorem Rests.resumeAt_eq (h : m.Rests m') : m'.host.resumeAt = m.host.resumeAt := by
  induction h with
  | here => rfl
  | call before op hop ih => exact (HostOp.resumeAt_apply hop).trans ih
  | overwrite before core bus ih => exact ih

/-- **The next run steps over**: it executes the instruction without asking, and has
    nothing to resume afterwards. -/
theorem steps_over {later : Machine B} (hrests : m.paused.Rests later)
    (hpc : later.core.pc = m.core.pc) (hready : later.Ready) (hpos : 0 < budget) :
    (∃ n, 0 < n ∧ Executes later budget n)
      ∧ turns budget later 1 = (budget - later.step.1, later.step.2)
      ∧ later.step.2.host.hook = later.host.hook ∧ later.step.2.host.resumeAt = none := by
  have hr : later.host.resumeAt = some later.core.pc := by
    rw [hrests.resumeAt_eq, hpc]
    rfl
  obtain ⟨n, hn⟩ := exists_executes later budget
  have hgo : GoesOn (budget, later) := ⟨hpos, (resumes hready hr).1⟩
  obtain ⟨hturn, hhook⟩ := turn_of_resumed (s := (budget, later)) hready hr
  exact ⟨⟨n, hn.pos hgo, hn⟩, hturn, hhook, later.host_step.resumeAt⟩

/-! ## What is remembered -/

/-- After a run that was free to go on nothing is remembered, unless it has stopped at a
    yes. -/
theorem resumeAt_execute (hpos : 0 < budget) (hready : m.Ready) :
    (m.execute budget).2.host.resumeAt = none
      ∨ ∃ stop : Machine B, stop.Hits ∧ (m.execute budget).2 = stop.paused := by
  obtain ⟨n, h⟩ := exists_executes m budget
  rcases h.last hpos with ⟨hn, hleft, heq⟩ | ⟨k, -, heq⟩
  · rw [heq]
    by_cases hr : (turns budget m n).2.Ready
    · have hhit := hits_of_left h hn hleft hr
      exact Or.inr ⟨_, hhit, hhit.asked_eq.2⟩
    · refine Or.inl ((stops_of_not_ready hr).2.trans ?_)
      cases n with
      | zero => exact absurd hready hr
      | succ n =>
          rw [turns_succ]
          exact resumeAt_turn _
  · rw [heq]
    exact Or.inl (resumeAt_turn _)

/-- Where a machine remembers an address, a run has stopped there at a yes, and nothing has
    taken the machine on since. -/
def Founded (m : Machine B) : Prop :=
  ∀ p, m.host.resumeAt = some p →
    ∃ stop : Machine B, stop.Hits ∧ stop.core.pc = p ∧ stop.paused.Rests m

theorem founded_of_none (h : m.host.resumeAt = none) : m.Founded := by
  intro p hp
  rw [h] at hp
  cases hp

/-- Every operation keeps that. -/
theorem Founded.apply (h : m.Founded) (op : HostOp B) : (op.apply m).Founded := by
  by_cases hop : op.Departs m
  · cases op with
    | step => exact founded_of_none m.host_step.resumeAt
    | reset | clearHook => exact founded_of_none rfl
    | restore snapshot =>
        refine founded_of_none ?_
        show (m.attemptRestore snapshot).state.host.resumeAt = none
        rw [attemptRestore_of_ok (Psr.HasMode.mode?_eq hop)]
        rfl
    | execute budget =>
        rcases resumeAt_execute hop.1 hop.2 with hnone | ⟨stop, hhit, heq⟩
        · exact founded_of_none hnone
        · intro p hp
          have hpaused : (HostOp.execute budget).apply m = stop.paused := heq
          rw [hpaused] at hp ⊢
          exact ⟨stop, hhit, Option.some.inj hp, .here⟩
    | _ => exact absurd hop id
  · intro p hp
    rw [HostOp.resumeAt_apply hop] at hp
    obtain ⟨stop, hhit, hpc, hrests⟩ := h p hp
    exact ⟨stop, hhit, hpc, hrests.call op hop⟩

/-- What a machine can become by anything a host does, overwriting the core and the bus
    included. -/
inductive Session (m : Machine B) : Machine B → Prop where
  | start : Session m m
  | call {m' : Machine B} (before : Session m m') (op : HostOp B) : Session m (op.apply m')
  | overwrite {m' : Machine B} (before : Session m m') (core : Core) (bus : B) :
      Session m { m' with core, bus }

/-- **What is remembered is where the last run stopped**, by induction on what the host
    does. -/
theorem Session.founded (h : m.Session m') (hnone : m.host.resumeAt = none) : m'.Founded := by
  induction h with
  | start => exact founded_of_none hnone
  | call before op ih => exact ih.apply op
  | overwrite before core bus ih =>
      intro p hp
      obtain ⟨stop, hhit, hpc, hrests⟩ := ih p hp
      exact ⟨stop, hhit, hpc, hrests.overwrite core bus⟩

/-! ## Progress -/

/-- No break is pending after a run that has a budget. -/
theorem breakRequested_execute (hpos : 0 < budget) :
    (m.execute budget).2.host.breakRequested = false := by
  have hasked (k : Machine B) : k.asked.host.breakRequested = false :=
    k.host.breakRequested_shouldStop k.core.pc
  obtain ⟨n, h⟩ := exists_executes m budget
  rcases h.last hpos with ⟨-, -, heq⟩ | ⟨k, -, heq⟩
  · rw [heq]
    exact hasked _
  · rw [heq]
    exact (turns budget m k).2.asked.host_step.breakRequested.trans (hasked _)

/-- Runs of some budgets, one after the other, that execute so many instructions. -/
inductive Series : Machine B → List Int32 → Nat → Machine B → Prop where
  | nil (m : Machine B) : Series m [] 0 m
  | cons {m m' : Machine B} {budget : Int32} {budgets : List Int32} {n k : Nat}
      (first : Executes m budget n) (rest : Series (m.execute budget).2 budgets k m') :
      Series m (budget :: budgets) (n + k) m'

/-- A fault to halt on at the start is there at the end. -/
theorem Series.halts {budgets : List Int32} (h : Series m budgets n m') (hf : m.host.Halts) :
    m'.host.Halts := by
  induction h with
  | nil => exact hf
  | @cons m m' budget budgets n k first rest ih =>
      have hop : ¬ (HostOp.execute budget : HostOp B).Forgets := id
      exact ih (HostOp.halts_apply hf hop)

/-- **Runs make progress**: of any two in a row one executes an instruction, and so does
    the first where there is an address to resume; by induction on the runs. -/
theorem Series.le_instructions {budgets : List Int32} (h : Series m budgets n m')
    (hpos : ∀ b ∈ budgets, 0 < b) (hb : m.host.breakRequested = false) (hf : ¬ m'.host.Halts) :
    budgets.length ≤ 2 * n + 1
      ∧ (m.host.resumeAt = some m.core.pc → budgets.length ≤ 2 * n) := by
  induction h with
  | nil => exact ⟨Nat.zero_le _, fun _ => Nat.zero_le _⟩
  | @cons m m' budget budgets n k first rest ih =>
      have hbudget : 0 < budget := hpos budget List.mem_cons_self
      have hready : m.Ready := ⟨hb, fun hm => hf ((Series.cons first rest).halts hm)⟩
      obtain ⟨hrest, hresumed⟩ := ih (fun b hmem => hpos b (List.mem_cons_of_mem _ hmem))
        (breakRequested_execute hbudget) hf
      rw [List.length_cons]
      have hfirst (hr : m.host.resumeAt = some m.core.pc) : 0 < n :=
        first.pos ⟨hbudget, (resumes hready hr).1⟩
      cases n with
      | zero =>
          -- the run has stopped at a yes, and the next one resumes
          have hhit : m.Hits := hits_of_left first (by decide) hbudget hready
          have heq : m.execute budget = (budget, m.paused) :=
            execute_of_hits first (by decide) hbudget hhit
          have hnext := hresumed (by rw [heq]; rfl)
          exact ⟨by omega, fun hr => absurd (hfirst hr) (Nat.lt_irrefl 0)⟩
      | succ n => exact ⟨by omega, fun _ => by omega⟩

/-! ## Stopping and going on -/

/-- **Breakpoints stop and resume**, for every hook that answers by all it was asked, and
    whatever the host does between the runs.

    Every instruction of a run was preceded by one question about R15 there, answered no,
    but for a first one that resumes.  A yes stops before anything executes, with all that
    is left; and nothing else does, a break and a fault apart.  After a stop, as long as
    nothing takes the machine on, the next run with a budget that is free to go on, and
    finds R15 as it was, executes the instruction without a question and has nothing to
    resume then.  What is remembered was always left by such a stop, so no other address is
    passed without a question; and of two runs in a row one executes an instruction.  A
    pending break ends one run with a budget, which executes nothing; a run without a
    budget and a step leave it pending. -/
theorem breakpoints_stop_and_resume (m : Machine B) :
    (∀ budget n, m.host.hook ≠ none → Executes m budget n → ∀ k < n,
        (turns budget m k).2.Questioned (turns budget m k).2.core.pc false
            (turns budget m (k + 1)).2
          ∨ k = 0 ∧ m.host.resumeAt = some m.core.pc
            ∧ (turns budget m (k + 1)).2.host.hook = m.host.hook)
      ∧ (∀ budget n, Executes m budget n → n < runLimit → 0 < (turns budget m n).1 →
        ((turns budget m n).2.Hits →
          m.execute budget = ((turns budget m n).1, (turns budget m n).2.paused))
        ∧ ((turns budget m n).2.Ready → (turns budget m n).2.Hits))
      ∧ (m.Hits → m.Questioned m.core.pc true m.paused ∧ ∃ hook journal,
        m.paused = { m with host := { m.host with hook, journal, resumeAt := some m.core.pc } })
      ∧ (∀ later budget, m.Hits → m.paused.Rests later → later.core.pc = m.core.pc →
        later.Ready → 0 < budget →
        (∃ n, 0 < n ∧ Executes later budget n)
          ∧ turns budget later 1 = (budget - later.step.1, later.step.2)
          ∧ later.step.2.host.hook = later.host.hook ∧ later.step.2.host.resumeAt = none)
      ∧ (∀ later p, m.host.resumeAt = none → m.Session later →
        later.host.resumeAt = some p →
        ∃ stop : Machine B, stop.Hits ∧ stop.core.pc = p ∧ stop.paused.Rests later)
      ∧ (∀ budgets n later, Series m budgets n later → (∀ b ∈ budgets, 0 < b) →
        m.host.breakRequested = false → ¬ later.host.Halts → budgets.length ≤ 2 * n + 1)
      ∧ (m.host.breakRequested = true →
        (∀ budget, 0 < budget → m.execute budget
          = (budget, { m with
              host := { m.host with breakRequested := false }.tell (.breakTaken m.core.pc) }))
        ∧ (∀ budget, ¬ 0 < budget → m.execute budget = (budget, m))
        ∧ m.step.2.host.breakRequested = true) := by
  refine ⟨?_, ?_, fun hhit => ⟨hhit.questioned, m.paused_eq⟩, ?_, ?_, ?_, ?_⟩
  · intro budget n hook hexecutes k hk
    exact questioned_within hook hexecutes hk
  · intro budget n hexecutes hn hleft
    exact ⟨execute_of_hits hexecutes hn hleft, hits_of_left hexecutes hn hleft⟩
  · intro later budget _ hrests hpc hready hpos
    exact steps_over hrests hpc hready hpos
  · intro later p hnone hsession hp
    exact hsession.founded hnone p hp
  · intro budgets n later hseries hpos hb hf
    exact (hseries.le_instructions hpos hb hf).1
  · intro hb
    exact ⟨fun budget => execute_of_break hb, fun budget => execute_of_not_pos,
      m.host_step.breakRequested.trans hb⟩

/-- `ADD R0, R0, #1` twice and a branch back to the first, with a breakpoint at address 4:
    a run stops there with one cycle spent, and the next one goes around once.  Another
    run would step over again, and a break would end it first. -/
theorem breakpoints_stop_and_resume_of_loop :
    let m := (Rom.machine [0xE2800001, 0xE2800001, 0xEAFFFFFC] .supervisor).setHook (.ofList [4])
    let stop := (turns 100 m 1).2
    let again := stop.paused.execute 100
    m.Questioned 0 false stop
      ∧ m.execute 100 = (99, stop.paused) ∧ stop.Questioned 4 true stop.paused
      ∧ turns 100 stop.paused 1 = (99, stop.paused.step.2)
      ∧ again.1 = 95 ∧ again.2.core.registers.read 0 = 3
      ∧ again.2.host.hook.map Hook.asked = some [4, 0, 8, 4, 0]
      ∧ (∃ hit : Machine Rom, hit.Hits ∧ hit.core.pc = 4 ∧ hit.paused.Rests again.2)
      ∧ (∀ n later, Series m [100, 100, 100] n later → ¬ later.host.Halts → 1 ≤ n)
      ∧ (again.2.requestBreak.execute 100).1 = 100 := by
  intro m stop again
  have hexecutes : Executes m 100 1 :=
    ⟨by decide +kernel, fun hgo => absurd hgo (by decide +kernel), by decide⟩
  have hhit : stop.Hits :=
    ⟨⟨by decide +kernel, by decide +kernel⟩, by decide +kernel, by decide +kernel⟩
  have hpc : stop.core.pc = 4 := by decide +kernel
  have hagain : again.2.host.resumeAt = some 4 := by decide +kernel
  have hleft : (turns 100 m 1).1 = 99 := by decide +kernel
  have hcycles : 100 - stop.paused.step.1 = 99 := by decide +kernel
  obtain ⟨hasks, hstops, -, -, hremembered, hprogress, -⟩ := breakpoints_stop_and_resume m
  obtain ⟨-, -, hpaused, hresumes, -⟩ := breakpoints_stop_and_resume stop
  obtain ⟨-, -, -, -, -, -, hbreak⟩ := breakpoints_stop_and_resume again.2.requestBreak
  have hquestion := hasks 100 1 (Option.some_ne_none _) hexecutes 0 (by decide)
  have hstop : m.execute 100 = (99, stop.paused) := by
    rw [(hstops 100 1 hexecutes (by decide) (by decide +kernel)).1 hhit, hleft]
  obtain ⟨hyes, -⟩ := hpaused hhit
  rw [hpc] at hyes
  obtain ⟨-, hturn, -⟩ := hresumes stop.paused 100 hhit .here rfl
    ⟨by decide +kernel, by decide +kernel⟩ (by decide)
  have hsession : m.Session again.2 := by
    have htwice : m.Session ((HostOp.execute 100).apply ((HostOp.execute 100).apply m)) :=
      (Session.start.call _).call _
    rw [show (HostOp.execute 100).apply m = stop.paused from congrArg Prod.snd hstop] at htwice
    exact htwice
  have hfounded := hremembered again.2 4 rfl hsession hagain
  refine ⟨?_, hstop, hyes, ?_, by decide +kernel, by decide +kernel,
    by decide +kernel, ?_, ?_, ?_⟩
  · exact hquestion.resolve_right fun h => absurd h.2.1 (by decide +kernel)
  · rw [hturn, hcycles]
  · exact hfounded
  · intro n later hseries hf
    have hpositive : ∀ b ∈ [(100 : Int32), 100, 100], 0 < b := by
      intro b hb
      obtain rfl := List.eq_of_mem_replicate (n := 3) hb
      decide
    have hle := hprogress [100, 100, 100] n later hseries hpositive rfl hf
    have hlength : [100, 100, 100].length = 3 := rfl
    omega
  · rw [(hbreak rfl).1 100 (by decide)]

end Machine

end Armv4t
