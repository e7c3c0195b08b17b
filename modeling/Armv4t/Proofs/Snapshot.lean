import Armv4t.Proofs.Lockstep

/-! # Snapshots — all of a machine that a program can observe

    Two machines with one snapshot, over buses that reads and writes cannot tell apart,
    go through the same cores and the same contents, step for step.  The hosts may hold
    anything, and the buses may charge anything: time does not find its way back
    (`Machine.run_determined_by_snapshot`).

    Where the buses charge alike, only the first step can take a different time, for its
    code fetch follows the one before; the second step follows the first one, and every
    run has that in common. -/

namespace Armv4t

namespace Bus

variable {B C : Type} [Bus B] [Bus C]

/-- Buses that hold the same bytes, and still do after the same writes. -/
def Indistinguishable (b : B) (c : C) : Prop :=
  ∀ ws a, readByte (written b ws) a = readByte (written c ws) a

/-- Buses that charge alike, and still do after the same writes. -/
def ChargeAlike (b : B) (c : C) : Prop := ∀ ws, cost (written b ws) = cost (written c ws)

theorem bisimulation_indistinguishable :
    Bisimulation (Indistinguishable : B → C → Prop) where
  readByte := fun h a => h [] a
  write := fun h width a v ws b => h (⟨width, a, v⟩ :: ws) b

/-- Related buses are indistinguishable, by induction on the writes. -/
theorem Bisimulation.indistinguishable {S : B → C → Prop} (hS : Bisimulation S) {b : B} {c : C}
    (h : S b c) : Indistinguishable b c := by
  intro ws
  induction ws generalizing b c with
  | nil => exact hS.readByte h
  | cons w ws ih => exact ih (hS.write h w.width w.address w.value)

/-- Charging alike may be asked for beside any relation. -/
theorem Bisimulation.and_chargeAlike {S : B → C → Prop} (hS : Bisimulation S) :
    Bisimulation fun b c => S b c ∧ ChargeAlike b c where
  readByte := fun h => hS.readByte h.1
  write := fun h width a v => ⟨hS.write h.1 width a v, fun ws => h.2 (⟨width, a, v⟩ :: ws)⟩

theorem chargeAlike_refl (b : B) : ChargeAlike b b := fun _ => rfl

end Bus

open Bus

/-! ## Memories that differ in their costs only -/

theorem Metered.indistinguishable {m n : Metered} (h : m.byte = n.byte) :
    Indistinguishable m n := by
  have hS : Bisimulation fun m n : Metered => m.byte = n.byte := {
    readByte := fun h a => congrFun h a
    write := by
      intro m n h width a v
      funext b
      show (bytesOf width v).getD _ (m.byte b) = (bytesOf width v).getD _ (n.byte b)
      rw [h] }
  exact hS.indistinguishable h

/-- The wait control register is not among what a program can read. -/
theorem MappedMemory.indistinguishable_setControl (m : MappedMemory) (c : WaitControl) :
    Indistinguishable m (m.setControl c) := by
  have hcells (m : MappedMemory) (r : Region) : (m.setControl c).cells r = m.cells r := by
    cases r <;> rfl
  have hmodify (m : MappedMemory) (r : Region) (f : Storage r.size → Storage r.size) :
      (m.setControl c).modify r f = (m.modify r f).setControl c := by
    cases r <;> rfl
  have hbyte (m : MappedMemory) (a : Word) (b : Byte) :
      (m.setControl c).writeByte a b = (m.writeByte a b).setControl c := by
    simp only [writeByte, hmodify]
    split
    · split <;> rfl
    · rfl
  have hbytes (bs : List Byte) (m : MappedMemory) (a : Word) :
      (m.setControl c).writeBytes a bs = (m.writeBytes a bs).setControl c := by
    induction bs generalizing m a with
    | nil => rfl
    | cons b bs ih => rw [writeBytes, hbyte, ih, writeBytes]
  -- a write and the setting of the control come out the same in either order, so that
  -- the two memories stay in step
  have hS : Bisimulation fun m n : MappedMemory => n = m.setControl c := {
    readByte := by
      rintro m n rfl a
      show m.readByte a = (m.setControl c).readByte a
      rw [readByte, readByte]
      cases locate a with
      | none => rfl
      | some place =>
          cases place with
          | cell r offset => exact congrArg (·.get offset) (hcells m r).symm
          | cartridge offset => rfl
    write := by
      rintro m n rfl width a v
      exact hbytes (bytesOf width v) m a }
  exact hS.indistinguishable rfl

/-! ## Runs -/

namespace Machine

/-- A snapshot with a mode is restored, on any machine. -/
theorem restore_snapshot {B C : Type} {m : Machine B} (hm : m.core.cpsr.HasMode)
    (other : Machine C) :
    ∃ r, other.restore m.snapshot = .ok r ∧ r.core = m.core ∧ r.bus = other.bus := by
  obtain ⟨mode, hmode⟩ := hm
  refine ⟨{ other with
    core := m.core, host := { other.host with lastFetch := none, resumeAt := none } }, ?_, rfl, rfl⟩
  rw [restore, snapshot, attemptRestore_of_ok hmode]
  rfl

variable {B C : Type} [Bus B] [Bus C]

/-- In lockstep over buses that charge alike, every step after the first takes as long
    on both machines. -/
theorem Lockstep.cycles_after {S : B → C → Prop} {m : Machine B} {m' : Machine C}
    (h : Lockstep Eq S m m') (hS : Bisimulation S) (hcost : ChargeAlike m.bus m'.bus) (n : Nat) :
    (m.after (n + 1)).step.1 = (m'.after (n + 1)).step.1 := by
  have hS' := hS.and_chargeAlike
  have hm : Lockstep Eq (fun b c => S b c ∧ ChargeAlike b c) m m' := ⟨h.core, h.bus, hcost⟩
  have hn := hm.after Core.bisimulation_eq hS' (n + 1)
  have hf := hn.twinned Core.bisimulation_eq hS'
  have hnext := hn.step Core.bisimulation_eq.toCongruence hf
  exact hn.cycles_step Core.bisimulation_eq.toCongruence hf
    (hm.lastFetch_after Core.bisimulation_eq hS' n) (hnext.bus.2 [])

/-- **A snapshot is all that a program can observe of a core.**  Machines with one
    snapshot over indistinguishable buses have the same cores and indistinguishable buses
    after any number of steps, and if the buses charge alike, every step but the first
    takes as long on both.  A snapshot that is restored on another machine over the same
    memory goes on as the run it was taken from. -/
theorem run_determined_by_snapshot {m : Machine B} {m' : Machine C}
    (hcore : m.snapshot = m'.snapshot) (hbus : Indistinguishable m.bus m'.bus) :
    (∀ n, (m.after n).core = (m'.after n).core
        ∧ Indistinguishable (m.after n).bus (m'.after n).bus)
      ∧ (ChargeAlike m.bus m'.bus →
        ∀ n, (m.after (n + 1)).step.1 = (m'.after (n + 1)).step.1)
      ∧ ∀ other : Machine B, other.bus = m.bus → m.core.cpsr.HasMode →
        ∃ r, other.restore m.snapshot = .ok r ∧ ∀ n, (r.after n).core = (m.after n).core
          ∧ (r.after n).bus = (m.after n).bus
          ∧ (r.after (n + 1)).step.1 = (m.after (n + 1)).step.1 := by
  have hlock : Lockstep Eq Indistinguishable m m' := ⟨hcore, hbus⟩
  refine ⟨?_, ?_, ?_⟩
  · intro n
    have hn := hlock.after Core.bisimulation_eq bisimulation_indistinguishable n
    exact ⟨hn.core, hn.bus⟩
  · intro hcost n
    exact hlock.cycles_after bisimulation_indistinguishable hcost n
  · -- the restored machine is a third one, over the very same memory
    intro other hother hmode
    obtain ⟨r, hr, hrcore, hrbus⟩ := restore_snapshot hmode other
    have hcopy : Lockstep Eq Eq r m := ⟨hrcore, hrbus.trans hother⟩
    refine ⟨r, hr, ?_⟩
    intro n
    have hn := hcopy.after Core.bisimulation_eq bisimulation_eq n
    have hcost : ChargeAlike r.bus m.bus := by
      rw [hcopy.bus]
      exact chargeAlike_refl m.bus
    exact ⟨hn.core, hn.bus, hcopy.cycles_after bisimulation_eq hcost n⟩

/-- `MOV R0, #5` and a store of it, on a machine that has just fetched the next word
    and on one that has not: the first step takes a different time, and nothing else
    differs.  Under another tariff the second step takes another time as well, and so does
    a step on an empty cartridge once its wait states are changed, but the cores go on
    being the same.  A machine in user mode goes on from the snapshot just as well. -/
theorem run_determined_by_snapshot_of_store :
    let program := [0xE3A00005, 0xE5810040]
    let tariff := fun sequential _ _ => if sequential then 1 else 5
    let m := Metered.machine program tariff .supervisor
    let m' := { m with host := { m.host with lastFetch := some 4, breakRequested := true } }
    let dear := Metered.machine program (fun _ _ _ => 9) .supervisor
    let other := Metered.machine program tariff .user
    let slow : Machine MappedMemory :=
      .new (.zero .zero) { Config.standard with resetVector := 0x08000000 } .error
    let fast := { slow with bus := slow.bus.setControl { WaitControl.zero with first0 := 2 } }
    m.step.1 = 5 ∧ m'.step.1 = 1
      ∧ (∀ n, (m.after n).core = (m'.after n).core
        ∧ Indistinguishable (m.after n).bus (m'.after n).bus)
      ∧ (∀ n, (m.after (n + 1)).step.1 = (m'.after (n + 1)).step.1)
      ∧ (m.after 1).step.1 = 10 ∧ (dear.after 1).step.1 = 18
      ∧ (∀ n, (m.after n).core = (dear.after n).core
        ∧ Indistinguishable (m.after n).bus (dear.after n).bus)
      ∧ slow.step.1 = 8 ∧ fast.step.1 = 6
      ∧ (∀ n, (slow.after n).core = (fast.after n).core
        ∧ Indistinguishable (slow.after n).bus (fast.after n).bus)
      ∧ other.core.mode = .user ∧ ∃ r, other.restore m.snapshot = .ok r
        ∧ ∀ n, (r.after n).core = (m.after n).core ∧ (r.after n).bus = (m.after n).bus
          ∧ (r.after (n + 1)).step.1 = (m.after (n + 1)).step.1 := by
  intro program tariff m m' dear other slow fast
  have hsame : Indistinguishable m.bus m'.bus := fun _ _ => rfl
  have htariff : Indistinguishable m.bus dear.bus := Metered.indistinguishable rfl
  have hcontrol : Indistinguishable slow.bus fast.bus :=
    slow.bus.indistinguishable_setControl _
  have hsnapshot : m.snapshot = m'.snapshot := rfl
  have hdearSnapshot : m.snapshot = dear.snapshot := rfl
  have hfastSnapshot : slow.snapshot = fast.snapshot := rfl
  obtain ⟨hrun, hcycles, hrestore⟩ := run_determined_by_snapshot hsnapshot hsame
  obtain ⟨hdear, -⟩ := run_determined_by_snapshot hdearSnapshot htariff
  obtain ⟨hfast, -⟩ := run_determined_by_snapshot hfastSnapshot hcontrol
  have hmode : m.core.cpsr.HasMode := ⟨.supervisor, by decide +kernel⟩
  exact ⟨by decide +kernel, by decide +kernel, hrun, hcycles (chargeAlike_refl m.bus),
    by decide +kernel, by decide +kernel, hdear, by decide +kernel, by decide +kernel, hfast,
    by decide +kernel, hrestore other rfl hmode⟩

end Machine

end Armv4t
