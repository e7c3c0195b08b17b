import Armv4t.Proofs.Step

/-! # Writes — the only way an instruction reaches the bus

    Reads leave a bus as it is, so that whatever an instruction does to its bus it does
    by a sequence of writes (`Acts.written`), and so does a run of any length
    (`Machine.written_after`).  What no sequence of writes can change or reveal about
    a bus is therefore out of reach of every program. -/

namespace Armv4t

/-- One write to a bus. -/
structure Write where
  width : Width
  address : Word
  value : Word
  deriving DecidableEq, Repr

namespace Bus

variable {B C : Type} [Bus B] [Bus C]

/-- A bus after some writes, the first one first. -/
def written (b : B) (ws : List Write) : B :=
  ws.foldl (fun b w => write b w.width w.address w.value) b

theorem written_append (b : B) (ws vs : List Write) :
    written b (ws ++ vs) = written (written b ws) vs :=
  List.foldl_append

/-- No writes change what an access to the bus costs. -/
def Steady (b : B) : Prop := ∀ ws, cost (written b ws) = cost b

/-- A bus is steady where no single write changes a cost; by induction on the writes. -/
theorem steady_of_write (h : ∀ (b : B) (width : Width) (a v : Word),
    cost (write b width a v) = cost b) (b : B) : Steady b := by
  intro ws
  induction ws generalizing b with
  | nil => rfl
  | cons w ws ih => exact (ih (write b w.width w.address w.value)).trans (h b _ _ _)

end Bus

open Bus

/-- The writes of an action to the bus. -/
def Action.writes : Action → List Write
  | .store width _ address value => [⟨width, width.align address, value⟩]
  | _ => []

namespace Execution

variable {B : Type} (x : Execution B)

theorem bus_tellMode (m : Mode) : (x.tellMode m).bus = x.bus := by
  rw [tellMode]
  split <;> rfl

theorem bus_tryStatus (p : Psr) : (x.tryStatus p).bus = x.bus := by
  cases hp : p.mode? with
  | ok m =>
      rw [tryStatus_of_ok hp]
      exact x.bus_tellMode p.mode
  | error e => rw [tryStatus_of_error hp, tell]

theorem bus_restoreStatus : x.restoreStatus.bus = x.bus := by
  rw [restoreStatus]
  cases x.core.spsr? with
  | none => rfl
  | some p => exact x.bus_tryStatus p

end Execution

variable {B : Type} [Bus B]

/-- An action writes to the bus what it says. -/
theorem Action.bus_run (a : Action) (x : Execution B) :
    (a.run x).bus = written x.bus a.writes := by
  cases a with
  | moveStatus value fields => exact x.bus_tryStatus _
  | restore target => exact x.bus_restoreStatus
  | _ => rfl

/-- So does a sequence of actions. -/
theorem Acts.written {x y : Execution B} (h : Acts x y) :
    ∃ ws, y.bus = Bus.written x.bus ws := by
  induction h with
  | none => exact ⟨[], rfl⟩
  | act a _ _ ih =>
      obtain ⟨ws, hws⟩ := ih
      refine ⟨ws ++ a.writes, ?_⟩
      rw [a.bus_run, hws, written_append]

namespace Machine

/-- So does a step: one that traps writes nothing. -/
theorem written_step (m : Machine B) : ∃ ws, m.step.2.bus = written m.bus ws := by
  rw [bus_step]
  cases ht : m.trap? with
  | none => exact (acts_flight ht).written
  | some e =>
      obtain ⟨es, hes⟩ := flight_of_trap ht
      rw [hes]
      exact ⟨[], rfl⟩

/-- And so does a run. -/
theorem written_after (m : Machine B) (n : Nat) : ∃ ws, (m.after n).bus = written m.bus ws := by
  induction n with
  | zero => exact ⟨[], rfl⟩
  | succ n ih =>
      obtain ⟨ws, hws⟩ := ih
      obtain ⟨vs, hvs⟩ := (m.after n).written_step
      refine ⟨ws ++ vs, ?_⟩
      rw [after_succ, hvs, hws, written_append]

/-- On a steady bus an access costs after a step what it cost before. -/
theorem cost_step {m : Machine B} (h : Steady m.bus) : cost m.step.2.bus = cost m.bus := by
  obtain ⟨ws, hws⟩ := m.written_step
  rw [hws, h]

/-- And after any number of steps, where the bus is still steady. -/
theorem cost_after {m : Machine B} (h : Steady m.bus) (n : Nat) :
    cost (m.after n).bus = cost m.bus ∧ Steady (m.after n).bus := by
  obtain ⟨ws, hws⟩ := m.written_after n
  rw [hws]
  refine ⟨h ws, ?_⟩
  intro vs
  rw [← written_append, h, h]

end Machine

end Armv4t
