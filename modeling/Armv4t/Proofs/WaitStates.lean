import Armv4t.Memory.Mapped
import Armv4t.Proofs.Writes

/-! # Wait states — the bounds of what mapped memory charges

    A first access to the cartridge waits for eight cycles at most and a following one
    for as many, so that a halfword takes up to nine cycles and a word twice that.

    * Whatever the wait control register holds, the costs it selects lie between one and
      eighteen cycles (`WaitStates.inRange_ofControl`);
    * a memory starts with the costs that its register selects, and neither setting the
      register, nor loading, nor writing parts the two (`MappedMemory.Coherent`);
    * so every access to such a memory is in that range (`MappedMemory.cost_inRange`). -/

namespace Armv4t

/-! ## The table -/

/-- A cost between one cycle and eighteen. -/
def InRange (n : Int32) : Prop := 1 ≤ n.toInt ∧ n.toInt ≤ 18

instance (n : Int32) : Decidable (InRange n) := inferInstanceAs (Decidable (_ ∧ _))

/-- The four waits of a first access. -/
theorem firstWait_cases (b : Byte) :
    firstWait b = 2 ∨ firstWait b = 3 ∨ firstWait b = 4 ∨ firstWait b = 8 := by
  rw [firstWait]
  repeat' split
  all_goals simp

/-- Every cost of a region is in range. -/
def RegionCost.Moderate (c : RegionCost) : Prop :=
  ∀ sequential word, InRange (c.cycles sequential word)

instance (c : RegionCost) : Decidable c.Moderate := inferInstanceAs (Decidable (∀ _ _, _))

namespace WaitStates

/-- A window of the cartridge, for any waits that its fields can select. -/
theorem moderate_window (first : Byte) (second : Bool) {slow : Int32}
    (hslow : slow = 2 ∨ slow = 4 ∨ slow = 8) :
    (RegionCost.halves (1 + firstWait first) (1 + if second then 1 else slow)).Moderate := by
  rcases firstWait_cases first with h | h | h | h <;> rw [h] <;>
    rcases hslow with rfl | rfl | rfl <;> revert second <;> decide

/-- The static memory of the cartridge. -/
theorem moderate_sram (first : Byte) : (RegionCost.uniform (1 + firstWait first)).Moderate := by
  rcases firstWait_cases first with h | h | h | h <;> rw [h] <;> decide

/-- Every region is moderate under the costs that a wait control register selects. -/
theorem moderate_region (k : WaitControl) (a : Word) : ((ofControl k).region a).Moderate := by
  rw [region]
  split
  · decide
  · decide
  · decide
  · exact moderate_window k.first0 k.second0 (by decide)
  · exact moderate_window k.first0 k.second0 (by decide)
  · exact moderate_window k.first1 k.second1 (by decide)
  · exact moderate_window k.first1 k.second1 (by decide)
  · exact moderate_window k.first2 k.second2 (by decide)
  · exact moderate_window k.first2 k.second2 (by decide)
  · exact moderate_sram k.sram
  · exact moderate_sram k.sram
  · decide

/-- **The costs that a wait control register selects are in range.** -/
theorem inRange_ofControl (k : WaitControl) (sequential word : Bool) (a : Word) :
    InRange ((ofControl k).cycles sequential word a) :=
  moderate_region k a sequential word

end WaitStates

/-! ## The register and its table -/

namespace MappedMemory

variable {m : MappedMemory}

/-- The costs are those that the wait control register selects. -/
def Coherent (m : MappedMemory) : Prop := m.states = .ofControl m.control

theorem coherent_zero (k : WaitControl) : (zero k).Coherent := rfl

theorem coherent_setControl (m : MappedMemory) (k : WaitControl) : (m.setControl k).Coherent :=
  rfl

/-- The register and the costs. -/
def tuning (m : MappedMemory) : WaitControl × WaitStates := (m.control, m.states)

/-- Only the register and the costs decide whether they belong together. -/
theorem Coherent.of_tuning {m' : MappedMemory} (h : m.Coherent) (ht : m'.tuning = m.tuning) :
    m'.Coherent := by
  obtain ⟨hcontrol, hstates⟩ := Prod.mk.inj ht
  rw [Coherent, hcontrol, hstates]
  exact h

theorem tuning_modify (m : MappedMemory) (r : Region) (f : Storage r.size → Storage r.size) :
    (m.modify r f).tuning = m.tuning := by
  cases r <;> rfl

theorem tuning_writeByte (m : MappedMemory) (a : Word) (b : Byte) :
    (m.writeByte a b).tuning = m.tuning := by
  rw [writeByte]
  split
  · split
    · exact m.tuning_modify _ _
    · rfl
  · rfl

theorem tuning_writeBytes (m : MappedMemory) (a : Word) (bs : List Byte) :
    (m.writeBytes a bs).tuning = m.tuning := by
  induction bs generalizing m a with
  | nil => rfl
  | cons b bs ih => exact (ih (m.writeByte a b) (a + 1)).trans (m.tuning_writeByte a b)

/-- A write leaves the register and the costs as they are. -/
theorem tuning_write (m : MappedMemory) (width : Width) (a v : Word) :
    (Bus.write m width a v).tuning = m.tuning :=
  m.tuning_writeBytes a (bytesOf width v)

/-- So does a load, whether it is refused or not. -/
theorem tuning_attemptLoad (m : MappedMemory) (a : Word) (data : ByteArray) :
    (m.attemptLoad a data).state.tuning = m.tuning := by
  rw [attemptLoad]
  split
  · rfl
  · split
    · exact m.tuning_modify _ _
    · rfl
  · dsimp only
    split
    · rfl
    · split <;> rfl

theorem Coherent.load {m' : MappedMemory} (h : m.Coherent) {a : Word} {data : ByteArray}
    (hload : m.load a data = .ok m') : m'.Coherent := by
  have htuning := m.tuning_attemptLoad a data
  rw [Attempt.state_eq_of_outcome hload] at htuning
  exact h.of_tuning htuning

theorem Coherent.write (h : m.Coherent) (width : Width) (a v : Word) :
    (Bus.write m width a v).Coherent :=
  h.of_tuning (m.tuning_write width a v)

/-- No write changes what an access costs. -/
theorem steady (m : MappedMemory) : Bus.Steady m := by
  refine Bus.steady_of_write ?_ m
  intro m width a v
  have hstates : (Bus.write m width a v).states = m.states :=
    congrArg Prod.snd (m.tuning_write width a v)
  funext sequential word b
  exact congrArg (fun states : WaitStates => states.cycles sequential word b) hstates

/-- **Every access to a coherent memory costs between one cycle and eighteen.** -/
theorem cost_inRange (h : m.Coherent) (sequential word : Bool) (a : Word) :
    InRange (Bus.cost m sequential word a) := by
  show InRange (m.states.cycles sequential word a)
  rw [h]
  exact WaitStates.inRange_ofControl m.control sequential word a

end MappedMemory

end Armv4t
