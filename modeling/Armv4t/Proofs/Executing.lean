import Armv4t.Proofs.PipelineView
import Armv4t.Proofs.Reserved

/-! # Executing a word — from the fetch to the instruction in flight

    A step of the 32-bit set fetches a word, and carries it out if its condition holds.
    Then the instruction in flight is the one the word decodes to, started from the state
    of the step (`CarriesOut.flight_eq`); it reads its registers there, R15 as far on as the
    pipeline has it (`CarriesOut.read_operand`). -/

namespace Armv4t.Machine

variable {B : Type}

/-- A register as an instruction at R15 reads it. -/
def operand (m : Machine B) (role : PcRole) (r : Reg) : Word :=
  if r = Reg.pc then alignWord m.core.pc + role.ahead else m.read r

variable [Bus B]

/-- A machine of the 32-bit set, at a word whose condition holds. -/
structure CarriesOut (m : Machine B) (w : Word) : Prop where
  set : m.core.instructionSet = .arm
  word : m.fetchedWord = w
  condition : m.core.cpsr.satisfies (.ofCode (nibble w 28)) = true

variable {m : Machine B} {w : Word}

namespace CarriesOut

/-- What is in flight is what the word decodes to, started from the aligned state. -/
theorem flight_eq (h : m.CarriesOut w) {i : Arm.Instruction} (hi : Arm.decodeInstruction w = i) :
    m.flight = Arm.execute ⟨.ofCode (nibble w 28), i, w⟩ (.start m.core.aligned m.bus) := by
  rw [flight, fetched_of_arm h.set (h.word ▸ h.condition), h.word, ← hi]
  rfl

theorem set_aligned (h : m.CarriesOut w) : m.core.aligned.instructionSet = .arm := h.set

/-- A word is fetched from an address that is a multiple of four. -/
theorem pc_aligned (h : m.CarriesOut w) : m.core.aligned.pc = alignWord m.core.pc := by
  rw [Core.pc_aligned, h.set]
  rfl

/-- The next word is four bytes on. -/
theorem nextPc_eq (h : m.CarriesOut w) : m.nextPc = alignWord m.core.pc + 4 := by
  rw [nextPc, h.set]
  rfl

/-- R15 reads as the pipeline has it, and every other register as it is. -/
theorem read_operand (h : m.CarriesOut w) (r : Reg) (role : PcRole) :
    m.core.aligned.read r role = m.operand role r := by
  rw [Core.read, operand]
  by_cases hr : r = Reg.pc
  · rw [if_pos hr, if_pos hr, Core.effectivePc_of_arm h.set_aligned, h.pc_aligned]
  · rw [if_neg hr, if_neg hr, read_aligned hr]

end CarriesOut

end Armv4t.Machine
