import Armv4t.Core

/-! # Configuration — the state after a reset, and when to stop -/

namespace Armv4t

/-- How a machine starts, and whether it halts on a status without a mode. -/
structure Config where
  /-- The address of the first instruction. -/
  resetVector : Word
  resetMode : Mode
  /-- Starts in the 16-bit set. -/
  startInThumb : Bool
  irqDisabledAtReset : Bool
  fiqDisabledAtReset : Bool
  /-- Stops a run before the next instruction once a program tried to install a
      status without a mode. -/
  haltOnInvalidMode : Bool
  deriving DecidableEq, Repr, Inhabited

namespace Config

/-- Supervisor mode at address zero in the 32-bit set, with interrupts disabled. -/
def standard : Config := ⟨0, .supervisor, false, true, true, false⟩

/-- The status register after a reset. -/
def resetStatus (c : Config) : Psr :=
  (Psr.ofMode c.resetMode).setIrqDisabled c.irqDisabledAtReset
    |>.setFiqDisabled c.fiqDisabledAtReset
    |>.setT c.startInThumb

/-- The core after a reset. -/
def resetCore (c : Config) : Core :=
  (⟨Registers.zero, c.resetStatus, Bank.zero⟩ : Core).jump c.resetVector

end Config

end Armv4t
