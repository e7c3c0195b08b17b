import Armv4t.Mode

/-! # Exceptions — the three ways into a handler

    | exception          | mode       | vector | link register           |
    |--------------------|------------|--------|-------------------------|
    | software interrupt | supervisor | 0x08   | next instruction        |
    | undefined          | undefined  | 0x04   | next instruction        |
    | interrupt request  | irq        | 0x18   | next instruction plus 4 | -/

namespace Armv4t

/-- An exception. -/
inductive Exception where
  | softwareInterrupt
  | undefined
  | irq
  deriving DecidableEq, Repr, Inhabited

namespace Exception

/-- The address of the handler. -/
def vector : Exception → Word
  | undefined => 0x04
  | softwareInterrupt => 0x08
  | irq => 0x18

/-- The mode of the handler. -/
def targetMode : Exception → Mode
  | softwareInterrupt => .supervisor
  | undefined => .undefined
  | irq => .irq

/-- The name used in messages. -/
def name : Exception → String
  | softwareInterrupt => "SWI"
  | undefined => "UND"
  | irq => "IRQ"

end Exception

end Armv4t
