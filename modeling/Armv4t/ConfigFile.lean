import Armv4t.Config
import Armv4t.Json
import Armv4t.Memory.WaitControl

/-! # Configuration files — records read from JSON

    A record is an object or an array.  An object gives each field by its name, at
    most once; names that no field has are passed over.  An array gives the fields
    in their order and may end early.  A value of the wrong kind or out of range
    is refused, wherever it stands. -/

namespace Armv4t

namespace Json

/-- The value of each field of an object, in the order of the names.  A repeated
    name is refused, and so is a name that is no text. -/
def memberValues (names : List String) :
    List (Option String × Json) → Option (List (String × Json))
  | [] => some []
  | (none, _) :: _ => none
  | (some key, value) :: rest => do
    let found ← memberValues names rest
    if names.contains key then
      if found.any (fun p => p.1 == key) then none else some ((key, value) :: found)
    else some found

/-- The fields of a record with some names: what each name stands for, if given. -/
def fields? (names : List String) : Json → Option (String → Option Json)
  | .object members => do
    let found ← memberValues names members
    some fun name => found.lookup name
  | .array items =>
    if items.length ≤ names.length then some fun name => (names.zip items).lookup name else none
  | _ => none

/-- A whole number up to a limit. -/
def natUpTo? (limit : Nat) : Json → Option Nat
  | .whole n => if n ≤ limit then some n else none
  | _ => none

/-- A word. -/
def word? (j : Json) : Option Word := (j.natUpTo? 0xFFFFFFFF).map Nat.toUInt32

/-- A byte. -/
def byte? (j : Json) : Option Byte := (j.natUpTo? 0xFF).map Nat.toUInt8

/-- A flag. -/
def flag? : Json → Option Bool
  | .flag b => some b
  | _ => none

/-- A mode, by its name alone or as the name of an empty member. -/
def mode? : Json → Option Mode
  | .text (some s) => Mode.ofName? s
  | .object [(some s, .null)] => Mode.ofName? s
  | _ => none

/-- A status register. -/
def psr? (j : Json) : Option Psr := j.word?.map Psr.mk

/-- As many words as asked for. -/
def words? (n : Nat) : Json → Option (Vector Word n)
  | .array items => do
    let values ← items.mapM word?
    if h : values.toArray.size = n then some ⟨values.toArray, h⟩ else none
  | _ => none

/-- A field that may be missing. -/
def orElse {α : Type} (value : Option Json) (read : Json → Option α) (fallback : α) : Option α :=
  match value with
  | some j => read j
  | none => some fallback

end Json

namespace Config

/-- The configuration of a machine; a missing field has its standard value. -/
def ofJson? (j : Json) : Option Config := do
  let field ← j.fields? ["reset_vector", "reset_mode", "start_in_thumb", "irq_disabled_at_reset",
    "fiq_disabled_at_reset", "halt_on_invalid_mode"]
  return {
    resetVector := ← Json.orElse (field "reset_vector") Json.word? standard.resetVector
    resetMode := ← Json.orElse (field "reset_mode") Json.mode? standard.resetMode
    startInThumb := ← Json.orElse (field "start_in_thumb") Json.flag? standard.startInThumb
    irqDisabledAtReset :=
      ← Json.orElse (field "irq_disabled_at_reset") Json.flag? standard.irqDisabledAtReset
    fiqDisabledAtReset :=
      ← Json.orElse (field "fiq_disabled_at_reset") Json.flag? standard.fiqDisabledAtReset
    haltOnInvalidMode :=
      ← Json.orElse (field "halt_on_invalid_mode") Json.flag? standard.haltOnInvalidMode }

end Config

namespace WaitControl

/-- The wait control register; a missing field is zero. -/
def ofJson? (j : Json) : Option WaitControl := do
  let field ← j.fields? ["sram", "ws0_first", "ws0_second", "ws1_first", "ws1_second", "ws2_first",
    "ws2_second"]
  return {
    sram := ← Json.orElse (field "sram") Json.byte? 0
    first0 := ← Json.orElse (field "ws0_first") Json.byte? 0
    second0 := ← Json.orElse (field "ws0_second") Json.flag? false
    first1 := ← Json.orElse (field "ws1_first") Json.byte? 0
    second1 := ← Json.orElse (field "ws1_second") Json.flag? false
    first2 := ← Json.orElse (field "ws2_first") Json.byte? 0
    second2 := ← Json.orElse (field "ws2_second") Json.flag? false }

end WaitControl

/-- The bank entry of an exception mode; no field may be missing. -/
def PairBank.ofJson? (j : Json) : Option PairBank := do
  let field ← j.fields? ["registers", "spsr"]
  let registers ← (← field "registers").words? 2
  return ⟨registers[0], registers[1], ← (← field "spsr").psr?⟩

/-- The bank entry of FIQ mode; no field may be missing. -/
def FiqBank.ofJson? (j : Json) : Option FiqBank := do
  let field ← j.fields? ["registers", "spsr"]
  return ⟨← (← field "registers").words? 7, ← (← field "spsr").psr?⟩

/-- The bank; no field may be missing. -/
def Bank.ofJson? (j : Json) : Option Bank := do
  let field ← j.fields? ["user", "fiq", "supervisor", "abort", "irq", "undefined"]
  return {
    user := ← (← field "user").words? 7
    fiq := ← FiqBank.ofJson? (← field "fiq")
    supervisor := ← PairBank.ofJson? (← field "supervisor")
    abort := ← PairBank.ofJson? (← field "abort")
    irq := ← PairBank.ofJson? (← field "irq")
    undefined := ← PairBank.ofJson? (← field "undefined") }

/-- A snapshot of the core; no field may be missing. -/
def Core.ofJson? (j : Json) : Option Core := do
  let field ← j.fields? ["registers", "cpsr", "register_bank"]
  return {
    registers := ← (← field "registers").words? 16
    cpsr := ← (← field "cpsr").psr?
    bank := ← Bank.ofJson? (← field "register_bank") }

/-- What a configuration file sets: the machine and the wait control register. -/
structure Settings where
  machine : Config
  waitControl : WaitControl
  deriving DecidableEq, Repr

namespace Settings

/-- The settings without a file. -/
def standard : Settings := ⟨.standard, .zero⟩

/-- The settings in a file; a missing section has its standard value. -/
def ofJson? (j : Json) : Option Settings := do
  let field ← j.fields? ["cpu", "wait_control"]
  return {
    machine := ← Json.orElse (field "cpu") Config.ofJson? .standard
    waitControl := ← Json.orElse (field "wait_control") WaitControl.ofJson? .zero }

/-- The settings in the text of a file. -/
def parse? (s : String) : Option Settings := Json.parse? s >>= ofJson?

end Settings

end Armv4t
