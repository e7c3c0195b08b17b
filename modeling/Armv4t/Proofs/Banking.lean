import Armv4t.Machine
import Armv4t.Proofs.Status
import Mathlib.Data.Fintype.Basic
import Mathlib.Tactic.FinCases

/-! # Banking — going from mode to mode loses nothing

    Every mode sees seven registers R8 to R14 of its own choice.  Each of them has
    an owner: FIQ owns all seven of its registers, the other exception modes own
    their R13 and R14, and user owns whatever is left.  A register is live while
    the current mode and the reading mode agree on its owner; otherwise it stands
    in the owner's part of the bank, and what the bank holds of a live register is
    stale.

    * `Core.view` reads a register as any mode would see it, live or banked;
    * leaving a mode writes each register to its owner (`slot_store`), entering one
      reads each from its owner (`highOf_getElem`), so one switch keeps every view
      (`view_switchMode`);
    * hence so does a path of switches of any length (`switches_lose_nothing`). -/

namespace Armv4t

/-- A register that some mode banks, R8 to R14, counted from R8. -/
abbrev HighReg := Fin 7

/-- The register among the sixteen. -/
def HighReg.wide (i : HighReg) : Reg := ⟨i.val + 8, by omega⟩

/-- R13, counted from R8. -/
def HighReg.sp : HighReg := 5

/-- R14, counted from R8. -/
def HighReg.lr : HighReg := 6

/-- No mode banks R15. -/
theorem HighReg.wide_ne_pc (i : HighReg) : i.wide ≠ Reg.pc := by
  intro h
  have hv : i.val + 8 = 15 := congrArg Fin.val h
  have hi := i.isLt
  omega

/-- The mode whose copy of a high register a mode uses. -/
def Mode.owner (m : Mode) (i : HighReg) : Mode :=
  match m with
  | .fiq => .fiq
  | .user | .system => .user
  | m => if HighReg.sp ≤ i then m else .user

/-- What the bank holds of a high register for a mode that owns a copy of it. -/
def Bank.slot (b : Bank) (m : Mode) (i : HighReg) : Word :=
  match b.shadow m with
  | .base registers => registers[i]
  | .fiq registers _ => registers[i]
  | .pair r13 r14 _ => if i = HighReg.sp then r13 else r14

/-- A high register as a mode sees it, whichever mode is live. -/
def Core.view (k : Core) (m : Mode) (i : HighReg) : Word :=
  if k.mode.owner i = m.owner i then k.registers.read i.wide else k.bank.slot (m.owner i) i

namespace Registers

theorem high_getElem (rs : Registers) (i : HighReg) : rs.high[i] = rs.read i.wide := by
  fin_cases i <;> rfl

theorem read_setHigh_wide (rs : Registers) (h : HighRegisters) (i : HighReg) :
    (rs.setHigh h).read i.wide = h[i] := by
  fin_cases i <;> rfl

/-- A register outside R8 to R14 is not among those that are exchanged. -/
theorem read_setHigh_of_low (rs : Registers) (h : HighRegisters) {r : Reg}
    (hr : r.val < 8 ∨ r = Reg.pc) : (rs.setHigh h).read r = rs.read r := by
  fin_cases r <;> first | rfl | exact absurd hr (by decide)

/-- Two files with the same registers are the same file. -/
theorem ext_read {rs ts : Registers} (h : ∀ r, rs.read r = ts.read r) : rs = ts :=
  Vector.ext fun r hr => h ⟨r, hr⟩

/-- Every register is one of R0 to R7, R15, and the seven high ones. -/
theorem reg_cases (r : Reg) : (r.val < 8 ∨ r = Reg.pc) ∨ ∃ i : HighReg, r = i.wide := by
  by_cases hlow : r.val < 8
  · exact Or.inl (Or.inl hlow)
  · by_cases hpc : r = Reg.pc
    · exact Or.inl (Or.inr hpc)
    · have hne : r.val ≠ 15 := fun h => hpc (Fin.ext h)
      refine Or.inr ⟨⟨r.val - 8, by omega⟩, Fin.ext ?_⟩
      show r.val = r.val - 8 + 8
      omega

/-- R15 is not among R8 to R14, and is not exchanged with them. -/
theorem high_write_pc (rs : Registers) (v : Word) : (rs.write Reg.pc v).high = rs.high := by
  refine Vector.ext ?_
  intro i hi
  show (rs.write Reg.pc v).high[(⟨i, hi⟩ : HighReg)] = rs.high[(⟨i, hi⟩ : HighReg)]
  rw [high_getElem, high_getElem, read_write, if_neg (Ne.symm (HighReg.wide_ne_pc _))]

theorem setHigh_write_pc (rs : Registers) (v : Word) (h : HighRegisters) :
    (rs.write Reg.pc v).setHigh h = (rs.setHigh h).write Reg.pc v := by
  refine ext_read ?_
  intro r
  rw [read_write]
  rcases reg_cases r with hr | ⟨i, rfl⟩
  · rw [read_setHigh_of_low _ _ hr, read_setHigh_of_low _ _ hr, read_write]
  · rw [if_neg (Ne.symm i.wide_ne_pc), read_setHigh_wide, read_setHigh_wide]

end Registers

namespace Bank

/-! ## One exchange, register by register -/

/-- Leaving a mode writes each of its registers to the owner, and nothing else. -/
theorem slot_store (b : Bank) (old m : Mode) (live : HighRegisters) (i : HighReg) :
    (b.store old live).slot (m.owner i) i
      = if old.owner i = m.owner i then live[i] else b.slot (m.owner i) i := by
  cases old <;> cases m <;> fin_cases i <;> rfl

/-- Entering a mode reads each of its registers from the owner. -/
theorem highOf_getElem (b : Bank) (m : Mode) (i : HighReg) :
    (b.highOf m)[i] = b.slot (m.owner i) i := by
  cases m <;> fin_cases i <;> rfl

/-- Putting registers away leaves every saved status alone. -/
theorem spsr?_store (b : Bank) (old m : Mode) (live : HighRegisters) :
    (b.store old live).spsr? m = b.spsr? m := by
  cases old <;> cases m <;> rfl

/-- Saving a status leaves every banked register alone. -/
theorem slot_setSpsr (b : Bank) (old m : Mode) (p : Psr) (i : HighReg) :
    (b.setSpsr old p).slot m i = b.slot m i := by
  cases old <;> cases m <;> rfl

/-- A status that was saved for a mode is the one that mode has; the others keep
    theirs, and a mode without one still has none. -/
theorem spsr?_setSpsr (b : Bank) (old m : Mode) (p : Psr) :
    (b.setSpsr old p).spsr? m = if m = old ∧ old.hasSpsr then some p else b.spsr? m := by
  cases old <;> cases m <;> rfl

end Bank

namespace Core

/-! ## One switch -/

/-- Going to another mode puts the live registers away and brings in those of the mode. -/
theorem switchMode_of_ne {k : Core} {m : Mode} (h : k.mode ≠ m) :
    k.switchMode m =
      { registers :=
          k.registers.setHigh ((k.bank.store k.mode k.registers.high).highOf m)
        cpsr := k.cpsr.setMode m
        bank := k.bank.store k.mode k.registers.high } := by
  rw [switchMode, if_neg h, Bank.exchange, if_neg h]

/-- Going to the current mode does nothing. -/
theorem switchMode_of_eq {k : Core} {m : Mode} (h : k.mode = m) : k.switchMode m = k :=
  if_pos h

theorem mode_switchMode (k : Core) (m : Mode) : (k.switchMode m).mode = m := by
  by_cases h : k.mode = m
  · rw [switchMode_of_eq h]
    exact h
  · rw [switchMode_of_ne h]
    exact Psr.mode_setMode k.cpsr m

/-- What a switch does to the current status it does in the mode field. -/
theorem cpsr_switchMode (k : Core) (m : Mode) :
    AgreeOff Psr.modeMask (k.switchMode m).cpsr.raw k.cpsr.raw := by
  by_cases h : k.mode = m
  · rw [switchMode_of_eq h]
    exact AgreeOff.refl _ _
  · rw [switchMode_of_ne h]
    exact Psr.setMode_agreeOff k.cpsr m

theorem read_switchMode_of_low (k : Core) (m : Mode) {r : Reg}
    (hr : r.val < 8 ∨ r = Reg.pc) :
    (k.switchMode m).registers.read r = k.registers.read r := by
  by_cases h : k.mode = m
  · rw [switchMode_of_eq h]
  · rw [switchMode_of_ne h]
    exact Registers.read_setHigh_of_low k.registers _ hr

theorem spsr?_switchMode (k : Core) (m o : Mode) :
    (k.switchMode m).bank.spsr? o = k.bank.spsr? o := by
  by_cases h : k.mode = m
  · rw [switchMode_of_eq h]
  · rw [switchMode_of_ne h]
    exact Bank.spsr?_store k.bank k.mode o _

/-- The mode that is live reads its registers from the live file. -/
theorem view_live (k : Core) (i : HighReg) : k.view k.mode i = k.registers.read i.wide :=
  if_pos rfl

/-- No view shows R15. -/
theorem view_setRegister_pc (k : Core) (v : Word) (m : Mode) (i : HighReg) :
    (k.setRegister Reg.pc v).view m i = k.view m i := by
  have hread : (k.registers.write Reg.pc v).read i.wide = k.registers.read i.wide := by
    rw [Registers.read_write, if_neg (Ne.symm i.wide_ne_pc)]
  show (if k.mode.owner i = m.owner i then (k.registers.write Reg.pc v).read i.wide
    else k.bank.slot (m.owner i) i) = k.view m i
  rw [hread]
  rfl

/-- R15 may be written before a switch or after it. -/
theorem switchMode_setRegister_pc (k : Core) (v : Word) (m : Mode) :
    (k.setRegister Reg.pc v).switchMode m = (k.switchMode m).setRegister Reg.pc v := by
  by_cases h : k.mode = m
  · rw [switchMode_of_eq h]
    exact switchMode_of_eq h
  · rw [switchMode_of_ne h, switchMode_of_ne (k := k.setRegister Reg.pc v) h]
    simp only [setRegister, Registers.high_write_pc, Registers.setHigh_write_pc]
    rfl

/-- Nor does any depend on more of the current status than its mode. -/
theorem view_setCpsr {k : Core} {p : Psr} (h : p.mode = k.mode) (m : Mode) (i : HighReg) :
    (k.setCpsr p).view m i = k.view m i := by
  show (if p.mode.owner i = m.owner i then k.registers.read i.wide
    else k.bank.slot (m.owner i) i) = k.view m i
  rw [h]
  rfl

/-- **One switch keeps every view**: what a mode sees of its registers does not
    depend on which mode is live. -/
theorem view_switchMode (k : Core) (m o : Mode) (i : HighReg) :
    (k.switchMode m).view o i = k.view o i := by
  by_cases h : k.mode = m
  · rw [switchMode_of_eq h]
  · -- after an exchange every register, live or not, is the one its owner holds
    have hslot : (k.switchMode m).view o i
        = (k.bank.store k.mode k.registers.high).slot (o.owner i) i := by
      rw [view, mode_switchMode, switchMode_of_ne h]
      by_cases ho : m.owner i = o.owner i
      · rw [if_pos ho, Registers.read_setHigh_wide, Bank.highOf_getElem, ho]
      · rw [if_neg ho]
    rw [hslot, Bank.slot_store, Registers.high_getElem]
    rfl

end Core

/-! ## A path of switches -/

/-- What a path of switches leaves alone: every view, R0 to R7, R15, every saved
    status, and the current status outside the mode field. -/
structure Core.Rebanked (k k' : Core) : Prop where
  view : ∀ o i, k'.view o i = k.view o i
  low : ∀ r : Reg, r.val < 8 ∨ r = Reg.pc → k'.registers.read r = k.registers.read r
  spsr : ∀ o, k'.bank.spsr? o = k.bank.spsr? o
  cpsr : AgreeOff Psr.modeMask k'.cpsr.raw k.cpsr.raw

namespace Core.Rebanked

theorem refl (k : Core) : k.Rebanked k :=
  ⟨fun _ _ => rfl, fun _ _ => rfl, fun _ => rfl, AgreeOff.refl _ _⟩

theorem trans {k₁ k₂ k₃ : Core} (h₁ : k₁.Rebanked k₂) (h₂ : k₂.Rebanked k₃) :
    k₁.Rebanked k₃ :=
  ⟨fun o i => (h₂.view o i).trans (h₁.view o i),
    fun r hr => (h₂.low r hr).trans (h₁.low r hr),
    fun o => (h₂.spsr o).trans (h₁.spsr o), h₂.cpsr.trans h₁.cpsr⟩

theorem switchMode (k : Core) (m : Mode) : k.Rebanked (k.switchMode m) :=
  ⟨k.view_switchMode m, fun _ hr => k.read_switchMode_of_low m hr, k.spsr?_switchMode m,
    k.cpsr_switchMode m⟩

/-- Where the live mode is the same again, so is every live register. -/
theorem registers_eq {k k' : Core} (h : k.Rebanked k') (hm : k'.mode = k.mode) :
    k'.registers = k.registers := by
  refine Registers.ext_read ?_
  intro r
  rcases Registers.reg_cases r with hr | ⟨i, rfl⟩
  · exact h.low r hr
  · -- live in both cores, so both registers are the view of the common mode
    rw [← k'.view_live i, ← k.view_live i, hm]
    exact h.view k.mode i

end Core.Rebanked

/-- A machine that switches its mode switches the mode of its core. -/
theorem Machine.core_switchMode {B : Type} [Bus B] (m : Machine B) (mode : Mode) :
    (m.switchMode mode).core = m.core.switchMode mode := rfl

/-- A path of switches keeps what each switch keeps, and ends in its last mode. -/
theorem Machine.switches_rebanked {B : Type} [Bus B] (path : List Mode) (m : Machine B) :
    m.core.Rebanked (path.foldl Machine.switchMode m).core
      ∧ (path.foldl Machine.switchMode m).core.mode = path.getLastD m.core.mode := by
  induction path generalizing m with
  | nil => exact ⟨Core.Rebanked.refl m.core, rfl⟩
  | cons mode path ih =>
      obtain ⟨hsame, hmode⟩ := ih (m.switchMode mode)
      rw [Machine.core_switchMode] at hsame hmode
      refine ⟨(Core.Rebanked.switchMode m.core mode).trans hsame, ?_⟩
      rw [List.foldl_cons, hmode, Core.mode_switchMode, List.getLastD_cons]

/-- **Banking loses nothing**: along a path of switches of any length, from any
    core, every register of every mode keeps its value, and so do R0 to R7, R15, the
    saved statuses and the current status outside the mode field.  The live
    registers end as those of the last mode; a path that comes back brings the
    sixteen registers back; user and system share R8 to R14. -/
theorem Machine.switches_lose_nothing {B : Type} [Bus B] (m : Machine B) (path : List Mode) :
    let m' := path.foldl Machine.switchMode m
    (∀ o i, m'.core.view o i = m.core.view o i)
      ∧ (∀ r : Reg, r.val < 8 ∨ r = Reg.pc →
        m'.core.registers.read r = m.core.registers.read r)
      ∧ (∀ o, m'.core.bank.spsr? o = m.core.bank.spsr? o)
      ∧ AgreeOff Psr.modeMask m'.core.cpsr.raw m.core.cpsr.raw
      ∧ m'.core.mode = path.getLastD m.core.mode
      ∧ (∀ i : HighReg,
        m'.core.registers.read i.wide = m'.core.view (path.getLastD m.core.mode) i)
      ∧ (path.getLastD m.core.mode = m.core.mode → m'.core.registers = m.core.registers)
      ∧ ∀ i, m'.core.view .user i = m'.core.view .system i := by
  intro m'
  obtain ⟨hsame, hmode⟩ := Machine.switches_rebanked path m
  refine ⟨hsame.view, hsame.low, hsame.spsr, hsame.cpsr, hmode, ?_, ?_, ?_⟩
  · intro i
    rw [← hmode]
    exact (m'.core.view_live i).symm
  · intro hback
    exact hsame.registers_eq (hmode.trans hback)
  · intro i
    rfl

end Armv4t
