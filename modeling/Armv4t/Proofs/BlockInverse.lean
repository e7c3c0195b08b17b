import Armv4t.Proofs.CurrentBlock

/-! # There and back — a block that is stored and loaded again

    To each way of storing a block belongs one way of loading it: what was stored before
    the base moved down is loaded after which the base moves up, and so on
    (`Addressing.complement`).  The load starts where the store did and takes the base back
    to where it was, in wrapping arithmetic and from any base
    (`Addressing.first_complement`, `Addressing.moved_complement`).

    So the load brings back every register of the list, whatever it has become in between,
    and the base, and the memory keeps the stored words (`block_load_takes_store_back`).  A
    push and a pop of the 16-bit set are one such pair. -/

namespace Armv4t

/-- The way to load a block that belongs to a way of storing one, and the other way
    round. -/
def Addressing.complement (a : Addressing) : Addressing where
  indexing := match a.indexing with
    | .post => .pre
    | .pre => .post
  direction := match a.direction with
    | .down => .up
    | .up => .down
  writeBack := a.writeBack

namespace Addressing

variable (a : Addressing) (base : Word) (n : Nat)

/-- The load starts where the store did. -/
theorem first_complement : a.complement.first (a.moved base n) n = a.first base n := by
  obtain ⟨indexing, direction, writeBack⟩ := a
  cases direction <;> cases indexing <;> simp [complement, first, moved]

/-- The base comes back. -/
theorem moved_complement : a.complement.moved (a.moved base n) n = base := by
  obtain ⟨indexing, direction, writeBack⟩ := a
  cases direction <;> simp [complement, moved]

end Addressing

/-- What an instruction in flight `z` has of `x`, the one before the store, and of `y`, the
    one before the load. -/
structure TakenBack (x y z : Execution FlatMemory) (start : Word) (list : Half) : Prop where
  registers : ∀ r, r ≠ Reg.pc → z.core.registers.read r = x.core.registers.read r
  pc : z.core.pc = y.core.pc
  cpsr : z.core.cpsr = y.core.cpsr
  bank : z.core.bank = y.core.bank
  bus : z.bus = y.bus
  /-- Only the stored words have changed. -/
  rest : ∀ b, (∀ j < (registersIn list).length,
      FlatMemory.slot (start + 4 * UInt32.ofNat j) ≠ FlatMemory.slot b) →
    z.bus.readByte b = x.bus.readByte b

/-- One instruction takes back what another one has stored of a list, wherever R15 stands by
    then and whatever the registers of the list have become. -/
def Fetched.TakesBack (g f : Fetched) (a : Addressing) (rn : Reg) (list : Half) : Prop :=
  ∀ x y : Execution FlatMemory, y.bus = (f.execute x).bus →
    (∀ r, r ≠ Reg.pc → r ∉ registersIn list →
      y.core.registers.read r = (f.execute x).core.registers.read r) →
    TakenBack x y (g.execute y) (x.core.blockStart a rn list) list

variable {f g : Fetched} {a : Addressing} {rn : Reg} {list : Half}

theorem Fetched.MovesBlock.takesBack (hf : f.MovesBlock .store a rn list)
    (hg : g.MovesBlock .load a.complement rn list) (hw : a.writeBack = true) (hzero : list ≠ 0)
    (hrn : rn ≠ Reg.pc) (hbase : rn ∉ registersIn list) (hpc : Reg.pc ∉ registersIn list) :
    g.TakesBack f a rn list := by
  intro x y hbus hregisters
  have hlisted : listed list = registersIn list := if_neg hzero
  rw [hf.execute_eq] at hbus hregisters
  rw [hg.execute_eq]
  obtain ⟨hcore, hstored, -, -⟩ := x.stores_transferBlock a list hrn
  rw [hcore] at hregisters
  rw [hstored] at hbus
  have hmoved : y.core.registers.read rn = a.moved (x.core.registers.read rn) (wordCount list) := by
    rw [hregisters rn hrn hbase, Core.read_based, if_pos ⟨rfl, hw⟩]
  have hstart : y.core.blockStart a.complement rn list = x.core.blockStart a rn list := by
    rw [Core.blockStart, hmoved, Addressing.first_complement, Core.blockStart]
  have hl := y.loads_transferBlock a.complement list hrn
  rw [← hlisted] at hbase hpc hregisters
  refine ⟨?_, ?_, hl.cpsr, hl.bank, hl.bus, ?_⟩
  · intro r hr
    by_cases hmem : r ∈ listed list
    · -- a listed register: the word at its place is what it held
      obtain ⟨j, hj⟩ := List.mem_iff_getElem?.mp hmem
      have hmoves : ¬ (r = rn ∧ a.writeBack = true ∧ j ≠ 0) := fun h => hbase (h.1 ▸ hmem)
      have hvalue : (x.core.blockValues a rn list)[j]? = some (x.core.registers.read r) := by
        rw [Core.blockValues, List.getElem?_mapIdx, hj, Option.map_some, Core.blockValue,
          if_neg hr, if_neg hmoves]
      rw [hl.listed j r hj, Core.taken, if_neg hr, hstart, hbus]
      exact FlatMemory.wordAt_written x.bus (length_mapIdx_listed_le list _) _ hvalue
    · rw [hl.unlisted r hmem, Core.read_based]
      by_cases hr' : r = rn
      · -- the base moves there and back
        rw [if_pos ⟨hr', hw⟩, hmoved, Addressing.moved_complement, hr']
      · rw [if_neg fun h => hr' h.1, hregisters r hr hmem, Core.read_based,
          if_neg fun h => hr' h.1]
  · exact (hl.unlisted Reg.pc hpc).trans
      ((Core.read_based ..).trans (if_neg fun h => hrn h.1.symm))
  · intro b hb
    rw [hl.bus, hbus]
    refine FlatMemory.readByte_written_of_ne x.bus _ _ b ?_
    rw [Core.blockValues, List.length_mapIdx, hlisted]
    exact hb

/-- A push and a pop of low registers are such a pair. -/
theorem Fetched.takesBack_of_stack {list : Half} (hzero : list ≠ 0) (hlow : list.toNat < 0x100)
    (raw raw' : Half) :
    TakesBack (.thumb ⟨.pushPop .load false list, raw'⟩) (.thumb ⟨.pushPop .store false list, raw⟩)
      ⟨.pre, .down, true⟩ Reg.sp list := by
  have hnot {r : Reg} (hr : 8 ≤ r.val) : r ∉ registersIn list := by
    rw [mem_registersIn, Nat.testBit_lt_two_pow]
    · exact Bool.false_ne_true
    · exact Nat.lt_of_lt_of_le hlow (Nat.pow_le_pow_right Nat.two_pos hr)
  exact (MovesBlock.stack .store false list raw).takesBack (.stack .load false list raw') rfl hzero
    (by decide) (hnot (by decide)) (hnot (by decide))

/-- What a machine `m'` has of `m`, which stored a block, once it has loaded it again. -/
structure Machine.Restored (m m' : Machine FlatMemory) (start : Word) (list : Half) : Prop where
  registers : ∀ r, r ≠ Reg.pc → m'.read r = m.read r
  /-- The memory is the one that the store left. -/
  bus : m'.bus = m.step.2.bus
  /-- And only the stored words have changed in it. -/
  rest : ∀ b, (∀ j < (registersIn list).length,
      FlatMemory.slot (start + 4 * UInt32.ofNat j) ≠ FlatMemory.slot b) →
    m'.bus.readByte b = m.bus.readByte b

/-- Two steps, the second of which takes back what the first has stored: whatever happens
    between them, to the registers of the list, to R15 and to the status, every register but
    R15 is as it was before the first one, and so is the memory but for the stored words. -/
theorem Machine.restored_step_of_takesBack {m m' : Machine FlatMemory}
    (h : m'.fetched.TakesBack m.fetched a rn list) (hbus : m'.bus = m.step.2.bus)
    (hkept : ∀ r, r ≠ Reg.pc → r ∉ registersIn list → m'.read r = m.step.2.read r) :
    m.Restored m'.step.2 (m.core.aligned.blockStart a rn list) list := by
  have hback : TakenBack (.start m.core.aligned m.bus) (.start m'.core.aligned m'.bus) m'.flight
      (m.core.aligned.blockStart a rn list) list := by
    refine h _ _ (hbus.trans m.bus_step) ?_
    intro r hr hmem
    refine (read_aligned hr).trans ((hkept r hr hmem).trans ?_)
    exact m.read_step hr
  refine ⟨?_, ?_, ?_⟩
  · intro r hr
    rw [m'.read_step hr, hback.registers r hr]
    exact read_aligned hr
  · rw [m'.bus_step]
    exact hback.bus.trans hbus
  · rw [m'.bus_step]
    exact hback.rest

/-- **A complementary load takes a store of a block back**, from every state, with every
    base but R15 and every list that names some register but neither the base nor R15.  A
    store with write-back, in any of the four ways, and afterwards the load that belongs to
    it, bring back every register of the list, whatever they have become in between, and
    the base; the other registers are not touched, and in the memory only the stored words
    have changed.  So do a push and a pop of the same low registers.  And so do two steps
    that carry out such a pair, wherever the second one stands, registers and memory
    alike. -/
theorem block_load_takes_store_back :
    (∀ (f g : Fetched) (a : Addressing) (rn : Reg) (list : Half),
        f.MovesBlock .store a rn list → g.MovesBlock .load a.complement rn list →
        a.writeBack = true → list ≠ 0 → rn ≠ Reg.pc → rn ∉ registersIn list →
        Reg.pc ∉ registersIn list → g.TakesBack f a rn list)
      ∧ (∀ list raw raw' : Half, list ≠ 0 → list.toNat < 0x100 →
        Fetched.TakesBack (.thumb ⟨.pushPop .load false list, raw'⟩)
          (.thumb ⟨.pushPop .store false list, raw⟩) ⟨.pre, .down, true⟩ Reg.sp list)
      ∧ ∀ (m m' : Machine FlatMemory) (a : Addressing) (rn : Reg) (list : Half),
        m'.fetched.TakesBack m.fetched a rn list → m'.bus = m.step.2.bus →
        (∀ r, r ≠ Reg.pc → r ∉ registersIn list → m'.read r = m.step.2.read r) →
        m.Restored m'.step.2 (m.core.aligned.blockStart a rn list) list := by
  refine ⟨?_, ?_, ?_⟩
  · intro f g a rn list hf hg hw hzero hrn hbase hpc
    exact hf.takesBack hg hw hzero hrn hbase hpc
  · intro list raw raw' hzero hlow
    exact Fetched.takesBack_of_stack hzero hlow raw raw'
  · intro m m' a rn list h hbus hkept
    exact Machine.restored_step_of_takesBack h hbus hkept

/-- `STMIB R0!, {R1, R2}` and `LDMDA R0!, {R1, R2}` with a base two bytes below the end of the
    address space; R1 and R2 are overwritten in between. -/
theorem block_load_takes_store_back_of_wrapping :
    let store : Fetched := .arm (Arm.decode 0xE9A00006)
    let load : Fetched := .arm (Arm.decode 0xE8300006)
    let k := ((Core.mk .zero (.ofMode .user) .zero).setRegister 0 0xFFFFFFFE).setRegister 2 9
    let x := Execution.start k (FlatMemory.zero 1 1)
    let y := ((store.execute x).setRegister 1 70).setRegister 2 80
    (load.execute y).core.registers.read 1 = 0 ∧ (load.execute y).core.registers.read 2 = 9
      ∧ (load.execute y).core.registers.read 0 = 0xFFFFFFFE
      ∧ (load.execute y).bus = (store.execute x).bus := by
  intro store load k x y
  obtain ⟨h, -, -⟩ := block_load_takes_store_back
  have hstore : store.MovesBlock .store ⟨.pre, .up, true⟩ 0 6 := .arm _ _ _ _ _ 0xE9A00006
  have hload : load.MovesBlock .load ⟨.post, .down, true⟩ 0 6 := .arm _ _ _ _ _ 0xE8300006
  have hback := h store load ⟨.pre, .up, true⟩ 0 6 hstore hload rfl (by decide) (by decide)
    (by decide) (by decide)
  have hlist : registersIn 6 = [1, 2] := by decide
  have hkept (r : Reg) (hr : r ∉ registersIn 6) :
      y.core.registers.read r = (store.execute x).core.registers.read r := by
    rw [hlist, List.mem_cons, List.mem_singleton, not_or] at hr
    refine (Registers.read_write _ 2 r 80).trans ?_
    rw [if_neg (Ne.symm hr.2)]
    refine (Registers.read_write _ 1 r 70).trans ?_
    rw [if_neg (Ne.symm hr.1)]
  have htaken := hback x y rfl fun r _ => hkept r
  refine ⟨?_, ?_, ?_, htaken.bus⟩
  · exact (htaken.registers 1 (by decide)).trans (by decide +kernel)
  · exact (htaken.registers 2 (by decide)).trans (by decide +kernel)
  · exact (htaken.registers 0 (by decide)).trans (by decide +kernel)

end Armv4t
