import Armv4t.Proofs.Confinement
import Armv4t.Proofs.StatusInstall

/-! # The user bank — two ways to the registers of user mode

    A block with the S bit reaches the registers of user mode from any mode, without a
    switch: `Bank.userSlot?` says for each of them whether it is live or where it lies.  A
    switch to user mode makes all sixteen live.  Both go by the owner of a register
    (`Bank.userSlot?_wide`), so that stale copies never show.

    * A register read without the switch is the one that is live after it
      (`Bank.read_exchange_user`), and one that was written reads back
      (`Bank.userRegister_setUserRegister`);
    * so a write before the switch and one after it come to the same core, but for what
      is stale (`Bank.setUserRegister_exchange`);
    * by induction on the list, a block of user registers stores what user mode would see
      (`Execution.storeBlock_user`) and loads where user mode would load
      (`Execution.loadBlock_user`).

    `Machine.user_bank_is_a_mode_switch` puts them together. -/

namespace Armv4t

namespace Bank

variable (b : Bank) (live : Registers) (m o : Mode)

/-! ## Where the registers of user mode are -/

/-- No mode banks R0 to R7 and R15. -/
theorem userSlot?_of_low {r : Reg} (hr : r.val < 8 ∨ r = Reg.pc) : userSlot? m r = none := by
  rw [userSlot?, dif_neg]
  rintro ⟨hlow, hhigh⟩
  rcases hr with hr | rfl
  · omega
  · exact absurd hhigh (by decide)

/-- A high register of user mode is live where the live mode shares it, and lies in the
    base copies elsewhere. -/
theorem userSlot?_wide (i : HighReg) :
    userSlot? m i.wide = if m.owner i = .user then none else some i := by
  cases m <;> fin_cases i <;> rfl

/-- The place in the base copies is that of the register. -/
theorem eq_wide_of_userSlot? {r : Reg} {i : HighReg} (h : userSlot? m r = some i) :
    r = i.wide := by
  rcases Registers.reg_cases r with hr | ⟨j, rfl⟩
  · rw [userSlot?_of_low m hr] at h
    cases h
  · rw [userSlot?_wide] at h
    by_cases hj : m.owner j = .user
    · rw [if_pos hj] at h
      cases h
    · rw [if_neg hj] at h
      rw [Option.some.inj h]

/-- A high register as user mode sees it: live where it is shared, in its slot elsewhere. -/
theorem userRegister_wide (i : HighReg) :
    b.userRegister live m i.wide
      = if m.owner i = .user then live.read i.wide else b.slot .user i := by
  rw [userRegister, userSlot?_wide]
  by_cases hi : m.owner i = .user
  · rw [if_pos hi, if_pos hi]
  · rw [if_neg hi, if_neg hi]
    rfl

/-! ## Reading -/

/-- **Reading without the switch**: a register of user mode is the one that is live after a
    switch to user mode. -/
theorem read_exchange_user (r : Reg) :
    (b.exchange live m .user).1.read r = b.userRegister live m r := by
  by_cases hm : m = .user
  · rw [exchange, if_pos hm, hm, userRegister, userSlot?_user]
  · rw [exchange, if_neg hm]
    show (live.setHigh ((b.store m live.high).highOf .user)).read r = _
    rcases Registers.reg_cases r with hr | ⟨i, rfl⟩
    · rw [Registers.read_setHigh_of_low _ _ hr, userRegister, userSlot?_of_low m hr]
    · rw [Registers.read_setHigh_wide, highOf_getElem, slot_store, userRegister_wide,
        Registers.high_getElem]
      rfl

/-! ## Writing -/

/-- A register of user mode that was written reads back, and the others keep their
    values. -/
theorem userRegister_setUserRegister (i j : Reg) (v : Word) :
    (b.setUserRegister live m i v).2.userRegister (b.setUserRegister live m i v).1 m j
      = if i = j then v else b.userRegister live m j := by
  rw [setUserRegister]
  cases hi : userSlot? m i with
  | none =>
      show b.userRegister (live.write i v) m j = _
      rw [userRegister, userRegister]
      cases hj : userSlot? m j with
      | none => exact Registers.read_write live i j v
      | some l =>
          have hne : i ≠ j := fun h => by rw [h, hj] at hi; cases hi
          rw [if_neg hne]
  | some k =>
      show ({ b with user := b.user.set k.val v k.isLt } : Bank).userRegister live m j = _
      rw [userRegister, userRegister]
      cases hj : userSlot? m j with
      | none =>
          have hne : i ≠ j := fun h => by rw [h, hj] at hi; cases hi
          rw [if_neg hne]
      | some l =>
          -- both lie in the base copies, each at its own place
          have hij : i = j ↔ k.val = l.val := by
            rw [eq_wide_of_userSlot? m hi, eq_wide_of_userSlot? m hj, Fin.ext_iff]
            exact Nat.add_right_cancel_iff
          show (b.user.set k.val v k.isLt)[l.val] = _
          rw [Vector.getElem_set]
          simp only [hij, Fin.getElem_fin]

/-- Such a write leaves every live register that the mode does not share. -/
theorem read_setUserRegister (i : Reg) (v : Word) {j : HighReg} (hj : m.owner j ≠ .user) :
    (b.setUserRegister live m i v).1.read j.wide = live.read j.wide := by
  rw [setUserRegister]
  cases hi : userSlot? m i with
  | none =>
      have hne : i ≠ j.wide := by
        intro h
        rw [h, userSlot?_wide, if_neg hj] at hi
        cases hi
      show (live.write i v).read j.wide = _
      rw [Registers.read_write, if_neg hne]
  | some k => rfl

/-- In the bank it changes the base copies at most. -/
theorem setUserRegister_bank (i : Reg) (v : Word) :
    ∃ user, (b.setUserRegister live m i v).2 = { b with user } := by
  rw [setUserRegister]
  cases userSlot? m i with
  | none => exact ⟨b.user, rfl⟩
  | some k => exact ⟨_, rfl⟩

/-- The base copies are not what any other mode owns. -/
theorem slot_of_user (user : HighRegisters) {j : HighReg} (hj : o.owner j ≠ .user) :
    ({ b with user } : Bank).slot (o.owner j) j = b.slot (o.owner j) j := by
  cases o <;> fin_cases j <;> first | rfl | exact absurd rfl hj

theorem spsr?_of_user (user : HighRegisters) : ({ b with user } : Bank).spsr? o = b.spsr? o := by
  cases o <;> rfl

/-! ## Writing before the switch and after it -/

/-- A switch to user mode puts away what the other modes own. -/
theorem slot_exchange_user {j : HighReg} (hj : o.owner j ≠ .user) :
    (b.exchange live m .user).2.slot (o.owner j) j
      = if m.owner j = o.owner j then live.read j.wide else b.slot (o.owner j) j := by
  by_cases hm : m = .user
  · have howner : ¬ Mode.user.owner j = o.owner j := Ne.symm hj
    rw [exchange, if_pos hm, hm, if_neg howner]
  · rw [exchange, if_neg hm]
    show (b.store m live.high).slot (o.owner j) j = _
    rw [slot_store, Registers.high_getElem]

theorem spsr?_exchange (n : Mode) : (b.exchange live m n).2.spsr? o = b.spsr? o := by
  by_cases hm : m = n
  · rw [exchange, if_pos hm]
  · rw [exchange, if_neg hm]
    exact spsr?_store b m o live.high

/-- What two register files with their banks share in user mode: all that is live, every saved
    status, and the copies of every register that another mode owns.  The base copies are
    stale there. -/
structure SameInUser (s t : Registers × Bank) : Prop where
  live : s.1 = t.1
  slots : ∀ (o : Mode) (j : HighReg), o.owner j ≠ .user →
    s.2.slot (o.owner j) j = t.2.slot (o.owner j) j
  spsrs : ∀ o, s.2.spsr? o = t.2.spsr? o

/-- **A write before the switch is a write after it.** -/
theorem setUserRegister_exchange (i : Reg) (v : Word) :
    SameInUser
      ((b.setUserRegister live m i v).2.exchange (b.setUserRegister live m i v).1 m .user)
      ((b.exchange live m .user).1.write i v, (b.exchange live m .user).2) := by
  obtain ⟨user, huser⟩ := b.setUserRegister_bank live m i v
  refine ⟨?_, ?_, ?_⟩
  · refine Registers.ext_read ?_
    intro j
    rw [read_exchange_user, userRegister_setUserRegister, Registers.read_write,
      read_exchange_user]
  · intro o j hj
    rw [slot_exchange_user _ _ _ _ hj, slot_exchange_user _ _ _ _ hj, huser,
      slot_of_user _ _ _ hj]
    by_cases hm : m.owner j = o.owner j
    · rw [if_pos hm, if_pos hm, read_setUserRegister _ _ _ _ _ (hm ▸ hj)]
    · rw [if_neg hm, if_neg hm]
  · intro o
    rw [spsr?_exchange, spsr?_exchange, huser, spsr?_of_user]

end Bank

/-! ## The core -/

namespace Core

variable {k k' : Core}

/-- The sixteen registers that a switch to user mode makes live. -/
def userView (k : Core) : Registers := (k.switchMode .user).registers

theorem userView_eq (k : Core) : k.userView = (k.bank.exchange k.registers k.mode .user).1 := by
  rw [userView, switchMode, Bank.exchange]
  by_cases h : k.mode = .user
  · rw [if_pos h, if_pos h]
  · rw [if_neg h, if_neg h]

theorem read_userView (k : Core) (r : Reg) : k.userView.read r = k.userRegister r := by
  rw [userView_eq, Bank.read_exchange_user, userRegister]

/-- A high register in the view of user mode is the one that user mode sees. -/
theorem read_userView_wide (k : Core) (i : HighReg) : k.userView.read i.wide = k.view .user i := by
  have hlive := (k.switchMode .user).view_live i
  rw [mode_switchMode, view_switchMode] at hlive
  exact hlive.symm

theorem userView_setRegister_pc (k : Core) (v : Word) :
    (k.setRegister Reg.pc v).userView = k.userView.write Reg.pc v := by
  rw [userView, switchMode_setRegister_pc]
  rfl

theorem userView_setUserRegister (k : Core) (i : Reg) (v : Word) :
    (k.setUserRegister i v).userView = k.userView.write i v := by
  rw [userView_eq, userView_eq]
  exact (k.bank.setUserRegister_exchange k.registers k.mode i v).live

/-- What user mode does not own is kept by a write to a register of user mode. -/
theorem view_setUserRegister (k : Core) (r : Reg) (v : Word) {o : Mode} {i : HighReg}
    (hi : o.owner i ≠ .user) : (k.setUserRegister r v).view o i = k.view o i := by
  obtain ⟨user, huser⟩ := k.bank.setUserRegister_bank k.registers k.mode r v
  show (if k.mode.owner i = o.owner i
    then (k.bank.setUserRegister k.registers k.mode r v).1.read i.wide
    else (k.bank.setUserRegister k.registers k.mode r v).2.slot (o.owner i) i) = k.view o i
  rw [huser, Bank.slot_of_user _ _ _ hi, view]
  by_cases hm : k.mode.owner i = o.owner i
  · rw [if_pos hm, if_pos hm, Bank.read_setUserRegister _ _ _ _ _ (hm ▸ hi)]
  · rw [if_neg hm, if_neg hm]

theorem spsr?_setUserRegister (k : Core) (r : Reg) (v : Word) (o : Mode) :
    (k.setUserRegister r v).bank.spsr? o = k.bank.spsr? o := by
  obtain ⟨user, huser⟩ := k.bank.setUserRegister_bank k.registers k.mode r v
  show (k.bank.setUserRegister k.registers k.mode r v).2.spsr? o = _
  rw [huser, Bank.spsr?_of_user]

/-- A core after another one in which user mode has loaded some registers from successive
    words.  R15 aside, user mode sees nothing else changed, and the other modes see nothing
    changed at all of what is their own. -/
structure UserLoaded (k : Core) (word : Word → Word) (a : Word) (list : List Reg) (k' : Core) :
    Prop where
  user : ∀ r, r ≠ Reg.pc → k'.userView.read r = (k.userView.loaded word a list).read r
  views : ∀ o i, Mode.owner o i ≠ .user → k'.view o i = k.view o i
  spsrs : ∀ o, k'.bank.spsr? o = k.bank.spsr? o

namespace UserLoaded

variable {word : Word → Word} {a : Word} {list : List Reg}

/-- No view shows R15. -/
theorem setRegister_pc (h : k.UserLoaded word a list k') (v : Word) :
    k.UserLoaded word a list (k'.setRegister Reg.pc v) where
  user := by
    intro r hr
    rw [userView_setRegister_pc, Registers.read_write, if_neg (Ne.symm hr)]
    exact h.user r hr
  views := fun o i hi => (k'.view_setRegister_pc v o i).trans (h.views o i hi)
  spsrs := h.spsrs

theorem of_setRegister_pc {v : Word} (h : (k.setRegister Reg.pc v).UserLoaded word a list k') :
    k.UserLoaded word a list k' where
  user := by
    intro r hr
    rw [h.user r hr, userView_setRegister_pc, Registers.read_loaded, Registers.read_loaded,
      Registers.read_write, if_neg (Ne.symm hr)]
  views := fun o i hi => (h.views o i hi).trans (k.view_setRegister_pc v o i)
  spsrs := h.spsrs

/-- Where every mode sees what it saw, no register was loaded. -/
theorem of_views (hviews : ∀ o i, k'.view o i = k.view o i)
    (hlow : ∀ r : Reg, r.val < 8 → k'.registers.read r = k.registers.read r)
    (hspsrs : ∀ o, k'.bank.spsr? o = k.bank.spsr? o) : k.UserLoaded word a [] k' where
  user := by
    intro r hr
    rw [Registers.loaded_nil]
    rcases Registers.reg_cases r with (hr' | rfl) | ⟨i, rfl⟩
    · rw [userView, userView, read_switchMode_of_low _ _ (Or.inl hr'),
        read_switchMode_of_low _ _ (Or.inl hr')]
      exact hlow r hr'
    · exact absurd rfl hr
    · rw [read_userView_wide, read_userView_wide, hviews]
  views := fun o i _ => hviews o i
  spsrs := hspsrs

/-- So none is by a return from an exception, wherever it leads. -/
theorem restored (k : Core) (target : Word) :
    k.UserLoaded word a [] (k.restored.setRegister Reg.pc target) := by
  have hkept : k.UserLoaded word a [] (k.setRegister Reg.pc target) :=
    (of_views (fun _ _ => rfl) (fun _ _ => rfl) fun _ => rfl).setRegister_pc target
  cases hp : k.spsr? with
  | none =>
      rw [restored_of_none hp]
      exact hkept
  | some p =>
      rw [restored_of_some hp]
      by_cases h : p.HasMode
      · have hinstalled := installed_of_hasMode h k target
        exact of_views hinstalled.views hinstalled.low hinstalled.spsrs
      · rw [tryInstall_of_not_hasMode h]
        exact hkept

/-- The first register may be loaded before the others. -/
theorem cons {r : Reg} (hr : r ∉ list)
    (h : (k.setUserRegister r (word a)).UserLoaded word (a + 4) list k') :
    k.UserLoaded word a (r :: list) k' where
  user := by
    rw [Registers.loaded_cons hr, ← userView_setUserRegister]
    exact h.user
  views := fun o i hi => (h.views o i hi).trans (k.view_setUserRegister r _ hi)
  spsrs := fun o => (h.spsrs o).trans (k.spsr?_setUserRegister r _ o)

end UserLoaded

/-- What a block of user registers stores for a register. -/
def userStored (k : Core) (r : Reg) : Word :=
  if r = Reg.pc then k.effectivePc .stored else k.userView.read r

/-- The writes of a block of user registers from an address on. -/
def userWords (k : Core) (a : Word) (list : List Reg) : List Write :=
  list.mapIdx fun j r => ⟨.word, alignWord (a + 4 * UInt32.ofNat j), k.userStored r⟩

theorem userWords_cons (k : Core) (a : Word) (r : Reg) (list : List Reg) :
    k.userWords a (r :: list)
      = ⟨.word, alignWord a, k.userStored r⟩ :: k.userWords (a + 4) list := by
  rw [userWords, List.mapIdx_cons]
  simp only [wordAddress_succ]
  rw [show a + 4 * UInt32.ofNat 0 = a from UInt32.add_zero a, userWords]

/-- The core before a block of user registers is loaded: the base is moved, unless it is
    R15 or is loaded itself. -/
def movedBase (k : Core) (a : Addressing) (rn : Reg) (list : Half) : Core :=
  if a.writeBack ∧ rn ≠ Reg.pc ∧ rn ∉ registersIn list
  then k.setRegister rn (k.blockRange a rn list).2 else k

theorem cpsr_movedBase (k : Core) (a : Addressing) (rn : Reg) (list : Half) :
    (k.movedBase a rn list).cpsr = k.cpsr := by
  rw [movedBase]
  split <;> rfl

/-- An empty list moves R15, and the base as any list does that does not name it. -/
theorem movedBase_empty (k : Core) (a : Addressing) (rn : Reg) :
    k.movedBase a rn 0 = { k with registers := k.blockBase a rn 0 } := by
  have hlisted : rn ∉ listed 0 ↔ rn ≠ Reg.pc ∧ rn ∉ registersIn 0 := by
    show rn ∉ [Reg.pc] ↔ rn ≠ Reg.pc ∧ rn ∉ []
    rw [List.mem_singleton]
    exact ⟨fun h => ⟨h, List.not_mem_nil⟩, fun h => h.1⟩
  rw [movedBase, blockBase]
  simp only [hlisted]
  split <;> rfl

/-- All that an empty list loads is R15. -/
theorem eq_write_of_loadedBlock {B : Type} [Bus B] {bus : B} {a : Addressing} {rn : Reg}
    {rs : Registers} {target : Word}
    (h : k.loadedBlock bus a rn 0 = rs.write Reg.pc target) :
    rs = (k.blockBase a rn 0).write Reg.pc rs.pc := by
  refine Registers.ext_read ?_
  intro r
  have hread := congrArg (Registers.read · r) h
  rw [loadedBlock, Registers.read_loaded, Registers.read_write] at hread
  rw [Registers.read_write]
  by_cases hr : Reg.pc = r
  · rw [if_pos hr, ← hr]
    rfl
  · have hlisted : r ∉ listed 0 := fun hmem => hr (List.mem_singleton.mp hmem).symm
    rw [if_neg hlisted, if_neg hr] at hread
    rw [if_neg hr, hread]

end Core

/-! ## Blocks of user registers -/

namespace Execution

variable {B : Type} [Bus B] {b : Block}

/-- **Storing**, by induction on the list: a store leaves the core to the next one. -/
theorem storeBlock_user (hu : b.user = true) (list : List Reg) (first : Bool) (a : Word)
    (x : Execution B) (hm : b.mode = x.core.mode) :
    (storeBlock b first a list x).bus = Bus.written x.bus (x.core.userWords a list) := by
  induction list generalizing first a x with
  | nil => rfl
  | cons r list ih =>
      have hvalue : x.storedValue b first r = x.core.userStored r := by
        rw [storedValue, hu, if_pos rfl, hm, Core.userStored, Core.read_userView,
          Core.userRegister]
      rw [storeBlock, ih false (a + 4) (x.store .word (!first) a _) hm, hvalue,
        Core.userWords_cons]
      rfl

/-- **Loading**, by induction on the list: each load leaves the same bus and the same mode
    to the next one. -/
theorem loadBlock_user (hu : b.user = true) (list : List Reg) (hn : list.Nodup)
    (hpc : Reg.pc ∉ list) (first : Bool) (a : Word) (x : Execution B)
    (hm : b.mode = x.core.mode) :
    x.core.UserLoaded (wordAt x.bus) a list (loadBlock b first a list x).core
      ∧ (loadBlock b first a list x).core.cpsr = x.core.cpsr
      ∧ (loadBlock b first a list x).bus = x.bus := by
  induction list generalizing first a x with
  | nil => exact ⟨.of_views (fun _ _ => rfl) (fun _ _ => rfl) fun _ => rfl, rfl, rfl⟩
  | cons r list ih =>
      obtain ⟨hr, hn'⟩ := List.nodup_cons.mp hn
      have hr' : r ≠ Reg.pc := fun h => hpc (h ▸ List.mem_cons_self)
      have hpc' : Reg.pc ∉ list := fun h => hpc (List.mem_cons_of_mem r h)
      let x' := (x.load .word (!first) a).2.withCore (x.core.setUserRegister r (wordAt x.bus a))
      have hone : loadBlock b first a (r :: list) x = loadBlock b false (a + 4) list x' := by
        rw [loadBlock]
        dsimp only
        rw [acceptLoaded, if_neg hr', hu, if_pos rfl, hm]
        rfl
      obtain ⟨hcore, hcpsr, hbus⟩ := ih hn' hpc' false (a + 4) x' hm
      rw [hone]
      exact ⟨hcore.cons hr, hcpsr, hbus⟩

omit [Bus B] in
theorem bus_writeBase (x : Execution B) (rn : Reg) (v : Word) : (x.writeBase rn v).bus = x.bus := by
  rw [writeBase]
  by_cases hrn : rn = Reg.pc
  · rw [if_pos hrn]
    rfl
  · rw [if_neg hrn]
    rfl

/-- The registers of a store with the S bit are those of user mode, R15 included. -/
theorem bus_transferBlock_user (x : Execution B) (a : Addressing) (rn : Reg) (list : Half) :
    (x.transferBlock .store a true rn list).bus
      = Bus.written x.bus (x.core.userWords (x.core.blockRange a rn list).1 (listed list)) := by
  have hstored := storeBlock_user (b := x.core.block .store a true rn list) rfl (listed list) true
    (x.core.blockRange a rn list).1 x rfl
  rw [transferBlock_store]
  dsimp only
  by_cases hw : a.writeBack = true
  · rw [if_pos hw, bus_writeBase]
    exact hstored
  · rw [if_neg hw]
    exact hstored

omit [Bus B] in
/-- The base is moved before the registers are loaded. -/
theorem loaded_base (x : Execution B) (a : Addressing) (rn : Reg) (list : Half) :
    ∃ y, (if a.writeBack ∧ rn ∉ registersIn list then x.writeBase rn (x.core.blockRange a rn list).2
        else x) = y
      ∧ y.core = x.core.movedBase a rn list ∧ y.bus = x.bus := by
  refine ⟨_, rfl, ?_, ?_⟩
  · rw [Core.movedBase]
    by_cases hw : a.writeBack = true ∧ rn ∉ registersIn list
    · rw [if_pos hw, writeBase]
      by_cases hrn : rn = Reg.pc
      · rw [if_pos hrn, if_neg fun h => h.2.1 hrn]
        rfl
      · rw [if_neg hrn, if_pos ⟨hw.1, hrn, hw.2⟩]
        rfl
    · rw [if_neg hw, if_neg fun h => hw ⟨h.1, h.2.2⟩]
  · by_cases hw : a.writeBack = true ∧ rn ∉ registersIn list
    · rw [if_pos hw, bus_writeBase]
    · rw [if_neg hw]

/-- An empty list is a return from an exception, and loads no register of user mode. -/
theorem transferBlock_user_empty (x : Execution B) (a : Addressing) (rn : Reg) :
    (x.core.movedBase a rn 0).UserLoaded (wordAt x.bus) (x.core.blockRange a rn 0).1 []
        (x.transferBlock .load a true rn 0).core
      ∧ (x.transferBlock .load a true rn 0).bus = x.bus := by
  obtain ⟨rs, target, y, hrs, hcore, hbus, -, heq⟩ :=
    x.transferBlock_return a rn (show Reg.pc ∈ listed 0 from List.mem_cons_self)
  -- all that was loaded before the return is R15
  have hy : y.core = (x.core.movedBase a rn 0).setRegister Reg.pc rs.pc := by
    rw [hcore, Core.movedBase_empty]
    exact congrArg (fun registers => { x.core with registers }) (Core.eq_write_of_loadedBlock hrs)
  have hreturn : y.core.UserLoaded (wordAt x.bus) (x.core.blockRange a rn 0).1 []
      (y.restoreStatus.core.jump target) := by
    rw [core_restoreStatus]
    exact .restored y.core _
  rw [hy] at hreturn
  rw [heq]
  refine ⟨hreturn.of_setRegister_pc, ?_⟩
  show y.restoreStatus.bus = x.bus
  rw [bus_restoreStatus, hbus]

/-- Any other list without R15 loads its registers of user mode, after the base is moved. -/
theorem transferBlock_user_of_ne (x : Execution B) (a : Addressing) (rn : Reg) {list : Half}
    (hzero : list ≠ 0) (hpc : Reg.pc ∉ registersIn list) :
    (x.core.movedBase a rn list).UserLoaded (wordAt x.bus) (x.core.blockRange a rn list).1
        (registersIn list) (x.transferBlock .load a true rn list).core
      ∧ (x.transferBlock .load a true rn list).bus = x.bus
      ∧ (x.transferBlock .load a true rn list).core.cpsr = x.core.cpsr := by
  have hlisted : listed list = registersIn list := if_neg hzero
  have hn : (registersIn list).Nodup := hlisted ▸ nodup_listed list
  obtain ⟨y, hbase, hcore, hbus⟩ := x.loaded_base a rn list
  have huser : (x.core.block .load a true rn list).user = true := by
    show (true && !decide (TransferKind.load = .load ∧ Reg.pc ∈ listed list)) = true
    rw [hlisted, decide_eq_false fun h => hpc h.2]
    rfl
  have hmode : (x.core.block .load a true rn list).mode = y.core.mode := by
    rw [Core.mode, hcore, Core.cpsr_movedBase]
    rfl
  obtain ⟨hloaded, hcpsr, hbus'⟩ := loadBlock_user huser (registersIn list) hn hpc true
    (x.core.blockRange a rn list).1 y hmode
  have heq : x.transferBlock .load a true rn list
      = (loadBlock (x.core.block .load a true rn list) true (x.core.blockRange a rn list).1
        (registersIn list) y).wait 1 := by
    rw [transferBlock_load, hlisted, ← hbase]
    rfl
  rw [hcore, hbus] at hloaded
  rw [heq]
  refine ⟨hloaded, hbus'.trans hbus, hcpsr.trans ?_⟩
  rw [hcore, Core.cpsr_movedBase]

end Execution

/-! ## Steps -/

namespace Machine

variable {B : Type} [Bus B] {m : Machine B} {c : Condition} {a : Addressing} {rn : Reg}
  {list : Half} {raw : Word}

/-- A step over a block is the transfer from the aligned core. -/
theorem flight_of_block {kind : TransferKind}
    (hf : m.fetched = .arm ⟨c, .blockTransfer kind a true rn list, raw⟩) :
    m.flight = (Execution.start m.core.aligned m.bus).transferBlock kind a true rn list := by
  rw [flight, hf]
  rfl

theorem step_of_userStore (hf : m.fetched = .arm ⟨c, .blockTransfer .store a true rn list, raw⟩) :
    m.step.2.bus = Bus.written m.bus
      (m.core.aligned.userWords (m.core.aligned.blockRange a rn list).1 (listed list)) := by
  rw [bus_step, flight_of_block hf]
  exact Execution.bus_transferBlock_user _ a rn list

theorem step_of_userLoad (hf : m.fetched = .arm ⟨c, .blockTransfer .load a true rn list, raw⟩)
    (hpc : Reg.pc ∉ registersIn list) :
    (m.core.aligned.movedBase a rn list).UserLoaded (Execution.wordAt m.bus)
        (m.core.aligned.blockRange a rn list).1 (registersIn list) m.step.2.core
      ∧ m.step.2.bus = m.bus ∧ (list ≠ 0 → m.step.2.core.cpsr = m.core.cpsr) := by
  obtain ⟨pc, hend⟩ := endCore_eq m.core.instructionSet m.flight
  rw [core_step, bus_step, hend, flight_of_block hf]
  by_cases hzero : list = 0
  · subst hzero
    obtain ⟨hloaded, hbus⟩ :=
      Execution.transferBlock_user_empty (.start m.core.aligned m.bus) a rn
    exact ⟨hloaded.setRegister_pc pc, hbus, fun h => absurd rfl h⟩
  · obtain ⟨hloaded, hbus, hcpsr⟩ :=
      Execution.transferBlock_user_of_ne (.start m.core.aligned m.bus) a rn hzero hpc
    exact ⟨hloaded.setRegister_pc pc, hbus, fun _ => hcpsr⟩

/-- **The user bank is a mode switch**, for every register file, bank, mode and register.
    A register of user mode, read without a switch, is the one that is live after a switch
    to user mode.  One that is written without a switch leaves every live register that the
    mode does not share with user; and a switch afterwards leads to the same live
    registers, and to the same copies of all that other modes own, as the switch first and
    the write afterwards.

    So a store of a block with the S bit writes to successive words what user mode would
    see, and a load of one, without R15, changes for user mode what it loads and the base,
    and for the other modes nothing that is their own. -/
theorem user_bank_is_a_mode_switch (m : Machine B) :
    (∀ (b : Bank) (live : Registers) (mode : Mode) (i : Reg),
        b.userRegister live mode i = (b.exchange live mode .user).1.read i)
      ∧ (∀ (b : Bank) (live : Registers) (mode : Mode) (i : Reg) (v : Word),
        let set := b.setUserRegister live mode i v
        let switched := b.exchange live mode .user
        Bank.SameInUser (set.2.exchange set.1 mode .user) (switched.1.write i v, switched.2)
          ∧ ∀ j : HighReg, mode.owner j ≠ .user → set.1.read j.wide = live.read j.wide)
      ∧ (∀ c a rn list raw, m.fetched = .arm ⟨c, .blockTransfer .store a true rn list, raw⟩ →
        let k := m.core.aligned
        m.step.2.bus = Bus.written m.bus
          (k.userWords (k.blockRange a rn list).1 (listed list)))
      ∧ ∀ c a rn list raw, m.fetched = .arm ⟨c, .blockTransfer .load a true rn list, raw⟩ →
        Reg.pc ∉ registersIn list →
        let k := m.core.aligned
        (k.movedBase a rn list).UserLoaded (Execution.wordAt m.bus) (k.blockRange a rn list).1
            (registersIn list) m.step.2.core
          ∧ m.step.2.bus = m.bus ∧ (list ≠ 0 → m.step.2.core.cpsr = m.core.cpsr) := by
  refine ⟨?_, ?_, fun c a rn list raw => step_of_userStore, fun c a rn list raw => step_of_userLoad⟩
  · intro b live mode i
    exact (b.read_exchange_user live mode i).symm
  · intro b live mode i v
    exact ⟨b.setUserRegister_exchange live mode i v,
      fun j hj => b.read_setUserRegister live mode i v hj⟩

/-- From FIQ mode, with 80 in R8 of user mode, `STMIA R1, {R8, R14}^` writes it and R14,
    and `LDMIA R1, {R8, R13}^` loads two base copies; R8 of FIQ mode keeps its value. -/
theorem user_bank_is_a_mode_switch_of_fiq :
    let user := (Metered.machine [0xE8C14100] (fun _ _ _ => 1) .user).write 8 80
    let store := (user.switchMode .fiq).write 1 0x20
    let load := ((Rom.machine [0xE8D12100, 7, 9] .fiq).write 1 4).write 8 5
    store.step.2.bus = Bus.written store.bus [⟨.word, 0x20, 80⟩, ⟨.word, 0x24, 0⟩]
      ∧ load.step.2.core.userView.read 8 = 7 ∧ load.step.2.core.userView.read Reg.sp = 9
      ∧ load.step.2.core.view .fiq 0 = 5 := by
  intro user store load
  have hstore : ((((Metered.machine [0xE8C14100] (fun _ _ _ => 1) .user).write 8 80).switchMode
      .fiq).write 1 0x20).fetched
      = .arm ⟨.al, .blockTransfer .store ⟨.post, .up, false⟩ true 1 0x4100, 0xE8C14100⟩ := rfl
  have hload : (((Rom.machine [0xE8D12100, 7, 9] .fiq).write 1 4).write 8 5).fetched
      = .arm ⟨.al, .blockTransfer .load ⟨.post, .up, false⟩ true 1 0x2100, 0xE8D12100⟩ := rfl
  obtain ⟨-, -, hwritten, -⟩ := user_bank_is_a_mode_switch store
  obtain ⟨-, -, -, hloaded⟩ := user_bank_is_a_mode_switch load
  have hbus := hwritten _ _ _ _ _ hstore
  obtain ⟨hcore, -⟩ := hloaded _ _ _ _ _ hload (by decide)
  refine ⟨?_, ?_, ?_, ?_⟩
  · rw [hbus]
    exact congrArg (Bus.written store.bus) (by decide +kernel)
  · rw [hcore.user 8 (by decide)]
    decide +kernel
  · rw [hcore.user Reg.sp (by decide)]
    decide +kernel
  · rw [hcore.views .fiq 0 (by decide)]
    decide +kernel

end Machine

end Armv4t
