import Armv4t.Proofs.Ledger
import Armv4t.Proofs.Slicing
import Armv4t.Runner

/-! # Slices of the runner — where a run ends, whatever its slices

    The runner forgets what a slice leaves of its budget, and takes the rest of the cycles
    from the counter.  No slice is longer than that rest, so that none goes on past the
    first instruction boundary where the cycles are used up or a fault is there
    (`Over`), and the slice that reaches the boundary is the last one.

    * The counters hold the steps and their cycles (`Fresh.counters`);
    * a slice takes steps until it is used up or a fault halts it (`exists_steps`), one of
      them at least and none past the boundary (`slice_ends`);
    * so the runner ends, after no more slices than there are cycles, with the machine at
      the boundary (`sliced_of_firstOver`), by induction on the steps that are left;
    * that machine does not depend on the slices, and neither does the log
      (`run_ends_alike`). -/

namespace Armv4t

namespace Machine

variable {B : Type} [Bus B] {m : Machine B} {n k : Nat}

/-! ## The counters along the steps -/

theorem payable_of_tame (h : Tame m.bus) : Payable m := by
  have hmost := charge_le h
  have hbus : Tame m.step.2.bus := h.after 1
  exact ⟨hbus.costly.nonNegative, by omega⟩

/-- Some steps count their cycles, and one instruction each. -/
theorem counted_after (h : Tame m.bus) (n : Nat) : Counted m (m.spent n) n (m.after n) := by
  induction n with
  | zero => exact Counted.of_counters rfl
  | succ n ih =>
      rw [spent, after_succ]
      exact ih.trans (counted_step (payable_of_tame (h.after n)))

/-- Every step takes a cycle, so that there are no more steps than cycles. -/
theorem le_spent_of_tame (h : Tame m.bus) (n : Nat) : (n : Int) ≤ m.spent n :=
  le_spent fun k _ => (bounded (h.after k)).least

/-- A machine that has counted nothing, on a tame bus, with nothing to stop it. -/
structure Fresh (m : Machine B) : Prop where
  quiet : Quiet m
  tame : Tame m.bus
  diagnostic : m.host.diagnostic = none
  instructions : m.host.instructions = 0
  cycles : m.host.cycles = 0

theorem fresh_new {bus : B} (h : Tame bus) (config : Config) (threshold : Level) :
    Fresh (Machine.new bus config threshold) :=
  ⟨⟨rfl, rfl⟩, h, rfl, rfl, rfl⟩

/-- Its counters hold the steps and their cycles, as far as 64 bits do. -/
theorem Fresh.counters (h : Fresh m) (hfits : m.spent n < 2 ^ 64) :
    ((m.after n).host.cycles.toNat : Int) = m.spent n
      ∧ (m.after n).host.instructions.toNat = n := by
  obtain ⟨hnonneg, hcycles, hinstructions⟩ := counted_after h.tame n
  have hsteps := le_spent_of_tame h.tame n
  have hsmall : (m.spent n).toNat < UInt64.size := by
    rw [UInt64.size]
    omega
  have hsmall' : n < UInt64.size := by omega
  rw [hcycles, hinstructions, h.cycles, h.instructions, UInt64.zero_add, UInt64.zero_add,
    UInt64.toNat_ofNat_of_lt' hsmall, UInt64.toNat_ofNat_of_lt' hsmall']
  exact ⟨by omega, rfl⟩

/-! ## One slice -/

/-- A budget is used up by steps, unless a fault halts the run before. -/
theorem exists_steps (h : Quiet m) (htame : Tame m.bus) (budget : Int32) :
    ∃ n, (m.execute budget).2 = m.after n
      ∧ (budget.toInt ≤ m.spent n ∨ (m.after n).host.Halts)
      ∧ ∀ k < n, m.spent k < budget.toInt ∧ ¬ (m.after k).host.Halts := by
  obtain ⟨n, -, hr⟩ := (Fits.of_tame htame budget).exists_runs (AlwaysCostly.of_tame htame)
  have hpaid : ∀ k ≤ n, (turns budget m k).1.toInt = budget.toInt - m.spent k := by
    intro k hk
    exact toInt_turns (fun j hj => hr.goesOn j (by omega))
      (fun j _ => (bounded (htame.after j)).least)
  refine ⟨n, hr.machine h, ?_, ?_⟩
  · by_cases hf : (m.after n).host.Halts
    · exact .inr hf
    · refine .inl ?_
      by_contra hmore
      have hleft := hpaid n (Nat.le_refl n)
      exact hr.ends (h.goesOn_iff.mpr ⟨by omega, hf⟩)
  · intro k hk
    obtain ⟨hleft, hf⟩ := h.goesOn_iff.mp (hr.goesOn k hk)
    have hpaid' := hpaid k (Nat.le_of_lt hk)
    exact ⟨by omega, hf⟩

/-- A run of so many cycles is over: they are used up, or a fault is there. -/
def Over (total : UInt64) (m : Machine B) (n : Nat) : Prop :=
  (total.toNat : Int) ≤ m.spent n ∨ (m.after n).host.diagnostic.isSome = true

/-- The first boundary where a run is over. -/
structure FirstOver (total : UInt64) (m : Machine B) (n : Nat) : Prop where
  ends : Over total m n
  before : ∀ k < n, ¬ Over total m k

/-- A fault halts the machine at once, or there is none while cycles are left. -/
def HaltsOnFault (total : UInt64) (m : Machine B) : Prop :=
  m.host.config.haltOnInvalidMode = true
    ∨ ∀ n, m.spent n < total.toNat → (m.after (n + 1)).host.diagnostic = none

/-- The counter of cycles does not wrap while cycles are left. -/
def CounterFits (total : UInt64) (m : Machine B) : Prop :=
  ∀ n, m.spent n < total.toNat → m.spent (n + 1) < 2 ^ 64

/-- It does not where so many cycles and those of one more step fit. -/
theorem counterFits_of_le (h : Tame m.bus) {total : UInt64} (hfits : total.toNat + 343 ≤ 2 ^ 64) :
    CounterFits total m := by
  intro n hn
  have hmost := (bounded (h.after n)).most
  rw [spent]
  omega

/-- There is such a boundary, for every step takes a cycle. -/
theorem exists_firstOver (h : Tame m.bus) (total : UInt64) : ∃ n, FirstOver total m n := by
  classical
  have hover : ∃ n, Over total m n :=
    ⟨total.toNat, .inl (le_spent_of_tame h total.toNat)⟩
  exact ⟨Nat.find hover, Nat.find_spec hover, fun k hk => Nat.find_min hover hk⟩

section

variable {total : UInt64} {last : Nat}

/-- It comes after no more steps than there are cycles. -/
theorem FirstOver.le_total (hlast : FirstOver total m last) (h : Tame m.bus) :
    last ≤ total.toNat := by
  by_contra hmore
  exact hlast.before total.toNat (by omega) (.inl (le_spent_of_tame h total.toNat))

/-- Before the boundary cycles are left and there is no fault. -/
theorem FirstOver.diagnostic (hlast : FirstOver total m last) (hk : k < last) :
    m.spent k < total.toNat ∧ (m.after k).host.diagnostic = none := by
  have hnot := hlast.before k hk
  rw [Over, not_or, Bool.not_eq_true, Option.isSome_eq_false_iff, Option.isNone_iff_eq_none] at hnot
  exact ⟨by omega, hnot.2⟩

/-- Up to the boundary a fault halts the machine. -/
theorem FirstOver.halts (hlast : FirstOver total m last) (h : Fresh m)
    (hfault : HaltsOnFault total m) (hk : k ≤ last)
    (hf : (m.after k).host.diagnostic.isSome = true) : (m.after k).host.Halts := by
  rcases hfault with hhalt | hnone
  · refine ⟨?_, hf⟩
    rw [config_after]
    exact hhalt
  · cases k with
    | zero => exact nomatch (congrArg Option.isSome h.diagnostic).symm.trans hf
    | succ k =>
        have hbefore := (hlast.diagnostic (show k < last by omega)).1
        exact nomatch (congrArg Option.isSome (hnone k hbefore)).symm.trans hf

theorem FirstOver.spent_fits (hlast : FirstOver total m last) (hfits : CounterFits total m)
    (hk : k ≤ last) : m.spent k < 2 ^ 64 := by
  cases k with
  | zero => exact (show (0 : Int) < 2 ^ 64 by decide)
  | succ k => exact hfits k (hlast.diagnostic (show k < last by omega)).1

/-- **A slice ends at the boundary or before it**, after one instruction at least, where it
    has no more cycles than are left. -/
theorem FirstOver.slice_ends (hlast : FirstOver total m last) (h : Fresh m)
    (hfault : HaltsOnFault total m) (hk : k < last) {budget : Int32} (hpos : 0 < budget.toInt)
    (hleft : m.spent k + budget.toInt ≤ total.toNat) :
    ∃ n, k < n ∧ n ≤ last ∧ ((m.after k).execute budget).2 = m.after n := by
  obtain ⟨d, hmachine, hends, hbefore⟩ :=
    exists_steps (h.quiet.after k) (h.tame.after k) budget
  have hsome : 0 < d := by
    rcases Nat.eq_zero_or_pos d with rfl | hd
    · -- a budget is left and no fault is there, so that the slice goes on
      rcases hends with hspent | hf
      · have hnothing : (m.after k).spent 0 = 0 := rfl
        omega
      · have hnone := (hlast.diagnostic hk).2
        exact nomatch (congrArg Option.isSome hnone).symm.trans hf.2
    · exact hd
  have hwithin : k + d ≤ last := by
    by_contra hpast
    -- the boundary would be one that the slice goes past
    obtain ⟨j, rfl⟩ := Nat.exists_eq_add_of_lt hk
    obtain ⟨hspent, hf⟩ := hbefore (j + 1) (by omega)
    rw [← after_add] at hf
    rcases hlast.ends with hused | hfound
    · rw [Nat.add_assoc, spent_add] at hused
      omega
    · exact hf (hlast.halts h hfault (Nat.le_refl _) hfound)
  exact ⟨k + d, by omega, hwithin, hmachine.trans (m.after_add k d).symm⟩

end

end Machine

/-! ## The loop of the runner -/

namespace Runner

open Machine

variable {B : Type} [Bus B]

/-- The loop without a bound: so many slices, and what it ends with. -/
inductive Sliced (total : UInt64) (slice : Int32) :
    Nat → Machine B → Option InvalidMode × Machine B → Prop where
  /-- The cycles are used up. -/
  | done {m : Machine B} (h : ¬ m.host.cycles < total) : Sliced total slice 0 m (none, m)
  /-- A slice has left a fault. -/
  | stopped {m m' : Machine B} {fault : InvalidMode} (h : m.host.cycles < total)
      (hrun : (m.execute (nextBudget slice (total - m.host.cycles))).2 = m')
      (hf : m'.host.diagnostic = some fault) :
      Sliced total slice 1 m (some fault, m'.takeDiagnostic.2)
  /-- A slice has left none. -/
  | more {m m' : Machine B} {n : Nat} {r : Option InvalidMode × Machine B}
      (h : m.host.cycles < total)
      (hrun : (m.execute (nextBudget slice (total - m.host.cycles))).2 = m')
      (hf : m'.host.diagnostic = none) (rest : Sliced total slice n m' r) :
      Sliced total slice (n + 1) m r

section

variable {total : UInt64} {slice : Int32} {m : Machine B} {n : Nat}
  {r : Option InvalidMode × Machine B}

omit [Bus B] in
/-- Where there is no fault, taking it changes nothing. -/
theorem takeDiagnostic_of_none (h : m.host.diagnostic = none) : m.takeDiagnostic = (none, m) := by
  rw [takeDiagnostic, ← h]

/-- A loop that is given as many slices as it takes gives what it ends with. -/
theorem Sliced.runSlices_eq (h : Sliced total slice n m r) :
    ∀ {limit : Nat}, n ≤ limit → runSlices total slice limit m = r := by
  induction h with
  | done h =>
      intro limit _
      cases limit with
      | zero => rfl
      | succ limit => rw [runSlices, if_neg h]
  | stopped h hrun hf =>
      intro limit hlimit
      cases limit with
      | zero => omega
      | succ limit =>
          rw [runSlices, if_pos h]
          dsimp only
          rw [hrun, takeDiagnostic, hf]
  | more h hrun hf rest ih =>
      intro limit hlimit
      cases limit with
      | zero => omega
      | succ limit =>
          rw [runSlices, if_pos h]
          dsimp only
          rw [hrun, takeDiagnostic_of_none hf]
          exact ih (by omega)

end

/-- A budget is never more than is left, nor more than a slice. -/
theorem toInt_nextBudget {slice : Int32} (hs : 0 < slice.toInt) (left : UInt64) :
    (nextBudget slice left).toInt = min slice.toInt left.toNat := by
  have hmax := slice.toInt_lt
  have hslice : slice.toInt.toNat.toUInt64.toNat = slice.toInt.toNat := by
    refine UInt64.toNat_ofNat_of_lt' ?_
    rw [UInt64.size]
    omega
  rw [nextBudget]
  by_cases hless : left < slice.toInt.toNat.toUInt64
  · rw [if_pos hless]
    rw [UInt64.lt_iff_toNat_lt, hslice] at hless
    have hword : left.toUInt32.toBitVec.toNat = left.toNat := by
      rw [UInt32.toNat_toBitVec, UInt64.toNat_toUInt32]
      omega
    have hsame : left.toUInt32.toInt32.toInt = left.toNat := by
      rw [← Int32.toInt_toBitVec, UInt32.toBitVec_toInt32,
        BitVec.toInt_eq_toNat_of_lt (by omega), hword]
    omega
  · rw [if_neg hless]
    rw [UInt64.lt_iff_toNat_lt, hslice] at hless
    omega

section

variable {total : UInt64} {slice : Int32} {m : Machine B} {last : Nat}

/-- **The runner ends at the boundary**: from any point before it, by induction on the
    steps that are left. -/
theorem sliced_of_firstOver (h : Fresh m) (hfault : HaltsOnFault total m)
    (hfits : CounterFits total m) (hlast : FirstOver total m last) (hs : 0 < slice.toInt)
    {k : Nat} (hk : k ≤ last) (hnone : (m.after k).host.diagnostic = none) :
    ∃ n ≤ last - k, Sliced total slice n (m.after k) (m.after last).takeDiagnostic := by
  induction hd : last - k using Nat.strong_induction_on generalizing k with
  | _ d ih =>
      have hcycles := (h.counters (hlast.spent_fits hfits hk)).1
      rcases Nat.eq_or_lt_of_le hk with rfl | hless
      · -- at the boundary without a fault, so that the cycles are used up
        refine ⟨0, Nat.zero_le d, ?_⟩
        rw [takeDiagnostic_of_none hnone]
        refine .done ?_
        rcases hlast.ends with hused | hfound
        · rw [UInt64.lt_iff_toNat_lt]
          omega
        · exact nomatch (congrArg Option.isSome hnone).symm.trans hfound
      · have hleft := (hlast.diagnostic hless).1
        have hgo : (m.after k).host.cycles < total := by
          rw [UInt64.lt_iff_toNat_lt]
          omega
        have hrest : (total - (m.after k).host.cycles).toNat
            = total.toNat - (m.after k).host.cycles.toNat :=
          UInt64.toNat_sub_of_le _ _ (UInt64.le_iff_toNat_le.mpr (by omega))
        have hbudget := toInt_nextBudget hs (total - (m.after k).host.cycles)
        rw [hrest] at hbudget
        have hpos : 0 < (nextBudget slice (total - (m.after k).host.cycles)).toInt := by omega
        obtain ⟨n, hfirst, hn, hrun⟩ := hlast.slice_ends h hfault hless hpos (by omega)
        cases hf : (m.after n).host.diagnostic with
        | none =>
            obtain ⟨count, hcount, hloop⟩ := ih (last - n) (by omega) hn hf rfl
            exact ⟨count + 1, by omega, .more hgo hrun hf hloop⟩
        | some fault =>
            -- a fault is there, so that the slice has reached the boundary
            have hend : n = last := by
              by_contra hne
              exact nomatch hf.symm.trans (hlast.diagnostic (show n < last by omega)).2
            subst hend
            refine ⟨1, by omega, ?_⟩
            have hstop := Sliced.stopped hgo hrun hf
            rw [show (m.after n).takeDiagnostic = (some fault, (m.after n).takeDiagnostic.2) by
              rw [takeDiagnostic, hf]]
            exact hstop

end

/-! ## The runner -/

/-- The machine that the runner starts. -/
def launch (memory : MappedMemory) (settings : Settings) (address : Word) :
    Machine MappedMemory :=
  .new memory (startAt settings.machine address) .info

/-- A loaded memory is as tame as an empty one. -/
theorem fresh_launch {settings : Settings} {image : ByteArray} {address : Word}
    {memory : MappedMemory}
    (hload : (MappedMemory.zero settings.waitControl).load address image = .ok memory) :
    Fresh (launch memory settings address) :=
  fresh_new ((MappedMemory.coherent_zero settings.waitControl).load hload).tame _ _

/-- The log of a run, from what its slices end with. -/
def logOf (path : String) (length : Nat) (address : Word)
    (r : Option InvalidMode × Machine MappedMemory) : List LogEntry :=
  .loaded path length address
    :: (r.2.host.journal.events.reverse.map .machine ++ r.1.toList.map .stopped
      ++ finalEntries r.2)

theorem run_eq {a : CommandLine.Arguments} {readFile : String → Option ByteArray}
    {settings : Settings} {image : ByteArray} {memory : MappedMemory} (hslice : 0 < a.slice)
    (hsettings : readSettings readFile a.config = .ok settings)
    (himage : readFile a.image = some image)
    (hload : (MappedMemory.zero settings.waitControl).load a.loadAddress image = .ok memory) :
    run a readFile = .ok (logOf a.image image.size a.loadAddress
      (runSlices a.cycles a.slice a.cycles.toNat (launch memory settings a.loadAddress))) := by
  have hnot : ¬ a.slice ≤ 0 := Int32.not_le.mpr hslice
  rw [run, if_neg hnot, hsettings, himage]
  show Except.bind (Except.mapError Failure.load
    ((MappedMemory.zero settings.waitControl).load a.loadAddress image)) _ = _
  rw [hload]
  rfl

/-- **The slices of a run do not show.**  Whatever is loaded and wherever, with any
    settings and for any number of cycles: the runner ends, after no more slices than there
    are cycles, with the machine at one and the same boundary, and with its fault if it has
    one; the counters hold the instructions and the cycles up to there; without a fault the
    boundary is the first one where the cycles are used up; and the log is the same. -/
theorem run_ends_alike {settings : Settings} {image : ByteArray} {address : Word}
    {memory : MappedMemory} {total : UInt64}
    (hload : (MappedMemory.zero settings.waitControl).load address image = .ok memory)
    (hfault : HaltsOnFault total (launch memory settings address))
    (hfits : CounterFits total (launch memory settings address)) :
    let m := launch memory settings address
    ∃ last,
      (∀ slice : Int32, 0 < slice →
        (∃ n ≤ total.toNat, Sliced total slice n m (m.after last).takeDiagnostic)
          ∧ runSlices total slice total.toNat m = (m.after last).takeDiagnostic)
      ∧ (m.after last).host.instructions.toNat = last
      ∧ ((m.after last).host.cycles.toNat : Int) = m.spent last
      ∧ ((m.after last).host.diagnostic = none →
        (total.toNat : Int) ≤ m.spent last ∧ ∀ k < last, m.spent k < total.toNat)
      ∧ ∀ (a : CommandLine.Arguments) (readFile : String → Option ByteArray),
        a.loadAddress = address → a.cycles = total →
        readSettings readFile a.config = .ok settings → readFile a.image = some image →
        ∃ log, ∀ slice : Int32, 0 < slice → run { a with slice } readFile = .ok log := by
  intro m
  have h : Fresh m := fresh_launch hload
  obtain ⟨last, hlast⟩ := exists_firstOver h.tame total
  have hslices : ∀ slice : Int32, 0 < slice →
      (∃ n ≤ total.toNat, Sliced total slice n m (m.after last).takeDiagnostic)
        ∧ runSlices total slice total.toNat m = (m.after last).takeDiagnostic := by
    intro slice hs
    obtain ⟨n, hn, hloop⟩ := sliced_of_firstOver h hfault hfits hlast (budget_pos.mp hs)
      (Nat.zero_le last) h.diagnostic
    have hfew : n ≤ total.toNat := Nat.le_trans hn (hlast.le_total h.tame)
    exact ⟨⟨n, hfew, hloop⟩, hloop.runSlices_eq hfew⟩
  obtain ⟨hcycles, hinstructions⟩ := h.counters (hlast.spent_fits hfits (Nat.le_refl last))
  refine ⟨last, hslices, hinstructions, hcycles, ?_, ?_⟩
  · intro hnone
    refine ⟨?_, fun k hk => (hlast.diagnostic hk).1⟩
    rcases hlast.ends with hused | hfound
    · exact hused
    · exact nomatch (congrArg Option.isSome hnone).symm.trans hfound
  · rintro a readFile rfl rfl hsettings himage
    refine ⟨logOf a.image image.size a.loadAddress (m.after last).takeDiagnostic, ?_⟩
    intro slice hs
    have hrun := run_eq (a := { a with slice }) hs hsettings himage hload
    rw [hrun]
    exact congrArg (fun r => Except.ok (logOf a.image image.size a.loadAddress r))
      (hslices slice hs).2

/-- `ADD R1, R1, #1` and a move of a status without a mode, on a machine that halts on it:
    the second instruction leaves the fault, in slices of any length. -/
theorem run_ends_alike_of_fault :
    let settings := { Settings.standard with
      machine := { Config.standard with haltOnInvalidMode := true } }
    let image : ByteArray := ⟨#[0x01, 0x10, 0x81, 0xE2, 0x05, 0xF0, 0x21, 0xE3]⟩
    let memory := { MappedMemory.zero .zero with
      cartridge := overwrite (extendTo 8 .empty) 0 image }
    let m := launch memory settings 0x08000000
    (MappedMemory.zero settings.waitControl).load 0x08000000 image = .ok memory
      ∧ HaltsOnFault 1000 m ∧ CounterFits 1000 m ∧ (m.after 2).host.diagnostic = some ⟨0x15⟩
      ∧ (runSlices 1000 1 1000 m).1 = some ⟨0x15⟩
      ∧ ∃ last, ∀ slice : Int32, 0 < slice →
        runSlices 1000 slice 1000 m = (m.after last).takeDiagnostic := by
  intro settings image memory m
  have hload : (MappedMemory.zero settings.waitControl).load 0x08000000 image = .ok memory := rfl
  have hfault : HaltsOnFault 1000 m := .inl rfl
  have hfits : CounterFits 1000 m := counterFits_of_le (fresh_launch hload).tame (by decide)
  obtain ⟨last, hslices, -⟩ := run_ends_alike hload hfault hfits
  have hend (slice : Int32) (hs : 0 < slice) := (hslices slice hs).2
  exact ⟨hload, hfault, hfits, by decide +kernel, by decide +kernel, last, hend⟩

end Runner

end Armv4t
