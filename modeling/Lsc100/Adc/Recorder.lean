import Mathlib.Data.List.Induction
import Lsc100.Basis.Machine
import Lsc100.Adc.Scan

/-! Runs of the sample store: writes of whole seconds and restarts, in any
order. The log of a run is a function of the run, and the store represents it. -/

namespace Lsc100

inductive AdcEvent
  | write (r : SecondRecord)
  | reboot

/-- All card operations and locks succeed. A reboot initialises the object from
the configuration, which the last index flush has set. -/
def adcRecorder (start : AdcStore) : Machine AdcStore AdcEvent where
  start := start
  step s
    | .write r => (storageWriteAdcData .ok s r.ts r.data 125 true).1
    | .reboot => { s with adc := adcObjectInit s.config }

def adcLog : Machine AdcLog AdcEvent where
  start := .empty
  step l
    | .write r => l.write r
    | .reboot => l.reboot

/-- The store at its first boot, with the card `e`. -/
def AdcStore.boot (e : Emmc) (c : ConfigInfo) : AdcStore := ⟨adcObjectInit c, e, c, false⟩

/-- A configuration under which nothing has been stored yet. -/
def ConfigInfo.Fresh (c : ConfigInfo) : Prop :=
  c.flag = devFlagFirstOn ∨ c.flag = devFlagNextOn ∧ c.blockNum = 0 ∧ c.currBlock = 0

theorem ConfigInfo.fresh_firstOn : ConfigInfo.firstOn.Fresh := .inl rfl

theorem ConfigInfo.fresh_nextOn : ConfigInfo.nextOn.Fresh := .inr ⟨rfl, rfl, rfl⟩

/-- Nothing has ever been stored behind the index area. -/
def Erased (e : Emmc) : Prop :=
  ∀ b, adcIndexStartBlock + adcIndexBlockNum ≤ b → e b = zeroBlock

def writes (es : List AdcEvent) : List SecondRecord :=
  es.filterMap fun
    | .write r => some r
    | .reboot => none

@[simp] theorem writes_append (es fs : List AdcEvent) : writes (es ++ fs) = writes es ++ writes fs :=
  List.filterMap_append

@[simp] theorem writes_map_write (rs : List SecondRecord) : writes (rs.map .write) = rs := by
  simp [writes, List.filterMap_map]

theorem diskKey_erased {e : Emmc} (he : Erased e) {i : Nat} (hi : 480000 ≤ i) :
    diskKey e i = 0 := by
  have hb : adcIndexStartBlock + adcIndexBlockNum ≤ adcIndexStartBlock + i / 64 := by
    rw [adcIndexBlockNum_eq]
    omega
  rw [diskKey, diskItem, he _ hb]
  simp [Block.item, AdcIndexItem.ofBytes, zeroBlock]

theorem represents_run {e : Emmc} {c : ConfigInfo} (hflag : c.flag = devFlagNextOn)
    (hc : c.Fresh) (es : List AdcEvent) :
    Represents e ((adcRecorder (.boot e c)).run es) (adcLog.run es) ∧
      Persisted ((adcRecorder (.boot e c)).run es).config (adcLog.run es) := by
  induction es using List.reverseRecOn with
  | nil =>
    refine ⟨Represents.init e hc false, hflag, ?_, ?_⟩
    all_goals
      rcases hc with hfirst | ⟨-, hblock, hcurr⟩
      · exact absurd (hflag.symm.trans hfirst) (by decide)
    · exact (congrArg UInt16.toNat hblock).trans rfl
    · exact (congrArg UInt16.toNat hcurr).trans rfl
  | append_singleton es ev ih =>
    obtain ⟨hrep, hpers⟩ := ih
    rw [Machine.run_concat, Machine.run_concat]
    cases ev with
    | write r => exact ⟨hrep.write r.ts r.data, hrep.write_persisted hpers r.ts r.data⟩
    | reboot => exact ⟨hrep.reboot hpers, hpers.flag, hpers.blockNum, hpers.currBlock⟩

theorem represents_run_writes {e : Emmc} {c : ConfigInfo} (hc : c.Fresh)
    (rs : List SecondRecord) :
    Represents e ((adcRecorder (.boot e c)).run (rs.map .write)) (adcLog.run (rs.map .write)) := by
  induction rs using List.reverseRecOn with
  | nil => exact Represents.init e hc false
  | append_singleton rs r ih =>
    rw [List.map_append, List.map_singleton, Machine.run_concat, Machine.run_concat]
    exact ih.write r.ts r.data

/-- What the positions of a log hold, for a run whose writes are `rs`. -/
structure LogOf (rs : List SecondRecord) (l : AdcLog) : Prop where
  mem : ∀ m < 64 * l.flushed + l.torn, l.slot m ∈ rs
  ordered : l.Ordered
  torn_newer : ∀ i < 64 * l.flushed, ∀ j, 64 * l.flushed ≤ j → j < 64 * l.flushed + l.torn →
    (l.slot i).ts < (l.slot j).ts

namespace LogOf

variable {rs : List SecondRecord} {l : AdcLog}

theorem empty : LogOf [] .empty := by
  constructor
  all_goals simp [AdcLog.empty, AdcLog.Ordered, AdcLog.length]

theorem reboot (h : LogOf rs l) : LogOf rs l.reboot := by
  refine ⟨h.mem, fun i j hij hj => ?_, h.torn_newer⟩
  exact h.ordered i j hij (Nat.lt_of_lt_of_le hj (by simp [AdcLog.length, AdcLog.reboot]))

theorem write (h : LogOf rs l) {r : SecondRecord} (hr : ∀ r' ∈ rs, r'.ts < r.ts) :
    LogOf (rs ++ [r]) (l.write r) := by
  have hle := l.fresh_le_torn
  have hlt := l.torn_lt
  have hslot := l.write_slot r
  have hold : ∀ m, m ≠ l.length → (l.write r).slot m = l.slot m :=
    fun m hne => by rw [hslot, Function.update_of_ne hne]
  have hnew : (l.write r).slot l.length = r := by rw [hslot, Function.update_self]
  have hlen : l.length = 64 * l.flushed + l.fresh := rfl
  constructor
  · intro m hm
    rw [List.mem_append, List.mem_singleton]
    by_cases he : m = l.length
    · exact .inr (he ▸ hnew)
    · have hm' : m < 64 * l.flushed + l.torn := by
        rcases Nat.lt_or_eq_of_le (Nat.succ_le_of_lt (Nat.lt_of_le_of_lt hle hlt)) with hr | hr
        · obtain ⟨hflushed, -, htorn⟩ := AdcLog.write_room r hr
          omega
        · obtain ⟨hflushed, -, htorn⟩ := AdcLog.write_full r hr
          omega
      exact .inl (hold m he ▸ h.mem m hm')
  · have hlater : ∀ m < l.length, (l.slot m).ts < r.ts := fun m hm => hr _ (h.mem m (by omega))
    exact AdcLog.write_pairs (R := fun r r' => r.ts < r'.ts) h.ordered hlater
  · intro i hi j hj hj'
    rcases Nat.lt_or_eq_of_le (Nat.succ_le_of_lt (Nat.lt_of_le_of_lt hle hlt)) with hroom | hfull
    · obtain ⟨hflushed, -, htorn⟩ := AdcLog.write_room r hroom
      rw [hflushed] at hi hj hj'
      rw [htorn] at hj'
      rw [hold i (by omega)]
      by_cases he : j = l.length
      · rw [he, hnew]
        exact hr _ (h.mem i (by omega))
      · rw [hold j he]
        exact h.torn_newer i hi j hj (by omega)
    · obtain ⟨hflushed, -, htorn⟩ := AdcLog.write_full r hfull
      omega

end LogOf

theorem logOf_run {es : List AdcEvent} (hmono : (writes es).Pairwise (·.ts < ·.ts)) :
    LogOf (writes es) (adcLog.run es) := by
  induction es using List.reverseRecOn with
  | nil => exact .empty
  | append_singleton es ev ih =>
    rw [writes_append, List.pairwise_append] at hmono
    rw [writes_append, Machine.run_concat]
    cases ev with
    | write r => exact (ih hmono.1).write fun r' hr' => hmono.2.2 r' hr' r (by simp [writes])
    | reboot =>
      rw [show writes [.reboot] = [] from rfl, List.append_nil]
      exact (ih hmono.1).reboot

theorem adcLog_writes (rs : List SecondRecord) :
    (adcLog.run (rs.map .write)).length = rs.length ∧
      (adcLog.run (rs.map .write)).torn = (adcLog.run (rs.map .write)).fresh ∧
      ∀ k (hk : k < rs.length), (adcLog.run (rs.map .write)).slot k = rs[k] := by
  induction rs using List.reverseRecOn with
  | nil => exact ⟨rfl, rfl, fun k hk => absurd hk (Nat.not_lt_zero k)⟩
  | append_singleton rs r ih =>
    obtain ⟨hlength, htorn, hslot⟩ := ih
    rw [List.map_append, List.map_singleton, Machine.run_concat]
    generalize adcLog.run (rs.map .write) = l at hlength htorn hslot ⊢
    change (l.write r).length = _ ∧ (l.write r).torn = (l.write r).fresh ∧
      ∀ k (hk : k < (rs ++ [r]).length), (l.write r).slot k = (rs ++ [r])[k]
    refine ⟨by rw [l.write_length, hlength, List.length_append, List.length_singleton], ?_, ?_⟩
    · rcases Nat.lt_or_eq_of_le (Nat.succ_le_of_lt (htorn ▸ l.torn_lt)) with hroom | hfull
      · obtain ⟨-, hfresh, htorn'⟩ := AdcLog.write_room r hroom
        omega
      · obtain ⟨-, hfresh, htorn'⟩ := AdcLog.write_full r hfull
        omega
    · intro k hk
      rw [l.write_slot, hlength]
      rw [List.length_append, List.length_singleton] at hk
      rcases Nat.lt_or_eq_of_le (Nat.le_of_lt_succ hk) with hlt | rfl
      · rw [Function.update_of_ne (by omega), hslot k hlt, List.getElem_append_left hlt]
      · simp

end Lsc100
