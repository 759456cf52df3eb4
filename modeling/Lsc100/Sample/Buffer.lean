import Mathlib.Data.List.Find
import Lsc100.Sample.Steady

/-! Where `storage_task` reads and writes in `g_adc_items`. A batch is stored past the
end exactly if a second has ended before the last sample of a batch and none of the ten
batches after that one ends another. -/

namespace Lsc100

open Overlay

/-- The bytes a scan of a batch touches, as ranges of a start and a length: the sample
looked at, the record handed to the store, and both sides of the copy. -/
def scanAccesses (items : Nat → AdcItem) : Nat → Nat → List (Nat × Nat)
  | 0, _ => []
  | n + 1, index =>
    (index, itemSize) ::
      if (items (index / itemSize)).ts.toNat % 1000 = 999 ∧ itemSize < index then
        (0, 1000 * itemSize) ::
          if n ≠ 0 then [(index, n * itemSize), (0, n * itemSize)] else []
      else scanAccesses items n (if adcItemsSize ≤ index + itemSize then 0 else index + itemSize)

/-- The bytes a turn touches, the destination it passes to `Adc_Cache_Read_Batch` first. -/
def turnAccesses (countLock readLock : Bool) (cache : AdcItemCache) (task : StorageTask) :
    List (Nat × Nat) :=
  if 100 ≤ adcCacheGetCount countLock cache then
    let batch := adcCacheReadBatch readLock cache task.items (task.index / itemSize) 100
    (task.index, 100 * itemSize) :: scanAccesses batch.2.1 batch.2.2 task.index
  else []

/-- A turn stays in the buffer. -/
def TurnInside (s : SampleFlow) : SampleEvent → Prop
  | .write .. => True
  | .turn countLock readLock =>
    ∀ a ∈ turnAccesses countLock readLock s.cache s.task, a.1 + a.2 ≤ adcItemsSize

/-- The sample of batch `b` that is taken to end a second when `k` samples are in the
buffer before: not one in the first two slots. -/
def endInBatch (stream : List AdcItem) (k b : Nat) : Option Nat :=
  (List.range 100).find? fun i =>
    decide ((stream.getD (100 * b + i) default).ts.toNat % 1000 = 999 ∧ 1 < k + i)

def slotBefore (stream : List AdcItem) : Nat → Nat
  | 0 => 0
  | b + 1 =>
    match endInBatch stream (slotBefore stream b) b with
    | some i => 99 - i
    | none => if slotBefore stream b + 100 = 1100 then 0 else slotBefore stream b + 100

/-- The sample of batch `b` that ends a second. -/
def secondEnd (stream : List AdcItem) (b : Nat) : Option Nat :=
  endInBatch stream (slotBefore stream b) b

/-- The last second ended eleven batches before `b`, and not with the end of a batch. -/
def Overdue (stream : List AdcItem) (b : Nat) : Prop :=
  ∃ c i, b = c + 11 ∧ secondEnd stream c = some i ∧ i < 99 ∧
    ∀ j < 10, secondEnd stream (c + 1 + j) = none

/-- A batch that the task asks for is not overdue. -/
def Timely (s : SampleFlow) : SampleEvent → Prop
  | .write .. => True
  | .turn countLock _ => countLock = true → s.consumed + 100 ≤ s.delivered.length →
      ¬ Overdue s.delivered (s.consumed / 100)

theorem scanAccesses_inside (items : Nat → AdcItem) {n k : Nat} (hk : k < 1100)
    (hn : k + n ≤ 1100) :
    ∀ a ∈ scanAccesses items n (64 * k), a.1 + a.2 ≤ adcItemsSize := by
  induction n generalizing k with
  | zero => exact fun a ha => absurd ha List.not_mem_nil
  | succ n ih =>
    have hsize : adcItemsSize = 70400 := rfl
    have hitem : itemSize = 64 := rfl
    intro a ha
    rw [scanAccesses] at ha
    rcases List.mem_cons.mp ha with rfl | ha
    · simp only
      omega
    · split at ha
      · rcases List.mem_cons.mp ha with rfl | ha
        · simp only
          omega
        · split at ha
          · simp only [List.mem_cons, List.not_mem_nil, or_false] at ha
            rcases ha with rfl | rfl <;> simp only [itemSize_eq, adcItemsSize_eq] <;> omega
          · exact absurd ha List.not_mem_nil
      · by_cases hfull : k + 1 = 1100
        · rw [if_pos (by omega), show n = 0 by omega, scanAccesses] at ha
          exact absurd ha List.not_mem_nil
        · rw [if_neg (by omega), show 64 * k + itemSize = 64 * (k + 1) by omega] at ha
          exact ih (by omega) (by omega) a ha

/-- A turn stays inside exactly if the slot it begins at leaves room for a batch. -/
theorem turnAccesses_inside_iff {cache : AdcItemCache} {q : List AdcItem} {task : StorageTask}
    {k : Nat} (hq : cache.Holds q) (hk : k < 1100) (hindex : task.index = 64 * k)
    (countLock readLock : Bool) :
    (∀ a ∈ turnAccesses countLock readLock cache task, a.1 + a.2 ≤ adcItemsSize) ↔
      (countLock = true → 100 ≤ q.length → k ≤ 1000) := by
  have hsize : adcItemsSize = 70400 := rfl
  have hitem : itemSize = 64 := rfl
  have hget : 100 ≤ adcCacheGetCount countLock cache ↔ countLock = true ∧ 100 ≤ q.length := by
    rw [adcCacheGetCount, hq.count]
    cases countLock <;> simp
  rw [turnAccesses]
  by_cases hcount : 100 ≤ adcCacheGetCount countLock cache
  · obtain ⟨hlock, hlen⟩ := hget.mp hcount
    rw [if_pos hcount, List.forall_mem_cons]
    simp only [hlock, hlen, true_imp_iff, hindex]
    constructor
    · intro h
      have hfirst := h.1
      omega
    · intro hroom
      refine ⟨by omega, ?_⟩
      have hread :
          (adcCacheReadBatch readLock cache task.items (64 * k / itemSize) 100).2.2 ≤ 100 := by
        rw [adcCacheReadBatch]
        split
        · simp only
          split <;> omega
        · exact Nat.zero_le _
      exact scanAccesses_inside _ hk (by omega)
  · rw [if_neg hcount]
    refine ⟨fun _ hlock hlen => absurd (hget.mpr ⟨hlock, hlen⟩) hcount,
      fun _ a ha => absurd ha List.not_mem_nil⟩

section Stream

variable {stream more : List AdcItem} {b c i : Nat}

theorem endInBatch_append (h : 100 * (b + 1) ≤ stream.length) (k : Nat) :
    endInBatch (stream ++ more) k b = endInBatch stream k b := by
  refine List.find?_congr fun i hi => ?_
  have hlt := List.mem_range.mp hi
  rw [List.getD_eq_getElem?_getD, List.getD_eq_getElem?_getD, List.getElem?_append_left (by omega)]

theorem slotBefore_append (h : 100 * b ≤ stream.length) :
    slotBefore (stream ++ more) b = slotBefore stream b := by
  induction b with
  | zero => rfl
  | succ b ih =>
    rw [slotBefore, slotBefore, ih (by omega), endInBatch_append h]

theorem slotBefore_lt (h : slotBefore stream b ≤ 1000) : slotBefore stream (b + 1) < 1100 := by
  rw [slotBefore]
  split
  · omega
  · split <;> omega

theorem slotBefore_fill (hend : secondEnd stream c = some i) (hi : i < 99) {m : Nat} (hm : m ≤ 10)
    (hnone : ∀ j < m, secondEnd stream (c + 1 + j) = none) :
    slotBefore stream (c + 1 + m) = 99 - i + 100 * m := by
  induction m with
  | zero =>
    rw [Nat.add_zero, slotBefore, ← secondEnd, hend]
    rfl
  | succ m ih =>
    have hprev := ih (by omega) fun j hj => hnone j (by omega)
    rw [← Nat.add_assoc, slotBefore, ← secondEnd, hnone m (by omega), hprev]
    simp only
    rw [if_neg (by omega)]
    omega

/-- The slots are whole batches, or have been filled since the end of a second. -/
theorem slotBefore_cases (h : ∀ c < b, slotBefore stream c ≤ 1000) :
    (100 ∣ slotBefore stream b ∧ slotBefore stream b ≤ 1000) ∨
      ∃ c i m, b = c + 1 + m ∧ m ≤ 10 ∧ secondEnd stream c = some i ∧ i < 99 ∧
        ∀ j < m, secondEnd stream (c + 1 + j) = none := by
  induction b with
  | zero => exact .inl ⟨Nat.dvd_zero _, Nat.zero_le _⟩
  | succ b ih =>
    have hle := h b (Nat.lt_succ_self b)
    cases hend : secondEnd stream b with
    | some i =>
      have hslot : slotBefore stream (b + 1) = 99 - i := by
        rw [slotBefore, ← secondEnd, hend]
      by_cases hi : i < 99
      · exact .inr ⟨b, i, 0, rfl, Nat.zero_le _, hend, hi,
          fun j hj => absurd hj (Nat.not_lt_zero j)⟩
      · refine .inl ?_
        rw [hslot, Nat.sub_eq_zero_of_le (Nat.le_of_not_lt hi)]
        exact ⟨Nat.dvd_zero _, Nat.zero_le _⟩
    | none =>
      have hslot : slotBefore stream (b + 1) =
          if slotBefore stream b + 100 = 1100 then 0 else slotBefore stream b + 100 := by
        rw [slotBefore, ← secondEnd, hend]
      rcases ih fun c hc => h c (by omega) with ⟨hdvd, -⟩ | ⟨c, i, m, rfl, hm, hstart, hi, hnone⟩
      · refine .inl ?_
        rw [hslot]
        split <;> omega
      · have hfill := slotBefore_fill hstart hi hm hnone
        refine .inr ⟨c, i, m + 1, rfl, by omega, hstart, hi, fun j hj => ?_⟩
        rcases Nat.lt_or_eq_of_le (Nat.le_of_lt_succ hj) with hlt | rfl
        · exact hnone j hlt
        · exact hend

theorem overdue_iff (h : ∀ c < b, slotBefore stream c ≤ 1000) :
    Overdue stream b ↔ 1000 < slotBefore stream b := by
  constructor
  · rintro ⟨c, i, rfl, hend, hi, hnone⟩
    have hfill := slotBefore_fill hend hi (Nat.le_refl 10) hnone
    rw [show c + 11 = c + 1 + 10 from rfl, hfill]
    omega
  · intro hlarge
    rcases slotBefore_cases h with ⟨-, hle⟩ | ⟨c, i, m, rfl, hm, hend, hi, hnone⟩
    · omega
    · have hfill := slotBefore_fill hend hi hm hnone
      obtain rfl : m = 10 := by omega
      exact ⟨c, i, rfl, hend, hi, hnone⟩

end Stream

/-- The task is at the slot the stream it has taken leads to. -/
structure Tracked (s : SampleFlow) : Prop where
  flow : Flowing s
  running : s.overrun = false
  index : s.task.index = 64 * slotBefore s.delivered (s.consumed / 100)
  room : ∀ c < s.consumed / 100, slotBefore s.delivered c ≤ 1000

namespace Tracked

variable {s : SampleFlow}

theorem start : Tracked sampleFlow.start :=
  ⟨.start, rfl, rfl, fun c hc => absurd hc (Nat.not_lt_zero c)⟩

theorem slot_lt (h : Tracked s) : slotBefore s.delivered (s.consumed / 100) < 1100 := by
  obtain ⟨b, hb⟩ : ∃ b, b = s.consumed / 100 := ⟨_, rfl⟩
  rw [← hb]
  cases b with
  | zero => exact Nat.zero_lt_succ _
  | succ b => exact slotBefore_lt (h.room b (by omega))

theorem turnInside_iff (h : Tracked s) (e : SampleEvent) : TurnInside s e ↔ Timely s e := by
  cases e with
  | write lock item => exact Iff.rfl
  | turn countLock readLock =>
    rw [TurnInside, turnAccesses_inside_iff h.flow.holds h.slot_lt h.index, Timely,
      List.length_drop]
    have hoverdue := overdue_iff h.room
    refine ⟨fun hin hlock hlen => ?_, fun htimely hlock hlen => ?_⟩
    · have hle := hin hlock (by omega)
      rw [hoverdue]
      omega
    · have hnot := htimely hlock (by omega)
      rw [hoverdue] at hnot
      omega

theorem write (h : Tracked s) (lock : Bool) (item : AdcItem) : Tracked (s.write lock item) := by
  obtain ⟨hflow, more, hmore⟩ := h.flow.write lock item
  have hle := h.flow.consumed_le
  have hslot : ∀ c, c ≤ s.consumed / 100 →
      slotBefore (s.write lock item).delivered c = slotBefore s.delivered c := fun c hc => by
    rw [← hmore]
    exact slotBefore_append (by omega)
  refine ⟨hflow, h.running, ?_, fun c hc => ?_⟩
  · rw [show (s.write lock item).consumed = s.consumed from rfl, hslot _ (Nat.le_refl _)]
    exact h.index
  · rw [hslot c (Nat.le_of_lt hc)]
    exact h.room c hc

theorem turn_unlocked (h : Tracked s) (readLock : Bool) : s.turn false readLock = s := by
  have hrun : ¬ s.overrun = true := by simp [h.running]
  have hidle : storageTaskTurn false readLock s.cache s.task = (s.cache, some (s.task, none)) := rfl
  rw [SampleFlow.turn, if_neg hrun]
  simp only [hidle, Nat.sub_self, Nat.add_zero, Option.toList_none, List.append_nil]

/-- What the scan of the batch sees is the end the stream has there. -/
theorem endsSecond_iff (h : Tracked s) {cache : AdcItemCache} {items : Nat → AdcItem} {k j : Nat}
    (b : Batch s k cache items) (hj : j < 100) :
    EndsSecond items (k + j) ↔
      (s.delivered.getD (100 * (s.consumed / 100) + j) default).ts.toNat % 1000 = 999 ∧
        1 < k + j := by
  have haligned := h.flow.aligned
  have hpos : 100 * (s.consumed / 100) + j = s.consumed + j := by omega
  rw [EndsSecond, hpos, List.getD_eq_getElem?_getD, b.new j hj, Option.getD_some]

theorem taken (h : Tracked s) {cache : AdcItemCache} {items : Nat → AdcItem}
    (b : Batch s (slotBefore s.delivered (s.consumed / 100)) cache items)
    (hroom : slotBefore s.delivered (s.consumed / 100) ≤ 1000) {task : StorageTask}
    {handed : List HandedRecord}
    (hindex : task.index = 64 * slotBefore s.delivered (s.consumed / 100 + 1)) :
    Tracked (s.taken cache s.overrun task handed) := by
  have hnext : (s.consumed + 100) / 100 = s.consumed / 100 + 1 := by omega
  have hslot := slotBefore_lt hroom
  refine ⟨h.flow.taken b fun _ => ⟨_, hslot, hindex⟩, h.running, ?_, fun c hc => ?_⟩
  · rw [SampleFlow.taken, hnext]
    exact hindex
  · have hc' : c < s.consumed / 100 + 1 := hnext ▸ hc
    rcases Nat.lt_or_eq_of_le (Nat.le_of_lt_succ hc') with hlt | rfl
    · exact h.room c hlt
    · exact hroom

theorem turn (h : Tracked s) {countLock readLock : Bool}
    (hin : TurnInside s (.turn countLock readLock)) : Tracked (s.turn countLock readLock) := by
  cases countLock with
  | false => exact (h.turn_unlocked readLock).symm ▸ h
  | true =>
    rw [TurnInside, turnAccesses_inside_iff h.flow.holds h.slot_lt h.index, List.length_drop] at hin
    have hspec := h.flow.turn_spec h.running h.slot_lt h.index true readLock
    generalize s.turn true readLock = s' at hspec
    cases hspec with
    | idle => exact h
    | past b hk =>
      have hlen := b.len
      have hle := hin rfl (by omega)
      omega
    | filled b hk hnone =>
      have hend : secondEnd s.delivered (s.consumed / 100) = none := by
        refine List.find?_eq_none.mpr fun j hj => ?_
        rw [decide_eq_true_iff, ← h.endsSecond_iff b (List.mem_range.mp hj)]
        exact hnone j (List.mem_range.mp hj)
      refine h.taken b hk ?_
      rw [slotBefore, ← secondEnd, hend]
      simp only
      split <;> rfl
    | ended b hk hj hends hfirst =>
      rename_i j
      have hend : secondEnd s.delivered (s.consumed / 100) = some j := by
        rw [secondEnd, endInBatch, List.find?_range_eq_some]
        refine ⟨decide_eq_true ((h.endsSecond_iff b hj).mp hends), List.mem_range.mpr hj,
          fun i hi => ?_⟩
        rw [Bool.not_eq_true', decide_eq_false_iff_not, ← h.endsSecond_iff b (by omega)]
        exact hfirst i hi
      refine h.taken b hk ?_
      rw [slotBefore, ← secondEnd, hend]

theorem step (h : Tracked s) {e : SampleEvent} (hin : TurnInside s e) :
    Tracked (sampleFlow.step s e) := by
  cases e with
  | write lock item => exact h.write lock item
  | turn countLock readLock => exact h.turn hin

theorem guarded_iff (h : Tracked s) (es : List SampleEvent) :
    sampleFlow.Guarded TurnInside s es ↔ sampleFlow.Guarded Timely s es := by
  induction es generalizing s with
  | nil => exact Iff.rfl
  | cons e es ih =>
    rw [Machine.Guarded, Machine.Guarded, h.turnInside_iff]
    refine and_congr_right fun htimely => ih (h.step ?_)
    exact (h.turnInside_iff e).mpr htimely

end Tracked

/-- In every run, all that the task reads and writes lies in `g_adc_items` exactly if no
batch it asks for is overdue. -/
theorem storageTask_inside_iff (es : List SampleEvent) :
    sampleFlow.Guarded TurnInside sampleFlow.start es ↔
      sampleFlow.Guarded Timely sampleFlow.start es :=
  Tracked.start.guarded_iff es

/-- The samples of `f`, a batch of them before every turn. -/
def batchRun (f : Nat → AdcItem) : Nat → List SampleEvent
  | 0 => []
  | b + 1 => batchRun f b ++ ((List.range 100).map fun i => f (100 * b + i)).map (.write true) ++
      [.turn true true]

section BatchRun

variable {f : Nat → AdcItem} {s : SampleFlow} {b : Nat}

/-- The state in which the task has just taken batch `b`. -/
structure AfterBatches (f : Nat → AdcItem) (b : Nat) (s : SampleFlow) : Prop where
  tracked : Tracked s
  delivered : s.delivered = (List.range (100 * b)).map f
  consumed : s.consumed = 100 * b

theorem AfterBatches.writes (h : AfterBatches f b s) :
    let s' := sampleFlow.runFrom s
      (((List.range 100).map fun i => f (100 * b + i)).map (.write true))
    Tracked s' ∧ s'.delivered = (List.range (100 * (b + 1))).map f ∧ s'.consumed = 100 * b := by
  obtain ⟨htracked, hdel, hcons⟩ := h
  have hlen : s.delivered.length = 100 * b := by rw [hdel, List.length_map, List.length_range]
  obtain ⟨s', hs', -, hdel', hcons', -⟩ := runFrom_writes htracked.flow
    ((List.range 100).map fun i => f (100 * b + i)) (by
      rw [hlen, hcons, List.length_map, List.length_range]
      omega)
  rw [hs']
  refine ⟨?_, ?_, hcons'.trans hcons⟩
  · rw [← hs']
    have hstep : ∀ s e, Tracked s → TurnInside s e → Tracked (sampleFlow.step s e) :=
      fun _ _ h hin => h.step hin
    refine sampleFlow.invariant_runFrom hstep htracked (sampleFlow.guarded_of_forall ?_ s)
    intro s e he
    obtain ⟨item, -, rfl⟩ := List.mem_map.mp he
    trivial
  · rw [hdel', hdel, Nat.mul_succ, List.range_add, List.map_append, List.map_map]
    rfl

theorem afterBatches_run (h : sampleFlow.Guarded TurnInside sampleFlow.start (batchRun f b)) :
    AfterBatches f b (sampleFlow.run (batchRun f b)) := by
  induction b with
  | zero => exact ⟨.start, rfl, rfl⟩
  | succ b ih =>
    rw [batchRun, Machine.guarded_append, Machine.guarded_append] at h
    obtain ⟨⟨hbefore, -⟩, hturn, -⟩ := h
    obtain ⟨htracked, hdel, hcons⟩ := (ih hbefore).writes
    rw [Machine.runFrom_append] at hturn
    rw [batchRun, Machine.run_concat, Machine.run_append]
    refine ⟨htracked.step hturn, ?_, ?_⟩
    · exact (htracked.flow.turn true true).2.trans hdel
    · refine (htracked.flow.turn_consumed htracked.running ?_).trans ?_
      · rw [hcons, hdel, List.length_map, List.length_range, Nat.mul_succ]
      · rw [hcons, Nat.mul_succ]

end BatchRun

/-- Sampling begins 950 ms into a second, and the sample 1999 is missing. -/
def gapSample (i : Nat) : AdcItem := sampleAt (if i < 1049 then 950 + i else 951 + i)

theorem gapSample_overdue : Overdue ((List.range 1200).map gapSample) 11 := by
  have hts (i : Nat) (hi : i < 1200) :
      (((List.range 1200).map gapSample).getD i default).ts.toNat =
        if i < 1049 then 950 + i else 951 + i := by
    rw [List.getD_eq_getElem?_getD, List.getElem?_map, List.getElem?_range hi, Option.map_some,
      Option.getD_some, gapSample]
    exact sampleAt_ts (by split <;> omega)
  refine ⟨0, 49, rfl, ?_, by decide, fun j hj => ?_⟩
  · rw [secondEnd, endInBatch, List.find?_range_eq_some]
    refine ⟨?_, by decide, fun i hi => ?_⟩
    · rw [decide_eq_true_iff, hts _ (by decide)]
      exact ⟨rfl, by decide⟩
    · rw [Bool.not_eq_true', decide_eq_false_iff_not, hts _ (by omega), if_pos (by omega)]
      omega
  · refine List.find?_range_eq_none.mpr fun i hi => ?_
    rw [Bool.not_eq_true', decide_eq_false_iff_not, hts _ (by omega)]
    split <;> omega

/-- The batch that begins with the sample 2051 is stored behind the end of the buffer. -/
theorem storageTask_outside :
    ¬ sampleFlow.Guarded TurnInside sampleFlow.start (batchRun gapSample 12) := by
  intro h
  rw [batchRun, Machine.guarded_append, Machine.guarded_append] at h
  obtain ⟨⟨hbefore, -⟩, hturn, -⟩ := h
  rw [Machine.runFrom_append] at hturn
  obtain ⟨htracked, hdel, hcons⟩ := (afterBatches_run hbefore).writes
  have htimely := (htracked.turnInside_iff _).mp hturn
  rw [Timely, hcons, hdel, List.length_map, List.length_range] at htimely
  exact htimely rfl (by decide) gapSample_overdue

end Lsc100
