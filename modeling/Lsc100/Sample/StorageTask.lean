import Lsc100.Basis.Machine
import Lsc100.Sample.Cache

/-! The loop of `storage_task`: batches of 100 samples are laid down behind the
remainder of the last one, and the sample that ends a second hands the first
1000 of them to the sample store. Positions in `g_adc_items` are byte offsets,
as in the source. -/

namespace Lsc100

open Overlay

/-- `ADC_ITEM_SIZE` as the storage task uses it, in bytes. -/
def itemSize : Nat := 64

def adcItemsSize : Nat := (1000 + 100) * itemSize

@[simp] theorem itemSize_eq : itemSize = 64 := rfl
@[simp] theorem adcItemsSize_eq : adcItemsSize = 70400 := rfl

structure StorageTask where
  items : Nat → AdcItem
  index : Nat

/-- A call `Storage_Write_AdcData(&g_AdcObject, ts, &g_adc_items[0], 125, 1)`. -/
structure HandedRecord where
  ts : UInt32
  items : Nat → AdcItem

/-- The loop over a batch, `n` samples of it being left. -/
def scanBatch (items : Nat → AdcItem) : Nat → Nat → StorageTask × Option HandedRecord
  | 0, index => (⟨items, index⟩, none)
  | n + 1, index =>
    let pItem := items (index / itemSize)
    if pItem.ts.toNat % 1000 = 999 ∧ itemSize < index then
      -- the copy starts at the sample that ended the second, not behind it
      (⟨if n ≠ 0 then overlay (fun _ x => x) items 0 n (fun j => items (index / itemSize + j))
          else items, n * itemSize⟩,
        some ⟨UInt32.ofNat (pItem.ts.toNat / 1000), items⟩)
    else
      scanBatch items n (if adcItemsSize ≤ index + itemSize then 0 else index + itemSize)

/-- One turn of the task. Without a task in the result, the batch was stored
past the end of `g_adc_items`. -/
def storageTaskTurn (countLock readLock : Bool) (cache : AdcItemCache) (task : StorageTask) :
    AdcItemCache × Option (StorageTask × Option HandedRecord) :=
  if 100 ≤ adcCacheGetCount countLock cache then
    let batch := adcCacheReadBatch readLock cache task.items (task.index / itemSize) 100
    if adcItemsSize < task.index + batch.2.2 * itemSize then (batch.1, none)
    else (batch.1, some (scanBatch batch.2.1 batch.2.2 task.index))
  else (cache, some (task, none))

/-- The sample in slot `k` ends a second and hands it over. -/
def EndsSecond (items : Nat → AdcItem) (k : Nat) : Prop :=
  (items k).ts.toNat % 1000 = 999 ∧ 1 < k

theorem scanBatch_cases (items : Nat → AdcItem) (n : Nat) {k : Nat} (hk : k < 1100)
    (hn : k + n ≤ 1100) :
    ((∀ j < n, ¬ EndsSecond items (k + j)) ∧ scanBatch items n (64 * k) =
      (⟨items, if k + n = 1100 then 0 else 64 * (k + n)⟩, none)) ∨
    ∃ j < n, EndsSecond items (k + j) ∧ (∀ i < j, ¬ EndsSecond items (k + i)) ∧
      scanBatch items n (64 * k) =
        (⟨overlay (fun _ x => x) items 0 (n - 1 - j) (fun i => items (k + j + i)),
          64 * (n - 1 - j)⟩, some ⟨UInt32.ofNat ((items (k + j)).ts.toNat / 1000), items⟩) := by
  induction n generalizing k with
  | zero =>
    refine .inl ⟨fun j hj => absurd hj (Nat.not_lt_zero j), ?_⟩
    rw [scanBatch, if_neg (by omega), Nat.add_zero]
  | succ n ih =>
    have hdiv : 64 * k / itemSize = k := by rw [itemSize_eq]; omega
    by_cases hend : EndsSecond items k
    · refine .inr ⟨0, Nat.succ_pos n, hend, fun i hi => absurd hi (Nat.not_lt_zero i), ?_⟩
      have hcond : (items k).ts.toNat % 1000 = 999 ∧ itemSize < 64 * k :=
        ⟨hend.1, by have := hend.2; rw [itemSize_eq]; omega⟩
      rw [scanBatch, hdiv, if_pos hcond]
      by_cases hz : n = 0
      · subst hz
        simp
      · rw [if_pos hz, itemSize_eq, Nat.mul_comm n]
        simp
    · have hcond : ¬ ((items k).ts.toNat % 1000 = 999 ∧ itemSize < 64 * k) := by
        rintro ⟨h₁, h₂⟩
        exact hend ⟨h₁, by rw [itemSize_eq] at h₂; omega⟩
      rw [scanBatch, hdiv, if_neg hcond, itemSize_eq, adcItemsSize_eq]
      by_cases hfull : k + 1 = 1100
      · have hz : n = 0 := by omega
        subst hz
        rw [if_pos (by omega), scanBatch, if_pos (by omega)]
        refine .inl ⟨fun j hj => ?_, rfl⟩
        rwa [show k + j = k by omega]
      · rw [if_neg (by omega), show 64 * k + 64 = 64 * (k + 1) by omega]
        rcases ih (k := k + 1) (by omega) (by omega) with ⟨hnone, heq⟩ | ⟨j, hj, hj', hnone, heq⟩
        · refine .inl ⟨fun j hj => ?_, ?_⟩
          · cases j with
            | zero => exact hend
            | succ j => simpa [Nat.add_assoc, Nat.add_comm 1] using hnone j (by omega)
          · rw [heq, show k + 1 + n = k + (n + 1) by omega]
        · refine .inr ⟨j + 1, by omega, ?_, fun i hi => ?_, ?_⟩
          · simpa [Nat.add_assoc, Nat.add_comm 1] using hj'
          · cases i with
            | zero => exact hend
            | succ i => simpa [Nat.add_assoc, Nat.add_comm 1] using hnone i (by omega)
          · rw [heq, show k + 1 + j = k + (j + 1) by omega,
              show n + 1 - 1 - (j + 1) = n - 1 - j by omega]

/-- A turn does nothing, or takes one batch of 100 samples off the queue. -/
theorem storageTaskTurn_cases {cache : AdcItemCache} {q : List AdcItem} {task : StorageTask}
    {k : Nat} (hq : cache.Holds q) (hk : k < 1100) (hindex : task.index = 64 * k)
    (countLock readLock : Bool) :
    storageTaskTurn countLock readLock cache task = (cache, some (task, none)) ∨
    ∃ cache' items, ∃ hlen : 100 ≤ q.length, cache'.Holds (q.drop 100) ∧
      (∀ i (hi : i < 100), items (k + i) = q[i]) ∧ (∀ i < k, items i = task.items i) ∧
      storageTaskTurn countLock readLock cache task =
        (cache', if 1000 < k then none else some (scanBatch items 100 (64 * k))) := by
  have hdiv : task.index / itemSize = k := by rw [hindex, itemSize_eq]; omega
  cases countLock with
  | false => exact .inl rfl
  | true =>
    cases readLock with
    | false =>
      refine .inl ?_
      have hread : adcCacheReadBatch false cache task.items (task.index / itemSize) 100 =
        (cache, task.items, 0) := rfl
      simp only [storageTaskTurn, hread]
      split
      · rw [if_neg (by rw [hindex, itemSize_eq, adcItemsSize_eq]; omega), scanBatch]
      · rfl
    | true =>
      rw [storageTaskTurn, adcCacheGetCount, if_pos rfl, hq.count]
      by_cases hlen : 100 ≤ q.length
      · obtain ⟨hholds, hread, hin, hout⟩ := hq.readBatch task.items
          (task.index / itemSize) (by decide : 0 < 100) hlen
        rw [hdiv] at hholds hread hin hout
        refine .inr ⟨_, _, hlen, hholds, hin, fun i hi => hout i (.inl hi), ?_⟩
        simp only [if_pos hlen, hdiv, hread]
        rw [hindex, itemSize_eq, adcItemsSize_eq]
        by_cases hover : 1000 < k
        · rw [if_pos (by omega), if_pos hover]
        · rw [if_neg (by omega), if_neg hover]
      · exact .inl (by rw [if_neg hlen])

/-- The sampling task's writes and the storage task's turns, with what has been
delivered, how much of it has been taken, and the records handed over. -/
structure SampleFlow where
  cache : AdcItemCache
  task : StorageTask
  overrun : Bool
  delivered : List AdcItem
  consumed : Nat
  handed : List HandedRecord

inductive SampleEvent
  | write (lock : Bool) (item : AdcItem)
  | turn (countLock readLock : Bool)

namespace SampleFlow

def write (s : SampleFlow) (lock : Bool) (item : AdcItem) : SampleFlow :=
  { s with
    cache := (adcCacheWriteOne lock s.cache item).1
    delivered := if (adcCacheWriteOne lock s.cache item).2 = 0 then s.delivered ++ [item]
      else s.delivered }

def turn (s : SampleFlow) (countLock readLock : Bool) : SampleFlow :=
  if s.overrun then s
  else
    let result := storageTaskTurn countLock readLock s.cache s.task
    let s := { s with cache := result.1, consumed := s.consumed + (s.cache.count - result.1.count) }
    match result.2 with
    | none => { s with overrun := true }
    | some (task, record) => { s with task := task, handed := s.handed ++ record.toList }

end SampleFlow

def sampleFlow : Machine SampleFlow SampleEvent where
  start := ⟨⟨fun _ => default, 0, 0, 0⟩, ⟨fun _ => default, 0⟩, false, [], 0, []⟩
  step s
    | .write lock item => s.write lock item
    | .turn countLock readLock => s.turn countLock readLock

/-- The cache is the queue of what has been delivered and not been taken. -/
structure Flowing (s : SampleFlow) : Prop where
  holds : s.cache.Holds (s.delivered.drop s.consumed)
  consumed_le : s.consumed ≤ s.delivered.length
  aligned : s.consumed % 100 = 0
  index : s.overrun = false → ∃ k < 1100, s.task.index = 64 * k

/-- What a turn reads that finds slot `k` free: the next 100 samples, laid down
from there on. -/
structure Batch (s : SampleFlow) (k : Nat) (cache : AdcItemCache) (items : Nat → AdcItem) :
    Prop where
  len : s.consumed + 100 ≤ s.delivered.length
  holds : cache.Holds (s.delivered.drop (s.consumed + 100))
  new : ∀ i < 100, s.delivered[s.consumed + i]? = some (items (k + i))
  old : ∀ i < k, items i = s.task.items i

/-- The state after a batch has been taken. -/
def SampleFlow.taken (s : SampleFlow) (cache : AdcItemCache) (overrun : Bool) (task : StorageTask)
    (handed : List HandedRecord) : SampleFlow :=
  ⟨cache, task, overrun, s.delivered, s.consumed + 100, handed⟩

/-- All that a turn can do. -/
inductive TurnSpec (s : SampleFlow) (k : Nat) : SampleFlow → Prop
  | idle : TurnSpec s k s
  | past {cache : AdcItemCache} {items : Nat → AdcItem} (b : Batch s k cache items)
      (hk : 1000 < k) : TurnSpec s k (s.taken cache true s.task s.handed)
  | filled {cache : AdcItemCache} {items : Nat → AdcItem} (b : Batch s k cache items)
      (hk : k ≤ 1000) (hnone : ∀ j < 100, ¬ EndsSecond items (k + j)) :
      TurnSpec s k (s.taken cache s.overrun
        ⟨items, if k + 100 = 1100 then 0 else 64 * (k + 100)⟩ s.handed)
  | ended {cache : AdcItemCache} {items : Nat → AdcItem} {j : Nat} (b : Batch s k cache items)
      (hk : k ≤ 1000) (hj : j < 100) (hend : EndsSecond items (k + j))
      (hfirst : ∀ i < j, ¬ EndsSecond items (k + i)) :
      TurnSpec s k (s.taken cache s.overrun
        ⟨overlay (fun _ x => x) items 0 (99 - j) (fun i => items (k + j + i)), 64 * (99 - j)⟩
        (s.handed ++ [⟨UInt32.ofNat ((items (k + j)).ts.toNat / 1000), items⟩]))

namespace Flowing

variable {s : SampleFlow} {k : Nat}

theorem turn_spec (h : Flowing s) (hrun : s.overrun = false) (hk : k < 1100)
    (hindex : s.task.index = 64 * k) (countLock readLock : Bool) :
    TurnSpec s k (s.turn countLock readLock) := by
  have hrun' : ¬ s.overrun = true := by simp [hrun]
  rw [SampleFlow.turn, if_neg hrun']
  rcases storageTaskTurn_cases h.holds hk hindex countLock readLock with
    hidle | ⟨cache, items, hlen, hholds, hnew, hold, hturn⟩
  · simp only [hidle, Nat.sub_self, Nat.add_zero, Option.toList_none, List.append_nil]
    exact .idle
  · have hcount : s.cache.count - cache.count = 100 := by
      rw [h.holds.count, hholds.count, List.length_drop (i := 100)]
      omega
    have hbatch : Batch s k cache items := by
      have hle := h.consumed_le
      rw [List.length_drop] at hlen
      refine ⟨by omega, List.drop_drop ▸ hholds, fun i hi => ?_, hold⟩
      rw [hnew i hi, List.getElem_drop, List.getElem?_eq_getElem (by omega)]
    simp only [hturn, hcount]
    by_cases hover : 1000 < k
    · rw [if_pos hover]
      exact .past hbatch hover
    · rw [if_neg hover]
      rcases scanBatch_cases items 100 hk (by omega) with
        ⟨hnone, hscan⟩ | ⟨j, hj, hend, hfirst, hscan⟩
      · simp only [hscan, Option.toList_none, List.append_nil]
        exact .filled hbatch (by omega) hnone
      · simp only [hscan, Option.toList_some]
        exact .ended hbatch (by omega) hj hend hfirst

theorem turn_consumed (h : Flowing s) (hrun : s.overrun = false)
    (hlen : s.consumed + 100 ≤ s.delivered.length) :
    (s.turn true true).consumed = s.consumed + 100 := by
  have hcount := h.holds.count
  rw [List.length_drop] at hcount
  have hget : 100 ≤ adcCacheGetCount true s.cache := by
    rw [adcCacheGetCount, if_pos rfl]
    omega
  have hread : (adcCacheReadBatch true s.cache s.task.items (s.task.index / itemSize) 100).1.count =
      s.cache.count - 100 := by
    rw [adcCacheReadBatch, if_pos ⟨rfl, by decide⟩, if_neg (by omega)]
  have hcache : (storageTaskTurn true true s.cache s.task).1 =
      (adcCacheReadBatch true s.cache s.task.items (s.task.index / itemSize) 100).1 := by
    simp only [storageTaskTurn, if_pos hget]
    split <;> rfl
  have hrun' : ¬ s.overrun = true := by simp [hrun]
  rw [SampleFlow.turn, if_neg hrun']
  simp only [hcache, hread]
  split <;> simp only <;> omega

theorem taken (h : Flowing s) {cache : AdcItemCache} {items : Nat → AdcItem}
    (b : Batch s k cache items) {overrun : Bool} {task : StorageTask} {handed : List HandedRecord}
    (hindex : overrun = false → ∃ k < 1100, task.index = 64 * k) :
    Flowing (s.taken cache overrun task handed) :=
  ⟨b.holds, b.len, (Nat.add_mod_right _ _).trans h.aligned, hindex⟩

theorem write (h : Flowing s) (lock : Bool) (item : AdcItem) :
    Flowing (s.write lock item) ∧ s.delivered <+: (s.write lock item).delivered := by
  have hle := h.consumed_le
  cases lock with
  | false => exact ⟨⟨h.holds, hle, h.aligned, h.index⟩, List.prefix_refl _⟩
  | true =>
    have hcount := h.holds.count_le
    rw [h.holds.count] at hcount
    rcases Nat.lt_or_eq_of_le hcount with hroom | hfull
    · obtain ⟨hret, hholds⟩ := h.holds.writeOne item hroom
      have hdelivered : (s.write true item).delivered = s.delivered ++ [item] := by
        simp only [SampleFlow.write, hret, if_true]
      rw [hdelivered]
      refine ⟨⟨?_, ?_, h.aligned, h.index⟩, List.prefix_append _ _⟩
      · rw [hdelivered, SampleFlow.write, List.drop_append_of_le_length hle]
        exact hholds
      · rw [hdelivered, List.length_append]
        exact Nat.le_add_right_of_le hle
    · have hret := h.holds.writeOne_full item hfull
      have hsame : s.write true item = s := by
        simp only [SampleFlow.write, hret]
        rfl
      rw [hsame]
      exact ⟨h, List.prefix_refl _⟩

theorem turn (h : Flowing s) (countLock readLock : Bool) :
    Flowing (s.turn countLock readLock) ∧ (s.turn countLock readLock).delivered = s.delivered := by
  cases hrun : s.overrun with
  | true =>
    rw [SampleFlow.turn, if_pos hrun]
    exact ⟨h, rfl⟩
  | false =>
    obtain ⟨k, hk, hindex⟩ := h.index hrun
    have hspec := h.turn_spec hrun hk hindex countLock readLock
    generalize s.turn countLock readLock = s' at hspec
    cases hspec with
    | idle => exact ⟨h, rfl⟩
    | past b => exact ⟨h.taken b nofun, rfl⟩
    | filled b hk' =>
      refine ⟨h.taken b fun _ => ?_, rfl⟩
      by_cases hfull : k + 100 = 1100
      · exact ⟨0, by decide, if_pos hfull⟩
      · exact ⟨k + 100, by omega, if_neg hfull⟩
    | ended b hk' hj => exact ⟨h.taken b fun _ => ⟨_, by omega, rfl⟩, rfl⟩

theorem start : Flowing sampleFlow.start :=
  ⟨⟨by decide, by decide, rfl, rfl⟩, Nat.le_refl 0, rfl, fun _ => ⟨0, by decide, rfl⟩⟩

theorem run (es : List SampleEvent) : Flowing (sampleFlow.run es) :=
  sampleFlow.invariant_runFrom_of_step (fun s e h => by
    cases e with
    | write lock item => exact (h.write lock item).1
    | turn countLock readLock => exact (h.turn countLock readLock).1) es start

end Flowing

end Lsc100
