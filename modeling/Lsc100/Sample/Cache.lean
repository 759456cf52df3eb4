import Lsc100.Basis.Ring
import Lsc100.Basis.Bytes
import Lsc100.Calendar
import Lsc100.Emmc

/-! Samples and the ring buffer `g_AdcItemCache` between the sampling and the
storage task, from `adc_sample.c`. Whether the mutex is obtained is an argument. -/

namespace Lsc100

open Bytes

structure AdcItem where
  time : SystemTime
  ts : UInt64
  rawData : Fin 4 → UInt16
  data : Fin 4 → UInt32
  temp : UInt32
  rsvd : Fin 22 → UInt8

instance : Inhabited AdcItem :=
  ⟨⟨0, 0, 0, 0, 0, 0⟩, 0, fun _ => 0, fun _ => 0, 0, fun _ => 0⟩

structure AdcItemCache where
  item : Nat → AdcItem
  wrIdx : Nat
  rdIdx : Nat
  count : Nat

def adcCacheMax : Nat := 600

@[simp] theorem adcCacheMax_eq : adcCacheMax = 600 := rfl

def adcCacheInit (cache : AdcItemCache) : AdcItemCache :=
  { cache with wrIdx := 0, rdIdx := 0, count := 0 }

def adcCacheWriteOne (lock : Bool) (cache : AdcItemCache) (data : AdcItem) :
    AdcItemCache × Nat :=
  if lock then
    if adcCacheMax ≤ cache.count then (cache, 1)
    else
      ({ item := Function.update cache.item cache.wrIdx data
         wrIdx := (cache.wrIdx + 1) % adcCacheMax
         rdIdx := cache.rdIdx
         count := cache.count + 1 }, 0)
  else (cache, 3)

/-- As many items of `data` as there is room for. -/
def adcCacheWriteBatch (lock : Bool) (cache : AdcItemCache) (data : Nat → AdcItem) (len : Nat) :
    AdcItemCache × Nat :=
  if lock ∧ len ≠ 0 then
    let freeSpace := (adcCacheMax + 2 ^ 32 - cache.count) % 2 ^ 16
    let writeLen := if len < freeSpace then len else freeSpace
    if 0 < writeLen then
      ({ cache with
         item := Ring.copyIn adcCacheMax cache.item cache.wrIdx data writeLen
         wrIdx := (cache.wrIdx + writeLen) % adcCacheMax
         count := cache.count + writeLen }, writeLen)
    else (cache, 0)
  else (cache, 0)

/-- The item goes to position `off` of the caller's buffer `data`. -/
def adcCacheReadOne (lock : Bool) (cache : AdcItemCache) (data : Nat → AdcItem) (off : Nat) :
    AdcItemCache × (Nat → AdcItem) × Nat :=
  if lock then
    if cache.count = 0 then (cache, data, 1)
    else
      ({ cache with rdIdx := (cache.rdIdx + 1) % adcCacheMax, count := cache.count - 1 },
        Function.update data off (cache.item cache.rdIdx), 0)
  else (cache, data, 3)

def adcCacheClear (lock : Bool) (cache : AdcItemCache) : AdcItemCache × Nat :=
  if lock then ({ cache with wrIdx := 0, rdIdx := 0, count := 0 }, 0) else (cache, 2)

def adcCacheGetCount (lock : Bool) (cache : AdcItemCache) : Nat :=
  if lock then cache.count else 0

/-- `data` is the caller's buffer and `off` the item at which it is passed. -/
def adcCacheReadBatch (lock : Bool) (cache : AdcItemCache) (data : Nat → AdcItem)
    (off maxLen : Nat) : AdcItemCache × (Nat → AdcItem) × Nat :=
  if lock ∧ maxLen ≠ 0 then
    let readLen := if cache.count < maxLen then cache.count else maxLen
    ({ cache with
       rdIdx := (cache.rdIdx + readLen) % adcCacheMax
       count := cache.count - readLen },
     Ring.copyOut adcCacheMax cache.item cache.rdIdx data off readLen, readLen)
  else (cache, data, 0)

/-- The cache holds the queue `q`. -/
structure AdcItemCache.Holds (cache : AdcItemCache) (q : List AdcItem) : Prop where
  rdIdx_lt : cache.rdIdx < 600
  count_le : cache.count ≤ 600
  wrIdx : cache.wrIdx = (cache.rdIdx + cache.count) % 600
  contents : Ring.contents 600 cache.item cache.rdIdx cache.count = q

namespace AdcItemCache.Holds

variable {cache : AdcItemCache} {q : List AdcItem}

theorem count (h : cache.Holds q) : cache.count = q.length := by
  rw [← h.contents, Ring.length_contents]

theorem init (cache : AdcItemCache) : (adcCacheInit cache).Holds [] :=
  ⟨Nat.zero_lt_succ _, Nat.zero_le _, rfl, rfl⟩

theorem writeOne (h : cache.Holds q) (data : AdcItem) (hroom : q.length < 600) :
    (adcCacheWriteOne true cache data).2 = 0 ∧
      (adcCacheWriteOne true cache data).1.Holds (q ++ [data]) := by
  have hcount := h.count
  rw [adcCacheWriteOne, if_pos rfl, adcCacheMax_eq, if_neg (by omega)]
  refine ⟨rfl, h.rdIdx_lt, by simp only; omega, ?_, ?_⟩
  · simp only [h.wrIdx, Nat.mod_add_mod, Nat.add_assoc]
  · rw [← h.contents, h.wrIdx, Ring.contents_push _ (by omega)]

theorem writeOne_full (h : cache.Holds q) (data : AdcItem) (hfull : q.length = 600) :
    adcCacheWriteOne true cache data = (cache, 1) := by
  have hcount := h.count
  rw [adcCacheWriteOne, if_pos rfl, adcCacheMax_eq, if_pos (by omega)]

/-- A batch takes the front of the queue and lays it down at `off`. -/
theorem readBatch (h : cache.Holds q) (data : Nat → AdcItem) (off : Nat) {k : Nat} (hk : 0 < k)
    (hq : k ≤ q.length) :
    (adcCacheReadBatch true cache data off k).1.Holds (q.drop k) ∧
      (adcCacheReadBatch true cache data off k).2.2 = k ∧
      (∀ i (hi : i < k), (adcCacheReadBatch true cache data off k).2.1 (off + i) = q[i]) ∧
      ∀ x, x < off ∨ off + k ≤ x → (adcCacheReadBatch true cache data off k).2.1 x = data x := by
  have hcount := h.count
  have hle := h.count_le
  rw [adcCacheReadBatch, if_pos ⟨rfl, by omega⟩, if_neg (by omega), adcCacheMax_eq]
  refine ⟨⟨Nat.mod_lt _ (by decide), ?_, ?_, ?_⟩, rfl, fun i hi => ?_, fun x hx => ?_⟩
  · simp only
    omega
  · simp only [Nat.mod_add_mod, h.wrIdx]
    congr 1
    omega
  · rw [Ring.contents_drop, h.contents]
  · simp only [← h.contents]
    rw [Ring.copyOut_in h.rdIdx_lt (by omega) hi, Ring.getElem_contents]
  · exact Ring.copyOut_out hx

end AdcItemCache.Holds

end Lsc100
