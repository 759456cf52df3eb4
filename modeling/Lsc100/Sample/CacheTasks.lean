import Lsc100.Basis.Sections
import Lsc100.Sample.Fifo

/-! The functions on `g_AdcItemCache` called by any tasks, the accesses of one call between
those of the others. Items are copied one at a time. -/

namespace Lsc100

open Overlay Sections

/-- A call with what its caller passes. -/
inductive CacheOp
  | writeOne (data : AdcItem)
  | writeBatch (data : Nat → AdcItem) (len : UInt16)
  | readOne
  | readBatch (maxLen : UInt16)
  | getCount
  | clear

def CacheOp.call (lock : Bool) : CacheOp → CacheCall
  | writeOne data => .writeOne lock data
  | writeBatch data len => .writeBatch lock data len
  | readOne => .readOne lock
  | readBatch maxLen => .readBatch lock maxLen
  | getCount => .getCount lock
  | clear => .clear lock

namespace AdcItemCache

def putItem (i : Nat) (data : AdcItem) (cache : AdcItemCache) : AdcItemCache :=
  { cache with item := Function.update cache.item i data }

def putWrIdx (i : Nat) (cache : AdcItemCache) : AdcItemCache := { cache with wrIdx := i }

def putRdIdx (i : Nat) (cache : AdcItemCache) : AdcItemCache := { cache with rdIdx := i }

def putCount (n : Nat) (cache : AdcItemCache) : AdcItemCache := { cache with count := n }

end AdcItemCache

/-- `len1` of the batches, in 16 bits. -/
def cacheLen1 (idx len : Nat) : Nat :=
  let len1 := (adcCacheMax + 2 ^ 32 - idx) % 2 ^ 16
  if len1 < len then len1 else len

namespace CacheOp

open AdcItemCache Body

def writeOneBody (data : AdcItem) : Body AdcItemCache CacheReply :=
  fetch count fun n =>
  if adcCacheMax ≤ n then give ⟨1, []⟩
  else
    fetch wrIdx fun wr =>
    store (putItem wr data) <|
    fetch wrIdx fun wr =>
    store (putWrIdx ((wr + 1) % adcCacheMax)) <|
    fetch count fun n =>
    store (putCount (n + 1)) <|
    give ⟨0, []⟩

def writeBatchBody (data : Nat → AdcItem) (len : Nat) : Body AdcItemCache CacheReply :=
  fetch count fun n =>
  let freeSpace := (adcCacheMax + 2 ^ 32 - n) % 2 ^ 16
  let writeLen := if len < freeSpace then len else freeSpace
  if 0 < writeLen then
    fetch wrIdx fun wr =>
    let len1 := cacheLen1 wr writeLen
    let advance :=
      fetch wrIdx fun wr =>
      store (putWrIdx ((wr + writeLen) % adcCacheMax)) <|
      fetch count fun n =>
      store (putCount (n + writeLen)) <|
      give ⟨writeLen, []⟩
    fetch wrIdx fun wr =>
    stores (fun i => putItem (wr + i) (data i)) len1 <|
    if len1 < writeLen then
      stores (fun i => putItem i (data (len1 + i))) (writeLen - len1) advance
    else advance
  else give ⟨0, []⟩

def readOneBody : Body AdcItemCache CacheReply :=
  fetch count fun n =>
  if n = 0 then give ⟨1, []⟩
  else
    fetch rdIdx fun rd =>
    fetch (fun cache => cache.item rd) fun data =>
    fetch rdIdx fun rd =>
    store (putRdIdx ((rd + 1) % adcCacheMax)) <|
    fetch count fun n =>
    store (putCount (n - 1)) <|
    give ⟨0, [data]⟩

/-- `count` is read once to compare it and once more to take it. -/
def readBatchBody (maxLen : Nat) : Body AdcItemCache CacheReply :=
  fetch count fun n =>
  fetch count fun n' =>
  let readLen := if n < maxLen then n' else maxLen
  if 0 < readLen then
    fetch rdIdx fun rd =>
    let len1 := cacheLen1 rd readLen
    let advance (data : Nat → AdcItem) :=
      fetch rdIdx fun rd =>
      store (putRdIdx ((rd + readLen) % adcCacheMax)) <|
      fetch count fun n =>
      store (putCount (n - readLen)) <|
      give ⟨readLen, (List.range readLen).map data⟩
    fetch rdIdx fun rd =>
    loads (fun i cache data => Function.update data i (cache.item (rd + i))) 0 len1
      (fun _ => default) fun data =>
    if len1 < readLen then
      loads (fun i cache data => Function.update data (len1 + i) (cache.item i)) 0
        (readLen - len1) data advance
    else advance data
  else give ⟨0, []⟩

def getCountBody : Body AdcItemCache CacheReply := fetch count fun n => give ⟨n, []⟩

def clearBody : Body AdcItemCache CacheReply :=
  store (putWrIdx 0) <| store (putRdIdx 0) <| store (putCount 0) <| give ⟨0, []⟩

def body : CacheOp → Body AdcItemCache CacheReply
  | writeOne data => writeOneBody data
  | writeBatch data len => writeBatchBody data len.toNat
  | readOne => readOneBody
  | readBatch maxLen => readBatchBody maxLen.toNat
  | getCount => getCountBody
  | clear => clearBody

end CacheOp

def cacheObject : Object AdcItemCache CacheOp CacheReply where
  early
    | .writeBatch _ len => if len = 0 then some ⟨0, []⟩ else none
    | .readBatch maxLen => if maxLen = 0 then some ⟨0, []⟩ else none
    | _ => none
  refused
    | .writeOne _ | .readOne => ⟨3, []⟩
    | .writeBatch .. | .readBatch .. | .getCount => ⟨0, []⟩
    | .clear => ⟨2, []⟩
  body := CacheOp.body

def cacheSpec (q : List AdcItem) (c : CacheOp) (lock : Bool) : List AdcItem × CacheReply :=
  fifoCall q (c.call lock)

namespace AdcItemCache.Holds

variable {cache : AdcItemCache} {q : List AdcItem}

theorem cacheLen1_eq {idx : Nat} (h : idx < 600) (len : Nat) :
    cacheLen1 idx len = min (600 - idx) len := by
  rw [cacheLen1, adcCacheMax_eq]
  split <;> omega

theorem foldl_putItem (cache : AdcItemCache) (a : Nat) (data : Nat → AdcItem) (n : Nat) :
    (List.range n).foldl (fun cache i => cache.putItem (a + i) (data i)) cache =
      { cache with item := overlay (fun _ x => x) cache.item a n data } := by
  rw [← foldl_update]
  induction n with
  | zero => rfl
  | succ n ih =>
    rw [List.range_succ, List.foldl_append, List.foldl_append, ih]
    rfl

theorem exec_writeOne (cache : AdcItemCache) (data : AdcItem) :
    (CacheOp.writeOneBody data).exec cache = cache.call (.writeOne true data) := by
  rw [CacheOp.writeOneBody, Body.exec_fetch, AdcItemCache.call, adcCacheWriteOne, if_pos rfl]
  split <;> rfl

theorem exec_readOne (cache : AdcItemCache) :
    CacheOp.readOneBody.exec cache = cache.call (.readOne true) := by
  rw [CacheOp.readOneBody, Body.exec_fetch, AdcItemCache.call, adcCacheReadOne, if_pos rfl]
  split
  · rfl
  · simp only [if_true, Function.update_self]
    rfl

/-- The two copies of a batch that is written, up to the end of the ring and from its start. -/
theorem exec_copyIn {wr : Nat} (hwr : wr < 600) (data : Nat → AdcItem) (k : Nat)
    (next : Body AdcItemCache CacheReply) (cache : AdcItemCache) :
    (Body.stores (fun i => putItem (wr + i) (data i)) (cacheLen1 wr k) <|
      if cacheLen1 wr k < k then
        Body.stores (fun i => putItem i (data (cacheLen1 wr k + i))) (k - cacheLen1 wr k) next
      else next).exec cache =
      next.exec { cache with item := Ring.copyIn 600 cache.item wr data k } := by
  rw [cacheLen1_eq hwr, Body.exec_stores, foldl_putItem]
  split
  · have hstart := foldl_putItem { cache with
      item := overlay (fun _ x => x) cache.item wr (min (600 - wr) k) data } 0
      (fun i => data (min (600 - wr) k + i)) (k - min (600 - wr) k)
    simp only [Nat.zero_add] at hstart
    rw [Body.exec_stores, hstart]
    rfl
  · have hrest : k - min (600 - wr) k = 0 := by omega
    rw [Ring.copyIn, hrest, overlay_zero]

theorem exec_copyOut {rd : Nat} (hrd : rd < 600) (data : Nat → AdcItem) (k : Nat)
    (next : (Nat → AdcItem) → Body AdcItemCache CacheReply) (cache : AdcItemCache) :
    (Body.loads (fun i cache data => Function.update data i (cache.item (rd + i))) 0
      (cacheLen1 rd k) data fun data =>
      if cacheLen1 rd k < k then
        Body.loads (fun i cache data => Function.update data (cacheLen1 rd k + i) (cache.item i)) 0
          (k - cacheLen1 rd k) data next
      else next data).exec cache =
      (next (Ring.copyOut 600 cache.item rd data 0 k)).exec cache := by
  have hfirst := foldl_update data (fun i => cache.item (rd + i)) (cacheLen1 rd k) (a := 0)
  simp only [Nat.zero_add] at hfirst
  rw [Body.exec_loads, ← List.range_eq_range', hfirst, cacheLen1_eq hrd, Ring.copyOut]
  split
  · rw [Body.exec_loads, ← List.range_eq_range', foldl_update, Nat.zero_add]
  · have hrest : k - min (600 - rd) k = 0 := by omega
    simp only [hrest, overlay_zero]

theorem exec_writeBatch (h : cache.Holds q) (data : Nat → AdcItem) {len : UInt16}
    (hlen : len.toNat ≠ 0) :
    (CacheOp.writeBatchBody data len.toNat).exec cache =
      cache.call (.writeBatch true data len) := by
  rw [CacheOp.writeBatchBody, AdcItemCache.call, adcCacheWriteBatch, if_pos ⟨rfl, hlen⟩,
    Body.exec_fetch]
  dsimp only
  generalize (if len.toNat < (adcCacheMax + 2 ^ 32 - cache.count) % 2 ^ 16 then len.toNat
    else (adcCacheMax + 2 ^ 32 - cache.count) % 2 ^ 16) = writeLen
  by_cases hsome : 0 < writeLen
  · rw [if_pos hsome, if_pos hsome, Body.exec_fetch, Body.exec_fetch, exec_copyIn h.wrIdx_lt]
    rfl
  · rw [if_neg hsome, if_neg hsome]
    rfl

theorem exec_readBatch (h : cache.Holds q) {maxLen : UInt16} (hlen : maxLen.toNat ≠ 0) :
    (CacheOp.readBatchBody maxLen.toNat).exec cache = cache.call (.readBatch true maxLen) := by
  rw [CacheOp.readBatchBody, AdcItemCache.call, adcCacheReadBatch, if_pos ⟨rfl, hlen⟩,
    Body.exec_fetch, Body.exec_fetch]
  dsimp only
  generalize (if cache.count < maxLen.toNat then cache.count else maxLen.toNat) = readLen
  by_cases hsome : 0 < readLen
  · rw [if_pos hsome, Body.exec_fetch, Body.exec_fetch, exec_copyOut h.rdIdx_lt]
    rfl
  · obtain rfl := Nat.eq_zero_of_not_pos hsome
    rw [if_neg hsome, adcCacheMax_eq, Ring.copyOut_zero, Nat.add_zero,
      Nat.mod_eq_of_lt h.rdIdx_lt]
    rfl

end AdcItemCache.Holds

theorem early_eq_none {len : UInt16} {ret : CacheReply}
    (h : (if len = 0 then some ret else none) = none) : len.toNat ≠ 0 := fun hzero => by
  rw [if_pos (UInt16.toNat_inj.mp hzero)] at h
  cases h

theorem exec_cacheBody {cache : AdcItemCache} {q : List AdcItem} (h : cache.Holds q) {c : CacheOp}
    (hearly : cacheObject.early c = none) : c.body.exec cache = cache.call (c.call true) := by
  cases c with
  | writeOne data => exact AdcItemCache.Holds.exec_writeOne cache data
  | writeBatch data len => exact h.exec_writeBatch data (early_eq_none hearly)
  | readOne => exact AdcItemCache.Holds.exec_readOne cache
  | readBatch maxLen => exact h.exec_readBatch (early_eq_none hearly)
  | getCount => rfl
  | clear => rfl

theorem cacheObject_implements :
    Implements cacheObject cacheSpec AdcItemCache.Holds where
  without q c := by
    cases c with
    | writeBatch data len =>
      simp only [cacheObject, cacheSpec, CacheOp.call, fifoCall]
      split <;> rfl
    | readBatch maxLen =>
      simp only [cacheObject, cacheSpec, CacheOp.call, fifoCall]
      split <;> rfl
    | writeOne data => rfl
    | readOne => rfl
    | getCount => rfl
    | clear => rfl
  body cache q c hearly h := by
    change (c.body.exec cache).1.Holds _ ∧ _
    rw [show cacheObject.body c = c.body from rfl, exec_cacheBody h hearly]
    exact h.call (c.call true)

/-- Whatever any number of tasks do to the cache from `Adc_Cache_Init` on, they see a queue of
at most 600 items on which every call takes effect at once. -/
theorem adcCacheTasks_linearized {τ : Type} [DecidableEq τ] (cache : AdcItemCache)
    (ms : List (Move τ CacheOp)) :
    ∃ ps : List (Point τ CacheOp),
      ((atOnce cacheSpec []).run ps).state.length ≤ adcCacheMax ∧
        Linearized cacheObject AdcItemCache.Holds (adcCacheInit cache)
          ((cacheObject.tasks (adcCacheInit cache)).run ms) ((atOnce cacheSpec []).run ps) := by
  obtain ⟨ps, hps⟩ := cacheObject_implements.simulates (.init cache) ms
  exact ⟨ps, hps.state.length_le, hps.linearized _⟩

end Lsc100
