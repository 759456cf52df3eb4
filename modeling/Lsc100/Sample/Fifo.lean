import Mathlib.Data.List.Induction
import Lsc100.Basis.Machine
import Lsc100.Sample.Cache

/-! The six operations on `g_AdcItemCache` in any order, against a queue of at most
600 items. A batch is as many single operations as it asks for. -/

namespace Lsc100

/-- A call with what its caller passes and whether it obtains the mutex. -/
inductive CacheCall
  | writeOne (lock : Bool) (data : AdcItem)
  | writeBatch (lock : Bool) (data : Nat → AdcItem) (len : UInt16)
  | readOne (lock : Bool)
  | readBatch (lock : Bool) (maxLen : UInt16)
  | getCount (lock : Bool)
  | clear (lock : Bool)

/-- The return value, and the items the caller has been given. -/
structure CacheReply where
  ret : Nat
  items : List AdcItem

/-- The state after some calls, and the replies to them, the last one first. -/
structure CacheRun (State : Type) where
  state : State
  replies : List CacheReply

/-- The cache makes the call; a caller that reads has a buffer of its own. -/
def AdcItemCache.call (cache : AdcItemCache) : CacheCall → AdcItemCache × CacheReply
  | .writeOne lock data =>
    let (cache, ret) := adcCacheWriteOne lock cache data
    (cache, ⟨ret, []⟩)
  | .writeBatch lock data len =>
    let (cache, ret) := adcCacheWriteBatch lock cache data len.toNat
    (cache, ⟨ret, []⟩)
  | .readOne lock =>
    let (cache, data, ret) := adcCacheReadOne lock cache (fun _ => default) 0
    (cache, ⟨ret, if ret = 0 then [data 0] else []⟩)
  | .readBatch lock maxLen =>
    let (cache, data, ret) := adcCacheReadBatch lock cache (fun _ => default) 0 maxLen.toNat
    (cache, ⟨ret, (List.range ret).map data⟩)
  | .getCount lock => (cache, ⟨adcCacheGetCount lock cache, []⟩)
  | .clear lock =>
    let (cache, ret) := adcCacheClear lock cache
    (cache, ⟨ret, []⟩)

/-- What a queue of at most 600 items answers to the call. -/
def fifoCall (q : List AdcItem) : CacheCall → List AdcItem × CacheReply
  | .writeOne true data =>
    if q.length < adcCacheMax then (q ++ [data], ⟨0, []⟩) else (q, ⟨1, []⟩)
  | .writeBatch true data len =>
    let fit := (List.range len.toNat).map data |>.take (adcCacheMax - q.length)
    (q ++ fit, ⟨fit.length, []⟩)
  | .readOne true =>
    match q with
    | [] => ([], ⟨1, []⟩)
    | data :: q => (q, ⟨0, [data]⟩)
  | .readBatch true maxLen =>
    (q.drop maxLen.toNat, ⟨(q.take maxLen.toNat).length, q.take maxLen.toNat⟩)
  | .getCount true => (q, ⟨q.length, []⟩)
  | .clear true => ([], ⟨0, []⟩)
  | .writeOne false _ => (q, ⟨3, []⟩)
  | .writeBatch false _ _ => (q, ⟨0, []⟩)
  | .readOne false => (q, ⟨3, []⟩)
  | .readBatch false _ => (q, ⟨0, []⟩)
  | .getCount false => (q, ⟨0, []⟩)
  | .clear false => (q, ⟨2, []⟩)

/-- The items one by one, and how many of them were taken. -/
def writeOnes (cache : AdcItemCache) (data : Nat → AdcItem) (len : Nat) : AdcItemCache × Nat :=
  (List.range len).foldl (fun r i =>
    let w := adcCacheWriteOne true r.1 (data i)
    (w.1, if w.2 = 0 then r.2 + 1 else r.2)) (cache, 0)

def readOnes (cache : AdcItemCache) (data : Nat → AdcItem) (off maxLen : Nat) :
    AdcItemCache × (Nat → AdcItem) × Nat :=
  (List.range maxLen).foldl (fun r i =>
    let x := adcCacheReadOne true r.1 r.2.1 (off + i)
    (x.1, x.2.1, if x.2.2 = 0 then r.2.2 + 1 else r.2.2)) (cache, data, 0)

def cacheMachine {State : Type} (start : State) (call : State → CacheCall → State × CacheReply) :
    Machine (CacheRun State) CacheCall where
  start := ⟨start, []⟩
  step r c := ⟨(call r.state c).1, (call r.state c).2 :: r.replies⟩

namespace AdcItemCache.Holds

variable {cache : AdcItemCache} {q : List AdcItem}

theorem length_le (h : cache.Holds q) : q.length ≤ 600 := h.count ▸ h.count_le

theorem wrIdx_lt (h : cache.Holds q) : cache.wrIdx < 600 := h.wrIdx ▸ Nat.mod_lt _ (by decide)

theorem writeBatch_eq (h : cache.Holds q) (data : Nat → AdcItem) (len : Nat) {k : Nat}
    (hk : k = min len (600 - q.length)) :
    adcCacheWriteBatch true cache data len =
      ({ cache with
         item := Ring.copyIn 600 cache.item cache.wrIdx data k
         wrIdx := (cache.wrIdx + k) % 600
         count := cache.count + k }, k) := by
  have hcount := h.count
  have hle := h.count_le
  have hfree : (600 + 2 ^ 32 - cache.count) % 2 ^ 16 = 600 - q.length := by omega
  have hmin : (if len < 600 - q.length then len else 600 - q.length) = k := by
    split <;> omega
  rw [adcCacheWriteBatch, adcCacheMax_eq]
  simp only [true_and, hfree, hmin]
  rcases Nat.eq_zero_or_pos k with rfl | hpos
  · rw [if_neg (Nat.lt_irrefl 0), ite_self, Ring.copyIn_zero, Nat.add_zero, Nat.add_zero,
      Nat.mod_eq_of_lt h.wrIdx_lt]
  · rw [if_pos (by omega), if_pos hpos]

/-- A batch of writes stores what fits. -/
theorem writeBatch (h : cache.Holds q) (data : Nat → AdcItem) (len : Nat) {k : Nat}
    (hk : k = min len (600 - q.length)) :
    (adcCacheWriteBatch true cache data len).1.Holds (q ++ (List.range k).map data) := by
  have hcount := h.count
  have hle := h.count_le
  have hfit : cache.count + k ≤ 600 := by omega
  rw [h.writeBatch_eq data len hk]
  refine ⟨h.rdIdx_lt, hfit, ?_, ?_⟩
  · simp only [h.wrIdx, Nat.mod_add_mod, Nat.add_assoc]
  · rw [← h.contents, h.wrIdx]
    exact Ring.contents_copyIn (by decide) hfit

theorem writeBatch_succ (h : cache.Holds q) (data : Nat → AdcItem) (len : Nat) :
    let r := adcCacheWriteBatch true cache data len
    let w := adcCacheWriteOne true r.1 (data len)
    adcCacheWriteBatch true cache data (len + 1) = (w.1, if w.2 = 0 then r.2 + 1 else r.2) := by
  have hcount := h.count
  have hle := h.count_le
  rcases Nat.lt_or_ge len (600 - q.length) with hlt | hge
  · rw [h.writeBatch_eq data len (k := len) (by omega),
      h.writeBatch_eq data (len + 1) (k := len + 1) (by omega)]
    have hroom : ¬ adcCacheMax ≤ cache.count + len := by
      rw [adcCacheMax_eq]
      omega
    simp only [adcCacheWriteOne, if_true, if_neg hroom]
    rw [adcCacheMax_eq, Ring.copyIn_succ h.wrIdx_lt (by omega), Nat.mod_add_mod, Nat.add_assoc,
      Nat.add_assoc]
  · rw [h.writeBatch_eq data len (k := 600 - q.length) (by omega),
      h.writeBatch_eq data (len + 1) (k := 600 - q.length) (by omega)]
    have hfull : adcCacheMax ≤ cache.count + (600 - q.length) := by
      rw [adcCacheMax_eq]
      omega
    simp only [adcCacheWriteOne, if_true, if_pos hfull]
    rfl

theorem writeBatch_eq_writeOnes (h : cache.Holds q) (data : Nat → AdcItem) (len : Nat) :
    adcCacheWriteBatch true cache data len = writeOnes cache data len := by
  induction len with
  | zero => rfl
  | succ len ih =>
    rw [h.writeBatch_succ data len, ih, writeOnes, writeOnes, List.range_succ, List.foldl_append]
    rfl

theorem readOne_nil (h : cache.Holds []) (data : Nat → AdcItem) (off : Nat) :
    adcCacheReadOne true cache data off = (cache, data, 1) := by
  have hcount : cache.count = 0 := h.count
  rw [adcCacheReadOne, if_pos rfl, if_pos hcount]

theorem readOne_cons {x : AdcItem} (h : cache.Holds (x :: q)) (data : Nat → AdcItem) (off : Nat) :
    (adcCacheReadOne true cache data off).2 = (Function.update data off x, 0) ∧
      (adcCacheReadOne true cache data off).1.Holds q := by
  have hcount := h.count
  have hle := h.count_le
  have hpos : cache.count ≠ 0 := by
    rw [hcount]
    exact Nat.succ_ne_zero _
  have hfirst : (Ring.contents 600 cache.item cache.rdIdx cache.count)[0]? = some x := by
    rw [h.contents]
    rfl
  obtain ⟨hlt, hget⟩ := List.getElem?_eq_some_iff.mp hfirst
  rw [Ring.getElem_contents, Nat.add_zero, Nat.mod_eq_of_lt h.rdIdx_lt] at hget
  rw [adcCacheReadOne, if_pos rfl, if_neg hpos, adcCacheMax_eq, hget]
  refine ⟨rfl, Nat.mod_lt _ (by decide), ?_, ?_, ?_⟩
  · simp only
    omega
  · simp only [Nat.mod_add_mod, h.wrIdx]
    congr 1
    omega
  · simp only
    rw [Ring.contents_drop, h.contents, List.drop_one, List.tail_cons]

theorem readBatch_eq (h : cache.Holds q) (data : Nat → AdcItem) (off maxLen : Nat) {k : Nat}
    (hk : k = min maxLen q.length) :
    adcCacheReadBatch true cache data off maxLen =
      ({ cache with rdIdx := (cache.rdIdx + k) % 600, count := cache.count - k },
        Ring.copyOut 600 cache.item cache.rdIdx data off k, k) := by
  have hcount := h.count
  have hmin : (if cache.count < maxLen then cache.count else maxLen) = k := by
    split <;> omega
  rw [adcCacheReadBatch, adcCacheMax_eq]
  simp only [true_and, hmin]
  by_cases hzero : maxLen = 0
  · obtain rfl : k = 0 := by omega
    rw [if_neg (not_not_intro hzero), Ring.copyOut_zero, Nat.add_zero, Nat.sub_zero,
      Nat.mod_eq_of_lt h.rdIdx_lt]
  · rw [if_pos hzero]

/-- A batch of reads takes what there is of the front of the queue. -/
theorem readBatch_any (h : cache.Holds q) (data : Nat → AdcItem) (off maxLen : Nat) :
    let r := adcCacheReadBatch true cache data off maxLen
    r.1.Holds (q.drop maxLen) ∧ r.2.2 = (q.take maxLen).length ∧
      (List.range (q.take maxLen).length).map (fun i => r.2.1 (off + i)) = q.take maxLen := by
  obtain ⟨k, hk⟩ : ∃ k, k = min maxLen q.length := ⟨_, rfl⟩
  have hcount := h.count
  have hle := h.count_le
  have htake : (q.take maxLen).length = k := by rw [List.length_take, hk]
  have hdrop : q.drop maxLen = q.drop k := by
    rcases Nat.le_total maxLen q.length with hfew | hmany
    · rw [hk, Nat.min_eq_left hfew]
    · rw [hk, Nat.min_eq_right hmany, List.drop_length, List.drop_eq_nil_of_le hmany]
  rw [h.readBatch_eq data off maxLen hk, hdrop, htake]
  refine ⟨⟨Nat.mod_lt _ (by decide), ?_, ?_, ?_⟩, rfl, ?_⟩
  · simp only
    omega
  · simp only [Nat.mod_add_mod, h.wrIdx]
    congr 1
    omega
  · simp only
    rw [Ring.contents_drop, h.contents]
  · refine List.ext_getElem (by simp [htake]) fun i hi hi' => ?_
    rw [List.length_map, List.length_range] at hi
    have hitem : (Ring.contents 600 cache.item cache.rdIdx cache.count)[i]? = q[i]? := by
      rw [h.contents]
    rw [List.getElem_map, List.getElem_range]
    simp only
    rw [Ring.copyOut_in h.rdIdx_lt (by omega) hi, List.getElem_take, ← Option.some_inj,
      ← List.getElem?_eq_getElem, ← hitem,
      List.getElem?_eq_getElem (by rw [Ring.length_contents]; omega), Ring.getElem_contents]

theorem readBatch_succ (h : cache.Holds q) (data : Nat → AdcItem) (off maxLen : Nat) :
    let r := adcCacheReadBatch true cache data off maxLen
    let x := adcCacheReadOne true r.1 r.2.1 (off + maxLen)
    adcCacheReadBatch true cache data off (maxLen + 1) =
      (x.1, x.2.1, if x.2.2 = 0 then r.2.2 + 1 else r.2.2) := by
  have hcount := h.count
  have hle := h.count_le
  rcases Nat.lt_or_ge maxLen q.length with hlt | hge
  · rw [h.readBatch_eq data off maxLen (k := maxLen) (by omega),
      h.readBatch_eq data off (maxLen + 1) (k := maxLen + 1) (by omega)]
    simp only [adcCacheReadOne, if_true, adcCacheMax_eq,
      if_neg (show ¬ cache.count - maxLen = 0 by omega)]
    rw [Ring.copyOut_succ h.rdIdx_lt (by omega), Nat.mod_add_mod, Nat.add_assoc, Nat.sub_sub]
  · rw [h.readBatch_eq data off maxLen (k := q.length) (by omega),
      h.readBatch_eq data off (maxLen + 1) (k := q.length) (by omega)]
    have hempty : cache.count - q.length = 0 := by omega
    simp only [adcCacheReadOne, if_true, if_pos hempty]
    rfl

theorem readBatch_eq_readOnes (h : cache.Holds q) (data : Nat → AdcItem) (off maxLen : Nat) :
    adcCacheReadBatch true cache data off maxLen = readOnes cache data off maxLen := by
  induction maxLen with
  | zero => rfl
  | succ maxLen ih =>
    rw [h.readBatch_succ data off maxLen, ih, readOnes, readOnes, List.range_succ,
      List.foldl_append]
    rfl

/-- Every call does to the cache and answers what it does to the queue. -/
theorem call (h : cache.Holds q) (c : CacheCall) :
    (cache.call c).1.Holds (fifoCall q c).1 ∧ (cache.call c).2 = (fifoCall q c).2 := by
  have hlen := h.length_le
  cases c with
  | writeOne lock data =>
    cases lock with
    | false => exact ⟨h, rfl⟩
    | true =>
      rcases Nat.lt_or_ge q.length adcCacheMax with hlt | hge
      · obtain ⟨hret, hholds⟩ := h.writeOne data hlt
        simp only [AdcItemCache.call, fifoCall, if_pos hlt, hret]
        exact ⟨hholds, trivial⟩
      · have hfull := h.writeOne_full data (Nat.le_antisymm hlen hge)
        simp only [AdcItemCache.call, fifoCall, if_neg (Nat.not_lt_of_le hge), hfull]
        exact ⟨h, trivial⟩
  | writeBatch lock data len =>
    cases lock with
    | false => exact ⟨h, rfl⟩
    | true =>
      have hholds := h.writeBatch data len.toNat rfl
      have hret := congrArg Prod.snd (h.writeBatch_eq data len.toNat rfl)
      have htake : ((List.range len.toNat).map data).take (600 - q.length) =
          (List.range (min len.toNat (600 - q.length))).map data := by
        rw [← List.map_take, List.take_range, Nat.min_comm]
      simp only [AdcItemCache.call, fifoCall, adcCacheMax_eq, htake, hret, List.length_map,
        List.length_range]
      exact ⟨hholds, trivial⟩
  | readOne lock =>
    cases lock with
    | false => exact ⟨h, rfl⟩
    | true =>
      cases q with
      | nil =>
        simp only [AdcItemCache.call, fifoCall, h.readOne_nil]
        exact ⟨h, rfl⟩
      | cons x q =>
        obtain ⟨hret, hholds⟩ := h.readOne_cons (fun _ => default) 0
        simp only [AdcItemCache.call, fifoCall, hret, if_true, Function.update_self]
        exact ⟨hholds, trivial⟩
  | readBatch lock maxLen =>
    cases lock with
    | false => exact ⟨h, rfl⟩
    | true =>
      obtain ⟨hholds, hret, hitems⟩ := h.readBatch_any (fun _ => default) 0 maxLen.toNat
      simp only [Nat.zero_add] at hitems
      simp only [AdcItemCache.call, fifoCall, hret, hitems]
      exact ⟨hholds, trivial⟩
  | getCount lock =>
    cases lock with
    | false => exact ⟨h, rfl⟩
    | true =>
      simp only [AdcItemCache.call, fifoCall, adcCacheGetCount, if_true, h.count]
      exact ⟨h, trivial⟩
  | clear lock =>
    cases lock with
    | false => exact ⟨h, rfl⟩
    | true => exact ⟨⟨Nat.zero_lt_succ _, Nat.zero_le _, rfl, rfl⟩, rfl⟩

end AdcItemCache.Holds

/-- From `Adc_Cache_Init` on, the cache answers every sequence of calls as a queue of at
most 600 items does, and a batch is the single calls one after the other. -/
theorem adcCache_fifo (cache : AdcItemCache) (calls : List CacheCall) :
    let r := (cacheMachine (adcCacheInit cache) AdcItemCache.call).run calls
    let s := (cacheMachine [] fifoCall).run calls
    r.state.Holds s.state ∧ s.state.length ≤ adcCacheMax ∧ r.replies = s.replies ∧
      (∀ data len, adcCacheWriteBatch true r.state data len = writeOnes r.state data len) ∧
      ∀ data off maxLen,
        adcCacheReadBatch true r.state data off maxLen = readOnes r.state data off maxLen := by
  intro r s
  have hrun : r.state.Holds s.state ∧ r.replies = s.replies := by
    induction calls using List.reverseRecOn with
    | nil => exact ⟨.init cache, rfl⟩
    | append_singleton calls c ih =>
      obtain ⟨hholds, hreplies⟩ := ih
      obtain ⟨hcall, hreply⟩ := hholds.call c
      simp only [r, s, Machine.run_concat]
      exact ⟨hcall, congrArg₂ List.cons hreply hreplies⟩
  exact ⟨hrun.1, hrun.1.length_le, hrun.2, hrun.1.writeBatch_eq_writeOnes,
    hrun.1.readBatch_eq_readOnes⟩

end Lsc100
