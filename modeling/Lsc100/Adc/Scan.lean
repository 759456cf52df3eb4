import Lsc100.Basis.GroupScan
import Lsc100.Adc.Log

/-! What a read of the sample store finds, in terms of the log: the RAM table
holds the newest entries, index blocks before `curr_block` those of the current
lap and index blocks from there on those of the lap before. -/

namespace Lsc100

open Overlay

def diskItem (e : Emmc) (i : Nat) : AdcIndexItem :=
  (e (adcIndexStartBlock + i / 64)).item (i % 64)

def diskKey (e : Emmc) (i : Nat) : Nat := (diskItem e i).timestamp.toNat

theorem item_emmcReadBlocks (e : Emmc) (b : Blocks) {num step i : Nat} (hi : i < 64 * step) :
    (emmcReadBlocks .ok e b (adcIndexStartBlock + num) step).1.item i =
      diskItem e (64 * num + i) := by
  have hdiv : (64 * num + i) / 64 = num + i / 64 := by omega
  have hmod : (64 * num + i) % 64 = i % 64 := by omega
  rw [Blocks.item, emmcReadBlocks_ok _ _ (by omega), diskItem, hdiv, hmod, Nat.add_assoc]

/-- The group of index blocks from `num` on ends with the entry that is looked at first. -/
theorem item_last (e : Emmc) (b : Blocks) {num n step : Nat} (hlt : num < n)
    (hstep : step = min (num + 10) n - num) :
    (emmcReadBlocks .ok e b (adcIndexStartBlock + num) step).1.item
      (adcIndexNumPreBlock * step - 1) = diskItem e (min (64 * num + 640) (64 * n) - 1) := by
  rw [adcIndexNumPreBlock_eq, item_emmcReadBlocks e b (by omega)]
  congr 1
  omega

theorem find?_range_map {α : Type*} {f g : Nat → α} {p q : Nat → Bool} {a n : Nat}
    (hf : ∀ i < n, f i = g (a + i)) (hp : ∀ i < n, p i = q (a + i)) :
    ((List.range n).find? p).map f = ((List.range' a n).find? q).map g := by
  have hfind : (List.range n).find? p = (List.range n).find? (q ∘ (a + ·)) := by
    rw [← List.head?_filter, ← List.head?_filter]
    exact congrArg List.head? (List.filter_congr fun i hi => hp i (List.mem_range.mp hi))
  rw [List.range'_eq_map_range, List.find?_map, Option.map_map, hfind]
  exact Option.map_congr fun i hi => hf i (List.mem_range.mp (List.mem_of_find?_eq_some hi))

/-- The block-wise search is a search in groups of 640 entries. -/
theorem scanIndex_ok (e : Emmc) (t : UInt32) (n num : Nat) :
    scanIndex .ok e t n num =
      (GroupScan.scan (diskKey e) t.toNat (64 * n) 640 (by decide) (64 * num)).map
        (diskItem e) := by
  induction num using scanIndex.induct AdcReadIo.ok e t n with
  | case1 num hlt step tables hle =>
    have hstep : step = min (num + 10) n - num := by
      simp only [step]
      split <;> omega
    have hitem : ∀ i < 64 * step, tables.item i = diskItem e (64 * num + i) := fun i hi =>
      item_emmcReadBlocks e _ hi
    have hlast : tables.item (adcIndexNumPreBlock * step - 1) =
        diskItem e (min (64 * num + 640) (64 * n) - 1) := item_last e _ hlt hstep
    have hhit : scanIndex .ok e t n num = ((List.range (adcIndexNumPreBlock * step)).find?
        (fun i => t = (tables.item i).timestamp)).map tables.item := by
      rw [scanIndex, if_pos hlt]
      exact if_pos hle
    rw [hlast, UInt32.le_iff_toNat_le] at hle
    rw [hhit, GroupScan.scan_hit (by omega) hle, adcIndexNumPreBlock_eq,
      show min (64 * num + 640) (64 * n) - 64 * num = 64 * step by omega]
    refine find?_range_map hitem fun i hi => ?_
    rw [hitem i hi]
    simp [diskKey, eq_comm, UInt32.toNat_inj]
  | case2 num hlt step tables hle ih =>
    have hstep : step = min (num + 10) n - num := by
      simp only [step]
      split <;> omega
    have hlast : tables.item (adcIndexNumPreBlock * step - 1) =
        diskItem e (min (64 * num + 640) (64 * n) - 1) := item_last e _ hlt hstep
    have hskip : scanIndex .ok e t n num = scanIndex .ok e t n (num + step) := by
      rw [scanIndex, if_pos hlt]
      exact if_neg hle
    rw [hlast, UInt32.le_iff_toNat_le] at hle
    have hlo : 64 * num < 64 * n := by omega
    rw [hskip, ih, GroupScan.scan_skip hlo hle]
    by_cases hmore : num + 10 < n
    · rw [show 64 * (num + step) = 64 * num + 640 by omega]
    · rw [GroupScan.scan_end (by omega), GroupScan.scan_end (by omega)]
  | case3 num hlt => rw [scanIndex, if_neg hlt, GroupScan.scan_end (by omega), Option.map_none]

theorem storageReadAdcData_ok (s : AdcStore) (t : UInt32) (buf : Blocks) :
    storageReadAdcData .ok s t 0 buf 125 = match s.lookup .ok t with
      | some item =>
        (0, (emmcReadBlocks .ok s.emmc buf (item.addr.toNat % 2 ^ 32) 125).1)
      | none => (-1, buf) := rfl

theorem storageReadAdcData_ret {s : AdcStore} {t : UInt32} {buf : Blocks} :
    (storageReadAdcData .ok s t 0 buf 125).1 = 0 ↔ ∃ it, s.lookup .ok t = some it := by
  rw [storageReadAdcData_ok]
  cases s.lookup .ok t <;> simp

namespace AdcLog

/-- Timestamps increase along the positions an index entry describes. -/
def Ordered (l : AdcLog) : Prop :=
  ∀ i j, i < j → j < l.length → (l.slot i).ts < (l.slot j).ts

theorem Ordered.toNat_lt {l : AdcLog} (h : l.Ordered) {i j : Nat} (hij : i < j)
    (hj : j < l.length) : (l.slot i).ts.toNat < (l.slot j).ts.toNat :=
  UInt32.lt_iff_toNat_lt.mp (h i j hij hj)

theorem Ordered.lt_fresh {l : AdcLog} (h : l.Ordered) {m : Nat} (hm : m < 64 * l.flushed) :
    ∀ i < l.fresh, (l.slot m).ts < (l.slot (64 * l.flushed + i)).ts := fun i hi =>
  h m _ (by omega) (by rw [length]; omega)

/-- Position of the first entry of the lap `curr_block` is in. -/
def lapStart (l : AdcLog) : Nat := 64 * (l.flushed - l.flushed % 7500)

theorem item_addr (l : AdcLog) (m : Nat) : (l.item m).addr.toNat = 125 * (m % 480000) := by
  have := Nat.mod_lt m (by decide : 0 < 480000)
  exact (UInt32.toNat_ofNat').trans (Nat.mod_eq_of_lt (by omega))

@[simp] theorem item_timestamp (l : AdcLog) (m : Nat) :
    (l.item m).timestamp = (l.slot m).ts := rfl

end AdcLog

namespace Represents

variable {rest : Emmc} {s : AdcStore} {l : AdcLog} {t : UInt32} {buf : Blocks}

theorem diskItem_new (h : Represents rest s l) {i : Nat} (hi : i < 64 * (l.flushed % 7500)) :
    diskItem s.emmc i = l.item (l.lapStart + i) := by
  have hmod := Nat.mod_lt l.flushed (by decide : 0 < 7500)
  have hdiv := Nat.div_add_mod l.flushed 7500
  have hf := h.index (7500 * (l.flushed / 7500) + i / 64) (by omega)
    (by rw [adcIndexBlockNum_eq]; omega) (i % 64) (Nat.mod_lt i (by decide))
  rw [adcIndexBlockNum_eq, Nat.mul_add_mod, Nat.mod_eq_of_lt (by omega : i / 64 < 7500)] at hf
  rw [diskItem, hf, AdcLog.lapStart]
  congr 1
  omega

theorem diskItem_old (h : Represents rest s l) {i : Nat} (hq : 7500 ≤ l.flushed)
    (hi : 64 * (l.flushed % 7500) ≤ i) (hi' : i < 480000) :
    diskItem s.emmc i = l.item (l.lapStart + i - 480000) := by
  have hdiv := Nat.div_add_mod l.flushed 7500
  have hf := h.index (7500 * (l.flushed / 7500 - 1) + i / 64) (by omega)
    (by rw [adcIndexBlockNum_eq]; omega) (i % 64) (Nat.mod_lt i (by decide))
  rw [adcIndexBlockNum_eq, Nat.mul_add_mod, Nat.mod_eq_of_lt (by omega : i / 64 < 7500)] at hf
  have hpos : 64 * (7500 * (l.flushed / 7500 - 1) + i / 64) + i % 64 =
      64 * (l.flushed - l.flushed % 7500) + i - 480000 := by omega
  rw [diskItem, hf, AdcLog.lapStart, hpos]

theorem diskItem_past (h : Represents rest s l) {i : Nat} (hi : 480000 ≤ i) :
    diskItem s.emmc i = diskItem rest i := by
  have hb : adcIndexStartBlock + adcIndexBlockNum ≤ adcIndexStartBlock + i / 64 := by
    rw [adcIndexBlockNum_eq]
    omega
  rw [diskItem, h.past _ hb, diskItem]

theorem lookup_ram (h : Represents rest s l) (hord : l.Ordered) {i : Nat} (hi : i < l.fresh) :
    s.lookup .ok (l.slot (64 * l.flushed + i)).ts = some (l.item (64 * l.flushed + i)) := by
  have hts : ∀ j < l.fresh, (s.adc.itemTables j).timestamp = (l.slot (64 * l.flushed + j)).ts :=
    fun j hj => by rw [h.table j hj, AdcLog.item]
  have hlt : ∀ j k, j < k → k < l.fresh →
      (l.slot (64 * l.flushed + j)).ts < (l.slot (64 * l.flushed + k)).ts := fun j k hjk hk =>
    hord _ _ (by omega) (by rw [AdcLog.length]; omega)
  have hle : ∀ j k, j ≤ k → k < l.fresh →
      (l.slot (64 * l.flushed + j)).ts ≤ (l.slot (64 * l.flushed + k)).ts := fun j k hjk hk => by
    rcases Nat.lt_or_eq_of_le hjk with hjk | rfl
    · exact UInt32.le_of_lt (hlt j k hjk hk)
    · exact UInt32.le_refl _
  have hcond : (s.adc.itemTables 0).timestamp ≤ (l.slot (64 * l.flushed + i)).ts ∧
      (l.slot (64 * l.flushed + i)).ts ≤ s.adc.lastTimestamp := by
    rw [AdcObject.lastTimestamp, h.itemIndex, if_neg (by omega), hts 0 (by omega),
      hts (l.fresh - 1) (by omega)]
    exact ⟨hle 0 i (by omega) hi, hle i _ (by omega) (by omega)⟩
  have hfind : (List.range s.adc.itemIndex).find?
      (fun j => (l.slot (64 * l.flushed + i)).ts = (s.adc.itemTables j).timestamp) = some i := by
    rw [h.itemIndex, List.range_eq_range', List.find?_range'_eq_some, List.mem_range'_1]
    refine ⟨by simp [hts i hi], ⟨by omega, by omega⟩, fun j _ hj => ?_⟩
    have hne := UInt32.ne_of_lt (hlt j i hj hi)
    simp [hts j (by omega), hne.symm]
  rw [AdcStore.lookup, if_pos hcond, hfind, Option.map_some, h.table i hi]

/-- A timestamp below the RAM table is searched for on the card. -/
theorem lookup_disk (h : Represents rest s l) (ht : 0 < t)
    (hram : ∀ i < l.fresh, t < (l.slot (64 * l.flushed + i)).ts) :
    s.lookup .ok t = (GroupScan.scan (diskKey s.emmc) t.toNat
      (64 * AdcLog.indexBlocks l.flushed) 640 (by decide) 0).map (diskItem s.emmc) := by
  have hcond : ¬ ((s.adc.itemTables 0).timestamp ≤ t ∧ t ≤ s.adc.lastTimestamp) := by
    rintro ⟨hle, hlast⟩
    by_cases hp : l.fresh = 0
    · rw [AdcObject.lastTimestamp, h.itemIndex, if_pos hp, hp] at hlast
      exact absurd ht (UInt32.not_lt.mpr hlast)
    · rw [h.table 0 (by omega)] at hle
      exact absurd (hram 0 (by omega)) (UInt32.not_lt.mpr hle)
  rw [AdcStore.lookup, if_neg hcond, scanIndex_ok, h.blockNum]

/-- Whatever a lookup returns is an entry of the RAM table or was found on the
card, and carries the timestamp. -/
theorem lookup_some (h : Represents rest s l) {it : AdcIndexItem}
    (hlook : s.lookup .ok t = some it) :
    (∃ i < l.fresh, (l.slot (64 * l.flushed + i)).ts = t ∧ it = l.item (64 * l.flushed + i)) ∨
      ∃ k, GroupScan.scan (diskKey s.emmc) t.toNat (64 * AdcLog.indexBlocks l.flushed) 640
        (by decide) 0 = some k ∧ it = diskItem s.emmc k := by
  rw [AdcStore.lookup] at hlook
  split at hlook
  · obtain ⟨i, hfind, rfl⟩ := Option.map_eq_some_iff.mp hlook
    have hi := List.mem_range.mp (List.mem_of_find?_eq_some hfind)
    rw [h.itemIndex] at hi
    have hts : t = (s.adc.itemTables i).timestamp := by simpa using List.find?_some hfind
    exact .inl ⟨i, hi, by rw [hts, h.table i hi, AdcLog.item], h.table i hi⟩
  · rw [scanIndex_ok, h.blockNum] at hlook
    obtain ⟨k, hscan, rfl⟩ := Option.map_eq_some_iff.mp hlook
    exact .inr ⟨k, hscan, rfl⟩

/-- A read that stops at an entry pointing to the slot of position `m` delivers
the record last written there. -/
theorem read_slot (h : Represents rest s l) {it : AdcIndexItem} {m : Nat}
    (hlook : s.lookup .ok t = some it) (haddr : it.addr.toNat = 125 * (m % 480000))
    (hm : m < 64 * l.flushed + l.torn) (hm' : 64 * l.flushed + l.torn ≤ m + 480000) :
    (storageReadAdcData .ok s t 0 buf 125).1 = 0 ∧
      ∀ i < 125, (storageReadAdcData .ok s t 0 buf 125).2 i = (l.slot m).data i := by
  have hmod := Nat.mod_lt m (by decide : 0 < 480000)
  rw [storageReadAdcData_ok, hlook]
  refine ⟨rfl, fun i hi => ?_⟩
  simp only [haddr]
  rw [Nat.mod_eq_of_lt (by omega), emmcReadBlocks_ok _ _ hi]
  exact h.data m hm hm' i hi

end Represents

end Lsc100
