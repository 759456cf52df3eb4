import Lsc100.Adc.Recorder

/-! Which of the newest records can be read back. The search relies on index
blocks in time order and on `block_num` counting them, and both are given up
when the index ring is rewritten from its start. -/

namespace Lsc100

open Overlay

/-- Every read of the record's second delivers the record. -/
def Readable (s : AdcStore) (r : SecondRecord) : Prop :=
  ∀ buf, (storageReadAdcData .ok s r.ts 0 buf 125).1 = 0 ∧
    ∀ i < 125, (storageReadAdcData .ok s r.ts 0 buf 125).2 i = r.data i

namespace Represents

variable {rest : Emmc} {s : AdcStore} {l : AdcLog} {m : Nat}

theorem readable_of_lookup (h : Represents rest s l) (hlook : s.lookup .ok (l.slot m).ts =
    some (l.item m)) (hm : m < 64 * l.flushed + l.torn)
    (hm' : 64 * l.flushed + l.torn ≤ m + 480000) : Readable s (l.slot m) := fun _ =>
  h.read_slot hlook (l.item_addr m) hm hm'

theorem not_readable_of_lookup (hlook : s.lookup .ok (l.slot m).ts = none) :
    ¬ Readable s (l.slot m) := by
  intro h
  obtain ⟨it, hit⟩ := storageReadAdcData_ret.mp (h (fun _ => zeroBlock)).1
  rw [hlook] at hit
  cases hit

/-- As long as the searched blocks are those of one stretch of the log, every
entry in it is found. -/
theorem lookup_sorted (h : Represents rest s l) (hord : l.Ordered) (base : Nat)
    (hitem : ∀ i < 64 * AdcLog.indexBlocks l.flushed, diskItem s.emmc i = l.item (base + i))
    (hlen : base + 64 * AdcLog.indexBlocks l.flushed = 64 * l.flushed) (hpos : 0 < (l.slot m).ts)
    (hm : base ≤ m) (hm' : m < 64 * l.flushed) :
    s.lookup .ok (l.slot m).ts = some (l.item m) := by
  have hkey : ∀ i < 64 * AdcLog.indexBlocks l.flushed,
      diskKey s.emmc i = (l.slot (base + i)).ts.toNat := fun i hi => by
    rw [diskKey, hitem i hi, AdcLog.item]
  have hflushed : 64 * l.flushed ≤ l.length := Nat.le_add_right _ _
  have hfound : GroupScan.scan (diskKey s.emmc) (l.slot m).ts.toNat
      (64 * AdcLog.indexBlocks l.flushed) 640 (by decide) 0 = some (m - base) := by
    refine GroupScan.scan_of_strictMono (fun i j _ hij hj => ?_) (Nat.zero_le _) (by omega) ?_
    · rw [hkey i (by omega), hkey j hj]
      exact hord.toNat_lt (by omega) (by omega)
    · rw [hkey _ (by omega), Nat.add_sub_cancel' hm]
  rw [h.lookup_disk hpos (hord.lt_fresh hm'), hfound, Option.map_some, hitem _ (by omega),
    Nat.add_sub_cancel' hm]

theorem lookup_first_lap (h : Represents rest s l) (hord : l.Ordered)
    (hq : l.flushed < 7500) (hpos : 0 < (l.slot m).ts) (hm : m < 64 * l.flushed) :
    s.lookup .ok (l.slot m).ts = some (l.item m) := by
  have hblocks : AdcLog.indexBlocks l.flushed = l.flushed := if_pos hq
  have hmod := Nat.mod_eq_of_lt hq
  refine h.lookup_sorted hord 0 (fun i hi => ?_) (by omega) hpos (Nat.zero_le m) hm
  rw [h.diskItem_new (by omega), AdcLog.lapStart, hmod, Nat.sub_self]

theorem lookup_full_lap (h : Represents rest s l) (hord : l.Ordered)
    (hq : 7500 ≤ l.flushed) (hc : l.flushed % 7500 = 0) (hpos : 0 < (l.slot m).ts)
    (hm : 64 * l.flushed ≤ m + 480000) (hm' : m < 64 * l.flushed) :
    s.lookup .ok (l.slot m).ts = some (l.item m) := by
  have hblocks : AdcLog.indexBlocks l.flushed = 7500 := by
    rw [AdcLog.indexBlocks, if_neg (by omega), hc]
  refine h.lookup_sorted hord (64 * l.flushed - 480000) (fun i hi => ?_) (by omega) hpos
    (by omega) hm'
  have hpos' : l.lapStart + i - 480000 = 64 * l.flushed - 480000 + i := by
    rw [AdcLog.lapStart]
    omega
  rw [h.diskItem_old hq (by omega) (by omega), hpos']

/-- In a later lap no group ends at or above the newest flushed record, unless it fills the
group. -/
theorem lookup_newest (h : Represents rest s l) (hord : l.Ordered) (hrest : Erased rest)
    (hq : 7500 ≤ l.flushed) (hc : l.flushed % 7500 % 10 ≠ 0)
    (hpos : 0 < (l.slot (64 * l.flushed - 1)).ts) :
    s.lookup .ok (l.slot (64 * l.flushed - 1)).ts = none := by
  have hlap := Nat.mod_le l.flushed 7500
  have hlen : l.length = 64 * l.flushed + l.fresh := rfl
  have hstart : l.lapStart = 64 * (l.flushed - l.flushed % 7500) := rfl
  have hnone : GroupScan.scan (diskKey s.emmc) (l.slot (64 * l.flushed - 1)).ts.toNat
      (64 * AdcLog.indexBlocks l.flushed) 640 (by decide) 0 = none := by
    refine GroupScan.scan_none_of_last_lt fun i hi => ?_
    have hlast : min (0 + 640 * i + 640) (64 * AdcLog.indexBlocks l.flushed) - 1 ≠
        64 * (l.flushed % 7500) - 1 := by
      rw [AdcLog.indexBlocks, if_neg (by omega)]
      omega
    generalize min (0 + 640 * i + 640) (64 * AdcLog.indexBlocks l.flushed) - 1 = k at hlast
    rcases Nat.lt_or_ge k (64 * (l.flushed % 7500)) with hnew | hold
    · rw [diskKey, h.diskItem_new hnew, AdcLog.item]
      exact hord.toNat_lt (by omega) (by omega)
    rcases Nat.lt_or_ge k 480000 with hk | hk
    · rw [diskKey, h.diskItem_old hq hold hk, AdcLog.item]
      exact hord.toNat_lt (by omega) (by omega)
    · rw [diskKey, h.diskItem_past hk]
      exact (diskKey_erased hrest hk).trans_lt (UInt32.lt_iff_toNat_lt.mp hpos)
  rw [h.lookup_disk hpos (hord.lt_fresh (by omega)), hnone, Option.map_none]

/-- A record that ends a group of ten index blocks is found in any lap. -/
theorem lookup_newest_last (h : Represents rest s l) (hord : l.Ordered) (hq : 0 < l.flushed % 7500)
    (hc : l.flushed % 7500 % 10 = 0) (hpos : 0 < (l.slot (64 * l.flushed - 1)).ts) :
    s.lookup .ok (l.slot (64 * l.flushed - 1)).ts = some (l.item (64 * l.flushed - 1)) := by
  have hlap := Nat.mod_le l.flushed 7500
  have hlen : l.length = 64 * l.flushed + l.fresh := rfl
  have hstart : l.lapStart = 64 * (l.flushed - l.flushed % 7500) := rfl
  have hblocks : l.flushed % 7500 ≤ AdcLog.indexBlocks l.flushed := by
    rw [AdcLog.indexBlocks]
    split <;> omega
  have hkey : ∀ i < 64 * (l.flushed % 7500),
      diskKey s.emmc i = (l.slot (l.lapStart + i)).ts.toNat := fun i hi => by
    rw [diskKey, h.diskItem_new hi, AdcLog.item]
  have hnewest : l.lapStart + (64 * (l.flushed % 7500) - 1) = 64 * l.flushed - 1 := by omega
  have hless : ∀ i < 64 * (l.flushed % 7500) - 1,
      diskKey s.emmc i < (l.slot (64 * l.flushed - 1)).ts.toNat := fun i hi => by
    rw [hkey i (by omega)]
    exact hord.toNat_lt (by omega) (by omega)
  have hfound : GroupScan.scan (diskKey s.emmc) (l.slot (64 * l.flushed - 1)).ts.toNat
      (64 * AdcLog.indexBlocks l.flushed) 640 (by decide) 0 =
        some (64 * (l.flushed % 7500) - 1) := by
    have hself : diskKey s.emmc (64 * (l.flushed % 7500) - 1) =
        (l.slot (64 * l.flushed - 1)).ts.toNat := by
      rw [hkey _ (by omega), hnewest]
    refine GroupScan.scan_eq_some_iff.mpr ⟨l.flushed % 7500 / 10 - 1, by omega, by omega, by omega,
      hself, fun i hi => hless _ (by omega), ?_, fun j _ hj => Nat.ne_of_lt (hless j hj)⟩
    have hend : min (0 + 640 * (l.flushed % 7500 / 10 - 1 + 1))
        (64 * AdcLog.indexBlocks l.flushed) - 1 = 64 * (l.flushed % 7500) - 1 := by omega
    rw [hend, hself]
  rw [h.lookup_disk hpos (hord.lt_fresh (by omega)), hfound, Option.map_some,
    h.diskItem_new (by omega), hnewest]

theorem lookup_newest_iff (h : Represents rest s l) (hord : l.Ordered) (hrest : Erased rest)
    (hsome : 0 < l.flushed) (hpos : 0 < (l.slot (64 * l.flushed - 1)).ts) :
    s.lookup .ok (l.slot (64 * l.flushed - 1)).ts = some (l.item (64 * l.flushed - 1)) ↔
      l.flushed < 7500 ∨ l.flushed % 7500 % 10 = 0 := by
  rcases Nat.lt_or_ge l.flushed 7500 with hq | hq
  · exact iff_of_true (h.lookup_first_lap hord hq hpos (by omega)) (.inl hq)
  rw [or_iff_right (by omega)]
  by_cases hgroup : l.flushed % 7500 % 10 = 0
  · refine iff_of_true ?_ hgroup
    rcases Nat.eq_zero_or_pos (l.flushed % 7500) with hc | hc
    · exact h.lookup_full_lap hord hq hc hpos (by omega) (by omega)
    · exact h.lookup_newest_last hord hc hgroup hpos
  · rw [h.lookup_newest hord hrest hq hgroup hpos]
    exact iff_of_false (by simp) hgroup

/-- From block ten on the first group ends above every record of the lap
before, and hides those that are left. -/
theorem lookup_oldest (h : Represents rest s l) (hord : l.Ordered) (hq : 7500 ≤ l.flushed)
    (hc : 10 ≤ l.flushed % 7500) (hm : m < l.lapStart) (hpos : 0 < (l.slot m).ts) :
    s.lookup .ok (l.slot m).ts = none := by
  have hlap := Nat.mod_le l.flushed 7500
  have hmod := Nat.mod_lt l.flushed (by decide : 0 < 7500)
  have hlen : l.length = 64 * l.flushed + l.fresh := rfl
  have hstart : l.lapStart = 64 * (l.flushed - l.flushed % 7500) := rfl
  have hblocks : 7510 ≤ AdcLog.indexBlocks l.flushed := by
    rw [AdcLog.indexBlocks, if_neg (by omega)]
    omega
  have hkey : ∀ k < 640, diskKey s.emmc k = (l.slot (l.lapStart + k)).ts.toNat := fun k hk => by
    rw [diskKey, h.diskItem_new (by omega), AdcLog.item]
  have hnone : GroupScan.scan (diskKey s.emmc) (l.slot m).ts.toNat
      (64 * AdcLog.indexBlocks l.flushed) 640 (by decide) 0 = none := by
    refine GroupScan.scan_none_of_head ?_ fun k _ hk _ => ?_
    · rw [show min (0 + 640) (64 * AdcLog.indexBlocks l.flushed) - 1 = 639 by omega,
        hkey 639 (by decide)]
      exact Nat.le_of_lt (hord.toNat_lt (by omega) (by omega))
    · rw [hkey k (by omega)]
      exact (Nat.ne_of_lt (hord.toNat_lt (by omega) (by omega))).symm
  rw [h.lookup_disk hpos (hord.lt_fresh (by omega)), hnone, Option.map_none]

theorem exists_hidden (h : Represents rest s l) (hord : l.Ordered) (hrest : Erased rest)
    (hpos : ∀ m < l.length, 0 < (l.slot m).ts) (hq : 7500 ≤ l.flushed)
    (hc : 0 < l.flushed % 7500) :
    ∃ m < l.length, l.length ≤ m + 480000 ∧ ¬ Readable s (l.slot m) := by
  have hlap := Nat.mod_le l.flushed 7500
  have hlen : l.length = 64 * l.flushed + l.fresh := rfl
  have hfresh := l.fresh_le_torn
  have hlt := l.torn_lt
  rcases Nat.lt_or_ge (l.flushed % 7500) 10 with hc' | hc'
  · have hnone := h.lookup_newest hord hrest hq (by omega) (hpos _ (by omega))
    exact ⟨64 * l.flushed - 1, by omega, by omega, not_readable_of_lookup hnone⟩
  · have hold : l.length - 480000 < l.lapStart := by
      rw [AdcLog.lapStart]
      omega
    have hnone := h.lookup_oldest hord hq hc' hold (hpos _ (by omega))
    exact ⟨l.length - 480000, by omega, by omega, not_readable_of_lookup hnone⟩

theorem all_readable (h : Represents rest s l) (hord : l.Ordered) (htorn : l.torn = l.fresh)
    (hpos : ∀ m < l.length, 0 < (l.slot m).ts)
    (hlap : l.flushed < 7500 ∨ l.flushed % 7500 = 0) (hm : m < l.length)
    (hm' : l.length ≤ m + 480000) : Readable s (l.slot m) := by
  have hlen : l.length = 64 * l.flushed + l.fresh := rfl
  refine h.readable_of_lookup ?_ (by omega) (by omega)
  rcases Nat.lt_or_ge m (64 * l.flushed) with hdisk | hram
  · rcases Nat.lt_or_ge l.flushed 7500 with hq | hq
    · exact h.lookup_first_lap hord hq (hpos m hm) hdisk
    · exact h.lookup_full_lap hord hq (by omega) (hpos m hm) (by omega) hdisk
  · have hi := h.lookup_ram hord (i := m - 64 * l.flushed) (by omega)
    rwa [Nat.add_sub_cancel' hram] at hi

end Represents

section Runs

variable {e : Emmc} {c : ConfigInfo} {rs : List SecondRecord}

/-- Every record whose data blocks have not been overwritten is readable. -/
def Complete (e : Emmc) (c : ConfigInfo) (rs : List SecondRecord) : Prop :=
  ∀ k (hk : k < rs.length), rs.length ≤ k + adcItemTotalNum →
    Readable ((adcRecorder (.boot e c)).run (rs.map .write)) rs[k]

theorem slot_pos (hpos : ∀ r ∈ rs, 0 < r.ts) {m : Nat}
    (hm : m < (adcLog.run (rs.map .write)).length) :
    0 < ((adcLog.run (rs.map .write)).slot m).ts := by
  obtain ⟨hlength, -, hslot⟩ := adcLog_writes rs
  rw [hslot m (hlength ▸ hm)]
  exact hpos _ (List.getElem_mem _)

theorem not_complete (he : Erased e) (hc : c.Fresh) (hpos : ∀ r ∈ rs, 0 < r.ts)
    (hmono : rs.Pairwise (·.ts < ·.ts)) (hn : 480000 ≤ rs.length)
    (hlap : 64 ≤ rs.length % 480000) : ¬ Complete e c rs := by
  intro hall
  have hlog : LogOf _ (adcLog.run (rs.map .write)) := logOf_run (by rwa [writes_map_write])
  obtain ⟨hlength, -, hslot⟩ := adcLog_writes rs
  have hlen : (adcLog.run (rs.map .write)).length =
    64 * (adcLog.run (rs.map .write)).flushed + (adcLog.run (rs.map .write)).fresh := rfl
  have hle := (adcLog.run (rs.map .write)).fresh_le_torn
  have hlt := (adcLog.run (rs.map .write)).torn_lt
  obtain ⟨m, hm, hm', hhidden⟩ := (represents_run_writes hc rs).exists_hidden hlog.ordered he
    (fun m hm => slot_pos hpos hm) (by omega) (by omega)
  rw [hslot m (hlength ▸ hm)] at hhidden
  exact hhidden (hall m (hlength ▸ hm) (hlength ▸ hm'))

theorem complete_of_sorted (hc : c.Fresh) (hpos : ∀ r ∈ rs, 0 < r.ts)
    (hmono : rs.Pairwise (·.ts < ·.ts)) (hlap : rs.length < 480000 ∨ rs.length % 480000 < 64) :
    Complete e c rs := by
  intro k hk hk'
  have hlog : LogOf _ (adcLog.run (rs.map .write)) := logOf_run (by rwa [writes_map_write])
  obtain ⟨hlength, htorn, hslot⟩ := adcLog_writes rs
  have hlen : (adcLog.run (rs.map .write)).length =
    64 * (adcLog.run (rs.map .write)).flushed + (adcLog.run (rs.map .write)).fresh := rfl
  have hlt := (adcLog.run (rs.map .write)).torn_lt
  rw [← hslot k hk]
  exact (represents_run_writes hc rs).all_readable hlog.ordered htorn
    (fun m hm => slot_pos hpos hm) (by omega) (hlength ▸ hk) (hlength ▸ hk')

/-- The records whose data is still on the card are all readable exactly as long
as the index ring has not been rewritten, or has been rewritten to its end. -/
theorem storageReadAdcData_complete_iff (e : Emmc) (c : ConfigInfo) (rs : List SecondRecord)
    (he : Erased e) (hc : c.Fresh) (hpos : ∀ r ∈ rs, 0 < r.ts)
    (hmono : rs.Pairwise (·.ts < ·.ts)) :
    Complete e c rs ↔
      rs.length < adcItemTotalNum ∨ rs.length % adcItemTotalNum < adcIndexNumPreBlock := by
  rw [adcItemTotalNum_eq, adcIndexNumPreBlock_eq]
  refine ⟨fun hall => ?_, complete_of_sorted hc hpos hmono⟩
  by_contra hbad
  exact not_complete he hc hpos hmono (by omega) (by omega) hall

end Runs

/-- One record a second, from second 1 on. -/
def steadySeconds (data : Nat → Blocks) (n : Nat) : List SecondRecord :=
  (List.range n).map fun k => ⟨UInt32.ofNat (k + 1), data k⟩

theorem steadySeconds_pos (data : Nat → Blocks) {n : Nat} (hn : n < 2 ^ 32) :
    ∀ r ∈ steadySeconds data n, 0 < r.ts := by
  intro r hr
  obtain ⟨k, hk, rfl⟩ := List.mem_map.mp hr
  have hk := List.mem_range.mp hk
  rw [UInt32.lt_iff_toNat_lt]
  change 0 < (k + 1) % 2 ^ 32
  rw [Nat.mod_eq_of_lt (by omega)]
  omega

theorem steadySeconds_mono (data : Nat → Blocks) {n : Nat} (hn : n < 2 ^ 32) :
    (steadySeconds data n).Pairwise (·.ts < ·.ts) := by
  rw [steadySeconds, List.pairwise_map]
  refine List.pairwise_lt_range.imp_of_mem fun {j k} hj hk hjk => ?_
  have hk := List.mem_range.mp hk
  rw [UInt32.lt_iff_toNat_lt]
  change (j + 1) % 2 ^ 32 < (k + 1) % 2 ^ 32
  rw [Nat.mod_eq_of_lt (by omega), Nat.mod_eq_of_lt (by omega)]
  omega

@[simp] theorem steadySeconds_length (data : Nat → Blocks) (n : Nat) :
    (steadySeconds data n).length = n := by
  simp [steadySeconds]

/-- Every second has data of its own. -/
def ownData (k : Nat) : Blocks := fun _ _ => UInt8.ofNat k

/-- With the second lap nearly run to its end everything on the card is found again. -/
theorem storageReadAdcData_complete_two_laps :
    Complete (fun _ => zeroBlock) .firstOn (steadySeconds ownData 960063) :=
  (storageReadAdcData_complete_iff (fun _ => zeroBlock) .firstOn (steadySeconds ownData 960063)
    (fun _ _ => rfl) ConfigInfo.fresh_firstOn (steadySeconds_pos ownData (by decide))
    (steadySeconds_mono ownData (by decide))).mpr
    (.inr (by rw [steadySeconds_length]; decide))

theorem not_complete_steadySeconds (data : Nat → Blocks) {n : Nat} (hn : 480000 ≤ n)
    (hlap : 64 ≤ n % 480000) (hn' : n < 2 ^ 32) :
    ¬ Complete (fun _ => zeroBlock) .firstOn (steadySeconds data n) := by
  refine not_complete (fun _ _ => rfl) ConfigInfo.fresh_firstOn (steadySeconds_pos data hn')
    (steadySeconds_mono data hn') ?_ ?_
  · rwa [steadySeconds_length]
  · rwa [steadySeconds_length]

/-- One index block into the second lap, a record on the card is not found. -/
theorem storageReadAdcData_hidden_second_lap :
    ¬ Complete (fun _ => zeroBlock) .firstOn
      (steadySeconds (fun _ _ => zeroBlock) 480064) :=
  not_complete_steadySeconds _ (by decide) (by decide) (by decide)

end Lsc100
