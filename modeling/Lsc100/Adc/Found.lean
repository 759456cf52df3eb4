import Lsc100.Adc.Recorder

/-! Whether a lookup finds an entry at all. In the first lap of the index ring it
does for every timestamp in the log, also when seconds have been recorded twice;
a timestamp that was never recorded is not found in any lap. -/

namespace Lsc100

namespace AdcLog

variable {l : AdcLog} {rs : List SecondRecord}

/-- Timestamps do not decrease along the positions. -/
def Sorted (l : AdcLog) : Prop :=
  ∀ i j, i ≤ j → j < l.length → (l.slot i).ts ≤ (l.slot j).ts

def writes (l : AdcLog) (rs : List SecondRecord) : AdcLog := rs.foldl AdcLog.write l

theorem writes_concat (l : AdcLog) (rs : List SecondRecord) (r : SecondRecord) :
    l.writes (rs ++ [r]) = (l.writes rs).write r := List.foldl_concat ..

theorem Sorted.write (h : l.Sorted) {r : SecondRecord}
    (hr : ∀ m < l.length, (l.slot m).ts ≤ r.ts) : (l.write r).Sorted := by
  intro i j hij hj
  rcases Nat.lt_or_eq_of_le hij with hlt | rfl
  · have hold : ∀ i j, i < j → j < l.length → (l.slot i).ts ≤ (l.slot j).ts :=
      fun i j hij => h i j (Nat.le_of_lt hij)
    exact AdcLog.write_pairs (R := fun r r' => r.ts ≤ r'.ts) hold hr i j hlt hj
  · exact UInt32.le_refl _

theorem Sorted.reboot (h : l.Sorted) : l.reboot.Sorted := fun i j hij hj =>
  h i j hij (Nat.lt_of_lt_of_le hj (Nat.add_le_add_left (Nat.zero_le _) _))

theorem writes_slot (l : AdcLog) (rs : List SecondRecord) :
    (l.writes rs).length = l.length + rs.length ∧
      (∀ m < l.length, (l.writes rs).slot m = l.slot m) ∧
      ∀ k (hk : k < rs.length), (l.writes rs).slot (l.length + k) = rs[k] := by
  induction rs using List.reverseRecOn with
  | nil => exact ⟨rfl, fun _ _ => rfl, fun k hk => absurd hk (Nat.not_lt_zero k)⟩
  | append_singleton rs r ih =>
    obtain ⟨hlength, hold, hnew⟩ := ih
    rw [writes_concat, write_length, write_slot, hlength]
    refine ⟨by simp [Nat.add_assoc], fun m hm => ?_, fun k hk => ?_⟩
    · rw [Function.update_of_ne (by omega), hold m hm]
    · rw [List.length_append, List.length_singleton] at hk
      rcases Nat.lt_or_eq_of_le (Nat.le_of_lt_succ hk) with hlt | rfl
      · rw [Function.update_of_ne (by omega), hnew k hlt, List.getElem_append_left hlt]
      · rw [Function.update_self]
        simp

theorem Sorted.writes (h : l.Sorted) (hrs : rs.Pairwise (·.ts ≤ ·.ts))
    (hold : ∀ m < l.length, ∀ r ∈ rs, (l.slot m).ts ≤ r.ts) : (l.writes rs).Sorted := by
  induction rs using List.reverseRecOn with
  | nil => exact h
  | append_singleton rs r ih =>
    rw [List.pairwise_append] at hrs
    rw [writes_concat]
    refine (ih hrs.1 fun m hm r' hr' => hold m hm r' (List.mem_append_left _ hr')).write ?_
    obtain ⟨hlength, hslot, hnew⟩ := l.writes_slot rs
    intro m hm
    rcases Nat.lt_or_ge m l.length with hlt | hge
    · rw [hslot m hlt]
      exact hold m hlt r List.mem_concat_self
    · obtain ⟨k, rfl⟩ := Nat.exists_eq_add_of_le hge
      rw [hnew k (by omega)]
      exact hrs.2.2 _ (List.getElem_mem _) r (List.mem_singleton_self r)

end AdcLog

theorem sorted_run {es : List AdcEvent} (hmono : (writes es).Pairwise (·.ts ≤ ·.ts)) :
    (adcLog.run es).Sorted ∧ ∀ m < (adcLog.run es).length, (adcLog.run es).slot m ∈ writes es := by
  induction es using List.reverseRecOn with
  | nil =>
    exact ⟨fun i j _ hj => absurd hj (Nat.not_lt_zero j), fun m hm => absurd hm (Nat.not_lt_zero m)⟩
  | append_singleton es e ih =>
    rw [writes_append, List.pairwise_append] at hmono
    obtain ⟨hsorted, hmem⟩ := ih hmono.1
    rw [writes_append, Machine.run_concat]
    cases e with
    | reboot =>
      refine ⟨hsorted.reboot, fun m hm => List.mem_append_left _ (hmem m ?_)⟩
      exact Nat.lt_of_lt_of_le hm (Nat.add_le_add_left (Nat.zero_le _) _)
    | write r =>
      have hr : r ∈ writes [.write r] := List.mem_singleton_self r
      refine ⟨hsorted.write fun m hm => hmono.2.2 _ (hmem m hm) r hr, fun m hm => ?_⟩
      change m < ((adcLog.run es).write r).length at hm
      change ((adcLog.run es).write r).slot m ∈ _
      rw [AdcLog.write_length] at hm
      rw [AdcLog.write_slot]
      rcases Nat.lt_or_eq_of_le (Nat.le_of_lt_succ hm) with hlt | rfl
      · rw [Function.update_of_ne (by omega)]
        exact List.mem_append_left _ (hmem m hlt)
      · rw [Function.update_self]
        exact List.mem_append_right _ hr

namespace Represents

variable {rest : Emmc} {s : AdcStore} {l : AdcLog} {t : UInt32} {m : Nat}

theorem writes (h : Represents rest s l) (rs : List SecondRecord) :
    Represents rest (rs.foldl (fun s r => (storageWriteAdcData .ok s r.ts r.data 125 true).1) s)
      (l.writes rs) := by
  induction rs generalizing s l with
  | nil => exact h
  | cons r rs ih => exact ih (h.write r.ts r.data)

theorem lookup_exists (h : Represents rest s l) (hsorted : l.Sorted) (hq : l.flushed < 7500)
    (hm : m < l.length) (hpos : 0 < (l.slot m).ts) :
    ∃ it, s.lookup .ok (l.slot m).ts = some it := by
  have hlen : l.length = 64 * l.flushed + l.fresh := rfl
  have hts : ∀ j < l.fresh, (s.adc.itemTables j).timestamp = (l.slot (64 * l.flushed + j)).ts :=
    fun j hj => by rw [h.table j hj, AdcLog.item]
  have hlast : 0 < l.fresh →
      s.adc.lastTimestamp = (l.slot (64 * l.flushed + (l.fresh - 1))).ts := fun hfresh => by
    rw [AdcObject.lastTimestamp, h.itemIndex, if_neg (by omega), hts _ (by omega)]
  by_cases hram : (s.adc.itemTables 0).timestamp ≤ (l.slot m).ts ∧
      (l.slot m).ts ≤ s.adc.lastTimestamp
  · have hfresh : 0 < l.fresh := by
      rcases Nat.eq_zero_or_pos l.fresh with hz | hfresh
      · have hle := hram.2
        rw [AdcObject.lastTimestamp, h.itemIndex, if_pos hz, hz] at hle
        exact absurd hpos (UInt32.not_lt.mpr hle)
      · exact hfresh
    -- a record older than the table has the timestamp of its first entry
    have hentry : ∃ j < l.fresh, (l.slot m).ts = (s.adc.itemTables j).timestamp := by
      rcases Nat.lt_or_ge m (64 * l.flushed) with hdisk | hge
      · have hle := hram.1
        rw [hts 0 hfresh] at hle
        refine ⟨0, hfresh, ?_⟩
        rw [hts 0 hfresh]
        exact UInt32.le_antisymm (hsorted _ _ (by omega) (by omega)) hle
      · refine ⟨m - 64 * l.flushed, by omega, ?_⟩
        rw [hts _ (by omega), Nat.add_sub_cancel' hge]
    obtain ⟨j, hj, heq⟩ := hentry
    have hfind : ((List.range s.adc.itemIndex).find?
        (fun i => (l.slot m).ts = (s.adc.itemTables i).timestamp)).isSome := by
      rw [List.find?_isSome]
      exact ⟨j, List.mem_range.mpr (by rw [h.itemIndex]; exact hj), decide_eq_true heq⟩
    obtain ⟨i, hi⟩ := Option.isSome_iff_exists.mp hfind
    rw [AdcStore.lookup, if_pos hram, hi, Option.map_some]
    exact ⟨_, rfl⟩
  · have hdisk : m < 64 * l.flushed := by
      by_contra hge
      refine hram ⟨?_, ?_⟩
      · rw [hts 0 (by omega)]
        exact hsorted _ _ (by omega) hm
      · rw [hlast (by omega)]
        exact hsorted _ _ (by omega) (by omega)
    have hblocks : AdcLog.indexBlocks l.flushed = l.flushed := if_pos hq
    have hkey : ∀ i < 64 * l.flushed, diskKey s.emmc i = (l.slot i).ts.toNat := fun i hi => by
      rw [diskKey, h.diskItem_new (by omega), AdcLog.lapStart, Nat.mod_eq_of_lt hq, Nat.sub_self,
        Nat.mul_zero, Nat.zero_add, AdcLog.item]
    obtain ⟨k, hk⟩ : ∃ k, GroupScan.scan (diskKey s.emmc) (l.slot m).ts.toNat (64 * l.flushed) 640
        (by decide) 0 = some k := by
      refine GroupScan.scan_of_monotone (fun i j _ hij hj => ?_) (Nat.zero_le m) hdisk
        (hkey m hdisk)
      rw [hkey i (by omega), hkey j hj]
      exact UInt32.le_iff_toNat_le.mp (hsorted i j hij (by omega))
    rw [AdcStore.lookup, if_neg hram, scanIndex_ok, h.blockNum, hblocks, Nat.mul_zero, hk,
      Option.map_some]
    exact ⟨_, rfl⟩

theorem lookup_none (h : Represents rest s l) (hnever : ∀ m < l.length, (l.slot m).ts ≠ t)
    (hrest : ∀ i, 480000 ≤ i → (diskItem rest i).timestamp ≠ t) : s.lookup .ok t = none := by
  have hlen : l.length = 64 * l.flushed + l.fresh := rfl
  cases hlook : s.lookup .ok t with
  | none => rfl
  | some it =>
    rcases h.lookup_some hlook with ⟨i, hi, hts, -⟩ | ⟨k, hscan, -⟩
    · exact absurd hts (hnever _ (by omega))
    · obtain ⟨hkey, -, hk, -⟩ := GroupScan.scan_some hscan
      have hts : (diskItem s.emmc k).timestamp = t := UInt32.toNat_inj.mp hkey
      have hmod := Nat.mod_le l.flushed 7500
      rcases Nat.lt_or_ge k (64 * (l.flushed % 7500)) with hnew | hold
      · rw [h.diskItem_new hnew] at hts
        exact absurd hts (hnever _ (by rw [AdcLog.lapStart]; omega))
      rcases Nat.lt_or_ge k 480000 with hlap | hpast
      · have hq : 7500 ≤ l.flushed := by
          by_contra hq
          rw [AdcLog.indexBlocks, if_pos (by omega)] at hk
          rw [Nat.mod_eq_of_lt (by omega)] at hold
          omega
        rw [h.diskItem_old hq hold hlap] at hts
        exact absurd hts (hnever _ (by rw [AdcLog.lapStart]; omega))
      · rw [h.diskItem_past hpast] at hts
        exact absurd hts (hrest k hpast)

end Represents

end Lsc100
