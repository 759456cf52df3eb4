import Lsc100.Adc.Complete

/-! The recorded interval, `str_time` to `end_time`, as every index flush sets it. When the
first index block of a full ring is flushed, both times are taken from the block behind it;
until the ring is at its start again, `str_time` then stays. -/

namespace Lsc100

/-- A timestamp in the index blocks that `n` flushes have left on the card. -/
def AdcStore.Described (s : AdcStore) (n : Nat) (t : UInt32) : Prop :=
  ∃ b < min n adcIndexBlockNum, ∃ j < 64,
    ((s.emmc (adcIndexStartBlock + b)).item j).timestamp = t

/-- After flush `n`, whose block ends with the record of time `newest`, the times are those
of the oldest record described and of that one. -/
structure IntervalRight (s : AdcStore) (n : Nat) (newest : UInt32) : Prop where
  described : s.Described n s.adc.strTime
  oldest : ∀ t, s.Described n t → s.adc.strTime ≤ t
  newest : s.adc.endTime = newest
  configStrTime : s.config.strTime = s.adc.strTime
  configEndTime : s.config.endTime = s.adc.endTime

namespace AdcLog

/-- The index block whose first entry `str_time` is after `q` flushes and one more. -/
def strBlock (q : Nat) : Nat := q - q % 7500 - 7499

/-- The index block whose last entry `end_time` is. -/
def endBlock (q : Nat) : Nat := if q % 7500 = 0 then q - 7499 else q

theorem strBlock_le (q : Nat) : strBlock q ≤ q := (Nat.sub_le ..).trans (Nat.sub_le ..)

theorem endBlock_le (q : Nat) : endBlock q ≤ q := by
  unfold endBlock
  split
  · exact Nat.sub_le ..
  · exact Nat.le_refl q

theorem strBlock_of_start {q : Nat} (h : q % 7500 = 0) : strBlock q = endBlock q := by
  unfold strBlock endBlock
  rw [if_pos h, h, Nat.sub_zero]

theorem strBlock_of_inside {q : Nat} (h : q % 7500 ≠ 0) : strBlock (q - 1) = strBlock q := by
  unfold strBlock
  omega

theorem strBlock_of_lap {q : Nat} (h : q < 7500) : strBlock q = 0 := by
  unfold strBlock
  omega

theorem endBlock_of_lap {q : Nat} (h : q % 7500 ≠ 0 ∨ q < 7500) : endBlock q = q := by
  unfold endBlock
  split <;> omega

/-- From the second lap on the times lag behind. -/
theorem block_lags {q : Nat} (h : 7500 ≤ q) :
    if q % 7500 = 0 then endBlock q < q else strBlock q < q - 7499 := by
  split
  · rename_i hstart
    unfold endBlock
    rw [if_pos hstart]
    omega
  · unfold strBlock
    omega

end AdcLog

open AdcLog

/-- What the times are after `q` flushes and one more. -/
structure Times (s : AdcStore) (l : AdcLog) (q : Nat) : Prop where
  strTime : s.adc.strTime = (l.slot (64 * strBlock q)).ts
  endTime : s.adc.endTime = (l.slot (64 * endBlock q + 63)).ts
  configStrTime : s.config.strTime = s.adc.strTime
  configEndTime : s.config.endTime = s.adc.endTime

theorem advance_times (adc : AdcObject) (table : Nat → AdcIndexItem) :
    (adc.advance table).strTime =
        (if adc.currBlock = 0 then (table 0).timestamp else adc.strTime) ∧
      (adc.advance table).endTime = (table 63).timestamp := by
  simp only [AdcObject.advance]
  split <;> exact ⟨rfl, rfl⟩

namespace Represents

variable {rest : Emmc} {s : AdcStore} {l : AdcLog} {q : Nat}

/-- The table the times are taken from is an index block: the one just flushed, or on the
first block of a full ring the one behind it. -/
theorem timeTable (h : Represents rest s l) (ts : UInt32) (d : Blocks) (hfull : l.fresh + 1 = 64)
    {j : Nat} (hj : j < 64) :
    (((s.putRecord ts d).putIndex .ok).timeTable .ok j).timestamp =
      ((l.write ⟨ts, d⟩).slot (64 * endBlock l.flushed + j)).ts := by
  have hcurr : s.adc.currBlock = l.flushed % 7500 := h.currBlock
  have hblock : s.adc.blockNum = indexBlocks l.flushed := h.blockNum
  have hindex : s.adc.indexAddr = adcIndexStartBlock + l.flushed % 7500 := h.indexAddr
  have hlen : l.length = 64 * l.flushed + 63 := by
    simp only [AdcLog.length]
    omega
  rw [AdcLog.write_slot, AdcStore.timeTable]
  by_cases hwrap : l.flushed % 7500 = 0 ∧ 7500 ≤ l.flushed
  · have hnum : indexBlocks l.flushed = 7500 := by
      rw [indexBlocks, if_neg (by omega), hwrap.1]
    have hread := emmcReadBlocks_ok ((s.putRecord ts d).putIndex .ok).emmc
      (fun _ => Block.ofTable ((s.putRecord ts d).putIndex .ok).adc.itemTables)
      (a := ((s.putRecord ts d).putIndex .ok).adc.indexAddr + 1) (Nat.lt_succ_self 0)
    have hio : AdcWriteIo.ok.reread = .ok := rfl
    rw [if_pos ⟨hcurr.trans hwrap.1, hblock.trans hnum⟩, hio, hread, endBlock, if_pos hwrap.1,
      Function.update_of_ne (by omega)]
    have hother : ((s.putRecord ts d).putIndex .ok).emmc
        (((s.putRecord ts d).putIndex .ok).adc.indexAddr + 1 + 0) =
        s.emmc (adcIndexStartBlock + 1) := by
      have haddr : ((s.putRecord ts d).putIndex .ok).adc.indexAddr = adcIndexStartBlock := by
        refine hindex.trans ?_
        rw [hwrap.1, Nat.add_zero]
      rw [haddr]
      refine (flushIndex_emmc_of_ne (s.putRecord ts d) ?_).trans
        (h.putRecord_index ts d (Nat.le_add_right _ _))
      rw [putRecord_adc]
      simp only [hindex, hwrap.1]
      omega
    have hold := h.index (l.flushed - 7499) (by omega) (by rw [adcIndexBlockNum_eq]; omega) j hj
    have hmod : (l.flushed - 7499) % adcIndexBlockNum = 1 := by
      rw [adcIndexBlockNum_eq]
      omega
    rw [hmod] at hold
    rw [hother, hold]
    rfl
  · have hnot : ¬ (s.adc.currBlock = 0 ∧ s.adc.blockNum = adcIndexBlockNum) := by
      rw [hcurr, hblock, indexBlocks, adcIndexBlockNum_eq]
      split <;> omega
    have hend : endBlock l.flushed = l.flushed := endBlock_of_lap (by omega)
    refine (congrArg AdcIndexItem.timestamp (congrFun (if_neg hnot) j)).trans ?_
    refine (congrArg AdcIndexItem.timestamp (h.putRecord_table ts d (by omega))).trans ?_
    rw [hend]

theorem times_write (h : Represents rest s l) (htimes : ∀ q, l.flushed = q + 1 → Times s l q)
    (ts : UInt32) (d : Blocks) : ∀ q, (l.write ⟨ts, d⟩).flushed = q + 1 →
      Times (storageWriteAdcData .ok s ts d 125 true).1 (l.write ⟨ts, d⟩) q := by
  intro q hq
  have hle := l.fresh_le_torn
  have htorn := l.torn_lt
  have hlength : l.length = 64 * l.flushed + l.fresh := rfl
  have hstr := strBlock_le q
  have hend := endBlock_le q
  by_cases hroom : l.fresh + 1 < 64
  · rw [h.write_of_room ts d hroom]
    obtain ⟨hflushed, -, -⟩ := AdcLog.write_room ⟨ts, d⟩ hroom
    rw [hflushed] at hq
    obtain ⟨hstrTime, hendTime, hconfigStr, hconfigEnd⟩ := htimes q hq
    refine ⟨?_, ?_, hconfigStr, hconfigEnd⟩
    · rw [AdcLog.write_slot, Function.update_of_ne (by omega)]
      exact hstrTime
    · rw [AdcLog.write_slot, Function.update_of_ne (by omega)]
      exact hendTime
  · have hfull : l.fresh + 1 = 64 := by omega
    rw [h.write_of_full ts d hfull]
    obtain ⟨hflushed, -, -⟩ := AdcLog.write_full (l := l) ⟨ts, d⟩ hfull
    obtain rfl : l.flushed = q := by omega
    obtain ⟨hadvStr, hadvEnd⟩ := advance_times (s.putRecord ts d).adc
      (((s.putRecord ts d).putIndex .ok).timeTable .ok)
    have hcurr : (s.putRecord ts d).adc.currBlock = l.flushed % 7500 := h.currBlock
    refine ⟨?_, ?_, rfl, rfl⟩
    · rw [flushIndex_adc]
      refine hadvStr.trans ?_
      rw [hcurr]
      by_cases hstart : l.flushed % 7500 = 0
      · rw [if_pos hstart, h.timeTable ts d hfull (by decide), strBlock_of_start hstart,
          Nat.add_zero]
      · rw [if_neg hstart]
        have hprev := (htimes (l.flushed - 1) (by omega)).strTime
        rw [AdcLog.write_slot, Function.update_of_ne (by omega), ← strBlock_of_inside hstart]
        exact hprev
    · rw [flushIndex_adc]
      exact hadvEnd.trans (h.timeTable ts d hfull (by decide))

/-- The index blocks describe the newest positions that have been flushed. -/
theorem described_iff (h : Represents rest s l) {t : UInt32} :
    s.Described l.flushed t ↔
      ∃ m, 64 * (l.flushed - 7500) ≤ m ∧ m < 64 * l.flushed ∧ (l.slot m).ts = t := by
  have hdiv := Nat.div_add_mod l.flushed 7500
  have hlt := Nat.mod_lt l.flushed (by decide : 0 < 7500)
  have hitem {f j : Nat} (hf : f < l.flushed) (hf' : l.flushed ≤ f + 7500) (hj : j < 64) :
      ((s.emmc (adcIndexStartBlock + f % 7500)).item j).timestamp = (l.slot (64 * f + j)).ts :=
    congrArg AdcIndexItem.timestamp (h.index f hf hf' j hj)
  constructor
  · rintro ⟨b, hb, j, hj, rfl⟩
    rw [adcIndexBlockNum_eq] at hb
    obtain ⟨f, hf, hf', rfl⟩ : ∃ f, f < l.flushed ∧ l.flushed ≤ f + 7500 ∧ f % 7500 = b := by
      by_cases hnew : b < l.flushed % 7500
      · exact ⟨7500 * (l.flushed / 7500) + b, by omega, by omega, by omega⟩
      · exact ⟨7500 * (l.flushed / 7500 - 1) + b, by omega, by omega, by omega⟩
    exact ⟨64 * f + j, by omega, by omega, (hitem hf hf' hj).symm⟩
  · rintro ⟨m, hm, hm', rfl⟩
    have hmod := Nat.mod_lt (m / 64) (by decide : 0 < 7500)
    refine ⟨m / 64 % 7500, ?_, m % 64, Nat.mod_lt m (by decide), ?_⟩
    · rw [adcIndexBlockNum_eq]
      have := Nat.mod_le (m / 64) 7500
      omega
    · rw [hitem (by omega) (by omega) (Nat.mod_lt m (by decide)), Nat.div_add_mod]

/-- With timestamps that increase, the times are right in the first lap only. -/
theorem intervalRight_iff (h : Represents rest s l) (hord : l.Ordered)
    (hflushed : l.flushed = q + 1) (htimes : Times s l q) :
    IntervalRight s (q + 1) (l.slot (64 * q + 63)).ts ↔ q < 7500 := by
  have hlength : l.length = 64 * l.flushed + l.fresh := rfl
  have hdescribed (t : UInt32) := h.described_iff (t := t)
  rw [hflushed] at hdescribed
  have hle : ∀ i j, i ≤ j → j < l.length → (l.slot i).ts ≤ (l.slot j).ts := by
    intro i j hij hj
    rcases Nat.lt_or_eq_of_le hij with hlt | rfl
    · exact UInt32.le_of_lt (hord i j hlt hj)
    · exact UInt32.le_refl _
  constructor
  · intro hright
    by_contra hge
    have hlags := block_lags (Nat.le_of_not_lt hge)
    by_cases hstart : q % 7500 = 0
    · rw [if_pos hstart] at hlags
      have hend := htimes.endTime.symm.trans hright.newest
      have hnew := hord (64 * endBlock q + 63) (64 * q + 63) (by omega) (by omega)
      rw [hend] at hnew
      exact UInt32.lt_irrefl _ hnew
    · rw [if_neg hstart] at hlags
      obtain ⟨m, hm, hm', hts⟩ := (hdescribed _).mp hright.described
      rw [htimes.strTime] at hts
      have hold := hord (64 * strBlock q) m (by omega) (by omega)
      rw [hts] at hold
      exact UInt32.lt_irrefl _ hold
  · intro hlap
    have hstrTime := htimes.strTime
    have hendTime := htimes.endTime
    rw [strBlock_of_lap hlap] at hstrTime
    rw [endBlock_of_lap (.inr hlap)] at hendTime
    refine ⟨(hdescribed _).mpr ⟨0, by omega, by omega, hstrTime.symm⟩, fun t ht => ?_, hendTime,
      htimes.configStrTime, htimes.configEndTime⟩
    obtain ⟨m, -, hm, rfl⟩ := (hdescribed _).mp ht
    rw [hstrTime]
    exact hle 0 m (Nat.zero_le m) (by omega)

end Represents

section Runs

variable {e : Emmc} {c : ConfigInfo} {rs : List SecondRecord} {q : Nat} {r : SecondRecord}

/-- The times are right after every index flush of the run. -/
def IntervalsRight (e : Emmc) (c : ConfigInfo) (rs : List SecondRecord) : Prop :=
  ∀ q r, rs[64 * q + 63]? = some r → IntervalRight
    ((adcRecorder (.boot e c)).run ((rs.take (64 * (q + 1))).map .write)) (q + 1) r.ts

theorem times_run (hc : c.Fresh) (rs : List SecondRecord) :
    ∀ q, (adcLog.run (rs.map .write)).flushed = q + 1 →
      Times ((adcRecorder (.boot e c)).run (rs.map .write)) (adcLog.run (rs.map .write)) q := by
  induction rs using List.reverseRecOn with
  | nil => exact fun q hq => absurd hq (Nat.succ_ne_zero q).symm
  | append_singleton rs r ih =>
    rw [List.map_append, List.map_singleton, Machine.run_concat, Machine.run_concat]
    exact (represents_run_writes hc rs).times_write ih r.ts r.data

/-- Flush `q`, counting from 0, sets the right times exactly in the first lap. -/
theorem intervalRight_run_iff (hc : c.Fresh) (hmono : rs.Pairwise (·.ts < ·.ts))
    (hr : rs[64 * q + 63]? = some r) :
    IntervalRight ((adcRecorder (.boot e c)).run ((rs.take (64 * (q + 1))).map .write)) (q + 1)
      r.ts ↔ q < 7500 := by
  obtain ⟨hlt, hget⟩ := List.getElem?_eq_some_iff.mp hr
  obtain ⟨us, hus⟩ : ∃ us, rs.take (64 * (q + 1)) = us := ⟨_, rfl⟩
  have huslength : us.length = 64 * (q + 1) := by
    rw [← hus, List.length_take]
    omega
  have husmono : us.Pairwise (·.ts < ·.ts) := hus ▸ hmono.take
  have hlog : LogOf _ (adcLog.run (us.map .write)) := logOf_run (by rwa [writes_map_write])
  obtain ⟨hlength, -, hslot⟩ := adcLog_writes us
  have hlen : (adcLog.run (us.map .write)).length =
    64 * (adcLog.run (us.map .write)).flushed + (adcLog.run (us.map .write)).fresh := rfl
  have hle := (adcLog.run (us.map .write)).fresh_le_torn
  have htorn := (adcLog.run (us.map .write)).torn_lt
  have hflushed : (adcLog.run (us.map .write)).flushed = q + 1 := by omega
  have hnewest : (adcLog.run (us.map .write)).slot (64 * q + 63) = r := by
    rw [hslot _ (by omega), ← hget]
    simp only [← hus, List.getElem_take]
  rw [hus, ← hnewest]
  exact (represents_run_writes hc us).intervalRight_iff hlog.ordered hflushed
    (times_run hc us q hflushed)

theorem not_intervalsRight (hc : c.Fresh) (hmono : rs.Pairwise (·.ts < ·.ts))
    (hlength : 480064 ≤ rs.length) : ¬ IntervalsRight e c rs := by
  intro hall
  have hr : rs[64 * 7500 + 63]? = some rs[64 * 7500 + 63] := List.getElem?_eq_getElem (by omega)
  exact absurd ((intervalRight_run_iff hc hmono hr).mp (hall 7500 _ hr)) (Nat.lt_irrefl 7500)

/-- With timestamps that increase, every flush of a run sets the right times if and only if
the index ring never goes on past its end. -/
theorem storageWriteAdcData_interval_iff (e : Emmc) (c : ConfigInfo) (rs : List SecondRecord)
    (hc : c.Fresh) (hmono : rs.Pairwise (·.ts < ·.ts)) :
    IntervalsRight e c rs ↔ rs.length < adcIndexNumPreBlock * (adcIndexBlockNum + 1) := by
  rw [adcIndexNumPreBlock_eq, adcIndexBlockNum_eq]
  constructor
  · intro hall
    by_contra hge
    exact not_intervalsRight hc hmono (by omega) hall
  · intro hlt q r hr
    obtain ⟨hq, -⟩ := List.getElem?_eq_some_iff.mp hr
    exact (intervalRight_run_iff hc hmono hr).mpr (by omega)

end Runs

theorem storageWriteAdcData_interval_first :
    IntervalsRight (fun _ => zeroBlock) .firstOn (steadySeconds (fun _ _ => zeroBlock) 64) :=
  (storageWriteAdcData_interval_iff _ _ _ ConfigInfo.fresh_firstOn
    (steadySeconds_mono _ (by decide))).mpr (by
      rw [steadySeconds_length]
      decide)

/-- The flush that closes the first block of the second lap. -/
theorem storageWriteAdcData_interval_second_lap :
    ¬ IntervalsRight (fun _ => zeroBlock) .firstOn (steadySeconds (fun _ _ => zeroBlock) 480064) :=
  not_intervalsRight ConfigInfo.fresh_firstOn (steadySeconds_mono _ (by decide))
    (by rw [steadySeconds_length])

end Lsc100
