import Mathlib.Data.Finset.Card
import Mathlib.Data.Finset.Range
import Mathlib.Data.List.Infix
import Lsc100.Adc.Recorder

/-! How far the search for a second goes. `block_num` bounds it, counts every flush, and is
set back to the size of the index area only when `curr_block` wraps. -/

namespace Lsc100

def scanBlocks (io : AdcReadIo) (e : Emmc) (timestamp : UInt32) (blockNum num : Nat) :
    List Nat :=
  if num < blockNum then
    let step := if 10 < blockNum - num then 10 else blockNum - num
    let tables := (emmcReadBlocks (io.group num) e (fun _ => zeroBlock)
      (adcIndexStartBlock + num) step).1
    List.range' (adcIndexStartBlock + num) step ++
      if timestamp ≤ (tables.item (adcIndexNumPreBlock * step - 1)).timestamp then []
      else scanBlocks io e timestamp blockNum (num + step)
  else []
termination_by blockNum - num
decreasing_by split <;> omega

/-- The blocks that `Storage_Read_AdcData` reads while it searches. -/
def AdcStore.searchedBlocks (io : AdcReadIo) (s : AdcStore) (timestamp : UInt32) : List Nat :=
  if io.lock then
    if (s.adc.itemTables 0).timestamp ≤ timestamp ∧ timestamp ≤ s.adc.lastTimestamp then []
    else scanBlocks io s.emmc timestamp s.adc.blockNum 0
  else []

/-- The number of index blocks to which a flush has gone. -/
def AdcLog.validBlocks (l : AdcLog) : Nat :=
  ((Finset.range adcIndexBlockNum).filter fun b =>
    ∃ f ∈ Finset.range l.flushed, f % adcIndexBlockNum = b).card

/-- `block_num` counts the index blocks with entries, and the search stays in the index area. -/
structure IndexInside (s : AdcStore) (l : AdcLog) : Prop where
  blockNum_le : s.adc.blockNum ≤ adcIndexBlockNum
  blockNum_eq : s.adc.blockNum = l.validBlocks
  inside : ∀ io timestamp, ∀ b ∈ s.searchedBlocks io timestamp,
    adcIndexStartBlock ≤ b ∧ b < adcIndexStartBlock + adcIndexBlockNum

theorem mem_scanBlocks {io : AdcReadIo} {e : Emmc} {timestamp : UInt32} {blockNum num b : Nat}
    (h : b ∈ scanBlocks io e timestamp blockNum num) :
    adcIndexStartBlock + num ≤ b ∧ b < adcIndexStartBlock + blockNum := by
  induction num using Nat.strongRecMeasure (blockNum - ·) with
  | ind num ih =>
    rw [scanBlocks] at h
    split at h
    · rename_i hlt
      obtain ⟨step, hstep⟩ : ∃ step, step = if 10 < blockNum - num then 10 else blockNum - num :=
        ⟨_, rfl⟩
      simp only [← hstep] at h
      have hpos : 0 < step ∧ num + step ≤ blockNum := by
        rw [hstep]
        split <;> omega
      rw [List.mem_append, List.mem_range'_1] at h
      rcases h with h | h
      · omega
      · split at h
        · cases h
        · have := ih (num + step) (by omega) h
          omega
    · cases h

theorem searchedBlocks_bounds {io : AdcReadIo} {s : AdcStore} {timestamp : UInt32} {b : Nat}
    (h : b ∈ s.searchedBlocks io timestamp) :
    adcIndexStartBlock ≤ b ∧ b < adcIndexStartBlock + s.adc.blockNum := by
  rw [AdcStore.searchedBlocks] at h
  split at h
  · split at h
    · cases h
    · exact mem_scanBlocks h
  · cases h

theorem validBlocks_eq (l : AdcLog) : l.validBlocks = min l.flushed 7500 := by
  have hfilter : ((Finset.range adcIndexBlockNum).filter fun b =>
      ∃ f ∈ Finset.range l.flushed, f % adcIndexBlockNum = b) =
        Finset.range (min l.flushed 7500) := by
    ext b
    simp only [Finset.mem_filter, Finset.mem_range, adcIndexBlockNum_eq, lt_min_iff]
    constructor
    · rintro ⟨hb, f, hf, rfl⟩
      exact ⟨Nat.lt_of_le_of_lt (Nat.mod_le f 7500) hf, hb⟩
    · rintro ⟨hf, hb⟩
      exact ⟨hb, b, hf, Nat.mod_eq_of_lt hb⟩
  rw [AdcLog.validBlocks, hfilter, Finset.card_range]

/-- Within a later lap `block_num` is beyond the index area. -/
theorem indexInside_iff {rest : Emmc} {s : AdcStore} {l : AdcLog} (h : Represents rest s l) :
    IndexInside s l ↔ l.flushed ≤ 7500 ∨ l.flushed % 7500 = 0 := by
  have hblocks := h.blockNum
  have hvalid := validBlocks_eq l
  rw [AdcLog.indexBlocks] at hblocks
  constructor
  · intro hin
    have hle := hin.blockNum_le
    rw [adcIndexBlockNum_eq] at hle
    split at hblocks <;> omega
  · intro hlap
    have hnum : s.adc.blockNum = min l.flushed 7500 := by
      split at hblocks <;> omega
    refine ⟨by rw [adcIndexBlockNum_eq]; omega, by rw [hvalid, hnum], ?_⟩
    intro io timestamp b hb
    have hbound := searchedBlocks_bounds hb
    rw [adcIndexBlockNum_eq]
    omega

theorem flushed_step (l : AdcLog) (ev : AdcEvent) :
    l.flushed ≤ (adcLog.step l ev).flushed ∧ (adcLog.step l ev).flushed ≤ l.flushed + 1 := by
  cases ev with
  | write r =>
    change l.flushed ≤ (l.write r).flushed ∧ (l.write r).flushed ≤ l.flushed + 1
    unfold AdcLog.write
    split
    · exact ⟨Nat.le_refl _, Nat.le_succ _⟩
    · exact ⟨Nat.le_succ _, Nat.le_refl _⟩
  | reboot => exact ⟨Nat.le_refl _, Nat.le_succ _⟩

/-- Flushes come one at a time, so every number of them is passed. -/
theorem exists_flushed (es : List AdcEvent) {n : Nat} (h : n ≤ (adcLog.run es).flushed) :
    ∃ before, before <+: es ∧ (adcLog.run before).flushed = n := by
  rcases Nat.eq_zero_or_pos n with rfl | hpos
  · exact ⟨[], List.nil_prefix, rfl⟩
  · obtain ⟨before, ev, hpre, hbefore, hafter⟩ :=
      adcLog.exists_turn (p := fun l => n ≤ l.flushed) (Nat.not_le.mpr hpos) h
    have hstep := flushed_step (adcLog.run before) ev
    rw [← Machine.run_concat] at hstep
    exact ⟨before ++ [ev], hpre, by omega⟩

theorem flushed_mono {before es : List AdcEvent} (h : before <+: es) :
    (adcLog.run before).flushed ≤ (adcLog.run es).flushed := by
  obtain ⟨after, rfl⟩ := h
  induction after using List.reverseRecOn with
  | nil => rw [List.append_nil]
  | append_singleton after ev ih =>
    rw [← List.append_assoc, Machine.run_concat]
    exact ih.trans (flushed_step _ ev).1

/-- Every state of the run keeps its search inside the index area. -/
def StaysInside (e : Emmc) (c : ConfigInfo) (es : List AdcEvent) : Prop :=
  ∀ before, before <+: es →
    IndexInside ((adcRecorder (.boot e c)).run before) (adcLog.run before)

/-- The search stays inside up to the flush that fills the index area, and not beyond. -/
theorem staysInside_iff (e : Emmc) (c : ConfigInfo) (es : List AdcEvent)
    (hflag : c.flag = devFlagNextOn) (hc : c.Fresh) :
    StaysInside e c es ↔ (adcLog.run es).flushed ≤ adcIndexBlockNum := by
  rw [adcIndexBlockNum_eq]
  constructor
  · intro hall
    by_contra hmore
    obtain ⟨before, hpre, hflushed⟩ := exists_flushed es (n := 7501) (by omega)
    have hlap := (indexInside_iff (represents_run hflag hc before).1).mp (hall before hpre)
    omega
  · intro hle before hpre
    have hmono := flushed_mono hpre
    exact (indexInside_iff (represents_run hflag hc before).1).mpr (.inl (by omega))

theorem flushed_restart {rs : List SecondRecord} (h : rs.length = 480063)
    (r : SecondRecord) : (adcLog.run (rs.map .write ++ [.reboot, .write r])).flushed = 7500 := by
  obtain ⟨hlength, -, -⟩ := adcLog_writes rs
  rw [Machine.run_append]
  have hfresh := (adcLog.run (rs.map .write)).fresh_le_torn
  have htorn := (adcLog.run (rs.map .write)).torn_lt
  have hwrite := (adcLog.run (rs.map .write)).reboot.write_room r (by simp [AdcLog.reboot])
  rw [AdcLog.length] at hlength
  refine hwrite.1.trans ?_
  change (adcLog.run (rs.map .write)).flushed = 7500
  omega

/-- All index blocks are written, then comes a restart and one more record. -/
theorem staysInside_lap : StaysInside (fun _ => zeroBlock) .nextOn
    ((List.replicate 480063 ⟨0, fun _ => zeroBlock⟩).map .write ++
      [.reboot, .write ⟨0, fun _ => zeroBlock⟩]) :=
  (staysInside_iff (fun _ => zeroBlock) .nextOn _ rfl ConfigInfo.fresh_nextOn).mpr
    (Nat.le_of_eq (flushed_restart List.length_replicate _))

theorem not_staysInside (e : Emmc) {rs : List SecondRecord} (h : 480064 ≤ rs.length) :
    ¬ StaysInside e .nextOn (rs.map .write) := by
  rw [staysInside_iff _ _ _ rfl ConfigInfo.fresh_nextOn, adcIndexBlockNum_eq]
  obtain ⟨hlength, -, -⟩ := adcLog_writes rs
  have hfresh := (adcLog.run (rs.map .write)).fresh_le_torn
  have htorn := (adcLog.run (rs.map .write)).torn_lt
  rw [AdcLog.length] at hlength
  omega

/-- With 480064 records the first index block is written for the second time. -/
theorem secondLap_outside : ¬ StaysInside (fun _ => zeroBlock) .nextOn
    ((List.replicate 480064 ⟨0, fun _ => zeroBlock⟩).map .write) :=
  not_staysInside _ (Nat.le_of_eq List.length_replicate.symm)

end Lsc100
