import Lsc100.Alarm.Agree
import Lsc100.Device.DeadEnd
import Lsc100.Device.Kept

/-! `kt_ClearData` on a recording device. It puts the counters and the flash back,
but leaves `item_index` with the RAM index table, and its `DEV_FLAG_FIRST_ON` closes
the gate of `sample_task` until the next boot. -/

namespace Lsc100

structure AdcObject.Empty (adc : AdcObject) : Prop where
  addr : adc.addr = 0
  indexAddr : adc.indexAddr = adcIndexStartBlock
  blockNum : adc.blockNum = 0
  currBlock : adc.currBlock = 0
  itemIndex : adc.itemIndex = 0

namespace Device

/-- The locks are obtained, and the reply has status 1. -/
def ktClearData (s : Device) : Device :=
  let alarm := storageClearAlarmData true
    { s.alarm.store with config := s.alarm.store.config.cleared }
  let adc := storageClearAdcData true { s.adc with config := s.adc.config.cleared }
  { s with
    alarm := { s.alarm with store := { alarm with configStatus := true } }
    adc := { adc with configStatus := true } }

/-- A second handed to the sample store, or found in it. -/
def RecordedAdc (s : Device) (ts : UInt32) : Prop :=
  (∃ r ∈ s.flow.handed, r.ts = ts) ∨ (s.readAdcData ts).1 = 0

/-- An alarm the log has. -/
def RecordedAlarm (s : Device) (ts : UInt32) : Prop :=
  (storageReadAlarmInfo true s.alarm.store ts 0 (fun _ => 0) 0).1 = 0

/-- A fresh, working recorder: nothing of the old recordings is found, the object is
that of an empty store, samples get past the gate of `sample_task` in all that
follows, and what is recorded then is found. -/
structure Restored (s s' : Device) : Prop where
  adcUnread : ∀ ts, s.RecordedAdc ts → ∀ blockOff data blockNum,
    (storageReadAdcData .ok s'.adc ts blockOff data blockNum).1 = -1
  alarmUnread : ∀ ts, s.RecordedAlarm ts → ∀ off data len,
    (storageReadAlarmInfo true s'.alarm.store ts off data len).1 = -1
  empty : s'.adc.adc.Empty
  records : ∀ es, ((device s').run es).Recording
  retrievable : ∀ es, ∀ r ∈ ((device s').run es).flow.handed.drop s'.flow.handed.length,
    (((device s').run es).readAdcData r.ts).1 = 0

section Clear

variable (s : Device)

theorem alarmTask_flag (records : UInt32 → Nat → UInt8) (lock ok : Bool) (a : AlarmSystem) :
    (a.alarmTask records lock ok).store.config.flag = a.store.config.flag := by
  cases hpc : a.pc with
  | write timestamp flag =>
    simp only [AlarmSystem.alarmTask, hpc]
    exact (storageWriteAlarmInfo_flags ..).2
  | store msg =>
    simp only [AlarmSystem.alarmTask, hpc]
    cases lock <;> rfl
  | wait | drain | read =>
    simp only [AlarmSystem.alarmTask, hpc]
    split <;> rfl
  | relay | led | load | incr | args => simp only [AlarmSystem.alarmTask, hpc]

theorem step_flag (e : DeviceStep) :
    (s.step e).alarm.store.config.flag = s.alarm.store.config.flag := by
  cases e with
  | sample reading rawAdc =>
    have hcheck : ∀ (a : AlarmSystem) bootTs item, (a.check bootTs true item).store = a.store := by
      intro a bootTs item
      rw [AlarmSystem.check]
      split <;> rfl
    rw [step, sample]
    simp only
    split
    · split
      · rfl
      · rw [hcheck]
        rfl
    · rfl
  | tick rtcBaseSec =>
    rw [step, tick]
    split <;> rfl
  | save =>
    rw [step, save, AlarmSystem.save]
    split <;> rfl
  | turn => rfl
  | alarmTask => exact alarmTask_flag ..

/-- Whatever the tasks do then, no sample gets past the gate. -/
theorem not_recording_clear (es : List DeviceStep) :
    ¬ ((device s.ktClearData).run es).Recording := by
  have hstep : ∀ t e, t.alarm.store.config.flag = devFlagFirstOn →
      ((device s.ktClearData).step t e).alarm.store.config.flag = devFlagFirstOn :=
    fun t e h => (t.step_flag e).trans h
  have hflag := (device s.ktClearData).invariant_runFrom_of_step hstep es
    (rfl : s.ktClearData.alarm.store.config.flag = devFlagFirstOn)
  rintro ⟨-, hnext⟩
  exact absurd (hflag.symm.trans hnext) (by decide)

/-- Of the alarm log nothing is found; only the timestamp of a blank entry is. -/
theorem alarmUnread_clear {ts : UInt32} (hts : ts ≠ 0xFFFFFFFF) (off : Nat) (data : Nat → UInt8)
    (len : Nat) :
    (storageReadAlarmInfo true s.ktClearData.alarm.store ts off data len).1 = -1 := by
  have hblank : ∀ j, (indexEntry (gd55b01geEraseChip s.alarm.store.flash) j).timestamp =
      0xFFFFFFFF := fun j => (by decide +kernel : UInt32.ofNat (Bytes.leNat 4 fun _ => 0xFF) = _)
  have hsearch : searchIndex s.ktClearData.alarm.store.flash ts
      s.ktClearData.alarm.store.alarm.indexNum 0 (alarmIndexStartAddr + 16 * 0) = none :=
    searchIndex_none (gd55b01geEraseChip s.alarm.store.flash) rfl (by decide) (Nat.zero_le 640)
      fun j _ _ => (hblank j).symm ▸ hts
  rw [Nat.mul_zero, Nat.add_zero] at hsearch
  rw [storageReadAlarmInfo, if_pos rfl, hsearch]

theorem empty_clear : s.ktClearData.adc.adc.Empty ↔ s.adc.adc.itemIndex = 0 :=
  ⟨fun h => h.itemIndex, fun h => ⟨rfl, rfl, rfl, rfl, h⟩⟩

/-- The seconds of the RAM index are still found, and no others. -/
theorem readAdcData_clear (ts : UInt32) (blockOff : Nat) (data : Blocks) (blockNum : Nat) :
    (storageReadAdcData .ok s.ktClearData.adc ts blockOff data blockNum).1 = 0 ↔
      (s.adc.adc.itemTables 0).timestamp ≤ ts ∧ ts ≤ s.adc.adc.lastTimestamp ∧
        ∃ i < s.adc.adc.itemIndex, (s.adc.adc.itemTables i).timestamp = ts := by
  have hlookup : s.ktClearData.adc.lookup .ok ts =
      if (s.adc.adc.itemTables 0).timestamp ≤ ts ∧ ts ≤ s.adc.adc.lastTimestamp then
        ((List.range s.adc.adc.itemIndex).find?
          (fun i => ts = (s.adc.adc.itemTables i).timestamp)).map s.adc.adc.itemTables
      else none := by
    have hscan : scanIndex .ok s.ktClearData.adc.emmc ts s.ktClearData.adc.adc.blockNum 0 = none := by
      rw [scanIndex]
      exact if_neg (Nat.lt_irrefl 0)
    rw [AdcStore.lookup, hscan]
    rfl
  have hlock : AdcReadIo.ok.lock = true := rfl
  have hfailed : ¬ (-1 : Int) = 0 := by decide
  rw [storageReadAdcData, if_pos hlock, hlookup]
  by_cases hbounds : (s.adc.adc.itemTables 0).timestamp ≤ ts ∧ ts ≤ s.adc.adc.lastTimestamp
  · rw [if_pos hbounds]
    cases hfind : (List.range s.adc.adc.itemIndex).find?
        (fun i => ts = (s.adc.adc.itemTables i).timestamp) with
    | none =>
      rw [List.find?_range_eq_none] at hfind
      refine iff_of_false hfailed fun h => ?_
      obtain ⟨-, -, i, hi, hts⟩ := h
      simpa [hts] using hfind i hi
    | some i =>
      have hi := List.mem_range.mp (List.mem_of_find?_eq_some hfind)
      have hts := List.find?_some hfind
      exact iff_of_true rfl ⟨hbounds.1, hbounds.2, i, hi, (of_decide_eq_true hts).symm⟩
  · rw [if_neg hbounds]
    exact iff_of_false hfailed fun h => hbounds ⟨h.1, h.2.1⟩

end Clear

end Device

/-- In no state does `kt_ClearData` restore a working recorder: the gate is closed in
all that follows. Of the rest, the alarms are gone, but the object is that of an
empty store, and its old seconds are gone, only as far as the RAM index was empty. -/
theorem ktClearData_not_restored (s : Device) :
    ¬ s.Restored s.ktClearData ∧ (∀ es, ¬ ((device s.ktClearData).run es).Recording) ∧
      (∀ ts ≠ 0xFFFFFFFF, ∀ off data len,
        (storageReadAlarmInfo true s.ktClearData.alarm.store ts off data len).1 = -1) ∧
      (s.ktClearData.adc.adc.Empty ↔ s.adc.adc.itemIndex = 0) ∧
      ∀ ts blockOff data blockNum,
        (storageReadAdcData .ok s.ktClearData.adc ts blockOff data blockNum).1 = 0 ↔
          (s.adc.adc.itemTables 0).timestamp ≤ ts ∧ ts ≤ s.adc.adc.lastTimestamp ∧
            ∃ i < s.adc.adc.itemIndex, (s.adc.adc.itemTables i).timestamp = ts :=
  ⟨fun h => s.not_recording_clear [] (h.records []), s.not_recording_clear,
    fun _ hts => s.alarmUnread_clear hts, s.empty_clear, s.readAdcData_clear⟩

/-- Cleared right after its start, the device is not restored. -/
theorem ktClearData_booted :
    ((device Device.atHundred).run []).Recording ∧
      ¬ ((device Device.atHundred).run []).Restored ((device Device.atHundred).run []).ktClearData :=
  ⟨⟨rfl, rfl⟩, fun h => absurd (h.records []).2 (by decide)⟩

end Lsc100
