import Lsc100.Device.Tasks
import Lsc100.Sample.Intake

/-! What the steps of the device do. A sample that raises no alarm does not touch
the capture, and a turn of `storage_task` writes the records it hands over. -/

namespace Lsc100

namespace AlarmSystem

/-- Neither the capture nor `alarm_task` has moved. -/
structure Unmoved (a a' : AlarmSystem) : Prop where
  pc : a'.pc = a.pc
  saveDue : a'.saveDue = a.saveDue
  store : a'.store = a.store
  alarmQueue : a'.notify.alarmQueue = a.notify.alarmQueue
  alarmSem : a'.notify.alarmSem = a.notify.alarmSem
  alarmTs : a'.notify.alarmTs = a.notify.alarmTs
  saveSta : a'.notify.saveSta = a.notify.saveSta
  index : a'.notify.index = a.notify.index

namespace Unmoved

variable {a a' a'' : AlarmSystem}

theorem refl (a : AlarmSystem) : a.Unmoved a := ⟨rfl, rfl, rfl, rfl, rfl, rfl, rfl, rfl⟩

theorem trans (h : a.Unmoved a') (h' : a'.Unmoved a'') : a.Unmoved a'' :=
  ⟨h'.pc.trans h.pc, h'.saveDue.trans h.saveDue, h'.store.trans h.store,
    h'.alarmQueue.trans h.alarmQueue, h'.alarmSem.trans h.alarmSem, h'.alarmTs.trans h.alarmTs,
    h'.saveSta.trans h.saveSta, h'.index.trans h.index⟩

end Unmoved

theorem unmoved_clear (a : AlarmSystem) (rawData : UInt16) : a.Unmoved (a.clear true rawData) := by
  rw [clear, adcClearAlarm, if_pos rfl]
  split
  · split
    · exact ⟨rfl, rfl, rfl, rfl, rfl, rfl, rfl, rfl⟩
    · exact .refl a
  · exact .refl a

theorem check_cases (bootTs : UInt32) (item : AdcItem) (a : AlarmSystem) :
    (a.notify.Raises true bootTs a.store.config item ∧ (a.check bootTs true item).pc = a.pc ∧
      (a.check bootTs true item).saveDue = a.saveDue ∧
      (a.check bootTs true item).store = a.store ∧
      ∃ n : AlarmNotify, n.alarmQueue = a.notify.alarmQueue ∧ n.alarmSem = a.notify.alarmSem ∧
        (a.check bootTs true item).notify = n.raise (alarmType a.store.config item) item) ∨
    (¬ a.notify.Raises true bootTs a.store.config item ∧
      a.Unmoved (a.check bootTs true item)) := by
  have hnotify : (a.check bootTs true item).notify =
      adcCheckAlarm true bootTs a.store.config item a.notify := by
    rw [check]
    split <;> rfl
  have hrest : (a.check bootTs true item).pc = a.pc ∧
      (a.check bootTs true item).saveDue = a.saveDue ∧
      (a.check bootTs true item).store = a.store := by
    rw [check]
    split <;> exact ⟨rfl, rfl, rfl⟩
  obtain ⟨hpc, hsaveDue, hstore⟩ := hrest
  rcases adcCheckAlarm_cases true bootTs a.store.config item a.notify with
    ⟨hraises, heq⟩ | ⟨hraises, hsame⟩
  · refine .inl ⟨hraises, hpc, hsaveDue, hstore, { a.notify with num := a.notify.num + 1 }, ?_⟩
    exact ⟨rfl, rfl, hnotify.trans heq⟩
  · rw [← hnotify] at hsame
    exact .inr ⟨hraises, hpc, hsaveDue, hstore, hsame.alarmQueue, hsame.alarmSem, hsame.alarmTs,
      hsame.saveSta, hsame.index⟩

theorem unmoved_check {a : AlarmSystem} (h : a.notify.saveSta = .strSave) (bootTs : UInt32)
    (item : AdcItem) : a.Unmoved (a.check bootTs true item) := by
  rcases a.check_cases bootTs item with ⟨hraises, -⟩ | ⟨-, hsame⟩
  · exact absurd h hraises.idle
  · exact hsame

end AlarmSystem

theorem AlarmNotify.send_wired (n : AlarmNotify) (msg : AlarmMsg) :
    (n.send msg).alarmSem = true ∨
      (n.send msg).alarmQueue = n.alarmQueue ∧ (n.send msg).alarmSem = n.alarmSem := by
  rw [send]
  split
  · exact .inl rfl
  · exact .inr ⟨rfl, rfl⟩

theorem AlarmNotify.send_length {n : AlarmNotify} (h : n.alarmQueue.length ≤ alarmQueueLength)
    (msg : AlarmMsg) : (n.send msg).alarmQueue.length ≤ alarmQueueLength := by
  rw [send]
  split
  · rename_i hroom
    rw [List.length_append, List.length_singleton]
    exact hroom
  · exact h

theorem Flowing.write_cases {s : SampleFlow} (h : Flowing s) (item : AdcItem) :
    (s.cache.count < adcCacheMax ∧ (s.write true item).delivered = s.delivered ++ [item]) ∨
      (s.cache.count = adcCacheMax ∧ s.write true item = s) := by
  have hcount := h.holds.count
  have hle := h.holds.count_le
  rw [adcCacheMax_eq]
  rcases Nat.lt_or_eq_of_le hle with hroom | hfull
  · refine .inl ⟨hroom, ?_⟩
    simp only [SampleFlow.write, (h.holds.writeOne item (by omega)).1, if_true]
  · refine .inr ⟨hfull, ?_⟩
    simp only [SampleFlow.write, h.holds.writeOne_full item (by omega)]
    rfl

/-- A turn hands over at most one record, with the second of a sample. -/
theorem Flowing.turn_handed {s : SampleFlow} (h : Flowing s) (countLock readLock : Bool) :
    ∃ new : List HandedRecord, (s.turn countLock readLock).handed = s.handed ++ new ∧
      new.length ≤ 1 ∧ s.consumed + 100 * new.length ≤ (s.turn countLock readLock).consumed ∧
      ∀ r ∈ new, ∃ it ∈ s.delivered, r.ts = UInt32.ofNat (it.ts.toNat / 1000) := by
  cases hrun : s.overrun with
  | true =>
    rw [SampleFlow.turn, if_pos hrun]
    exact ⟨[], (List.append_nil _).symm, Nat.zero_le _, Nat.le_refl _,
      fun r hr => absurd hr List.not_mem_nil⟩
  | false =>
    obtain ⟨k, hk, hindex⟩ := h.index hrun
    have hspec := h.turn_spec hrun hk hindex countLock readLock
    generalize s.turn countLock readLock = s' at hspec
    cases hspec with
    | idle =>
      exact ⟨[], (List.append_nil _).symm, Nat.zero_le _, Nat.le_refl _,
        fun r hr => absurd hr List.not_mem_nil⟩
    | past b =>
      exact ⟨[], (List.append_nil _).symm, Nat.zero_le _, Nat.le_add_right _ _,
        fun r hr => absurd hr List.not_mem_nil⟩
    | filled b =>
      exact ⟨[], (List.append_nil _).symm, Nat.zero_le _, Nat.le_add_right _ _,
        fun r hr => absurd hr List.not_mem_nil⟩
    | ended b hk' hj hend =>
      refine ⟨[_], rfl, Nat.le_refl _, Nat.le_refl _, fun r hr => ?_⟩
      rw [List.mem_singleton] at hr
      subst hr
      exact ⟨_, List.mem_of_getElem? (b.new _ hj), rfl⟩

namespace Device

variable {s : Device} {reading : AdcItem} {rawAdc : UInt16}

def Sampled (s : Device) (reading : AdcItem) : Prop :=
  s.Recording ∧ (s.nextItem reading).isIdle = false

instance (s : Device) (reading : AdcItem) : Decidable (s.Sampled reading) :=
  inferInstanceAs (Decidable (_ ∧ _))

theorem sample_frame (s : Device) (reading : AdcItem) (rawAdc : UInt16) :
    (s.sample reading rawAdc).adc = s.adc ∧
      (s.sample reading rawAdc).rtcBaseSec = s.rtcBaseSec ∧
      (s.sample reading rawAdc).bootTs = s.bootTs ∧
      (s.sample reading rawAdc).sampleTick = s.sampleTick + 1 ∧
      (s.sample reading rawAdc).item = s.nextItem reading := by
  rw [sample]
  simp only
  split
  · split <;> exact ⟨rfl, rfl, rfl, rfl, rfl⟩
  · exact ⟨rfl, rfl, rfl, rfl, rfl⟩

theorem sample_skipped (h : ¬ s.Sampled reading) :
    s.alarm.Unmoved (s.sample reading rawAdc).alarm ∧ (s.sample reading rawAdc).flow = s.flow := by
  rw [sample]
  simp only
  split
  · rename_i hrec
    split
    · exact ⟨s.alarm.unmoved_clear rawAdc, rfl⟩
    · rename_i hidle
      exact absurd ⟨hrec, Bool.eq_false_iff.mpr hidle⟩ h
  · exact ⟨.refl _, rfl⟩

theorem sample_taken (h : s.Sampled reading) :
    (s.sample reading rawAdc).alarm =
        (s.alarm.clear true rawAdc).check s.bootTs true (s.nextItem reading) ∧
      (s.sample reading rawAdc).flow = s.flow.write true (s.nextItem reading) := by
  have hrec : ({ s with item := s.nextItem reading, sampleTick := s.sampleTick + 1 } :
      Device).Recording := h.1
  have hidle : ¬ (s.nextItem reading).isIdle = true := by simp [h.2]
  rw [sample]
  simp only [hrec, hidle, if_true, Bool.false_eq_true, if_false]
  exact ⟨trivial, trivial⟩

theorem sample_handed (s : Device) (reading : AdcItem) (rawAdc : UInt16) :
    (s.sample reading rawAdc).flow.handed = s.flow.handed ∧
      (s.sample reading rawAdc).flow.consumed = s.flow.consumed := by
  by_cases htaken : s.Sampled reading
  · rw [(sample_taken htaken).2]
    exact ⟨rfl, rfl⟩
  · rw [(sample_skipped htaken).2]
    exact ⟨rfl, rfl⟩

theorem sample_pc (s : Device) (reading : AdcItem) (rawAdc : UInt16) :
    (s.sample reading rawAdc).alarm.pc = s.alarm.pc := by
  by_cases htaken : s.Sampled reading
  · have hclear := s.alarm.unmoved_clear rawAdc
    rw [(sample_taken htaken).1]
    rcases (s.alarm.clear true rawAdc).check_cases s.bootTs (s.nextItem reading) with
      ⟨-, hpc, -⟩ | ⟨-, hsame⟩
    · exact hpc.trans hclear.pc
    · exact hsame.pc.trans hclear.pc
  · exact (sample_skipped htaken).1.pc

theorem sample_fresh (hphase : s.sampleTick % 1000 = 0) (item reading : AdcItem)
    (rawAdc : UInt16) : ({ s with item := item } : Device).sample reading rawAdc =
      s.sample reading rawAdc := by
  have hnext : ({ s with item := item } : Device).nextItem reading = s.nextItem reading := by
    rw [nextItem, nextItem, if_pos hphase, if_pos hphase]
  rw [sample, sample, hnext]

/-- An open capture is not touched by samples. -/
theorem sample_unmoved (h : s.alarm.notify.saveSta = .strSave) (reading : AdcItem)
    (rawAdc : UInt16) : s.alarm.Unmoved (s.sample reading rawAdc).alarm := by
  by_cases htaken : s.Sampled reading
  · have hclear := s.alarm.unmoved_clear rawAdc
    rw [(sample_taken htaken).1]
    exact hclear.trans (AlarmSystem.unmoved_check (hclear.saveSta.trans h) _ _)
  · exact (sample_skipped htaken).1

def nextSec (s : Device) : Nat :=
  if s.sampleTick % 1000 = 0 then s.rtcBaseSec.toNat else s.item.ts.toNat / 1000

/-- Within a group of 1000 samples time goes on by itself, behind the clock. -/
structure Timed (s : Device) : Prop where
  phase : s.sampleTick % 1000 ≠ 0 → s.item.ts.toNat % 1000 + 1 = s.sampleTick % 1000
  behind : s.item.ts.toNat / 1000 ≤ s.rtcBaseSec.toNat

namespace Timed

theorem congr (h : s.Timed) {t : Device} (htick : t.sampleTick = s.sampleTick)
    (hitem : t.item = s.item) (hrtc : t.rtcBaseSec = s.rtcBaseSec) : t.Timed :=
  ⟨by rw [htick, hitem]; exact h.phase, by rw [hitem, hrtc]; exact h.behind⟩

theorem nextSec_le (h : s.Timed) : s.nextSec ≤ s.rtcBaseSec.toNat := by
  rw [nextSec]
  split
  · exact Nat.le_refl _
  · exact h.behind

theorem nextItem_ts (h : s.Timed) (reading : AdcItem) :
    (s.nextItem reading).ts.toNat = 1000 * s.nextSec + s.sampleTick % 1000 := by
  have hrtc := s.rtcBaseSec.toNat_lt
  have hbehind := h.behind
  rw [nextItem, nextSec]
  by_cases hphase : s.sampleTick % 1000 = 0
  · rw [if_pos hphase, if_pos hphase, hphase]
    simp only [UInt64.toNat_mul, UInt32.toNat_toUInt64, UInt64.reduceToNat]
    omega
  · have hmod := h.phase hphase
    rw [if_neg hphase, if_neg hphase]
    simp only [UInt64.toNat_add, UInt64.reduceToNat]
    omega

theorem nextItem_sec (h : s.Timed) (reading : AdcItem) :
    (s.nextItem reading).ts.toNat / 1000 = s.nextSec := by
  rw [h.nextItem_ts]
  omega

theorem nextItem_isLast (h : s.Timed) (reading : AdcItem) :
    (s.nextItem reading).isLast = decide (s.sampleTick % 1000 = 999) := by
  rw [AdcItem.isLast, h.nextItem_ts]
  congr 1
  rw [Nat.mul_add_mod, Nat.mod_mod]

theorem boot (adc : AdcStore) (rtcBaseSec : UInt32) : (Device.boot adc rtcBaseSec).Timed := by
  have hrtc := rtcBaseSec.toNat_lt
  refine ⟨fun h => absurd rfl h, ?_⟩
  simp only [Device.boot, UInt64.toNat_mul, UInt32.toNat_toUInt64, UInt64.reduceToNat]
  omega

theorem sample (h : s.Timed) (reading : AdcItem) (rawAdc : UInt16) :
    (s.sample reading rawAdc).Timed := by
  have hts := h.nextItem_ts reading
  have hle := h.nextSec_le
  obtain ⟨-, hrtc, -, htick, hitem⟩ := s.sample_frame reading rawAdc
  refine ⟨fun hphase => ?_, ?_⟩
  · rw [htick] at hphase
    rw [hitem, htick, hts]
    omega
  · rw [hitem, hrtc, hts]
    omega

theorem tick (h : s.Timed) {t : UInt32} (ht : s.rtcBaseSec ≤ t) : (s.tick t).Timed := by
  rw [Device.tick]
  split
  · exact h
  · exact ⟨h.phase, Nat.le_trans h.behind (UInt32.le_iff_toNat_le.mp ht)⟩

end Timed

theorem Timed.step (h : s.Timed) {e : DeviceStep} (he : s.Clock e) : (s.step e).Timed := by
  cases e with
  | sample reading rawAdc => exact h.sample reading rawAdc
  | tick t => exact h.tick he
  | save => exact h.congr rfl rfl rfl
  | turn => exact h.congr rfl rfl rfl
  | alarmTask => exact h.congr rfl rfl rfl

theorem flowing_step (h : Flowing s.flow) (e : DeviceStep) : Flowing (s.step e).flow := by
  cases e with
  | sample reading rawAdc =>
    by_cases htaken : s.Sampled reading
    · rw [Device.step, (sample_taken htaken).2]
      exact (h.write true _).1
    · rw [Device.step, (sample_skipped htaken).2]
      exact h
  | tick t =>
    rw [Device.step, tick]
    split <;> exact h
  | save => exact h
  | turn => exact (h.turn true true).1
  | alarmTask => exact h

theorem turn_adc (hflow : Flowing s.flow) : ∃ new : List HandedRecord,
    s.turn.flow.handed = s.flow.handed ++ new ∧ new.length ≤ 1 ∧
      s.flow.consumed + 100 * new.length ≤ s.turn.flow.consumed ∧
      (∀ r ∈ new, ∃ it ∈ s.flow.delivered, r.ts = UInt32.ofNat (it.ts.toNat / 1000)) ∧
      s.turn.adc = (new.map HandedRecord.second).foldl
        (fun adc r => (storageWriteAdcData .ok adc r.ts r.data 125 true).1) s.adc := by
  obtain ⟨new, hhanded, hone, hcons, hnew⟩ := hflow.turn_handed true true
  refine ⟨new, hhanded, hone, hcons, hnew, ?_⟩
  rw [turn]
  simp only [hhanded, List.drop_left]

end Device

end Lsc100
