import Lsc100.Adc.Found
import Lsc100.Device.Steps

/-! What keeps a capture alive: every second still to be captured has been cached
so that `storage_task` hands it over, or it is being sampled and still can be, or
the clock has not passed it. -/

namespace Lsc100

/-- When `n` samples of a second have passed, its last one can still hand it over. -/
def Intake.Open (b : Intake) (n : Nat) : Prop := b.base ≤ 1000 ∧ n + b.wait ≤ 999

namespace Device

/-- The last sample of the second has been cached, and hands it over. -/
def Stored (s : Device) (sec : Nat) : Prop :=
  ∃ it ∈ (intake s.flow.delivered).handed, it.ts.toNat / 1000 = sec

/-- The second is being sampled, and can still be handed over. -/
structure Running (s : Device) (sec : Nat) : Prop where
  phase : s.sampleTick % 1000 ≠ 0
  second : s.item.ts.toNat / 1000 = sec
  enough : (intake s.flow.delivered).Open (s.sampleTick % 1000)

def Held (s : Device) (sec : Nat) : Prop :=
  s.Stored sec ∨ s.rtcBaseSec.toNat ≤ sec ∨ s.Running sec

def Caches (s : Device) (reading : AdcItem) : Prop :=
  s.Sampled reading ∧ s.flow.cache.count < adcCacheMax

instance (s : Device) (reading : AdcItem) : Decidable (s.Caches reading) :=
  inferInstanceAs (Decidable (_ ∧ _))

def intakeAfter (s : Device) (reading : AdcItem) : Intake :=
  if s.Caches reading then (intake s.flow.delivered).push (s.nextItem reading)
  else intake s.flow.delivered

/-- The sample does not take the last chance from its second. -/
def Spares (s : Device) (reading : AdcItem) : Prop :=
  s.Stored s.nextSec ∨ s.rtcBaseSec.toNat ≤ s.nextSec ∨
    (s.Caches reading ∧ (intake s.flow.delivered).HandsOver (s.nextItem reading)) ∨
    s.sampleTick % 1000 ≠ 999 ∧ (s.intakeAfter reading).Open (s.sampleTick % 1000 + 1)

def RaisesAt (s : Device) (reading : AdcItem) (rawAdc : UInt16) : Prop :=
  s.Sampled reading ∧ (s.alarm.clear true rawAdc).notify.Raises true s.bootTs
    s.alarm.store.config (s.nextItem reading)

/-- There are seconds still to be captured. -/
def Wants (s : Device) : Prop :=
  s.alarm.notify.saveSta = .strSave ∧ s.alarm.notify.index.toNat < 3

/-- A second still to be captured is not given up, and an alarm finds the second
before it cached and the clock not ahead of the second after it. Meanwhile the
buffer of `storage_task` does not run over. -/
structure SampleSafe (s : Device) (reading : AdcItem) (rawAdc : UInt16) : Prop where
  fits : s.Wants → (s.intakeAfter reading).base ≤ 1000
  wanted : s.Wanted s.nextSec → s.Spares reading
  raised : s.RaisesAt reading rawAdc → s.Stored (s.nextSec - 1) ∧ s.Spares reading ∧
    s.rtcBaseSec.toNat ≤ s.nextSec + 1 ∧ (s.intakeAfter reading).base ≤ 1000

/-- The clock does not pass a second still to be captured before it is sampled,
and no lost update has driven `index` up. -/
def Safe (s : Device) : DeviceStep → Prop
  | .sample reading rawAdc => s.SampleSafe reading rawAdc
  | .tick t => s.alarm.saveDue = false → ∀ sec, s.Wanted sec →
      s.Stored sec ∨ t.toNat ≤ sec ∨ s.Running sec
  | .alarmTask => s.alarm.notify.index.toNat < 200
  | _ => True

/-- The invariant. `l₀` is the log at the start, `since` the second of the start. -/
structure Kept (rest : Emmc) (l₀ : AdcLog) (since : Nat) (s : Device) : Prop where
  timed : s.Timed
  flowing : Flowing s.flow
  inStep : InStep s.flow
  ordered : s.flow.delivered.Pairwise fun a b => a.ts.toNat / 1000 ≤ b.ts.toNat / 1000
  range : ∀ it ∈ s.flow.delivered,
    since ≤ it.ts.toNat / 1000 ∧ it.ts.toNat / 1000 ≤ s.item.ts.toNat / 1000
  since : since ≤ s.item.ts.toNat / 1000
  log : Represents rest s.adc (l₀.writes (s.flow.handed.map HandedRecord.second))
  boot : 2 ≤ s.bootTs.toNat
  recording : s.alarm.notify.saveSta = .strSave → s.Recording
  alarmTs : s.alarm.notify.saveSta = .strSave → 1 ≤ s.alarm.notify.alarmTs.toNat ∧
    s.alarm.notify.alarmTs.toNat + 1 ≤ s.item.ts.toNat / 1000
  held : ∀ sec, s.Wanted sec → s.Held sec
  fits : s.Wants → (intake s.flow.delivered).base ≤ 1000
  queue : s.alarm.notify.alarmQueue.length ≤ alarmQueueLength
  wired : s.alarm.notify.alarmQueue = [] ∨ s.alarm.notify.alarmSem = true ∨ s.alarm.pc ≠ .wait
  due : s.alarm.saveDue = true → s.alarm.notify.saveSta = .strSave
  index : s.alarm.notify.index.toNat ≤ 200
  incr : ∀ i, s.alarm.pc = .incr i → s.alarm.notify.index.toNat ≤ i.toNat ∧ i.toNat < 200

section Sample

variable {s : Device} {reading : AdcItem} {rawAdc : UInt16}

theorem sample_delivered (hflow : Flowing s.flow) (reading : AdcItem) (rawAdc : UInt16) :
    (s.Caches reading ∧ (s.sample reading rawAdc).flow.delivered =
        s.flow.delivered ++ [s.nextItem reading]) ∨
      (¬ s.Caches reading ∧ (s.sample reading rawAdc).flow = s.flow) := by
  by_cases htaken : s.Sampled reading
  · rw [(sample_taken htaken).2]
    rcases hflow.write_cases (s.nextItem reading) with ⟨hroom, hdel⟩ | ⟨hfull, hsame⟩
    · exact .inl ⟨⟨htaken, hroom⟩, hdel⟩
    · exact .inr ⟨fun h => absurd h.2 (by omega), hsame⟩
  · exact .inr ⟨fun h => htaken h.1, (sample_skipped htaken).2⟩

theorem sample_intake (hflow : Flowing s.flow) (reading : AdcItem) (rawAdc : UInt16) :
    intake (s.sample reading rawAdc).flow.delivered = s.intakeAfter reading := by
  rw [intakeAfter]
  rcases sample_delivered hflow reading rawAdc with ⟨hcaches, hdel⟩ | ⟨hnot, hsame⟩
  · rw [if_pos hcaches, hdel, intake_concat]
  · rw [if_neg hnot, hsame]

theorem Stored.of_isPrefixOf {s t : Device} {sec : Nat} (h : s.Stored sec)
    (hpre : s.flow.delivered <+: t.flow.delivered) : t.Stored sec := by
  obtain ⟨it, hit, hts⟩ := h
  exact ⟨it, (intake_handed_isPrefixOf hpre).subset hit, hts⟩

theorem Stored.sample {sec : Nat} (h : s.Stored sec) (hflow : Flowing s.flow) :
    (s.sample reading rawAdc).Stored sec := by
  refine h.of_isPrefixOf ?_
  rcases sample_delivered hflow reading rawAdc with ⟨-, hdel⟩ | ⟨-, hsame⟩
  · exact hdel ▸ List.prefix_append _ _
  · exact hsame ▸ List.prefix_refl _

theorem Spares.held (h : s.Spares reading) (htimed : s.Timed) (hflow : Flowing s.flow) :
    (s.sample reading rawAdc).Held s.nextSec := by
  obtain ⟨-, hrtc, -, htick, hitem⟩ := s.sample_frame reading rawAdc
  have hintake := sample_intake hflow reading rawAdc
  rcases h with hstored | hclock | ⟨hcaches, hands⟩ | ⟨hphase, henough⟩
  · exact .inl (hstored.sample hflow)
  · exact .inr (.inl (hrtc ▸ hclock))
  · refine .inl ⟨s.nextItem reading, ?_, htimed.nextItem_sec reading⟩
    rw [hintake, intakeAfter, if_pos hcaches, Intake.push_handed, Intake.noted_of_handsOver hands]
    exact List.mem_concat_self
  · have htick' : (s.sample reading rawAdc).sampleTick % 1000 = s.sampleTick % 1000 + 1 := by
      rw [htick]
      omega
    refine .inr (.inr ⟨by omega, ?_, ?_⟩)
    · rw [hitem, htimed.nextItem_sec]
    · rw [hintake, htick']
      exact henough

theorem Held.sample {sec : Nat} (h : s.Held sec) (hne : sec ≠ s.nextSec)
    (hflow : Flowing s.flow) : (s.sample reading rawAdc).Held sec := by
  rcases h with hstored | hclock | hrun
  · exact .inl (hstored.sample hflow)
  · exact .inr (.inl ((s.sample_frame reading rawAdc).2.1 ▸ hclock))
  · refine absurd hrun.second.symm ?_
    rwa [nextSec, if_neg hrun.phase] at hne

theorem sample_cases (s : Device) (reading : AdcItem) (rawAdc : UInt16) :
    (s.RaisesAt reading rawAdc ∧ (s.sample reading rawAdc).alarm.pc = s.alarm.pc ∧
      (s.sample reading rawAdc).alarm.saveDue = s.alarm.saveDue ∧
      (s.sample reading rawAdc).alarm.store = s.alarm.store ∧
      ∃ n : AlarmNotify, n.alarmQueue = s.alarm.notify.alarmQueue ∧
        n.alarmSem = s.alarm.notify.alarmSem ∧ (s.sample reading rawAdc).alarm.notify =
          n.raise (alarmType s.alarm.store.config (s.nextItem reading)) (s.nextItem reading)) ∨
      (¬ s.RaisesAt reading rawAdc ∧ s.alarm.Unmoved (s.sample reading rawAdc).alarm) := by
  by_cases htaken : s.Sampled reading
  · have hclear := s.alarm.unmoved_clear rawAdc
    rw [(sample_taken htaken).1]
    rcases (s.alarm.clear true rawAdc).check_cases s.bootTs (s.nextItem reading) with
      ⟨hraises, hpc, hsaveDue, hstore, n, hqueue, hsem, hnotify⟩ | ⟨hraises, hsame⟩
    · exact .inl ⟨⟨htaken, hraises⟩, hpc.trans hclear.pc, hsaveDue.trans hclear.saveDue,
        hstore.trans hclear.store, n, hqueue.trans hclear.alarmQueue, hsem.trans hclear.alarmSem,
        hnotify⟩
    · exact .inr ⟨fun h => hraises h.2, hclear.trans hsame⟩
  · exact .inr ⟨fun h => htaken h.1, (sample_skipped htaken).1⟩

end Sample

theorem storageWriteAlarmInfo_flags (lock : Bool) (s : AlarmStore) (timestamp : UInt32) (off : Nat)
    (data : Nat → UInt8) (len : Nat) (flag : Bool) :
    (storageWriteAlarmInfo lock s timestamp off data len flag).1.config.calFlag =
        s.config.calFlag ∧
      (storageWriteAlarmInfo lock s timestamp off data len flag).1.config.flag = s.config.flag := by
  rw [storageWriteAlarmInfo]
  split
  · split
    · exact ⟨rfl, rfl⟩
    · simp only
      split <;> exact ⟨rfl, rfl⟩
  · exact ⟨rfl, rfl⟩

namespace Kept

variable {rest : Emmc} {l₀ : AdcLog} {since : Nat} {s : Device} {reading : AdcItem}
  {rawAdc : UInt16}

theorem sample_stream (h : Kept rest l₀ since s) (reading : AdcItem) (rawAdc : UInt16) :
    InStep (s.sample reading rawAdc).flow ∧
      ((s.sample reading rawAdc).flow.delivered.Pairwise fun a b =>
        a.ts.toNat / 1000 ≤ b.ts.toNat / 1000) ∧
      (∀ it ∈ (s.sample reading rawAdc).flow.delivered,
        since ≤ it.ts.toNat / 1000 ∧ it.ts.toNat / 1000 ≤ s.nextSec) ∧
      s.item.ts.toNat / 1000 ≤ s.nextSec := by
  have hsec := h.timed.nextItem_sec reading
  have hnext : s.item.ts.toNat / 1000 ≤ s.nextSec := by
    rw [nextSec]
    split
    · exact h.timed.behind
    · exact Nat.le_refl _
  have hold : ∀ it ∈ s.flow.delivered, since ≤ it.ts.toNat / 1000 ∧
      it.ts.toNat / 1000 ≤ s.nextSec := fun it hit =>
    ⟨(h.range it hit).1, Nat.le_trans (h.range it hit).2 hnext⟩
  rcases sample_delivered h.flowing reading rawAdc with
    ⟨hcaches, hdel⟩ | ⟨-, hsame⟩
  · rw [(sample_taken hcaches.1).2] at hdel ⊢
    refine ⟨h.inStep.write h.flowing true _, ?_, ?_, hnext⟩
    · rw [hdel, List.pairwise_append]
      refine ⟨h.ordered, List.pairwise_singleton .., fun a ha b hb => ?_⟩
      rw [List.mem_singleton.mp hb, hsec]
      exact (hold a ha).2
    · rw [hdel]
      intro it hit
      rcases List.mem_append.mp hit with hit | hit
      · exact hold it hit
      · rw [List.mem_singleton.mp hit, hsec]
        exact ⟨Nat.le_trans h.since hnext, Nat.le_refl _⟩
  · rw [hsame]
    exact ⟨h.inStep, h.ordered, hold, hnext⟩

/-- What a sample does to the streams keeps the invariant; the capture is left to show. -/
theorem sample_withAlarm (h : Kept rest l₀ since s)
    (hrecording : (s.sample reading rawAdc).alarm.notify.saveSta = .strSave →
      (s.sample reading rawAdc).Recording)
    (halarmTs : (s.sample reading rawAdc).alarm.notify.saveSta = .strSave →
      1 ≤ (s.sample reading rawAdc).alarm.notify.alarmTs.toNat ∧
        (s.sample reading rawAdc).alarm.notify.alarmTs.toNat + 1 ≤ s.nextSec)
    (hheld : ∀ sec, (s.sample reading rawAdc).Wanted sec → (s.sample reading rawAdc).Held sec)
    (hfits : (s.sample reading rawAdc).Wants → (s.intakeAfter reading).base ≤ 1000)
    (hqueue : (s.sample reading rawAdc).alarm.notify.alarmQueue.length ≤ alarmQueueLength)
    (hwired : (s.sample reading rawAdc).alarm.notify.alarmQueue = [] ∨
      (s.sample reading rawAdc).alarm.notify.alarmSem = true ∨
      (s.sample reading rawAdc).alarm.pc ≠ .wait)
    (hdue : (s.sample reading rawAdc).alarm.saveDue = true →
      (s.sample reading rawAdc).alarm.notify.saveSta = .strSave)
    (hindex : (s.sample reading rawAdc).alarm.notify.index.toNat ≤ 200)
    (hincr : ∀ i, (s.sample reading rawAdc).alarm.pc = .incr i →
      (s.sample reading rawAdc).alarm.notify.index.toNat ≤ i.toNat ∧ i.toNat < 200) :
    Kept rest l₀ since (s.sample reading rawAdc) := by
  obtain ⟨hadc, -, hboot, -, hitem⟩ := s.sample_frame reading rawAdc
  obtain ⟨hinStep, hordered, hrange, hnext⟩ := h.sample_stream reading rawAdc
  have hsec : (s.sample reading rawAdc).item.ts.toNat / 1000 = s.nextSec := by
    rw [hitem, h.timed.nextItem_sec]
  refine ⟨h.timed.sample reading rawAdc, flowing_step h.flowing (.sample reading rawAdc),
    hinStep, hordered, ?_, ?_, ?_, hboot ▸ h.boot, hrecording, ?_, hheld, ?_, hqueue, hwired,
    hdue, hindex, hincr⟩
  · rwa [hsec]
  · rw [hsec]
    exact Nat.le_trans h.since hnext
  · rw [hadc, (s.sample_handed reading rawAdc).1]
    exact h.log
  · rwa [hsec]
  · rwa [sample_intake h.flowing]

/-- The capture begins with the second before the alarm. -/
theorem raised_ts (h : Kept rest l₀ since s) (hraises : s.RaisesAt reading rawAdc) (type : UInt8) :
    2 ≤ s.nextSec ∧
      ((AlarmMsg.ofItem type (s.nextItem reading)).ts - 1).toNat = s.nextSec - 1 := by
  have hmsg : (AlarmMsg.ofItem type (s.nextItem reading)).ts.toNat = s.nextSec := by
    have hclock := h.timed.nextSec_le
    have hlt := s.rtcBaseSec.toNat_lt
    simp only [AlarmMsg.ofItem, UInt64.toNat_toUInt32, UInt64.toNat_div, UInt64.reduceToNat,
      h.timed.nextItem_sec]
    exact Nat.mod_eq_of_lt (by omega)
  have hbooted : s.bootTs.toNat ≤ s.nextSec := by
    have hge := UInt64.not_lt.mp hraises.2.boot
    rw [UInt64.le_iff_toNat_le, UInt64.toNat_div] at hge
    rw [← h.timed.nextItem_sec reading]
    simpa using hge
  have htwo := Nat.le_trans h.boot hbooted
  refine ⟨htwo, ?_⟩
  rw [UInt32.toNat_sub_of_le _ _ (by rw [UInt32.le_iff_toNat_le, hmsg]; simp; omega), hmsg]
  rfl

theorem sample (h : Kept rest l₀ since s) (hsafe : s.SampleSafe reading rawAdc) :
    Kept rest l₀ since (s.sample reading rawAdc) := by
  rcases s.sample_cases reading rawAdc with
    ⟨hraises, hpc, hdue, hstore, n, hqueue, hsem, hnotify⟩ | ⟨-, hsame⟩
  · obtain ⟨hbefore, hspares, hclock, hfits⟩ := hsafe.raised hraises
    obtain ⟨-, hsta, hts, hindex, hqueue'⟩ := n.raise_fields
      (alarmType s.alarm.store.config (s.nextItem reading)) (s.nextItem reading)
    rw [← hnotify] at hsta hts hindex hqueue'
    obtain ⟨htwo, halarmTs⟩ :=
      h.raised_ts hraises (alarmType s.alarm.store.config (s.nextItem reading))
    rw [← hts] at halarmTs
    refine h.sample_withAlarm (fun _ => ?_) (fun _ => ?_) (fun sec hwanted => ?_) (fun _ => hfits)
      ?_ ?_ (fun _ => hsta) ?_ fun i hi => ?_
    · rw [Recording, hstore]
      exact hraises.1.1
    · rw [halarmTs]
      omega
    · have hlower := hwanted.lower
      have hupper := hwanted.upper
      rw [halarmTs] at hlower hupper
      have hcases : sec = s.nextSec - 1 ∨ sec = s.nextSec ∨ sec = s.nextSec + 1 := by omega
      rcases hcases with rfl | rfl | rfl
      · exact .inl (hbefore.sample h.flowing)
      · exact hspares.held h.timed h.flowing
      · exact .inr (.inl ((s.sample_frame reading rawAdc).2.1 ▸ hclock))
    · rw [hnotify]
      refine AlarmNotify.send_length ?_ _
      rw [hqueue]
      exact h.queue
    · have hsend : (s.sample reading rawAdc).alarm.notify.alarmSem = true ∨
          (s.sample reading rawAdc).alarm.notify.alarmQueue = n.alarmQueue ∧
            (s.sample reading rawAdc).alarm.notify.alarmSem = n.alarmSem :=
        hnotify ▸ AlarmNotify.send_wired _ _
      rcases hsend with hgiven | ⟨hq, hg⟩
      · exact .inr (.inl hgiven)
      · rw [hq, hg, hqueue, hsem, hpc]
        exact h.wired
    · rw [hindex]
      decide
    · rw [hindex]
      rw [hpc] at hi
      exact ⟨Nat.zero_le _, (h.incr i hi).2⟩
  · have hsta := hsame.saveSta
    have hts := hsame.alarmTs
    have hindex := hsame.index
    refine h.sample_withAlarm (fun hopen => ?_) (fun hopen => ?_) (fun sec hwanted => ?_)
      (fun hwants => ?_) ?_ ?_ (fun hdue => ?_) ?_ fun i hi => ?_
    · rw [Recording, hsame.store]
      exact h.recording (hsta ▸ hopen)
    · rw [hts]
      obtain ⟨hpos, hle⟩ := h.alarmTs (hsta ▸ hopen)
      exact ⟨hpos, Nat.le_trans hle (h.sample_stream reading rawAdc).2.2.2⟩
    · have hwanted' : s.Wanted sec := by
        obtain ⟨hopen, hlower, hupper⟩ := hwanted
        rw [hsta] at hopen
        rw [hts, hindex] at hlower
        rw [hts] at hupper
        exact ⟨hopen, hlower, hupper⟩
      by_cases heq : sec = s.nextSec
      · subst heq
        exact (hsafe.wanted hwanted').held h.timed h.flowing
      · exact (h.held sec hwanted').sample heq h.flowing
    · obtain ⟨hopen, hlow⟩ := hwants
      exact hsafe.fits ⟨hsta ▸ hopen, hindex ▸ hlow⟩
    · rw [hsame.alarmQueue]
      exact h.queue
    · rw [hsame.alarmQueue, hsame.alarmSem, hsame.pc]
      exact h.wired
    · rw [hsta]
      exact h.due (hsame.saveDue ▸ hdue)
    · rw [hindex]
      exact h.index
    · rw [hindex]
      exact h.incr i (hsame.pc ▸ hi)

theorem tick (h : Kept rest l₀ since s) {t : UInt32} (hclock : s.rtcBaseSec ≤ t)
    (hsafe : s.Safe (.tick t)) : Kept rest l₀ since (s.tick t) := by
  have htimed := h.timed.tick hclock
  rw [Device.tick] at htimed ⊢
  split
  · exact h
  · rename_i hdue
    rw [if_neg hdue] at htimed
    refine ⟨htimed, h.flowing, h.inStep, h.ordered, h.range, h.since, h.log, h.boot,
      h.recording, h.alarmTs, fun sec hwanted => ?_, h.fits, h.queue, h.wired, fun hdue' => ?_,
      h.index, h.incr⟩
    · rcases hsafe (Bool.eq_false_iff.mpr hdue) sec
        ⟨hwanted.capturing, hwanted.lower, hwanted.upper⟩ with hstored | hle | hrun
      · exact .inl hstored
      · exact .inr (.inl hle)
      · exact .inr (.inr ⟨hrun.phase, hrun.second, hrun.enough⟩)
    · have hboth := Bool.and_eq_true _ _ ▸ hdue'
      exact of_decide_eq_true hboth.1

/-- Steps that move only the capture, and that only forward. -/
theorem withAlarm (h : Kept rest l₀ since s) (a : AlarmSystem)
    (hopen : a.notify.saveSta = .strSave → s.alarm.notify.saveSta = .strSave ∧
      a.notify.alarmTs = s.alarm.notify.alarmTs ∧
      s.alarm.notify.index.toNat ≤ a.notify.index.toNat)
    (hconfig : a.store.config.calFlag = s.alarm.store.config.calFlag ∧
      a.store.config.flag = s.alarm.store.config.flag)
    (hqueue : a.notify.alarmQueue.length ≤ alarmQueueLength)
    (hwired : a.notify.alarmQueue = [] ∨ a.notify.alarmSem = true ∨ a.pc ≠ .wait)
    (hdue : a.saveDue = true → a.notify.saveSta = .strSave) (hindex : a.notify.index.toNat ≤ 200)
    (hincr : ∀ i, a.pc = .incr i → a.notify.index.toNat ≤ i.toNat ∧ i.toNat < 200) :
    Kept rest l₀ since { s with alarm := a } := by
  refine ⟨h.timed.congr rfl rfl rfl, h.flowing, h.inStep, h.ordered, h.range, h.since, h.log,
    h.boot, fun hsta => ?_, fun hsta => ?_, fun sec hwanted => ?_, fun hwants => ?_, hqueue, hwired,
    hdue, hindex, hincr⟩
  · exact ⟨hconfig.1.trans (h.recording (hopen hsta).1).1,
      hconfig.2.trans (h.recording (hopen hsta).1).2⟩
  · obtain ⟨hsta', hts, -⟩ := hopen hsta
    rw [hts]
    exact h.alarmTs hsta'
  · obtain ⟨hsta, hlower, hupper⟩ := hwanted
    obtain ⟨hsta', hts, hle⟩ := hopen hsta
    rw [hts] at hlower hupper
    rcases h.held sec ⟨hsta', Nat.le_trans (Nat.add_le_add_left hle _) hlower, hupper⟩ with
      hstored | hclock | hrun
    · exact .inl hstored
    · exact .inr (.inl hclock)
    · exact .inr (.inr ⟨hrun.phase, hrun.second, hrun.enough⟩)
  · obtain ⟨hsta, -, hle⟩ := hopen hwants.1
    exact h.fits ⟨hsta, Nat.lt_of_le_of_lt hle hwants.2⟩

theorem save (h : Kept rest l₀ since s) : Kept rest l₀ since s.save := by
  rw [Device.save, AlarmSystem.save]
  split
  · rcases adcSaveAlarm_cases true s.alarm.notify with heq | ⟨-, -, -, heq⟩ | ⟨-, heq⟩
    · simp only [heq]
      exact h.withAlarm _ (fun hsta => ⟨hsta, rfl, Nat.le_refl _⟩) ⟨rfl, rfl⟩ h.queue h.wired
        (fun hdue => (by cases hdue)) h.index h.incr
    · simp only [heq]
      exact h.withAlarm _ (fun hsta => (by cases hsta)) ⟨rfl, rfl⟩ h.queue h.wired
        (fun hdue => (by cases hdue)) (Nat.zero_le _)
        fun i hi => ⟨Nat.zero_le _, (h.incr i hi).2⟩
    · simp only [heq]
      refine h.withAlarm _ (fun hsta => ⟨?_, ?_, ?_⟩) ⟨rfl, rfl⟩
        (AlarmNotify.send_length h.queue _) ?_ (fun hdue => (by cases hdue)) ?_ fun i hi => ?_
      · exact (AlarmNotify.send_saveSta _ _).symm.trans hsta
      · exact AlarmNotify.send_alarmTs _ _
      · exact Nat.le_of_eq (congrArg UInt8.toNat (AlarmNotify.send_index _ _).symm)
      · rcases AlarmNotify.send_wired s.alarm.notify
          (.ofSave (s.alarm.notify.alarmTs + s.alarm.notify.index.toUInt32)) with hsem | ⟨hq, hsem⟩
        · exact .inr (.inl hsem)
        · simp only [hq, hsem]
          exact h.wired
      · simp only [AlarmNotify.send_index]
        exact h.index
      · simp only [AlarmNotify.send_index]
        exact h.incr i hi
  · exact h

theorem turn (h : Kept rest l₀ since s) : Kept rest l₀ since s.turn := by
  obtain ⟨new, hhanded, -, -, -, hadc⟩ := turn_adc h.flowing
  obtain ⟨hflow, hdel⟩ := h.flowing.turn true true
  have hlog : Represents rest s.turn.adc
      (l₀.writes (s.turn.flow.handed.map HandedRecord.second)) := by
    rw [hadc, hhanded, List.map_append, AdcLog.writes, List.foldl_append]
    exact h.log.writes _
  have hdel' : s.turn.flow.delivered = s.flow.delivered := hdel
  have hordered := h.ordered
  have hrange := h.range
  rw [← hdel'] at hordered hrange
  refine ⟨h.timed.congr rfl rfl rfl, hflow, h.inStep.turn h.flowing _ _, hordered, hrange,
    h.since, hlog, h.boot, h.recording, h.alarmTs, fun sec hwanted => ?_,
    fun hwants => hdel' ▸ h.fits hwants, h.queue, h.wired, h.due, h.index, h.incr⟩
  rcases h.held sec ⟨hwanted.capturing, hwanted.lower, hwanted.upper⟩ with
    ⟨it, hit, hts⟩ | hclock | hrun
  · exact .inl ⟨it, hdel' ▸ hit, hts⟩
  · exact .inr (.inl hclock)
  · exact .inr (.inr ⟨hrun.phase, hrun.second, hdel' ▸ hrun.enough⟩)

theorem alarmTask (h : Kept rest l₀ since s) (hsafe : s.Safe .alarmTask) :
    Kept rest l₀ since s.alarmTask := by
  have hidx : s.alarm.notify.index.toNat < 200 := hsafe
  have hmove : ∀ a : AlarmSystem, a.notify.saveSta = s.alarm.notify.saveSta →
      a.notify.alarmTs = s.alarm.notify.alarmTs → a.notify.index = s.alarm.notify.index →
      a.store.config.calFlag = s.alarm.store.config.calFlag ∧
        a.store.config.flag = s.alarm.store.config.flag →
      a.notify.alarmQueue.length ≤ alarmQueueLength →
      (a.notify.alarmQueue = [] ∨ a.notify.alarmSem = true ∨ a.pc ≠ .wait) →
      a.saveDue = s.alarm.saveDue → (∀ i, a.pc = .incr i → i = s.alarm.notify.index) →
      Kept rest l₀ since { s with alarm := a } :=
    fun a hsta hts hindex hconfig hqueue hwired hdue hincr => h.withAlarm a
      (fun hopen => ⟨hsta ▸ hopen, hts, Nat.le_of_eq (congrArg UInt8.toNat hindex.symm)⟩) hconfig
      hqueue hwired (fun hd => hsta ▸ h.due (hdue ▸ hd)) (hindex ▸ h.index)
      fun i hi => by
        rw [hincr i hi, hindex]
        exact ⟨Nat.le_refl _, hidx⟩
  cases hpc : s.alarm.pc with
  | wait =>
    simp only [Device.alarmTask, AlarmSystem.alarmTask, hpc]
    split
    · exact hmove _ rfl rfl rfl ⟨rfl, rfl⟩ h.queue (.inr (.inr (by simp))) rfl (by simp)
    · exact hmove _ rfl rfl rfl ⟨rfl, rfl⟩ h.queue h.wired rfl (by simp [hpc])
  | drain =>
    simp only [Device.alarmTask, AlarmSystem.alarmTask, hpc]
    cases hqueue : s.alarm.notify.alarmQueue with
    | nil => exact hmove _ rfl rfl rfl ⟨rfl, rfl⟩ h.queue (.inl hqueue) rfl (by simp)
    | cons msg queue =>
      have hlen := h.queue
      rw [hqueue, List.length_cons] at hlen
      refine hmove _ rfl rfl rfl ⟨rfl, rfl⟩ (Nat.le_of_succ_le hlen) (.inr (.inr ?_)) rfl
        fun i => ?_
      · simp only
        split
        · simp
        · split <;> simp
      · simp only
        split
        · simp
        · split <;> simp
  | relay msg =>
    simp only [Device.alarmTask, AlarmSystem.alarmTask, hpc]
    exact hmove _ rfl rfl rfl ⟨rfl, rfl⟩ h.queue (.inr (.inr (by simp))) rfl (by simp)
  | led msg =>
    simp only [Device.alarmTask, AlarmSystem.alarmTask, hpc]
    exact hmove _ rfl rfl rfl ⟨rfl, rfl⟩ h.queue (.inr (.inr (by simp))) rfl (by simp)
  | store msg =>
    simp only [Device.alarmTask, AlarmSystem.alarmTask, hpc]
    exact hmove _ rfl rfl rfl (by simp only [storageWriteAlarmMsg_config, and_self])
      h.queue (.inr (.inr (by simp))) rfl (by simp)
  | read msg =>
    simp only [Device.alarmTask, AlarmSystem.alarmTask, hpc]
    split
    · exact hmove _ rfl rfl rfl ⟨rfl, rfl⟩ h.queue (.inr (.inr (by simp))) rfl (by simp)
    · exact hmove _ rfl rfl rfl ⟨rfl, rfl⟩ h.queue (.inr (.inr (by simp))) rfl (by simp)
  | load =>
    simp only [Device.alarmTask, AlarmSystem.alarmTask, hpc]
    exact hmove _ rfl rfl rfl ⟨rfl, rfl⟩ h.queue (.inr (.inr (by simp))) rfl
      fun i hi => (AlarmPc.incr.inj hi).symm
  | incr index =>
    obtain ⟨hle, hlt⟩ := h.incr index hpc
    have hindex : (index + 1).toNat = index.toNat + 1 := by
      rw [UInt8.toNat_add]
      exact Nat.mod_eq_of_lt (by simp; omega)
    simp only [Device.alarmTask, AlarmSystem.alarmTask, hpc]
    refine h.withAlarm _ (fun hsta => ⟨hsta, rfl, ?_⟩) ⟨rfl, rfl⟩ h.queue
      (.inr (.inr (by simp))) h.due ?_ (by simp)
    · simp only [hindex]
      omega
    · simp only [hindex]
      omega
  | args =>
    simp only [Device.alarmTask, AlarmSystem.alarmTask, hpc]
    exact hmove _ rfl rfl rfl ⟨rfl, rfl⟩ h.queue (.inr (.inr (by simp))) rfl (by simp)
  | write timestamp flag =>
    simp only [Device.alarmTask, AlarmSystem.alarmTask, hpc]
    exact hmove _ rfl rfl rfl (storageWriteAlarmInfo_flags ..) h.queue (.inr (.inr (by simp))) rfl
      (by simp)

theorem start {store : AdcStore} (hstore : Represents rest store l₀) {rtcBaseSec : UInt32}
    (hclock : rtcBaseSec.toNat + 2 < 2 ^ 32) :
    Kept rest l₀ rtcBaseSec.toNat (Device.boot store rtcBaseSec) := by
  have hts : (Device.boot store rtcBaseSec).item.ts.toNat = 1000 * rtcBaseSec.toNat := by
    have hrtc := rtcBaseSec.toNat_lt
    simp only [Device.boot, UInt64.toNat_mul, UInt32.toNat_toUInt64, UInt64.reduceToNat]
    omega
  have hboot : (rtcBaseSec + 2).toNat = rtcBaseSec.toNat + 2 := by
    rw [UInt32.toNat_add]
    exact Nat.mod_eq_of_lt hclock
  have hidle : (Device.boot store rtcBaseSec).alarm.notify.saveSta ≠ .strSave := by
    intro hopen
    cases hopen
  refine ⟨.boot store rtcBaseSec, .start, .start, .nil,
    fun it hit => absurd hit List.not_mem_nil, ?_, hstore, ?_, fun hopen => absurd hopen hidle,
    fun hopen => absurd hopen hidle, fun sec hwanted => absurd hwanted.capturing hidle,
    fun hwants => absurd hwants.1 hidle, Nat.zero_le _, .inl rfl, fun hdue => (by cases hdue),
    Nat.zero_le _, fun i hi => (by cases hi)⟩
  · rw [hts]
    omega
  · exact hboot ▸ Nat.le_add_left 2 _

theorem step (h : Kept rest l₀ since s) {e : DeviceStep} (hclock : s.Clock e) (hsafe : s.Safe e) :
    Kept rest l₀ since (s.step e) := by
  cases e with
  | sample reading rawAdc => exact h.sample hsafe
  | tick t => exact h.tick hclock hsafe
  | save => exact h.save
  | turn => exact h.turn
  | alarmTask => exact h.alarmTask hsafe

end Kept

end Device

end Lsc100
