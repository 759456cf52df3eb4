import Lsc100.Device.DeadEnd
import Lsc100.Device.Resume

/-! With every second in the store a capture needs no more samples: `alarm_task`
handles what has been queued, and then `time_sync_task` and `alarm_task` alone
save second after second until the capture is over. -/

namespace Lsc100

/-- How many steps `alarm_task` takes at most until it fetches the next message. -/
def AlarmPc.rank : AlarmPc → Nat
  | .wait => 0
  | .drain => 1
  | .relay _ => 4
  | .led _ => 3
  | .store _ => 2
  | .read _ => 6
  | .load => 5
  | .incr _ => 4
  | .args => 3
  | .write _ _ => 2

namespace AlarmSystem

def work (a : AlarmSystem) : Nat :=
  8 * a.notify.alarmQueue.length + a.pc.rank + if a.notify.alarmSem then 2 else 0

/-- How far `index` can get with the messages that are queued. -/
def ahead (a : AlarmSystem) : Nat :=
  a.notify.alarmQueue.length + match a.pc with
    | .incr index => index.toNat + 1
    | .read _ | .load => a.notify.index.toNat + 1
    | _ => a.notify.index.toNat

/-- `alarm_task` is not left waiting with messages queued, and `index` stays
between the bounds. -/
structure Settling (low high : Nat) (a : AlarmSystem) : Prop where
  wired : a.notify.alarmQueue = [] ∨ a.notify.alarmSem = true ∨ a.pc ≠ .wait
  low : low ≤ a.notify.index.toNat
  high : a.ahead ≤ high
  incr : ∀ i, a.pc = .incr i → a.notify.index.toNat ≤ i.toNat

variable {a : AlarmSystem} {low high : Nat}

theorem alarmTask_work (h : a.pc ≠ .wait ∨ a.notify.alarmSem = true)
    (records : UInt32 → Nat → UInt8) (lock ok : Bool) :
    (a.alarmTask records lock ok).work < a.work := by
  rw [work, work]
  cases hpc : a.pc with
  | wait =>
    have hsem : a.notify.alarmSem = true := h.resolve_left fun hne => hne hpc
    simp only [alarmTask, hpc, hsem, if_true, AlarmPc.rank]
    simp
  | drain =>
    simp only [alarmTask, hpc]
    cases hqueue : a.notify.alarmQueue with
    | nil => simp [AlarmPc.rank, hqueue]
    | cons msg rest =>
      have hrank : (if msg.isFault then AlarmPc.relay msg
          else if msg.type = busAlarmSave then .read msg else .drain).rank ≤ 6 := by
        split
        · exact (by decide : 4 ≤ 6)
        · split
          · exact Nat.le_refl 6
          · exact (by decide : 1 ≤ 6)
      simp only [List.length_cons, AlarmPc.rank] at hrank ⊢
      omega
  | read msg =>
    simp only [alarmTask, hpc]
    split <;> simp [AlarmPc.rank]
  | relay msg => simp [alarmTask, hpc, AlarmPc.rank]
  | led msg => simp [alarmTask, hpc, AlarmPc.rank]
  | store msg => simp [alarmTask, hpc, AlarmPc.rank]
  | load => simp [alarmTask, hpc, AlarmPc.rank]
  | incr index => simp [alarmTask, hpc, AlarmPc.rank]
  | args => simp [alarmTask, hpc, AlarmPc.rank]
  | write timestamp flag => simp [alarmTask, hpc, AlarmPc.rank]

theorem Settling.alarmTask (h : Settling low high a) (hhigh : high < 256)
    (records : UInt32 → Nat → UInt8) (lock ok : Bool) :
    Settling low high (a.alarmTask records lock ok) := by
  have hlow := h.low
  have hahead := h.high
  cases hpc : a.pc with
  | wait =>
    simp only [ahead, hpc] at hahead
    simp only [AlarmSystem.alarmTask, hpc]
    split
    · exact ⟨.inr (.inr (by simp)), hlow, hahead, by simp⟩
    · refine ⟨h.wired, hlow, ?_, h.incr⟩
      simp only [ahead, hpc]
      exact hahead
  | drain =>
    simp only [ahead, hpc] at hahead
    simp only [AlarmSystem.alarmTask, hpc]
    cases hqueue : a.notify.alarmQueue with
    | nil =>
      rw [hqueue] at hahead
      refine ⟨.inl hqueue, hlow, ?_, by simp⟩
      simp only [ahead, hqueue]
      exact hahead
    | cons msg rest =>
      rw [hqueue, List.length_cons] at hahead
      simp only
      split
      · exact ⟨.inr (.inr (by simp)), hlow, by simp only [ahead]; omega, by simp⟩
      · split
        · exact ⟨.inr (.inr (by simp)), hlow, by simp only [ahead]; omega, by simp⟩
        · exact ⟨.inr (.inr (by simp)), hlow, by simp only [ahead]; omega, by simp⟩
  | read msg =>
    simp only [ahead, hpc] at hahead
    simp only [AlarmSystem.alarmTask, hpc]
    split
    · exact ⟨.inr (.inr (by simp)), hlow, by simp only [ahead]; omega, by simp⟩
    · exact ⟨.inr (.inr (by simp)), hlow, by simp only [ahead]; omega, by simp⟩
  | load =>
    simp only [ahead, hpc] at hahead
    simp only [AlarmSystem.alarmTask, hpc]
    exact ⟨.inr (.inr (by simp)), hlow, by simp only [ahead]; omega,
      fun i hi => Nat.le_of_eq (congrArg UInt8.toNat (AlarmPc.incr.inj hi))⟩
  | incr index =>
    simp only [ahead, hpc] at hahead
    have hle := h.incr index hpc
    have hindex : (index + 1).toNat = index.toNat + 1 := by
      rw [UInt8.toNat_add]
      exact Nat.mod_eq_of_lt (by simp at hahead ⊢; omega)
    simp only [AlarmSystem.alarmTask, hpc]
    refine ⟨.inr (.inr (by simp)), ?_, ?_, by simp⟩
    · simp only [hindex]
      omega
    · simp only [ahead, hindex]
      exact hahead
  | relay msg =>
    simp only [ahead, hpc] at hahead
    simp only [AlarmSystem.alarmTask, hpc]
    exact ⟨.inr (.inr (by simp)), hlow, hahead, by simp⟩
  | led msg =>
    simp only [ahead, hpc] at hahead
    simp only [AlarmSystem.alarmTask, hpc]
    exact ⟨.inr (.inr (by simp)), hlow, hahead, by simp⟩
  | store msg =>
    simp only [ahead, hpc] at hahead
    simp only [AlarmSystem.alarmTask, hpc]
    exact ⟨.inr (.inr (by simp)), hlow, hahead, by simp⟩
  | args =>
    simp only [ahead, hpc] at hahead
    simp only [AlarmSystem.alarmTask, hpc]
    exact ⟨.inr (.inr (by simp)), hlow, hahead, by simp⟩
  | write timestamp flag =>
    simp only [ahead, hpc] at hahead
    simp only [AlarmSystem.alarmTask, hpc]
    exact ⟨.inr (.inr (by simp)), hlow, hahead, by simp⟩

end AlarmSystem

namespace Device

/-- A continuation of the capture that leaves the store of samples alone. -/
structure Aside (s t : Device) : Prop where
  leads : s.Leads t
  saveSta : t.alarm.notify.saveSta = s.alarm.notify.saveSta
  alarmTs : t.alarm.notify.alarmTs = s.alarm.notify.alarmTs
  adc : t.adc = s.adc

namespace Aside

variable {s t u : Device}

theorem refl (s : Device) : Aside s s := ⟨.refl s, rfl, rfl, rfl⟩

theorem trans (h : Aside s t) (h' : Aside t u) : Aside s u :=
  ⟨h.leads.trans h'.leads, h'.saveSta.trans h.saveSta, h'.alarmTs.trans h.alarmTs,
    h'.adc.trans h.adc⟩

theorem alarmTask (s : Device) : Aside s s.alarmTask := by
  obtain ⟨queue, sem, index, hnotify⟩ := s.alarm.alarmTask_notify s.record true s.readOk
  exact ⟨.step (e := .alarmTask) trivial, congrArg (·.saveSta) hnotify,
    congrArg (·.alarmTs) hnotify, rfl⟩

theorem retrievable (h : Aside s t) (sec : Nat) : t.Retrievable sec ↔ s.Retrievable sec := by
  rw [Retrievable, Retrievable, readAdcData, readAdcData, h.adc]

end Aside

variable {s : Device}

/-- `alarm_task` handles all that has been queued. -/
theorem exists_settled {low high : Nat} (h : s.alarm.Settling low high) (hhigh : high < 256) :
    ∃ t, Aside s t ∧ t.alarm.pc = .wait ∧ t.alarm.notify.alarmQueue = [] ∧
      low ≤ t.alarm.notify.index.toNat ∧ t.alarm.notify.index.toNat ≤ high := by
  induction hn : s.alarm.work using Nat.strong_induction_on generalizing s with
  | _ n ih =>
    by_cases hmore : s.alarm.pc ≠ .wait ∨ s.alarm.notify.alarmSem = true
    · have hstep : s.alarmTask.alarm.Settling low high :=
        h.alarmTask hhigh s.record true s.readOk
      obtain ⟨t, ht, hrest⟩ := ih s.alarmTask.alarm.work
        (hn ▸ AlarmSystem.alarmTask_work hmore _ _ _) hstep rfl
      exact ⟨t, (Aside.alarmTask s).trans ht, hrest⟩
    · obtain ⟨hpc, hsem⟩ := not_or.mp hmore
      have hwait : s.alarm.pc = .wait := not_not.mp hpc
      have hqueue : s.alarm.notify.alarmQueue = [] := by
        rcases h.wired with hqueue | hsem' | hpc'
        · exact hqueue
        · exact absurd hsem' hsem
        · exact absurd hpc' hpc
      have hahead := h.high
      rw [AlarmSystem.ahead, hwait, hqueue] at hahead
      exact ⟨s, .refl s, hwait, hqueue, h.low, by simpa using hahead⟩

theorem exists_due (hopen : s.alarm.notify.saveSta = .strSave)
    (hrange : s.alarm.notify.alarmTs.toNat + 256 < 2 ^ 32) :
    ∃ t, s.Leads t ∧ t.alarm = { s.alarm with saveDue := true } ∧ t.adc = s.adc := by
  cases hdue : s.alarm.saveDue with
  | true => exact ⟨s, .refl s, by rw [← hdue], rfl⟩
  | false =>
    have hindex := s.alarm.notify.index.toNat_lt
    have hsum : (s.alarm.notify.alarmTs + s.alarm.notify.index.toUInt32).toNat =
        s.alarm.notify.alarmTs.toNat + s.alarm.notify.index.toNat := by
      rw [UInt32.toNat_add, UInt8.toNat_toUInt32]
      exact Nat.mod_eq_of_lt (by omega)
    obtain ⟨t, hclock, hlate⟩ : ∃ t : UInt32, s.rtcBaseSec ≤ t ∧
        s.alarm.notify.alarmTs + s.alarm.notify.index.toUInt32 < t := by
      rcases UInt32.lt_or_le
        (s.alarm.notify.alarmTs + s.alarm.notify.index.toUInt32) s.rtcBaseSec with hlt | hle
      · exact ⟨s.rtcBaseSec, UInt32.le_refl _, hlt⟩
      · have hlt : s.alarm.notify.alarmTs + s.alarm.notify.index.toUInt32 <
            s.alarm.notify.alarmTs + s.alarm.notify.index.toUInt32 + 1 := by
          rw [UInt32.lt_iff_toNat_lt, UInt32.toNat_add _ 1, hsum]
          simp only [UInt32.reduceToNat]
          omega
        exact ⟨_, UInt32.le_trans hle (UInt32.le_of_lt hlt), hlt⟩
    have hsave : saveDue s.alarm.notify t = true := by
      rw [saveDue, hopen]
      simpa using hlate
    refine ⟨s.tick t, .step (e := .tick t) hclock, ?_, ?_⟩
    · simp only [tick, hdue, hsave, Bool.false_eq_true, if_false]
    · simp only [tick, hdue, Bool.false_eq_true, if_false]

/-- With all seconds saved the next save closes the capture. -/
theorem exists_endSave (hopen : s.alarm.notify.saveSta = .strSave)
    (hrange : s.alarm.notify.alarmTs.toNat + 256 < 2 ^ 32)
    (hindex : 3 ≤ s.alarm.notify.index.toNat) :
    ∃ t, s.Leads t ∧ t.alarm.notify.saveSta = .endSave := by
  obtain ⟨t, ht, halarm, -⟩ := exists_due hopen hrange
  have hend : 3 ≤ s.alarm.notify.index ∧ s.alarm.notify.saveSta = .strSave :=
    ⟨UInt8.le_iff_toNat_le.mpr hindex, hopen⟩
  refine ⟨t.save, ht.trans (.step (e := .save) trivial), ?_⟩
  simp only [Device.save, AlarmSystem.save, halarm, adcSaveAlarm, hend, and_self, if_true]

theorem exists_handled {msg : AlarmMsg} (hwait : s.alarm.pc = .wait)
    (hsem : s.alarm.notify.alarmSem = true) (hqueue : s.alarm.notify.alarmQueue = [msg])
    (htype : msg.type = busAlarmSave) (hread : (s.readAdcData msg.ts).1 = 0) :
    ∃ t, Aside s t ∧ t.alarm.pc = .wait ∧ t.alarm.notify.alarmQueue = [] ∧
      t.alarm.notify.index = s.alarm.notify.index + 1 := by
  have hfault : msg.isFault = false := by
    simp only [AlarmMsg.isFault, htype]
    decide
  have hdrain : s.alarmTask.alarm.pc = .drain ∧ s.alarmTask.alarm.notify.alarmQueue = [msg] ∧
      s.alarmTask.alarm.notify.index = s.alarm.notify.index := by
    simp only [alarmTask, AlarmSystem.alarmTask, hwait, hsem, hqueue, if_true, and_self]
  have hto := Aside.alarmTask s
  generalize s.alarmTask = s₁ at hdrain hto
  have hfetched : s₁.alarmTask.alarm.pc = .read msg ∧
      s₁.alarmTask.alarm.notify.alarmQueue = [] ∧
      s₁.alarmTask.alarm.notify.index = s.alarm.notify.index := by
    simp only [alarmTask, AlarmSystem.alarmTask, hdrain, hfault, htype, Bool.false_eq_true,
      if_false, if_true, and_self]
  replace hto := hto.trans (.alarmTask s₁)
  generalize s₁.alarmTask = s₂ at hfetched hto
  have hok : s₂.readOk = true := by
    simp only [readOk, hfetched.1, readAdcData, hto.adc]
    exact decide_eq_true hread
  have hloaded : s₂.alarmTask.alarm.pc = .load ∧ s₂.alarmTask.alarm.notify.alarmQueue = [] ∧
      s₂.alarmTask.alarm.notify.index = s.alarm.notify.index := by
    simp only [alarmTask, AlarmSystem.alarmTask, hfetched, hok, if_true, and_self]
  replace hto := hto.trans (.alarmTask s₂)
  generalize s₂.alarmTask = s₃ at hloaded hto
  have hcounted : s₃.alarmTask.alarm.pc = .incr s.alarm.notify.index ∧
      s₃.alarmTask.alarm.notify.alarmQueue = [] := by
    simp only [alarmTask, AlarmSystem.alarmTask, hloaded, and_self]
  replace hto := hto.trans (.alarmTask s₃)
  generalize s₃.alarmTask = s₄ at hcounted hto
  have hargs : s₄.alarmTask.alarm.pc = .args ∧ s₄.alarmTask.alarm.notify.alarmQueue = [] ∧
      s₄.alarmTask.alarm.notify.index = s.alarm.notify.index + 1 := by
    simp only [alarmTask, AlarmSystem.alarmTask, hcounted, and_self]
  replace hto := hto.trans (.alarmTask s₄)
  generalize s₄.alarmTask = s₅ at hargs hto
  have hwrite : (∃ ts flag, s₅.alarmTask.alarm.pc = .write ts flag) ∧
      s₅.alarmTask.alarm.notify.alarmQueue = [] ∧
      s₅.alarmTask.alarm.notify.index = s.alarm.notify.index + 1 := by
    simp only [alarmTask, AlarmSystem.alarmTask, hargs, and_self, and_true]
    exact ⟨_, _, rfl⟩
  replace hto := hto.trans (.alarmTask s₅)
  generalize s₅.alarmTask = s₆ at hwrite hto
  obtain ⟨⟨ts, flag, hpc⟩, hempty, hindex⟩ := hwrite
  have hback : s₆.alarmTask.alarm.pc = .drain ∧ s₆.alarmTask.alarm.notify.alarmQueue = [] ∧
      s₆.alarmTask.alarm.notify.index = s.alarm.notify.index + 1 := by
    simp only [alarmTask, AlarmSystem.alarmTask, hpc, hempty, hindex, and_self]
  replace hto := hto.trans (.alarmTask s₆)
  generalize s₆.alarmTask = s₇ at hback hto
  refine ⟨s₇.alarmTask, hto.trans (.alarmTask s₇), ?_, ?_, ?_⟩
  · simp only [alarmTask, AlarmSystem.alarmTask, hback]
  · simp only [alarmTask, AlarmSystem.alarmTask, hback]
  · simp only [alarmTask, AlarmSystem.alarmTask, hback]

theorem exists_saved (hopen : s.alarm.notify.saveSta = .strSave)
    (hrange : s.alarm.notify.alarmTs.toNat + 256 < 2 ^ 32) (hwait : s.alarm.pc = .wait)
    (hqueue : s.alarm.notify.alarmQueue = []) (hindex : s.alarm.notify.index.toNat < 3)
    (hread : s.Retrievable (s.alarm.notify.alarmTs.toNat + s.alarm.notify.index.toNat)) :
    ∃ t, Aside s t ∧ t.alarm.pc = .wait ∧ t.alarm.notify.alarmQueue = [] ∧
      t.alarm.notify.index.toNat = s.alarm.notify.index.toNat + 1 := by
  obtain ⟨t, ht, halarm, hadc⟩ := exists_due hopen hrange
  have hend : ¬ (3 ≤ s.alarm.notify.index ∧ s.alarm.notify.saveSta = .strSave) := fun h =>
    absurd (UInt8.le_iff_toNat_le.mp h.1) (Nat.not_le_of_lt hindex)
  have hts : s.alarm.notify.alarmTs + s.alarm.notify.index.toUInt32 =
      UInt32.ofNat (s.alarm.notify.alarmTs.toNat + s.alarm.notify.index.toNat) := by
    rw [UInt32.ofNat_add, UInt32.ofNat_toNat, UInt32.ofNat_uInt8ToNat]
  have hsaved : t.save.alarm.notify = { s.alarm.notify with
        alarmQueue := [.ofSave (s.alarm.notify.alarmTs + s.alarm.notify.index.toUInt32)]
        alarmSem := true } ∧ t.save.alarm.pc = .wait ∧ t.save.adc = s.adc := by
    have hroom : s.alarm.notify.alarmQueue.length < alarmQueueLength := by
      rw [hqueue]
      decide
    have hsend : adcSaveAlarm true s.alarm.notify = { s.alarm.notify with
        alarmQueue := [.ofSave (s.alarm.notify.alarmTs + s.alarm.notify.index.toUInt32)]
        alarmSem := true } := by
      rw [adcSaveAlarm, if_pos rfl, if_neg hend, AlarmNotify.send, if_pos hroom, hqueue,
        List.nil_append]
    simp only [Device.save, AlarmSystem.save, halarm, if_true, hsend, hwait, hadc, and_self]
  obtain ⟨hnotify, hpc, hadc'⟩ := hsaved
  have hto : Aside s t.save := ⟨ht.trans (.step (e := .save) trivial), by rw [hnotify],
    by rw [hnotify], hadc'⟩
  obtain ⟨u, hu, hpc', hqueue', hindex'⟩ := exists_handled (s := t.save) hpc (by rw [hnotify])
    (by rw [hnotify]) rfl ((congrArg (fun ts => (t.save.readAdcData ts).1) hts).trans
      ((hto.retrievable _).mpr hread))
  refine ⟨u, hto.trans hu, hpc', hqueue', ?_⟩
  rw [hindex', hnotify, UInt8.toNat_add]
  exact Nat.mod_eq_of_lt (by simp; omega)

/-- With all the seconds of the capture in the store it comes to its end. -/
theorem exists_ended (hopen : s.alarm.notify.saveSta = .strSave)
    (hrange : s.alarm.notify.alarmTs.toNat + 256 < 2 ^ 32) (hwait : s.alarm.pc = .wait)
    (hqueue : s.alarm.notify.alarmQueue = [])
    (hread : ∀ sec, s.alarm.notify.alarmTs.toNat + s.alarm.notify.index.toNat ≤ sec →
      sec ≤ s.alarm.notify.alarmTs.toNat + 2 → s.Retrievable sec) :
    ∃ t, s.Leads t ∧ t.alarm.notify.saveSta = .endSave := by
  induction hn : 3 - s.alarm.notify.index.toNat generalizing s with
  | zero => exact exists_endSave hopen hrange (by omega)
  | succ n ih =>
    obtain ⟨t, ht, hwait', hqueue', hindex⟩ := exists_saved hopen hrange hwait hqueue (by omega)
      (hread _ (Nat.le_refl _) (by omega))
    obtain ⟨u, hu, hend⟩ := ih (ht.saveSta.trans hopen) (ht.alarmTs ▸ hrange) hwait' hqueue'
      (fun sec hlower hupper => by
        rw [ht.alarmTs] at hlower hupper
        exact (ht.retrievable sec).mpr (hread sec (by omega) hupper)) (by omega)
    exact ⟨u, ht.leads.trans hu, hend⟩

/-- The index of the sample store is in its first lap. -/
def Room (s : Device) : Prop := s.adc.adc.blockNum + 4 ≤ adcIndexBlockNum

/-- The clock is not near its end. -/
def InTime (s : Device) (e : DeviceStep) : Prop :=
  (match e with
    | .tick t => t
    | _ => s.rtcBaseSec).toNat + 256 < 2 ^ 32

/-- The step opens a capture. -/
def Opens (s : Device) : DeviceStep → Prop
  | .sample reading rawAdc => s.RaisesAt reading rawAdc
  | _ => False

/-- The step keeps an open capture alive. -/
structure Keeps (s : Device) (e : DeviceStep) : Prop where
  clock : s.Clock e
  safe : s.Safe e
  inTime : s.alarm.notify.saveSta = .strSave ∨ s.Opens e → s.InTime e
  room : s.Wants ∨ s.Opens e → s.Room

section Reached

variable {rest : Emmc} {l₀ : AdcLog} {since : Nat}

theorem Kept.blockNum_turn (h : Kept rest l₀ since s)
    (hroom : s.adc.adc.blockNum + 4 ≤ adcIndexBlockNum) :
    s.turn.adc.adc.blockNum + 3 ≤ adcIndexBlockNum := by
  have hblock := h.log.blockNum
  have hblock' := h.turn.log.blockNum
  have hlen := log_length l₀ s
  have hlen' := log_length l₀ s.turn
  have hfresh := (l₀.writes (s.turn.flow.handed.map HandedRecord.second)).fresh_le_torn
  have hfresh' := (l₀.writes (s.flow.handed.map HandedRecord.second)).fresh_le_torn
  have htorn := (l₀.writes (s.flow.handed.map HandedRecord.second)).torn_lt
  obtain ⟨new, hhanded, hone, -, -, -⟩ := turn_adc h.flowing
  have hnew : s.turn.flow.handed.length ≤ s.flow.handed.length + 1 := by
    rw [hhanded, List.length_append]
    omega
  rw [AdcLog.length] at hlen hlen'
  rw [AdcLog.indexBlocks] at hblock hblock'
  rw [adcIndexBlockNum_eq] at hroom ⊢
  split at hblock
  · split at hblock' <;> omega
  · omega

structure Roomy (s : Device) : Prop where
  clock : s.alarm.notify.saveSta = .strSave → s.rtcBaseSec.toNat + 256 < 2 ^ 32
  store : s.Wants → s.adc.adc.blockNum + 3 ≤ adcIndexBlockNum

theorem Kept.index_alarmTask (h : Kept rest l₀ since s) :
    s.alarm.notify.index.toNat ≤ s.alarmTask.alarm.notify.index.toNat := by
  cases hpc : s.alarm.pc with
  | incr i =>
    obtain ⟨hle, hlt⟩ := h.incr i hpc
    have hindex : (i + 1).toNat = i.toNat + 1 := by
      rw [UInt8.toNat_add]
      exact Nat.mod_eq_of_lt (by simp; omega)
    simp only [Device.alarmTask, AlarmSystem.alarmTask, hpc, hindex]
    omega
  | wait | drain | read =>
    simp only [Device.alarmTask, AlarmSystem.alarmTask, hpc]
    split <;> exact Nat.le_refl _
  | relay | led | store | load | args | write =>
    simp only [Device.alarmTask, AlarmSystem.alarmTask, hpc, Nat.le_refl]

/-- Behind a step a capture is open only if it was, with no fewer seconds to come,
or the step has opened it. -/
theorem Kept.open_of_step (h : Kept rest l₀ since s) {e : DeviceStep}
    (hopen : (s.step e).alarm.notify.saveSta = .strSave) : s.Opens e ∨
      s.alarm.notify.saveSta = .strSave ∧
        s.alarm.notify.index.toNat ≤ (s.step e).alarm.notify.index.toNat := by
  cases e with
  | sample reading rawAdc =>
    rcases s.sample_cases reading rawAdc with ⟨hraises, -⟩ | ⟨-, hsame⟩
    · exact .inl hraises
    · exact .inr ⟨hsame.saveSta.symm.trans hopen, Nat.le_of_eq (congrArg _ hsame.index.symm)⟩
  | tick t =>
    have hsame : (s.step (.tick t)).alarm.notify = s.alarm.notify := by
      rw [Device.step, Device.tick]
      split <;> rfl
    rw [hsame] at hopen ⊢
    exact .inr ⟨hopen, Nat.le_refl _⟩
  | save =>
    rw [Device.step, Device.save, AlarmSystem.save] at hopen ⊢
    by_cases hdue : s.alarm.saveDue = true
    · rw [if_pos hdue] at hopen ⊢
      rcases adcSaveAlarm_cases true s.alarm.notify with heq | ⟨-, -, -, heq⟩ | ⟨-, heq⟩
      · simp only [heq] at hopen ⊢
        exact .inr ⟨hopen, Nat.le_refl _⟩
      · simp only [heq] at hopen
        cases hopen
      · simp only [heq, AlarmNotify.send_saveSta, AlarmNotify.send_index] at hopen ⊢
        exact .inr ⟨hopen, Nat.le_refl _⟩
    · rw [if_neg hdue] at hopen ⊢
      exact .inr ⟨hopen, Nat.le_refl _⟩
  | turn => exact .inr ⟨hopen, Nat.le_refl _⟩
  | alarmTask =>
    refine .inr ⟨?_, h.index_alarmTask⟩
    obtain ⟨queue, sem, index, hnotify⟩ := s.alarm.alarmTask_notify s.record true s.readOk
    rw [Device.step, Device.alarmTask] at hopen
    simp only [hnotify] at hopen
    exact hopen

theorem Kept.roomy_step (h : Kept rest l₀ since s) {e : DeviceStep} (hkeeps : s.Keeps e) :
    (s.step e).Roomy := by
  constructor
  · intro hopen
    have hrtc := hkeeps.inTime ((h.open_of_step hopen).symm.imp And.left id)
    cases e with
    | sample reading rawAdc =>
      rw [Device.step, (s.sample_frame reading rawAdc).2.1]
      exact hrtc
    | tick t =>
      have hle : s.rtcBaseSec.toNat ≤ t.toNat := UInt32.le_iff_toNat_le.mp hkeeps.clock
      have hto : t.toNat + 256 < 2 ^ 32 := hrtc
      rw [Device.step, Device.tick]
      split
      · omega
      · exact hrtc
    | save | turn | alarmTask => exact hrtc
  · rintro ⟨hopen, hindex⟩
    have hroom : s.Room := hkeeps.room ((h.open_of_step hopen).symm.imp (fun hold =>
      ⟨hold.1, Nat.lt_of_le_of_lt hold.2 hindex⟩) id)
    have hblock : s.adc.adc.blockNum + 4 ≤ adcIndexBlockNum := hroom
    cases e with
    | sample reading rawAdc =>
      rw [Device.step, (s.sample_frame reading rawAdc).1]
      omega
    | tick t =>
      rw [Device.step, Device.tick]
      split
      · omega
      · simp only
        omega
    | save | alarmTask => exact Nat.le_of_succ_le hblock
    | turn => exact h.blockNum_turn hblock

theorem Kept.settling (h : Kept rest l₀ since s) :
    s.alarm.Settling s.alarm.notify.index.toNat 206 := by
  have hqueue := h.queue
  have hindex := h.index
  refine ⟨h.wired, Nat.le_refl _, ?_, fun i hi => (h.incr i hi).1⟩
  rw [alarmQueueLength] at hqueue
  rw [AlarmSystem.ahead]
  split
  · rename_i i hi
    have hlt := (h.incr i hi).2
    omega
  · omega
  · omega
  · omega

theorem Kept.noDeadEnd (h : Kept rest l₀ since s) (hsorted : l₀.Sorted)
    (hpast : ∀ m < l₀.length, (l₀.slot m).ts.toNat ≤ since) (hroomy : s.Roomy) :
    s.NoDeadEnd := by
  cases hopen : s.alarm.notify.saveSta with
  | endSave =>
    refine ⟨fun sec hwanted => ?_, s, .refl s, hopen⟩
    exact absurd (hopen.symm.trans hwanted.capturing) (by decide)
  | strSave =>
    have hclock := hroomy.clock hopen
    obtain ⟨hpos, hbehind⟩ := h.alarmTs hopen
    have hitem := h.timed.behind
    obtain ⟨t, ht, hkept, hread⟩ :=
      h.exists_retrievable hopen hsorted hpast hroomy.store (by omega)
    obtain ⟨u, hu, hwait, hqueue, hlow, -⟩ := exists_settled hkept.settling (by decide)
    obtain ⟨v, hv, hend⟩ := exists_ended (hu.saveSta.trans (ht.saveSta.trans hopen))
      (by rw [hu.alarmTs, ht.alarmTs]; omega) hwait hqueue fun sec hlower hupper => by
        rw [hu.alarmTs, ht.alarmTs] at hlower hupper
        rw [ht.index] at hlow
        exact (hu.retrievable sec).mpr (hread sec ⟨hopen, by omega, hupper⟩)
    exact ⟨fun sec hwanted => ⟨t, ht.leads, hread sec hwanted⟩,
      v, (ht.leads.trans hu.leads).trans hv, hend⟩

end Reached

end Device

/-- In every state reached by steps that keep an open capture alive, the seconds
it still needs are stored or can be, and it can be brought to its end. The device
may have recorded and been restarted before in any way. -/
theorem device_no_dead_end (card : Emmc) (c : ConfigInfo) (hfresh : c.Fresh)
    (hflag : c.flag = devFlagNextOn) (history : List AdcEvent) (rtcBaseSec : UInt32)
    (hordered : (writes history).Pairwise (·.ts ≤ ·.ts))
    (hpast : ∀ r ∈ writes history, r.ts ≤ rtcBaseSec) (hclock : rtcBaseSec.toNat + 2 < 2 ^ 32)
    (s : Device)
    (hs : (device (.boot ((adcRecorder (.boot card c)).run history) rtcBaseSec)).Reaches
      Device.Keeps (.boot ((adcRecorder (.boot card c)).run history) rtcBaseSec) s) : s.NoDeadEnd := by
  obtain ⟨hlog, -⟩ := represents_run (e := card) hflag hfresh history
  obtain ⟨hsorted, hmem⟩ := sorted_run hordered
  have hinv : Device.Kept card (adcLog.run history) rtcBaseSec.toNat s ∧ s.Roomy := by
    refine Machine.Reaches.invariant
      (fun s => Device.Kept card (adcLog.run history) rtcBaseSec.toNat s ∧ s.Roomy)
      (fun s e hkept hkeeps => ?_) ?_ hs
    · exact ⟨hkept.1.step hkeeps.clock hkeeps.safe, hkept.1.roomy_step hkeeps⟩
    · exact ⟨.start hlog hclock, fun hopen => (by cases hopen), fun hwants => (by cases hwants.1)⟩
  exact hinv.1.noDeadEnd hsorted
    (fun m hm => UInt32.le_iff_toNat_le.mp (hpast _ (hmem m hm))) hinv.2

namespace Device

instance (s : Device) (sec : Nat) : Decidable (s.Stored sec) :=
  inferInstanceAs (Decidable (∃ it ∈ (intake s.flow.delivered).handed, it.ts.toNat / 1000 = sec))

instance (s : Device) (sec : Nat) : Decidable (s.Wanted sec) :=
  decidable_of_iff (s.alarm.notify.saveSta = .strSave ∧
      s.alarm.notify.alarmTs.toNat + s.alarm.notify.index.toNat ≤ sec ∧
      sec ≤ s.alarm.notify.alarmTs.toNat + 2)
    ⟨fun h => ⟨h.1, h.2.1, h.2.2⟩, fun h => ⟨h.capturing, h.lower, h.upper⟩⟩

instance (b : Intake) (n : Nat) : Decidable (b.Open n) := inferInstanceAs (Decidable (_ ∧ _))

instance (s : Device) : Decidable s.Wants := inferInstanceAs (Decidable (_ ∧ _))

instance (s : Device) (reading : AdcItem) : Decidable (s.Spares reading) :=
  inferInstanceAs (Decidable (_ ∨ _))

instance (s : Device) (reading : AdcItem) (rawAdc : UInt16) :
    Decidable (s.RaisesAt reading rawAdc) := inferInstanceAs (Decidable (_ ∧ _))

instance (s : Device) (reading : AdcItem) (rawAdc : UInt16) :
    Decidable (s.SampleSafe reading rawAdc) :=
  decidable_of_iff ((s.Wants → (s.intakeAfter reading).base ≤ 1000) ∧
      (s.Wanted s.nextSec → s.Spares reading) ∧
      (s.RaisesAt reading rawAdc → s.Stored (s.nextSec - 1) ∧ s.Spares reading ∧
        s.rtcBaseSec.toNat ≤ s.nextSec + 1 ∧ (s.intakeAfter reading).base ≤ 1000))
    ⟨fun h => ⟨h.1, h.2.1, h.2.2⟩, fun h => ⟨h.fits, h.wanted, h.raised⟩⟩

/-- Samples, and the clock while no capture is open. -/
def Feeds (s : Device) : DeviceStep → Prop
  | .sample reading rawAdc =>
    s.SampleSafe reading rawAdc ∧ s.InTime (.sample reading rawAdc) ∧ s.Room
  | .tick t =>
    s.alarm.notify.saveSta = .endSave ∧ s.Clock (.tick t) ∧ s.InTime (.tick t) ∧ s.Room
  | _ => False

instance (s : Device) : Decidable s.Room := inferInstanceAs (Decidable (_ ≤ _))

instance (s : Device) (e : DeviceStep) : Decidable (s.InTime e) :=
  inferInstanceAs (Decidable (_ < _))

instance (s : Device) (t : UInt32) : Decidable (s.Clock (.tick t)) :=
  inferInstanceAs (Decidable (s.rtcBaseSec ≤ t))

instance (s : Device) : (e : DeviceStep) → Decidable (s.Feeds e)
  | .sample _ _ => inferInstanceAs (Decidable (_ ∧ _))
  | .tick _ => inferInstanceAs (Decidable (_ ∧ _))
  | .save => isFalse id
  | .turn => isFalse id
  | .alarmTask => isFalse id

theorem Feeds.keeps {s : Device} {e : DeviceStep} (h : s.Feeds e) : s.Keeps e := by
  cases e with
  | sample reading rawAdc => exact ⟨trivial, h.1, fun _ => h.2.1, fun _ => h.2.2⟩
  | tick t =>
    refine ⟨h.2.1, fun _ sec hwanted => ?_, fun _ => h.2.2.1, fun _ => h.2.2.2⟩
    exact absurd (h.1.symm.trans hwanted.capturing) (by decide)
  | save => exact h.elim
  | turn => exact h.elim
  | alarmTask => exact h.elim

/-- The device in second 101, after `n` samples without voltage and current. -/
def sampling (n : Nat) : Device :=
  { atHundred with
    rtcBaseSec := 101
    sampleTick := n
    item := { (default : AdcItem) with ts := UInt64.ofNat (101000 + n - 1) } }

theorem sampling_idle {n : Nat} (hpos : 1 ≤ n) (hn : n < 1000) :
    (sampling n).Feeds (.sample default 0) ∧
      (sampling n).sample default 0 = sampling (n + 1) := by
  have hnext : (sampling n).nextItem default =
      { (default : AdcItem) with ts := UInt64.ofNat (101000 + (n + 1) - 1) } := by
    have hts : UInt64.ofNat (101000 + n - 1) + 1 = UInt64.ofNat (101000 + (n + 1) - 1) := by
      rw [show 101000 + (n + 1) - 1 = (101000 + n - 1) + 1 by omega, UInt64.ofNat_add]
      rfl
    have hphase : ¬ (sampling n).sampleTick % 1000 = 0 := by
      change ¬ n % 1000 = 0
      omega
    rw [nextItem, if_neg hphase, ← hts]
    rfl
  have hidle : ((sampling n).nextItem default).isIdle = true := by
    rw [hnext]
    exact (by decide : (default : AdcItem).isIdle = true)
  have hnot : ¬ (sampling n).Sampled default := fun h => by
    rw [Sampled, hidle] at h
    exact absurd h.2 (by decide)
  have hclosed : (sampling n).alarm.notify.saveSta ≠ .strSave := by
    intro hopen
    cases hopen
  refine ⟨⟨⟨fun h => ?_, fun h => ?_, fun h => absurd h.1 hnot⟩, ?_⟩, ?_⟩
  · exact absurd h.1 hclosed
  · exact absurd h.capturing hclosed
  · exact (by decide : (101 : UInt32).toNat + 256 < 2 ^ 32 ∧
      atHundred.adc.adc.blockNum + 4 ≤ adcIndexBlockNum)
  · have hclear : (sampling n).alarm.clear true 0 = (sampling n).alarm := rfl
    have hstep : (sampling n).sample default 0 =
        { sampling n with item := (sampling n).nextItem default, sampleTick := n + 1 } := by
      rw [Device.sample]
      simp only [hclear, hidle, if_true, ite_self]
      rfl
    rw [hstep, hnext]
    rfl

theorem run_sampling {n : Nat} (hn : n < 1000) :
    (device atHundred).Guarded Feeds (sampling 1) (List.replicate n (.sample default 0)) ∧
      (device atHundred).runFrom (sampling 1) (List.replicate n (.sample default 0)) =
        sampling (n + 1) := by
  induction n with
  | zero => exact ⟨trivial, rfl⟩
  | succ n ih =>
    obtain ⟨hguard, hrun⟩ := ih (by omega)
    obtain ⟨hfeeds, hstep⟩ := sampling_idle (n := n + 1) (by omega) (by omega)
    rw [List.replicate_succ', Machine.guarded_append, Machine.runFrom_append, hrun]
    exact ⟨⟨hguard, hfeeds, trivial⟩, hstep⟩

/-- The last 100 samples of second 101 are over the idle thresholds, and too much
current flows from second 102 on. -/
def currentSince : List DeviceStep :=
  List.replicate 100 (.sample busy 0) ++ [.tick 102] ++
    List.replicate 6 (.sample (overload 0) 0)

theorem feeds_currentSince : (device atHundred).Guarded Feeds atHundred
    ([.tick 101, .sample default 0] ++ List.replicate 899 (.sample default 0) ++ currentSince) := by
  have hstart : (device atHundred).runFrom atHundred [.tick 101, .sample default 0] =
      sampling 1 := rfl
  obtain ⟨hguard, hrun⟩ := run_sampling (n := 899) (by decide)
  rw [Machine.guarded_append, Machine.guarded_append, Machine.runFrom_append, hstart, hrun]
  exact ⟨⟨by decide +kernel, hguard⟩, by decide +kernel⟩

/-- The capture of that alarm is open, and it can be brought to its end. -/
theorem device_no_dead_end_open : ∃ s : Device, s.Wanted 102 ∧ s.NoDeadEnd := by
  refine ⟨(device atHundred).runFrom (sampling 900) currentSince, by decide +kernel,
    device_no_dead_end (fun _ => zeroBlock) { limits with calFlag := .devCalEnd }
      (.inr ⟨rfl, rfl, rfl⟩) rfl [] 100 .nil (fun r hr => absurd hr List.not_mem_nil) (by decide)
      _ ?_⟩
  have hreaches := Machine.Reaches.weaken (fun _ _ h => Feeds.keeps h)
    (Machine.Reaches.runFrom feeds_currentSince)
  have hstart : (device atHundred).runFrom atHundred [.tick 101, .sample default 0] =
      sampling 1 := rfl
  rw [Machine.runFrom_append, Machine.runFrom_append, hstart,
    (run_sampling (n := 899) (by decide)).2] at hreaches
  exact hreaches

end Device

end Lsc100
