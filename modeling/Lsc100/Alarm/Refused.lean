import Lsc100.Alarm.Task

/-! An alarm whose message does not fit into `alarm_queue`. The state has been changed by
then, and nothing changes it back. -/

namespace Lsc100

/-- The fields that `Adc_Check_Alarm` sets when it raises an alarm. -/
structure AlarmNotify.SameAlarm (n n' : AlarmNotify) : Prop where
  alarmSta : n'.alarmSta = n.alarmSta
  saveSta : n'.saveSta = n.saveSta
  alarmTs : n'.alarmTs = n.alarmTs
  index : n'.index = n.index

/-- If a check decides to raise an alarm and the queue is full, it leaves no trace. -/
def AlarmNotify.Traceless (lock : Bool) (bootTs : UInt32) (c : ConfigInfo) (item : AdcItem)
    (n : AlarmNotify) : Prop :=
  n.Raises lock bootTs c item → alarmQueueLength ≤ n.alarmQueue.length →
    n.SameAlarm (adcCheckAlarm lock bootTs c item n)

section Refused

variable {lock : Bool} {bootTs : UInt32} {c : ConfigInfo} {item : AdcItem} {n : AlarmNotify}

theorem adcCheckAlarm_of_raises (h : n.Raises lock bootTs c item) :
    adcCheckAlarm lock bootTs c item n =
      { n with num := n.num + 1 }.raise (alarmType c item) item := by
  obtain ⟨-, heq⟩ | ⟨hn, -⟩ := adcCheckAlarm_cases lock bootTs c item n
  · exact heq
  · exact absurd h hn

/-- The check that raises an alarm finds it not raised, and marks it as raised. -/
theorem alarmSta_ne_of_raises (h : n.Raises lock bootTs c item) :
    (adcCheckAlarm lock bootTs c item n).alarmSta ≠ n.alarmSta := by
  rw [adcCheckAlarm_of_raises h, (AlarmNotify.raise_fields _ _ _).1]
  exact fun heq => h.sta heq.symm

theorem traceless_iff (lock : Bool) (bootTs : UInt32) (c : ConfigInfo) (item : AdcItem)
    (n : AlarmNotify) :
    n.Traceless lock bootTs c item ↔
      ¬ (n.Raises lock bootTs c item ∧ alarmQueueLength ≤ n.alarmQueue.length) := by
  constructor
  · rintro h ⟨hraises, hfull⟩
    exact alarmSta_ne_of_raises hraises (h hraises hfull).alarmSta
  · intro h hraises hfull
    exact absurd ⟨hraises, hfull⟩ h

/-- A refused alarm has no message and cannot be raised again. It starts a capture, and of that
nothing is written unless the last message on the flash happens to be of its second. -/
theorem refused_alarm (hraises : n.Raises lock bootTs c item)
    (hfull : alarmQueueLength ≤ n.alarmQueue.length) :
    (adcCheckAlarm lock bootTs c item n).alarmQueue = n.alarmQueue ∧
      (∀ item', ¬ (adcCheckAlarm lock bootTs c item n).Raises lock bootTs c item') ∧
      (∀ rtcBaseSec, (item.ts / 1000).toUInt32 - 1 < rtcBaseSec →
        saveDue (adcCheckAlarm lock bootTs c item n) rtcBaseSec = true) ∧
      ∀ (l : Bool) (s : AlarmStore) (off : Nat) (data : Nat → UInt8) (len : Nat) (flag : Bool),
        s.alarm.indexItem.timestamp ≠ (item.ts / 1000).toUInt32 →
        storageWriteAlarmInfo l s ((adcCheckAlarm lock bootTs c item n).alarmTs + 1) off data len
          flag = (s, -1) := by
  rw [adcCheckAlarm_of_raises hraises]
  obtain ⟨hsta, hsave, hts, hindex, hqueue⟩ :=
    AlarmNotify.raise_fields { n with num := n.num + 1 } (alarmType c item) item
  refine ⟨?_, fun item' h => h.sta hsta, fun rtcBaseSec hlt => ?_, ?_⟩
  · rw [hqueue, if_neg (Nat.not_lt.mpr hfull)]
  · rw [saveDue, hsave, hts, hindex]
    simpa [AlarmMsg.ofItem] using hlt
  · intro l s off data len flag hne
    have hsecond : (item.ts / 1000).toUInt32 - 1 + 1 = (item.ts / 1000).toUInt32 :=
      UInt32.sub_add_cancel _ _
    rw [hts, storageWriteAlarmInfo, AlarmMsg.ofItem, hsecond, if_pos (Ne.symm hne)]
    cases l with
    | false => rfl
    | true => rfl

end Refused

def askSecond : List TaskEvent := [.tick 1000, .save true]

/-- An alarm is raised and its message handled; two seconds are captured. While the third is
read, it is asked for five more times; the alarm is cleared, and the fault is found again. -/
def stuffEvents : List TaskEvent :=
  raiseEvents 100000 ++ List.replicate 6 (.alarmTask true true) ++
    (askSecond ++ List.replicate 8 (.alarmTask true true)) ++
    (askSecond ++ List.replicate 8 (.alarmTask true true)) ++
    (askSecond ++ List.replicate 2 (.alarmTask true true)) ++
    (List.replicate 5 askSecond).flatten ++ List.replicate 5 (.alarmTask true true) ++
    askSecond ++ [.clear true 30000] ++ (raiseEvents 200000).take 5

/-- The tasks come to a state in which the next sample raises an alarm and has it refused. -/
theorem refused_trace :
    ¬ ((alarmSystem (fun _ _ => 0) 0 limits).run stuffEvents).notify.Traceless true 0 limits
      (overload 200005) := by
  rw [traceless_iff, not_not]
  decide +kernel

end Lsc100
