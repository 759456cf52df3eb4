import Lsc100.Alarm.Query

/-! The alarm state `g_AlarmNotify` of `adc_sample.c` with the functions that
raise, clear and save an alarm. Whether the mutex is obtained is an argument. -/

namespace Lsc100

/-- `a < b` of two `float` words: false when one is not a number. -/
def f32Lt (a b : UInt32) : Bool :=
  let magnitude (w : UInt32) : Nat := (w &&& 0x7FFFFFFF).toNat
  let value (w : UInt32) : Int := if w < 0x80000000 then magnitude w else -magnitude w
  magnitude a ≤ 0x7F800000 && magnitude b ≤ 0x7F800000 && value a < value b

/-- 100.0f -/
def busCurrentIdleThreshold : UInt32 := 0x42C80000

def calcBusCurrentLowThreshold (actualBusVoltage voltageLowLim : UInt32) : UInt32 :=
  if f32Lt actualBusVoltage voltageLowLim then voltageLowLim else actualBusVoltage

def calcBusCurrentUpThreshold (actualBusVoltage voltageUpLim : UInt32) : UInt32 :=
  if f32Lt actualBusVoltage voltageUpLim then actualBusVoltage else voltageUpLim

/-- `IS_CLEANR_ALARM` of `(raw / 65535.0f) * 10.0f`: in single precision it lies
strictly between 50.0f * 0.091f and 74.0f * 0.091f for these readings. -/
def isCleanrAlarm (rawData : UInt16) : Bool := 29819 ≤ rawData && rawData ≤ 44131

inductive AlarmSta
  | raised
  | recovery
  | cleared
  deriving DecidableEq, Repr

inductive SaveSta
  | strSave
  | endSave
  deriving DecidableEq, Repr

structure AlarmNotify where
  alarmQueue : List AlarmMsg
  alarmSem : Bool
  alarmTs : UInt32
  type : UInt8
  num : UInt8
  alarmSta : AlarmSta
  saveSta : SaveSta
  index : UInt8

def alarmNotifyInit : AlarmNotify := ⟨[], false, 0, busAlarmNone, 0, .cleared, .endSave, 0⟩

def alarmQueueLength : Nat := 5

/-- The message of an alarm raised for `item`. -/
def AlarmMsg.ofItem (type : UInt8) (item : AdcItem) : AlarmMsg :=
  ⟨item.time, (item.ts / 1000).toUInt32, (item.ts % 1000).toUInt16, type, fun _ => 0⟩

namespace AlarmNotify

/-- `xQueueSendToBack` without waiting; the semaphore is given if it succeeds. -/
def send (n : AlarmNotify) (msg : AlarmMsg) : AlarmNotify :=
  if n.alarmQueue.length < alarmQueueLength then
    { n with alarmQueue := n.alarmQueue ++ [msg], alarmSem := true }
  else n

/-- The last part of `Adc_Check_Alarm`. -/
def raise (n : AlarmNotify) (type : UInt8) (item : AdcItem) : AlarmNotify :=
  let msg := AlarmMsg.ofItem type item
  { n with alarmSta := .raised, saveSta := .strSave, alarmTs := msg.ts - 1, index := 0 }.send msg

end AlarmNotify

def sensorFrontCurrent : Fin 4 := ⟨0, by decide⟩
def sensorFrontVoltage : Fin 4 := ⟨1, by decide⟩
def snesorRearCurrent : Fin 4 := ⟨2, by decide⟩
def snesorRearVoltage : Fin 4 := ⟨3, by decide⟩

/-- The test of one bus: the current is above what its voltage allows. -/
def overCurrent (current voltage vmin vmax : UInt32) : Bool :=
  f32Lt busCurrentIdleThreshold current &&
    f32Lt (calcBusCurrentUpThreshold (calcBusCurrentLowThreshold voltage vmin) vmax) current

def alarmType (c : ConfigInfo) (item : AdcItem) : UInt8 :=
  (if overCurrent (item.data sensorFrontCurrent) (item.data sensorFrontVoltage) c.fVmin c.fVmax
    then busAlarmFrontVol else 0) |||
  (if overCurrent (item.data snesorRearCurrent) (item.data snesorRearVoltage) c.rVmin c.rVmax
    then busAlarmRearVol else 0)

def adcCheckAlarm (lock : Bool) (bootTs : UInt32) (c : ConfigInfo) (item : AdcItem)
    (n : AlarmNotify) : AlarmNotify :=
  let type := alarmType c item
  if lock then
    if type ≠ 0 then
      if n.saveSta = .strSave ∨ item.ts / 1000 < bootTs.toUInt64 then n
      else if type = n.type then
        if n.alarmSta = .raised then n
        else
          let n := { n with num := n.num + 1 }
          if n.num < 5 then n else n.raise type item
      else { n with num := 0, type := type }
    else
      { n with
        type := busAlarmNone
        alarmSta := if n.alarmSta = .raised then .recovery else n.alarmSta }
  else n

/-- The relay and the LED as `Adc_Clear_Alarm` leaves them. -/
structure AlarmOutput where
  relay : Bool
  led : Bool
  deriving DecidableEq, Repr

def adcClearAlarm (lock : Bool) (rawData : UInt16) (n : AlarmNotify) (out : AlarmOutput) :
    AlarmNotify × AlarmOutput :=
  if lock then
    if n.alarmSta = .raised ∨ n.alarmSta = .recovery then
      if isCleanrAlarm rawData then
        ({ n with alarmSta := .cleared, type := busAlarmNone }, ⟨false, false⟩)
      else (n, out)
    else (n, out)
  else (n, out)

def AlarmMsg.ofSave (ts : UInt32) : AlarmMsg :=
  ⟨⟨0, 0, 0, 0, 0, 0⟩, ts, 0, busAlarmSave, fun _ => 0⟩

def adcSaveAlarm (lock : Bool) (n : AlarmNotify) : AlarmNotify :=
  if lock then
    if 3 ≤ n.index ∧ n.saveSta = .strSave then { n with saveSta := .endSave, index := 0 }
    else n.send (.ofSave (n.alarmTs + n.index.toUInt32))
  else n

/-- The test `time_sync_task` makes before `Adc_Save_Alarm`. -/
def saveDue (n : AlarmNotify) (rtcBaseSec : UInt32) : Bool :=
  n.saveSta = .strSave && n.alarmTs + n.index.toUInt32 < rtcBaseSec

/-- The check that finds the same fault for the fifth time raises an alarm. -/
structure AlarmNotify.Raises (lock : Bool) (bootTs : UInt32) (c : ConfigInfo) (item : AdcItem)
    (n : AlarmNotify) : Prop where
  lock : lock = true
  fault : alarmType c item ≠ 0
  idle : n.saveSta ≠ .strSave
  boot : ¬ item.ts / 1000 < bootTs.toUInt64
  same : alarmType c item = n.type
  sta : n.alarmSta ≠ .raised
  num : ¬ n.num + 1 < 5

instance (lock : Bool) (bootTs : UInt32) (c : ConfigInfo) (item : AdcItem) (n : AlarmNotify) :
    Decidable (n.Raises lock bootTs c item) :=
  decidable_of_iff (lock = true ∧ alarmType c item ≠ 0 ∧ n.saveSta ≠ .strSave ∧
      ¬ item.ts / 1000 < bootTs.toUInt64 ∧ alarmType c item = n.type ∧ n.alarmSta ≠ .raised ∧
      ¬ n.num + 1 < 5)
    ⟨fun ⟨h₁, h₂, h₃, h₄, h₅, h₆, h₇⟩ => ⟨h₁, h₂, h₃, h₄, h₅, h₆, h₇⟩,
      fun h => ⟨h.lock, h.fault, h.idle, h.boot, h.same, h.sta, h.num⟩⟩

/-- A check that raises nothing touches neither the queue nor the capture. -/
structure AlarmNotify.SameCapture (n n' : AlarmNotify) : Prop where
  alarmQueue : n'.alarmQueue = n.alarmQueue
  alarmSem : n'.alarmSem = n.alarmSem
  alarmTs : n'.alarmTs = n.alarmTs
  saveSta : n'.saveSta = n.saveSta
  index : n'.index = n.index
  sta : n'.alarmSta = n.alarmSta ∨ n.alarmSta = .raised ∧ n'.alarmSta = .recovery

theorem AlarmNotify.SameCapture.refl (n : AlarmNotify) : n.SameCapture n :=
  ⟨rfl, rfl, rfl, rfl, rfl, .inl rfl⟩

theorem adcCheckAlarm_cases (lock : Bool) (bootTs : UInt32) (c : ConfigInfo) (item : AdcItem)
    (n : AlarmNotify) :
    (n.Raises lock bootTs c item ∧
      adcCheckAlarm lock bootTs c item n =
        { n with num := n.num + 1 }.raise (alarmType c item) item) ∨
    (¬ n.Raises lock bootTs c item ∧ n.SameCapture (adcCheckAlarm lock bootTs c item n)) := by
  rw [adcCheckAlarm]
  cases lock with
  | false => exact .inr ⟨fun h => absurd h.lock (by decide), .refl n⟩
  | true =>
    simp only [if_true]
    by_cases hfault : alarmType c item ≠ 0
    · rw [if_pos hfault]
      by_cases hidle : n.saveSta = .strSave ∨ item.ts / 1000 < bootTs.toUInt64
      · rw [if_pos hidle]
        exact .inr ⟨fun h => hidle.elim h.idle h.boot, .refl n⟩
      rw [if_neg hidle]
      by_cases hsame : alarmType c item = n.type
      · rw [if_pos hsame]
        by_cases hsta : n.alarmSta = .raised
        · rw [if_pos hsta]
          exact .inr ⟨fun h => h.sta hsta, .refl n⟩
        rw [if_neg hsta]
        by_cases hnum : n.num + 1 < 5
        · rw [if_pos hnum]
          exact .inr ⟨fun h => h.num hnum, rfl, rfl, rfl, rfl, rfl, .inl rfl⟩
        · rw [if_neg hnum]
          exact .inl ⟨⟨rfl, hfault, fun h => hidle (.inl h), fun h => hidle (.inr h), hsame, hsta,
            hnum⟩, rfl⟩
      · rw [if_neg hsame]
        exact .inr ⟨fun h => hsame h.same, rfl, rfl, rfl, rfl, rfl, .inl rfl⟩
    · rw [if_neg hfault]
      refine .inr ⟨fun h => hfault h.fault, rfl, rfl, rfl, rfl, rfl, ?_⟩
      by_cases hsta : n.alarmSta = .raised
      · exact .inr ⟨hsta, if_pos hsta⟩
      · exact .inl (if_neg hsta)

namespace AlarmNotify

variable (n : AlarmNotify) (msg : AlarmMsg)

theorem send_alarmQueue : (n.send msg).alarmQueue =
    if n.alarmQueue.length < alarmQueueLength then n.alarmQueue ++ [msg] else n.alarmQueue := by
  rw [send]
  split <;> rfl

@[simp] theorem send_alarmSta : (n.send msg).alarmSta = n.alarmSta := by
  rw [send]
  split <;> rfl

@[simp] theorem send_saveSta : (n.send msg).saveSta = n.saveSta := by
  rw [send]
  split <;> rfl

@[simp] theorem send_alarmTs : (n.send msg).alarmTs = n.alarmTs := by
  rw [send]
  split <;> rfl

@[simp] theorem send_index : (n.send msg).index = n.index := by
  rw [send]
  split <;> rfl

end AlarmNotify

/-- Raising changes the state also when the queue is full. -/
theorem AlarmNotify.raise_fields (n : AlarmNotify) (type : UInt8) (item : AdcItem) :
    (n.raise type item).alarmSta = .raised ∧ (n.raise type item).saveSta = .strSave ∧
      (n.raise type item).alarmTs = (AlarmMsg.ofItem type item).ts - 1 ∧
      (n.raise type item).index = 0 ∧
      (n.raise type item).alarmQueue = if n.alarmQueue.length < alarmQueueLength then
        n.alarmQueue ++ [.ofItem type item] else n.alarmQueue := by
  simp only [raise, send_alarmSta, send_saveSta, send_alarmTs, send_index, send_alarmQueue,
    and_self]

theorem adcSaveAlarm_cases (lock : Bool) (n : AlarmNotify) :
    adcSaveAlarm lock n = n ∨
      (lock = true ∧ 3 ≤ n.index ∧ n.saveSta = .strSave ∧
        adcSaveAlarm lock n = { n with saveSta := .endSave, index := 0 }) ∨
      (¬ (3 ≤ n.index ∧ n.saveSta = .strSave) ∧
        adcSaveAlarm lock n = n.send (.ofSave (n.alarmTs + n.index.toUInt32))) := by
  rw [adcSaveAlarm]
  cases lock with
  | false => exact .inl rfl
  | true =>
    by_cases hend : 3 ≤ n.index ∧ n.saveSta = .strSave
    · exact .inr (.inl ⟨rfl, hend.1, hend.2, by rw [if_pos rfl, if_pos hend]⟩)
    · exact .inr (.inr ⟨hend, by rw [if_pos rfl, if_neg hend]⟩)

theorem alarmType_cases (c : ConfigInfo) (item : AdcItem) :
    alarmType c item = 0 ∨ alarmType c item = busAlarmFrontVol ∨
      alarmType c item = busAlarmRearVol ∨ alarmType c item = busAlarmFrontRearVol := by
  rw [alarmType]
  split <;> split <;> decide

end Lsc100
