import Lsc100.Alarm.Notify
import Lsc100.Alarm.Ring

/-! The tasks that share `g_AlarmNotify`: `sample_task` checks and clears,
`time_sync_task` asks for seconds to be saved, `alarm_task` handles one message
of the queue after the other. `alarm_task` holds no lock over its loop, so it is
cut into the steps between which the others may run. -/

namespace Lsc100

/-- Where `alarm_task` stands, with its local variables. -/
inductive AlarmPc
  | wait
  | drain
  | relay (msg : AlarmMsg)
  | led (msg : AlarmMsg)
  | store (msg : AlarmMsg)
  | read (msg : AlarmMsg)
  | load
  | incr (index : UInt8)
  | args
  | write (timestamp : UInt32) (flag : Bool)

/-- What one capture has written when it is over. -/
structure EndedCapture where
  alarmTs : UInt32
  ops : List FlashOp
  numBefore : Nat
  numAfter : Nat

/-- `mark` is the length of the flash log when the last alarm was raised, and
`num` the counter of index entries; `ended` are the captures that are over. -/
structure AlarmSystem where
  notify : AlarmNotify
  out : AlarmOutput
  pc : AlarmPc
  adcData : Nat → UInt8
  saveDue : Bool
  store : AlarmStore
  mark : Nat
  num : Nat
  ended : List EndedCapture

/-- Locks, reads and the clock are chosen by the run. -/
inductive TaskEvent
  | check (lock : Bool) (item : AdcItem)
  | clear (lock : Bool) (rawData : UInt16)
  | tick (rtcBaseSec : UInt32)
  | save (lock : Bool)
  | alarmTask (lock ok : Bool)

def AlarmMsg.isFault (m : AlarmMsg) : Bool :=
  m.type == busAlarmFrontVol || m.type == busAlarmFrontRearVol || m.type == busAlarmRearVol

/-- Info and index writes; messages are written by themselves. -/
def FlashOp.ofCapture : FlashOp → Bool
  | .write _ _ count => count ≠ alarmMsgSize
  | .eraseChip => true

namespace AlarmSystem

def boot (c : ConfigInfo) : AlarmSystem :=
  ⟨alarmNotifyInit, ⟨false, false⟩, .wait, fun _ => 0, false, .boot c, 0, 0, []⟩

def check (bootTs : UInt32) (lock : Bool) (item : AdcItem) (s : AlarmSystem) : AlarmSystem :=
  let notify := adcCheckAlarm lock bootTs s.store.config item s.notify
  if s.notify.saveSta = .endSave ∧ notify.saveSta = .strSave then
    { s with notify := notify, mark := s.store.flash.ops.length, num := s.store.alarm.indexNum }
  else { s with notify := notify }

def clear (lock : Bool) (rawData : UInt16) (s : AlarmSystem) : AlarmSystem :=
  let cleared := adcClearAlarm lock rawData s.notify s.out
  { s with notify := cleared.1, out := cleared.2 }

def captureOps (s : AlarmSystem) : List FlashOp :=
  (s.store.flash.ops.drop s.mark).filter FlashOp.ofCapture

def save (lock : Bool) (s : AlarmSystem) : AlarmSystem :=
  if s.saveDue then
    let notify := adcSaveAlarm lock s.notify
    { s with
      notify := notify
      saveDue := false
      ended := if s.notify.saveSta = .strSave ∧ notify.saveSta = .endSave then
          s.ended ++ [⟨s.notify.alarmTs, s.captureOps, s.num, s.store.alarm.indexNum⟩]
        else s.ended }
  else s

/-- `records t` is what a successful `Storage_Read_AdcData` delivers for `t`. -/
def alarmTask (records : UInt32 → Nat → UInt8) (lock ok : Bool) (s : AlarmSystem) : AlarmSystem :=
  match s.pc with
  | .wait =>
    if s.notify.alarmSem then { s with notify := { s.notify with alarmSem := false }, pc := .drain }
    else s
  | .drain =>
    match s.notify.alarmQueue with
    | [] => { s with pc := .wait }
    | msg :: rest =>
      { s with
        notify := { s.notify with alarmQueue := rest }
        pc := if msg.isFault then .relay msg
          else if msg.type = busAlarmSave then .read msg else .drain }
  | .relay msg => { s with out := { s.out with relay := true }, pc := .led msg }
  | .led msg => { s with out := { s.out with led := true }, pc := .store msg }
  | .store msg => { s with store := (storageWriteAlarmMsg lock s.store msg.ts msg.byte).1, pc := .drain }
  | .read msg =>
    if ok then { s with adcData := records msg.ts, pc := .load } else { s with pc := .drain }
  | .load => { s with pc := .incr s.notify.index }
  | .incr index => { s with notify := { s.notify with index := index + 1 }, pc := .args }
  | .args => { s with pc := .write (s.notify.alarmTs + 1) (3 ≤ s.notify.index) }
  | .write timestamp flag =>
    { s with
      store := (storageWriteAlarmInfo lock s.store timestamp 0 s.adcData adcDataSize flag).1
      pc := .drain }

/-- Of the notification `alarm_task` changes the queue, the semaphore and the index only. -/
theorem alarmTask_notify (records : UInt32 → Nat → UInt8) (lock ok : Bool) (s : AlarmSystem) :
    ∃ queue sem index, (s.alarmTask records lock ok).notify =
      { s.notify with alarmQueue := queue, alarmSem := sem, index := index } := by
  rw [alarmTask]
  split
  · split <;> exact ⟨_, _, _, rfl⟩
  · split <;> exact ⟨_, _, _, rfl⟩
  · exact ⟨_, _, _, rfl⟩
  · exact ⟨_, _, _, rfl⟩
  · exact ⟨_, _, _, rfl⟩
  · split <;> exact ⟨_, _, _, rfl⟩
  · exact ⟨_, _, _, rfl⟩
  · exact ⟨_, _, _, rfl⟩
  · exact ⟨_, _, _, rfl⟩
  · exact ⟨_, _, _, rfl⟩

end AlarmSystem

def alarmSystem (records : UInt32 → Nat → UInt8) (bootTs : UInt32) (c : ConfigInfo) :
    Machine AlarmSystem TaskEvent where
  start := .boot c
  step s
    | .check lock item => s.check bootTs lock item
    | .clear lock rawData => s.clear lock rawData
    | .tick rtcBaseSec =>
      if s.saveDue then s else { s with saveDue := saveDue s.notify rtcBaseSec }
    | .save lock => s.save lock
    | .alarmTask lock ok => s.alarmTask records lock ok

/-- Limits of 500 and 2000 on both buses. -/
def limits : ConfigInfo :=
  { ConfigInfo.nextOn with
    fVmin := 0x43FA0000
    fVmax := 0x44FA0000
    rVmin := 0x43FA0000
    rVmax := 0x44FA0000 }

/-- The front current is 600 at no voltage. -/
def overload (ts : UInt64) : AdcItem :=
  ⟨⟨0, 0, 0, 0, 0, 0⟩, ts, fun _ => 0,
    fun k => if k = sensorFrontCurrent then 0x44160000 else 0, 0, fun _ => 0⟩

/-- Six samples over the limit: the first only sets the type. -/
def raiseEvents (ts : UInt64) : List TaskEvent :=
  [.check true (overload ts), .check true (overload (ts + 1)), .check true (overload (ts + 2)),
    .check true (overload (ts + 3)), .check true (overload (ts + 4)),
    .check true (overload (ts + 5))]

end Lsc100
