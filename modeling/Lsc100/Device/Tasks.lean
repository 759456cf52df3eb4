import Lsc100.Alarm.Task
import Lsc100.Adc.Recorder
import Lsc100.Sample.StorageTask

/-! All tasks of the recorder at work: `sample_task` with its skip of idle samples,
`time_sync_task`, `storage_task` and `alarm_task`. Locks and storage operations
succeed. What the sensors and the clock show is in the events. The alarm log and
the sample store each have their copy of `g_ConfigInfo`: they change different
fields of it and read none of the other's. -/

namespace Lsc100

open Bytes

/-- 100.0f -/
def busVoltageIdleThreshold : UInt32 := 0x42C80000

/-- `sample_task` skips such a sample. -/
def AdcItem.isIdle (item : AdcItem) : Bool :=
  f32Lt (item.data sensorFrontCurrent) busCurrentIdleThreshold &&
    f32Lt (item.data sensorFrontVoltage) busVoltageIdleThreshold &&
    f32Lt (item.data snesorRearCurrent) busCurrentIdleThreshold &&
    f32Lt (item.data snesorRearVoltage) busVoltageIdleThreshold

/-- The sample as it lies in memory. -/
def AdcItem.byte (item : AdcItem) (k : Nat) : UInt8 :=
  if k < 6 then item.time.bytes.getD k 0
  else if k < 14 then byteOf item.ts.toNat (k - 6)
  else if k < 22 then
    byteOf (item.rawData ⟨(k - 14) / 2 % 4, Nat.mod_lt _ (by decide)⟩).toNat ((k - 14) % 2)
  else if k < 38 then
    byteOf (item.data ⟨(k - 22) / 4 % 4, Nat.mod_lt _ (by decide)⟩).toNat ((k - 22) % 4)
  else if k < 42 then byteOf item.temp.toNat (k - 38)
  else item.rsvd ⟨(k - 42) % 22, Nat.mod_lt _ (by decide)⟩

def HandedRecord.second (r : HandedRecord) : SecondRecord :=
  ⟨r.ts, fun b k => (r.items (8 * b + k.val / 64)).byte (k.val % 64)⟩

/-- `item` is the local variable of `sample_task`. -/
structure Device where
  alarm : AlarmSystem
  flow : SampleFlow
  adc : AdcStore
  rtcBaseSec : UInt32
  bootTs : UInt32
  sampleTick : Nat
  item : AdcItem

inductive DeviceStep
  | sample (reading : AdcItem) (rawAdc : UInt16)
  | tick (rtcBaseSec : UInt32)
  | save
  | turn
  | alarmTask

namespace Device

/-- The tasks have just been started at `rtcBaseSec`. -/
def boot (adc : AdcStore) (rtcBaseSec : UInt32) : Device where
  alarm := .boot adc.config
  flow := sampleFlow.start
  adc := adc
  rtcBaseSec := rtcBaseSec
  bootTs := rtcBaseSec + 2
  sampleTick := 0
  item := { (default : AdcItem) with ts := rtcBaseSec.toUInt64 * 1000 }

/-- Time and temperature are taken over once in 1000 samples. -/
def nextItem (s : Device) (reading : AdcItem) : AdcItem :=
  if s.sampleTick % 1000 = 0 then { reading with ts := s.rtcBaseSec.toUInt64 * 1000 }
  else { reading with time := s.item.time, ts := s.item.ts + 1, temp := s.item.temp }

/-- The device has been calibrated and restarted. -/
def Recording (s : Device) : Prop :=
  s.alarm.store.config.calFlag = .devCalEnd ∧ s.alarm.store.config.flag = devFlagNextOn

instance (s : Device) : Decidable s.Recording := inferInstanceAs (Decidable (_ ∧ _))

def sample (reading : AdcItem) (rawAdc : UInt16) (s : Device) : Device :=
  let item := s.nextItem reading
  let s := { s with item := item, sampleTick := s.sampleTick + 1 }
  if s.Recording then
    let s := { s with alarm := s.alarm.clear true rawAdc }
    if item.isIdle then s
    else { s with flow := s.flow.write true item, alarm := s.alarm.check s.bootTs true item }
  else s

/-- `time_sync_task` reads the clock again when it has finished `Adc_Save_Alarm`. -/
def tick (rtcBaseSec : UInt32) (s : Device) : Device :=
  if s.alarm.saveDue then s
  else { s with
    rtcBaseSec := rtcBaseSec
    alarm := { s.alarm with saveDue := saveDue s.alarm.notify rtcBaseSec } }

def save (s : Device) : Device := { s with alarm := s.alarm.save true }

def turn (s : Device) : Device :=
  let flow := s.flow.turn true true
  { s with
    flow := flow
    adc := ((flow.handed.drop s.flow.handed.length).map HandedRecord.second).foldl
      (fun adc r => (storageWriteAdcData .ok adc r.ts r.data 125 true).1) s.adc }

/-- `Storage_Read_AdcData` of a whole second into `g_adc_data`. -/
def readAdcData (s : Device) (ts : UInt32) : Int × Blocks :=
  storageReadAdcData .ok s.adc ts 0 (fun _ => zeroBlock) 125

def readOk (s : Device) : Bool :=
  match s.alarm.pc with
  | .read msg => (s.readAdcData msg.ts).1 = 0
  | _ => true

/-- `g_adc_data` after a read, byte by byte. -/
def record (s : Device) (ts : UInt32) (k : Nat) : UInt8 :=
  (s.readAdcData ts).2 (k / 512) ⟨k % 512, Nat.mod_lt _ (by decide)⟩

def alarmTask (s : Device) : Device :=
  { s with alarm := s.alarm.alarmTask s.record true s.readOk }

def step (s : Device) : DeviceStep → Device
  | .sample reading rawAdc => s.sample reading rawAdc
  | .tick rtcBaseSec => s.tick rtcBaseSec
  | .save => s.save
  | .turn => s.turn
  | .alarmTask => s.alarmTask

/-- The clock does not run backwards. -/
def Clock (s : Device) : DeviceStep → Prop
  | .tick rtcBaseSec => s.rtcBaseSec ≤ rtcBaseSec
  | _ => True

end Device

def device (start : Device) : Machine Device DeviceStep := ⟨start, Device.step⟩

namespace Device

/-- Some continuation of the run leads from the one state to the other. -/
def Leads (s t : Device) : Prop := (device s).Reaches Clock s t

/-- The second is still to be captured. -/
structure Wanted (s : Device) (sec : Nat) : Prop where
  capturing : s.alarm.notify.saveSta = .strSave
  lower : s.alarm.notify.alarmTs.toNat + s.alarm.notify.index.toNat ≤ sec
  upper : sec ≤ s.alarm.notify.alarmTs.toNat + 2

/-- The store has a record of the second, and the search finds it. -/
def Retrievable (s : Device) (sec : Nat) : Prop := (s.readAdcData (UInt32.ofNat sec)).1 = 0

/-- Every second still to be captured has a record or can get one, and the
capture can be brought to its end. -/
structure NoDeadEnd (s : Device) : Prop where
  seconds : ∀ sec, s.Wanted sec → ∃ t, s.Leads t ∧ t.Retrievable sec
  ends : ∃ t, s.Leads t ∧ t.alarm.notify.saveSta = .endSave

theorem Leads.refl (s : Device) : s.Leads s := Machine.Reaches.refl s

theorem Leads.trans {s t u : Device} (h : s.Leads t) (h' : t.Leads u) : s.Leads u :=
  Machine.Reaches.trans h h'

theorem Leads.step {s : Device} {e : DeviceStep} (he : s.Clock e) : s.Leads (s.step e) :=
  Machine.Reaches.step he

end Device

end Lsc100
