import Lsc100.Basis.Bytes
import Lsc100.Config
import Lsc100.Flash

/-! The alarm log of `storage_manage.c` on NOR flash: 32-byte messages, 64000
bytes of samples for each captured second, and 16-byte index entries. Whether
the mutex is obtained is an argument. -/

namespace Lsc100

open Bytes

def alarmMsgStartAddr : Nat := 0
def alarmInfoStartAddr : Nat := 20480
def alarmIndexStartAddr : Nat := 0x7C00000
def alarmItemTotalNum : Nat := 640
def alarmMsgSize : Nat := 32
def alarmItemSize : Nat := 1000 * 64 * 3 + 32
def alarmIndexItemSize : Nat := 16
def alarmIndexNumPrePage : Nat := gd55b01gePageSize / alarmIndexItemSize
def alarmMsgEndAddr : Nat := alarmMsgStartAddr + 32 * alarmItemTotalNum
def alarmInfoEndAddr : Nat := alarmInfoStartAddr + (alarmItemSize - 32) * alarmItemTotalNum
def alarmIndexEndAddr : Nat := alarmIndexStartAddr + alarmItemTotalNum / 16 * gd55b01gePageSize

structure AlarmIndexItem where
  msgAddr : UInt32
  infoAddr : UInt32
  timestamp : UInt32
  rsvd : Fin 4 → UInt8

/-- The entry as it lies in memory. -/
def AlarmIndexItem.byte (it : AlarmIndexItem) (k : Nat) : UInt8 :=
  if k < 4 then byteOf it.msgAddr.toNat k
  else if k < 8 then byteOf it.infoAddr.toNat (k - 4)
  else if k < 12 then byteOf it.timestamp.toNat (k - 8)
  else it.rsvd (Fin.ofNat 4 (k - 12))

def AlarmIndexItem.ofBytes (b : Nat → UInt8) : AlarmIndexItem where
  msgAddr := UInt32.ofNat (leNat 4 b)
  infoAddr := UInt32.ofNat (leNat 4 (fun k => b (k + 4)))
  timestamp := UInt32.ofNat (leNat 4 (fun k => b (k + 8)))
  rsvd k := b (k.val + 12)

structure AlarmObject where
  addr : Nat
  infoAddr : Nat
  indexAddr : Nat
  indexNum : Nat
  indexItem : AlarmIndexItem

structure AlarmStore where
  alarm : AlarmObject
  flash : Flash
  config : ConfigInfo
  configStatus : Bool

def storageWriteAlarmMsg (lock : Bool) (s : AlarmStore) (timestamp : UInt32)
    (data : Nat → UInt8) : AlarmStore × Int :=
  if lock then
    ({ s with
       flash := gd55b01geWriteData s.flash s.alarm.addr data alarmMsgSize
       alarm := { s.alarm with
         indexItem := { s.alarm.indexItem with
           timestamp := timestamp
           msgAddr := UInt32.ofNat s.alarm.addr
           infoAddr := UInt32.ofNat s.alarm.infoAddr }
         addr := (s.alarm.addr + alarmMsgSize) % 2 ^ 32 } }, 0)
  else (s, -1)

/-- `ret` is never set, so that the caller always sees -1. -/
def storageReadAlarmMsg (lock : Bool) (s : AlarmStore) (alarmIndex : Nat) (data : Nat → UInt8)
    (alarmNum : Nat) : Int × (Nat → UInt8) :=
  if lock then
    (-1, Overlay.overlay (fun _ x => x) data 0 (alarmNum * alarmMsgSize)
      (gd55b01geReadData s.flash (alarmMsgStartAddr + alarmIndex * alarmMsgSize)))
  else (-1, data)

/-- The index entry is written and the next slot prepared. -/
def AlarmStore.finish (s : AlarmStore) : AlarmStore :=
  let flash := gd55b01geWriteData s.flash s.alarm.indexAddr s.alarm.indexItem.byte
    alarmIndexItemSize
  let alarm := { s.alarm with
    indexAddr := (s.alarm.indexAddr + alarmIndexItemSize) % 2 ^ 32
    indexNum := (s.alarm.indexNum + 1) % 2 ^ 16 }
  let alarm := if alarmItemTotalNum ≤ alarm.indexNum then
      { alarm with
        indexNum := alarmItemTotalNum
        addr := alarmMsgStartAddr
        infoAddr := alarmInfoStartAddr
        indexAddr := alarmIndexStartAddr }
    else alarm
  { alarm := alarm
    flash := flash
    config := { s.config with alarmNum := UInt16.ofNat alarm.indexNum }
    configStatus := true }

def storageWriteAlarmInfo (lock : Bool) (s : AlarmStore) (timestamp : UInt32) (_off : Nat)
    (data : Nat → UInt8) (len : Nat) (flag : Bool) : AlarmStore × Int :=
  if lock then
    if timestamp ≠ s.alarm.indexItem.timestamp then (s, -1)
    else
      let s := { s with
        flash := gd55b01geWriteData s.flash s.alarm.infoAddr data len
        alarm := { s.alarm with infoAddr := (s.alarm.infoAddr + len) % 2 ^ 32 } }
      (if flag then s.finish else s, 0)
  else (s, -1)

/-- The page-wise search of `Storage_Read_AlarmInfo`, `num` entries having been
looked at. The body runs before the bound is tested. -/
def searchIndex (f : Flash) (timestamp : UInt32) (indexNum : Nat) (num indexAddr : Nat) :
    Option AlarmIndexItem :=
  let buf := gd55b01geReadData f indexAddr
  match (List.range alarmIndexNumPrePage).find?
      (fun i => timestamp = (AlarmIndexItem.ofBytes (fun k => buf (i * 16 + k))).timestamp) with
  | some i => some (.ofBytes (fun k => buf (i * 16 + k)))
  | none =>
    if num + alarmIndexNumPrePage < indexNum then
      searchIndex f timestamp indexNum (num + alarmIndexNumPrePage)
        (indexAddr + gd55b01gePageSize)
    else none
termination_by indexNum - num
decreasing_by
  have : alarmIndexNumPrePage = 16 := rfl
  omega

def storageReadAlarmInfo (lock : Bool) (s : AlarmStore) (timestamp : UInt32) (off : Nat)
    (data : Nat → UInt8) (len : Nat) : Int × (Nat → UInt8) :=
  if lock then
    match searchIndex s.flash timestamp s.alarm.indexNum 0 alarmIndexStartAddr with
    | some item => (0, Overlay.overlay (fun _ x => x) data 0 len
        (gd55b01geReadData s.flash ((item.infoAddr.toNat + off) % 2 ^ 32)))
    | none => (-1, data)
  else (-1, data)

def storageClearAlarmData (lock : Bool) (s : AlarmStore) : AlarmStore :=
  if lock then
    { s with
      alarm := { s.alarm with
        addr := alarmMsgStartAddr
        infoAddr := alarmInfoStartAddr
        indexAddr := alarmIndexStartAddr
        indexNum := 0 }
      flash := gd55b01geEraseChip s.flash }
  else s

/-- `Alarm_Object_Init`, the mutex created. -/
def alarmObjectInit (config : ConfigInfo) : AlarmObject :=
  let object : AlarmObject := ⟨0, 0, 0, 0, ⟨0, 0, 0, fun _ => 0⟩⟩
  if config.flag = devFlagFirstOn then
    { object with
      addr := alarmMsgStartAddr
      infoAddr := alarmInfoStartAddr
      indexAddr := alarmIndexStartAddr }
  else if config.flag = devFlagNextOn then
    { object with
      indexNum := config.alarmNum.toNat
      addr := alarmMsgStartAddr + config.alarmNum.toNat * alarmMsgSize
      infoAddr :=
        (alarmInfoStartAddr + config.alarmNum.toNat * (alarmItemSize - alarmMsgSize)) % 2 ^ 32
      indexAddr := alarmIndexStartAddr + config.alarmNum.toNat * alarmIndexItemSize }
  else object

end Lsc100
