import Lsc100.Basis.Locking
import Lsc100.Adc.Store
import Lsc100.Alarm.Notify
import Lsc100.Net.CirQueue
import Lsc100.Sample.Clock

/-! The functions that work under a mutex, written out with every take and give on each of
their ways. `null` says that a pointer they are passed is `NULL`. -/

namespace Lsc100

open Locking

inductive Mutex
  | cache
  | timeSync
  | alarmNotify
  | adc
  | alarm
  | cirQue
  deriving DecidableEq

namespace Locked

section AdcSample

variable (lock null : Bool)

def adcCheckAlarm (bootTs : UInt32) (c : ConfigInfo) (item : AdcItem) (n : AlarmNotify) :
    LockM Mutex AlarmNotify := do
  let type := alarmType c item
  if type ≠ 0 then
    if !(← take .alarmNotify lock) then
      return n
    if n.saveSta = .strSave ∨ item.ts / 1000 < bootTs.toUInt64 then
      give .alarmNotify
      return n
    if type = n.type then
      if n.alarmSta = .raised then
        give .alarmNotify
        return n
      let n := { n with num := n.num + 1 }
      if n.num < 5 then
        give .alarmNotify
        return n
      let msg := AlarmMsg.ofItem type item
      let n := { n with
        alarmSta := .raised, saveSta := .strSave, alarmTs := msg.ts - 1, index := 0 }
      if alarmQueueLength ≤ n.alarmQueue.length then
        give .alarmNotify
        return n
      let n := { n with alarmQueue := n.alarmQueue ++ [msg], alarmSem := true }
      give .alarmNotify
      return n
    else
      let n := { n with num := 0, type := type }
      give .alarmNotify
      return n
  else
    if !(← take .alarmNotify lock) then
      return n
    let n := if n.type ≠ 0 then { n with type := busAlarmNone } else n
    let n := if n.alarmSta = .raised then { n with alarmSta := .recovery } else n
    give .alarmNotify
    return n

def adcClearAlarm (rawData : UInt16) (n : AlarmNotify) (out : AlarmOutput) :
    LockM Mutex (AlarmNotify × AlarmOutput) := do
  if !(← take .alarmNotify lock) then
    return (n, out)
  let r :=
    if n.alarmSta = .raised ∨ n.alarmSta = .recovery then
      if isCleanrAlarm rawData then
        ({ n with alarmSta := .cleared, type := busAlarmNone }, ⟨false, false⟩)
      else (n, out)
    else (n, out)
  give .alarmNotify
  return r

def adcSaveAlarm (n : AlarmNotify) : LockM Mutex AlarmNotify := do
  if !(← take .alarmNotify lock) then
    return n
  if 3 ≤ n.index ∧ n.saveSta = .strSave then
    let n := { n with saveSta := .endSave, index := 0 }
    give .alarmNotify
    return n
  let msg := AlarmMsg.ofSave (n.alarmTs + n.index.toUInt32)
  if alarmQueueLength ≤ n.alarmQueue.length then
    give .alarmNotify
    return n
  let n := { n with alarmQueue := n.alarmQueue ++ [msg], alarmSem := true }
  give .alarmNotify
  return n

/-- `created` says that the mutex could be made. -/
def adcCacheInit (created : Bool) (cache : AdcItemCache) :
    LockM Mutex (AdcItemCache × Nat) := do
  if null then
    return (cache, 2)
  let cache := Lsc100.adcCacheInit cache
  if !created then
    return (cache, 1)
  return (cache, 0)

def adcCacheWriteOne (cache : AdcItemCache) (data : AdcItem) :
    LockM Mutex (AdcItemCache × Nat) := do
  if null then
    return (cache, 2)
  if !(← take .cache lock) then
    return (cache, 3)
  let r :=
    if adcCacheMax ≤ cache.count then (cache, 1)
    else
      ({ item := Function.update cache.item cache.wrIdx data
         wrIdx := (cache.wrIdx + 1) % adcCacheMax
         rdIdx := cache.rdIdx
         count := cache.count + 1 }, 0)
  give .cache
  return r

def adcCacheWriteBatch (cache : AdcItemCache) (data : Nat → AdcItem) (len : Nat) :
    LockM Mutex (AdcItemCache × Nat) := do
  if null ∨ len = 0 then
    return (cache, 0)
  if !(← take .cache lock) then
    return (cache, 0)
  let freeSpace := (adcCacheMax + 2 ^ 32 - cache.count) % 2 ^ 16
  let writeLen := if len < freeSpace then len else freeSpace
  let r :=
    if 0 < writeLen then
      ({ cache with
         item := Ring.copyIn adcCacheMax cache.item cache.wrIdx data writeLen
         wrIdx := (cache.wrIdx + writeLen) % adcCacheMax
         count := cache.count + writeLen }, writeLen)
    else (cache, 0)
  give .cache
  return r

def adcCacheReadOne (cache : AdcItemCache) (data : Nat → AdcItem) (off : Nat) :
    LockM Mutex (AdcItemCache × (Nat → AdcItem) × Nat) := do
  if null then
    return (cache, data, 2)
  if !(← take .cache lock) then
    return (cache, data, 3)
  let r :=
    if cache.count = 0 then (cache, data, 1)
    else
      ({ cache with rdIdx := (cache.rdIdx + 1) % adcCacheMax, count := cache.count - 1 },
        Function.update data off (cache.item cache.rdIdx), 0)
  give .cache
  return r

def adcCacheReadBatch (cache : AdcItemCache) (data : Nat → AdcItem) (off maxLen : Nat) :
    LockM Mutex (AdcItemCache × (Nat → AdcItem) × Nat) := do
  if null ∨ maxLen = 0 then
    return (cache, data, 0)
  if !(← take .cache lock) then
    return (cache, data, 0)
  let readLen := if cache.count < maxLen then cache.count else maxLen
  let r :=
    if 0 < readLen then
      ({ cache with
         rdIdx := (cache.rdIdx + readLen) % adcCacheMax
         count := cache.count - readLen },
       Ring.copyOut adcCacheMax cache.item cache.rdIdx data off readLen, readLen)
    else (cache, data, 0)
  give .cache
  return r

def adcCacheGetCount (cache : AdcItemCache) : LockM Mutex Nat := do
  if null then
    return 0
  if ← take .cache lock then
    let count := cache.count
    give .cache
    return count
  return 0

def adcCacheClear (cache : AdcItemCache) : LockM Mutex (AdcItemCache × Nat) := do
  if null then
    return (cache, 1)
  if !(← take .cache lock) then
    return (cache, 2)
  let cache := { cache with wrIdx := 0, rdIdx := 0, count := 0 }
  give .cache
  return (cache, 0)

def timeSyncGetAbsoluteTime (timeSync : TimeSync) (time : SystemTime) :
    LockM Mutex (UInt64 × SystemTime) := do
  if ← take .timeSync lock then
    let time := timeSync.sysTime
    let absTime := timeSync.rtcBaseSec.toUInt64 * 1000
    give .timeSync
    return (absTime, time)
  return (0, time)

end AdcSample

section Storage

variable (null : Bool)

def storageWriteAdcData (io : AdcWriteIo) (s : AdcStore) (timestamp : UInt32) (data : Blocks)
    (blockNum : Nat) (flag : Bool) : LockM Mutex (AdcStore × Int) := do
  if null then
    return (s, -1)
  if !(← take .adc io.lock) then
    return (s, -1)
  let addr := s.adc.addr
  let s := { s with
    emmc := (emmcEraseWriteBlocks io.data s.emmc data addr blockNum).1
    adc := { s.adc with addr := s.adc.nextAddr blockNum } }
  let s :=
    if flag then
      let s := { s with adc := s.adc.putItem addr timestamp }
      if adcIndexNumPreBlock ≤ s.adc.itemIndex then s.flushIndex io else s
    else s
  give .adc
  return (s, 0)

/-- Both loops leave by `exit`. -/
def storageReadAdcData (io : AdcReadIo) (s : AdcStore) (timestamp : UInt32) (blockOff : Nat)
    (data : Blocks) (blockNum : Nat) : LockM Mutex (Int × Blocks) := do
  if null then
    return (-1, data)
  if !(← take .adc io.lock) then
    return (-1, data)
  let r :=
    match s.lookup io timestamp with
    | some item =>
      (0, (emmcReadBlocks io.data s.emmc data ((item.addr.toNat + blockOff) % 2 ^ 32) blockNum).1)
    | none => (-1, data)
  give .adc
  return r

variable (lock : Bool)

def storageClearAdcData (s : AdcStore) : LockM Mutex AdcStore := do
  if null then
    return s
  if !(← take .adc lock) then
    return s
  let s := { s with
    adc := { s.adc with
      indexAddr := adcIndexStartBlock
      addr := 0
      endTime := 0
      strTime := 0
      blockNum := 0
      currBlock := 0 } }
  give .adc
  return s

def storageWriteAlarmMsg (s : AlarmStore) (timestamp : UInt32) (data : Nat → UInt8) :
    LockM Mutex (AlarmStore × Int) := do
  if null then
    return (s, -1)
  if !(← take .alarm lock) then
    return (s, -1)
  let s := { s with
    flash := gd55b01geWriteData s.flash s.alarm.addr data alarmMsgSize
    alarm := { s.alarm with
      indexItem := { s.alarm.indexItem with
        timestamp := timestamp
        msgAddr := UInt32.ofNat s.alarm.addr
        infoAddr := UInt32.ofNat s.alarm.infoAddr }
      addr := (s.alarm.addr + alarmMsgSize) % 2 ^ 32 } }
  give .alarm
  return (s, 0)

def storageReadAlarmMsg (s : AlarmStore) (alarmIndex : Nat) (data : Nat → UInt8)
    (alarmNum : Nat) : LockM Mutex (Int × (Nat → UInt8)) := do
  if null then
    return (-1, data)
  if !(← take .alarm lock) then
    return (-1, data)
  let data := Overlay.overlay (fun _ x => x) data 0 (alarmNum * alarmMsgSize)
    (gd55b01geReadData s.flash (alarmMsgStartAddr + alarmIndex * alarmMsgSize))
  give .alarm
  return (-1, data)

def storageWriteAlarmInfo (s : AlarmStore) (timestamp : UInt32) (_off : Nat)
    (data : Nat → UInt8) (len : Nat) (flag : Bool) : LockM Mutex (AlarmStore × Int) := do
  if null then
    return (s, -1)
  if !(← take .alarm lock) then
    return (s, -1)
  if timestamp ≠ s.alarm.indexItem.timestamp then
    give .alarm
    return (s, -1)
  let s := { s with
    flash := gd55b01geWriteData s.flash s.alarm.infoAddr data len
    alarm := { s.alarm with infoAddr := (s.alarm.infoAddr + len) % 2 ^ 32 } }
  let s := if flag then s.finish else s
  give .alarm
  return (s, 0)

def storageReadAlarmInfo (s : AlarmStore) (timestamp : UInt32) (off : Nat)
    (data : Nat → UInt8) (len : Nat) : LockM Mutex (Int × (Nat → UInt8)) := do
  if null then
    return (-1, data)
  if !(← take .alarm lock) then
    return (-1, data)
  let r :=
    match searchIndex s.flash timestamp s.alarm.indexNum 0 alarmIndexStartAddr with
    | some item => (0, Overlay.overlay (fun _ x => x) data 0 len
        (gd55b01geReadData s.flash ((item.infoAddr.toNat + off) % 2 ^ 32)))
    | none => (-1, data)
  give .alarm
  return r

def storageClearAlarmData (s : AlarmStore) : LockM Mutex AlarmStore := do
  if null then
    return s
  if !(← take .alarm lock) then
    return s
  let s := { s with
    alarm := { s.alarm with
      addr := alarmMsgStartAddr
      infoAddr := alarmInfoStartAddr
      indexAddr := alarmIndexStartAddr
      indexNum := 0 }
    flash := gd55b01geEraseChip s.flash }
  give .alarm
  return s

end Storage

section CirQue

variable (lock : Bool)

def enQueue (q : ThreadSafeCirQue) (buf : Nat → UInt8) (origin : Origin) (len : Nat) :
    LockM Mutex (ThreadSafeCirQue × Bool) := do
  if !(← take .cirQue lock) then
    return (q, false)
  if isQueueFull q then
    give .cirQue
    return (q, false)
  let q := { q with
    ucBuf := Function.update q.ucBuf q.ucRear
      ⟨Overlay.overlay (fun _ x => x) (q.ucBuf q.ucRear).item 0 len buf, origin⟩
    ucRear := (q.ucRear + 1) % maxQueueSize }
  give .cirQue
  return (q, true)

def deQueue (q : ThreadSafeCirQue) : LockM Mutex (ThreadSafeCirQue × Option QueueItem) := do
  if !(← take .cirQue lock) then
    return (q, none)
  if isQueueEmpty q then
    give .cirQue
    return (q, none)
  let msg := q.ucBuf q.ucFront
  let q := { q with
    ucBuf := Function.update q.ucBuf q.ucFront .zero
    ucFront := (q.ucFront + 1) % maxQueueSize }
  give .cirQue
  return (q, some msg)

end CirQue

end Locked

section Ways

variable (lock null : Bool)

/-- Both ends of a message that is sent, with the queue full and with room in it. -/
theorem send_leaves (n : AlarmNotify) (msg : AlarmMsg) :
    Leaves (if alarmQueueLength ≤ n.alarmQueue.length then do
        give Mutex.alarmNotify
        pure n
      else do
        give Mutex.alarmNotify
        pure { n with alarmQueue := n.alarmQueue ++ [msg], alarmSem := true })
      (n.send msg) [.give .alarmNotify] := by
  rw [AlarmNotify.send]
  split
  · rw [if_neg (by omega)]
    exact .give _ _
  · rw [if_pos (by omega)]
    exact .give _ _

theorem adcCheckAlarm_leaves (bootTs : UInt32) (c : ConfigInfo) (item : AdcItem)
    (n : AlarmNotify) :
    Leaves (Locked.adcCheckAlarm lock bootTs c item n) (adcCheckAlarm lock bootTs c item n)
      (critical .alarmNotify lock) := by
  rw [Locked.adcCheckAlarm, adcCheckAlarm]
  by_cases htype : alarmType c item ≠ 0
  · simp only [if_pos htype]
    refine .obtain lock n (.ite (.give _ _) (.ite (.ite (.give _ _) ?_) (.give _ _)))
    refine .ite (.give _ _) ?_
    exact send_leaves { n with
      num := n.num + 1
      alarmSta := .raised
      saveSta := .strSave
      alarmTs := (AlarmMsg.ofItem (alarmType c item) item).ts - 1
      index := 0 } _
  · simp only [if_neg htype]
    refine .obtain lock n ?_
    have hclear : (if n.type ≠ 0 then { n with type := busAlarmNone } else n) =
        { n with type := busAlarmNone } := by
      by_cases h : n.type = 0
      · rw [if_neg (not_not.mpr h), busAlarmNone, ← h]
      · rw [if_pos h]
    rw [hclear]
    by_cases hsta : n.alarmSta = .raised
    · simp only [if_pos hsta]
      exact .give _ _
    · simp only [if_neg hsta]
      exact .give _ _

theorem adcClearAlarm_leaves (rawData : UInt16) (n : AlarmNotify) (out : AlarmOutput) :
    Leaves (Locked.adcClearAlarm lock rawData n out) (adcClearAlarm lock rawData n out)
      (critical .alarmNotify lock) :=
  .obtain lock _ (.give _ _)

theorem adcSaveAlarm_leaves (n : AlarmNotify) :
    Leaves (Locked.adcSaveAlarm lock n) (adcSaveAlarm lock n) (critical .alarmNotify lock) :=
  .obtain lock n (.ite (.give _ _) (send_leaves _ _))

theorem adcCacheInit_leaves (created : Bool) (cache : AdcItemCache) :
    Leaves (Locked.adcCacheInit null created cache)
      (if null then (cache, 2) else (adcCacheInit cache, if created then 0 else 1)) [] := by
  cases null with
  | true => exact .pure _
  | false => cases created <;> exact .pure _

theorem adcCacheWriteOne_leaves (cache : AdcItemCache) (data : AdcItem) :
    Leaves (Locked.adcCacheWriteOne lock null cache data)
      (if null then (cache, 2) else adcCacheWriteOne lock cache data)
      (if null then [] else critical .cache lock) :=
  .guard fun _ => .obtain lock _ (.give _ _)

theorem adcCacheWriteBatch_leaves (cache : AdcItemCache) (data : Nat → AdcItem) (len : Nat) :
    Leaves (Locked.adcCacheWriteBatch lock null cache data len)
      (if null ∨ len = 0 then (cache, 0) else adcCacheWriteBatch lock cache data len)
      (if null ∨ len = 0 then [] else critical .cache lock) := by
  refine .guard fun hskip => ?_
  have hlen : len ≠ 0 := (not_or.mp hskip).2
  simp only [adcCacheWriteBatch, hlen, ne_eq, not_false_eq_true, and_true]
  exact .obtain lock _ (.give _ _)

theorem adcCacheReadOne_leaves (cache : AdcItemCache) (data : Nat → AdcItem) (off : Nat) :
    Leaves (Locked.adcCacheReadOne lock null cache data off)
      (if null then (cache, data, 2) else adcCacheReadOne lock cache data off)
      (if null then [] else critical .cache lock) :=
  .guard fun _ => .obtain lock _ (.give _ _)

/-- What `Adc_Cache_Read_Batch` returns: with nothing to read it does not touch `rd_idx`. -/
def AdcItemCache.readBatch (cache : AdcItemCache) (data : Nat → AdcItem) (off readLen : Nat) :
    AdcItemCache × (Nat → AdcItem) × Nat :=
  if 0 < readLen then
    ({ cache with
       rdIdx := (cache.rdIdx + readLen) % adcCacheMax
       count := cache.count - readLen },
     Ring.copyOut adcCacheMax cache.item cache.rdIdx data off readLen, readLen)
  else (cache, data, 0)

theorem adcCacheReadBatch_leaves (cache : AdcItemCache) (data : Nat → AdcItem)
    (off maxLen : Nat) :
    Leaves (Locked.adcCacheReadBatch lock null cache data off maxLen)
      (if null ∨ maxLen = 0 then (cache, data, 0)
        else if lock then
          cache.readBatch data off (if cache.count < maxLen then cache.count else maxLen)
        else (cache, data, 0))
      (if null ∨ maxLen = 0 then [] else critical .cache lock) :=
  .guard fun _ => .obtain lock _ (.give _ _)

theorem readBatch_eq {cache : AdcItemCache} (h : cache.rdIdx < adcCacheMax)
    (data : Nat → AdcItem) (off : Nat) {maxLen : Nat} (hlen : maxLen ≠ 0) :
    cache.readBatch data off (if cache.count < maxLen then cache.count else maxLen) =
      adcCacheReadBatch true cache data off maxLen := by
  simp only [adcCacheReadBatch, hlen, ne_eq, not_false_eq_true, and_true, if_true]
  generalize (if cache.count < maxLen then cache.count else maxLen) = readLen
  rw [AdcItemCache.readBatch]
  by_cases hread : 0 < readLen
  · rw [if_pos hread]
  · obtain rfl := Nat.eq_zero_of_not_pos hread
    rw [if_neg hread, Nat.add_zero, Nat.mod_eq_of_lt h, Nat.sub_zero, Ring.copyOut_zero]

theorem adcCacheGetCount_leaves (cache : AdcItemCache) :
    Leaves (Locked.adcCacheGetCount lock null cache)
      (if null then 0 else adcCacheGetCount lock cache)
      (if null then [] else critical .cache lock) :=
  .guard fun _ => .critical lock _ (.give _ _)

theorem adcCacheClear_leaves (cache : AdcItemCache) :
    Leaves (Locked.adcCacheClear lock null cache)
      (if null then (cache, 1) else adcCacheClear lock cache)
      (if null then [] else critical .cache lock) :=
  .guard fun _ => .obtain lock _ (.give _ _)

theorem timeSyncGetAbsoluteTime_leaves (timeSync : TimeSync) (time : SystemTime) :
    Leaves (Locked.timeSyncGetAbsoluteTime lock timeSync time)
      (timeSyncGetAbsoluteTime lock timeSync time) (critical .timeSync lock) :=
  .critical lock _ (.give _ _)

theorem storageWriteAdcData_leaves (io : AdcWriteIo) (s : AdcStore) (timestamp : UInt32)
    (data : Blocks) (blockNum : Nat) (flag : Bool) :
    Leaves (Locked.storageWriteAdcData null io s timestamp data blockNum flag)
      (if null then (s, -1) else storageWriteAdcData io s timestamp data blockNum flag)
      (if null then [] else critical .adc io.lock) := by
  refine .guard fun _ => .obtain io.lock _ ?_
  cases flag with
  | false => exact .give _ _
  | true =>
    simp only [if_true]
    split
    · exact .give _ _
    · exact .give _ _

theorem storageReadAdcData_leaves (io : AdcReadIo) (s : AdcStore) (timestamp : UInt32)
    (blockOff : Nat) (data : Blocks) (blockNum : Nat) :
    Leaves (Locked.storageReadAdcData null io s timestamp blockOff data blockNum)
      (if null then (-1, data) else storageReadAdcData io s timestamp blockOff data blockNum)
      (if null then [] else critical .adc io.lock) :=
  .guard fun _ => .obtain io.lock _ (.give _ _)

theorem storageClearAdcData_leaves (s : AdcStore) :
    Leaves (Locked.storageClearAdcData null lock s)
      (if null then s else storageClearAdcData lock s)
      (if null then [] else critical .adc lock) :=
  .guard fun _ => .obtain lock _ (.give _ _)

theorem storageWriteAlarmMsg_leaves (s : AlarmStore) (timestamp : UInt32)
    (data : Nat → UInt8) :
    Leaves (Locked.storageWriteAlarmMsg null lock s timestamp data)
      (if null then (s, -1) else storageWriteAlarmMsg lock s timestamp data)
      (if null then [] else critical .alarm lock) :=
  .guard fun _ => .obtain lock _ (.give _ _)

theorem storageReadAlarmMsg_leaves (s : AlarmStore) (alarmIndex : Nat) (data : Nat → UInt8)
    (alarmNum : Nat) :
    Leaves (Locked.storageReadAlarmMsg null lock s alarmIndex data alarmNum)
      (if null then (-1, data) else storageReadAlarmMsg lock s alarmIndex data alarmNum)
      (if null then [] else critical .alarm lock) :=
  .guard fun _ => .obtain lock _ (.give _ _)

theorem storageWriteAlarmInfo_leaves (s : AlarmStore) (timestamp : UInt32) (off : Nat)
    (data : Nat → UInt8) (len : Nat) (flag : Bool) :
    Leaves (Locked.storageWriteAlarmInfo null lock s timestamp off data len flag)
      (if null then (s, -1) else storageWriteAlarmInfo lock s timestamp off data len flag)
      (if null then [] else critical .alarm lock) :=
  .guard fun _ => .obtain lock _ (.ite (.give _ _) (.give _ _))

theorem storageReadAlarmInfo_leaves (s : AlarmStore) (timestamp : UInt32) (off : Nat)
    (data : Nat → UInt8) (len : Nat) :
    Leaves (Locked.storageReadAlarmInfo null lock s timestamp off data len)
      (if null then (-1, data) else storageReadAlarmInfo lock s timestamp off data len)
      (if null then [] else critical .alarm lock) :=
  .guard fun _ => .obtain lock _ (.give _ _)

theorem storageClearAlarmData_leaves (s : AlarmStore) :
    Leaves (Locked.storageClearAlarmData null lock s)
      (if null then s else storageClearAlarmData lock s)
      (if null then [] else critical .alarm lock) :=
  .guard fun _ => .obtain lock _ (.give _ _)

theorem enQueue_leaves (q : ThreadSafeCirQue) (buf : Nat → UInt8) (origin : Origin) (len : Nat) :
    Leaves (Locked.enQueue lock q buf origin len) (enQueue lock q buf origin len)
      (critical .cirQue lock) :=
  .obtain lock _ (.ite (.give _ _) (.give _ _))

theorem deQueue_leaves (q : ThreadSafeCirQue) :
    Leaves (Locked.deQueue lock q) (deQueue lock q) (critical .cirQue lock) :=
  .obtain lock _ (.ite (.give _ _) (.give _ _))

end Ways

/-- A call of one of the functions, in any state and with any outcome of the lock. -/
inductive LockedCall
  | checkAlarm (lock : Bool) (bootTs : UInt32) (c : ConfigInfo) (item : AdcItem)
      (n : AlarmNotify)
  | clearAlarm (lock : Bool) (rawData : UInt16) (n : AlarmNotify) (out : AlarmOutput)
  | saveAlarm (lock : Bool) (n : AlarmNotify)
  | cacheInit (null created : Bool) (cache : AdcItemCache)
  | cacheWriteOne (lock null : Bool) (cache : AdcItemCache) (data : AdcItem)
  | cacheWriteBatch (lock null : Bool) (cache : AdcItemCache) (data : Nat → AdcItem) (len : Nat)
  | cacheReadOne (lock null : Bool) (cache : AdcItemCache) (data : Nat → AdcItem) (off : Nat)
  | cacheReadBatch (lock null : Bool) (cache : AdcItemCache) (data : Nat → AdcItem)
      (off maxLen : Nat)
  | cacheGetCount (lock null : Bool) (cache : AdcItemCache)
  | cacheClear (lock null : Bool) (cache : AdcItemCache)
  | absoluteTime (lock : Bool) (timeSync : TimeSync) (time : SystemTime)
  | writeAdcData (null : Bool) (io : AdcWriteIo) (s : AdcStore) (timestamp : UInt32)
      (data : Blocks) (blockNum : Nat) (flag : Bool)
  | readAdcData (null : Bool) (io : AdcReadIo) (s : AdcStore) (timestamp : UInt32)
      (blockOff : Nat) (data : Blocks) (blockNum : Nat)
  | clearAdcData (null lock : Bool) (s : AdcStore)
  | writeAlarmMsg (null lock : Bool) (s : AlarmStore) (timestamp : UInt32) (data : Nat → UInt8)
  | readAlarmMsg (null lock : Bool) (s : AlarmStore) (alarmIndex : Nat) (data : Nat → UInt8)
      (alarmNum : Nat)
  | writeAlarmInfo (null lock : Bool) (s : AlarmStore) (timestamp : UInt32) (off : Nat)
      (data : Nat → UInt8) (len : Nat) (flag : Bool)
  | readAlarmInfo (null lock : Bool) (s : AlarmStore) (timestamp : UInt32) (off : Nat)
      (data : Nat → UInt8) (len : Nat)
  | clearAlarmData (null lock : Bool) (s : AlarmStore)
  | enQueue (lock : Bool) (q : ThreadSafeCirQue) (buf : Nat → UInt8) (origin : Origin)
      (len : Nat)
  | deQueue (lock : Bool) (q : ThreadSafeCirQue)

namespace LockedCall

/-- The mutex of the object the function works on. -/
def mutex : LockedCall → Mutex
  | checkAlarm .. | clearAlarm .. | saveAlarm .. => .alarmNotify
  | cacheInit .. | cacheWriteOne .. | cacheWriteBatch .. | cacheReadOne .. | cacheReadBatch ..
  | cacheGetCount .. | cacheClear .. => .cache
  | absoluteTime .. => .timeSync
  | writeAdcData .. | readAdcData .. | clearAdcData .. => .adc
  | writeAlarmMsg .. | readAlarmMsg .. | writeAlarmInfo .. | readAlarmInfo ..
  | clearAlarmData .. => .alarm
  | enQueue .. | deQueue .. => .cirQue

def log : LockedCall → List (LockEvent Mutex)
  | checkAlarm lock bootTs c item n => (Locked.adcCheckAlarm lock bootTs c item n []).2
  | clearAlarm lock rawData n out => (Locked.adcClearAlarm lock rawData n out []).2
  | saveAlarm lock n => (Locked.adcSaveAlarm lock n []).2
  | cacheInit null created cache => (Locked.adcCacheInit null created cache []).2
  | cacheWriteOne lock null cache data => (Locked.adcCacheWriteOne lock null cache data []).2
  | cacheWriteBatch lock null cache data len =>
    (Locked.adcCacheWriteBatch lock null cache data len []).2
  | cacheReadOne lock null cache data off =>
    (Locked.adcCacheReadOne lock null cache data off []).2
  | cacheReadBatch lock null cache data off maxLen =>
    (Locked.adcCacheReadBatch lock null cache data off maxLen []).2
  | cacheGetCount lock null cache => (Locked.adcCacheGetCount lock null cache []).2
  | cacheClear lock null cache => (Locked.adcCacheClear lock null cache []).2
  | absoluteTime lock timeSync time =>
    (Locked.timeSyncGetAbsoluteTime lock timeSync time []).2
  | writeAdcData null io s timestamp data blockNum flag =>
    (Locked.storageWriteAdcData null io s timestamp data blockNum flag []).2
  | readAdcData null io s timestamp blockOff data blockNum =>
    (Locked.storageReadAdcData null io s timestamp blockOff data blockNum []).2
  | clearAdcData null lock s => (Locked.storageClearAdcData null lock s []).2
  | writeAlarmMsg null lock s timestamp data =>
    (Locked.storageWriteAlarmMsg null lock s timestamp data []).2
  | readAlarmMsg null lock s alarmIndex data alarmNum =>
    (Locked.storageReadAlarmMsg null lock s alarmIndex data alarmNum []).2
  | writeAlarmInfo null lock s timestamp off data len flag =>
    (Locked.storageWriteAlarmInfo null lock s timestamp off data len flag []).2
  | readAlarmInfo null lock s timestamp off data len =>
    (Locked.storageReadAlarmInfo null lock s timestamp off data len []).2
  | clearAlarmData null lock s => (Locked.storageClearAlarmData null lock s []).2
  | enQueue lock q buf origin len => (Locked.enQueue lock q buf origin len []).2
  | deQueue lock q => (Locked.deQueue lock q []).2

theorem balanced (call : LockedCall) : Balanced call.mutex call.log := by
  cases call with
  | checkAlarm => exact (adcCheckAlarm_leaves ..).balanced_critical
  | clearAlarm => exact (adcClearAlarm_leaves ..).balanced_critical
  | saveAlarm => exact (adcSaveAlarm_leaves ..).balanced_critical
  | cacheInit => exact (adcCacheInit_leaves ..).balanced_nil
  | cacheWriteOne => exact (adcCacheWriteOne_leaves ..).balanced
  | cacheWriteBatch => exact (adcCacheWriteBatch_leaves ..).balanced
  | cacheReadOne => exact (adcCacheReadOne_leaves ..).balanced
  | cacheReadBatch => exact (adcCacheReadBatch_leaves ..).balanced
  | cacheGetCount => exact (adcCacheGetCount_leaves ..).balanced
  | cacheClear => exact (adcCacheClear_leaves ..).balanced
  | absoluteTime => exact (timeSyncGetAbsoluteTime_leaves ..).balanced_critical
  | writeAdcData => exact (storageWriteAdcData_leaves ..).balanced
  | readAdcData => exact (storageReadAdcData_leaves ..).balanced
  | clearAdcData => exact (storageClearAdcData_leaves ..).balanced
  | writeAlarmMsg => exact (storageWriteAlarmMsg_leaves ..).balanced
  | readAlarmMsg => exact (storageReadAlarmMsg_leaves ..).balanced
  | writeAlarmInfo => exact (storageWriteAlarmInfo_leaves ..).balanced
  | readAlarmInfo => exact (storageReadAlarmInfo_leaves ..).balanced
  | clearAlarmData => exact (storageClearAlarmData_leaves ..).balanced
  | enQueue => exact (enQueue_leaves ..).balanced_critical
  | deQueue => exact (deQueue_leaves ..).balanced_critical

end LockedCall

/-- Each call gives back what it has taken, and a task that makes any calls one after another
never asks for a mutex while it holds one. -/
theorem locks_balanced :
    (∀ call : LockedCall, Balanced call.mutex call.log) ∧
      ∀ calls : List LockedCall, Orderly (calls.flatMap LockedCall.log) :=
  ⟨LockedCall.balanced, Orderly.flatMap fun call => call.balanced.toOrderly⟩

end Lsc100
