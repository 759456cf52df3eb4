import Mathlib.Data.List.Induction
import Mathlib.Data.List.Basic
import Lsc100.Basis.Cyclic
import Lsc100.Basis.Machine
import Lsc100.Alarm.Store

/-! Where captures are written. The addresses are a slot number in three units;
after the last slot the number is reset after every capture, and a restart
takes it from the saturated counter. -/

namespace Lsc100

/-- What one capture writes: the message and three seconds of samples. -/
structure Capture where
  ts : UInt32
  msg : Nat → UInt8
  info : Nat → Nat → UInt8

/-- `sizeof(g_adc_data)`. -/
def adcDataSize : Nat := 64000

def AlarmStore.capture (s : AlarmStore) (c : Capture) : AlarmStore :=
  let s := (storageWriteAlarmMsg true s c.ts c.msg).1
  let s := (storageWriteAlarmInfo true s c.ts 0 (c.info 0) adcDataSize false).1
  let s := (storageWriteAlarmInfo true s c.ts 0 (c.info 1) adcDataSize false).1
  (storageWriteAlarmInfo true s c.ts 0 (c.info 2) adcDataSize true).1

inductive AlarmEvent
  | capture (c : Capture)
  | reboot

/-- RAM is lost; the configuration and the flash are not. -/
def AlarmStore.reboot (s : AlarmStore) : AlarmStore := { s with alarm := alarmObjectInit s.config }

/-- Captures and restarts between them, the configuration being persisted. -/
def alarmLog (start : AlarmStore) : Machine AlarmStore AlarmEvent where
  start := start
  step s
    | .capture c => s.capture c
    | .reboot => s.reboot

def AlarmStore.boot (c : ConfigInfo) : AlarmStore := ⟨alarmObjectInit c, .erased, c, false⟩

def captures (es : List AlarmEvent) : List Capture :=
  es.filterMap fun
    | .capture c => some c
    | .reboot => none

def slotItem (slot : Nat) (ts : UInt32) : AlarmIndexItem :=
  ⟨UInt32.ofNat (32 * slot), UInt32.ofNat (alarmInfoStartAddr + 192000 * slot), ts, fun _ => 0⟩

/-- All a capture writes when it goes to a slot. -/
def captureOps (slot : Nat) (c : Capture) : List FlashOp :=
  [.write (32 * slot) c.msg 32,
   .write (alarmInfoStartAddr + 192000 * slot) (c.info 0) 64000,
   .write (alarmInfoStartAddr + 192000 * slot + 64000) (c.info 1) 64000,
   .write (alarmInfoStartAddr + 192000 * slot + 128000) (c.info 2) 64000,
   .write (alarmIndexStartAddr + 16 * slot) (slotItem slot c.ts).byte 16]

/-- The next capture goes to `slot`, and `num` are counted. -/
structure AtSlot (s : AlarmStore) (slot num : Nat) : Prop where
  addr : s.alarm.addr = 32 * slot
  infoAddr : s.alarm.infoAddr = alarmInfoStartAddr + 192000 * slot
  indexAddr : s.alarm.indexAddr = alarmIndexStartAddr + 16 * slot
  indexNum : s.alarm.indexNum = num
  rsvd : s.alarm.indexItem.rsvd = fun _ => 0

/-- A capture has gone to `slot` with `seg` of its seconds written. -/
structure Capturing (s : AlarmStore) (slot num seg : Nat) (ts : UInt32) : Prop where
  addr : s.alarm.addr = 32 * slot + 32
  infoAddr : s.alarm.infoAddr = alarmInfoStartAddr + 192000 * slot + 64000 * seg
  indexAddr : s.alarm.indexAddr = alarmIndexStartAddr + 16 * slot
  indexNum : s.alarm.indexNum = num
  indexItem : s.alarm.indexItem = slotItem slot ts

def nextSlot (slot num : Nat) : Nat := if 640 ≤ num + 1 then 0 else slot + 1

section

variable {s : AlarmStore} {slot num seg : Nat} {ts : UInt32}

theorem AtSlot.write_msg (h : AtSlot s slot num) (hslot : slot ≤ 640) (ts : UInt32)
    (msg : Nat → UInt8) : Capturing (storageWriteAlarmMsg true s ts msg).1 slot num 0 ts ∧
      (storageWriteAlarmMsg true s ts msg).1.flash =
        gd55b01geWriteData s.flash (32 * slot) msg 32 := by
  have haddr : (s.alarm.addr + alarmMsgSize) % 2 ^ 32 = 32 * slot + 32 := by
    rw [h.addr, alarmMsgSize, Nat.mod_eq_of_lt (by omega)]
  refine ⟨⟨haddr, h.infoAddr, h.indexAddr, h.indexNum, ?_⟩, ?_⟩
  · simp only [storageWriteAlarmMsg, if_true, h.addr, h.infoAddr, h.rsvd, slotItem]
  · simp only [storageWriteAlarmMsg, if_true, h.addr, alarmMsgSize]

/-- An unflagged call programs the data and moves `info_addr`, nothing else. -/
theorem storageWriteAlarmInfo_plain {s : AlarmStore} {ts : UInt32} (off : Nat)
    (data : Nat → UInt8) (len : Nat) (hts : ts = s.alarm.indexItem.timestamp) :
    let s' := (storageWriteAlarmInfo true s ts off data len false).1
    s'.alarm.addr = s.alarm.addr ∧ s'.alarm.infoAddr = (s.alarm.infoAddr + len) % 2 ^ 32 ∧
      s'.alarm.indexAddr = s.alarm.indexAddr ∧ s'.alarm.indexNum = s.alarm.indexNum ∧
      s'.alarm.indexItem = s.alarm.indexItem ∧ s'.config = s.config ∧
      s'.flash = gd55b01geWriteData s.flash s.alarm.infoAddr data len := by
  rw [storageWriteAlarmInfo, if_pos rfl, if_neg (fun hne => hne hts)]
  exact ⟨rfl, rfl, rfl, rfl, rfl, rfl, rfl⟩

/-- The flagged call writes the last second, then the index entry. -/
theorem storageWriteAlarmInfo_flag {s : AlarmStore} {ts : UInt32} (off : Nat)
    (data : Nat → UInt8) (len : Nat) (hts : ts = s.alarm.indexItem.timestamp) :
    (storageWriteAlarmInfo true s ts off data len true).1 =
      (storageWriteAlarmInfo true s ts off data len false).1.finish := by
  rw [storageWriteAlarmInfo, storageWriteAlarmInfo, if_pos rfl, if_pos rfl,
    if_neg (fun hne => hne hts), if_neg (fun hne => hne hts)]
  rfl

theorem Capturing.segment (h : Capturing s slot num seg ts) (hslot : slot ≤ 640) (hseg : seg ≤ 2)
    (off : Nat) (data : Nat → UInt8) :
    Capturing (storageWriteAlarmInfo true s ts off data adcDataSize false).1 slot num (seg + 1) ts ∧
      (storageWriteAlarmInfo true s ts off data adcDataSize false).1.flash =
        gd55b01geWriteData s.flash (alarmInfoStartAddr + 192000 * slot + 64000 * seg) data 64000 := by
  have hstart : alarmInfoStartAddr = 20480 := rfl
  have hts : ts = s.alarm.indexItem.timestamp := by rw [h.indexItem, slotItem]
  have haddr : (s.alarm.infoAddr + adcDataSize) % 2 ^ 32 =
      alarmInfoStartAddr + 192000 * slot + 64000 * (seg + 1) := by
    rw [h.infoAddr, adcDataSize, Nat.mod_eq_of_lt (by omega)]
    omega
  obtain ⟨h₁, h₂, h₃, h₄, h₅, -, h₇⟩ := storageWriteAlarmInfo_plain off data adcDataSize hts
  refine ⟨⟨h₁.trans h.addr, h₂.trans haddr, h₃.trans h.indexAddr, h₄.trans h.indexNum,
    h₅.trans h.indexItem⟩, h₇.trans ?_⟩
  rw [h.infoAddr, adcDataSize]

theorem Capturing.finish (h : Capturing s slot num seg ts) (hslot : slot ≤ 640)
    (hnum : num ≤ 640) (hseg : seg = 3) :
    AtSlot s.finish (nextSlot slot num) (min (num + 1) 640) ∧
      s.finish.flash = gd55b01geWriteData s.flash (alarmIndexStartAddr + 16 * slot)
        (slotItem slot ts).byte 16 := by
  have hstart : alarmIndexStartAddr = 130023424 := rfl
  have hindex : (s.alarm.indexAddr + alarmIndexItemSize) % 2 ^ 32 =
      alarmIndexStartAddr + 16 * (slot + 1) := by
    rw [h.indexAddr, alarmIndexItemSize, Nat.mod_eq_of_lt (by omega)]
    omega
  have hnum' : (s.alarm.indexNum + 1) % 2 ^ 16 = num + 1 := by
    rw [h.indexNum]
    exact Nat.mod_eq_of_lt (by omega)
  have hinfo : s.alarm.infoAddr = alarmInfoStartAddr + 192000 * (slot + 1) := by
    rw [h.infoAddr, hseg]
    omega
  have hrsvd : s.alarm.indexItem.rsvd = fun _ => 0 := by rw [h.indexItem, slotItem]
  have htotal : alarmItemTotalNum = 640 := rfl
  refine ⟨?_, ?_⟩
  · simp only [AlarmStore.finish, hindex, hnum', htotal, nextSlot]
    by_cases hfull : 640 ≤ num + 1
    · rw [if_pos hfull, if_pos hfull, Nat.min_eq_right hfull]
      exact ⟨rfl, rfl, rfl, rfl, hrsvd⟩
    · rw [if_neg hfull, if_neg hfull, Nat.min_eq_left (by omega)]
      exact ⟨h.addr, hinfo, rfl, rfl, hrsvd⟩
  · simp only [AlarmStore.finish, h.indexAddr, h.indexItem, alarmIndexItemSize]

theorem Capturing.last (h : Capturing s slot num 2 ts) (hslot : slot ≤ 640) (hnum : num ≤ 640)
    (off : Nat) (data : Nat → UInt8) :
    AtSlot (storageWriteAlarmInfo true s ts off data adcDataSize true).1 (nextSlot slot num)
        (min (num + 1) 640) ∧
      (storageWriteAlarmInfo true s ts off data adcDataSize true).1.flash =
        gd55b01geWriteData (gd55b01geWriteData s.flash
          (alarmInfoStartAddr + 192000 * slot + 128000) data 64000)
          (alarmIndexStartAddr + 16 * slot) (slotItem slot ts).byte 16 := by
  have hts : ts = s.alarm.indexItem.timestamp := by rw [h.indexItem, slotItem]
  obtain ⟨hcap, hflash⟩ := h.segment hslot (Nat.le_refl 2) off data
  rw [storageWriteAlarmInfo_flag off data adcDataSize hts, ← hflash]
  exact hcap.finish hslot hnum rfl

theorem Capturing.last_config (h : Capturing s slot num 2 ts) (hslot : slot ≤ 640)
    (hnum : num ≤ 640) (off : Nat) (data : Nat → UInt8) :
    (storageWriteAlarmInfo true s ts off data adcDataSize true).1.config =
      { s.config with alarmNum := UInt16.ofNat (min (num + 1) 640) } := by
  have hts : ts = s.alarm.indexItem.timestamp := by rw [h.indexItem, slotItem]
  obtain ⟨-, -, -, -, -, hconfig, -⟩ := storageWriteAlarmInfo_plain off data adcDataSize hts
  have hat := (h.segment hslot (Nat.le_refl 2) off data).1.finish hslot hnum rfl
  rw [storageWriteAlarmInfo_flag off data adcDataSize hts, ← hat.1.indexNum, ← hconfig]
  rfl

theorem storageWriteAlarmMsg_config (lock : Bool) (s : AlarmStore) (ts : UInt32)
    (data : Nat → UInt8) : (storageWriteAlarmMsg lock s ts data).1.config = s.config := by
  cases lock <;> rfl

theorem Capturing.segment_config (h : Capturing s slot num seg ts) (off : Nat)
    (data : Nat → UInt8) :
    (storageWriteAlarmInfo true s ts off data adcDataSize false).1.config = s.config := by
  have hts : ts = s.alarm.indexItem.timestamp := by rw [h.indexItem, slotItem]
  obtain ⟨-, -, -, -, -, hconfig, -⟩ := storageWriteAlarmInfo_plain off data adcDataSize hts
  exact hconfig

theorem AtSlot.capture (h : AtSlot s slot num) (hslot : slot ≤ 640) (hnum : num ≤ 640)
    (c : Capture) : AtSlot (s.capture c) (nextSlot slot num) (min (num + 1) 640) ∧
      (s.capture c).flash.ops = s.flash.ops ++ captureOps slot c ∧
      (s.capture c).config = { s.config with alarmNum := UInt16.ofNat (min (num + 1) 640) } := by
  obtain ⟨h₀, hf₀⟩ := h.write_msg hslot c.ts c.msg
  obtain ⟨h₁, hf₁⟩ := h₀.segment hslot (by decide) 0 (c.info 0)
  obtain ⟨h₂, hf₂⟩ := h₁.segment hslot (by decide) 0 (c.info 1)
  obtain ⟨h₃, hf₃⟩ := h₂.last hslot hnum 0 (c.info 2)
  refine ⟨h₃, ?_, ?_⟩
  · simp [AlarmStore.capture, hf₃, hf₂, hf₁, hf₀, captureOps]
  · have hconfig := (h₁.segment_config 0 (c.info 1)).trans ((h₀.segment_config 0 (c.info 0)).trans
      (storageWriteAlarmMsg_config true s c.ts c.msg))
    exact hconfig ▸ h₂.last_config hslot hnum 0 (c.info 2)

theorem AtSlot.init {c : ConfigInfo} (hflag : c.flag = devFlagNextOn)
    (hnum : c.alarmNum.toNat ≤ 640) (halarm : s.alarm = alarmObjectInit c) :
    AtSlot s c.alarmNum.toNat c.alarmNum.toNat := by
  have hfirst : ¬ devFlagNextOn = devFlagFirstOn := by decide
  have hstart : alarmInfoStartAddr = 20480 := rfl
  simp only [alarmObjectInit, hflag, hfirst, if_false, if_true] at halarm
  refine ⟨?_, ?_, ?_, ?_, ?_⟩
  · simp only [halarm, alarmMsgStartAddr, alarmMsgSize]
    omega
  · simp only [halarm, alarmItemSize, alarmMsgSize]
    rw [Nat.mod_eq_of_lt (by omega)]
    omega
  · simp only [halarm, alarmIndexItemSize]
    omega
  · rw [halarm]
  · rw [halarm]

theorem AtSlot.boot {c : ConfigInfo} (hflag : c.flag = devFlagNextOn) (hnum : c.alarmNum = 0) :
    AtSlot (.boot c) 0 0 := by
  have hzero : c.alarmNum.toNat = 0 := by rw [hnum]; rfl
  exact hzero ▸ AtSlot.init hflag (hzero ▸ Nat.zero_le _) rfl

end

end Lsc100
