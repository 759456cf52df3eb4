import Lsc100.Alarm.Store
import Lsc100.Net.Frame
import Lsc100.Sample.Cache

/-! What `msg_parse.c` sends of the alarm log: one frame for every alarm in the
list, and 60 frames of 50 samples for the capture of one alarm. What a handler
sends is the list of its frames. -/

namespace Lsc100

open Bytes

def busAlarmNone : UInt8 := 0
def busAlarmFrontVol : UInt8 := 1
def busAlarmRearVol : UInt8 := 2
def busAlarmFrontRearVol : UInt8 := 3
def busAlarmClear : UInt8 := 4
def busAlarmSave : UInt8 := 5

structure AlarmMsg where
  time : SystemTime
  ts : UInt32
  idx : UInt16
  type : UInt8
  ucRsvd : Fin 19 → UInt8

/-- The message as it lies in memory. -/
def AlarmMsg.byte (m : AlarmMsg) (k : Nat) : UInt8 :=
  if k < 6 then m.time.bytes.getD k 0
  else if k < 10 then byteOf m.ts.toNat (k - 6)
  else if k < 12 then byteOf m.idx.toNat (k - 10)
  else if k < 13 then m.type
  else m.ucRsvd (Fin.ofNat 19 (k - 13))

def AlarmMsg.ofBytes (b : Nat → UInt8) : AlarmMsg where
  time := .ofBytes b
  ts := UInt32.ofNat (leNat 4 (fun k => b (k + 6)))
  idx := UInt16.ofNat (leNat 2 (fun k => b (k + 10)))
  type := b 12
  ucRsvd k := b (k.val + 13)

def AdcItem.ofBytes (b : Nat → UInt8) : AdcItem where
  time := .ofBytes b
  ts := UInt64.ofNat (leNat 8 (fun k => b (k + 6)))
  rawData j := UInt16.ofNat (leNat 2 (fun k => b (k + 14 + 2 * j.val)))
  data j := UInt32.ofNat (leNat 4 (fun k => b (k + 22 + 4 * j.val)))
  temp := UInt32.ofNat (leNat 4 (fun k => b (k + 38)))
  rsvd j := b (j.val + 42)

def msgSignAlarmInfoRes : UInt8 := 0x90
def msgSignAlarmDataRes : UInt8 := 0x91
def msgFramHdrSize : Nat := 5

def alarmInfoFram (packs i : Nat) (alarm : AlarmMsg) : List UInt8 :=
  msgFram 32 msgSignAlarmInfoRes
    (beBytes 2 packs ++ beBytes 2 i ++ alarm.time.bytes ++ beBytes 4 alarm.ts.toNat ++
      beBytes 2 alarm.idx.toNat ++ [alarm.type] ++ List.replicate 8 0)

/-- The loop of `kt_AlarmInfo` from entry `i` on, `alarm` holding the last
message read. -/
def ktAlarmInfoFrom (locks : Nat → Bool) (s : AlarmStore) (packs : Nat) :
    Nat → Nat → (Nat → UInt8) → List (List UInt8)
  | 0, _, _ => []
  | n + 1, i, alarm =>
    let alarm := (storageReadAlarmMsg (locks i) s i alarm 1).2
    alarmInfoFram packs i (.ofBytes alarm) :: ktAlarmInfoFrom locks s packs n (i + 1) alarm

def ktAlarmInfo (locks : Nat → Bool) (s : AlarmStore) : List (List UInt8) :=
  ktAlarmInfoFrom locks s s.config.alarmNum.toNat s.config.alarmNum.toNat 0 fun _ => 0

/-- The part of the frame of `kt_AlarmData` that a failed read leaves as it was. -/
structure AlarmDataRes where
  stTime : SystemTime
  ullTs : UInt64
  temp : UInt32
  data : Fin 50 → Fin 4 → UInt32

/-- The items 50 `num` to 50 `num` + 49 of the buffer. -/
def AlarmDataRes.load (buf : Nat → UInt8) (num : Nat) : AlarmDataRes :=
  let item (index : Nat) : AdcItem := .ofBytes fun k => buf ((index + num * 50) * 64 + k)
  ⟨(item 0).time, (item 0).ts, (item 0).temp, fun index => (item index.val).data⟩

def alarmDataFram (currIndex : Nat) (res : AlarmDataRes) : List UInt8 :=
  msgFram 832 msgSignAlarmDataRes
    (beBytes 2 60 ++ beBytes 2 currIndex ++ res.stTime.bytes ++ beBytes 8 res.ullTs.toNat ++
      beBytes 4 res.temp.toNat ++
      (List.finRange 50).flatMap (fun index =>
        (List.finRange 4).flatMap fun k => beBytes 4 (res.data index k).toNat) ++
      List.replicate 3 0)

/-- The variables of `kt_AlarmData`, `g_buf` among them, and the frames sent. -/
structure AlarmDataRun where
  buf : Nat → UInt8
  res : AlarmDataRes
  off : Nat
  currIndex : Nat
  sent : List (List UInt8)

namespace AlarmDataRun

def pack (ret : Int) (r : AlarmDataRun) (num : Nat) : AlarmDataRun :=
  let res := if ret = 0 then .load r.buf num else r.res
  { r with
    res := res
    sent := r.sent ++ [alarmDataFram r.currIndex res]
    currIndex := r.currIndex + 1 }

def read (lock : Bool) (s : AlarmStore) (ts : UInt32) (r : AlarmDataRun) : AlarmDataRun :=
  let answer := storageReadAlarmInfo lock s ts r.off r.buf 12800
  let r := (List.range 4).foldl (pack answer.1) { r with buf := answer.2 }
  { r with off := r.off + 12800 }

end AlarmDataRun

/-- `arg` is the request with its header. -/
def ktAlarmData (locks : Nat → Bool) (s : AlarmStore) (gBuf : Nat → UInt8) (arg : Nat → UInt8) :
    AlarmDataRun :=
  let stTime : SystemTime := .ofBytes fun k => arg (msgFramHdrSize + k)
  (List.range 15).foldl (fun r i => r.read (locks i) s stTime.timestamp)
    ⟨gBuf, ⟨⟨0, 0, 0, 0, 0, 0⟩, 0, 0, fun _ _ => 0⟩, 0, 0, []⟩

theorem AlarmMsg.ofBytes_byte {m : AlarmMsg} {b : Nat → UInt8} (h : ∀ k < 32, b k = m.byte k) :
    AlarmMsg.ofBytes b = m := by
  have htime : SystemTime.ofBytes b = m.time := SystemTime.ofBytes_eq fun k hk => by
    rw [h k (by omega), byte, if_pos hk]
  have hts : leNat 4 (fun k => b (k + 6)) = m.ts.toNat := by
    rw [leNat_congr (c := byteOf m.ts.toNat) (fun k hk => ?_), leNat_byteOf]
    · exact Nat.mod_eq_of_lt m.ts.toNat_lt
    · rw [h (k + 6) (by omega), byte, if_neg (by omega), if_pos (by omega), Nat.add_sub_cancel]
  have hidx : leNat 2 (fun k => b (k + 10)) = m.idx.toNat := by
    rw [leNat_congr (c := byteOf m.idx.toNat) (fun k hk => ?_), leNat_byteOf]
    · exact Nat.mod_eq_of_lt m.idx.toNat_lt
    · rw [h (k + 10) (by omega), byte, if_neg (by omega), if_neg (by omega), if_pos (by omega),
        Nat.add_sub_cancel]
  have htype : b 12 = m.type := h 12 (by decide)
  have hrsvd : (fun k : Fin 19 => b (k.val + 13)) = m.ucRsvd := by
    funext k
    rw [h (k.val + 13) (by omega), byte, if_neg (by omega), if_neg (by omega), if_neg (by omega),
      if_neg (by omega), Nat.add_sub_cancel, Fin.ofNat_val_eq_self]
  rw [ofBytes, htime, hts, hidx, htype, hrsvd, UInt32.ofNat_toNat, UInt16.ofNat_toNat]

theorem AdcItem.ofBytes_congr {b c : Nat → UInt8} (h : ∀ k < 64, b k = c k) :
    AdcItem.ofBytes b = AdcItem.ofBytes c := by
  have hle (n off : Nat) (hn : off + n ≤ 64) :
      leNat n (fun k => b (k + off)) = leNat n (fun k => c (k + off)) :=
    leNat_congr fun k hk => h _ (by omega)
  have htime : SystemTime.ofBytes b = SystemTime.ofBytes c :=
    SystemTime.ofBytes_congr fun k hk => h k (Nat.lt_trans hk (by decide))
  rw [ofBytes, ofBytes, htime, hle 8 6 (by decide), hle 4 38 (by decide)]
  congr 1
  · funext j
    exact congrArg UInt16.ofNat (leNat_congr fun k hk => h _ (by omega))
  · funext j
    exact congrArg UInt32.ofNat (leNat_congr fun k hk => h _ (by omega))
  · funext j
    exact h _ (by omega)

theorem AlarmDataRes.load_congr {buf buf' : Nat → UInt8} {num num' : Nat}
    (h : ∀ k < 3200, buf (num * 3200 + k) = buf' (num' * 3200 + k)) :
    load buf num = load buf' num' := by
  have hitem (index : Nat) (hindex : index < 50) :
      AdcItem.ofBytes (fun k => buf ((index + num * 50) * 64 + k)) =
        AdcItem.ofBytes (fun k => buf' ((index + num' * 50) * 64 + k)) := by
    refine AdcItem.ofBytes_congr fun k hk => ?_
    have hk' := h (index * 64 + k) (by omega)
    have hl : num * 3200 + (index * 64 + k) = (index + num * 50) * 64 + k := by omega
    have hr : num' * 3200 + (index * 64 + k) = (index + num' * 50) * 64 + k := by ring
    rwa [hl, hr] at hk'
  have hfirst := hitem 0 (by omega)
  simp only [load, hfirst, hitem _ (Fin.isLt _)]

end Lsc100
