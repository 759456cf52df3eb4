import Lsc100.Net.Response

/-! Every frame a handler sends is sealed, and reading it gives what it was filled with. The
loops of `kt_AlarmInfo` and `kt_AlarmData` are followed read by read. -/

namespace Lsc100

def alarmRead (locks : Nat → Bool) (s : AlarmStore) : Nat → Nat → UInt8
  | 0 => fun _ => 0
  | n + 1 => (storageReadAlarmMsg (locks n) s n (alarmRead locks s n) 1).2

theorem ktAlarmInfoFrom_eq (locks : Nat → Bool) (s : AlarmStore) (packs n i : Nat) :
    ktAlarmInfoFrom locks s packs n i (alarmRead locks s i) =
      (List.range n).map fun j =>
        alarmInfoFram packs (i + j) (.ofBytes (alarmRead locks s (i + j + 1))) := by
  induction n generalizing i with
  | zero => rfl
  | succ n ih =>
    rw [ktAlarmInfoFrom, List.range_succ_eq_map, List.map_cons, List.map_map]
    refine congrArg₂ List.cons rfl ((ih (i + 1)).trans ?_)
    refine List.map_congr_left fun j _ => ?_
    have hj : i + 1 + j = i + (j + 1) := by omega
    rw [hj]
    rfl

theorem ktAlarmInfo_eq (locks : Nat → Bool) (s : AlarmStore) :
    ktAlarmInfo locks s = (List.range s.config.alarmNum.toNat).map fun i =>
      alarmInfoFram s.config.alarmNum.toNat i (.ofBytes (alarmRead locks s (i + 1))) := by
  have hzero : (fun _ => 0) = alarmRead locks s 0 := rfl
  rw [ktAlarmInfo, hzero, ktAlarmInfoFrom_eq]
  simp only [Nat.zero_add]

section AlarmData

variable (locks : Nat → Bool) (s : AlarmStore) (ts : UInt32) (gBuf : Nat → UInt8)

def alarmDataBuf : Nat → Nat → UInt8
  | 0 => gBuf
  | n + 1 => (storageReadAlarmInfo (locks n) s ts (12800 * n) (alarmDataBuf n) 12800).2

def alarmDataRet (n : Nat) : Int :=
  (storageReadAlarmInfo (locks n) s ts (12800 * n) (alarmDataBuf locks s ts gBuf n) 12800).1

/-- What the buffer for frames holds when `p` packets are filled; a failed read leaves it. -/
def alarmDataRes : Nat → AlarmDataRes
  | 0 => ⟨⟨0, 0, 0, 0, 0, 0⟩, 0, 0, fun _ _ => 0⟩
  | p + 1 =>
    if alarmDataRet locks s ts gBuf (p / 4) = 0 then
      .load (alarmDataBuf locks s ts gBuf (p / 4 + 1)) (p % 4)
    else alarmDataRes p

variable {locks s ts gBuf} {r : AlarmDataRun} {n q num : Nat}

/-- `q` packets have been sent. -/
structure AlarmDataRun.Packed (locks : Nat → Bool) (s : AlarmStore) (ts : UInt32)
    (gBuf : Nat → UInt8) (q : Nat) (r : AlarmDataRun) : Prop where
  res : r.res = alarmDataRes locks s ts gBuf q
  currIndex : r.currIndex = q
  sent : r.sent =
    (List.range q).map fun p => alarmDataFram p (alarmDataRes locks s ts gBuf (p + 1))

namespace AlarmDataRun.Packed

theorem pack (h : Packed locks s ts gBuf (4 * n + num) r) (hnum : num < 4)
    (hbuf : r.buf = alarmDataBuf locks s ts gBuf (n + 1)) :
    Packed locks s ts gBuf (4 * n + (num + 1)) (r.pack (alarmDataRet locks s ts gBuf n) num) := by
  have hdiv : (4 * n + num) / 4 = n := by omega
  have hmod : (4 * n + num) % 4 = num := by omega
  have hres : (r.pack (alarmDataRet locks s ts gBuf n) num).res =
      alarmDataRes locks s ts gBuf (4 * n + num + 1) := by
    rw [alarmDataRes, hdiv, hmod, AlarmDataRun.pack, h.res, hbuf]
  refine ⟨hres, congrArg (· + 1) h.currIndex, ?_⟩
  have hsent : (r.pack (alarmDataRet locks s ts gBuf n) num).sent =
      r.sent ++ [alarmDataFram r.currIndex (r.pack (alarmDataRet locks s ts gBuf n) num).res] := rfl
  rw [hsent, hres, h.sent, h.currIndex, ← Nat.add_assoc, List.range_succ, List.map_append]
  rfl

theorem read (h : Packed locks s ts gBuf (4 * n) r) (hoff : r.off = 12800 * n)
    (hbuf : r.buf = alarmDataBuf locks s ts gBuf n) :
    Packed locks s ts gBuf (4 * (n + 1)) (r.read (locks n) s ts) ∧
      (r.read (locks n) s ts).off = 12800 * (n + 1) ∧
      (r.read (locks n) s ts).buf = alarmDataBuf locks s ts gBuf (n + 1) := by
  have hanswer : storageReadAlarmInfo (locks n) s ts r.off r.buf 12800 =
      (alarmDataRet locks s ts gBuf n, alarmDataBuf locks s ts gBuf (n + 1)) := by
    rw [hoff, hbuf]
    rfl
  have hrange : List.range 4 = [0, 1, 2, 3] := rfl
  have hstart : Packed locks s ts gBuf (4 * n + 0)
      { r with buf := alarmDataBuf locks s ts gBuf (n + 1) } := ⟨h.res, h.currIndex, h.sent⟩
  have hfour := (((hstart.pack (by decide) rfl).pack (by decide) rfl).pack (by decide) rfl).pack
    (by decide) rfl
  rw [AlarmDataRun.read, hanswer, hrange]
  exact ⟨⟨hfour.res, hfour.currIndex, hfour.sent⟩, by rw [Nat.mul_succ, ← hoff]; rfl, rfl⟩

end AlarmDataRun.Packed

theorem ktAlarmData_sent (locks : Nat → Bool) (s : AlarmStore) (gBuf arg : Nat → UInt8) :
    (ktAlarmData locks s gBuf arg).sent = (List.range 60).map fun p => alarmDataFram p
      (alarmDataRes locks s (SystemTime.ofBytes fun k => arg (msgFramHdrSize + k)).timestamp gBuf
        (p + 1)) := by
  obtain ⟨ts, hts⟩ : ∃ ts, (SystemTime.ofBytes fun k => arg (msgFramHdrSize + k)).timestamp = ts :=
    ⟨_, rfl⟩
  have hsteps : ∀ n, ∃ r, (List.range n).foldl (fun r i => r.read (locks i) s ts)
        ⟨gBuf, ⟨⟨0, 0, 0, 0, 0, 0⟩, 0, 0, fun _ _ => 0⟩, 0, 0, []⟩ = r ∧
      AlarmDataRun.Packed locks s ts gBuf (4 * n) r ∧ r.off = 12800 * n ∧
      r.buf = alarmDataBuf locks s ts gBuf n := by
    intro n
    induction n with
    | zero => exact ⟨_, rfl, ⟨rfl, rfl, rfl⟩, rfl, rfl⟩
    | succ n ih =>
      obtain ⟨r, hr, hpacked, hoff, hbuf⟩ := ih
      rw [List.range_succ, List.foldl_append, hr]
      exact ⟨_, rfl, hpacked.read hoff hbuf⟩
  obtain ⟨r, hr, hpacked, -⟩ := hsteps 15
  rw [ktAlarmData]
  simp only [hts]
  rw [hr]
  exact hpacked.sent

end AlarmData

/-- A frame as the receiver wants it: the header, the number of bytes, and the test passed
whatever lies around the frame. -/
structure Accepted (fram : List UInt8) : Prop where
  hdr : hConvert (memoryOf fram) = msgDataFramHdr
  len : hConvert (fun k => memoryOf fram (2 + k)) = fram.length
  checked : ∀ msg : Int → UInt8, (∀ i < fram.length, msg (i : Nat) = memoryOf fram i) →
    MsgChecked msg

theorem Sealed.accepted {fram : List UInt8} (h : Sealed fram) : Accepted fram :=
  ⟨h.hdr, h.len, fun _ hmsg => h.checked hmsg⟩

/-- `n` frames are sent, all are accepted, and frame `i` is read as `value i`. -/
def Sends {α : Type} (frams : List (List UInt8)) (n : Nat) (read : (Nat → UInt8) → α)
    (value : Nat → α) : Prop :=
  frams.length = n ∧ ∀ i fram, frams[i]? = some fram →
    Accepted fram ∧ read (memoryOf fram) = value i

theorem sends_map {α : Type} (n : Nat) {f : Nat → List UInt8} {read : (Nat → UInt8) → α}
    {value : Nat → α} (hsealed : ∀ i, Sealed (f i))
    (hread : ∀ i < n, read (memoryOf (f i)) = value i) :
    Sends ((List.range n).map f) n read value := by
  refine ⟨by rw [List.length_map, List.length_range], fun i fram hi => ?_⟩
  rw [List.getElem?_map] at hi
  obtain ⟨j, hj, rfl⟩ := Option.map_eq_some_iff.mp hi
  obtain ⟨hlt, rfl⟩ := List.getElem?_eq_some_iff.mp hj
  rw [List.length_range] at hlt
  rw [List.getElem_range]
  exact ⟨(hsealed i).accepted, hread i hlt⟩

theorem sends_one {α : Type} {fram : List UInt8} {read : (Nat → UInt8) → α} {value : α}
    (hsealed : Sealed fram) (hread : read (memoryOf fram) = value) :
    Sends [fram] 1 read fun _ => value :=
  sends_map 1 (fun _ => hsealed) fun _ _ => hread

/-- What a receiver reads of the alarm in place `i`. -/
def AlarmInfoRes.of (alarmNum : UInt16) (i : Nat) (alarm : AlarmMsg) : AlarmInfoRes :=
  ⟨alarmNum, .ofNat i, alarm.time, alarm.ts, alarm.idx, alarm.type⟩

/-- What the handlers send is accepted and reads as what it was made from. -/
theorem handlers_send (config : ConfigInfo) (temp : UInt32) (sysTime : SystemTime)
    (locks : Nat → Bool) (alarm : AlarmStore) (io : AdcReadIo) (adc : AdcStore) (lock : Bool)
    (chip : RtcTime → RtcTime) (gBuf : Nat → UInt8) (gBlocks : Blocks) (arg : Nat → UInt8) :
    Sends (ktConfigInfo config temp sysTime) 1 ConfigInfoRes.read
      (fun _ => ⟨config.hw, config.sw, temp, 0, 0, 0, 0, config.fVmax, config.fVmin, config.rVmax,
        config.rVmin, sysTime⟩) ∧
    Sends (ktClearData sysTime) 1 ClearDataRes.read (fun _ => ⟨sysTime, 1⟩) ∧
    Sends (ktClearConfig sysTime) 1 ClearDataRes.read (fun _ => ⟨sysTime, 1⟩) ∧
    Sends (ktAlarmInfo locks alarm) alarm.config.alarmNum.toNat AlarmInfoRes.read
      (fun i => .of alarm.config.alarmNum i (.ofBytes (alarmRead locks alarm (i + 1)))) ∧
    Sends (ktAlarmData locks alarm gBuf arg).sent 60 AlarmDataPack.read
      (fun p => ⟨60, .ofNat p, alarmDataRes locks alarm
        (SystemTime.ofBytes fun k => arg (msgFramHdrSize + k)).timestamp gBuf (p + 1)⟩) ∧
    Sends (ktSampleInfo config) 1 SampleInfoRes.read
      (fun _ => ⟨(timestampToDatetime config.strTime).toBcd,
        (timestampToDatetime config.endTime).toBcd⟩) ∧
    Sends (ktSampleDataIn io adc gBlocks arg) 20 SampleDataPack.read
      (fun num => ⟨(sampleDataInRes arg).ulTotalPack,
        (sampleDataInRes arg).ulCurrSequ + .ofNat num,
        if (storageReadAdcData io adc (sampleDataInRes arg).ulStrTs 0 gBlocks 125).1 = 0 then
          .load (storageReadAdcData io adc (sampleDataInRes arg).ulStrTs 0 gBlocks 125).2.byte num
        else .missing (sampleDataInRes arg).ulStrTs num⟩) ∧
    Sends (ktSetSysTime lock chip arg) 1 ClearDataRes.read
      (fun _ => ⟨(setSysTime lock chip arg).shown, 1⟩) := by
  refine ⟨?_, ?_, ?_, ?_, ?_, ?_, ?_, ?_⟩
  · exact sends_one (ConfigInfoRes.sealed_fram _) (ConfigInfoRes.read_fram _)
  · exact sends_one (ClearDataRes.sealed_fram _ _) (ClearDataRes.read_fram _ _)
  · exact sends_one (ClearDataRes.sealed_fram _ _) (ClearDataRes.read_fram _ _)
  · rw [ktAlarmInfo_eq]
    refine sends_map _ (fun _ => AlarmInfoRes.sealed_fram _ _ _) fun i _ => ?_
    rw [AlarmInfoRes.read_fram, UInt16.ofNat_toNat]
    rfl
  · rw [ktAlarmData_sent]
    exact sends_map _ (fun _ => AlarmDataPack.sealed_fram _ _)
      fun _ _ => AlarmDataPack.read_fram _ _
  · exact sends_one (SampleInfoRes.sealed_fram _) (SampleInfoRes.read_fram _)
  · exact sends_map _ (fun _ => SampleDataPack.sealed_fram _) fun _ _ => SampleDataPack.read_fram _
  · exact sends_one (ClearDataRes.sealed_fram _ _) (ClearDataRes.read_fram _ _)

end Lsc100
