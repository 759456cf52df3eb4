import Lsc100.Net.Encode

/-! The frames the handlers of `msg_parse.c` send, and what a receiver reads from them.
A handler that sends in a loop fills one buffer again and again. -/

namespace Lsc100

open Bytes

def msgSignConfigInfoRes : UInt8 := 0x80
def msgSignSetTimeRes : UInt8 := 0x85
def msgSignClearDataRes : UInt8 := 0x8A
def msgSignClearConfigRes : UInt8 := 0x8B
def msgSignSampleInfoRes : UInt8 := 0xA0
def msgSignSampleDataRes : UInt8 := 0xA1

@[ext]
structure ConfigInfoRes where
  hw : Fin 3 → UInt8
  sw : Fin 3 → UInt8
  temp : UInt32
  fVBias : UInt32
  fCBias : UInt32
  rVBias : UInt32
  rCBias : UInt32
  fVmax : UInt32
  fVmin : UInt32
  rVmax : UInt32
  rVmin : UInt32
  stTime : SystemTime

namespace ConfigInfoRes

/-- The fields of four bytes, in their order. -/
def words (res : ConfigInfoRes) : List UInt32 :=
  [res.temp, res.fVBias, res.fCBias, res.rVBias, res.rCBias, res.fVmax, res.fVmin, res.rVmax,
    res.rVmin]

def payload (res : ConfigInfoRes) : List UInt8 :=
  [res.hw 0, res.hw 1, res.hw 2, res.sw 0, res.sw 1, res.sw 2] ++ res.words.flatMap dwStore ++
    (res.stTime.bytes ++ List.replicate 9 0)

def fram (res : ConfigInfoRes) : List UInt8 := msgFram 64 msgSignConfigInfoRes res.payload

def read (fram : Nat → UInt8) : ConfigInfoRes where
  hw i := fram (5 + i)
  sw i := fram (8 + i)
  temp := dwHConvert fun k => fram (11 + k)
  fVBias := dwHConvert fun k => fram (15 + k)
  fCBias := dwHConvert fun k => fram (19 + k)
  rVBias := dwHConvert fun k => fram (23 + k)
  rCBias := dwHConvert fun k => fram (27 + k)
  fVmax := dwHConvert fun k => fram (31 + k)
  fVmin := dwHConvert fun k => fram (35 + k)
  rVmax := dwHConvert fun k => fram (39 + k)
  rVmin := dwHConvert fun k => fram (43 + k)
  stTime := .ofBytes fun k => fram (47 + k)

theorem length_words (res : ConfigInfoRes) : (res.words.flatMap dwStore).length = 36 :=
  length_flatMap _ length_dwStore

theorem length_payload (res : ConfigInfoRes) : res.payload.length = 57 := by
  rw [payload, List.length_append, List.length_append, length_words]
  rfl

theorem sealed_fram (res : ConfigInfoRes) : Sealed res.fram :=
  sealed_msgFram (by rw [length_payload]) (by decide)

theorem memoryOf_fram (res : ConfigInfoRes) {k : Nat} (hk : k < 57) :
    memoryOf res.fram (5 + k) = memoryOf res.payload k :=
  memoryOf_msgFram _ _ (res.length_payload.symm ▸ hk)

theorem read_word (res : ConfigInfoRes) {j : Nat} {x : UInt32} (hx : res.words[j]? = some x) :
    dwHConvert (fun k => memoryOf res.fram (11 + 4 * j + k)) = x := by
  have hj : j < 9 := (List.getElem?_eq_some_iff.mp hx).1
  refine dwHConvert_eq fun k hk => ?_
  have hfield : 11 + 4 * j + k = 5 + (6 + (4 * j + k)) := by omega
  have hlt : 4 * j + k < (res.words.flatMap dwStore).length := by
    rw [length_words]
    omega
  have hmiddle := memoryOf_middle
    [res.hw 0, res.hw 1, res.hw 2, res.sw 0, res.sw 1, res.sw 2] _
    (res.stTime.bytes ++ List.replicate 9 0) hlt
  rw [hfield, res.memoryOf_fram (by omega), ← dwStore_eq, ← memoryOf_flatMap length_dwStore hx hk]
  exact hmiddle

theorem read_fram (res : ConfigInfoRes) : read (memoryOf res.fram) = res := by
  have htime : SystemTime.ofBytes (fun k => memoryOf res.fram (47 + k)) = res.stTime := by
    refine SystemTime.ofBytes_eq fun k hk => ?_
    have hlength : ([res.hw 0, res.hw 1, res.hw 2, res.sw 0, res.sw 1, res.sw 2] ++
        res.words.flatMap dwStore).length = 42 := by
      rw [List.length_append, length_words]
      rfl
    have hfield : 47 + k = 5 + (42 + k) := by omega
    rw [hfield, res.memoryOf_fram (by omega), payload, ← hlength, memoryOf_append_right,
      memoryOf_append_left _ hk]
    rfl
  refine ConfigInfoRes.ext ?_ ?_ (res.read_word (j := 0) rfl) (res.read_word (j := 1) rfl)
    (res.read_word (j := 2) rfl) (res.read_word (j := 3) rfl) (res.read_word (j := 4) rfl)
    (res.read_word (j := 5) rfl) (res.read_word (j := 6) rfl) (res.read_word (j := 7) rfl)
    (res.read_word (j := 8) rfl) htime
  · funext ⟨i, hi⟩
    interval_cases i <;> rfl
  · funext ⟨i, hi⟩
    interval_cases i <;> rfl

end ConfigInfoRes

/-- `temp` is what `ds18b20_get_temp` returns. The bias fields are left zero. -/
def ktConfigInfo (config : ConfigInfo) (temp : UInt32) (sysTime : SystemTime) :
    List (List UInt8) :=
  [ConfigInfoRes.fram ⟨config.hw, config.sw, temp, 0, 0, 0, 0, config.fVmax, config.fVmin,
    config.rVmax, config.rVmin, sysTime⟩]

/-- `ClearDataRes_t`, `ClearConfigRes_t` and `SetTimeRes_t`. -/
structure ClearDataRes where
  stTime : SystemTime
  usStatus : UInt8
  deriving DecidableEq

namespace ClearDataRes

variable (sign : UInt8) (res : ClearDataRes)

def fram : List UInt8 :=
  msgFram 16 sign (res.stTime.bytes ++ [res.usStatus] ++ List.replicate 2 0)

def read (fram : Nat → UInt8) : ClearDataRes := ⟨.ofBytes fun k => fram (5 + k), fram 11⟩

theorem sealed_fram : Sealed (res.fram sign) := sealed_msgFram rfl (by decide)

theorem read_fram : read (memoryOf (res.fram sign)) = res := by
  have htime : SystemTime.ofBytes (fun k => memoryOf (res.fram sign) (5 + k)) = res.stTime :=
    SystemTime.ofBytes_eq fun k hk => by interval_cases k <;> rfl
  rw [read, htime]
  rfl

end ClearDataRes

def ktClearData (sysTime : SystemTime) : List (List UInt8) :=
  [ClearDataRes.fram msgSignClearDataRes ⟨sysTime, 1⟩]

def ktClearConfig (sysTime : SystemTime) : List (List UInt8) :=
  [ClearDataRes.fram msgSignClearConfigRes ⟨sysTime, 1⟩]

structure RtcTime where
  ucSecond : UInt8
  ucMinute : UInt8
  ucHour : UInt8
  ucWeek : UInt8
  ucDay : UInt8
  ucMonth : UInt8
  ucYear : UInt8

def calculateDayOfWeek (year month day : Int) : Int :=
  let m := if month < 3 then month + 12 else month
  let y := if month < 3 then year - 1 else year
  let w := (day + (13 * (m + 1)).tdiv 5 + y.tmod 100 + (y.tmod 100).tdiv 4 + (y.tdiv 100).tdiv 4 -
    2 * y.tdiv 100).tmod 7
  if w = 0 then 6 else w - 1

/-- The time a request asks for, as it is sent to the clock. -/
def RtcTime.ofRequest (t : SystemTime) : RtcTime where
  ucSecond := t.ucScd
  ucMinute := t.ucMin
  ucHour := t.ucHour ||| 0x80
  ucWeek := decToBcd (UInt8.ofNat ((calculateDayOfWeek ((bcdToDec t.ucYear).toNat + 2000)
    (bcdToDec t.ucMonth).toNat (bcdToDec t.ucDay).toNat).emod 256).toNat)
  ucDay := t.ucDay
  ucMonth := t.ucMonth
  ucYear := t.ucYear

def RtcTime.shown (t : RtcTime) : SystemTime :=
  ⟨t.ucYear, t.ucMonth, t.ucDay, t.ucHour &&& 0x7F, t.ucMinute, t.ucSecond⟩

/-- With the mutex the clock is set and read, and `chip` is what is read then. -/
def setSysTime (lock : Bool) (chip : RtcTime → RtcTime) (arg : Nat → UInt8) : RtcTime :=
  let time := RtcTime.ofRequest (.ofBytes fun k => arg (msgFramHdrSize + k))
  if lock then chip time else time

def ktSetSysTime (lock : Bool) (chip : RtcTime → RtcTime) (arg : Nat → UInt8) :
    List (List UInt8) :=
  [ClearDataRes.fram msgSignSetTimeRes ⟨(setSysTime lock chip arg).shown, 1⟩]

structure AlarmInfoRes where
  usTotalPack : UInt16
  usCurrSequ : UInt16
  stTime : SystemTime
  ulTimestamp : UInt32
  usIdx : UInt16
  ucType : UInt8
  deriving DecidableEq

namespace AlarmInfoRes

def read (fram : Nat → UInt8) : AlarmInfoRes where
  usTotalPack := .ofNat (hConvert fun k => fram (5 + k))
  usCurrSequ := .ofNat (hConvert fun k => fram (7 + k))
  stTime := .ofBytes fun k => fram (9 + k)
  ulTimestamp := dwHConvert fun k => fram (15 + k)
  usIdx := .ofNat (hConvert fun k => fram (19 + k))
  ucType := fram 21

theorem sealed_fram (packs i : Nat) (alarm : AlarmMsg) : Sealed (alarmInfoFram packs i alarm) :=
  sealed_msgFram rfl (by decide)

theorem read_fram (packs i : Nat) (m : AlarmMsg) :
    read (memoryOf (alarmInfoFram packs i m)) =
      ⟨.ofNat packs, .ofNat i, m.time, m.ts, m.idx, m.type⟩ := by
  have htotal : UInt16.ofNat (hConvert fun k => memoryOf (alarmInfoFram packs i m) (5 + k)) =
      .ofNat packs := ofNat_hConvert fun k hk => by interval_cases k <;> rfl
  have hcurr : UInt16.ofNat (hConvert fun k => memoryOf (alarmInfoFram packs i m) (7 + k)) =
      .ofNat i := ofNat_hConvert fun k hk => by interval_cases k <;> rfl
  have hidx : UInt16.ofNat (hConvert fun k => memoryOf (alarmInfoFram packs i m) (19 + k)) =
      .ofNat m.idx.toNat := ofNat_hConvert fun k hk => by interval_cases k <;> rfl
  have hts : dwHConvert (fun k => memoryOf (alarmInfoFram packs i m) (15 + k)) = m.ts :=
    dwHConvert_eq fun k hk => by interval_cases k <;> rfl
  have htime : SystemTime.ofBytes (fun k => memoryOf (alarmInfoFram packs i m) (9 + k)) = m.time :=
    SystemTime.ofBytes_eq fun k hk => by interval_cases k <;> rfl
  rw [read, htotal, hcurr, hidx, hts, htime, UInt16.ofNat_toNat]
  rfl

end AlarmInfoRes

def SystemTime.toBcd (t : SystemTime) : SystemTime :=
  ⟨decToBcd t.ucYear, decToBcd t.ucMonth, decToBcd t.ucDay, decToBcd t.ucHour, decToBcd t.ucMin,
    decToBcd t.ucScd⟩

structure SampleInfoRes where
  stStrTime : SystemTime
  stEndTime : SystemTime
  deriving DecidableEq

namespace SampleInfoRes

def fram (res : SampleInfoRes) : List UInt8 :=
  msgFram 32 msgSignSampleInfoRes
    (res.stStrTime.bytes ++ res.stEndTime.bytes ++ List.replicate 13 0)

def read (fram : Nat → UInt8) : SampleInfoRes :=
  ⟨.ofBytes fun k => fram (5 + k), .ofBytes fun k => fram (11 + k)⟩

theorem sealed_fram (res : SampleInfoRes) : Sealed res.fram := sealed_msgFram rfl (by decide)

theorem read_fram (res : SampleInfoRes) : read (memoryOf res.fram) = res := by
  have hstr : SystemTime.ofBytes (fun k => memoryOf res.fram (5 + k)) = res.stStrTime :=
    SystemTime.ofBytes_eq fun k hk => by interval_cases k <;> rfl
  have hend : SystemTime.ofBytes (fun k => memoryOf res.fram (11 + k)) = res.stEndTime :=
    SystemTime.ofBytes_eq fun k hk => by interval_cases k <;> rfl
  rw [read, hstr, hend]

end SampleInfoRes

def ktSampleInfo (config : ConfigInfo) : List (List UInt8) :=
  [SampleInfoRes.fram ⟨(timestampToDatetime config.strTime).toBcd,
    (timestampToDatetime config.endTime).toBcd⟩]

namespace AlarmDataRes

/-- The 50 samples as they are sent. -/
def dataBytes (res : AlarmDataRes) : List UInt8 :=
  (List.finRange 50).flatMap fun index =>
    (List.finRange 4).flatMap fun k => beBytes 4 (res.data index k).toNat

/-- Time, timestamp and temperature of the first sample, and the samples. -/
def bytes (res : AlarmDataRes) : List UInt8 :=
  res.stTime.bytes ++ beBytes 8 res.ullTs.toNat ++ beBytes 4 res.temp.toNat ++ res.dataBytes

def read (b : Nat → UInt8) : AlarmDataRes where
  stTime := .ofBytes b
  ullTs := qwHConvert fun k => b (6 + k)
  temp := dwHConvert fun k => b (14 + k)
  data index k := dwHConvert fun i => b (18 + (16 * index.val + (4 * k.val + i)))

theorem length_sampleBytes (res : AlarmDataRes) (index : Fin 50) :
    ((List.finRange 4).flatMap fun k => beBytes 4 (res.data index k).toNat).length = 16 :=
  length_flatMap _ fun _ => length_beBytes ..

theorem length_dataBytes (res : AlarmDataRes) : res.dataBytes.length = 800 := by
  rw [dataBytes, length_flatMap _ res.length_sampleBytes, List.length_finRange]

theorem length_bytes (res : AlarmDataRes) : res.bytes.length = 818 := by
  rw [bytes, List.length_append, length_dataBytes]
  rfl

theorem memoryOf_dataBytes (res : AlarmDataRes) (index : Fin 50) (k : Fin 4) {i : Nat}
    (hi : i < 4) : memoryOf res.dataBytes (16 * index + (4 * k + i)) =
      memoryOf (beBytes 4 (res.data index k).toNat) i := by
  rw [dataBytes, memoryOf_flatMap res.length_sampleBytes
      (List.getElem?_eq_some_iff.mpr ⟨by simp, List.getElem_finRange _⟩) (by omega),
    memoryOf_flatMap (fun _ => length_beBytes ..)
      (List.getElem?_eq_some_iff.mpr ⟨by simp, List.getElem_finRange _⟩) hi]
  rfl

theorem read_bytes {res : AlarmDataRes} {b : Nat → UInt8}
    (h : ∀ k < 818, b k = memoryOf res.bytes k) : read b = res := by
  have htime : SystemTime.ofBytes b = res.stTime :=
    SystemTime.ofBytes_eq fun k hk => (h k (by omega)).trans (by interval_cases k <;> rfl)
  have hts : qwHConvert (fun k => b (6 + k)) = res.ullTs :=
    qwHConvert_eq fun k hk => (h _ (by omega)).trans (by interval_cases k <;> rfl)
  have htemp : dwHConvert (fun k => b (14 + k)) = res.temp :=
    dwHConvert_eq fun k hk => (h _ (by omega)).trans (by interval_cases k <;> rfl)
  have hdata (index : Fin 50) (k : Fin 4) :
      dwHConvert (fun i => b (18 + (16 * index.val + (4 * k.val + i)))) = res.data index k := by
    refine dwHConvert_eq fun i hi => ?_
    rw [h _ (by omega), ← res.memoryOf_dataBytes index k hi]
    exact memoryOf_append_right
      (res.stTime.bytes ++ beBytes 8 res.ullTs.toNat ++ beBytes 4 res.temp.toNat) _ _
  simp only [read, htime, hts, htemp, hdata]

theorem read_msgFram (len : Nat) (sign : UInt8) (head : List UInt8) (res : AlarmDataRes)
    (tail : List UInt8) :
    read (fun k => memoryOf (msgFram len sign (head ++ (res.bytes ++ tail)))
      (5 + head.length + k)) = res := by
  refine read_bytes fun k hk => ?_
  have hlt : head.length + k < (head ++ (res.bytes ++ tail)).length := by
    rw [List.length_append, List.length_append, length_bytes]
    omega
  rw [Nat.add_assoc, memoryOf_msgFram _ _ hlt, memoryOf_append_right]
  exact memoryOf_append_left _ (res.length_bytes.symm ▸ hk)

end AlarmDataRes

/-- An `AlarmDataRes_t`, `res` being the part from `stTime` on. -/
structure AlarmDataPack where
  usTotalPack : UInt16
  usCurrSequ : UInt16
  res : AlarmDataRes

namespace AlarmDataPack

def read (fram : Nat → UInt8) : AlarmDataPack :=
  ⟨.ofNat (hConvert fun k => fram (5 + k)), .ofNat (hConvert fun k => fram (7 + k)),
    .read fun k => fram (9 + k)⟩

variable (currIndex : Nat) (res : AlarmDataRes)

theorem alarmDataFram_eq : alarmDataFram currIndex res = msgFram 832 msgSignAlarmDataRes
    (beBytes 2 60 ++ beBytes 2 currIndex ++ (res.bytes ++ List.replicate 3 0)) := by
  simp only [alarmDataFram, AlarmDataRes.bytes, AlarmDataRes.dataBytes, List.append_assoc]

theorem length_payload : (beBytes 2 60 ++ beBytes 2 currIndex ++
    (res.bytes ++ List.replicate 3 0)).length = 825 := by
  rw [List.length_append, List.length_append, List.length_append, res.length_bytes]
  rfl

theorem sealed_fram : Sealed (alarmDataFram currIndex res) := by
  rw [alarmDataFram_eq]
  exact sealed_msgFram (by rw [length_payload]) (by decide)

theorem read_fram :
    read (memoryOf (alarmDataFram currIndex res)) = ⟨60, .ofNat currIndex, res⟩ := by
  have hfield {k : Nat} (hk : k < 825) : memoryOf (alarmDataFram currIndex res) (5 + k) =
      memoryOf (beBytes 2 60 ++ beBytes 2 currIndex ++ (res.bytes ++ List.replicate 3 0)) k := by
    rw [alarmDataFram_eq]
    exact memoryOf_msgFram _ _ ((length_payload currIndex res).symm ▸ hk)
  have htotal : UInt16.ofNat (hConvert fun k => memoryOf (alarmDataFram currIndex res) (5 + k)) =
      .ofNat 60 :=
    ofNat_hConvert fun k hk => (hfield (by omega)).trans (by interval_cases k <;> rfl)
  have hcurr : UInt16.ofNat (hConvert fun k => memoryOf (alarmDataFram currIndex res) (7 + k)) =
      .ofNat currIndex := by
    refine ofNat_hConvert fun k hk => ?_
    have hk' : 7 + k = 5 + (2 + k) := by omega
    rw [hk', hfield (by omega)]
    interval_cases k <;> rfl
  have hres :
      AlarmDataRes.read (fun k => memoryOf (alarmDataFram currIndex res) (9 + k)) = res := by
    rw [alarmDataFram_eq]
    exact AlarmDataRes.read_msgFram 832 msgSignAlarmDataRes (beBytes 2 60 ++ beBytes 2 currIndex) ..
  rw [read, htotal, hcurr, hres]
  rfl

end AlarmDataPack

/-- A `SampleDataRes_t`, `res` being the part from `stTime` on. -/
structure SampleDataPack where
  ulTotalPack : UInt32
  ulCurrSequ : UInt32
  res : AlarmDataRes

namespace SampleDataPack

def fram (pack : SampleDataPack) : List UInt8 :=
  msgFram 848 msgSignSampleDataRes
    (dwStore pack.ulTotalPack ++ dwStore pack.ulCurrSequ ++ pack.res.stTime.bytes ++
      qwStore pack.res.ullTs ++ dwStore pack.res.temp ++
      (List.finRange 50).flatMap (fun index =>
        (List.finRange 4).flatMap fun k => dwStore (pack.res.data index k)) ++
      List.replicate 15 0)

def read (fram : Nat → UInt8) : SampleDataPack :=
  ⟨dwHConvert fun k => fram (5 + k), dwHConvert fun k => fram (9 + k),
    .read fun k => fram (13 + k)⟩

variable (pack : SampleDataPack)

theorem fram_eq : pack.fram = msgFram 848 msgSignSampleDataRes
    (beBytes 4 pack.ulTotalPack.toNat ++ beBytes 4 pack.ulCurrSequ.toNat ++
      (pack.res.bytes ++ List.replicate 15 0)) := by
  simp only [fram, dwStore_eq, qwStore_eq, AlarmDataRes.bytes, AlarmDataRes.dataBytes,
    List.append_assoc]

theorem length_payload : (beBytes 4 pack.ulTotalPack.toNat ++ beBytes 4 pack.ulCurrSequ.toNat ++
    (pack.res.bytes ++ List.replicate 15 0)).length = 841 := by
  rw [List.length_append, List.length_append, List.length_append, pack.res.length_bytes]
  rfl

theorem sealed_fram : Sealed pack.fram := by
  rw [fram_eq]
  exact sealed_msgFram (by rw [length_payload]) (by decide)

theorem read_fram : read (memoryOf pack.fram) = pack := by
  have hfield {k : Nat} (hk : k < 841) : memoryOf pack.fram (5 + k) =
      memoryOf (beBytes 4 pack.ulTotalPack.toNat ++ beBytes 4 pack.ulCurrSequ.toNat ++
        (pack.res.bytes ++ List.replicate 15 0)) k := by
    rw [fram_eq]
    exact memoryOf_msgFram _ _ (pack.length_payload.symm ▸ hk)
  have htotal : dwHConvert (fun k => memoryOf pack.fram (5 + k)) = pack.ulTotalPack :=
    dwHConvert_eq fun k hk => (hfield (by omega)).trans (by interval_cases k <;> rfl)
  have hcurr : dwHConvert (fun k => memoryOf pack.fram (9 + k)) = pack.ulCurrSequ := by
    refine dwHConvert_eq fun k hk => ?_
    have hk' : 9 + k = 5 + (4 + k) := by omega
    rw [hk', hfield (by omega)]
    interval_cases k <;> rfl
  have hres : AlarmDataRes.read (fun k => memoryOf pack.fram (13 + k)) = pack.res := by
    rw [fram_eq]
    exact AlarmDataRes.read_msgFram 848 msgSignSampleDataRes
      (beBytes 4 pack.ulTotalPack.toNat ++ beBytes 4 pack.ulCurrSequ.toNat) ..
  rw [read, htotal, hcurr, hres]

end SampleDataPack

/-- What `kt_SampleDataIn` sends for a second that is not found. -/
def AlarmDataRes.missing (strTs : UInt32) (num : Nat) : AlarmDataRes :=
  ⟨(timestampToDatetime strTs).toBcd, strTs.toUInt64 * 1000 + .ofNat (num * 50), 0, fun _ _ => 0⟩

/-- `gBuf` is what the buffer holds before. -/
def ktSampleDataIn (io : AdcReadIo) (s : AdcStore) (gBuf : Blocks) (arg : Nat → UInt8) :
    List (List UInt8) :=
  let req := sampleDataInRes arg
  let answer := storageReadAdcData io s req.ulStrTs 0 gBuf 125
  (List.range 20).map fun num => SampleDataPack.fram
    ⟨req.ulTotalPack, req.ulCurrSequ + .ofNat num,
      if answer.1 = 0 then .load answer.2.byte num else .missing req.ulStrTs num⟩

end Lsc100
