import Mathlib.Tactic.IntervalCases
import Lsc100.Calendar
import Lsc100.Adc.Store
import Lsc100.Net.Framing

/-! Requests for samples. `kt_SampleData` splits the window of a request into seconds and
writes a frame of its own for each of them; `kt_SampleDataIn` answers such a frame with
20 packets. -/

namespace Lsc100

open Bytes

def msgSignSampleDataReq : UInt8 := 0x31
def msgSignSampleDataInreq : UInt8 := 0x32

/-- Start and end of a `SampleDataReq_t`. -/
def sampleDataReq (item : Nat → UInt8) : UInt32 × UInt32 :=
  ((SystemTime.ofBytes fun k => item (5 + k)).timestamp,
   (SystemTime.ofBytes fun k => item (11 + k)).timestamp)

/-- The end after `kt_SampleData` has cut the window to 60 seconds. -/
def sampleDataEndTs (strTs endTs : UInt32) : UInt32 :=
  if strTs + 59 < endTs then strTs + 59 else endTs

def sampleDataTotalPack (strTs endTs : UInt32) : UInt32 :=
  (endTs - strTs + 1) * UInt32.ofNat adcItemNumPerSecond / 50

/-- The fields of a `SampleDataInRes_t` that are used. -/
structure SampleDataInRes where
  ulTotalPack : UInt32
  ulCurrSequ : UInt32
  ulStrTs : UInt32
  deriving DecidableEq

/-- Numbers of a `SampleDataInRes_t` are in the order of the processor. -/
def leBytes (n x : Nat) : List UInt8 := (List.range n).map (byteOf x)

def SampleDataInRes.fram (req : SampleDataInRes) : List UInt8 :=
  msgFram 32 msgSignSampleDataInreq
    (leBytes 4 req.ulTotalPack.toNat ++ leBytes 4 req.ulCurrSequ.toNat ++
      leBytes 4 req.ulStrTs.toNat ++ leBytes 4 req.ulStrTs.toNat ++ List.replicate 9 0)

def sampleDataInRes (item : Nat → UInt8) : SampleDataInRes :=
  ⟨.ofNat (leNat 4 fun k => item (5 + k)), .ofNat (leNat 4 fun k => item (9 + k)),
   .ofNat (leNat 4 fun k => item (13 + k))⟩

/-- What is written for the second `i` of a window. -/
def sampleDataSecond (strTs endTs : UInt32) (i : Nat) : SampleDataInRes :=
  ⟨sampleDataTotalPack strTs endTs, .ofNat (i * 20), strTs + .ofNat i⟩

theorem memoryOf_append_left {a : List UInt8} (b : List UInt8) {i : Nat} (h : i < a.length) :
    memoryOf (a ++ b) i = memoryOf a i := by
  rw [memoryOf, memoryOf, List.getD_eq_getElem?_getD, List.getD_eq_getElem?_getD,
    List.getElem?_append_left h]

theorem memoryOf_append_right (a b : List UInt8) (i : Nat) :
    memoryOf (a ++ b) (a.length + i) = memoryOf b i := by
  rw [memoryOf, memoryOf, List.getD_eq_getElem?_getD, List.getD_eq_getElem?_getD,
    List.getElem?_append_right (Nat.le_add_right ..), Nat.add_sub_cancel_left]

theorem hConvert_beBytes {x : Nat} (h : x < 2 ^ 16) : hConvert (memoryOf (beBytes 2 x)) = x := by
  have hbytes : hConvert (memoryOf (beBytes 2 x)) = beNat 2 fun i => byteOf x (2 - 1 - i) := rfl
  rw [hbytes, beNat_byteOf]
  exact Nat.mod_eq_of_lt h

/-- What the device builds as a frame is sealed, if the length is right. -/
theorem sealed_msgFram {len : Nat} {sign : UInt8} {payload : List UInt8}
    (hlen : payload.length + 7 = len) (hmax : len < 2 ^ 16) :
    Sealed (msgFram len sign payload) := by
  have hlength : (msgFram len sign payload).length = len := by rw [length_msgFram, hlen]
  have hhead : (beBytes 2 msgDataFramHdr ++ beBytes 2 len ++ [sign] ++ payload).length =
      len - 2 := by
    simp only [List.length_append, length_beBytes, List.length_singleton]
    omega
  refine ⟨⟨by omega, by omega⟩, ?_, ?_, ?_⟩
  · have hhdr : hConvert (memoryOf (msgFram len sign payload)) =
        hConvert (memoryOf (beBytes 2 msgDataFramHdr)) :=
      hConvert_congr fun k hk => by interval_cases k <;> rfl
    rw [hhdr, hConvert_beBytes (by decide)]
  · rw [hlength]
    exact hConvert_beBytes hmax
  · rw [hlength]
    have hcrc : hConvert (fun k => memoryOf (msgFram len sign payload) (len - 2 + k)) =
        hConvert (memoryOf (beBytes 2 (checkSum8 (memoryOf (beBytes 2 msgDataFramHdr ++
          beBytes 2 len ++ [sign] ++ payload)) (len - msgDataFramCrcSize)).toNat)) := by
      refine hConvert_congr fun k _ => ?_
      rw [msgFram, ← hhead, memoryOf_append_right]
    rw [hcrc, hConvert_beBytes (UInt16.toNat_lt _)]
    refine congrArg UInt16.toNat (checkSum8_congr fun i hi => ?_)
    exact (memoryOf_append_left _ (hhead.symm ▸ hi)).symm

/-- A short one with a sign of the table is a request. -/
theorem msgFram_wellFormed {len : Nat} {sign : UInt8} {payload : List UInt8}
    (hlen : payload.length + 7 = len) (hmax : len ≤ maxQueueDataSize)
    (hsign : ∃ handler, (sign, handler) ∈ gMsgPraseInterTable) :
    WellFormed (msgFram len sign payload) := by
  have hsize : maxQueueDataSize = 100 := rfl
  have hsealed : Sealed (msgFram len sign payload) := sealed_msgFram hlen (by omega)
  have hlength : (msgFram len sign payload).length = len := by rw [length_msgFram, hlen]
  exact ⟨⟨hsealed.size.1, hlength.trans_le hmax⟩, hsealed.hdr, hsealed.len, hsign, hsealed.crc⟩

namespace SampleDataInRes

variable {req : SampleDataInRes} {item : Nat → UInt8}

@[simp] theorem length_fram (req : SampleDataInRes) : req.fram.length = 32 := length_msgFram ..

theorem fram_wellFormed (req : SampleDataInRes) : WellFormed req.fram :=
  msgFram_wellFormed rfl (by decide) ⟨.ktSampleDataIn, by decide⟩

theorem msgProc_fram (h : ∀ k < 32, item k = memoryOf req.fram k) (around : Int → UInt8) :
    msgProc item around = some .ktSampleDataIn := by
  rw [req.fram_wellFormed.msgProc_item (by rwa [length_fram]) around]
  rfl

theorem sampleDataInRes_fram (h : ∀ k < 32, item k = memoryOf req.fram k) :
    sampleDataInRes item = req := by
  have hfield (x : UInt32) (a : Nat) (ha : a ≤ 28)
      (hfram : ∀ k < 4, memoryOf req.fram (a + k) = byteOf x.toNat k) :
      UInt32.ofNat (leNat 4 fun k => item (a + k)) = x := by
    have hbytes : leNat 4 (fun k => item (a + k)) = leNat 4 (byteOf x.toNat) :=
      leNat_congr fun k hk => (h (a + k) (by omega)).trans (hfram k hk)
    have hlt : x.toNat < 256 ^ 4 := x.toNat_lt
    rw [hbytes, leNat_byteOf, Nat.mod_eq_of_lt hlt, UInt32.ofNat_toNat]
  have htotal := hfield req.ulTotalPack 5 (by decide) fun k hk => by interval_cases k <;> rfl
  have hcurr := hfield req.ulCurrSequ 9 (by decide) fun k hk => by interval_cases k <;> rfl
  have hstr := hfield req.ulStrTs 13 (by decide) fun k hk => by interval_cases k <;> rfl
  rw [sampleDataInRes, htotal, hcurr, hstr]

end SampleDataInRes

/-- A request for the first seconds of 2026, the last of them as BCD. -/
def firstSecondsReq (last : UInt8) : List UInt8 :=
  msgFram 32 msgSignSampleDataReq
    ([0x26, 0x01, 0x01, 0, 0, 0, 0x26, 0x01, 0x01, 0, 0, last] ++ List.replicate 13 0)

end Lsc100
