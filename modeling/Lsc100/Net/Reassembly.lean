import Lsc100.Adc.Complete
import Lsc100.Alarm.Agree
import Lsc100.Net.Packets

/-! The packets of a capture and of a second, put together again: packet `p` begins with
item 50 `p`, and its entries are the items from there on. -/

namespace Lsc100

open Overlay

/-- The search for `ts` finds an entry that points to the second. -/
def StoredSecond (s : AdcStore) (ts : UInt32) (data : Blocks) : Prop :=
  ∃ item, s.lookup .ok ts = some item ∧ ∀ b < 125, s.emmc (item.addr.toNat + b) = data b

def itemAt (bytes : Nat → UInt8) (i : Nat) : AdcItem := .ofBytes fun k => bytes (64 * i + k)

/-- What a packet carries that begins with item `i`. -/
def itemsFrom (bytes : Nat → UInt8) (i : Nat) : AlarmDataRes :=
  ⟨(itemAt bytes i).time, (itemAt bytes i).ts, (itemAt bytes i).temp,
    fun j => (itemAt bytes (i + j)).data⟩

theorem load_eq_itemsFrom (bytes : Nat → UInt8) (p : Nat) :
    AlarmDataRes.load bytes p = itemsFrom bytes (50 * p) := by
  have hitem (index : Nat) : AdcItem.ofBytes (fun k => bytes ((index + p * 50) * 64 + k)) =
      itemAt bytes (50 * p + index) := by
    have haddr : (index + p * 50) * 64 = 64 * (50 * p + index) := by ring
    rw [haddr]
    rfl
  simp only [AlarmDataRes.load, hitem, Nat.add_zero]
  rfl

section Capture

variable {s : AlarmStore} {ts : UInt32} {sample : Nat → UInt8}

/-- Read `n` gets the chunk from byte 12800 `n` on. -/
theorem StoredCapture.chunk (h : StoredCapture s ts sample) (gBuf : Nat → UInt8) {n : Nat}
    (hn : n < 15) :
    alarmDataRet (fun _ => true) s ts gBuf n = 0 ∧
      ∀ k < 12800, alarmDataBuf (fun _ => true) s ts gBuf (n + 1) k = sample (12800 * n + k) := by
  have hread := h.read (show 12800 * n + 12800 ≤ 192000 by omega)
    (alarmDataBuf (fun _ => true) s ts gBuf n)
  have hbuf : alarmDataBuf (fun _ => true) s ts gBuf (n + 1) =
      overlay (fun _ x => x) (alarmDataBuf (fun _ => true) s ts gBuf n) 0 12800
        fun k => sample (12800 * n + k) := congrArg Prod.snd hread
  refine ⟨congrArg Prod.fst hread, fun k hk => ?_⟩
  rw [hbuf, overlay_in _ _ _ (Nat.zero_le k) (by omega), Nat.sub_zero]

theorem StoredCapture.packet (h : StoredCapture s ts sample) (gBuf : Nat → UInt8) {p : Nat}
    (hp : p < 60) :
    alarmDataRes (fun _ => true) s ts gBuf (p + 1) = itemsFrom sample (50 * p) := by
  obtain ⟨hret, hbuf⟩ := h.chunk gBuf (n := p / 4) (by omega)
  rw [alarmDataRes, if_pos hret, ← load_eq_itemsFrom]
  refine AlarmDataRes.load_congr fun k hk => ?_
  rw [hbuf _ (by omega)]
  congr 1
  omega

end Capture

section Second

variable {s : AdcStore} {ts : UInt32} {data : Blocks}

theorem StoredSecond.readable (h : StoredSecond s ts data) : Readable s ⟨ts, data⟩ := by
  obtain ⟨item, hlook, hdata⟩ := h
  intro buf
  rw [storageReadAdcData_ok, hlook]
  refine ⟨rfl, fun i hi => ?_⟩
  simp only
  rw [Nat.mod_eq_of_lt item.addr.toNat_lt, emmcReadBlocks_ok _ _ hi]
  exact hdata i hi

theorem Readable.packet (h : Readable s ⟨ts, data⟩) (gBuf : Blocks) {p : Nat} (hp : p < 20) :
    AlarmDataRes.load (storageReadAdcData .ok s ts 0 gBuf 125).2.byte p =
      itemsFrom data.byte (50 * p) := by
  rw [← load_eq_itemsFrom]
  refine AlarmDataRes.load_congr fun k hk => ?_
  rw [Blocks.byte, (h gBuf).2 _ (by omega), Blocks.byte]

end Second

/-- Asked for a capture or a second that is stored, the device sends all its items once and in
order. -/
theorem packets_reassemble :
    (∀ (s : AlarmStore) (ts : UInt32) (sample gBuf arg : Nat → UInt8), StoredCapture s ts sample →
      (SystemTime.ofBytes fun k => arg (msgFramHdrSize + k)).timestamp = ts →
      Sends (ktAlarmData (fun _ => true) s gBuf arg).sent 60 AlarmDataPack.read
        fun p => ⟨60, .ofNat p, itemsFrom sample (50 * p)⟩) ∧
    (∀ (s : AdcStore) (ts : UInt32) (data gBuf : Blocks) (arg : Nat → UInt8),
      StoredSecond s ts data → (sampleDataInRes arg).ulStrTs = ts →
      Sends (ktSampleDataIn .ok s gBuf arg) 20 SampleDataPack.read
        fun p => ⟨(sampleDataInRes arg).ulTotalPack, (sampleDataInRes arg).ulCurrSequ + .ofNat p,
          itemsFrom data.byte (50 * p)⟩) := by
  refine ⟨fun s ts sample gBuf arg hstored harg => ?_,
    fun s ts data gBuf arg hstored harg => ?_⟩
  · rw [ktAlarmData_sent, harg]
    refine sends_map _ (fun _ => AlarmDataPack.sealed_fram _ _) fun p hp => ?_
    rw [AlarmDataPack.read_fram, hstored.packet gBuf hp]
  · refine sends_map _ (fun _ => SampleDataPack.sealed_fram _) fun p hp => ?_
    have hread := hstored.readable
    rw [SampleDataPack.read_fram, harg, if_pos (hread gBuf).1, hread.packet gBuf hp]

def firstAlarmReq (k : Nat) : UInt8 := memoryOf firstAlarm.msg.time.bytes (k - msgFramHdrSize)

/-- The recorder after its first second. -/
def firstSecond : AdcStore :=
  (storageWriteAdcData .ok (.boot (fun _ => zeroBlock) .nextOn) 1774601400 (fun _ => zeroBlock) 125
    true).1

def firstSecondReq : SampleDataInRes := ⟨20, 0, 1774601400⟩

theorem packets_reassemble_first :
    Sends (ktAlarmData (fun _ => true)
      ((alarmLog (.boot .nextOn)).run [.capture firstAlarm.stored]) (fun _ => 0) firstAlarmReq).sent
      60 AlarmDataPack.read (fun p => ⟨60, .ofNat p, itemsFrom firstAlarm.sample (50 * p)⟩) ∧
    Sends (ktSampleDataIn .ok firstSecond (fun _ => zeroBlock) (memoryOf firstSecondReq.fram)) 20
      SampleDataPack.read
      (fun p => ⟨20, 0 + .ofNat p, itemsFrom (Blocks.byte fun _ => zeroBlock) (50 * p)⟩) := by
  have hlisted : Listed ((alarmLog (.boot .nextOn)).run [.capture firstAlarm.stored])
      [firstAlarm] := Listed.run .boot [firstAlarm] (by decide)
  have hcapture := hlisted.storedCapture (by decide) (List.pairwise_singleton _ _) (i := 0) rfl
  have hsecond : StoredSecond firstSecond 1774601400 fun _ => zeroBlock := by
    refine ⟨⟨0, 1774601400⟩, by decide +kernel, fun b _ => ?_⟩
    exact ite_self (zeroBlock)
  have hreq : sampleDataInRes (memoryOf firstSecondReq.fram) = firstSecondReq :=
    SampleDataInRes.sampleDataInRes_fram fun _ _ => rfl
  have hsends := packets_reassemble.2 firstSecond 1774601400 (fun _ => zeroBlock)
    (fun _ => zeroBlock) (memoryOf firstSecondReq.fram) hsecond (by rw [hreq]; rfl)
  rw [hreq] at hsends
  exact ⟨packets_reassemble.1 _ _ _ (fun _ => 0) firstAlarmReq hcapture (by decide +kernel), hsends⟩

end Lsc100
