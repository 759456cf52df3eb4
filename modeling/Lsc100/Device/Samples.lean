import Lsc100.Adc.Complete
import Lsc100.Adc.Found
import Lsc100.Device.Steps
import Lsc100.Net.Reassembly
import Lsc100.Sample.Layout

/-! The way of a sample: through the cache, the buffer of `storage_task`, the card and the packets
to the client.
-/

namespace Lsc100

open Bytes

/-- A field of `n` bytes that lies at offset `k` of the sample. -/
theorem leNat_field {n k x : Nat} {b : Nat → UInt8} (hx : x < 256 ^ n)
    (h : ∀ j < n, b (j + k) = byteOf x j) : leNat n (fun j => b (j + k)) = x := by
  rw [leNat_congr h, leNat_byteOf, Nat.mod_eq_of_lt hx]

theorem AdcItem.ofBytes_byte {item : AdcItem} {b : Nat → UInt8} (h : ∀ k < 64, b k = item.byte k) :
    AdcItem.ofBytes b = item := by
  have htime : SystemTime.ofBytes b = item.time := SystemTime.ofBytes_eq fun k hk => by
    rw [h k (by omega), byte, if_pos hk]
  have hts : leNat 8 (fun k => b (k + 6)) = item.ts.toNat :=
    leNat_field item.ts.toNat_lt fun k hk => by
      rw [h _ (by omega), byte, if_neg (by omega), if_pos (by omega), Nat.add_sub_cancel]
  have hraw (j : Fin 4) : leNat 2 (fun k => b (k + (14 + 2 * j.val))) = (item.rawData j).toNat :=
    leNat_field (item.rawData j).toNat_lt fun j' hj' => by
      rw [h _ (by omega), byte, if_neg (by omega), if_neg (by omega), if_pos (by omega)]
      have hidx (h4 : _ < 4) : (⟨(j' + (14 + 2 * j.val) - 14) / 2 % 4, h4⟩ : Fin 4) = j := by
        ext
        simp
        omega
      rw [hidx]
      congr 1
      omega
  have hdata (j : Fin 4) : leNat 4 (fun k => b (k + (22 + 4 * j.val))) = (item.data j).toNat :=
    leNat_field (item.data j).toNat_lt fun j' hj' => by
      rw [h _ (by omega), byte, if_neg (by omega), if_neg (by omega), if_neg (by omega),
        if_pos (by omega)]
      have hidx (h4 : _ < 4) : (⟨(j' + (22 + 4 * j.val) - 22) / 4 % 4, h4⟩ : Fin 4) = j := by
        ext
        simp
        omega
      rw [hidx]
      congr 1
      omega
  have htemp : leNat 4 (fun k => b (k + 38)) = item.temp.toNat :=
    leNat_field item.temp.toNat_lt fun k hk => by
      rw [h _ (by omega), byte, if_neg (by omega), if_neg (by omega), if_neg (by omega),
        if_neg (by omega), if_pos (by omega), Nat.add_sub_cancel]
  have hrsvd : (fun j : Fin 22 => b (j.val + 42)) = item.rsvd := by
    funext j
    rw [h _ (by omega), byte, if_neg (by omega), if_neg (by omega), if_neg (by omega),
      if_neg (by omega), if_neg (by omega)]
    congr 1
    ext
    simp
  simp only [ofBytes, htime, hts, Nat.add_assoc, hraw, hdata, htemp, hrsvd, UInt64.ofNat_toNat,
    UInt16.ofNat_toNat, UInt32.ofNat_toNat]

theorem HandedRecord.itemAt_second (r : HandedRecord) {i : Nat} :
    itemAt r.second.data.byte i = r.items i := by
  refine AdcItem.ofBytes_byte fun k hk => ?_
  have hblock : 8 * ((64 * i + k) / 512) + (64 * i + k) % 512 / 64 = i := by omega
  have hbyte : (64 * i + k) % 512 % 64 = k := by omega
  simp only [Blocks.byte, Block.byte, second, hblock, hbyte]

/-- `sample_task` and `storage_task` with the cache between them and the store behind. -/
structure Recorder where
  flow : SampleFlow
  store : AdcStore

def Recorder.turn (s : Recorder) (countLock readLock : Bool) : Recorder :=
  let flow := s.flow.turn countLock readLock
  { flow := flow
    store := ((flow.handed.drop s.flow.handed.length).map HandedRecord.second).foldl
      (fun adc r => (storageWriteAdcData .ok adc r.ts r.data 125 true).1) s.store }

def recorder (store : AdcStore) : Machine Recorder SampleEvent where
  start := ⟨sampleFlow.start, store⟩
  step s
    | .write lock item => { s with flow := s.flow.write lock item }
    | .turn countLock readLock => s.turn countLock readLock

theorem recorder_run (store : AdcStore) (es : List SampleEvent) :
    ((recorder store).run es).flow = sampleFlow.run es ∧
      ((recorder store).run es).store =
        (adcRecorder store).run ((sampleFlow.run es).handed.map fun r => .write r.second) := by
  induction es using List.reverseRecOn with
  | nil => exact ⟨rfl, rfl⟩
  | append_singleton es e ih =>
    obtain ⟨hflow, hstore⟩ := ih
    rw [Machine.run_concat, Machine.run_concat]
    generalize (recorder store).run es = s at hflow hstore ⊢
    cases e with
    | write lock item => exact ⟨congrArg (·.write lock item) hflow, hstore⟩
    | turn countLock readLock =>
      obtain ⟨new, hnew, -⟩ := (Flowing.run es).turn_handed countLock readLock
      have hrecords : ((adcRecorder store).runFrom s.store (new.map fun r => .write r.second)) =
          (new.map HandedRecord.second).foldl
            (fun adc r => (storageWriteAdcData .ok adc r.ts r.data 125 true).1) s.store := by
        simp [Machine.runFrom, List.foldl_map, adcRecorder]
      have hturn : (sampleFlow.step (sampleFlow.run es) (.turn countLock readLock)).handed =
          (sampleFlow.run es).handed ++ new := hnew
      rw [hturn, List.map_append, Machine.run_append, ← hstore, hrecords]
      refine ⟨congrArg (·.turn countLock readLock) hflow, ?_⟩
      simp only [recorder, Recorder.turn, hflow, hnew, List.drop_left]

theorem adcLog_length_le (es : List AdcEvent) : (adcLog.run es).length ≤ (writes es).length := by
  induction es using List.reverseRecOn with
  | nil => exact Nat.le_refl 0
  | append_singleton es e ih =>
    rw [Machine.run_concat, writes_append, List.length_append]
    cases e with
    | write r =>
      have hwrite : (adcLog.step (adcLog.run es) (.write r)).length = (adcLog.run es).length + 1 :=
        AdcLog.write_length _ r
      rw [hwrite]
      exact Nat.add_le_add_right ih 1
    | reboot =>
      have hreboot : (adcLog.step (adcLog.run es) .reboot).length ≤ (adcLog.run es).length := by
        simp [adcLog, AdcLog.reboot, AdcLog.length]
      omega

theorem adcLog_run_writes (before : List AdcEvent) (rs : List SecondRecord) :
    adcLog.run (before ++ rs.map .write) = (adcLog.run before).writes rs := by
  rw [Machine.run_append, Machine.runFrom, List.foldl_map]
  rfl

/-- Whatever has been stored before, a record of this run is found until the rings start over. -/
theorem readable_of_written {card : Emmc} {c : ConfigInfo} (hc : c.Fresh)
    (hflag : c.flag = devFlagNextOn) {before : List AdcEvent} {rs : List SecondRecord}
    (hmono : (writes before ++ rs).Pairwise (·.ts < ·.ts))
    (hlap : (writes before ++ rs).length < 480000) {r : SecondRecord} (hr : r ∈ rs)
    (hpos : 0 < r.ts) :
    Readable ((adcRecorder (.boot card c)).run (before ++ rs.map .write)) r := by
  have hwrites : writes (before ++ rs.map .write) = writes before ++ rs := by simp
  rw [← hwrites] at hmono hlap
  have hrep := (represents_run (e := card) hflag hc (before ++ rs.map .write)).1
  have hord := (logOf_run hmono).ordered
  have hle := adcLog_length_le (before ++ rs.map .write)
  obtain ⟨k, hk, rfl⟩ := List.getElem_of_mem hr
  obtain ⟨hlength, -, hslot⟩ := (adcLog.run before).writes_slot rs
  rw [← adcLog_run_writes] at hlength hslot
  generalize adcLog.run (before ++ rs.map .write) = l at hrep hord hle hlength hslot
  have hlen : l.length = 64 * l.flushed + l.fresh := rfl
  have htorn := l.torn_lt
  have hfresh := l.fresh_le_torn
  rw [← hslot k hk] at hpos ⊢
  refine hrep.readable_of_lookup ?_ (by omega) (by omega)
  rcases Nat.lt_or_ge ((adcLog.run before).length + k) (64 * l.flushed) with hdisk | hram
  · exact hrep.lookup_first_lap hord (by omega) hpos hdisk
  · have hi := hrep.lookup_ram hord (i := (adcLog.run before).length + k - 64 * l.flushed)
      (by omega)
    rwa [Nat.add_sub_cancel' hram] at hi

/-- What packet `n` of the second carries that begins at position `p` of the stream. -/
def packetOf (stream : List AdcItem) (p n : Nat) : AlarmDataRes :=
  let item (i : Nat) : AdcItem := stream.getD (slotPos p i) default
  ⟨(item (50 * n)).time, (item (50 * n)).ts, (item (50 * n)).temp,
    fun j => (item (50 * n + j)).data⟩

theorem RecordAt.packet {t₀ p n : Nat} {s : SampleFlow} {r : HandedRecord} (h : RecordAt t₀ s p r)
    (hn : n < 20) : itemsFrom r.second.data.byte (50 * n) = packetOf s.delivered p n := by
  have hitem : ∀ i < 1000, itemAt r.second.data.byte i =
      s.delivered.getD (slotPos p i) default := by
    intro i hi
    rw [r.itemAt_second, List.getD_eq_getElem?_getD, h.items i hi, Option.getD_some]
  simp only [itemsFrom, packetOf, hitem (50 * n) (by omega)]
  congr 1
  funext j
  rw [hitem _ (by omega)]

/-- Up to the packets, from any store that has been in use before the stream's first second: of
every second of an unbroken stream that has been taken from the cache, the client gets the samples
from the positions `slotPos`. -/
theorem recorder_delivers {card : Emmc} {c : ConfigInfo} (hc : c.Fresh)
    (hflag : c.flag = devFlagNextOn) {before : List AdcEvent} {t₀ : Nat} (ht₀ : 1000 ≤ t₀)
    (hbefore : (writes before).Pairwise (·.ts < ·.ts))
    (hearlier : ∀ r ∈ writes before, r.ts.toNat < t₀ / 1000) {es : List SampleEvent} {s : Recorder}
    (hs : (recorder ((adcRecorder (.boot card c)).run before)).run es = s)
    (hcont : Contiguous t₀ s.flow.delivered)
    (hfit : t₀ + s.flow.delivered.length ≤ 1000 * 2 ^ 32)
    (hlap : (writes before).length + s.flow.handed.length < 480000) {p : Nat}
    (hmod : (t₀ + p) % 1000 = 0) (hdone : p + 1000 ≤ s.flow.consumed) (gBuf : Blocks)
    {arg : Nat → UInt8} (harg : (sampleDataInRes arg).ulStrTs = UInt32.ofNat ((t₀ + p) / 1000)) :
    Sends (ktSampleDataIn .ok s.store gBuf arg) 20 SampleDataPack.read fun n =>
      ⟨(sampleDataInRes arg).ulTotalPack, (sampleDataInRes arg).ulCurrSequ + .ofNat n,
        packetOf s.flow.delivered p n⟩ := by
  obtain ⟨hflow, hstore⟩ := recorder_run ((adcRecorder (.boot card c)).run before) es
  rw [hs] at hflow hstore
  rw [hflow] at hcont hfit hlap hdone ⊢
  have hlaid := Laid.run hcont hfit
  obtain ⟨r, hr⟩ := hlaid.recorded p hmod hdone
  have hle := (Flowing.run es).consumed_le
  have hsecond : r.second.ts = UInt32.ofNat ((t₀ + p) / 1000) := hr.ts
  have hread : Readable s.store r.second := by
    have hrun : s.store = (adcRecorder (.boot card c)).run
        (before ++ ((sampleFlow.run es).handed.map HandedRecord.second).map .write) := by
      rw [hstore, Machine.run_append, List.map_map]
      rfl
    rw [hrun]
    refine readable_of_written hc hflag ?_ (by simpa using hlap) (List.mem_map_of_mem hr.mem) ?_
    · refine List.pairwise_append.mpr ⟨hbefore, List.pairwise_map.mpr hlaid.ordered, ?_⟩
      intro r' hr' x hx
      obtain ⟨r'', hr'', rfl⟩ := List.mem_map.mp hx
      obtain ⟨m, hm, -, hts⟩ := hlaid.ended r'' hr''
      have hold := hearlier r' hr'
      rw [UInt32.lt_iff_toNat_lt, show r''.second.ts = _ from hts, UInt32.toNat_ofNat',
        Nat.mod_eq_of_lt (by omega)]
      omega
    · rw [hsecond, UInt32.lt_iff_toNat_lt, UInt32.toNat_ofNat', Nat.mod_eq_of_lt (by omega)]
      simp only [UInt32.toNat_zero]
      omega
  refine sends_map _ (fun _ => SampleDataPack.sealed_fram _) fun n hn => ?_
  rw [← hsecond] at harg
  have hload : AlarmDataRes.load (storageReadAdcData .ok s.store r.second.ts 0 gBuf 125).2.byte n =
      itemsFrom r.second.data.byte (50 * n) := Readable.packet hread gBuf hn
  rw [SampleDataPack.read_fram, harg, if_pos (hread gBuf).1, hload, hr.packet hn]

theorem handed_length_le (es : List SampleEvent) :
    100 * (sampleFlow.run es).handed.length ≤ (sampleFlow.run es).consumed := by
  induction es using List.reverseRecOn with
  | nil => exact Nat.le_refl 0
  | append_singleton es e ih =>
    rw [Machine.run_concat]
    cases e with
    | write lock item => exact ih
    | turn countLock readLock =>
      obtain ⟨new, hnew, -, hcons, -⟩ := (Flowing.run es).turn_handed countLock readLock
      show 100 * ((sampleFlow.run es).turn countLock readLock).handed.length ≤ _
      rw [hnew, List.length_append]
      exact Nat.le_trans (by omega) hcons

def secondRequest : SampleDataInRes := ⟨20, 0, 2⟩

/-- The stream begins half a batch before the second. -/
theorem recorder_delivers_shifted :
    Sends (ktSampleDataIn .ok
        ((recorder (.boot (fun _ => zeroBlock) .nextOn)).run (steadyRun 1950 11)).store
        (fun _ => zeroBlock) (memoryOf secondRequest.fram)) 20 SampleDataPack.read fun n =>
      ⟨20, 0 + .ofNat n, packetOf (samplesFrom 1950 1100) 50 n⟩ := by
  obtain ⟨hdel, hcons⟩ : _ ∧ _ := run_steadyRun 1950 (show 1950 + 100 * 11 ≤ 2 ^ 64 by decide)
  have hflow := (recorder_run (.boot (fun _ => zeroBlock) .nextOn) (steadyRun 1950 11)).1
  have hhanded := handed_length_le (steadyRun 1950 11)
  have hlength : (samplesFrom 1950 (100 * 11)).length = 1100 := by simp [samplesFrom]
  rw [← hflow] at hdel hcons hhanded
  generalize hs : (recorder (.boot (fun _ => zeroBlock) .nextOn)).run (steadyRun 1950 11) = s
    at hdel hcons hhanded ⊢
  have hbefore : (recorder ((adcRecorder (.boot (fun _ => zeroBlock) .nextOn)).run [])).run
      (steadyRun 1950 11) = s := hs
  have hlap : (writes []).length + s.flow.handed.length < 480000 := by
    simp only [writes, List.filterMap_nil, List.length_nil]
    omega
  have hreq : sampleDataInRes (memoryOf secondRequest.fram) = secondRequest :=
    SampleDataInRes.sampleDataInRes_fram fun _ _ => rfl
  have hts : (sampleDataInRes (memoryOf secondRequest.fram)).ulStrTs =
      UInt32.ofNat ((1950 + 50) / 1000) := by
    rw [hreq]
    rfl
  have hsends := recorder_delivers ConfigInfo.fresh_nextOn rfl (by decide) .nil
    (fun r hr => absurd hr List.not_mem_nil) hbefore
    (hdel ▸ contiguous_samplesFrom 1950 (by decide)) (by rw [hdel, hlength]; decide) hlap
    (by decide) (by rw [hcons]; decide) (fun _ => zeroBlock) hts
  rw [hreq, hdel] at hsends
  exact hsends

end Lsc100
