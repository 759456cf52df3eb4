import Lsc100.Adc.Complete

/-! What `Storage_Write_AdcData` leaves when a block write fails, and when the record it has
written is found again. -/

namespace Lsc100

open Overlay

/-- The search of `Storage_Read_AdcData` on the card, told by what it comes across. -/
def StopsOnCard (e : Emmc) (blockNum : Nat) (item : AdcIndexItem) : Prop :=
  ∃ q k, GroupScan.StopsIn (diskKey e) item.timestamp.toNat (64 * blockNum) 640 0 q k ∧
    diskItem e k = item

/-- The search stops at `item`: with `index` entries in the table, among these when the
timestamp lies between their ends, and on the card otherwise. -/
def SearchStops (table : Nat → AdcIndexItem) (index : Nat) (e : Emmc) (blockNum : Nat)
    (item : AdcIndexItem) : Prop :=
  if (table 0).timestamp ≤ item.timestamp ∧
      item.timestamp ≤ if index = 0 then 0 else (table (index - 1)).timestamp then
    ∃ j < index, table j = item ∧ ∀ i < j, (table i).timestamp ≠ item.timestamp
  else StopsOnCard e blockNum item

theorem scanIndex_eq_some_iff {e : Emmc} {blockNum : Nat} {item : AdcIndexItem} :
    scanIndex .ok e item.timestamp blockNum 0 = some item ↔ StopsOnCard e blockNum item := by
  rw [scanIndex_ok, Option.map_eq_some_iff, StopsOnCard, exists_comm]
  simp only [Nat.mul_zero, GroupScan.scan_eq_some_iff, exists_and_right]

theorem lookup_eq_some_iff (s : AdcStore) (item : AdcIndexItem) :
    s.lookup .ok item.timestamp = some item ↔
      SearchStops s.adc.itemTables s.adc.itemIndex s.emmc s.adc.blockNum item := by
  have hlast : s.adc.lastTimestamp =
      if s.adc.itemIndex = 0 then 0 else (s.adc.itemTables (s.adc.itemIndex - 1)).timestamp := by
    rw [AdcObject.lastTimestamp]
    split
    · rename_i h
      rw [h]
      rfl
    · rfl
  rw [AdcStore.lookup, SearchStops, ← hlast]
  split
  · rw [Option.map_eq_some_iff]
    simp only [List.range_eq_range', List.find?_range'_eq_some, List.mem_range'_1]
    constructor
    · rintro ⟨j, ⟨-, ⟨-, hj⟩, hfirst⟩, rfl⟩
      refine ⟨j, by omega, rfl, fun i hi heq => ?_⟩
      simpa [heq] using hfirst i (Nat.zero_le i) hi
    · rintro ⟨j, hj, rfl, hfirst⟩
      refine ⟨j, ⟨decide_eq_true rfl, ⟨Nat.zero_le j, by omega⟩, fun i _ hi => ?_⟩, rfl⟩
      simpa using (hfirst i hi).symm
  · exact scanIndex_eq_some_iff

def AdcWriteIo.WriteFails (io : AdcWriteIo) (s : AdcStore) (data : Blocks) (blockNum : Nat)
    (flag : Bool) : Prop :=
  io.lock = true ∧
    ((emmcEraseWriteBlocks io.data s.emmc data s.adc.addr blockNum).2 = false ∨
      flag = true ∧ adcIndexNumPreBlock ≤ (s.adc.itemIndex + 1) % 256 ∧ io.index.isOk = false)

/-- The position of the next record and of the next index entry, in RAM and in `g_ConfigInfo`. -/
structure AdcStore.SameIndex (s s' : AdcStore) : Prop where
  addr : s'.adc.addr = s.adc.addr
  itemIndex : s'.adc.itemIndex = s.adc.itemIndex
  indexAddr : s'.adc.indexAddr = s.adc.indexAddr
  blockNum : s'.adc.blockNum = s.adc.blockNum
  currBlock : s'.adc.currBlock = s.adc.currBlock
  strTime : s'.adc.strTime = s.adc.strTime
  endTime : s'.adc.endTime = s.adc.endTime
  config : s'.config = s.config

/-- The index entry of a record written now. -/
def AdcStore.nextItem (s : AdcStore) (timestamp : UInt32) : AdcIndexItem :=
  ⟨UInt32.ofNat s.adc.addr, timestamp⟩

/-- A call that returns 0 has stored the blocks and they are found under the timestamp; a call
with a failed block write reports it and leaves the index as it was. -/
structure WriteTruthful (io : AdcWriteIo) (s : AdcStore) (timestamp : UInt32) (data : Blocks)
    (blockNum : Nat) (flag : Bool) : Prop where
  stored : (storageWriteAdcData io s timestamp data blockNum flag).2 = 0 →
    (∀ i < blockNum,
      (storageWriteAdcData io s timestamp data blockNum flag).1.emmc (s.adc.addr + i) = data i) ∧
    (storageWriteAdcData io s timestamp data blockNum flag).1.lookup .ok timestamp =
      some (s.nextItem timestamp)
  refused : io.WriteFails s data blockNum flag →
    (storageWriteAdcData io s timestamp data blockNum flag).2 ≠ 0 ∧
      s.SameIndex (storageWriteAdcData io s timestamp data blockNum flag).1

section Found

variable (io : AdcWriteIo) (s : AdcStore) (timestamp : UInt32) (data : Blocks) (blockNum : Nat)

/-- The index table with the entry of the record in its place. -/
def AdcStore.tableWith : Nat → AdcIndexItem :=
  Function.update s.adc.itemTables s.adc.itemIndex (s.nextItem timestamp)

def AdcStore.cardWith : Emmc :=
  (emmcEraseWriteBlocks .ok s.emmc data s.adc.addr blockNum).1

def AdcStore.cardWithIndex : Emmc :=
  (emmcEraseWriteBlocks .ok (s.cardWith data blockNum)
    (fun _ => Block.ofTable (s.tableWith timestamp)) s.adc.indexAddr 1).1

/-- The table to go on with: the next block of the card where the ring starts over. -/
def AdcStore.tableAfter : Nat → AdcIndexItem :=
  if s.adc.currBlock = 0 ∧ s.adc.blockNum = adcIndexBlockNum then
    ((emmcReadBlocks io.reread (s.cardWithIndex timestamp data blockNum)
      (fun _ => Block.ofTable (s.tableWith timestamp)) (s.adc.indexAddr + 1) 1).1 0).item
  else s.tableWith timestamp

/-- The index blocks searched when one more has been written. -/
def AdcStore.blocksAfter : Nat :=
  if adcIndexBlockNum ≤ (s.adc.currBlock + 1) % 2 ^ 16 then adcIndexBlockNum
  else (s.adc.blockNum + 1) % 2 ^ 16

/-- The search for the record stops at its entry, and the index block has not been written over
the data. -/
def AdcStore.Findable (flag : Bool) : Prop :=
  if flag then
    if adcIndexNumPreBlock ≤ (s.adc.itemIndex + 1) % 256 then
      (∀ i < blockNum, s.adc.addr + i = s.adc.indexAddr →
        data i = Block.ofTable (s.tableWith timestamp)) ∧
      SearchStops (s.tableAfter io timestamp data blockNum) 0
        (s.cardWithIndex timestamp data blockNum) s.blocksAfter (s.nextItem timestamp)
    else
      SearchStops (s.tableWith timestamp) ((s.adc.itemIndex + 1) % 256) (s.cardWith data blockNum)
        s.adc.blockNum (s.nextItem timestamp)
  else
    SearchStops s.adc.itemTables s.adc.itemIndex (s.cardWith data blockNum) s.adc.blockNum
      (s.nextItem timestamp)

end Found

section Iff

variable {io : AdcWriteIo} {s : AdcStore} {timestamp : UInt32} {data : Blocks} {blockNum : Nat}
  {flag : Bool}

theorem emmcEraseWriteBlocks_of_true {io : BlockIo} {e : Emmc} {d : Blocks} {a n : Nat}
    (h : (emmcEraseWriteBlocks io e d a n).2 ≠ false) :
    (emmcEraseWriteBlocks io e d a n).1 = (emmcEraseWriteBlocks .ok e d a n).1 := by
  cases io with
  | ok => rfl
  | failed junk =>
    by_cases hn : n = 0
    · rw [emmcEraseWriteBlocks, emmcEraseWriteBlocks, if_neg (not_not.mpr hn),
        if_neg (not_not.mpr hn)]
    · rw [emmcEraseWriteBlocks, if_pos hn] at h
      exact absurd rfl h

theorem cardWith_data (i : Nat) (hi : i < blockNum) :
    s.cardWith data blockNum (s.adc.addr + i) = data i := by
  rw [AdcStore.cardWith, emmcEraseWriteBlocks_ok_in _ _ (Nat.le_add_right _ _) (by omega),
    Nat.add_sub_cancel_left]

theorem cardWithIndex_data_iff :
    (∀ i < blockNum, s.cardWithIndex timestamp data blockNum (s.adc.addr + i) = data i) ↔
      ∀ i < blockNum, s.adc.addr + i = s.adc.indexAddr →
        data i = Block.ofTable (s.tableWith timestamp) := by
  refine forall_congr' fun i => imp_congr_right fun hi => ?_
  by_cases heq : s.adc.addr + i = s.adc.indexAddr
  · rw [AdcStore.cardWithIndex, emmcEraseWriteBlocks_ok_in _ _ (by omega) (by omega)]
    constructor
    · intro h _
      exact h.symm
    · intro h
      exact (h heq).symm
  · rw [AdcStore.cardWithIndex, emmcEraseWriteBlocks_ok_out _ _ (by omega), cardWith_data i hi]
    exact iff_of_true rfl fun h => absurd h heq

theorem storageWriteAdcData_ret (hlock : io.lock = true) :
    (storageWriteAdcData io s timestamp data blockNum flag).2 = 0 := by
  simp only [storageWriteAdcData, hlock, if_true]
  split
  · split <;> rfl
  · rfl

def AdcStore.withItem (s : AdcStore) (timestamp : UInt32) (data : Blocks) (blockNum : Nat) :
    AdcStore :=
  { s with
    emmc := s.cardWith data blockNum
    adc := { s.adc with addr := s.adc.nextAddr blockNum }.putItem s.adc.addr timestamp }

theorem storageWriteAdcData_noFlag (hlock : io.lock = true)
    (hok : ¬ io.WriteFails s data blockNum false) :
    (storageWriteAdcData io s timestamp data blockNum false).1 =
      { s with
        emmc := s.cardWith data blockNum
        adc := { s.adc with addr := s.adc.nextAddr blockNum } } := by
  have hdata := emmcEraseWriteBlocks_of_true fun h => hok ⟨hlock, .inl h⟩
  rw [AdcStore.cardWith, ← hdata]
  simp only [storageWriteAdcData, hlock, if_true, Bool.false_eq_true, if_false]

theorem storageWriteAdcData_room (hlock : io.lock = true)
    (hok : ¬ io.WriteFails s data blockNum true)
    (hroom : ¬ adcIndexNumPreBlock ≤ (s.adc.itemIndex + 1) % 256) :
    (storageWriteAdcData io s timestamp data blockNum true).1 =
      s.withItem timestamp data blockNum := by
  have hdata := emmcEraseWriteBlocks_of_true fun h => hok ⟨hlock, .inl h⟩
  rw [AdcStore.withItem, AdcStore.cardWith, ← hdata]
  simp only [storageWriteAdcData, hlock, if_true]
  rw [if_neg]
  exact hroom

theorem storageWriteAdcData_full (hlock : io.lock = true)
    (hok : ¬ io.WriteFails s data blockNum true)
    (hfull : adcIndexNumPreBlock ≤ (s.adc.itemIndex + 1) % 256) :
    (storageWriteAdcData io s timestamp data blockNum true).1 =
      (s.withItem timestamp data blockNum).flushIndex io := by
  have hdata := emmcEraseWriteBlocks_of_true fun h => hok ⟨hlock, .inl h⟩
  rw [AdcStore.withItem, AdcStore.cardWith, ← hdata]
  simp only [storageWriteAdcData, hlock, if_true]
  rw [if_pos]
  exact hfull

theorem flushIndex_withItem (s : AdcStore) (timestamp : UInt32) (data : Blocks)
    (blockNum : Nat) (hindex : io.index.isOk = true) :
    ((s.withItem timestamp data blockNum).flushIndex io).emmc =
        s.cardWithIndex timestamp data blockNum ∧
      ((s.withItem timestamp data blockNum).flushIndex io).adc.itemTables =
        s.tableAfter io timestamp data blockNum ∧
      ((s.withItem timestamp data blockNum).flushIndex io).adc.itemIndex = 0 ∧
      ((s.withItem timestamp data blockNum).flushIndex io).adc.blockNum = s.blocksAfter := by
  have hok : io.index = .ok := by
    cases hio : io.index with
    | ok => rfl
    | failed junk => simp [hio, BlockIo.isOk] at hindex
  have hemmc : ((s.withItem timestamp data blockNum).putIndex io).emmc =
      s.cardWithIndex timestamp data blockNum := by
    rw [AdcStore.putIndex, hok]
    rfl
  have htable : ((s.withItem timestamp data blockNum).putIndex io).timeTable io =
      s.tableAfter io timestamp data blockNum := by
    rw [AdcStore.timeTable, hemmc]
    rfl
  refine ⟨hemmc, ?_, ?_, ?_⟩
  · rw [flushIndex_adc, htable]
    exact (AdcObject.advance_fields _ _).1
  · exact (AdcObject.advance_fields _ _).2.1
  · exact (AdcObject.advance_fields _ _).2.2

/-- With the lock and no failed block write the record is stored and found where `Findable`
says so. -/
theorem stored_iff (hlock : io.lock = true) (hok : ¬ io.WriteFails s data blockNum flag) :
    ((∀ i < blockNum,
      (storageWriteAdcData io s timestamp data blockNum flag).1.emmc (s.adc.addr + i) = data i) ∧
    (storageWriteAdcData io s timestamp data blockNum flag).1.lookup .ok timestamp =
      some (s.nextItem timestamp)) ↔ s.Findable io timestamp data blockNum flag := by
  have hlookup : ∀ s' : AdcStore, s'.lookup .ok timestamp = some (s.nextItem timestamp) ↔
      SearchStops s'.adc.itemTables s'.adc.itemIndex s'.emmc s'.adc.blockNum
        (s.nextItem timestamp) := fun s' => lookup_eq_some_iff s' (s.nextItem timestamp)
  rw [hlookup]
  cases flag with
  | false =>
    rw [storageWriteAdcData_noFlag hlock hok]
    exact and_iff_right cardWith_data
  | true =>
    rw [AdcStore.Findable, if_pos rfl]
    by_cases hfull : adcIndexNumPreBlock ≤ (s.adc.itemIndex + 1) % 256
    · have hindex : io.index.isOk = true := by
        by_contra hfalse
        exact hok ⟨hlock, .inr ⟨rfl, hfull, Bool.eq_false_of_not_eq_true hfalse⟩⟩
      obtain ⟨hemmc, htable, hitem, hblocks⟩ :=
        flushIndex_withItem s timestamp data blockNum hindex
      rw [storageWriteAdcData_full hlock hok hfull, hemmc, htable, hitem, hblocks, if_pos hfull,
        cardWithIndex_data_iff]
    · rw [storageWriteAdcData_room hlock hok hfull, if_neg hfull]
      exact and_iff_right cardWith_data

/-- With the lock the code always returns 0. -/
theorem writeTruthful_locked_iff (hlock : io.lock = true) :
    WriteTruthful io s timestamp data blockNum flag ↔
      ¬ io.WriteFails s data blockNum flag ∧ s.Findable io timestamp data blockNum flag := by
  have hret : (storageWriteAdcData io s timestamp data blockNum flag).2 = 0 :=
    storageWriteAdcData_ret hlock
  constructor
  · intro h
    have hok : ¬ io.WriteFails s data blockNum flag := fun hfails => (h.refused hfails).1 hret
    exact ⟨hok, (stored_iff hlock hok).mp (h.stored hret)⟩
  · rintro ⟨hok, hfound⟩
    exact ⟨fun _ => (stored_iff hlock hok).mpr hfound, fun hfails => absurd hfails hok⟩

theorem writeTruthful_of_not_locked (hlock : io.lock = false) :
    WriteTruthful io s timestamp data blockNum flag := by
  have hret : (storageWriteAdcData io s timestamp data blockNum flag).2 = -1 := by
    simp only [storageWriteAdcData, hlock]
    rfl
  refine ⟨fun h => ?_, fun h => ?_⟩
  · exact absurd (hret.symm.trans h) (by decide)
  · exact absurd (hlock.symm.trans h.1) Bool.false_ne_true

/-- What a truthful call has stored is what a read of its timestamp delivers. -/
theorem WriteTruthful.read (h : WriteTruthful io s timestamp data blockNum flag)
    (haddr : s.adc.addr < 2 ^ 32)
    (hret : (storageWriteAdcData io s timestamp data blockNum flag).2 = 0) (buf : Blocks) :
    (storageReadAdcData .ok (storageWriteAdcData io s timestamp data blockNum flag).1 timestamp 0
        buf blockNum).1 = 0 ∧
      ∀ i < blockNum, (storageReadAdcData .ok
        (storageWriteAdcData io s timestamp data blockNum flag).1 timestamp 0 buf blockNum).2 i =
          data i := by
  obtain ⟨hdata, hfound⟩ := h.stored hret
  have hitem : ((s.nextItem timestamp).addr.toNat + 0) % 2 ^ 32 = s.adc.addr := by
    rw [AdcStore.nextItem, UInt32.toNat_ofNat', Nat.add_zero, Nat.mod_mod, Nat.mod_eq_of_lt haddr]
  simp only [storageReadAdcData, AdcReadIo.ok, if_true] at hfound ⊢
  rw [hfound]
  refine ⟨rfl, fun i hi => ?_⟩
  simp only [hitem]
  rw [emmcReadBlocks_ok _ _ hi, hdata i hi]

end Iff

section Log

variable {rest : Emmc} {s : AdcStore} {l : AdcLog} {ts : UInt32} {data : Blocks}

theorem AdcLog.Ordered.write (h : l.Ordered) (hnew : ∀ m < l.length, (l.slot m).ts < ts) :
    (l.write ⟨ts, data⟩).Ordered :=
  AdcLog.write_pairs (R := fun r r' => r.ts < r'.ts) h hnew

theorem searchStops_zero {table : Nat → AdcIndexItem} {e : Emmc} {n : Nat} {item : AdcIndexItem}
    (hpos : 0 < item.timestamp) : SearchStops table 0 e n item ↔ StopsOnCard e n item := by
  rw [SearchStops, if_neg]
  rintro ⟨-, hle⟩
  exact absurd hpos (UInt32.not_lt.mpr hle)

/-- How the read of the next index block ends does not matter. -/
theorem findable_reread (io : AdcWriteIo) (hpos : 0 < ts) :
    s.Findable io ts data 125 true ↔ s.Findable .ok ts data 125 true := by
  have hitem : 0 < (s.nextItem ts).timestamp := hpos
  simp only [AdcStore.Findable, searchStops_zero hitem]

theorem Represents.nextItem_eq (h : Represents rest s l) (data : Blocks) :
    s.nextItem ts = (l.write ⟨ts, data⟩).item l.length := by
  rw [AdcStore.nextItem, h.addr, AdcLog.item, l.write_slot, Function.update_self]
  rfl

theorem Represents.write_stored (h : Represents rest s l) (i : Nat) (hi : i < 125) :
    (storageWriteAdcData .ok s ts data 125 true).1.emmc (s.adc.addr + i) = data i := by
  have hlast : l.length < 64 * (l.write ⟨ts, data⟩).flushed + (l.write ⟨ts, data⟩).torn := by
    have hlength := l.write_length ⟨ts, data⟩
    have hle := (l.write ⟨ts, data⟩).fresh_le_torn
    rw [AdcLog.length] at hlength
    omega
  have htorn := (l.write ⟨ts, data⟩).torn_lt
  have hlength := l.write_length ⟨ts, data⟩
  have hstored := (h.write ts data).data l.length hlast
    (by rw [adcItemTotalNum_eq]; rw [AdcLog.length] at hlength; omega) i hi
  rw [h.addr, hstored, l.write_slot, Function.update_self]

/-- In a store that holds a log, the newest record is found unless it has filled an index block
of a later lap that is not the last one of its group. -/
theorem Represents.findable_iff (h : Represents rest s l) (hord : l.Ordered) (hrest : Erased rest)
    (hnew : ∀ m < l.length, (l.slot m).ts < ts) (hpos : 0 < ts) (io : AdcWriteIo) :
    s.Findable io ts data 125 true ↔
      l.fresh + 1 < 64 ∨ l.flushed < 7500 ∨ (l.flushed + 1) % 7500 % 10 = 0 := by
  have hok : ¬ AdcWriteIo.ok.WriteFails s data 125 true := by
    rintro ⟨-, hfalse | ⟨-, -, hfalse⟩⟩
    · exact absurd hfalse.symm Bool.false_ne_true
    · exact absurd hfalse.symm Bool.false_ne_true
  rw [findable_reread io hpos, ← stored_iff rfl hok, and_iff_right h.write_stored,
    h.nextItem_eq data]
  have h' := h.write ts data
  have hord' : (l.write ⟨ts, data⟩).Ordered := hord.write hnew
  have hts : ((l.write ⟨ts, data⟩).slot l.length).ts = ts := by
    rw [l.write_slot, Function.update_self]
  have hle := l.fresh_le_torn
  have htorn := l.torn_lt
  have hlength : l.length = 64 * l.flushed + l.fresh := rfl
  generalize (storageWriteAdcData .ok s ts data 125 true).1 = s' at h'
  by_cases hroom : l.fresh + 1 < 64
  · obtain ⟨hflushed, hfresh, -⟩ := AdcLog.write_room ⟨ts, data⟩ hroom
    have hfound := h'.lookup_ram hord' (i := l.fresh) (by omega)
    rw [hflushed, ← hlength, hts] at hfound
    exact iff_of_true hfound (.inl hroom)
  · obtain ⟨hflushed, -, -⟩ := AdcLog.write_full ⟨ts, data⟩ (l := l) (by omega)
    have hlast : l.length = 64 * (l.write ⟨ts, data⟩).flushed - 1 := by omega
    generalize l.write ⟨ts, data⟩ = l' at *
    rw [← hts, hlast] at hpos ⊢
    rw [h'.lookup_newest_iff hord' hrest (by omega) hpos, hflushed, or_iff_right hroom]
    omega

/-- On such a store that is in the first lap of the index blocks, and in later laps but for the
records that fill an index block. -/
theorem Represents.writeTruthful_iff_lap (h : Represents rest s l) (hord : l.Ordered)
    (hrest : Erased rest) (hnew : ∀ m < l.length, (l.slot m).ts < ts) (hpos : 0 < ts)
    (io : AdcWriteIo) (hlock : io.lock = true) :
    WriteTruthful io s ts data 125 true ↔ ¬ io.WriteFails s data 125 true ∧
      (l.fresh + 1 < 64 ∨ l.flushed < 7500 ∨ (l.flushed + 1) % 7500 % 10 = 0) := by
  rw [writeTruthful_locked_iff hlock, h.findable_iff hord hrest hnew hpos]

end Log

/-- In every state a call with the lock is truthful exactly where no block write fails and the
search for the record comes to its entry. -/
theorem writeTruthful_iff (io : AdcWriteIo) (s : AdcStore) (timestamp : UInt32) (data : Blocks)
    (blockNum : Nat) (flag : Bool) :
    WriteTruthful io s timestamp data blockNum flag ↔
      io.lock = false ∨ ¬ io.WriteFails s data blockNum flag ∧
        s.Findable io timestamp data blockNum flag := by
  cases hlock : io.lock with
  | false => exact iff_of_true (writeTruthful_of_not_locked hlock) (.inl rfl)
  | true =>
    rw [writeTruthful_locked_iff hlock]
    simp

/-- A data write that fails, and an index write that fails with the 64th entry. -/
theorem storageWriteAdcData_not_truthful :
    ¬ WriteTruthful ⟨true, .failed fun _ => zeroBlock, .ok, .ok⟩
        (.boot (fun _ => zeroBlock) .firstOn) 5 (fun _ _ => 1) 125 true ∧
      ¬ WriteTruthful ⟨true, .ok, .failed fun _ => zeroBlock, .ok⟩
        { AdcStore.boot (fun _ => zeroBlock) .firstOn with
          adc := { adcObjectInit .firstOn with itemIndex := 63 } } 5 (fun _ _ => 1) 125 true := by
  constructor
  · intro h
    exact (h.refused ⟨rfl, .inl rfl⟩).1 (storageWriteAdcData_ret rfl)
  · intro h
    exact (h.refused ⟨rfl, .inr ⟨rfl, by decide, rfl⟩⟩).1 (storageWriteAdcData_ret rfl)

end Lsc100
