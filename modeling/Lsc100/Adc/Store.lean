import Lsc100.Basis.Bytes
import Lsc100.Config
import Lsc100.Emmc

/-! The sample store of `storage_manage.c`: data blocks below
`ADC_INDEX_START_BLOCK`, index blocks of 64 entries from there on, and a partly
filled index block in RAM. -/

namespace Lsc100

open Bytes

def adcIndexStartAddr : Nat := 0x7270E0000
def adcItemSize : Nat := 64
def adcItemNumPerBlock : Nat := emmcBlockSize / adcItemSize
def adcItemNumPerSecond : Nat := 1000
def adcItemBlockNum : Nat := adcItemNumPerSecond / adcItemNumPerBlock
def adcItemTotalNum : Nat := adcIndexStartAddr / emmcBlockSize / adcItemBlockNum
def adcIndexItemSize : Nat := 8
def adcIndexNumPreBlock : Nat := emmcBlockSize / adcIndexItemSize
def adcIndexBlockNum : Nat := adcItemTotalNum / adcIndexNumPreBlock
def adcIndexStartBlock : Nat := adcIndexStartAddr / emmcBlockSize

@[simp] theorem adcItemBlockNum_eq : adcItemBlockNum = 125 := rfl
@[simp] theorem adcItemTotalNum_eq : adcItemTotalNum = 480000 := rfl
@[simp] theorem adcIndexNumPreBlock_eq : adcIndexNumPreBlock = 64 := rfl
@[simp] theorem adcIndexBlockNum_eq : adcIndexBlockNum = 7500 := rfl
@[simp] theorem adcIndexStartBlock_eq : adcIndexStartBlock = 60000000 := rfl

structure AdcIndexItem where
  addr : UInt32
  timestamp : UInt32
  deriving DecidableEq, Repr

/-- The item as it lies in memory, both words little-endian. -/
def AdcIndexItem.byte (it : AdcIndexItem) (k : Nat) : UInt8 :=
  if k < 4 then byteOf it.addr.toNat k else byteOf it.timestamp.toNat (k - 4)

def AdcIndexItem.ofBytes (b : Nat → UInt8) : AdcIndexItem :=
  ⟨UInt32.ofNat (leNat 4 b), UInt32.ofNat (leNat 4 (fun k => b (k + 4)))⟩

/-- `(uint8_t *)&item_tables[0]`: 64 items as one block. -/
def Block.ofTable (t : Nat → AdcIndexItem) : Block := fun k => (t (k / 8)).byte (k % 8)

/-- The block read back through an `AdcIndexItem_t` pointer. -/
def Block.item (b : Block) (j : Nat) : AdcIndexItem :=
  .ofBytes (fun k => b (Fin.ofNat 512 (8 * j + k)))

/-- `g_item_tables[j]`: a run of index blocks as one table. -/
def Blocks.item (b : Blocks) (j : Nat) : AdcIndexItem := (b (j / 64)).item (j % 64)

@[simp] theorem AdcIndexItem.ofBytes_byte (it : AdcIndexItem) : .ofBytes it.byte = it := by
  have haddr : leNat 4 it.byte = it.addr.toNat := by
    rw [leNat_congr (c := byteOf it.addr.toNat) (fun i hi => by simp [byte, hi]), leNat_byteOf]
    exact Nat.mod_eq_of_lt it.addr.toNat_lt
  have hts : leNat 4 (fun k => it.byte (k + 4)) = it.timestamp.toNat := by
    rw [leNat_congr (c := byteOf it.timestamp.toNat) (fun i _ => by simp [byte]), leNat_byteOf]
    exact Nat.mod_eq_of_lt it.timestamp.toNat_lt
  simp [ofBytes, haddr, hts]

theorem Block.item_ofTable (t : Nat → AdcIndexItem) {j : Nat} (hj : j < 64) :
    (Block.ofTable t).item j = t j := by
  have hbyte : ∀ k < 8, Block.ofTable t (Fin.ofNat 512 (8 * j + k)) = (t j).byte k := by
    intro k hk
    have hval : (Fin.ofNat 512 (8 * j + k)).val = 8 * j + k := Nat.mod_eq_of_lt (by omega)
    simp only [Block.ofTable, hval]
    congr 2 <;> omega
  rw [Block.item, ← AdcIndexItem.ofBytes_byte (t j)]
  simp only [AdcIndexItem.ofBytes, AdcIndexItem.mk.injEq]
  exact ⟨congrArg _ (leNat_congr fun k hk => hbyte k (by omega)),
    congrArg _ (leNat_congr fun k hk => hbyte (k + 4) (by omega))⟩

structure AdcObject where
  strTime : UInt32
  endTime : UInt32
  addr : Nat
  indexAddr : Nat
  blockNum : Nat
  currBlock : Nat
  itemIndex : Nat
  itemTables : Nat → AdcIndexItem

/-- The globals the ADC storage functions work on, and the card. -/
structure AdcStore where
  adc : AdcObject
  emmc : Emmc
  config : ConfigInfo
  configStatus : Bool

/-- What the environment decides during one `Storage_Write_AdcData`: whether
the lock is obtained and how the three block operations end. -/
structure AdcWriteIo where
  lock : Bool
  data : BlockIo
  index : BlockIo
  reread : BlockIo

def AdcWriteIo.ok : AdcWriteIo := ⟨true, .ok, .ok, .ok⟩

/-- The write address after a record, back to block 0 at the index area. -/
def AdcObject.nextAddr (adc : AdcObject) (blockNum : Nat) : Nat :=
  if adcIndexStartBlock ≤ (adc.addr + blockNum) % 2 ^ 32 then 0
  else (adc.addr + blockNum) % 2 ^ 32

/-- `item_tables[item_index] = {addr, timestamp}` and the increment after it. -/
def AdcObject.putItem (adc : AdcObject) (addr : Nat) (timestamp : UInt32) : AdcObject :=
  { adc with
    itemTables := Function.update adc.itemTables adc.itemIndex ⟨UInt32.ofNat addr, timestamp⟩
    itemIndex := (adc.itemIndex + 1) % 256 }

/-- The index table when the start and end times are taken from it. On the
first block of a full ring it is first replaced by the next block on the card. -/
def AdcStore.timeTable (io : AdcWriteIo) (s : AdcStore) : Nat → AdcIndexItem :=
  if s.adc.currBlock = 0 ∧ s.adc.blockNum = adcIndexBlockNum then
    ((emmcReadBlocks io.reread s.emmc (fun _ => Block.ofTable s.adc.itemTables)
      (s.adc.indexAddr + 1) 1).1 0).item
  else s.adc.itemTables

/-- The object after a full index block has been written: all rings advance
together and wrap at the last index block. -/
def AdcObject.advance (adc : AdcObject) (table : Nat → AdcIndexItem) : AdcObject :=
  let adc := { adc with
    itemTables := table
    strTime := if adc.currBlock = 0 then (table 0).timestamp else adc.strTime
    endTime := (table (adcIndexNumPreBlock - 1)).timestamp
    itemIndex := 0
    indexAddr := (adc.indexAddr + 1) % 2 ^ 32
    blockNum := (adc.blockNum + 1) % 2 ^ 16
    currBlock := (adc.currBlock + 1) % 2 ^ 16 }
  if adcIndexBlockNum ≤ adc.currBlock then
    { adc with indexAddr := adcIndexStartBlock, currBlock := 0, blockNum := adcIndexBlockNum }
  else adc

theorem AdcObject.advance_fields (adc : AdcObject) (table : Nat → AdcIndexItem) :
    (adc.advance table).itemTables = table ∧ (adc.advance table).itemIndex = 0 ∧
      (adc.advance table).blockNum =
        if adcIndexBlockNum ≤ (adc.currBlock + 1) % 2 ^ 16 then adcIndexBlockNum
        else (adc.blockNum + 1) % 2 ^ 16 := by
  rw [AdcObject.advance]
  by_cases hwrap : adcIndexBlockNum ≤ (adc.currBlock + 1) % 2 ^ 16
  · simp only [if_pos hwrap, and_self]
  · simp only [if_neg hwrap, and_self]

/-- The RAM index block written to its place on the card. -/
def AdcStore.putIndex (io : AdcWriteIo) (s : AdcStore) : AdcStore :=
  { s with
    emmc := (emmcEraseWriteBlocks io.index s.emmc (fun _ => Block.ofTable s.adc.itemTables)
      s.adc.indexAddr 1).1 }

/-- The branch taken when the RAM index block is full. -/
def AdcStore.flushIndex (io : AdcWriteIo) (s : AdcStore) : AdcStore :=
  let s := s.putIndex io
  let adc := s.adc.advance (s.timeTable io)
  { s with
    adc := adc
    config := { s.config with
      blockNum := UInt16.ofNat adc.blockNum
      currBlock := UInt16.ofNat adc.currBlock
      strTime := adc.strTime
      endTime := adc.endTime }
    configStatus := true }

def storageWriteAdcData (io : AdcWriteIo) (s : AdcStore) (timestamp : UInt32) (data : Blocks)
    (blockNum : Nat) (flag : Bool) : AdcStore × Int :=
  if io.lock then
    let addr := s.adc.addr
    let s := { s with
      emmc := (emmcEraseWriteBlocks io.data s.emmc data addr blockNum).1
      adc := { s.adc with addr := s.adc.nextAddr blockNum } }
    if flag then
      let s := { s with adc := s.adc.putItem addr timestamp }
      if adcIndexNumPreBlock ≤ s.adc.itemIndex then (s.flushIndex io, 0) else (s, 0)
    else (s, 0)
  else (s, -1)

/-- What the environment decides during one `Storage_Read_AdcData`. -/
structure AdcReadIo where
  lock : Bool
  group : Nat → BlockIo
  data : BlockIo

def AdcReadIo.ok : AdcReadIo := ⟨true, fun _ => .ok, .ok⟩

/-- `item_tables[item_index - 1].timestamp`. With `item_index = 0` these are the
four bytes in front of the table: `item_index` itself and three bytes of padding
that the `memset` of `Adc_Object_Init` left zero. -/
def AdcObject.lastTimestamp (adc : AdcObject) : UInt32 :=
  if adc.itemIndex = 0 then UInt32.ofNat adc.itemIndex
  else (adc.itemTables (adc.itemIndex - 1)).timestamp

/-- The search loop over the index blocks, ten blocks at a time. -/
def scanIndex (io : AdcReadIo) (e : Emmc) (timestamp : UInt32) (blockNum num : Nat) :
    Option AdcIndexItem :=
  if num < blockNum then
    let step := if 10 < blockNum - num then 10 else blockNum - num
    -- only the blocks just read into g_item_tables are looked at
    let tables := (emmcReadBlocks (io.group num) e (fun _ => zeroBlock)
      (adcIndexStartBlock + num) step).1
    if timestamp ≤ (tables.item (adcIndexNumPreBlock * step - 1)).timestamp then
      ((List.range (adcIndexNumPreBlock * step)).find?
        (fun i => timestamp = (tables.item i).timestamp)).map tables.item
    else scanIndex io e timestamp blockNum (num + step)
  else none
termination_by blockNum - num
decreasing_by split <;> omega

/-- The index entry the search stops at: the RAM table when the timestamp lies
between its ends, the index blocks on the card otherwise. -/
def AdcStore.lookup (io : AdcReadIo) (s : AdcStore) (timestamp : UInt32) : Option AdcIndexItem :=
  if (s.adc.itemTables 0).timestamp ≤ timestamp ∧ timestamp ≤ s.adc.lastTimestamp then
    ((List.range s.adc.itemIndex).find?
      (fun i => timestamp = (s.adc.itemTables i).timestamp)).map s.adc.itemTables
  else scanIndex io s.emmc timestamp s.adc.blockNum 0

def storageReadAdcData (io : AdcReadIo) (s : AdcStore) (timestamp : UInt32) (blockOff : Nat)
    (data : Blocks) (blockNum : Nat) : Int × Blocks :=
  if io.lock then
    match s.lookup io timestamp with
    | some item =>
      (0, (emmcReadBlocks io.data s.emmc data ((item.addr.toNat + blockOff) % 2 ^ 32) blockNum).1)
    | none => (-1, data)
  else (-1, data)

/-- The RAM index table and `item_index` stay. -/
def storageClearAdcData (lock : Bool) (s : AdcStore) : AdcStore :=
  if lock then
    { s with
      adc := { s.adc with
        indexAddr := adcIndexStartBlock
        addr := 0
        endTime := 0
        strTime := 0
        blockNum := 0
        currBlock := 0 } }
  else s

/-- `Adc_Object_Init`, the mutex created. -/
def adcObjectInit (config : ConfigInfo) : AdcObject :=
  let object : AdcObject := ⟨0, 0, 0, 0, 0, 0, 0, fun _ => ⟨0, 0⟩⟩
  if config.flag = devFlagFirstOn then
    { object with indexAddr := adcIndexStartBlock, addr := 0 }
  else if config.flag = devFlagNextOn then
    { object with
      blockNum := config.blockNum.toNat
      currBlock := config.currBlock.toNat
      addr := config.currBlock.toNat * adcIndexNumPreBlock * adcItemBlockNum % 2 ^ 32
      indexAddr := (adcIndexStartBlock + config.currBlock.toNat) % 2 ^ 32
      endTime := config.endTime
      strTime := config.strTime }
  else object

end Lsc100
