import Lsc100.Basis.Cyclic
import Lsc100.Adc.Store

/-! The log the sample store implements. Positions are counted without wrap;
position `m` lives in data slot `m mod 480000` and its index entry in index
block `m / 64 mod 7500`. A reboot forgets the entries not yet in an index block,
but their data slots stay overwritten. -/

namespace Lsc100

open Overlay

structure SecondRecord where
  ts : UInt32
  data : Blocks

/-- `slot m` is the last record written at position `m`. The first `64 * flushed`
positions are described by index blocks on the card, the next `fresh` by the
table in RAM, and `torn` data slots have been written since the last flush. -/
structure AdcLog where
  slot : Nat → SecondRecord
  flushed : Nat
  fresh : Nat
  torn : Nat
  fresh_le_torn : fresh ≤ torn
  torn_lt : torn < 64

namespace AdcLog

def length (l : AdcLog) : Nat := 64 * l.flushed + l.fresh

def item (l : AdcLog) (m : Nat) : AdcIndexItem :=
  ⟨UInt32.ofNat (125 * (m % 480000)), (l.slot m).ts⟩

def empty : AdcLog := ⟨fun _ => ⟨0, fun _ => zeroBlock⟩, 0, 0, 0, Nat.le_refl 0, by decide⟩

def write (l : AdcLog) (r : SecondRecord) : AdcLog :=
  if h : l.fresh + 1 < 64 then
    { slot := Function.update l.slot l.length r
      flushed := l.flushed
      fresh := l.fresh + 1
      torn := max l.torn (l.fresh + 1)
      fresh_le_torn := Nat.le_max_right _ _
      torn_lt := Nat.max_lt.mpr ⟨l.torn_lt, h⟩ }
  else
    { slot := Function.update l.slot l.length r
      flushed := l.flushed + 1
      fresh := 0
      torn := 0
      fresh_le_torn := Nat.le_refl 0
      torn_lt := by decide }

def reboot (l : AdcLog) : AdcLog := { l with fresh := 0, fresh_le_torn := Nat.zero_le _ }

/-- `block_num` after `q` flushes: it goes on counting from a full ring. -/
def indexBlocks (q : Nat) : Nat := if q < 7500 then q else 7500 + q % 7500

theorem write_slot (l : AdcLog) (r : SecondRecord) :
    (l.write r).slot = Function.update l.slot l.length r := by
  unfold write
  split <;> rfl

theorem write_room {l : AdcLog} (r : SecondRecord) (h : l.fresh + 1 < 64) :
    (l.write r).flushed = l.flushed ∧ (l.write r).fresh = l.fresh + 1 ∧
      (l.write r).torn = max l.torn (l.fresh + 1) := by
  simp only [write, h, dif_pos, and_self]

theorem write_full {l : AdcLog} (r : SecondRecord) (h : l.fresh + 1 = 64) :
    (l.write r).flushed = l.flushed + 1 ∧ (l.write r).fresh = 0 ∧ (l.write r).torn = 0 := by
  simp only [write, h, Nat.lt_irrefl, dif_neg, not_false_iff, and_self]

theorem write_length (l : AdcLog) (r : SecondRecord) : (l.write r).length = l.length + 1 := by
  have := l.fresh_le_torn
  have := l.torn_lt
  unfold write
  split <;> simp only [length] <;> omega

/-- What holds of an earlier and a later record goes on to hold if the new record is a later one of
all. -/
theorem write_pairs {l : AdcLog} {r : SecondRecord} {R : SecondRecord → SecondRecord → Prop}
    (hold : ∀ i j, i < j → j < l.length → R (l.slot i) (l.slot j))
    (hnew : ∀ m < l.length, R (l.slot m) r) :
    ∀ i j, i < j → j < (l.write r).length → R ((l.write r).slot i) ((l.write r).slot j) := by
  intro i j hij hj
  rw [write_length] at hj
  rw [write_slot, Function.update_of_ne (by omega)]
  rcases Nat.lt_or_eq_of_le (Nat.le_of_lt_succ hj) with hlt | rfl
  · rw [Function.update_of_ne (by omega)]
    exact hold i j hij hlt
  · rw [Function.update_self]
    exact hnew i hij

end AdcLog

/-- The store holds the log `l`, and `rest` past the index area. -/
structure Represents (rest : Emmc) (s : AdcStore) (l : AdcLog) : Prop where
  itemIndex : s.adc.itemIndex = l.fresh
  currBlock : s.adc.currBlock = l.flushed % adcIndexBlockNum
  indexAddr : s.adc.indexAddr = adcIndexStartBlock + l.flushed % adcIndexBlockNum
  blockNum : s.adc.blockNum = AdcLog.indexBlocks l.flushed
  addr : s.adc.addr = 125 * (l.length % adcItemTotalNum)
  table : ∀ i < l.fresh, s.adc.itemTables i = l.item (64 * l.flushed + i)
  index : ∀ f < l.flushed, l.flushed ≤ f + adcIndexBlockNum → ∀ j < 64,
    (s.emmc (adcIndexStartBlock + f % adcIndexBlockNum)).item j = l.item (64 * f + j)
  data : ∀ m < 64 * l.flushed + l.torn, 64 * l.flushed + l.torn ≤ m + adcItemTotalNum →
    ∀ i < 125, s.emmc (125 * (m % adcItemTotalNum) + i) = (l.slot m).data i
  past : ∀ b, adcIndexStartBlock + adcIndexBlockNum ≤ b → s.emmc b = rest b

/-- The counters a reboot starts from are those of the last index flush. -/
structure Persisted (c : ConfigInfo) (l : AdcLog) : Prop where
  flag : c.flag = devFlagNextOn
  blockNum : c.blockNum.toNat = AdcLog.indexBlocks l.flushed
  currBlock : c.currBlock.toNat = l.flushed % adcIndexBlockNum

def AdcStore.putRecord (s : AdcStore) (timestamp : UInt32) (data : Blocks) : AdcStore :=
  { s with
    emmc := (emmcEraseWriteBlocks .ok s.emmc data s.adc.addr 125).1
    adc := { s.adc with addr := s.adc.nextAddr 125 }.putItem s.adc.addr timestamp }

@[simp] theorem putRecord_emmc (s : AdcStore) (ts : UInt32) (d : Blocks) :
    (s.putRecord ts d).emmc = (emmcEraseWriteBlocks .ok s.emmc d s.adc.addr 125).1 := rfl

@[simp] theorem putRecord_config (s : AdcStore) (ts : UInt32) (d : Blocks) :
    (s.putRecord ts d).config = s.config := rfl

@[simp] theorem putRecord_adc (s : AdcStore) (ts : UInt32) (d : Blocks) :
    (s.putRecord ts d).adc = { s.adc with
      addr := s.adc.nextAddr 125
      itemTables := Function.update s.adc.itemTables s.adc.itemIndex
        ⟨UInt32.ofNat s.adc.addr, ts⟩
      itemIndex := (s.adc.itemIndex + 1) % 256 } := rfl

@[simp] theorem flushIndex_adc (io : AdcWriteIo) (s : AdcStore) :
    (s.flushIndex io).adc = s.adc.advance ((s.putIndex io).timeTable io) := rfl

theorem flushIndex_config (io : AdcWriteIo) (s : AdcStore) :
    (s.flushIndex io).config = { s.config with
      blockNum := UInt16.ofNat (s.flushIndex io).adc.blockNum
      currBlock := UInt16.ofNat (s.flushIndex io).adc.currBlock
      strTime := (s.flushIndex io).adc.strTime
      endTime := (s.flushIndex io).adc.endTime } := rfl

theorem flushIndex_emmc (s : AdcStore) :
    (s.flushIndex .ok).emmc = (emmcEraseWriteBlocks .ok s.emmc
      (fun _ => Block.ofTable s.adc.itemTables) s.adc.indexAddr 1).1 := rfl

theorem flushIndex_emmc_self (s : AdcStore) :
    (s.flushIndex .ok).emmc s.adc.indexAddr = Block.ofTable s.adc.itemTables := by
  rw [flushIndex_emmc, emmcEraseWriteBlocks_ok_in _ _ (Nat.le_refl _) (Nat.lt_succ_self _)]

theorem flushIndex_emmc_of_ne (s : AdcStore) {b : Nat} (hb : b ≠ s.adc.indexAddr) :
    (s.flushIndex .ok).emmc b = s.emmc b := by
  rw [flushIndex_emmc, emmcEraseWriteBlocks_ok_out _ _ (by omega)]

theorem storageWriteAdcData_ok (s : AdcStore) (ts : UInt32) (d : Blocks) :
    storageWriteAdcData .ok s ts d 125 true =
      (if adcIndexNumPreBlock ≤ (s.adc.itemIndex + 1) % 256 then
        (s.putRecord ts d).flushIndex .ok else s.putRecord ts d, 0) := by
  simp only [storageWriteAdcData, AdcWriteIo.ok, if_true]
  by_cases h : adcIndexNumPreBlock ≤ (s.adc.itemIndex + 1) % 256
  · rw [if_pos h]
    exact if_pos h
  · rw [if_neg h]
    exact if_neg h

namespace Represents

variable {rest : Emmc} {s : AdcStore} {l : AdcLog}

theorem addr_lt (h : Represents rest s l) : s.adc.addr + 125 ≤ adcIndexStartBlock := by
  rw [h.addr]
  simp only [adcItemTotalNum_eq, adcIndexStartBlock_eq]
  omega

theorem nextAddr (h : Represents rest s l) :
    s.adc.nextAddr 125 = 125 * ((l.length + 1) % adcItemTotalNum) := by
  have hstep := Cyclic.succ_mod_cases l.length (n := 480000) (by decide)
  simp only [AdcObject.nextAddr, h.addr, adcItemTotalNum_eq, adcIndexStartBlock_eq]
  rw [Nat.mod_eq_of_lt (by omega)]
  split <;> omega

/-- The record is in its slot, and every slot still described is untouched. -/
theorem putRecord_data (h : Represents rest s l) (ts : UInt32) (d : Blocks) {m i : Nat}
    (hm : m < 64 * l.flushed + max l.torn (l.fresh + 1))
    (hm' : 64 * l.flushed + max l.torn (l.fresh + 1) ≤ m + adcItemTotalNum) (hi : i < 125) :
    (s.putRecord ts d).emmc (125 * (m % adcItemTotalNum) + i) =
      (Function.update l.slot l.length ⟨ts, d⟩ m).data i := by
  have hle := l.fresh_le_torn
  simp only [adcItemTotalNum_eq] at hm' ⊢
  by_cases he : m = l.length
  · subst he
    have haddr := h.addr
    rw [adcItemTotalNum_eq] at haddr
    simp only [putRecord_emmc, haddr, Function.update_self]
    rw [emmcEraseWriteBlocks_ok_in _ _ (by omega) (by omega)]
    congr 1
    omega
  · have hold : m < 64 * l.flushed + l.torn := by simp only [AdcLog.length] at he; omega
    have hkeep := h.data m hold (by rw [adcItemTotalNum_eq]; omega) i hi
    rw [adcItemTotalNum_eq] at hkeep
    rw [Function.update_of_ne he, ← hkeep, putRecord_emmc]
    have haddr := h.addr
    rw [adcItemTotalNum_eq] at haddr
    have hne : m % 480000 ≠ l.length % 480000 := by
      simp only [AdcLog.length] at he ⊢
      rcases Nat.lt_or_gt_of_ne he with hlt | hgt
      · exact Cyclic.mod_ne_of_lt hlt (by omega)
      · exact (Cyclic.mod_ne_of_lt hgt (by have := l.torn_lt; omega)).symm
    rw [emmcEraseWriteBlocks_ok_out _ _ (by omega)]

theorem putRecord_index (h : Represents rest s l) (ts : UInt32) (d : Blocks) {b : Nat}
    (hb : adcIndexStartBlock ≤ b) : (s.putRecord ts d).emmc b = s.emmc b := by
  have := h.addr_lt
  rw [putRecord_emmc, emmcEraseWriteBlocks_ok_out _ _ (by omega)]

theorem putRecord_table (h : Represents rest s l) (ts : UInt32) (d : Blocks) {i : Nat}
    (hi : i ≤ l.fresh) : (s.putRecord ts d).adc.itemTables i =
      ⟨UInt32.ofNat (125 * ((64 * l.flushed + i) % 480000)),
        (Function.update l.slot l.length ⟨ts, d⟩ (64 * l.flushed + i)).ts⟩ := by
  simp only [putRecord_adc, h.itemIndex]
  rcases Nat.lt_or_eq_of_le hi with hlt | rfl
  · have hne : 64 * l.flushed + i ≠ l.length := by simp only [AdcLog.length]; omega
    rw [Function.update_of_ne (by omega), Function.update_of_ne hne, h.table i hlt, AdcLog.item]
  · rw [Function.update_self, h.addr]
    simp [AdcLog.length]

theorem indexBlocks_succ (q : Nat) :
    AdcLog.indexBlocks (q + 1) =
      if q % 7500 + 1 < 7500 then AdcLog.indexBlocks q + 1 else 7500 := by
  have hstep := Cyclic.succ_mod_cases q (n := 7500) (by decide)
  simp only [AdcLog.indexBlocks]
  rcases hstep with ⟨hlt, heq⟩ | ⟨hlast, heq⟩
  · rw [if_pos hlt, heq]
    by_cases hq : q < 7500
    · rw [Nat.mod_eq_of_lt hq] at hlt
      rw [if_pos hq, if_pos hlt]
    · rw [if_neg hq, if_neg (by omega)]
      omega
  · have hq : ¬ q + 1 < 7500 := by
      intro hq
      rw [Nat.mod_eq_of_lt (by omega : q < 7500)] at hlast
      omega
    rw [heq, if_neg hq, if_neg (by omega)]

theorem indexBlocks_lt (q : Nat) : AdcLog.indexBlocks q < 15000 := by
  have := Nat.mod_lt q (by decide : 0 < 7500)
  unfold AdcLog.indexBlocks
  split <;> omega

/-- The counters after a flush are those of one more index block. -/
theorem advance_counters (h : Represents rest s l) (adc : AdcObject)
    (hcurr : adc.currBlock = s.adc.currBlock) (hblock : adc.blockNum = s.adc.blockNum)
    (hindex : adc.indexAddr = s.adc.indexAddr) (t : Nat → AdcIndexItem) :
    (adc.advance t).currBlock = (l.flushed + 1) % adcIndexBlockNum ∧
      (adc.advance t).indexAddr = adcIndexStartBlock + (l.flushed + 1) % adcIndexBlockNum ∧
      (adc.advance t).blockNum = AdcLog.indexBlocks (l.flushed + 1) ∧
      (adc.advance t).itemIndex = 0 ∧ (adc.advance t).addr = adc.addr := by
  have hc := hcurr.trans h.currBlock
  have hb := hblock.trans h.blockNum
  have hi := hindex.trans h.indexAddr
  have hstep := Cyclic.succ_mod_cases l.flushed (n := 7500) (by decide)
  have hlt := indexBlocks_lt l.flushed
  simp only [adcIndexBlockNum_eq, adcIndexStartBlock_eq] at hc hb hi ⊢
  simp only [AdcObject.advance, hc, hb, hi, adcIndexBlockNum_eq, adcIndexStartBlock_eq]
  rw [Nat.mod_eq_of_lt (by omega : l.flushed % 7500 + 1 < 2 ^ 16),
    Nat.mod_eq_of_lt (by omega : 60000000 + l.flushed % 7500 + 1 < 2 ^ 32),
    Nat.mod_eq_of_lt (by omega : AdcLog.indexBlocks l.flushed + 1 < 2 ^ 16), indexBlocks_succ]
  rcases hstep with ⟨hlt, heq⟩ | ⟨hlast, heq⟩
  · rw [if_neg (by omega), if_pos hlt, heq]
    exact ⟨rfl, rfl, rfl, rfl, rfl⟩
  · rw [if_pos (by omega), heq, if_neg (by omega : ¬ l.flushed % 7500 + 1 < 7500)]
    exact ⟨rfl, rfl, rfl, rfl, rfl⟩

/-- A record that leaves room in the RAM table only adds an entry there. -/
theorem write_table (h : Represents rest s l) (ts : UInt32) (d : Blocks)
    (hroom : l.fresh + 1 < 64) :
    Represents rest (s.putRecord ts d) (l.write ⟨ts, d⟩) := by
  have hle := l.fresh_le_torn
  obtain ⟨hflushed, hfresh, htorn⟩ := AdcLog.write_room ⟨ts, d⟩ hroom
  have hslot := l.write_slot ⟨ts, d⟩
  have hlength := l.write_length ⟨ts, d⟩
  constructor
  · rw [putRecord_adc, hfresh, h.itemIndex]
    exact Nat.mod_eq_of_lt (by omega)
  · rw [hflushed]
    exact h.currBlock
  · rw [hflushed]
    exact h.indexAddr
  · rw [hflushed]
    exact h.blockNum
  · rw [hlength]
    exact h.nextAddr
  · intro i hi
    rw [hfresh] at hi
    rw [h.putRecord_table ts d (by omega), hflushed, AdcLog.item, hslot]
  · intro f hf hf' j hj
    rw [hflushed] at hf hf'
    have hne : 64 * f + j ≠ l.length := by simp only [AdcLog.length]; omega
    rw [h.putRecord_index ts d (Nat.le_add_right _ _), h.index f hf hf' j hj, AdcLog.item,
      AdcLog.item, hslot, Function.update_of_ne hne]
  · intro m hm hm' i hi
    rw [hflushed, htorn] at hm hm'
    rw [hslot]
    exact h.putRecord_data ts d hm hm' hi
  · intro b hb
    rw [h.putRecord_index ts d (by omega), h.past b hb]

/-- A record that fills the RAM table moves it to the card. -/
theorem write_flush (h : Represents rest s l) (ts : UInt32) (d : Blocks)
    (hfull : l.fresh + 1 = 64) :
    Represents rest ((s.putRecord ts d).flushIndex .ok) (l.write ⟨ts, d⟩) := by
  have hle := l.fresh_le_torn
  have hlt := l.torn_lt
  have hmod := Nat.mod_lt l.flushed (by decide : 0 < 7500)
  have hmod' := Nat.mod_lt (l.flushed + 1) (by decide : 0 < 7500)
  obtain ⟨hflushed, hfresh, htorn⟩ := AdcLog.write_full ⟨ts, d⟩ hfull
  have hslot := l.write_slot ⟨ts, d⟩
  have hlength := l.write_length ⟨ts, d⟩
  have hlen : l.length = 64 * l.flushed + 63 := by simp only [AdcLog.length]; omega
  have hindexAddr : (s.putRecord ts d).adc.indexAddr = adcIndexStartBlock + l.flushed % 7500 :=
    h.indexAddr
  obtain ⟨hcurr, hindex, hblock, hitem, hkeep⟩ := h.advance_counters
    (s.putRecord ts d).adc rfl rfl rfl
    (((s.putRecord ts d).putIndex .ok).timeTable .ok)
  rw [← flushIndex_adc] at hcurr hindex hblock hitem hkeep
  constructor
  · rw [hitem, hfresh]
  · rw [hcurr, hflushed]
  · rw [hindex, hflushed]
  · rw [hblock, hflushed]
  · rw [hkeep, hlength]
    exact h.nextAddr
  · intro i hi
    rw [hfresh] at hi
    exact absurd hi (Nat.not_lt_zero i)
  · intro f hf hf' j hj
    rw [hflushed] at hf hf'
    rw [adcIndexBlockNum_eq] at hf' ⊢
    rw [AdcLog.item, hslot]
    rcases Nat.lt_or_eq_of_le (Nat.le_of_lt_succ hf) with hlt | rfl
    · have hne := Cyclic.mod_ne_of_lt (n := 7500) hlt (by omega)
      have hold := h.index f hlt (by rw [adcIndexBlockNum_eq]; omega) j hj
      rw [adcIndexBlockNum_eq] at hold
      rw [flushIndex_emmc_of_ne _ (by omega), h.putRecord_index ts d (Nat.le_add_right _ _), hold,
        Function.update_of_ne (by omega), AdcLog.item]
    · rw [← hindexAddr, flushIndex_emmc_self, Block.item_ofTable _ hj,
        h.putRecord_table ts d (by omega)]
  · intro m hm hm' i hi
    rw [hflushed, htorn] at hm hm'
    rw [adcItemTotalNum_eq] at hm' ⊢
    rw [hslot, flushIndex_emmc_of_ne _ (by rw [hindexAddr, adcIndexStartBlock_eq]; omega)]
    have hdata := h.putRecord_data ts d (m := m) (by omega) (by rw [adcItemTotalNum_eq]; omega) hi
    rwa [adcItemTotalNum_eq] at hdata
  · intro b hb
    have hne : b ≠ (s.putRecord ts d).adc.indexAddr := by
      rw [adcIndexBlockNum_eq] at hb
      omega
    rw [flushIndex_emmc_of_ne _ hne, h.putRecord_index ts d (by omega), h.past b hb]

theorem write_of_room (h : Represents rest s l) (ts : UInt32) (d : Blocks)
    (hroom : l.fresh + 1 < 64) :
    (storageWriteAdcData .ok s ts d 125 true).1 = s.putRecord ts d := by
  rw [storageWriteAdcData_ok, h.itemIndex, adcIndexNumPreBlock_eq]
  exact if_neg (by omega)

theorem write_of_full (h : Represents rest s l) (ts : UInt32) (d : Blocks)
    (hfull : l.fresh + 1 = 64) :
    (storageWriteAdcData .ok s ts d 125 true).1 = (s.putRecord ts d).flushIndex .ok := by
  rw [storageWriteAdcData_ok, h.itemIndex, adcIndexNumPreBlock_eq]
  exact if_pos (by omega)

theorem write (h : Represents rest s l) (ts : UInt32) (d : Blocks) :
    Represents rest (storageWriteAdcData .ok s ts d 125 true).1 (l.write ⟨ts, d⟩) := by
  have hle := l.fresh_le_torn
  have htorn := l.torn_lt
  by_cases hroom : l.fresh + 1 < 64
  · rw [h.write_of_room ts d hroom]
    exact h.write_table ts d hroom
  · have hfull : l.fresh + 1 = 64 := by omega
    rw [h.write_of_full ts d hfull]
    exact h.write_flush ts d hfull

theorem write_persisted (h : Represents rest s l) (hp : Persisted s.config l) (ts : UInt32)
    (d : Blocks) :
    Persisted (storageWriteAdcData .ok s ts d 125 true).1.config (l.write ⟨ts, d⟩) := by
  have hle := l.fresh_le_torn
  have htorn := l.torn_lt
  by_cases hroom : l.fresh + 1 < 64
  · rw [h.write_of_room ts d hroom]
    obtain ⟨hflushed, -, -⟩ := AdcLog.write_room ⟨ts, d⟩ hroom
    exact ⟨hp.flag, hflushed ▸ hp.blockNum, hflushed ▸ hp.currBlock⟩
  · have hfull : l.fresh + 1 = 64 := by omega
    rw [h.write_of_full ts d hfull]
    obtain ⟨hflushed, -, -⟩ := AdcLog.write_full (l := l) ⟨ts, d⟩ hfull
    obtain ⟨hcurr, -, hblock, -, -⟩ := h.advance_counters (s.putRecord ts d).adc
      rfl rfl rfl (((s.putRecord ts d).putIndex .ok).timeTable .ok)
    rw [← flushIndex_adc] at hcurr hblock
    have hbound := indexBlocks_lt (l.flushed + 1)
    have hmod := Nat.mod_lt (l.flushed + 1) (by decide : 0 < 7500)
    refine ⟨hp.flag, ?_, ?_⟩
    · rw [flushIndex_config, hblock, hflushed]
      exact (UInt16.toNat_ofNat').trans (Nat.mod_eq_of_lt (by omega))
    · rw [flushIndex_config, hcurr, adcIndexBlockNum_eq, hflushed]
      exact (UInt16.toNat_ofNat').trans (Nat.mod_eq_of_lt (by omega))

/-- `Adc_Object_Init` from the configuration of the last flush restores all
counters; the entries of the lost table are gone. -/
theorem reboot (h : Represents rest s l) (hp : Persisted s.config l) :
    Represents rest { s with adc := adcObjectInit s.config } l.reboot := by
  have hcurr := hp.currBlock
  have hmod := Nat.mod_lt l.flushed (by decide : 0 < 7500)
  rw [adcIndexBlockNum_eq] at hcurr
  have hfirst : ¬ devFlagNextOn = devFlagFirstOn := by decide
  simp only [adcObjectInit, hp.flag, hfirst, if_false, if_true, hcurr, hp.blockNum, AdcLog.reboot]
  refine ⟨rfl, rfl, ?_, rfl, ?_, ?_, h.index, h.data, h.past⟩
  · exact Nat.mod_eq_of_lt (by rw [adcIndexStartBlock_eq]; omega)
  · simp only [AdcLog.length, adcIndexNumPreBlock_eq, adcItemBlockNum_eq, adcItemTotalNum_eq]
    rw [Nat.mod_eq_of_lt (by omega)]
    omega
  · intro i hi
    exact absurd hi (Nat.not_lt_zero i)

theorem init (e : Emmc) {c : ConfigInfo}
    (hc : c.flag = devFlagFirstOn ∨ c.flag = devFlagNextOn ∧ c.blockNum = 0 ∧ c.currBlock = 0)
    (status : Bool) : Represents e ⟨adcObjectInit c, e, c, status⟩ .empty := by
  have hnext : ¬ devFlagNextOn = devFlagFirstOn := by decide
  rcases hc with hc | ⟨hc, hblock, hcurr⟩
  all_goals
    constructor
    case past => exact fun _ _ => rfl
    all_goals simp [adcObjectInit, AdcLog.empty, AdcLog.length, AdcLog.indexBlocks, *]

end Represents

end Lsc100
