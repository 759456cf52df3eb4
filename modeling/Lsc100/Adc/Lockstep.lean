import Lsc100.Adc.Recovery

/-! Where the sample store writes on the card. The data ring and the index ring have
addresses and limits of their own, and stay in step. -/

namespace Lsc100

inductive AdcArea
  | data
  | index
  deriving DecidableEq

/-- A call of `emmcerasewriteblocks`, and how it ends. -/
structure AdcBlockWrite where
  area : AdcArea
  io : BlockIo
  writebuff : Blocks
  writeAddr : Nat
  numberOfBlocks : Nat

def AdcBlockWrite.perform (w : AdcBlockWrite) (e : Emmc) : Emmc :=
  (emmcEraseWriteBlocks w.io e w.writebuff w.writeAddr w.numberOfBlocks).1

/-- The block writes that one `Storage_Write_AdcData` makes. -/
def AdcStore.blockWrites (io : AdcWriteIo) (s : AdcStore) (timestamp : UInt32) (data : Blocks)
    (blockNum : Nat) (flag : Bool) : List AdcBlockWrite :=
  if io.lock then
    let item := s.adc.putItem s.adc.addr timestamp
    ⟨.data, io.data, data, s.adc.addr, blockNum⟩ ::
      if flag ∧ adcIndexNumPreBlock ≤ item.itemIndex then
        [⟨.index, io.index, fun _ => Block.ofTable item.itemTables, item.indexAddr, 1⟩]
      else []
  else []

theorem storageWriteAdcData_emmc (io : AdcWriteIo) (s : AdcStore) (timestamp : UInt32)
    (data : Blocks) (blockNum : Nat) (flag : Bool) :
    (storageWriteAdcData io s timestamp data blockNum flag).1.emmc =
      (s.blockWrites io timestamp data blockNum flag).foldl (fun e w => w.perform e) s.emmc := by
  rw [storageWriteAdcData, AdcStore.blockWrites]
  cases hlock : io.lock with
  | false => rfl
  | true =>
    cases flag with
    | false => rfl
    | true =>
      by_cases hfull : adcIndexNumPreBlock ≤ (s.adc.putItem s.adc.addr timestamp).itemIndex
      · have hfull' : adcIndexNumPreBlock ≤ (s.adc.itemIndex + 1) % 256 := hfull
        simp only [AdcObject.putItem, hfull', if_true, and_self]
        rfl
      · have hroom : ¬ adcIndexNumPreBlock ≤ (s.adc.itemIndex + 1) % 256 := hfull
        simp only [AdcObject.putItem, hroom, if_true, if_false, and_false]
        rfl

def AdcLife.blockWrites (s : AdcLife) : List LifeEvent → List AdcBlockWrite
  | [] => []
  | .write io timestamp data :: es =>
    s.store.blockWrites io timestamp data 125 true ++ (s.write io timestamp data).blockWrites es
  | .reboot k :: es => (s.reboot k).blockWrites es

theorem AdcLife.reboot_emmc (s : AdcLife) (k : Nat) : (s.reboot k).store.emmc = s.store.emmc := by
  rw [AdcLife.reboot]
  split
  · rfl
  · rfl

/-- The card is what the block writes of the run have made of it. -/
theorem adcLife_emmc (start : AdcStore) (s : AdcLife) (es : List LifeEvent) :
    ((adcLife start).runFrom s es).store.emmc =
      (s.blockWrites es).foldl (fun e w => w.perform e) s.store.emmc := by
  induction es generalizing s with
  | nil => rfl
  | cons e es ih =>
    rw [Machine.runFrom_cons, ih]
    cases e with
    | write io timestamp data =>
      rw [AdcLife.blockWrites, List.foldl_append, ← storageWriteAdcData_emmc]
      rfl
    | reboot k =>
      rw [AdcLife.blockWrites, ← s.reboot_emmc k]
      rfl

structure AdcObject.Lockstep (adc : AdcObject) : Prop where
  itemIndex : adc.itemIndex < adcIndexNumPreBlock
  currBlock : adc.currBlock < adcIndexBlockNum
  indexAddr : adc.indexAddr = adcIndexStartBlock + adc.currBlock
  addr : adc.addr = 8000 * adc.currBlock + 125 * adc.itemIndex

/-- The write keeps to its area. -/
def AdcBlockWrite.Inside (w : AdcBlockWrite) : Prop :=
  match w.area with
  | .data => w.numberOfBlocks = adcItemBlockNum ∧
      w.writeAddr + w.numberOfBlocks ≤ adcIndexStartBlock
  | .index => w.numberOfBlocks = 1 ∧ adcIndexStartBlock ≤ w.writeAddr ∧
      w.writeAddr < adcIndexStartBlock + adcIndexBlockNum

/-- No block is in both writes. -/
def AdcBlockWrite.Apart (w w' : AdcBlockWrite) : Prop :=
  w.writeAddr + w.numberOfBlocks ≤ w'.writeAddr ∨ w'.writeAddr + w'.numberOfBlocks ≤ w.writeAddr

theorem AdcObject.InStep.lockstep {adc : AdcObject} (h : adc.InStep) : adc.Lockstep := by
  have haddr := h.addr
  exact ⟨h.itemIndex, h.currBlock, h.indexAddr, by omega⟩

theorem AdcObject.Lockstep.inside {s : AdcStore} (h : s.adc.Lockstep) {io : AdcWriteIo}
    {timestamp : UInt32} {data : Blocks} {w : AdcBlockWrite}
    (hw : w ∈ s.blockWrites io timestamp data 125 true) : w.Inside := by
  have hitem := h.itemIndex
  have hcurr := h.currBlock
  have hindex := h.indexAddr
  have haddr := h.addr
  rw [adcIndexNumPreBlock_eq] at hitem
  rw [adcIndexBlockNum_eq] at hcurr
  rw [adcIndexStartBlock_eq] at hindex
  rw [AdcStore.blockWrites] at hw
  split at hw
  · rcases List.mem_cons.mp hw with rfl | hrest
    · exact ⟨rfl, by rw [adcIndexStartBlock_eq]; simp only; omega⟩
    · split at hrest
      · obtain rfl := List.mem_singleton.mp hrest
        refine ⟨rfl, ?_, ?_⟩
        · simp only [AdcObject.putItem, hindex, adcIndexStartBlock_eq]
          omega
        · simp only [AdcObject.putItem, hindex, adcIndexStartBlock_eq, adcIndexBlockNum_eq]
          omega
      · exact absurd hrest List.not_mem_nil
  · exact absurd hw List.not_mem_nil

theorem AdcLife.Sound.inside {s : AdcLife} (h : s.Sound) {es : List LifeEvent} {w : AdcBlockWrite}
    (hw : w ∈ s.blockWrites es) : w.Inside := by
  induction es generalizing s with
  | nil => exact absurd hw List.not_mem_nil
  | cons e es ih =>
    cases e with
    | write io timestamp data =>
      rcases List.mem_append.mp hw with hnow | hlater
      · exact h.inStep.lockstep.inside hnow
      · exact ih (h.write io timestamp data) hlater
    | reboot k => exact ih (h.reboot k) hw

theorem AdcBlockWrite.Inside.apart {w w' : AdcBlockWrite} (h : w.Inside) (h' : w'.Inside)
    (harea : w.area ≠ w'.area) : w.Apart w' := by
  rw [AdcBlockWrite.Inside] at h h'
  cases hw : w.area with
  | data =>
    cases hw' : w'.area with
    | data => exact absurd (hw.trans hw'.symm) harea
    | index =>
      rw [hw] at h
      rw [hw'] at h'
      exact .inl (Nat.le_trans h.2 h'.2.1)
  | index =>
    cases hw' : w'.area with
    | data =>
      rw [hw] at h
      rw [hw'] at h'
      exact .inr (Nat.le_trans h'.2 h.2.1)
    | index => exact absurd (hw.trans hw'.symm) harea

/-- In every run from a fresh configuration the two rings stay in step, and so what is written
to the one never reaches the other. -/
theorem adcRings_lockstep (card : Emmc) (c : ConfigInfo) (hfresh : c.Fresh)
    (es : List LifeEvent) :
    ((adcLife (.boot card c)).run es).store.adc.Lockstep ∧
      (∀ w ∈ (adcLife (.boot card c)).start.blockWrites es, w.Inside) ∧
      ∀ w ∈ (adcLife (.boot card c)).start.blockWrites es,
        ∀ w' ∈ (adcLife (.boot card c)).start.blockWrites es, w.area ≠ w'.area → w.Apart w' := by
  have hstart : (adcLife (.boot card c)).start.Sound := adcLife_sound hfresh []
  refine ⟨(adcLife_sound hfresh es).inStep.lockstep, fun w hw => hstart.inside hw, ?_⟩
  intro w hw w' hw' harea
  exact (hstart.inside hw).apart (hstart.inside hw') harea

/-- A hundred records, one whose data does not reach the card, a missed lock, a
restart, and a flush whose index block does not reach the card. -/
def troubledLife : List LifeEvent :=
  List.replicate 100 (.write .ok 1 fun _ => zeroBlock) ++
    .write { AdcWriteIo.ok with data := .failed fun _ => zeroBlock } 2 (fun _ => zeroBlock) ::
    .write { AdcWriteIo.ok with lock := false } 3 (fun _ => zeroBlock) :: .reboot 0 ::
    List.replicate 64 (.write { AdcWriteIo.ok with index := .failed fun _ => zeroBlock } 4
      fun _ => zeroBlock)

theorem adcRings_lockstep_troubled :
    ((adcLife (.boot (fun _ => zeroBlock) .nextOn)).run troubledLife).store.adc.Lockstep ∧
      (∀ w ∈ (adcLife (.boot (fun _ => zeroBlock) .nextOn)).start.blockWrites troubledLife,
        w.Inside) ∧
      ∀ w ∈ (adcLife (.boot (fun _ => zeroBlock) .nextOn)).start.blockWrites troubledLife,
        ∀ w' ∈ (adcLife (.boot (fun _ => zeroBlock) .nextOn)).start.blockWrites troubledLife,
          w.area ≠ w'.area → w.Apart w' :=
  adcRings_lockstep (fun _ => zeroBlock) .nextOn ConfigInfo.fresh_nextOn troubledLife

end Lsc100
