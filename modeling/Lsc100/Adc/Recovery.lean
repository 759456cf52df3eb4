import Mathlib.Data.List.Induction
import Lsc100.Adc.Recorder

/-! What `Adc_Object_Init` makes of the configuration that an index flush has left.
Card operations and locks may fail here, and a restart may find the configuration
of any earlier flush. -/

namespace Lsc100

/-- `g_ConfigInfo` and `g_AdcObject` right after an index flush. -/
structure AdcFlush where
  config : ConfigInfo
  adc : AdcObject

/-- `flushes` are the index flushes so far. -/
structure AdcLife where
  store : AdcStore
  flushes : List AdcFlush

inductive LifeEvent
  | write (io : AdcWriteIo) (timestamp : UInt32) (data : Blocks)
  | reboot (k : Nat)

namespace AdcLife

def write (io : AdcWriteIo) (timestamp : UInt32) (data : Blocks) (s : AdcLife) : AdcLife :=
  let store := (storageWriteAdcData io s.store timestamp data 125 true).1
  { store := store
    flushes := if io.lock ∧ s.store.adc.itemIndex + 1 = adcIndexNumPreBlock then
        s.flushes ++ [⟨store.config, store.adc⟩]
      else s.flushes }

def reboot (k : Nat) (s : AdcLife) : AdcLife :=
  match s.flushes[k]? with
  | some flush =>
    let config := systemInit flush.config
    { s with store := { s.store with config := config, adc := adcObjectInit config } }
  | none => s

end AdcLife

def adcLife (start : AdcStore) : Machine AdcLife LifeEvent where
  start := ⟨start, []⟩
  step s
    | .write io timestamp data => s.write io timestamp data
    | .reboot k => s.reboot k

/-- Data ring and index ring stand at the same record. -/
structure AdcObject.InStep (adc : AdcObject) : Prop where
  addr : adc.addr = 125 * (64 * adc.currBlock + adc.itemIndex)
  indexAddr : adc.indexAddr = adcIndexStartBlock + adc.currBlock
  currBlock : adc.currBlock < 7500
  itemIndex : adc.itemIndex < 64
  blockNum : adc.blockNum ≤ 7500 + adc.currBlock

/-- The restart brings back what the flush has left. -/
structure AdcFlush.Recovered (f : AdcFlush) : Prop where
  addr : (adcObjectInit f.config).addr = f.adc.addr
  indexAddr : (adcObjectInit f.config).indexAddr = f.adc.indexAddr
  blockNum : (adcObjectInit f.config).blockNum = f.adc.blockNum
  currBlock : (adcObjectInit f.config).currBlock = f.adc.currBlock
  itemIndex : (adcObjectInit f.config).itemIndex = f.adc.itemIndex
  strTime : (adcObjectInit f.config).strTime = f.adc.strTime
  endTime : (adcObjectInit f.config).endTime = f.adc.endTime

/-- The configuration carries the counters of the object. -/
structure AdcFlush.Carried (f : AdcFlush) : Prop where
  inStep : f.adc.InStep
  itemIndex : f.adc.itemIndex = 0
  blockNum : f.config.blockNum = UInt16.ofNat f.adc.blockNum
  currBlock : f.config.currBlock = UInt16.ofNat f.adc.currBlock
  strTime : f.config.strTime = f.adc.strTime
  endTime : f.config.endTime = f.adc.endTime
  configured : f.config.Configured

namespace AdcFlush.Carried

variable {f : AdcFlush}

theorem toNat_blockNum (h : f.Carried) : f.config.blockNum.toNat = f.adc.blockNum := by
  have hlt := h.inStep.blockNum
  have hcurr := h.inStep.currBlock
  rw [h.blockNum, UInt16.toNat_ofNat']
  exact Nat.mod_eq_of_lt (by omega)

theorem toNat_currBlock (h : f.Carried) : f.config.currBlock.toNat = f.adc.currBlock := by
  have hcurr := h.inStep.currBlock
  rw [h.currBlock, UInt16.toNat_ofNat']
  exact Nat.mod_eq_of_lt (by omega)

theorem recovered (h : f.Carried) (hflag : f.config.flag = devFlagNextOn) : f.Recovered := by
  have hfirst : ¬ f.config.flag = devFlagFirstOn := by
    rw [hflag]
    decide
  have hcurr := h.inStep.currBlock
  have haddr := h.inStep.addr
  rw [h.itemIndex] at haddr
  constructor
  all_goals rw [adcObjectInit, if_neg hfirst, if_pos hflag]
  · simp only [h.toNat_currBlock, haddr, adcIndexNumPreBlock_eq, adcItemBlockNum_eq]
    omega
  · simp only [h.toNat_currBlock, h.inStep.indexAddr, adcIndexStartBlock_eq]
    omega
  · exact h.toNat_blockNum
  · exact h.toNat_currBlock
  · exact h.itemIndex.symm
  · exact h.strTime
  · exact h.endTime

end AdcFlush.Carried

namespace AdcObject.InStep

variable {adc : AdcObject}

theorem ofConfig {c : ConfigInfo} (hc : c.Configured) (hcurr : c.currBlock.toNat < 7500)
    (hblock : c.blockNum.toNat ≤ 7500 + c.currBlock.toNat) : (adcObjectInit c).InStep := by
  rcases hc with hfirst | hnext
  · rw [adcObjectInit, if_pos hfirst]
    exact ⟨rfl, rfl, by decide, by decide, Nat.zero_le _⟩
  · have hnot : ¬ c.flag = devFlagFirstOn := by
      rw [hnext]
      decide
    rw [adcObjectInit, if_neg hnot, if_pos hnext]
    refine ⟨?_, ?_, hcurr, Nat.zero_lt_succ _, hblock⟩
    · simp only [adcIndexNumPreBlock_eq, adcItemBlockNum_eq]
      omega
    · simp only [adcIndexStartBlock_eq]
      omega

theorem init {c : ConfigInfo} (hfresh : c.Fresh) : (adcObjectInit c).InStep := by
  rcases hfresh with hfirst | ⟨hnext, hblock, hcurr⟩
  · rw [adcObjectInit, if_pos hfirst]
    exact ⟨rfl, rfl, by decide, by decide, Nat.zero_le _⟩
  · refine ofConfig (.inr hnext) ?_ ?_
    · rw [hcurr]
      decide
    · rw [hblock]
      exact Nat.zero_le _

theorem nextAddr (h : adc.InStep) (hroom : 64 * adc.currBlock + adc.itemIndex + 1 < 480000) :
    adc.nextAddr 125 = 125 * (64 * adc.currBlock + adc.itemIndex + 1) := by
  have haddr := h.addr
  have hlow : adc.addr + 125 < 60000000 := by omega
  have hmod : (adc.addr + 125) % 2 ^ 32 = adc.addr + 125 := Nat.mod_eq_of_lt (by omega)
  rw [AdcObject.nextAddr, hmod, if_neg (Nat.not_le_of_lt (adcIndexStartBlock_eq ▸ hlow))]
  omega

theorem nextAddr_wrap (h : adc.InStep) (hlast : 64 * adc.currBlock + adc.itemIndex + 1 = 480000) :
    adc.nextAddr 125 = 0 := by
  have haddr := h.addr
  have hhigh : adc.addr + 125 = 60000000 := by omega
  rw [AdcObject.nextAddr, hhigh]
  exact if_pos (Nat.le_of_eq adcIndexStartBlock_eq)

theorem putItem (h : adc.InStep) (hroom : adc.itemIndex + 1 < 64) (timestamp : UInt32) :
    ({ adc with addr := adc.nextAddr 125 }.putItem adc.addr timestamp).InStep := by
  have haddr := h.addr
  have hcurr := h.currBlock
  have hitem := h.itemIndex
  refine ⟨?_, h.indexAddr, hcurr, ?_, h.blockNum⟩
  · simp only [AdcObject.putItem, h.nextAddr (by omega)]
    omega
  · simp only [AdcObject.putItem]
    omega

/-- The index flush: both rings go on together, and wrap together. -/
theorem advance (h : adc.InStep) (hfull : adc.itemIndex + 1 = 64) (timestamp : UInt32)
    (table : Nat → AdcIndexItem) :
    (({ adc with addr := adc.nextAddr 125 }.putItem adc.addr timestamp).advance table).InStep ∧
      (({ adc with addr := adc.nextAddr 125 }.putItem adc.addr timestamp).advance
        table).itemIndex = 0 := by
  have haddr := h.addr
  have hindex := h.indexAddr
  have hcurr := h.currBlock
  have hblock := h.blockNum
  rw [adcIndexStartBlock_eq] at hindex
  rcases Nat.lt_or_ge (adc.currBlock + 1) 7500 with hlt | hwrap
  · have hmod : ¬ adcIndexBlockNum ≤ (adc.currBlock + 1) % 2 ^ 16 := by
      rw [adcIndexBlockNum_eq]
      omega
    simp only [AdcObject.advance, AdcObject.putItem, hmod, if_false]
    refine ⟨⟨?_, ?_, ?_, Nat.zero_lt_succ _, ?_⟩, trivial⟩
    · simp only [h.nextAddr (by omega)]
      omega
    · simp only [hindex, adcIndexStartBlock_eq]
      omega
    · simp only
      omega
    · simp only
      omega
  · have hmod : adcIndexBlockNum ≤ (adc.currBlock + 1) % 2 ^ 16 := by
      rw [adcIndexBlockNum_eq]
      omega
    simp only [AdcObject.advance, AdcObject.putItem, hmod, if_true]
    refine ⟨⟨?_, ?_, Nat.zero_lt_succ _, Nat.zero_lt_succ _, ?_⟩, trivial⟩
    · simp [h.nextAddr_wrap (by omega)]
    · rw [Nat.add_zero]
    · rw [adcIndexBlockNum_eq, Nat.add_zero]

end AdcObject.InStep

theorem ConfigInfo.Fresh.configured {c : ConfigInfo} (h : c.Fresh) : c.Configured :=
  h.imp id And.left

/-- Every flush so far has left a configuration that carries the counters. -/
structure AdcLife.Sound (s : AdcLife) : Prop where
  inStep : s.store.adc.InStep
  configured : s.store.config.Configured
  flushes : ∀ f ∈ s.flushes, f.Carried

namespace AdcLife.Sound

variable {s : AdcLife}

theorem write (h : s.Sound) (io : AdcWriteIo) (timestamp : UInt32) (data : Blocks) :
    (s.write io timestamp data).Sound := by
  have hin := h.inStep
  have hlt := hin.itemIndex
  have hitem : (s.store.adc.itemIndex + 1) % 256 = s.store.adc.itemIndex + 1 :=
    Nat.mod_eq_of_lt (by omega)
  rw [AdcLife.write, storageWriteAdcData]
  cases hlock : io.lock with
  | false =>
    simp only [Bool.false_eq_true, false_and, if_false]
    exact h
  | true =>
    rcases Nat.lt_or_ge (s.store.adc.itemIndex + 1) 64 with hroom | hge
    · have hless : ¬ adcIndexNumPreBlock ≤ s.store.adc.itemIndex + 1 := Nat.not_le_of_lt hroom
      have hnot : ¬ s.store.adc.itemIndex + 1 = adcIndexNumPreBlock := fun heq =>
        hless (Nat.le_of_eq heq.symm)
      have hput := hin.putItem hroom timestamp
      simp only [AdcObject.putItem, hitem, hless, hnot, if_true, and_false, if_false] at hput ⊢
      exact ⟨hput, h.configured, h.flushes⟩
    · have hfull : s.store.adc.itemIndex + 1 = 64 := by omega
      have hadvance := hin.advance hfull timestamp
      simp only [AdcObject.putItem, hfull] at hadvance
      simp only [AdcObject.putItem, hfull, adcIndexNumPreBlock_eq, AdcStore.flushIndex, if_true,
        and_self, Nat.le_refl]
      obtain ⟨hnew, hzero⟩ := hadvance (AdcStore.timeTable io _)
      refine ⟨hnew, h.configured, fun f hf => ?_⟩
      rcases List.mem_append.mp hf with hold | hlast
      · exact h.flushes f hold
      · rw [List.mem_singleton.mp hlast]
        exact ⟨hnew, hzero, rfl, rfl, rfl, rfl, h.configured⟩

theorem reboot (h : s.Sound) (k : Nat) : (s.reboot k).Sound := by
  rw [AdcLife.reboot]
  split
  · rename_i f hf
    have hcarried := h.flushes f (List.mem_of_getElem? hf)
    refine ⟨?_, systemInit_configured hcarried.configured, h.flushes⟩
    have hsame : (systemInit f.config).blockNum = f.config.blockNum ∧
        (systemInit f.config).currBlock = f.config.currBlock := by
      rw [systemInit]
      split <;> exact ⟨rfl, rfl⟩
    exact .ofConfig (systemInit_configured hcarried.configured)
      (by rw [hsame.2, hcarried.toNat_currBlock]; exact hcarried.inStep.currBlock)
      (by
        rw [hsame.1, hsame.2, hcarried.toNat_blockNum, hcarried.toNat_currBlock]
        exact hcarried.inStep.blockNum)
  · exact h

end AdcLife.Sound

theorem adcLife_sound {card : Emmc} {c : ConfigInfo} (hfresh : c.Fresh) (es : List LifeEvent) :
    ((adcLife (.boot card c)).run es).Sound := by
  refine Machine.invariant_runFrom_of_step _ (fun s e h => ?_) es
    ⟨.init hfresh, hfresh.configured, fun f hf => absurd hf List.not_mem_nil⟩
  cases e with
  | write io timestamp data => exact h.write io timestamp data
  | reboot k => exact h.reboot k

/-- A restart from the configuration of any flush brings back the counters and
times that stood in RAM right after it. -/
theorem adcObjectInit_recovered (card : Emmc) (c : ConfigInfo) (hfresh : c.Fresh)
    (es : List LifeEvent) : ∀ f ∈ ((adcLife (.boot card c)).run es).flushes,
      f.config.flag = devFlagNextOn → f.Recovered :=
  fun f hf hflag => ((adcLife_sound hfresh es).flushes f hf).recovered hflag

/-- As many seconds as one index block has entries. -/
def firstIndexBlock : List LifeEvent :=
  (List.range 64).map fun i => .write .ok (UInt32.ofNat (i + 1)) fun _ => zeroBlock

theorem adcObjectInit_recovered_first :
    ∃ f ∈ ((adcLife (.boot (fun _ => zeroBlock) .nextOn)).run firstIndexBlock).flushes,
      f.adc.blockNum = 1 ∧ f.Recovered := by
  have hone : ((adcLife (.boot (fun _ => zeroBlock) .nextOn)).run firstIndexBlock).flushes.map
      (fun f => (f.config.flag, f.adc.blockNum)) = [(devFlagNextOn, 1)] := by decide +kernel
  obtain ⟨f, hf, heq⟩ := List.mem_map.mp (hone ▸ List.mem_singleton_self (devFlagNextOn, 1))
  exact ⟨f, hf, congrArg Prod.snd heq, adcObjectInit_recovered _ _ ConfigInfo.fresh_nextOn _ f hf
    (congrArg Prod.fst heq)⟩

end Lsc100
