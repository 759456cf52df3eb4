import Lsc100.Adc.Recorder

/-! Which entries of the two index tables `Storage_Read_AdcData` looks at. -/

namespace Lsc100

/-- An access to `adc->item_tables` or to `g_item_tables`. -/
inductive TableAccess
  | item (i : Int)
  | group (i : Int)

def TableAccess.Inside : TableAccess → Prop
  | .item i => 0 ≤ i ∧ i < adcIndexNumPreBlock
  | .group i => 0 ≤ i ∧ i < adcIndexNumPreBlock * 10

/-- The loop over the entries from `i` on, `n` of them; `entry` says which table it is. The entry
that is found is looked at once more, for its address. -/
def scanTable (entry : Int → TableAccess) (table : Nat → AdcIndexItem) (timestamp : UInt32) :
    Nat → Nat → Option AdcIndexItem × List TableAccess
  | _, 0 => (none, [])
  | i, n + 1 =>
    if timestamp = (table i).timestamp then (some (table i), [entry i, entry i])
    else
      let r := scanTable entry table timestamp (i + 1) n
      (r.1, entry i :: r.2)

/-- `emmcreadblocks` of `step` blocks into `g_item_tables`, and the look at the last entry read. -/
def groupAccesses (step : Nat) : List TableAccess :=
  (List.range (adcIndexNumPreBlock * step)).map (fun i : Nat => .group i) ++
    [.group ((adcIndexNumPreBlock * step : Nat) - 1)]

/-- `scanIndex`, with what it does to `g_item_tables`. -/
def scanIndexLogged (io : AdcReadIo) (e : Emmc) (timestamp : UInt32) (blockNum num : Nat) :
    Option AdcIndexItem × List TableAccess :=
  if num < blockNum then
    let step := if 10 < blockNum - num then 10 else blockNum - num
    let tables := (emmcReadBlocks (io.group num) e (fun _ => zeroBlock)
      (adcIndexStartBlock + num) step).1
    if timestamp ≤ (tables.item (adcIndexNumPreBlock * step - 1)).timestamp then
      let r := scanTable .group tables.item timestamp 0 (adcIndexNumPreBlock * step)
      (r.1, groupAccesses step ++ r.2)
    else
      let r := scanIndexLogged io e timestamp blockNum (num + step)
      (r.1, groupAccesses step ++ r.2)
  else (none, [])
termination_by blockNum - num
decreasing_by split <;> omega

def AdcStore.lookupLogged (io : AdcReadIo) (s : AdcStore) (timestamp : UInt32) :
    Option AdcIndexItem × List TableAccess :=
  if (s.adc.itemTables 0).timestamp ≤ timestamp then
    let r :=
      if timestamp ≤ s.adc.lastTimestamp then
        scanTable .item s.adc.itemTables timestamp 0 s.adc.itemIndex
      else scanIndexLogged io s.emmc timestamp s.adc.blockNum 0
    (r.1, .item 0 :: .item (s.adc.itemIndex - 1) :: r.2)
  else
    let r := scanIndexLogged io s.emmc timestamp s.adc.blockNum 0
    (r.1, .item 0 :: r.2)

def storageReadAdcDataLogged (io : AdcReadIo) (s : AdcStore) (timestamp : UInt32)
    (blockOff : Nat) (data : Blocks) (blockNum : Nat) : (Int × Blocks) × List TableAccess :=
  if io.lock then
    let r := s.lookupLogged io timestamp
    match r.1 with
    | some item =>
      ((0, (emmcReadBlocks io.data s.emmc data ((item.addr.toNat + blockOff) % 2 ^ 32)
        blockNum).1), r.2)
    | none => ((-1, data), r.2)
  else ((-1, data), [])

section Log

variable {entry : Int → TableAccess} {table : Nat → AdcIndexItem} {io : AdcReadIo} {e : Emmc}
  {timestamp : UInt32}

theorem scanTable_fst (i n : Nat) : (scanTable entry table timestamp i n).1 =
    ((List.range' i n).find? (fun i => timestamp = (table i).timestamp)).map table := by
  induction n generalizing i with
  | zero => rfl
  | succ n ih =>
    rw [scanTable, List.range'_succ, List.find?_cons]
    by_cases hfound : timestamp = (table i).timestamp
    · simp [hfound]
    · simp [hfound, ih]

theorem mem_scanTable {i n : Nat} {a : TableAccess}
    (ha : a ∈ (scanTable entry table timestamp i n).2) : ∃ j, i ≤ j ∧ j < i + n ∧ a = entry j := by
  induction n generalizing i with
  | zero => exact absurd ha List.not_mem_nil
  | succ n ih =>
    rw [scanTable] at ha
    split at ha
    · obtain rfl : a = entry i := by simpa using ha
      exact ⟨i, Nat.le_refl i, by omega, rfl⟩
    · rcases List.mem_cons.mp ha with rfl | hrest
      · exact ⟨i, Nat.le_refl i, by omega, rfl⟩
      · obtain ⟨j, hle, hlt, rfl⟩ := ih hrest
        exact ⟨j, by omega, by omega, rfl⟩

theorem groupAccesses_inside {step : Nat} (hpos : 0 < step) (hle : step ≤ 10) {a : TableAccess}
    (ha : a ∈ groupAccesses step) : a.Inside := by
  rcases List.mem_append.mp ha with hfilled | hlast
  · obtain ⟨i, hi, rfl⟩ := List.mem_map.mp hfilled
    rw [List.mem_range, adcIndexNumPreBlock_eq] at hi
    simp only [TableAccess.Inside, adcIndexNumPreBlock_eq]
    omega
  · obtain rfl := List.mem_singleton.mp hlast
    simp only [TableAccess.Inside, adcIndexNumPreBlock_eq]
    omega

theorem scanTable_group_inside {step : Nat} (hle : step ≤ 10) {a : TableAccess}
    (ha : a ∈ (scanTable .group table timestamp 0 (adcIndexNumPreBlock * step)).2) : a.Inside := by
  obtain ⟨j, -, hj, rfl⟩ := mem_scanTable ha
  rw [adcIndexNumPreBlock_eq] at hj
  simp only [TableAccess.Inside, adcIndexNumPreBlock_eq]
  omega

/-- A group is at most ten blocks, and so the search never goes beyond `g_item_tables`. -/
theorem scanIndexLogged_spec (blockNum num : Nat) :
    (scanIndexLogged io e timestamp blockNum num).1 = scanIndex io e timestamp blockNum num ∧
      ∀ a ∈ (scanIndexLogged io e timestamp blockNum num).2, a.Inside := by
  induction num using scanIndex.induct io e timestamp blockNum with
  | case1 num hlt step tables hle =>
    have hstep : 0 < step ∧ step ≤ 10 := by
      simp only [step]
      split <;> omega
    have hlogged : scanIndexLogged io e timestamp blockNum num =
        ((scanTable .group tables.item timestamp 0 (adcIndexNumPreBlock * step)).1,
          groupAccesses step ++
            (scanTable .group tables.item timestamp 0 (adcIndexNumPreBlock * step)).2) := by
      rw [scanIndexLogged, if_pos hlt]
      exact if_pos hle
    have hscan : scanIndex io e timestamp blockNum num =
        ((List.range (adcIndexNumPreBlock * step)).find?
          (fun i => timestamp = (tables.item i).timestamp)).map tables.item := by
      rw [scanIndex, if_pos hlt]
      exact if_pos hle
    rw [hlogged, hscan, List.range_eq_range']
    refine ⟨scanTable_fst 0 _, fun a ha => ?_⟩
    rcases List.mem_append.mp ha with hgroup | htable
    · exact groupAccesses_inside hstep.1 hstep.2 hgroup
    · exact scanTable_group_inside hstep.2 htable
  | case2 num hlt step tables hle ih =>
    have hstep : 0 < step ∧ step ≤ 10 := by
      simp only [step]
      split <;> omega
    have hlogged : scanIndexLogged io e timestamp blockNum num =
        ((scanIndexLogged io e timestamp blockNum (num + step)).1,
          groupAccesses step ++ (scanIndexLogged io e timestamp blockNum (num + step)).2) := by
      rw [scanIndexLogged, if_pos hlt]
      exact if_neg hle
    have hscan : scanIndex io e timestamp blockNum num =
        scanIndex io e timestamp blockNum (num + step) := by
      rw [scanIndex, if_pos hlt]
      exact if_neg hle
    rw [hlogged, hscan]
    refine ⟨ih.1, fun a ha => ?_⟩
    rcases List.mem_append.mp ha with hgroup | hrest
    · exact groupAccesses_inside hstep.1 hstep.2 hgroup
    · exact ih.2 a hrest
  | case3 num hge =>
    rw [scanIndexLogged, scanIndex, if_neg hge, if_neg hge]
    exact ⟨rfl, fun a ha => absurd ha List.not_mem_nil⟩

theorem AdcStore.lookupLogged_fst (s : AdcStore) :
    (s.lookupLogged io timestamp).1 = s.lookup io timestamp := by
  rw [AdcStore.lookupLogged, AdcStore.lookup]
  by_cases hfirst : (s.adc.itemTables 0).timestamp ≤ timestamp
  · by_cases hlast : timestamp ≤ s.adc.lastTimestamp
    · simp only [hfirst, hlast, if_true, and_self]
      rw [scanTable_fst, List.range_eq_range']
    · simp only [hfirst, hlast, if_true, if_false, and_false]
      exact (scanIndexLogged_spec _ _).1
  · simp only [hfirst, if_false, false_and]
    exact (scanIndexLogged_spec _ _).1

theorem storageReadAdcDataLogged_fst (s : AdcStore) (blockOff : Nat) (data : Blocks)
    (blockNum : Nat) : (storageReadAdcDataLogged io s timestamp blockOff data blockNum).1 =
      storageReadAdcData io s timestamp blockOff data blockNum := by
  rw [storageReadAdcDataLogged, storageReadAdcData]
  split
  · simp only [AdcStore.lookupLogged_fst]
    cases s.lookup io timestamp with
    | none => rfl
    | some item => rfl
  · rfl

end Log

/-- A write of any kind, a clear, or a restart with any configuration. -/
inductive AdcUse
  | write (io : AdcWriteIo) (timestamp : UInt32) (data : Blocks) (blockNum : Nat) (flag : Bool)
  | clear (lock : Bool)
  | reboot (c : ConfigInfo)

def adcUses (start : AdcStore) : Machine AdcStore AdcUse where
  start := start
  step s
    | .write io timestamp data blockNum flag =>
      (storageWriteAdcData io s timestamp data blockNum flag).1
    | .clear lock => storageClearAdcData lock s
    | .reboot c => { s with config := c, adc := adcObjectInit c }

theorem adcObjectInit_itemIndex (c : ConfigInfo) : (adcObjectInit c).itemIndex = 0 := by
  rw [adcObjectInit]
  split
  · rfl
  · split
    · rfl
    · rfl

theorem storageWriteAdcData_itemIndex {s : AdcStore} (h : s.adc.itemIndex < 64) (io : AdcWriteIo)
    (timestamp : UInt32) (data : Blocks) (blockNum : Nat) (flag : Bool) :
    (storageWriteAdcData io s timestamp data blockNum flag).1.adc.itemIndex < 64 := by
  rw [storageWriteAdcData]
  cases hlock : io.lock with
  | false => exact h
  | true =>
    cases flag with
    | false => exact h
    | true =>
      by_cases hfull : adcIndexNumPreBlock ≤ (s.adc.itemIndex + 1) % 256
      · simp only [AdcObject.putItem, hfull, if_true, AdcStore.flushIndex,
          (AdcObject.advance_fields _ _).2.1]
        exact Nat.zero_lt_succ 63
      · have hroom : (s.adc.itemIndex + 1) % 256 < 64 := Nat.lt_of_not_le hfull
        simp only [AdcObject.putItem, hfull, if_true, if_false]
        exact hroom

theorem adcUses_itemIndex (card : Emmc) (c : ConfigInfo) (es : List AdcUse) :
    ((adcUses (.boot card c)).run es).adc.itemIndex < 64 := by
  have hinit : ∀ c, (adcObjectInit c).itemIndex < 64 := by
    intro c
    rw [adcObjectInit_itemIndex]
    exact Nat.zero_lt_succ 63
  let inv : AdcStore → Prop := fun s => s.adc.itemIndex < 64
  have hstep : ∀ s e, inv s → inv ((adcUses (.boot card c)).step s e) := by
    intro s e h
    cases e with
    | write io timestamp data blockNum flag =>
      exact storageWriteAdcData_itemIndex h io timestamp data blockNum flag
    | clear lock =>
      cases lock with
      | false => exact h
      | true => exact h
    | reboot c => exact hinit c
  exact Machine.invariant_runFrom_of_step _ hstep es (hinit c)

def AdcStore.ReadsInside (s : AdcStore) (io : AdcReadIo) (timestamp : UInt32) : Prop :=
  ∀ blockOff data blockNum,
    ∀ a ∈ (storageReadAdcDataLogged io s timestamp blockOff data blockNum).2, a.Inside

theorem storageReadAdcDataLogged_snd (io : AdcReadIo) (s : AdcStore) (timestamp : UInt32)
    (blockOff : Nat) (data : Blocks) (blockNum : Nat) :
    (storageReadAdcDataLogged io s timestamp blockOff data blockNum).2 =
      if io.lock then (s.lookupLogged io timestamp).2 else [] := by
  rw [storageReadAdcDataLogged]
  split
  · simp only
    split
    · rfl
    · rfl
  · rfl

/-- The only access that can be outside is the one to the last entry of an empty table. -/
theorem lookupLogged_inside_iff {s : AdcStore} (hitem : s.adc.itemIndex < 64) (io : AdcReadIo)
    (timestamp : UInt32) : (∀ a ∈ (s.lookupLogged io timestamp).2, a.Inside) ↔
      s.adc.itemIndex ≠ 0 ∨ timestamp < (s.adc.itemTables 0).timestamp := by
  have hzero : (TableAccess.item 0).Inside := by
    simp [TableAccess.Inside]
  have hdisk : ∀ a ∈ (scanIndexLogged io s.emmc timestamp s.adc.blockNum 0).2, a.Inside :=
    (scanIndexLogged_spec _ _).2
  rw [AdcStore.lookupLogged]
  by_cases hfirst : (s.adc.itemTables 0).timestamp ≤ timestamp
  · have hnot : ¬ timestamp < (s.adc.itemTables 0).timestamp := UInt32.not_lt.mpr hfirst
    have hlast : (TableAccess.item (s.adc.itemIndex - 1)).Inside ↔ s.adc.itemIndex ≠ 0 := by
      simp only [TableAccess.Inside, adcIndexNumPreBlock_eq]
      omega
    have hrest : ∀ a ∈ (if timestamp ≤ s.adc.lastTimestamp then
        scanTable .item s.adc.itemTables timestamp 0 s.adc.itemIndex
        else scanIndexLogged io s.emmc timestamp s.adc.blockNum 0).2, a.Inside := by
      intro a ha
      split at ha
      · obtain ⟨j, -, hj, rfl⟩ := mem_scanTable ha
        simp only [TableAccess.Inside, adcIndexNumPreBlock_eq]
        omega
      · exact hdisk a ha
    simp only [hfirst, hnot, if_true, or_false, List.forall_mem_cons, hzero, hlast, true_and]
    exact and_iff_left hrest
  · have hlt : timestamp < (s.adc.itemTables 0).timestamp := UInt32.not_le.mp hfirst
    simp only [hfirst, hlt, if_false, or_true, iff_true, List.forall_mem_cons]
    exact ⟨hzero, hdisk⟩

/-- With no entry in RAM, a read that is not below the first timestamp looks at the entry in front
of the table. All other accesses are inside. -/
theorem readsInside_iff (card : Emmc) (c : ConfigInfo) (es : List AdcUse) (io : AdcReadIo)
    (timestamp : UInt32) :
    ((adcUses (.boot card c)).run es).ReadsInside io timestamp ↔
      io.lock = false ∨ ((adcUses (.boot card c)).run es).adc.itemIndex ≠ 0 ∨
        timestamp < (((adcUses (.boot card c)).run es).adc.itemTables 0).timestamp := by
  simp only [AdcStore.ReadsInside, storageReadAdcDataLogged_snd]
  cases hlock : io.lock with
  | false => simp
  | true =>
    simp only [if_true, Bool.true_eq_false, false_or]
    rw [← lookupLogged_inside_iff (adcUses_itemIndex card c es) io timestamp]
    exact ⟨fun h => h 0 (fun _ => zeroBlock) 0, fun h _ _ _ => h⟩

/-- The first read after the first start. -/
theorem not_readsInside_boot :
    ¬ ((adcUses (.boot (fun _ => zeroBlock) .nextOn)).run []).ReadsInside .ok 5 := by
  intro h
  have hmem : TableAccess.item (-1) ∈ (storageReadAdcDataLogged .ok
      ((adcUses (.boot (fun _ => zeroBlock) .nextOn)).run []) 5 0 (fun _ => zeroBlock) 0).2 := by
    rw [storageReadAdcDataLogged_snd]
    exact List.mem_cons_of_mem _ List.mem_cons_self
  exact absurd (h 0 _ 0 _ hmem).1 (by decide)

end Lsc100
