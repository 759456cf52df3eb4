import Lsc100.Adc.Complete
import Lsc100.Adc.Found

/-! The sample store over power cuts. What is in RAM is lost, the blocks that are being written may
hold anything, and `Adc_Object_Init` starts from the configuration in the EEPROM, which may be that
of an earlier index flush. -/

namespace Lsc100

/-- `eeprom` is the configuration last saved there. -/
structure AdcPower where
  store : AdcStore
  eeprom : ConfigInfo

inductive PowerEvent
  | write (r : SecondRecord)
  | save
  | cut (junk : Emmc)

/-- The blocks that a write of the next record touches, with the index block. -/
def AdcStore.Touches (s : AdcStore) (b : Nat) : Prop :=
  s.adc.addr ≤ b ∧ b < s.adc.addr + 125 ∨ b = s.adc.indexAddr

instance (s : AdcStore) (b : Nat) : Decidable (s.Touches b) :=
  inferInstanceAs (Decidable (_ ∨ _))

namespace AdcPower

def write (s : AdcPower) (r : SecondRecord) : AdcPower :=
  { s with store := (storageWriteAdcData .ok s.store r.ts r.data 125 true).1 }

def save (s : AdcPower) : AdcPower := { s with eeprom := s.store.config }

/-- The power fails at any point of a write, or between two, and comes back. -/
def cut (s : AdcPower) (junk : Emmc) : AdcPower :=
  { s with
    store := .boot (fun b => if s.store.Touches b then junk b else s.store.emmc b)
      (systemInit s.eeprom) }

end AdcPower

def adcPower (card : Emmc) (config : ConfigInfo) : Machine AdcPower PowerEvent where
  start := ⟨.boot card config, config⟩
  step s
    | .write r => s.write r
    | .save => s.save
    | .cut junk => s.cut junk

/-- What the store must not lose: the records, of which the first `saved` outlast a power cut. -/
structure KeptRecords where
  records : List SecondRecord
  saved : Nat

/-- A save counts for the records in full index blocks. -/
def keptRecords : Machine KeptRecords PowerEvent where
  start := ⟨[], 0⟩
  step k
    | .write r => { k with records := k.records ++ [r] }
    | .save => { k with saved := k.records.length / 64 * 64 }
    | .cut _ => { k with records := k.records.take k.saved }

def powerWrites (es : List PowerEvent) : List SecondRecord :=
  es.filterMap fun
    | .write r => some r
    | _ => none

theorem powerWrites_concat (es : List PowerEvent) (e : PowerEvent) :
    powerWrites (es ++ [e]) = powerWrites es ++ powerWrites [e] := List.filterMap_append

/-- The log after a fall back to the first `q` index blocks. -/
def AdcLog.back (l : AdcLog) (q : Nat) : AdcLog :=
  { AdcLog.empty with slot := l.slot, flushed := q }

theorem systemInit_nextOn {c : ConfigInfo} (h : c.flag = devFlagNextOn) : systemInit c = c := by
  rw [systemInit, if_neg]
  rintro ⟨hfirst, -⟩
  rw [h] at hfirst
  exact absurd hfirst (by decide)

section Boot

variable {rest e : Emmc} {s : AdcStore} {l : AdcLog} {c : ConfigInfo}

/-- A start from the configuration finds what the card holds, whatever stood in RAM. -/
theorem Persisted.boot (hp : Persisted c l) (hfresh : l.fresh = 0)
    (hindex : ∀ f < l.flushed, l.flushed ≤ f + adcIndexBlockNum → ∀ j < 64,
      (e (adcIndexStartBlock + f % adcIndexBlockNum)).item j = l.item (64 * f + j))
    (hdata : ∀ m < 64 * l.flushed + l.torn, 64 * l.flushed + l.torn ≤ m + adcItemTotalNum →
      ∀ i < 125, e (125 * (m % adcItemTotalNum) + i) = (l.slot m).data i)
    (hpast : ∀ b, adcIndexStartBlock + adcIndexBlockNum ≤ b → e b = rest b) :
    Represents rest (.boot e c) l := by
  have hcurr := hp.currBlock
  have hmod := Nat.mod_lt l.flushed (by decide : 0 < 7500)
  rw [adcIndexBlockNum_eq] at hcurr
  have hfirst : ¬ devFlagNextOn = devFlagFirstOn := by decide
  simp only [AdcStore.boot, adcObjectInit, hp.flag, hfirst, if_false, if_true, hcurr, hp.blockNum]
  refine ⟨hfresh.symm, rfl, ?_, rfl, ?_, fun i hi => ?_, hindex, hdata, hpast⟩
  · exact Nat.mod_eq_of_lt (by rw [adcIndexStartBlock_eq]; omega)
  · simp only [AdcLog.length, hfresh, adcIndexNumPreBlock_eq, adcItemBlockNum_eq,
      adcItemTotalNum_eq]
    rw [Nat.mod_eq_of_lt (by omega)]
    omega
  · rw [hfresh] at hi
    exact absurd hi (Nat.not_lt_zero i)

/-- Before the rings start over, the blocks of the next record are none that an index block on the
card describes. -/
theorem Represents.cut (h : Represents rest s l) (hlap : l.length < 480000) {q : Nat}
    (hq : q ≤ l.flushed) (hp : Persisted c (l.back q)) (junk : Emmc) :
    Represents rest (.boot (fun b => if s.Touches b then junk b else s.emmc b) c) (l.back q) := by
  have hlen : l.length = 64 * l.flushed + l.fresh := rfl
  have haddr := h.addr
  have hindexAddr := h.indexAddr
  rw [adcItemTotalNum_eq, Nat.mod_eq_of_lt hlap] at haddr
  rw [adcIndexStartBlock_eq, adcIndexBlockNum_eq, Nat.mod_eq_of_lt (by omega)] at hindexAddr
  have hkeep : ∀ b, (b < s.adc.addr ∨ s.adc.addr + 125 ≤ b) → b ≠ s.adc.indexAddr →
      ¬ s.Touches b := fun b hb hne ht => by
    rcases ht with ht | ht
    · omega
    · exact hne ht
  refine hp.boot rfl (fun f hf hf' j hj => ?_) (fun m hm hm' i hi => ?_) fun b hb => ?_
  · have hf : f < q := hf
    have hitem := h.index f (by omega) (by rw [adcIndexBlockNum_eq]; omega) j hj
    rw [adcIndexBlockNum_eq, adcIndexStartBlock_eq, Nat.mod_eq_of_lt (by omega)] at hitem ⊢
    rw [if_neg (hkeep _ (by omega) (by omega)), hitem]
    rfl
  · have hm : m < 64 * q := hm
    have hslot := h.data m (by omega) (by rw [adcItemTotalNum_eq]; have := l.torn_lt; omega) i hi
    rw [adcItemTotalNum_eq, Nat.mod_eq_of_lt (by omega)] at hslot ⊢
    rw [if_neg (hkeep _ (by omega) (by omega)), hslot]
    rfl
  · have hpast := h.past b hb
    rw [adcIndexStartBlock_eq, adcIndexBlockNum_eq] at hb
    rw [if_neg (hkeep _ (by omega) (by omega)), hpast]

end Boot

/-- The card holds the records that must not be lost, and the EEPROM knows of those that are
saved. -/
structure AdcPower.Keeps (rest : Emmc) (s : AdcPower) (k : KeptRecords) (l : AdcLog) (q : Nat) :
    Prop where
  represents : Represents rest s.store l
  persisted : Persisted s.store.config l
  length : l.length = k.records.length
  slot : ∀ m (h : m < k.records.length), l.slot m = k.records[m]
  torn : l.torn = l.fresh
  saved : k.saved = 64 * q
  le : q ≤ l.flushed
  eeprom : Persisted s.eeprom (l.back q)

namespace AdcPower.Keeps

variable {rest : Emmc} {s : AdcPower} {k : KeptRecords} {l : AdcLog} {q : Nat}

theorem boot (card : Emmc) {c : ConfigInfo} (hc : c.Fresh) (hflag : c.flag = devFlagNextOn) :
    AdcPower.Keeps card ⟨.boot card c, c⟩ ⟨[], 0⟩ .empty 0 := by
  have hpersisted : Persisted c .empty := by
    rcases hc with hfirst | ⟨-, hblock, hcurr⟩
    · exact absurd (hflag.symm.trans hfirst) (by decide)
    · refine ⟨hflag, ?_, ?_⟩
      · rw [hblock]
        rfl
      · rw [hcurr]
        rfl
  exact ⟨.init card hc false, hpersisted, rfl, fun m hm => absurd hm (Nat.not_lt_zero m), rfl, rfl,
    Nat.le_refl 0, ⟨hpersisted.flag, hpersisted.blockNum, hpersisted.currBlock⟩⟩

theorem write (h : s.Keeps rest k l q) (r : SecondRecord) :
    (s.write r).Keeps rest { k with records := k.records ++ [r] } (l.write r) q := by
  have hlen : l.length = 64 * l.flushed + l.fresh := rfl
  have htorn := h.torn
  have hlt := l.torn_lt
  have hstep : (l.write r).torn = (l.write r).fresh ∧ l.flushed ≤ (l.write r).flushed := by
    rcases Nat.lt_or_eq_of_le (Nat.succ_le_of_lt (htorn ▸ hlt)) with hroom | hfull
    · obtain ⟨hflushed, hfresh, htorn'⟩ := AdcLog.write_room r hroom
      omega
    · obtain ⟨hflushed, hfresh, htorn'⟩ := AdcLog.write_full r hfull
      omega
  refine ⟨h.represents.write r.ts r.data, h.represents.write_persisted h.persisted r.ts r.data, ?_,
    fun m hm => ?_, hstep.1, h.saved, Nat.le_trans h.le hstep.2,
    ⟨h.eeprom.flag, h.eeprom.blockNum, h.eeprom.currBlock⟩⟩
  · rw [l.write_length, h.length, List.length_append, List.length_singleton]
  · rw [l.write_slot, h.length]
    rw [List.length_append, List.length_singleton] at hm
    rcases Nat.lt_or_eq_of_le (Nat.le_of_lt_succ hm) with hold | rfl
    · rw [Function.update_of_ne (by omega), h.slot m hold, List.getElem_append_left hold]
    · rw [Function.update_self, List.getElem_concat_length rfl]

theorem save (h : s.Keeps rest k l q) :
    s.save.Keeps rest { k with saved := k.records.length / 64 * 64 } l l.flushed := by
  have hlen : l.length = 64 * l.flushed + l.fresh := rfl
  have hlt := l.torn_lt
  have hfresh := l.fresh_le_torn
  refine ⟨h.represents, h.persisted, h.length, h.slot, h.torn, ?_, Nat.le_refl _,
    ⟨h.persisted.flag, h.persisted.blockNum, h.persisted.currBlock⟩⟩
  have hlength := h.length
  show k.records.length / 64 * 64 = 64 * l.flushed
  omega

theorem cut (h : s.Keeps rest k l q) (hlap : k.records.length < 480000) (junk : Emmc) :
    (s.cut junk).Keeps rest { k with records := k.records.take k.saved } (l.back q) q := by
  have hlen : l.length = 64 * l.flushed + l.fresh := rfl
  have hle := h.le
  have hlength := h.length
  have hsaved : (k.records.take k.saved).length = 64 * q := by
    rw [List.length_take, h.saved]
    omega
  have hboot : systemInit s.eeprom = s.eeprom := systemInit_nextOn h.eeprom.flag
  refine ⟨?_, ?_, hsaved.symm, fun m hm => ?_, rfl, h.saved, Nat.le_refl q, h.eeprom⟩
  · rw [AdcPower.cut, hboot]
    exact h.represents.cut (hlength ▸ hlap) hle h.eeprom junk
  · rw [AdcPower.cut, hboot]
    exact h.eeprom
  · have hlt : m < k.records.length := Nat.lt_of_lt_of_le hm (List.length_take_le' _ _)
    rw [List.getElem_take]
    exact h.slot m hlt

end AdcPower.Keeps

section Run

variable {card : Emmc} {c : ConfigInfo}

theorem keeps_run (hc : c.Fresh) (hflag : c.flag = devFlagNextOn) (es : List PowerEvent)
    (hlap : ∀ pre, pre <+: es → (keptRecords.run pre).records.length < 480000) :
    ∃ l q, ((adcPower card c).run es).Keeps card (keptRecords.run es) l q := by
  induction es using List.reverseRecOn with
  | nil => exact ⟨.empty, 0, .boot card hc hflag⟩
  | append_singleton es e ih =>
    obtain ⟨l, q, h⟩ := ih fun pre hpre => hlap pre (hpre.trans (List.prefix_append es [e]))
    rw [Machine.run_concat, Machine.run_concat]
    cases e with
    | write r => exact ⟨l.write r, q, h.write r⟩
    | save => exact ⟨l, l.flushed, h.save⟩
    | cut junk =>
      exact ⟨l.back q, q, h.cut (hlap es (List.prefix_append es _)) junk⟩

theorem records_sublist (es : List PowerEvent) :
    (keptRecords.run es).records.Sublist (powerWrites es) := by
  induction es using List.reverseRecOn with
  | nil => exact List.Sublist.refl []
  | append_singleton es e ih =>
    rw [Machine.run_concat, powerWrites_concat]
    cases e with
    | write r => exact ih.append_right [r]
    | save =>
      rw [show powerWrites [.save] = [] from rfl, List.append_nil]
      exact ih
    | cut junk =>
      rw [show powerWrites [.cut junk] = [] from rfl, List.append_nil]
      exact (List.take_sublist _ _).trans ih

/-- Whenever and however often the power is cut: until the rings start over, the device finds the
records that were in full index blocks when the configuration was last saved and those written
since the last cut, each with its data, and no other second. -/
theorem adcPower_durable (hcard : Erased card) (hc : c.Fresh) (hflag : c.flag = devFlagNextOn)
    (es : List PowerEvent) (hpos : ∀ r ∈ powerWrites es, 0 < r.ts)
    (hmono : (powerWrites es).Pairwise (·.ts < ·.ts))
    (hlap : ∀ pre, pre <+: es → (keptRecords.run pre).records.length < 480000) :
    (∀ r ∈ (keptRecords.run es).records, Readable ((adcPower card c).run es).store r) ∧
      ∀ t buf, 0 < t → (∀ r ∈ (keptRecords.run es).records, r.ts ≠ t) →
        (storageReadAdcData .ok ((adcPower card c).run es).store t 0 buf 125).1 = -1 := by
  obtain ⟨l, q, h⟩ := keeps_run hc hflag es hlap
  have hsublist := records_sublist es
  have hlap := hlap es List.prefix_rfl
  generalize keptRecords.run es = k at h hsublist hlap ⊢
  generalize (adcPower card c).run es = s at h ⊢
  have hlen : l.length = 64 * l.flushed + l.fresh := rfl
  have hlength := h.length
  have hord : l.Ordered := fun i j hij hj => by
    rw [h.slot i (by omega), h.slot j (by omega)]
    exact List.pairwise_iff_getElem.mp (hmono.sublist hsublist) i j _ _ hij
  have hslot : ∀ m < l.length, l.slot m ∈ k.records := fun m hm => by
    rw [h.slot m (by omega)]
    exact List.getElem_mem _
  refine ⟨fun r hr => ?_, fun t buf ht hnever => ?_⟩
  · obtain ⟨m, hm, rfl⟩ := List.getElem_of_mem hr
    rw [← h.slot m hm]
    exact h.represents.all_readable hord h.torn
      (fun m hm => hpos _ (hsublist.subset (hslot m hm))) (.inl (by omega)) (by omega) (by omega)
  · have hnone : s.store.lookup .ok t = none := by
      refine h.represents.lookup_none (fun m hm => hnever _ (hslot m hm)) fun i hi hts => ?_
      have hzero := diskKey_erased hcard hi
      rw [diskKey, hts] at hzero
      exact absurd (UInt32.lt_iff_toNat_lt.mp ht) (by simp [hzero])
    rw [storageReadAdcData_ok, hnone]

end Run

/-- A full index block that is saved, one more second, a power cut, and one second after it. -/
def cutAfterSave : List PowerEvent :=
  (List.range 64).map (fun i => .write ⟨UInt32.ofNat (i + 1), fun _ => zeroBlock⟩) ++
    [.save, .write ⟨65, fun _ => zeroBlock⟩, .cut fun _ _ => 255,
      .write ⟨66, fun _ => zeroBlock⟩]

theorem adcPower_durable_cut :
    let s := (adcPower (fun _ => zeroBlock) .nextOn).run cutAfterSave
    Readable s.store ⟨64, fun _ => zeroBlock⟩ ∧ Readable s.store ⟨66, fun _ => zeroBlock⟩ ∧
      ∀ buf, (storageReadAdcData .ok s.store 65 0 buf 125).1 = -1 := by
  have hrecords : (keptRecords.run cutAfterSave).records =
      (List.range 64).map (fun i => ⟨UInt32.ofNat (i + 1), fun _ => zeroBlock⟩) ++
        [⟨66, fun _ => zeroBlock⟩] := rfl
  have hts : (powerWrites cutAfterSave).map SecondRecord.ts =
      (List.range 66).map fun i => UInt32.ofNat (i + 1) := by decide
  have hmono : ((powerWrites cutAfterSave).map SecondRecord.ts).Pairwise (· < ·) := by
    rw [hts]
    decide
  have hpos : ∀ t ∈ (powerWrites cutAfterSave).map SecondRecord.ts, 0 < t := by
    have hall : ((List.range 66).map fun i => UInt32.ofNat (i + 1)).all (0 < ·) := by decide
    simpa only [hts, List.all_eq_true, decide_eq_true_eq] using hall
  have hlap : ∀ pre, pre <+: cutAfterSave →
      (keptRecords.run pre).records.length < 480000 := fun pre hpre =>
    Nat.lt_of_le_of_lt ((records_sublist pre).length_le.trans
      ((List.length_filterMap_le _ _).trans hpre.length_le)) (by decide)
  obtain ⟨hkept, hlost⟩ := adcPower_durable (show Erased fun _ => zeroBlock from fun _ _ => rfl)
    ConfigInfo.fresh_nextOn rfl cutAfterSave
    (fun r hr => hpos _ (List.mem_map_of_mem hr)) (List.pairwise_map.mp hmono) hlap
  rw [hrecords] at hkept hlost
  refine ⟨hkept _ (List.mem_append_left _ (List.mem_map.mpr ⟨63, by decide, rfl⟩)),
    hkept _ (List.mem_append_right _ List.mem_cons_self), fun buf =>
    hlost 65 buf (by decide) fun r hr => ?_⟩
  have hnever : ∀ t ∈ ((List.range 64).map fun i => UInt32.ofNat (i + 1)) ++ [66], t ≠ 65 := by
    have hall : (((List.range 64).map fun i => UInt32.ofNat (i + 1)) ++ [66]).all (· ≠ 65) := by
      decide
    simpa only [List.all_eq_true, decide_eq_true_eq] using hall
  refine hnever _ ?_
  rcases List.mem_append.mp hr with hr | hr
  · obtain ⟨i, hi, rfl⟩ := List.mem_map.mp hr
    exact List.mem_append_left _ (List.mem_map.mpr ⟨i, hi, rfl⟩)
  · rw [List.mem_singleton.mp hr]
    exact List.mem_append_right _ List.mem_cons_self

end Lsc100
