import Mathlib.Data.List.Nodup
import Lsc100.Adc.Complete

/-! When a read delivers what was written for its second. Data blocks are
rewritten at once and their index entry only with the next full index block, so
up to 63 entries of the oldest index block name data that is no longer theirs. -/

namespace Lsc100

open Overlay

/-- The data of the latest write for second `t`. -/
def latestWrite (es : List AdcEvent) (t : UInt32) : Option Blocks :=
  ((writes es).reverse.find? (fun r => r.ts = t)).map SecondRecord.data

/-- Every successful read delivers the latest record of its second. -/
def SoundReads (s : AdcStore) (es : List AdcEvent) : Prop :=
  ∀ t buf, (storageReadAdcData .ok s t 0 buf 125).1 = 0 → ∃ d, latestWrite es t = some d ∧
    ∀ i < 125, (storageReadAdcData .ok s t 0 buf 125).2 i = d i

theorem latestWrite_of_mem {es : List AdcEvent} {r : SecondRecord}
    (hmono : (writes es).Pairwise (·.ts < ·.ts)) (hr : r ∈ writes es) :
    latestWrite es r.ts = some r.data := by
  have hnodup : ((writes es).map SecondRecord.ts).Nodup :=
    List.pairwise_map.mpr (hmono.imp UInt32.ne_of_lt)
  cases hfind : (writes es).reverse.find? (fun r' => r'.ts = r.ts) with
  | none => simpa using List.find?_eq_none.mp hfind r (List.mem_reverse.mpr hr)
  | some r' =>
    have hmem := List.mem_reverse.mp (List.mem_of_find?_eq_some hfind)
    have hts : r'.ts = r.ts := by simpa using List.find?_some hfind
    rw [latestWrite, hfind, List.inj_on_of_nodup_map hnodup hmem hr hts, Option.map_some]

namespace Represents

variable {rest : Emmc} {s : AdcStore} {l : AdcLog} {t : UInt32} {buf : Blocks}

/-- The position whose record a successful read delivers, unless it stopped at
an entry whose data has been overwritten. -/
theorem read_current (h : Represents rest s l) (hord : l.Ordered) (hrest : Erased rest)
    (hcond : l.flushed < 7500 ∨ 10 ≤ l.flushed % 7500 ∨ l.torn = 0)
    (hret : (storageReadAdcData .ok s t 0 buf 125).1 = 0) :
    ∃ m < 64 * l.flushed + l.torn, (l.slot m).ts = t ∧
      ∀ i < 125, (storageReadAdcData .ok s t 0 buf 125).2 i = (l.slot m).data i := by
  have hlap := Nat.mod_le l.flushed 7500
  have hmod := Nat.mod_lt l.flushed (by decide : 0 < 7500)
  have hlen : l.length = 64 * l.flushed + l.fresh := rfl
  have hfresh := l.fresh_le_torn
  have hlt := l.torn_lt
  have hstart : l.lapStart = 64 * (l.flushed - l.flushed % 7500) := rfl
  obtain ⟨it, hlook⟩ := storageReadAdcData_ret.mp hret
  have hread : ∀ m, (l.slot m).ts = t → it = l.item m → m < 64 * l.flushed + l.torn →
      64 * l.flushed + l.torn ≤ m + 480000 → ∃ m < 64 * l.flushed + l.torn, (l.slot m).ts = t ∧
        ∀ i < 125, (storageReadAdcData .ok s t 0 buf 125).2 i = (l.slot m).data i := by
    intro m hts hit hm hm'
    exact ⟨m, hm, hts, (h.read_slot hlook (hit ▸ l.item_addr m) hm hm').2⟩
  rcases h.lookup_some hlook with ⟨i, hi, hts, hit⟩ | ⟨k, hscan, hit⟩
  · exact hread _ hts hit (by omega) (by omega)
  · obtain ⟨hkey, -, hk, hbefore⟩ := GroupScan.scan_some hscan
    have hts : ∀ m, diskItem s.emmc k = l.item m → (l.slot m).ts = t := fun m hm => by
      rw [diskKey, hm, AdcLog.item] at hkey
      exact UInt32.toNat_inj.mp hkey
    rcases Nat.lt_or_ge k (64 * (l.flushed % 7500)) with hnew | hold
    · have hm := h.diskItem_new hnew
      exact hread _ (hts _ hm) (hit.trans hm) (by omega) (by omega)
    · have hq : 7500 ≤ l.flushed := by
        by_contra hq
        rw [AdcLog.indexBlocks, if_pos (by omega)] at hk
        rw [Nat.mod_eq_of_lt (by omega)] at hold
        omega
      rcases Nat.lt_or_ge k 480000 with hin | hpast
      · have hm := h.diskItem_old hq hold hin
        rcases Nat.lt_or_ge k (64 * (l.flushed % 7500) + l.torn) with hstale | hlive
        · -- the first group has been rewritten, and ends above every old entry
          have hfirst := hbefore 0 (by omega)
          rw [diskKey, h.diskItem_new (by omega), AdcLog.item_timestamp, ← hts _ hm] at hfirst
          have := hord.toNat_lt (i := l.lapStart + k - 480000)
            (j := l.lapStart + (0 + 640 * (0 + 1) - 1)) (by omega) (by omega)
          omega
        · exact hread _ (hts _ hm) (hit.trans hm) (by omega) (by omega)
      · rw [diskKey, h.diskItem_past hpast, ← diskKey, diskKey_erased hrest hpast] at hkey
        have hfirst := hbefore 0 (by omega)
        omega

/-- In the first ten blocks of a later lap, the oldest entry of the block to be
rewritten next is found, and its data blocks hold the first record since the
last flush. -/
theorem read_stale (h : Represents rest s l) (hord : l.Ordered) (hq : 7500 ≤ l.flushed)
    (hc : l.flushed % 7500 < 10) (htorn : 0 < l.torn)
    (hpos : 0 < (l.slot (64 * l.flushed - 480000)).ts) (buf : Blocks) :
    (storageReadAdcData .ok s (l.slot (64 * l.flushed - 480000)).ts 0 buf 125).1 = 0 ∧
      ∀ i < 125, (storageReadAdcData .ok s (l.slot (64 * l.flushed - 480000)).ts 0 buf 125).2 i =
        (l.slot (64 * l.flushed)).data i := by
  have hlap := Nat.mod_le l.flushed 7500
  have hlt := l.torn_lt
  have hlen : l.length = 64 * l.flushed + l.fresh := rfl
  have hstart : l.lapStart = 64 * (l.flushed - l.flushed % 7500) := rfl
  have hblocks : 7500 ≤ AdcLog.indexBlocks l.flushed := by
    rw [AdcLog.indexBlocks, if_neg (by omega)]
    omega
  have hitem := h.diskItem_old (i := 64 * (l.flushed % 7500)) hq (Nat.le_refl _) (by omega)
  rw [show l.lapStart + 64 * (l.flushed % 7500) - 480000 = 64 * l.flushed - 480000 by omega]
    at hitem
  have hlast : (l.slot (64 * l.flushed - 480000)).ts.toNat ≤
      diskKey s.emmc (min (0 + 640) (64 * AdcLog.indexBlocks l.flushed) - 1) := by
    rw [show min (0 + 640) (64 * AdcLog.indexBlocks l.flushed) - 1 = 639 by omega, diskKey,
      h.diskItem_old hq (by omega) (by decide), AdcLog.item]
    exact Nat.le_of_lt (hord.toNat_lt (by omega) (by omega))
  have hscan : GroupScan.scan (diskKey s.emmc) (l.slot (64 * l.flushed - 480000)).ts.toNat
      (64 * AdcLog.indexBlocks l.flushed) 640 (by decide) 0 = some (64 * (l.flushed % 7500)) := by
    rw [GroupScan.scan_hit (by omega) hlast, List.find?_range'_eq_some, List.mem_range'_1]
    refine ⟨?_, ⟨by omega, by omega⟩, fun j _ hj => ?_⟩
    · simp [diskKey, hitem]
    · have hlt := hord.toNat_lt (i := 64 * l.flushed - 480000) (j := l.lapStart + j)
        (by omega) (by omega)
      rw [diskKey, h.diskItem_new hj, AdcLog.item_timestamp]
      simp [Nat.ne_of_gt hlt]
  have hlook := h.lookup_disk hpos (hord.lt_fresh (by omega))
  rw [hscan, Option.map_some, hitem] at hlook
  refine h.read_slot hlook ?_ (by omega) (by omega)
  rw [AdcLog.item_addr]
  omega

end Represents

/-- In every run, as long as the index block to be rewritten next still
describes its data or lies behind the first ten of a lap in progress, reads are
sound; otherwise some read delivers another second. -/
theorem storageReadAdcData_sound (e : Emmc) (c : ConfigInfo) (es : List AdcEvent)
    (he : Erased e) (hc : c.Fresh) (hflag : c.flag = devFlagNextOn)
    (hmono : (writes es).Pairwise (·.ts < ·.ts)) :
    (((adcRecorder (.boot e c)).run es).adc.blockNum < adcIndexBlockNum ∨
        10 ≤ ((adcRecorder (.boot e c)).run es).adc.currBlock ∨ (adcLog.run es).torn = 0 →
      SoundReads ((adcRecorder (.boot e c)).run es) es) ∧
    (¬ (((adcRecorder (.boot e c)).run es).adc.blockNum < adcIndexBlockNum ∨
        10 ≤ ((adcRecorder (.boot e c)).run es).adc.currBlock ∨ (adcLog.run es).torn = 0) →
      (∀ r ∈ writes es, 0 < r.ts) →
      ∃ t t' d, t ≠ t' ∧ latestWrite es t' = some d ∧ ∀ buf,
        (storageReadAdcData .ok ((adcRecorder (.boot e c)).run es) t 0 buf 125).1 = 0 ∧
        ∀ i < 125, (storageReadAdcData .ok ((adcRecorder (.boot e c)).run es) t 0 buf 125).2 i =
          d i) := by
  obtain ⟨hrep, -⟩ := represents_run (e := e) hflag hc es
  have hlog := logOf_run hmono
  generalize adcLog.run es = l at hrep hlog ⊢
  generalize (adcRecorder (.boot e c)).run es = s at hrep ⊢
  have hmod := Nat.mod_lt l.flushed (by decide : 0 < 7500)
  have hblocks : s.adc.blockNum < 7500 ↔ l.flushed < 7500 := by
    rw [hrep.blockNum, AdcLog.indexBlocks]
    split <;> omega
  rw [adcIndexBlockNum_eq, hblocks, hrep.currBlock, adcIndexBlockNum_eq]
  constructor
  · intro hcond t buf hret
    obtain ⟨m, hm, hts, hdata⟩ := hrep.read_current hlog.ordered he hcond hret
    exact ⟨(l.slot m).data, hts ▸ latestWrite_of_mem hmono (hlog.mem m hm), hdata⟩
  · intro hcond hpos
    have htorn : 0 < l.torn := by omega
    have hold : 64 * l.flushed - 480000 < 64 * l.flushed + l.torn := by omega
    have hnewer := hlog.torn_newer (64 * l.flushed - 480000) (by omega) (64 * l.flushed)
      (Nat.le_refl _) (by omega)
    exact ⟨(l.slot (64 * l.flushed - 480000)).ts, (l.slot (64 * l.flushed)).ts,
      (l.slot (64 * l.flushed)).data, UInt32.ne_of_lt hnewer,
      latestWrite_of_mem hmono (hlog.mem _ (by omega)),
      fun buf => hrep.read_stale hlog.ordered (by omega) (by omega) htorn
        (hpos _ (hlog.mem _ hold)) buf⟩

/-- A hundred seconds, a restart that loses the last 36 of them, and two more. -/
def acrossReboot : List AdcEvent :=
  (steadySeconds ownData 100).map .write ++
    [.reboot, .write ⟨200, ownData 200⟩, .write ⟨201, ownData 201⟩]

theorem storageReadAdcData_sound_acrossReboot :
    SoundReads ((adcRecorder (.boot (fun _ => zeroBlock) .nextOn)).run acrossReboot)
      acrossReboot :=
  (storageReadAdcData_sound (fun _ => zeroBlock) .nextOn acrossReboot (fun _ _ => rfl)
    ConfigInfo.fresh_nextOn rfl (by decide +kernel)).1 (.inl (by decide +kernel))

/-- After one to 63 records of the second lap, reading the very first second
delivers a record of that lap. -/
theorem not_sound_steadySeconds {data : Nat → Blocks} {n : Nat} (hn : 480000 < n)
    (hn' : n < 480064) (hdata : data 480000 0 ≠ data 0 0) :
    ¬ SoundReads ((adcRecorder (.boot (fun _ => zeroBlock) .nextOn)).run
      ((steadySeconds data n).map .write)) ((steadySeconds data n).map .write) := by
  intro hsound
  have hpos := steadySeconds_pos data (n := n) (by omega)
  have hmono : (writes ((steadySeconds data n).map .write)).Pairwise (·.ts < ·.ts) := by
    rw [writes_map_write]
    exact steadySeconds_mono data (by omega)
  have hrep := represents_run_writes (e := fun _ => zeroBlock) ConfigInfo.fresh_nextOn
    (steadySeconds data n)
  have hlog := logOf_run hmono
  obtain ⟨hlength, htorn, hslot⟩ := adcLog_writes (steadySeconds data n)
  rw [writes_map_write] at hlog
  rw [steadySeconds_length] at hlength
  have hget : ∀ k, k < n → (adcLog.run ((steadySeconds data n).map .write)).slot k =
      ⟨UInt32.ofNat (k + 1), data k⟩ := fun k hk => by
    rw [hslot k (by rwa [steadySeconds_length])]
    simp [steadySeconds]
  generalize adcLog.run ((steadySeconds data n).map .write) = l at hrep hlog hlength htorn hget
  have hlen : l.length = 64 * l.flushed + l.fresh := rfl
  have hlt := l.torn_lt
  have hq : l.flushed = 7500 := by omega
  have hstale := hrep.read_stale hlog.ordered (by omega) (by rw [hq]; decide) (by omega)
    (hpos _ (hlog.mem _ (by omega))) (fun _ => zeroBlock)
  rw [hq, hget 0 (by omega), hget 480000 (by omega)] at hstale
  obtain ⟨d, hd, hread⟩ := hsound _ _ hstale.1
  have hmem : (⟨UInt32.ofNat (0 + 1), data 0⟩ : SecondRecord) ∈
      writes ((steadySeconds data n).map .write) := by
    rw [writes_map_write, ← hget 0 (by omega)]
    exact hlog.mem 0 (by omega)
  rw [latestWrite_of_mem hmono hmem, Option.some.injEq] at hd
  have hsame := (hstale.2 0 (by decide)).symm.trans (hread 0 (by decide))
  rw [← hd] at hsame
  exact hdata hsame

/-- After 480001 seconds, the read of the first one delivers the last one. -/
theorem storageReadAdcData_unsound_second_lap :
    ¬ SoundReads ((adcRecorder (.boot (fun _ => zeroBlock) .nextOn)).run
      ((steadySeconds (fun k _ _ => if k < 480000 then 0 else 1) 480001).map .write))
      ((steadySeconds (fun k _ _ => if k < 480000 then 0 else 1) 480001).map .write) :=
  not_sound_steadySeconds (by decide) (by decide) fun h => absurd (congrFun h 0) (by decide)

end Lsc100
