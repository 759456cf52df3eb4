import Mathlib.Tactic.IntervalCases
import Lsc100.Alarm.Query
import Lsc100.Alarm.Region

/-! The list of alarms and the data of an alarm reach the log on two paths, by
position and by a search for the timestamp. After captures into an erased log
both show the same captures. -/

namespace Lsc100

open Bytes

structure AlarmCapture where
  msg : AlarmMsg
  info : Nat → Nat → UInt8

/-- What `alarm_task` passes to the storage functions. -/
def AlarmCapture.stored (c : AlarmCapture) : Capture := ⟨c.msg.ts, c.msg.byte, c.info⟩

def AlarmCapture.sample (c : AlarmCapture) (k : Nat) : UInt8 := c.info (k / 64000) (k % 64000)

/-- A log that has been cleared. -/
structure Cleared (s : AlarmStore) : Prop where
  atSlot : AtSlot s 0 0
  alarmNum : s.config.alarmNum = 0
  blank : ∀ x, s.flash.cells x = 0xFF

/-- The log holds the captures, each in the slot of its number. -/
structure Listed (s : AlarmStore) (cs : List AlarmCapture) : Prop where
  atSlot : cs.length < 640 → AtSlot s cs.length cs.length
  indexNum : s.alarm.indexNum = cs.length
  alarmNum : s.config.alarmNum.toNat = cs.length
  entry : ∀ i c, cs[i]? = some c → ReadsBack s.flash.cells
    ⟨alarmIndexStartAddr + 16 * i, slotItem i c.msg.ts, 3, c.msg.byte, c.info⟩
  blank : ∀ k, cs.length ≤ k → k < 640 → ∀ x, InSlot k x → s.flash.cells x = 0xFF

theorem Cleared.listed {s : AlarmStore} (h : Cleared s) : Listed s [] :=
  ⟨fun _ => h.atSlot, h.atSlot.indexNum, by rw [h.alarmNum]; rfl, nofun,
    fun _ _ _ x _ => h.blank x⟩

/-- What the slot of a capture reads does not depend on other slots. -/
theorem ReadsBack.congr {cells cells' : Nat → UInt8} {slot : Nat} (hslot : slot < 640)
    {ts : UInt32} {msg : Nat → UInt8} {info : Nat → Nat → UInt8}
    (h : ReadsBack cells ⟨alarmIndexStartAddr + 16 * slot, slotItem slot ts, 3, msg, info⟩)
    (heq : ∀ x, InSlot slot x → cells' x = cells x) :
    ReadsBack cells' ⟨alarmIndexStartAddr + 16 * slot, slotItem slot ts, 3, msg, info⟩ := by
  refine ⟨fun k hk => ?_, fun k hk => ?_, fun j hj k hk => ?_⟩
  · rw [← h.item k hk]
    exact heq _ (inSlot_index (by simp only; omega) (by simp only; omega))
  · rw [← h.msg k hk]
    simp only [slotItem_msgAddr hslot]
    exact heq _ (inSlot_msg (by omega) (by omega))
  · rw [← h.info j hj k hk]
    simp only [slotItem_infoAddr hslot]
    exact heq _ (inSlot_info (Nat.le_of_lt_succ hj) (by omega) (by omega))

theorem Listed.capture {s : AlarmStore} {cs : List AlarmCapture} (h : Listed s cs)
    (hlen : cs.length < 640) (c : AlarmCapture) : Listed (s.capture c.stored) (cs ++ [c]) := by
  have hat := h.atSlot hlen
  have hle : cs.length ≤ 640 := Nat.le_of_lt hlen
  have hnew := hat.capture_readsBack hlen (h.blank _ (Nat.le_refl _) hlen) c.stored
  have hother : ∀ k < 640, k ≠ cs.length → ∀ x, InSlot k x →
      (s.capture c.stored).flash.cells x = s.flash.cells x :=
    fun k hk hne x hx => hat.capture_other hlen hle c.stored hk hne hx
  obtain ⟨hnext, -, hconfig⟩ := hat.capture hle hle c.stored
  have hlength : (cs ++ [c]).length = cs.length + 1 := by simp
  have hnum : min (cs.length + 1) 640 = cs.length + 1 := by omega
  rw [hnum] at hnext hconfig
  refine ⟨fun hlt => ?_, ?_, ?_, fun i c' hi => ?_, fun k hk hk' x hx => ?_⟩
  · rw [hlength] at hlt ⊢
    rwa [nextSlot, if_neg (by omega)] at hnext
  · rw [hlength]
    exact hnext.indexNum
  · rw [hlength, hconfig]
    exact (UInt16.toNat_ofNat').trans (Nat.mod_eq_of_lt (by omega))
  · rcases Nat.lt_or_ge i cs.length with hlt | hge
    · rw [List.getElem?_append_left hlt] at hi
      exact (h.entry i c' hi).congr (by omega) (hother i (by omega) (by omega))
    · rw [List.getElem?_append_right hge] at hi
      have hlast : i - cs.length = 0 := by
        have := (List.getElem?_eq_some_iff.mp hi).1
        rw [List.length_singleton] at this
        omega
      rw [hlast] at hi
      obtain rfl := Option.some.inj hi
      obtain rfl : i = cs.length := by omega
      exact hnew
  · rw [hlength] at hk
    rw [hother k hk' (by omega) x hx]
    exact h.blank k (by omega) hk' x hx

theorem Listed.run {s : AlarmStore} (hs : Cleared s) (cs : List AlarmCapture)
    (hlen : cs.length ≤ 640) :
    Listed ((alarmLog s).run (cs.map fun c => .capture c.stored)) cs := by
  induction cs using List.reverseRecOn with
  | nil => exact hs.listed
  | append_singleton cs c ih =>
    rw [List.length_append, List.length_singleton] at hlen
    rw [List.map_append, List.map_singleton, Machine.run_concat]
    exact (ih (by omega)).capture (by omega) c

def indexEntry (f : Flash) (i : Nat) : AlarmIndexItem :=
  .ofBytes (gd55b01geReadData f (alarmIndexStartAddr + 16 * i))

theorem searchIndex_page (f : Flash) (ts : UInt32) (n num : Nat) :
    searchIndex f ts n num (alarmIndexStartAddr + 16 * num) =
      match (List.range 16).find? (fun k => ts = (indexEntry f (num + k)).timestamp) with
      | some k => some (indexEntry f (num + k))
      | none =>
        if num + 16 < n then searchIndex f ts n (num + 16) (alarmIndexStartAddr + 16 * (num + 16))
        else none := by
  have hentry (k : Nat) : AlarmIndexItem.ofBytes (fun b => gd55b01geReadData f
      (alarmIndexStartAddr + 16 * num) (k * 16 + b)) = indexEntry f (num + k) := by
    rw [indexEntry]
    congr 1
    funext b
    simp only [gd55b01geReadData]
    congr 1
    ring
  have hpre : alarmIndexNumPrePage = 16 := rfl
  have hpage : alarmIndexStartAddr + 16 * num + gd55b01gePageSize =
      alarmIndexStartAddr + 16 * (num + 16) := by
    rw [gd55b01gePageSize]
    ring
  have hsearch := searchIndex.eq_def f ts n num (alarmIndexStartAddr + 16 * num)
  simp only [hentry, hpre, hpage] at hsearch
  exact hsearch

theorem searchIndex_first (f : Flash) {ts : UInt32} {n num i : Nat} (hnum : num ≤ i) (hi : i < n)
    (hmatch : ts = (indexEntry f i).timestamp)
    (hfirst : ∀ j, num ≤ j → j < i → ts ≠ (indexEntry f j).timestamp) :
    searchIndex f ts n num (alarmIndexStartAddr + 16 * num) = some (indexEntry f i) := by
  induction hd : n - num using Nat.strong_induction_on generalizing num with
  | _ d ih =>
    rw [searchIndex_page]
    by_cases hpage : i < num + 16
    · have hfind : (List.range 16).find? (fun k => ts = (indexEntry f (num + k)).timestamp) =
          some (i - num) := by
        rw [List.find?_range_eq_some]
        refine ⟨?_, List.mem_range.mpr (by omega), fun j hj => ?_⟩
        · rw [Nat.add_sub_cancel' hnum]
          exact decide_eq_true hmatch
        · rw [Bool.not_eq_true', decide_eq_false_iff_not]
          exact hfirst (num + j) (by omega) (by omega)
      rw [hfind]
      simp only [Nat.add_sub_cancel' hnum]
    · have hfind : (List.range 16).find? (fun k => ts = (indexEntry f (num + k)).timestamp) =
          none := by
        rw [List.find?_range_eq_none]
        intro j hj
        rw [Bool.not_eq_true', decide_eq_false_iff_not]
        exact hfirst (num + j) (by omega) (by omega)
      rw [hfind]
      simp only
      rw [if_pos (by omega)]
      exact ih (n - (num + 16)) (by omega) (by omega) (fun j hj => hfirst j (by omega)) rfl

theorem searchIndex_none (f : Flash) {ts : UInt32} {n num : Nat} (hnum : num % 16 = 0)
    (hlt : num < 640) (hn : n ≤ 640)
    (hnone : ∀ j, num ≤ j → j < 640 → ts ≠ (indexEntry f j).timestamp) :
    searchIndex f ts n num (alarmIndexStartAddr + 16 * num) = none := by
  induction hd : n - num using Nat.strong_induction_on generalizing num with
  | _ d ih =>
    have hfind : (List.range 16).find? (fun k => ts = (indexEntry f (num + k)).timestamp) =
        none := by
      rw [List.find?_range_eq_none]
      intro j hj
      rw [Bool.not_eq_true', decide_eq_false_iff_not]
      exact hnone (num + j) (by omega) (by omega)
    rw [searchIndex_page, hfind]
    simp only
    by_cases hmore : num + 16 < n
    · rw [if_pos hmore]
      exact ih (n - (num + 16)) (by omega) (by omega) (by omega)
        (fun j hj => hnone j (by omega)) rfl
    · rw [if_neg hmore]

theorem AlarmIndexItem.ofBytes_byte {it : AlarmIndexItem} {b : Nat → UInt8}
    (h : ∀ k < 16, b k = it.byte k) : AlarmIndexItem.ofBytes b = it := by
  have hmsg : leNat 4 b = it.msgAddr.toNat := by
    rw [leNat_congr (c := byteOf it.msgAddr.toNat) (fun k hk => ?_), leNat_byteOf]
    · exact Nat.mod_eq_of_lt it.msgAddr.toNat_lt
    · rw [h k (by omega), byte, if_pos hk]
  have hinfo : leNat 4 (fun k => b (k + 4)) = it.infoAddr.toNat := by
    rw [leNat_congr (c := byteOf it.infoAddr.toNat) (fun k hk => ?_), leNat_byteOf]
    · exact Nat.mod_eq_of_lt it.infoAddr.toNat_lt
    · rw [h (k + 4) (by omega), byte, if_neg (by omega), if_pos (by omega), Nat.add_sub_cancel]
  have hts : leNat 4 (fun k => b (k + 8)) = it.timestamp.toNat := by
    rw [leNat_congr (c := byteOf it.timestamp.toNat) (fun k hk => ?_), leNat_byteOf]
    · exact Nat.mod_eq_of_lt it.timestamp.toNat_lt
    · rw [h (k + 8) (by omega), byte, if_neg (by omega), if_neg (by omega), if_pos (by omega),
        Nat.add_sub_cancel]
  have hrsvd : (fun k : Fin 4 => b (k.val + 12)) = it.rsvd := by
    funext k
    rw [h (k.val + 12) (by omega), byte, if_neg (by omega), if_neg (by omega), if_neg (by omega),
      Nat.add_sub_cancel, Fin.ofNat_val_eq_self]
  rw [ofBytes, hmsg, hinfo, hts, hrsvd, UInt32.ofNat_toNat, UInt32.ofNat_toNat,
    UInt32.ofNat_toNat]

theorem AlarmDataRun.read_ok {s : AlarmStore} {ts : UInt32} {r : AlarmDataRun}
    {buf : Nat → UInt8} (hread : storageReadAlarmInfo true s ts r.off r.buf 12800 = (0, buf)) :
    (r.read true s ts).off = r.off + 12800 ∧ (r.read true s ts).currIndex = r.currIndex + 4 ∧
      (r.read true s ts).sent = r.sent ++
        [alarmDataFram r.currIndex (.load buf 0), alarmDataFram (r.currIndex + 1) (.load buf 1),
          alarmDataFram (r.currIndex + 2) (.load buf 2),
          alarmDataFram (r.currIndex + 3) (.load buf 3)] := by
  have hrange : List.range 4 = [0, 1, 2, 3] := rfl
  simp only [read, hread, hrange, List.foldl_cons, List.foldl_nil, pack, if_true,
    List.append_assoc, List.singleton_append, Nat.add_assoc, Nat.reduceAdd]
  exact ⟨trivial, trivial, rfl⟩

/-- The search for `ts` finds an entry that points to the capture. -/
def StoredCapture (s : AlarmStore) (ts : UInt32) (sample : Nat → UInt8) : Prop :=
  ∃ item, searchIndex s.flash ts s.alarm.indexNum 0 alarmIndexStartAddr = some item ∧
    item.infoAddr.toNat + 192000 ≤ 2 ^ 32 ∧
    ∀ k < 192000, s.flash.cells (item.infoAddr.toNat + k) = sample k

theorem StoredCapture.read {s : AlarmStore} {ts : UInt32} {sample : Nat → UInt8}
    (h : StoredCapture s ts sample) {off len : Nat} (hfit : off + len ≤ 192000)
    (data : Nat → UInt8) :
    storageReadAlarmInfo true s ts off data len =
      (0, Overlay.overlay (fun _ x => x) data 0 len fun k => sample (off + k)) := by
  obtain ⟨item, hfind, haddr, hsample⟩ := h
  rw [storageReadAlarmInfo, if_pos rfl, hfind]
  refine congrArg (Prod.mk (0 : Int)) (Overlay.overlay_congr _ _ fun k hk => ?_)
  have hmod : (item.infoAddr.toNat + off) % 2 ^ 32 = item.infoAddr.toNat + off :=
    Nat.mod_eq_of_lt (by omega)
  rw [← hsample _ (by omega), hmod, gd55b01geReadData, Nat.add_assoc]

namespace Listed

variable {s : AlarmStore} {cs : List AlarmCapture} {i : Nat} {c : AlarmCapture}

theorem indexEntry (h : Listed s cs) (hi : cs[i]? = some c) :
    indexEntry s.flash i = slotItem i c.msg.ts :=
  AlarmIndexItem.ofBytes_byte (h.entry i c hi).item

/-- An erased entry has the timestamp no capture may have. -/
theorem indexEntry_blank (h : Listed s cs) (hi : cs.length ≤ i) (hlt : i < 640) :
    (Lsc100.indexEntry s.flash i).timestamp = 0xFFFFFFFF := by
  have hff : leNat 4 (fun k => gd55b01geReadData s.flash (alarmIndexStartAddr + 16 * i) (k + 8)) =
      leNat 4 (fun _ => 0xFF) :=
    leNat_congr fun k hk => h.blank i hi hlt _ (inSlot_index (by omega) (by omega))
  simp only [Lsc100.indexEntry, AlarmIndexItem.ofBytes, hff]
  rfl

theorem readMsg (h : Listed s cs) (hlen : cs.length ≤ 640) (hi : cs[i]? = some c)
    (data : Nat → UInt8) :
    AlarmMsg.ofBytes (storageReadAlarmMsg true s i data 1).2 = c.msg := by
  have hlt := (List.getElem?_eq_some_iff.mp hi).1
  refine AlarmMsg.ofBytes_byte fun k hk => ?_
  have hmsg := (h.entry i c hi).msg k hk
  simp only [slotItem_msgAddr (show i < 640 by omega)] at hmsg
  rw [storageReadAlarmMsg, if_pos rfl, alarmMsgSize, alarmMsgStartAddr]
  simp only
  rw [Overlay.overlay_in _ _ _ (Nat.zero_le k) (by omega), Nat.sub_zero, gd55b01geReadData,
    ← hmsg]
  congr 1
  omega

theorem ktAlarmInfoFrom (h : Listed s cs) (hlen : cs.length ≤ 640) (packs : Nat) {n i : Nat}
    (hn : i + n = cs.length) (alarm : Nat → UInt8) :
    ktAlarmInfoFrom (fun _ => true) s packs n i alarm =
      (cs.drop i).mapIdx fun j c => alarmInfoFram packs (i + j) c.msg := by
  induction n generalizing i alarm with
  | zero =>
    rw [List.drop_of_length_le (by omega)]
    rfl
  | succ n ih =>
    obtain ⟨c, hc⟩ : ∃ c, cs[i]? = some c := ⟨_, List.getElem?_eq_getElem (by omega)⟩
    obtain ⟨hlt, hget⟩ := List.getElem?_eq_some_iff.mp hc
    rw [Lsc100.ktAlarmInfoFrom, ih (by omega), h.readMsg hlen hc, List.drop_eq_getElem_cons hlt,
      List.mapIdx_cons, hget]
    simp only [Nat.add_zero, Nat.add_assoc, Nat.add_comm 1]

theorem ktAlarmInfo (h : Listed s cs) (hlen : cs.length ≤ 640) :
    ktAlarmInfo (fun _ => true) s =
      cs.mapIdx fun i c => alarmInfoFram cs.length i c.msg := by
  rw [Lsc100.ktAlarmInfo, h.alarmNum, h.ktAlarmInfoFrom hlen _ (Nat.zero_add _)]
  simp only [List.drop_zero, Nat.zero_add]

theorem searchIndex (h : Listed s cs) (hdistinct : cs.Pairwise fun a b => a.msg.ts ≠ b.msg.ts)
    (hi : cs[i]? = some c) :
    searchIndex s.flash c.msg.ts s.alarm.indexNum 0 alarmIndexStartAddr =
      some (slotItem i c.msg.ts) := by
  obtain ⟨hlt, hget⟩ := List.getElem?_eq_some_iff.mp hi
  have hmatch : c.msg.ts = (Lsc100.indexEntry s.flash i).timestamp := by
    rw [h.indexEntry hi]
    rfl
  rw [← h.indexEntry hi, h.indexNum]
  refine searchIndex_first s.flash (Nat.zero_le i) hlt hmatch fun j _ hj => ?_
  have hne := List.pairwise_iff_getElem.mp hdistinct j i (by omega) hlt hj
  rw [h.indexEntry (List.getElem?_eq_getElem (show j < cs.length by omega))]
  rw [hget] at hne
  exact hne.symm

theorem searchIndex_none (h : Listed s cs) (hlen : cs.length ≤ 640) {ts : UInt32}
    (hts : ts ≠ 0xFFFFFFFF) (hnone : ∀ c ∈ cs, c.msg.ts ≠ ts) :
    Lsc100.searchIndex s.flash ts s.alarm.indexNum 0 alarmIndexStartAddr = none := by
  rw [h.indexNum]
  refine Lsc100.searchIndex_none s.flash rfl (by decide) hlen fun j _ hj => ?_
  rcases Nat.lt_or_ge j cs.length with hlt | hge
  · rw [h.indexEntry (List.getElem?_eq_getElem hlt)]
    exact (hnone _ (List.getElem_mem hlt)).symm
  · rwa [h.indexEntry_blank hge hj]

/-- The captures of a log are stored, each under its own timestamp. -/
theorem storedCapture (h : Listed s cs) (hlen : cs.length ≤ 640)
    (hdistinct : cs.Pairwise fun a b => a.msg.ts ≠ b.msg.ts) (hi : cs[i]? = some c) :
    StoredCapture s c.msg.ts c.sample := by
  obtain ⟨hlt, -⟩ := List.getElem?_eq_some_iff.mp hi
  have hstart : alarmInfoStartAddr = 20480 := rfl
  have hslot : i < 640 := by omega
  refine ⟨slotItem i c.msg.ts, h.searchIndex hdistinct hi, ?_, fun k hk => ?_⟩
  · rw [slotItem_infoAddr hslot]
    omega
  · have hseg : k / 64000 < 3 := by omega
    have hinfo := (h.entry i c hi).info (k / 64000) hseg (k % 64000)
      (Nat.mod_lt _ (by decide))
    rw [slotItem_infoAddr hslot] at hinfo ⊢
    refine Eq.trans ?_ hinfo
    congr 1
    have := Nat.div_add_mod k 64000
    omega

/-- After `n` successful reads, four frames have been sent for each. -/
structure Sent (r : AlarmDataRun) (c : AlarmCapture) (n : Nat) : Prop where
  off : r.off = 12800 * n
  currIndex : r.currIndex = 4 * n
  sent : r.sent = (List.range (4 * n)).map fun p => alarmDataFram p (.load c.sample p)

theorem sent_read (h : Listed s cs) (hlen : cs.length ≤ 640)
    (hdistinct : cs.Pairwise fun a b => a.msg.ts ≠ b.msg.ts) (hi : cs[i]? = some c)
    {r : AlarmDataRun} {n : Nat} (hn : n < 15) (hr : Sent r c n) :
    Sent (r.read true s c.msg.ts) c (n + 1) := by
  have hread := (h.storedCapture hlen hdistinct hi).read (show r.off + 12800 ≤ 192000 by
    rw [hr.off]
    omega) r.buf
  obtain ⟨buf, hbuf⟩ : ∃ buf, buf = Overlay.overlay (fun _ x => x) r.buf 0 12800
    fun k => c.sample (r.off + k) := ⟨_, rfl⟩
  have hload (num : Nat) (hnum : num < 4) :
      AlarmDataRes.load buf num = .load c.sample (4 * n + num) := by
    refine AlarmDataRes.load_congr fun k hk => ?_
    rw [hbuf, Overlay.overlay_in _ _ _ (Nat.zero_le _) (by omega), hr.off]
    congr 1
    omega
  rw [← hbuf] at hread
  obtain ⟨hoff, hcurr, hsent⟩ := AlarmDataRun.read_ok hread
  refine ⟨?_, ?_, ?_⟩
  · rw [hoff, hr.off]
    omega
  · rw [hcurr, hr.currIndex]
    omega
  · rw [hsent, hr.sent, hr.currIndex, hload 0 (by decide), hload 1 (by decide),
      hload 2 (by decide), hload 3 (by decide), Nat.mul_succ, List.range_add, List.map_append]
    rfl

theorem ktAlarmData (h : Listed s cs) (hlen : cs.length ≤ 640)
    (hdistinct : cs.Pairwise fun a b => a.msg.ts ≠ b.msg.ts) (hi : cs[i]? = some c)
    (gBuf : Nat → UInt8) {arg : Nat → UInt8}
    (harg : (SystemTime.ofBytes fun k => arg (msgFramHdrSize + k)).timestamp = c.msg.ts) :
    (ktAlarmData (fun _ => true) s gBuf arg).sent =
      (List.range 60).map fun p => alarmDataFram p (.load c.sample p) := by
  have hsteps : ∀ n ≤ 15, Sent ((List.range n).foldl (fun r _ => r.read true s c.msg.ts)
      ⟨gBuf, ⟨⟨0, 0, 0, 0, 0, 0⟩, 0, 0, fun _ _ => 0⟩, 0, 0, []⟩) c n := by
    intro n hn
    induction n with
    | zero => exact ⟨rfl, rfl, rfl⟩
    | succ n ih =>
      rw [List.range_succ, List.foldl_append, List.foldl_cons, List.foldl_nil]
      exact h.sent_read hlen hdistinct hi (by omega) (ih (by omega))
  rw [Lsc100.ktAlarmData]
  simp only [harg]
  exact (hsteps 15 (Nat.le_refl 15)).sent

end Listed

theorem alarmInfoFram_time (packs i : Nat) (m : AlarmMsg) {k : Nat} (hk : k < 6) :
    memoryOf (alarmInfoFram packs i m) (9 + k) = m.time.bytes.getD k 0 := by
  interval_cases k <;> rfl

/-- From a cleared log on, the list shows every capture in its place; asking for
the time shown there delivers what was captured; and a timestamp of no capture
is not found. -/
theorem alarmLog_list_data (s₀ : AlarmStore) (cs : List AlarmCapture) (hs : Cleared s₀)
    (hlen : cs.length ≤ alarmItemTotalNum)
    (hdistinct : cs.Pairwise fun a b => a.msg.ts ≠ b.msg.ts)
    (htime : ∀ c ∈ cs, c.msg.time.timestamp = c.msg.ts) :
    let s := (alarmLog s₀).run (cs.map fun c => .capture c.stored)
    ktAlarmInfo (fun _ => true) s = cs.mapIdx (fun i c => alarmInfoFram cs.length i c.msg) ∧
      (∀ (i : Nat) (c : AlarmCapture) (fram : List UInt8), cs[i]? = some c →
        (ktAlarmInfo (fun _ => true) s)[i]? = some fram →
        ∀ arg : Nat → UInt8, (∀ k < 6, arg (msgFramHdrSize + k) = memoryOf fram (9 + k)) →
          (∀ off len data, off + len ≤ 192000 →
            storageReadAlarmInfo true s
              (SystemTime.ofBytes fun k => arg (msgFramHdrSize + k)).timestamp off data len =
              (0, Overlay.overlay (fun _ x => x) data 0 len fun k => c.sample (off + k))) ∧
          ∀ gBuf, (ktAlarmData (fun _ => true) s gBuf arg).sent =
            (List.range 60).map fun p => alarmDataFram p (.load c.sample p)) ∧
      ∀ ts off data len, ts ≠ 0xFFFFFFFF → (∀ c ∈ cs, c.msg.ts ≠ ts) →
        storageReadAlarmInfo true s ts off data len = (-1, data) := by
  intro s
  have hlisted : Listed s cs := Listed.run hs cs hlen
  refine ⟨hlisted.ktAlarmInfo hlen, fun i c fram hi hfram arg harg => ?_,
    fun ts off data len hts hnone => ?_⟩
  · rw [hlisted.ktAlarmInfo hlen, List.getElem?_mapIdx, hi] at hfram
    obtain rfl := Option.some.inj hfram
    have hreq : (SystemTime.ofBytes fun k => arg (msgFramHdrSize + k)).timestamp = c.msg.ts := by
      rw [SystemTime.ofBytes_eq fun k hk => (harg k hk).trans (alarmInfoFram_time _ i c.msg hk),
        htime c (List.mem_of_getElem? hi)]
    exact ⟨fun off len data hfit => hreq ▸ (hlisted.storedCapture hlen hdistinct hi).read hfit data,
      fun gBuf => hlisted.ktAlarmData hlen hdistinct hi gBuf hreq⟩
  · rw [storageReadAlarmInfo, if_pos rfl, hlisted.searchIndex_none hlen hts hnone]

theorem Cleared.clear {s : AlarmStore} (hrsvd : s.alarm.indexItem.rsvd = fun _ => 0) :
    Cleared (storageClearAlarmData true { s with config := s.config.cleared }) :=
  ⟨⟨rfl, rfl, rfl, rfl, hrsvd⟩, rfl, fun _ => rfl⟩

theorem Cleared.boot : Cleared (.boot .nextOn) := ⟨.boot rfl rfl, rfl, fun _ => rfl⟩

/-- An alarm of 27 March 2026, 08:50. -/
def firstAlarm : AlarmCapture :=
  ⟨⟨⟨0x26, 0x03, 0x27, 0x08, 0x50, 0x00⟩, 1774601400, 7, busAlarmFrontVol, fun _ => 0⟩,
    fun j _ => UInt8.ofNat j⟩

/-- A minute and 40 seconds later. -/
def secondAlarm : AlarmCapture :=
  ⟨⟨⟨0x26, 0x03, 0x27, 0x08, 0x51, 0x40⟩, 1774601500, 8, busAlarmRearVol, fun _ => 0⟩,
    fun j _ => UInt8.ofNat (j + 3)⟩

/-- The last second of the year. -/
def thirdAlarm : AlarmCapture :=
  ⟨⟨⟨0x26, 0x12, 0x31, 0x23, 0x59, 0x59⟩, 1798761599, 9, busAlarmFrontRearVol, fun _ => 0⟩,
    fun _ k => UInt8.ofNat k⟩

def threeAlarms : AlarmStore :=
  (alarmLog (.boot .nextOn)).run
    ([firstAlarm, secondAlarm, thirdAlarm].map fun c => .capture c.stored)

/-- The host asks for the time the second list frame shows. -/
def secondAlarmReq (k : Nat) : UInt8 :=
  memoryOf (alarmInfoFram 3 1 secondAlarm.msg) (9 + (k - msgFramHdrSize))

theorem alarmLog_list_data_three :
    ktAlarmInfo (fun _ => true) threeAlarms = [alarmInfoFram 3 0 firstAlarm.msg,
        alarmInfoFram 3 1 secondAlarm.msg, alarmInfoFram 3 2 thirdAlarm.msg] ∧
      (ktAlarmData (fun _ => true) threeAlarms (fun _ => 0) secondAlarmReq).sent =
        (List.range 60).map (fun p => alarmDataFram p (.load secondAlarm.sample p)) ∧
      storageReadAlarmInfo true threeAlarms 1774601501 0 (fun _ => 0) 64000 =
        (-1, fun _ => 0) := by
  obtain ⟨hlist, hdata, hforeign⟩ := alarmLog_list_data (.boot .nextOn)
    [firstAlarm, secondAlarm, thirdAlarm] .boot (Nat.le_of_ble_eq_true rfl) (by decide)
    (by decide +kernel)
  have hsecond := hdata 1 secondAlarm (alarmInfoFram 3 1 secondAlarm.msg) rfl
    (by rw [hlist]; rfl) secondAlarmReq fun k _ => by rw [secondAlarmReq, Nat.add_sub_cancel_left]
  exact ⟨hlist, hsecond.2 fun _ => 0, hforeign _ _ _ _ (by decide) (by decide)⟩

end Lsc100
