import Mathlib.Data.List.Basic
import Lsc100.Alarm.Task

/-! What one capture writes. The sender picks the second from `index` and the
receiver moves `index` on, so a capture is exact as long as every message that
is acted on is for the second it is due for, and nothing ends or begins while a
second is being written. -/

namespace Lsc100

/-- The first `k` seconds from `ts` on, as they are programmed. -/
def secondWrites (records : UInt32 → Nat → UInt8) (ts : UInt32) (addr : Nat → Nat) (k : Nat) :
    List FlashOp :=
  (List.range k).map fun j => .write (addr j) (records (ts + UInt32.ofNat j)) adcDataSize

/-- Three seconds once each and in order, one index entry, and one more counted. -/
def EndedCapture.Exact (records : UInt32 → Nat → UInt8) (e : EndedCapture) : Prop :=
  ∃ addr indexAddr item,
    e.ops = secondWrites records e.alarmTs addr 3 ++
      [.write indexAddr (AlarmIndexItem.byte item) alarmIndexItemSize] ∧
    item.timestamp = e.alarmTs + 1 ∧
    (e.numBefore < alarmItemTotalNum → e.numAfter = e.numBefore + 1)

/-- `alarm_task` has read a second and not yet written it. -/
def AlarmPc.writing : AlarmPc → Bool
  | .load | .incr _ | .args | .write _ _ => true
  | _ => false

namespace AlarmSystem

/-- The second that is read is the one that is due, the message of the alarm has
been stored, and the second gets written. -/
def SecondSafe (s : AlarmSystem) (lock ok : Bool) : AlarmPc → Prop
  | .read msg => ok = true → s.notify.index < 3 ∧
      msg.ts = s.notify.alarmTs + s.notify.index.toUInt32 ∧
      s.store.alarm.indexItem.timestamp = s.notify.alarmTs + 1
  | .write _ _ => lock = true
  | _ => True

/-- While a capture is open, every second is safe; captures begin and end between
two seconds. -/
def ExactSafe (bootTs : UInt32) (s : AlarmSystem) : TaskEvent → Prop
  | .check lock item => s.notify.Raises lock bootTs s.store.config item → s.pc.writing = false
  | .save lock => lock = true → 3 ≤ s.notify.index → s.notify.saveSta = .strSave →
      s.pc.writing = false
  | .alarmTask lock ok => s.notify.saveSta = .strSave → s.SecondSafe lock ok s.pc
  | _ => True

instance (s : AlarmSystem) (lock ok : Bool) (pc : AlarmPc) : Decidable (s.SecondSafe lock ok pc) :=
  match pc with
  | .read _ => inferInstanceAs (Decidable (_ → _))
  | .write _ _ => inferInstanceAs (Decidable (lock = true))
  | .wait | .drain | .relay _ | .led _ | .store _ | .load | .incr _ | .args => isTrue trivial

instance (bootTs : UInt32) (s : AlarmSystem) (e : TaskEvent) : Decidable (ExactSafe bootTs s e) :=
  match e with
  | .check _ _ | .save _ | .alarmTask _ _ => inferInstanceAs (Decidable (_ → _))
  | .clear _ _ | .tick _ => isTrue trivial

/-- `Storage_Write_AlarmInfo` refuses the second. -/
def Refuses (s : AlarmSystem) (lock : Bool) : AlarmPc → Prop
  | .write ts _ => lock = true → ts ≠ s.store.alarm.indexItem.timestamp
  | _ => True

/-- With no capture open, no second is written for the last one any more. -/
def LateSafe (s : AlarmSystem) : TaskEvent → Prop
  | .alarmTask lock _ => s.notify.saveSta = .endSave → s.Refuses lock s.pc
  | _ => True

instance (s : AlarmSystem) (lock : Bool) (pc : AlarmPc) : Decidable (s.Refuses lock pc) :=
  match pc with
  | .write _ _ => inferInstanceAs (Decidable (_ → _))
  | .wait | .drain | .relay _ | .led _ | .store _ | .read _ | .load | .incr _ | .args =>
    isTrue trivial

instance (s : AlarmSystem) (e : TaskEvent) : Decidable (s.LateSafe e) :=
  match e with
  | .alarmTask _ _ => inferInstanceAs (Decidable (_ → _))
  | .check _ _ | .clear _ _ | .tick _ | .save _ => isTrue trivial

/-- `k` seconds have been written, and no index entry. -/
def Written (records : UInt32 → Nat → UInt8) (s : AlarmSystem) (k : Nat) : Prop :=
  (∃ addr, s.captureOps = secondWrites records s.notify.alarmTs addr k) ∧
    s.store.alarm.indexNum = s.num

/-- The capture is on the flash with its index entry. -/
def Complete (records : UInt32 → Nat → UInt8) (s : AlarmSystem) : Prop :=
  EndedCapture.Exact records ⟨s.notify.alarmTs, s.captureOps, s.num, s.store.alarm.indexNum⟩

/-- Second `k` is the next to be written, and it is in the buffer. -/
def Loaded (records : UInt32 → Nat → UInt8) (s : AlarmSystem) (k : Nat) : Prop :=
  k < 3 ∧ Written records s k ∧ s.adcData = records (s.notify.alarmTs + UInt32.ofNat k) ∧
    s.store.alarm.indexItem.timestamp = s.notify.alarmTs + 1

/-- The seconds counted by `index` have been written, the third one with the
index entry. -/
def Recorded (records : UInt32 → Nat → UInt8) (s : AlarmSystem) : Prop :=
  (s.notify.index.toNat < 3 ∧ Written records s s.notify.index.toNat) ∨
    (s.notify.index.toNat = 3 ∧ Complete records s)

/-- How far the open capture has got. -/
def InProgress (records : UInt32 → Nat → UInt8) (s : AlarmSystem) : Prop :=
  match s.pc with
  | .load => Loaded records s s.notify.index.toNat
  | .incr v => v = s.notify.index ∧ Loaded records s s.notify.index.toNat
  | .args => ∃ k, s.notify.index.toNat = k + 1 ∧ Loaded records s k
  | .write ts flag => ∃ k, s.notify.index.toNat = k + 1 ∧ Loaded records s k ∧
      ts = s.notify.alarmTs + 1 ∧ flag = decide (k = 2)
  | _ => Recorded records s

structure ExactInv (records : UInt32 → Nat → UInt8) (s : AlarmSystem) : Prop where
  mark : s.mark ≤ s.store.flash.ops.length
  open_ : s.notify.saveSta = .strSave → InProgress records s
  ended : ∀ e ∈ s.ended, e.Exact records

theorem secondWrites_succ (records : UInt32 → Nat → UInt8) (ts : UInt32) (addr : Nat → Nat)
    (k a : Nat) :
    ∃ addr', secondWrites records ts addr k ++
        [.write a (records (ts + UInt32.ofNat k)) adcDataSize] =
      secondWrites records ts addr' (k + 1) := by
  refine ⟨Function.update addr k a, ?_⟩
  simp only [secondWrites, List.range_succ, List.map_append, List.map_singleton,
    Function.update_self]
  congr 1
  refine List.map_congr_left fun j hj => ?_
  rw [Function.update_of_ne (Nat.ne_of_lt (List.mem_range.mp hj))]

/-- What a step appends to the flash log is appended to the capture, less the
messages. -/
theorem captureOps_append {s s' : AlarmSystem} (hmark : s.mark ≤ s.store.flash.ops.length)
    {ops : List FlashOp} (hops : s'.store.flash.ops = s.store.flash.ops ++ ops)
    (hmark' : s'.mark = s.mark) :
    s'.captureOps = s.captureOps ++ ops.filter FlashOp.ofCapture := by
  rw [captureOps, captureOps, hops, hmark', List.drop_append_of_le_length hmark, List.filter_append]

theorem storageWriteAlarmMsg_log (lock : Bool) (st : AlarmStore) (ts : UInt32)
    (data : Nat → UInt8) :
    ∃ ops, (storageWriteAlarmMsg lock st ts data).1.flash.ops = st.flash.ops ++ ops ∧
      ops.filter FlashOp.ofCapture = [] ∧
      (storageWriteAlarmMsg lock st ts data).1.alarm.indexNum = st.alarm.indexNum := by
  cases lock with
  | false => exact ⟨[], (List.append_nil _).symm, rfl, rfl⟩
  | true => exact ⟨[.write st.alarm.addr data alarmMsgSize], rfl, rfl, rfl⟩

theorem storageWriteAlarmInfo_log (lock : Bool) (st : AlarmStore) (ts : UInt32) (off : Nat)
    (data : Nat → UInt8) (len : Nat) (flag : Bool) :
    ∃ ops, (storageWriteAlarmInfo lock st ts off data len flag).1.flash.ops =
      st.flash.ops ++ ops := by
  rw [storageWriteAlarmInfo]
  cases lock with
  | false => exact ⟨[], (List.append_nil _).symm⟩
  | true =>
    by_cases hts : ts ≠ st.alarm.indexItem.timestamp
    · rw [if_pos rfl, if_pos hts]
      exact ⟨[], (List.append_nil _).symm⟩
    · rw [if_pos rfl, if_neg hts]
      cases flag with
      | false => exact ⟨_, rfl⟩
      | true => exact ⟨_, List.append_assoc _ _ _⟩

theorem finish_indexNum {st : AlarmStore} (h : st.alarm.indexNum < alarmItemTotalNum) :
    st.finish.alarm.indexNum = st.alarm.indexNum + 1 := by
  have htotal : alarmItemTotalNum = 640 := rfl
  have hmod : (st.alarm.indexNum + 1) % 2 ^ 16 = st.alarm.indexNum + 1 :=
    Nat.mod_eq_of_lt (by omega)
  simp only [AlarmStore.finish, hmod]
  split
  · simp only
    omega
  · rfl

theorem Loaded.write {records : UInt32 → Nat → UInt8} {s s' : AlarmSystem} {k : Nat}
    (h : Loaded records s k) (hmark : s.mark ≤ s.store.flash.ops.length)
    (hindex : s.notify.index.toNat = k + 1) (hnotify : s'.notify = s.notify)
    (hmark' : s'.mark = s.mark) (hnum' : s'.num = s.num)
    (hstore : s'.store = (storageWriteAlarmInfo true s.store (s.notify.alarmTs + 1) 0 s.adcData
      adcDataSize (decide (k = 2))).1) :
    Recorded records s' := by
  obtain ⟨hk, ⟨⟨addr, hops⟩, hnum⟩, hdata, hts⟩ := h
  obtain ⟨-, -, -, hplainNum, hitem, -, hflash⟩ :=
    storageWriteAlarmInfo_plain 0 s.adcData adcDataSize hts.symm
  obtain ⟨addr', haddr⟩ := secondWrites_succ records s.notify.alarmTs addr k s.store.alarm.infoAddr
  rw [← hdata] at haddr
  rw [Recorded, hnotify, hindex]
  by_cases hlast : k = 2
  · rw [decide_eq_true hlast, storageWriteAlarmInfo_flag 0 s.adcData adcDataSize hts.symm] at hstore
    generalize (storageWriteAlarmInfo true s.store (s.notify.alarmTs + 1) 0 s.adcData adcDataSize
      false).1 = st at hplainNum hitem hflash hstore
    have hlog : s'.store.flash.ops = s.store.flash.ops ++
        [.write s.store.alarm.infoAddr s.adcData adcDataSize,
          .write st.alarm.indexAddr st.alarm.indexItem.byte alarmIndexItemSize] := by
      rw [hstore, AlarmStore.finish, gd55b01geWriteData_ops, hflash, gd55b01geWriteData_ops,
        List.append_assoc]
      rfl
    have hcapture := captureOps_append hmark hlog hmark'
    refine .inr ⟨by omega, addr', st.alarm.indexAddr, st.alarm.indexItem, ?_, ?_, fun hlt => ?_⟩
    · have hthree : secondWrites records s.notify.alarmTs addr' 3 =
          secondWrites records s.notify.alarmTs addr' (k + 1) := by rw [hlast]
      simp only [hnotify]
      rw [hcapture, hops, hthree, ← haddr, List.append_assoc]
      rfl
    · rw [hitem, hts, hnotify]
    · simp only [hnum'] at hlt ⊢
      rw [hstore, finish_indexNum (by rw [hplainNum, hnum]; exact hlt), hplainNum, hnum]
  · rw [decide_eq_false hlast] at hstore
    have hlog : s'.store.flash.ops = s.store.flash.ops ++
        [.write s.store.alarm.infoAddr s.adcData adcDataSize] := by
      rw [hstore, hflash, gd55b01geWriteData_ops]
    have hcapture := captureOps_append hmark hlog hmark'
    refine .inl ⟨by omega, ⟨addr', ?_⟩, ?_⟩
    · rw [hcapture, hops, hnotify, ← haddr]
      rfl
    · rw [hstore, hplainNum, hnum, hnum']

/-- Steps of the other tasks leave an open capture where it is. -/
theorem InProgress.congr {records : UInt32 → Nat → UInt8} {s s' : AlarmSystem}
    (h : InProgress records s) (hpc : s'.pc = s.pc) (hindex : s'.notify.index = s.notify.index)
    (hts : s'.notify.alarmTs = s.notify.alarmTs) (hdata : s'.adcData = s.adcData)
    (hstore : s'.store = s.store) (hmark : s'.mark = s.mark) (hnum : s'.num = s.num) :
    InProgress records s' := by
  simp only [InProgress, Recorded, Loaded, Written, Complete, captureOps, hpc, hindex, hts, hdata,
    hstore, hmark, hnum] at h ⊢
  exact h

theorem Recorded.congr {records : UInt32 → Nat → UInt8} {s s' : AlarmSystem}
    (h : Recorded records s) (hnotify : s'.notify = s.notify)
    (hops : s'.captureOps = s.captureOps) (hnum : s'.num = s.num)
    (hindexNum : s'.store.alarm.indexNum = s.store.alarm.indexNum) : Recorded records s' := by
  simp only [Recorded, Written, Complete, hnotify, hops, hnum, hindexNum] at h ⊢
  exact h

/-- Between two seconds the capture stands recorded. -/
theorem InProgress.recorded {records : UInt32 → Nat → UInt8} {s : AlarmSystem}
    (h : InProgress records s) (hwriting : s.pc.writing = false) : Recorded records s := by
  cases hpc : s.pc with
  | load | incr | args | write =>
    rw [hpc] at hwriting
    cases hwriting
  | _ =>
    simp only [InProgress, hpc] at h
    exact h

theorem inProgress_of_recorded {records : UInt32 → Nat → UInt8} {s : AlarmSystem}
    (h : Recorded records s) (hwriting : s.pc.writing = false) : InProgress records s := by
  cases hpc : s.pc with
  | load | incr | args | write =>
    rw [hpc] at hwriting
    cases hwriting
  | _ =>
    simp only [InProgress, hpc]
    exact h

namespace ExactInv

variable {records : UInt32 → Nat → UInt8} {s : AlarmSystem} {bootTs : UInt32}

theorem boot (c : ConfigInfo) : ExactInv records (.boot c) :=
  ⟨Nat.zero_le _, nofun, nofun⟩

theorem check (h : ExactInv records s) {lock : Bool} {item : AdcItem}
    (hsafe : ExactSafe bootTs s (.check lock item)) :
    ExactInv records (s.check bootTs lock item) := by
  rw [AlarmSystem.check]
  rcases adcCheckAlarm_cases lock bootTs s.store.config item s.notify with
    ⟨hraises, heq⟩ | ⟨-, hsame⟩
  · obtain ⟨-, hsave, -, hindex, -⟩ :=
      AlarmNotify.raise_fields { s.notify with num := s.notify.num + 1 }
        (alarmType s.store.config item) item
    have hidle : s.notify.saveSta = .endSave := by
      cases hs : s.notify.saveSta with
      | strSave => exact absurd hs hraises.idle
      | endSave => rfl
    simp only [heq]
    rw [if_pos ⟨hidle, hsave⟩]
    have hempty : AlarmSystem.captureOps { s with
        notify := AlarmNotify.raise { s.notify with num := s.notify.num + 1 }
          (alarmType s.store.config item) item
        mark := s.store.flash.ops.length
        num := s.store.alarm.indexNum } = [] := by
      simp only [AlarmSystem.captureOps, List.drop_length, List.filter_nil]
    refine ⟨Nat.le_refl _, fun _ => inProgress_of_recorded (.inl ?_) (hsafe hraises), h.ended⟩
    simp only [hindex]
    exact ⟨by decide, ⟨fun _ => 0, hempty⟩, rfl⟩
  · have hkeep : ¬ (s.notify.saveSta = .endSave ∧
        (adcCheckAlarm lock bootTs s.store.config item s.notify).saveSta = .strSave) := by
      rw [hsame.saveSta]
      rintro ⟨h₁, h₂⟩
      rw [h₁] at h₂
      cases h₂
    simp only [hkeep, if_false]
    refine ⟨h.mark, fun hs => (h.open_ (hsame.saveSta ▸ hs)).congr rfl hsame.index hsame.alarmTs rfl
      rfl rfl rfl, h.ended⟩

theorem clear (h : ExactInv records s) (lock : Bool) (rawData : UInt16) :
    ExactInv records (s.clear lock rawData) := by
  have hsame : (adcClearAlarm lock rawData s.notify s.out).1.saveSta = s.notify.saveSta ∧
      (adcClearAlarm lock rawData s.notify s.out).1.index = s.notify.index ∧
      (adcClearAlarm lock rawData s.notify s.out).1.alarmTs = s.notify.alarmTs := by
    rw [adcClearAlarm]
    split
    · split
      · split <;> exact ⟨rfl, rfl, rfl⟩
      · exact ⟨rfl, rfl, rfl⟩
    · exact ⟨rfl, rfl, rfl⟩
  obtain ⟨hsave, hindex, hts⟩ := hsame
  exact ⟨h.mark, fun hs => (h.open_ (hsave ▸ hs)).congr rfl hindex hts rfl rfl rfl rfl, h.ended⟩

/-- With three seconds counted and none being written, the open capture is complete. -/
theorem complete (h : ExactInv records s) (hopen : s.notify.saveSta = .strSave)
    (hindex : 3 ≤ s.notify.index) (hwriting : s.pc.writing = false) : Complete records s := by
  have hthree : 3 ≤ s.notify.index.toNat := UInt8.le_iff_toNat_le.mp hindex
  rcases (h.open_ hopen).recorded hwriting with ⟨hlt, -⟩ | ⟨-, hcomplete⟩
  · omega
  · exact hcomplete

theorem save (h : ExactInv records s) {lock : Bool} (hsafe : ExactSafe bootTs s (.save lock)) :
    ExactInv records (s.save lock) := by
  rw [AlarmSystem.save]
  by_cases hdue : s.saveDue = true
  · rw [if_pos hdue]
    rcases adcSaveAlarm_cases lock s.notify with heq | ⟨hlock, hindex, hopen, heq⟩ | ⟨-, heq⟩
    · have hkeep : ¬ (s.notify.saveSta = .strSave ∧ s.notify.saveSta = .endSave) := by
        rintro ⟨h₁, h₂⟩
        rw [h₁] at h₂
        cases h₂
      simp only [heq, hkeep, if_false]
      exact ⟨h.mark, fun hs => (h.open_ hs).congr rfl rfl rfl rfl rfl rfl rfl, h.ended⟩
    · have hcomplete := h.complete hopen hindex (hsafe hlock hindex hopen)
      simp only [heq, hopen, and_self, if_true]
      refine ⟨h.mark, nofun, fun e he => ?_⟩
      rcases List.mem_append.mp he with he | he
      · exact h.ended e he
      · obtain rfl := List.mem_singleton.mp he
        exact hcomplete
    · have hkeep : ¬ (s.notify.saveSta = .strSave ∧
          (s.notify.send (.ofSave (s.notify.alarmTs + s.notify.index.toUInt32))).saveSta =
            .endSave) := by
        rw [AlarmNotify.send_saveSta]
        rintro ⟨h₁, h₂⟩
        rw [h₁] at h₂
        cases h₂
      simp only [heq, hkeep, if_false]
      exact ⟨h.mark, fun hs => (h.open_ (AlarmNotify.send_saveSta _ _ ▸ hs)).congr rfl
        (AlarmNotify.send_index _ _) (AlarmNotify.send_alarmTs _ _) rfl rfl rfl rfl, h.ended⟩
  · rw [if_neg hdue]
    exact h

theorem between (h : ExactInv records s) {s' : AlarmSystem} (hwriting : s.pc.writing = false)
    (hwriting' : s'.pc.writing = false) (hsave : s'.notify.saveSta = s.notify.saveSta)
    (hrecorded : Recorded records s → Recorded records s')
    (hmark : s'.mark ≤ s'.store.flash.ops.length) (hended : s'.ended = s.ended) :
    ExactInv records s' :=
  ⟨hmark, fun hs => inProgress_of_recorded
    (hrecorded ((h.open_ (hsave ▸ hs)).recorded hwriting)) hwriting', hended ▸ h.ended⟩

theorem alarmTask (h : ExactInv records s) {lock ok : Bool}
    (hsafe : ExactSafe bootTs s (.alarmTask lock ok)) :
    ExactInv records (s.alarmTask records lock ok) := by
  cases hpc : s.pc with
  | wait =>
    simp only [AlarmSystem.alarmTask, hpc]
    split
    · exact h.between (by rw [hpc]; rfl) rfl rfl id h.mark rfl
    · exact h
  | drain =>
    simp only [AlarmSystem.alarmTask, hpc]
    split
    · exact h.between (by rw [hpc]; rfl) rfl rfl id h.mark rfl
    · refine h.between (by rw [hpc]; rfl) ?_ rfl id h.mark rfl
      simp only
      split
      · rfl
      · split <;> rfl
  | relay msg =>
    simp only [AlarmSystem.alarmTask, hpc]
    exact h.between (by rw [hpc]; rfl) rfl rfl id h.mark rfl
  | led msg =>
    simp only [AlarmSystem.alarmTask, hpc]
    exact h.between (by rw [hpc]; rfl) rfl rfl id h.mark rfl
  | store msg =>
    obtain ⟨ops, hops, hfilter, hnum⟩ := storageWriteAlarmMsg_log lock s.store msg.ts msg.byte
    simp only [AlarmSystem.alarmTask, hpc]
    refine h.between (by rw [hpc]; rfl) rfl rfl (fun hr => hr.congr rfl ?_ rfl hnum) ?_ rfl
    · rw [← List.append_nil s.captureOps, ← hfilter]
      exact captureOps_append h.mark hops rfl
    · simp only [hops, List.length_append]
      exact Nat.le_add_right_of_le h.mark
  | read msg =>
    simp only [AlarmSystem.alarmTask, hpc]
    cases ok with
    | false => exact h.between (by rw [hpc]; rfl) rfl rfl id h.mark rfl
    | true =>
      rw [if_pos rfl]
      refine ⟨h.mark, fun hs => ?_, h.ended⟩
      have hdue := hsafe hs
      simp only [hpc, SecondSafe, true_implies] at hdue
      obtain ⟨hindex, hts, hitem⟩ := hdue
      have hlt : s.notify.index.toNat < 3 := UInt8.lt_iff_toNat_lt.mp hindex
      rcases (h.open_ hs).recorded (by rw [hpc]; rfl) with ⟨-, hwritten⟩ | ⟨heq, -⟩
      · refine ⟨hlt, hwritten, ?_, hitem⟩
        rw [UInt32.ofNat_uInt8ToNat]
        exact congrArg records hts
      · omega
  | load =>
    simp only [AlarmSystem.alarmTask, hpc]
    refine ⟨h.mark, fun hs => ?_, h.ended⟩
    have hloaded := h.open_ hs
    simp only [InProgress, hpc] at hloaded
    exact ⟨rfl, hloaded⟩
  | incr index =>
    simp only [AlarmSystem.alarmTask, hpc]
    refine ⟨h.mark, fun hs => ?_, h.ended⟩
    have hloaded := h.open_ hs
    simp only [InProgress, hpc] at hloaded
    obtain ⟨rfl, hloaded⟩ := hloaded
    have hlt := hloaded.1
    refine ⟨s.notify.index.toNat, ?_, hloaded⟩
    exact (UInt8.toNat_add _ _).trans (Nat.mod_eq_of_lt (by simp only [UInt8.toNat_one]; omega))
  | args =>
    simp only [AlarmSystem.alarmTask, hpc]
    refine ⟨h.mark, fun hs => ?_, h.ended⟩
    have hloaded := h.open_ hs
    simp only [InProgress, hpc] at hloaded
    obtain ⟨k, hindex, hloaded⟩ := hloaded
    have hlt := hloaded.1
    refine ⟨k, hindex, hloaded, rfl, decide_eq_decide.mpr ?_⟩
    rw [UInt8.le_iff_toNat_le, hindex]
    change 3 ≤ k + 1 ↔ k = 2
    omega
  | write timestamp flag =>
    obtain ⟨ops, hops⟩ := storageWriteAlarmInfo_log lock s.store timestamp 0 s.adcData
      adcDataSize flag
    simp only [AlarmSystem.alarmTask, hpc]
    refine ⟨?_, fun hs => ?_, h.ended⟩
    · simp only [hops, List.length_append]
      exact Nat.le_add_right_of_le h.mark
    · have hloaded := h.open_ hs
      have hlock := hsafe hs
      simp only [InProgress, hpc] at hloaded
      simp only [SecondSafe, hpc] at hlock
      obtain ⟨k, hindex, hloaded, rfl, rfl⟩ := hloaded
      obtain rfl := hlock
      exact hloaded.write h.mark hindex rfl rfl rfl rfl

theorem step (h : ExactInv records s) (c : ConfigInfo) {e : TaskEvent}
    (hsafe : ExactSafe bootTs s e) : ExactInv records ((alarmSystem records bootTs c).step s e) := by
  cases e with
  | check lock item => exact h.check hsafe
  | clear lock rawData => exact h.clear lock rawData
  | tick rtcBaseSec =>
    simp only [alarmSystem]
    split
    · exact h
    · exact ⟨h.mark, fun hs => (h.open_ hs).congr rfl rfl rfl rfl rfl rfl rfl, h.ended⟩
  | save lock => exact h.save hsafe
  | alarmTask lock ok => exact h.alarmTask hsafe

end ExactInv

theorem alarmTask_counts (records : UInt32 → Nat → UInt8) (lock ok : Bool) (s : AlarmSystem) :
    (s.alarmTask records lock ok).mark = s.mark ∧ (s.alarmTask records lock ok).num = s.num ∧
      (s.alarmTask records lock ok).ended = s.ended := by
  cases hpc : s.pc with
  | wait | drain | read =>
    simp only [AlarmSystem.alarmTask, hpc]
    split <;> exact ⟨rfl, rfl, rfl⟩
  | relay | led | store | load | incr | args | write =>
    simp only [AlarmSystem.alarmTask, hpc, and_self]

/-- Unless a second is written, only messages come to the flash. -/
theorem alarmTask_log (records : UInt32 → Nat → UInt8) {lock : Bool} {s : AlarmSystem}
    (hlate : s.Refuses lock s.pc) (ok : Bool) :
    ∃ ops, (s.alarmTask records lock ok).store.flash.ops = s.store.flash.ops ++ ops ∧
      ops.filter FlashOp.ofCapture = [] ∧
      (s.alarmTask records lock ok).store.alarm.indexNum = s.store.alarm.indexNum := by
  cases hpc : s.pc with
  | store msg =>
    simp only [AlarmSystem.alarmTask, hpc]
    exact storageWriteAlarmMsg_log lock s.store msg.ts msg.byte
  | write ts flag =>
    have hrefused : (storageWriteAlarmInfo lock s.store ts 0 s.adcData adcDataSize flag).1 =
        s.store := by
      rw [storageWriteAlarmInfo]
      cases lock with
      | false => rfl
      | true =>
        rw [hpc] at hlate
        rw [if_pos rfl, if_pos (hlate rfl)]
    have hstore : (s.alarmTask records lock ok).store = s.store := by
      simp only [AlarmSystem.alarmTask, hpc, hrefused]
    exact ⟨[], by rw [hstore, List.append_nil], rfl, by rw [hstore]⟩
  | wait | drain | read =>
    have hstore : (s.alarmTask records lock ok).store = s.store := by
      simp only [AlarmSystem.alarmTask, hpc]
      split <;> rfl
    exact ⟨[], by rw [hstore, List.append_nil], rfl, by rw [hstore]⟩
  | relay | led | load | incr | args =>
    have hstore : (s.alarmTask records lock ok).store = s.store := by
      simp only [AlarmSystem.alarmTask, hpc]
    exact ⟨[], by rw [hstore, List.append_nil], rfl, by rw [hstore]⟩

/-- The last capture is still exact with all that has been written up to now. -/
def Lasting (records : UInt32 → Nat → UInt8) (s : AlarmSystem) : Prop :=
  s.notify.saveSta = .endSave → s.ended ≠ [] → Complete records s

namespace Lasting

variable {records : UInt32 → Nat → UInt8} {s s' : AlarmSystem} {bootTs : UInt32}

theorem congr (h : Lasting records s) (hsave : s'.notify.saveSta = s.notify.saveSta)
    (hts : s'.notify.alarmTs = s.notify.alarmTs) (hops : s'.captureOps = s.captureOps)
    (hnum : s'.num = s.num) (hindexNum : s'.store.alarm.indexNum = s.store.alarm.indexNum)
    (hended : s'.ended = s.ended) : Lasting records s' := by
  simp only [Lasting, Complete, hsave, hts, hops, hnum, hindexNum, hended] at h ⊢
  exact h

theorem of_open (h : s.notify.saveSta = .strSave) : Lasting records s := by
  intro hclosed
  cases h.symm.trans hclosed

theorem check (h : Lasting records s) (lock : Bool) (item : AdcItem) :
    Lasting records (s.check bootTs lock item) := by
  rw [AlarmSystem.check]
  rcases adcCheckAlarm_cases lock bootTs s.store.config item s.notify with
    ⟨-, heq⟩ | ⟨-, hsame⟩
  · refine of_open ?_
    rw [heq]
    split <;> exact (AlarmNotify.raise_fields _ _ _).2.1
  · split
    · exact of_open (by simp_all)
    · exact h.congr hsame.saveSta hsame.alarmTs rfl rfl rfl rfl

theorem clear (h : Lasting records s) (lock : Bool) (rawData : UInt16) :
    Lasting records (s.clear lock rawData) := by
  have hsame : (adcClearAlarm lock rawData s.notify s.out).1.saveSta = s.notify.saveSta ∧
      (adcClearAlarm lock rawData s.notify s.out).1.alarmTs = s.notify.alarmTs := by
    rw [adcClearAlarm]
    split
    · split
      · split <;> exact ⟨rfl, rfl⟩
      · exact ⟨rfl, rfl⟩
    · exact ⟨rfl, rfl⟩
  exact h.congr hsame.1 hsame.2 rfl rfl rfl rfl

theorem save (h : Lasting records s) (hinv : ExactInv records s) {lock : Bool}
    (hsafe : ExactSafe bootTs s (.save lock)) : Lasting records (s.save lock) := by
  rw [AlarmSystem.save]
  by_cases hdue : s.saveDue = true
  · rw [if_pos hdue]
    rcases adcSaveAlarm_cases lock s.notify with heq | ⟨hlock, hindex, hopen, heq⟩ | ⟨hnot, heq⟩
    · refine h.congr (by rw [heq]) (by rw [heq]) rfl rfl rfl ?_
      simp only [heq]
      exact if_neg fun hboth => absurd (hboth.1.symm.trans hboth.2) (by decide)
    · intro _ _
      have hcomplete := hinv.complete hopen hindex (hsafe hlock hindex hopen)
      simp only [Complete, heq] at hcomplete ⊢
      exact hcomplete
    · refine h.congr (by rw [heq, AlarmNotify.send_saveSta])
        (by rw [heq, AlarmNotify.send_alarmTs]) rfl rfl rfl ?_
      simp only [heq, AlarmNotify.send_saveSta]
      exact if_neg fun hboth => absurd (hboth.1.symm.trans hboth.2) (by decide)
  · rw [if_neg hdue]
    exact h

theorem alarmTask (h : Lasting records s) (hinv : ExactInv records s) {lock ok : Bool}
    (hlate : s.LateSafe (.alarmTask lock ok)) :
    Lasting records (s.alarmTask records lock ok) := by
  obtain ⟨queue, sem, index, hnotify⟩ := s.alarmTask_notify records lock ok
  obtain ⟨hmark, hnum, hended⟩ := s.alarmTask_counts records lock ok
  intro hclosed
  have hidle : s.notify.saveSta = .endSave := by rwa [hnotify] at hclosed
  obtain ⟨ops, hops, hfilter, hindexNum⟩ := s.alarmTask_log records (hlate hidle) ok
  refine h.congr (by rw [hnotify]) (by rw [hnotify]) ?_ hnum hindexNum hended hclosed
  rw [captureOps_append hinv.mark hops hmark, hfilter, List.append_nil]

theorem step (h : Lasting records s) (hinv : ExactInv records s) (c : ConfigInfo) {e : TaskEvent}
    (hsafe : ExactSafe bootTs s e) (hlate : s.LateSafe e) :
    Lasting records ((alarmSystem records bootTs c).step s e) := by
  cases e with
  | check lock item => exact h.check lock item
  | clear lock rawData => exact h.clear lock rawData
  | tick rtcBaseSec =>
    simp only [alarmSystem]
    split
    · exact h
    · exact h.congr rfl rfl rfl rfl rfl rfl
  | save lock => exact h.save hinv hsafe
  | alarmTask lock ok => exact h.alarmTask hinv hlate

end Lasting

end AlarmSystem

/-- In every run that keeps to the condition, every capture that is over has
written its three seconds and its index entry exactly once. If no second is
written after the end either, nothing is added to the last one before the next
alarm. -/
theorem alarmSystem_exact (records : UInt32 → Nat → UInt8) (bootTs : UInt32) (c : ConfigInfo)
    (es : List TaskEvent)
    (hes : (alarmSystem records bootTs c).Guarded (AlarmSystem.ExactSafe bootTs) (.boot c) es) :
    (∀ e ∈ ((alarmSystem records bootTs c).run es).ended, e.Exact records) ∧
      ((alarmSystem records bootTs c).Guarded AlarmSystem.LateSafe (.boot c) es →
        ((alarmSystem records bootTs c).run es).Lasting records) := by
  constructor
  · have hinv : AlarmSystem.ExactInv records ((alarmSystem records bootTs c).run es) :=
      (alarmSystem records bootTs c).invariant_run (AlarmSystem.ExactInv.boot c)
        (fun _ _ (h : AlarmSystem.ExactInv records _) hsafe => h.step c hsafe) hes
    exact hinv.ended
  · intro hlate
    have hstep : ∀ (s : AlarmSystem) (e : TaskEvent),
        AlarmSystem.ExactInv records s ∧ s.Lasting records →
        AlarmSystem.ExactSafe bootTs s e ∧ s.LateSafe e →
        AlarmSystem.ExactInv records ((alarmSystem records bootTs c).step s e) ∧
          ((alarmSystem records bootTs c).step s e).Lasting records :=
      fun s e h hsafe => ⟨h.1.step c hsafe.1, h.2.step h.1 c hsafe.1 hsafe.2⟩
    exact ((alarmSystem records bootTs c).invariant_run
      ⟨.boot c, fun _ hne => absurd rfl hne⟩ hstep (Machine.guarded_and _ hes hlate)).2

def numbered (ts : UInt32) (_ : Nat) : UInt8 := ts.toUInt8

def turns (n : Nat) : List TaskEvent := List.replicate n (.alarmTask true true)

/-- `time_sync_task` comes round, and asks for a second or ends the capture. -/
def asked : List TaskEvent := [.tick 100, .save true]

/-- Alarm at second 5: the message is stored, then every second is asked for and
written before the next one is asked for. The third second is asked for twice, and
comes up again when the capture is over; then it cannot be read. -/
def captureEvents : List TaskEvent :=
  raiseEvents 5000 ++ turns 6 ++ asked ++ turns 8 ++ asked ++ turns 8 ++ asked ++ asked ++
    turns 8 ++ asked ++ [TaskEvent.alarmTask true false]

theorem alarmSystem_exact_once :
    ((alarmSystem numbered 0 limits).run captureEvents).ended.length = 1 ∧
      (∀ e ∈ ((alarmSystem numbered 0 limits).run captureEvents).ended, e.Exact numbered) ∧
      ((alarmSystem numbered 0 limits).run captureEvents).Lasting numbered :=
  have hexact := alarmSystem_exact numbered 0 limits captureEvents (by decide +kernel)
  ⟨by decide +kernel, hexact.1, hexact.2 (by decide +kernel)⟩

/-- The size of a write and its first byte. -/
def FlashOp.head : FlashOp → Nat × UInt8
  | .write _ data count => (count, data 0)
  | .eraseChip => (0, 0)

theorem EndedCapture.Exact.heads {e : EndedCapture} (h : e.Exact numbered) :
    ∃ first, e.ops.map FlashOp.head =
      (List.range 3).map (fun j => (adcDataSize, (e.alarmTs + UInt32.ofNat j).toUInt8)) ++
        [(alarmIndexItemSize, first)] := by
  obtain ⟨addr, indexAddr, item, hops, -, -⟩ := h
  refine ⟨item.byte 0, ?_⟩
  rw [hops, secondWrites, List.map_append, List.map_map]
  rfl

/-- As before, but second 4 is asked for again before it is written. -/
def twiceEvents : List TaskEvent :=
  raiseEvents 5000 ++ turns 6 ++ asked ++ asked ++ turns 15 ++ asked ++ turns 8 ++ asked

/-- The capture is over with second 4 written twice and second 5 not at all. -/
theorem alarmSystem_exact_twice :
    ∃ e ∈ ((alarmSystem numbered 0 limits).run twiceEvents).ended, ¬ e.Exact numbered := by
  have hended : ((alarmSystem numbered 0 limits).run twiceEvents).ended.map
      (fun e => (e.alarmTs, e.ops.map FlashOp.head)) =
      [(4, [(64000, 4), (64000, 4), (64000, 6), (16, 0)])] := by decide +kernel
  obtain ⟨e, hlist, hfields⟩ := List.map_eq_singleton_iff.mp hended
  obtain ⟨hts, hheads⟩ := Prod.mk.inj hfields
  refine ⟨e, hlist ▸ List.mem_singleton_self e, fun hexact => ?_⟩
  obtain ⟨first, hfirst⟩ := hexact.heads
  rw [hheads, hts] at hfirst
  have hsecond := congrArg (fun ops => ops[1]?) hfirst
  exact absurd (congrArg Prod.snd (Option.some.inj hsecond)) (by decide)

end Lsc100
