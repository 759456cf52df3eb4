import Lsc100.FlashPages
import Lsc100.Alarm.Region

/-! The alarm log under power failures. A run chooses when power is lost, also in
the middle of a write or an erase, when the configuration is saved, when the log
is cleared and which timestamp each second is offered under. What has been
programmed since the last erase is kept beside the state. -/

namespace Lsc100

open Overlay

structure Stretch where
  addr : Nat
  count : Nat

namespace Stretch

def Apart (a b : Stretch) : Prop := a.addr + a.count ≤ b.addr ∨ b.addr + b.count ≤ a.addr

instance (a b : Stretch) : Decidable (a.Apart b) := inferInstanceAs (Decidable (_ ∨ _))

def Has (a : Stretch) (x : Nat) : Prop := a.addr ≤ x ∧ x < a.addr + a.count

end Stretch

/-- `kt_ClearData` resets the configuration, which another task saves, before
the log is cleared. A write cut short leaves some bits cleared in its range and
an erase cut short leaves anything. -/
inductive DeviceEvent
  | message (ts : UInt32) (msg : Nat → UInt8)
  | info (ts : UInt32) (data : Nat → UInt8) (flag : Bool)
  | clearConfig
  | clear
  | save
  | powerCycle
  | cutMessage (junk : Nat → UInt8)
  | cutInfo (ts : UInt32) (junk : Nat → UInt8)
  | cutIndex (ts : UInt32) (data junk : Nat → UInt8)
  | cutClear (junk : Nat → UInt8)

/-- `fresh`: all that the open capture has written so far went to blank cells,
and the log has not been cleared since its message. -/
structure AlarmDevice where
  store : AlarmStore
  saved : ConfigInfo
  capturing : Option OpenCapture
  fresh : Bool
  closed : Option ClosedCapture
  programmed : List Stretch

def OpenCapture.add (c : OpenCapture) (data : Nat → UInt8) : OpenCapture :=
  { c with seg := c.seg + 1, info := Function.update c.info c.seg data }

@[simp] theorem OpenCapture.add_seg (c : OpenCapture) (data : Nat → UInt8) :
    (c.add data).seg = c.seg + 1 := rfl

namespace AlarmDevice

def boot (c : ConfigInfo) : AlarmDevice :=
  ⟨.boot (systemInit c), c, none, false, none, []⟩

/-- What an event programs, the erase that is cut short included. -/
def touched (d : AlarmDevice) : DeviceEvent → List Stretch
  | .message _ _ | .cutMessage _ => [⟨d.store.alarm.addr, alarmMsgSize⟩]
  | .info ts _ flag =>
    if ts = d.store.alarm.indexItem.timestamp then
      (if flag then [⟨d.store.alarm.indexAddr, alarmIndexItemSize⟩] else []) ++
        [⟨d.store.alarm.infoAddr, adcDataSize⟩]
    else []
  | .cutInfo ts _ =>
    if ts = d.store.alarm.indexItem.timestamp then [⟨d.store.alarm.infoAddr, adcDataSize⟩] else []
  | .cutIndex ts _ _ =>
    if ts = d.store.alarm.indexItem.timestamp then
      [⟨d.store.alarm.indexAddr, alarmIndexItemSize⟩, ⟨d.store.alarm.infoAddr, adcDataSize⟩]
    else []
  | .cutClear _ => [⟨0, gd55b01geTotalSize⟩]
  | .clearConfig | .clear | .save | .powerCycle => []

/-- None of the cells an event programs has been programmed since the last erase. -/
def Blank (d : AlarmDevice) (e : DeviceEvent) : Prop :=
  (d.touched e).Pairwise Stretch.Apart ∧ ∀ a ∈ d.touched e, ∀ b ∈ d.programmed, a.Apart b

instance (d : AlarmDevice) (e : DeviceEvent) : Decidable (d.Blank e) :=
  inferInstanceAs (Decidable (_ ∧ _))

def marked (d : AlarmDevice) (e : DeviceEvent) : AlarmDevice :=
  { d with programmed := d.touched e ++ d.programmed }

/-- RAM is lost, the flash stays as it is. -/
def restart (d : AlarmDevice) (flash : Flash) : AlarmDevice :=
  { d with
    store := ⟨alarmObjectInit (systemInit d.saved), flash, systemInit d.saved, false⟩
    capturing := none
    closed := none }

/-- A capture that is still open is given up. -/
def message (d : AlarmDevice) (ts : UInt32) (msg : Nat → UInt8) : AlarmDevice :=
  { d.marked (.message ts msg) with
    store := (storageWriteAlarmMsg true d.store ts msg).1
    capturing := some ⟨ts, msg, 0, fun _ _ => 0⟩
    fresh := d.Blank (.message ts msg)
    closed := none }

/-- A second belongs to the open capture when its timestamp is accepted; with no
capture open it is programmed all the same. -/
def info (d : AlarmDevice) (ts : UInt32) (data : Nat → UInt8) (flag : Bool) : AlarmDevice :=
  let accepted := ts = d.store.alarm.indexItem.timestamp
  { d.marked (.info ts data flag) with
    store := (storageWriteAlarmInfo true d.store ts 0 data adcDataSize flag).1
    capturing := d.capturing.bind fun c =>
      if accepted then if flag then none else some (c.add data) else some c
    fresh := d.fresh && d.Blank (.info ts data flag)
    closed := d.capturing.bind fun c =>
      if accepted ∧ flag then
        some ⟨d.store.alarm.indexAddr, d.store.alarm.indexItem, c.seg + 1, c.msg, (c.add data).info⟩
      else none }

def clear (d : AlarmDevice) : AlarmDevice :=
  { d with
    store := storageClearAlarmData true d.store
    fresh := false
    closed := none
    programmed := [] }

def step (d : AlarmDevice) (e : DeviceEvent) : AlarmDevice :=
  let alarm := d.store.alarm
  let accepts (ts : UInt32) := ts = alarm.indexItem.timestamp
  match e with
  | .message ts msg => d.message ts msg
  | .info ts data flag => d.info ts data flag
  | .clearConfig =>
    { d with store := { d.store with config := d.store.config.cleared }, closed := none }
  | .clear => d.clear
  | .save => { d with saved := d.store.config, closed := none }
  | .powerCycle => d.restart d.store.flash
  | .cutMessage junk =>
    (d.marked e).restart (gd55b01geWriteData d.store.flash alarm.addr junk alarmMsgSize)
  | .cutInfo ts junk =>
    if accepts ts then
      (d.marked e).restart (gd55b01geWriteData d.store.flash alarm.infoAddr junk adcDataSize)
    else d.restart d.store.flash
  | .cutIndex ts data junk =>
    if accepts ts then
      (d.marked e).restart (gd55b01geWriteData
        (gd55b01geWriteData d.store.flash alarm.infoAddr data adcDataSize)
        alarm.indexAddr junk alarmIndexItemSize)
    else d.restart d.store.flash
  | .cutClear junk => (d.marked e).restart { d.store.flash with
      cells := overlay (fun _ b => b) d.store.flash.cells 0 gd55b01geTotalSize junk }

/-- The event writes the index entry of the open capture. -/
def Closes (d : AlarmDevice) : DeviceEvent → Prop
  | .info ts _ flag =>
    d.capturing.isSome = true ∧ ts = d.store.alarm.indexItem.timestamp ∧ flag = true
  | _ => False

instance (d : AlarmDevice) : ∀ e, Decidable (d.Closes e)
  | .info _ _ _ => inferInstanceAs (Decidable (_ ∧ _ ∧ _))
  | .message _ _ | .clearConfig | .clear | .save | .powerCycle | .cutMessage _
  | .cutInfo _ _ | .cutIndex _ _ _ | .cutClear _ => inferInstanceAs (Decidable False)

end AlarmDevice

def alarmDevice (c : ConfigInfo) : Machine AlarmDevice DeviceEvent :=
  ⟨.boot c, AlarmDevice.step⟩

/-- Writes stay inside the chip, and a capture that gets its index entry wrote
to blank cells only, the entry included, with no clear since its message. -/
structure WritesBlank (d : AlarmDevice) (e : DeviceEvent) : Prop where
  inside : ∀ a ∈ d.touched e, a.addr + a.count ≤ gd55b01geTotalSize
  blank : d.Closes e → d.fresh = true ∧ d.Blank e

instance (d : AlarmDevice) (e : DeviceEvent) : Decidable (WritesBlank d e) :=
  decidable_of_iff ((∀ a ∈ d.touched e, a.addr + a.count ≤ gd55b01geTotalSize) ∧
    (d.Closes e → d.fresh = true ∧ d.Blank e)) ⟨fun h => ⟨h.1, h.2⟩, fun h => ⟨h.1, h.2⟩⟩

/-- Outside of what has been programmed the flash is blank. -/
def BlankOutside (programmed : List Stretch) (cells : Nat → UInt8) : Prop :=
  ∀ x, (∀ b ∈ programmed, ¬ b.Has x) → cells x = 0xFF

/-- What an open capture was given stands in the flash, where its index entry
says, and is marked as programmed. -/
structure Held (item : AlarmIndexItem) (cells : Nat → UInt8) (programmed : List Stretch)
    (c : OpenCapture) : Prop where
  msg : ∀ k < 32, cells (item.msgAddr.toNat + k) = c.msg k
  info : ∀ j < c.seg, ∀ k < 64000, cells (item.infoAddr.toNat + 64000 * j + k) = c.info j k
  msgMarked : ⟨item.msgAddr.toNat, 32⟩ ∈ programmed
  infoMarked : ∀ j < c.seg, ⟨item.infoAddr.toNat + 64000 * j, 64000⟩ ∈ programmed

/-- What holds of the device in every state of a run that writes to blank cells
only. -/
structure Durable (d : AlarmDevice) : Prop where
  infoAddr : d.store.alarm.infoAddr < 2 ^ 32
  blank : BlankOutside d.programmed d.store.flash.cells
  held : ∀ c, d.capturing = some c → d.fresh = true →
    Held d.store.alarm.indexItem d.store.flash.cells d.programmed c
  next : ∀ c, d.capturing = some c → d.fresh = true →
    d.store.alarm.infoAddr = d.store.alarm.indexItem.infoAddr.toNat + 64000 * c.seg
  closed : ∀ r, d.closed = some r → ReadsBack d.store.flash.cells r

section

variable {programmed : List Stretch} {f : Flash} {addr count : Nat} {data : Nat → UInt8}

/-- A write marks what it programs. -/
theorem BlankOutside.write (h : BlankOutside programmed f.cells) :
    BlankOutside (⟨addr, count⟩ :: programmed) (gd55b01geWriteData f addr data count).cells := by
  intro x hx
  have hout : x < addr ∨ addr + count ≤ x := by
    have := hx _ List.mem_cons_self
    simp only [Stretch.Has] at this
    omega
  rw [gd55b01geWriteData_out f hout]
  exact h x fun b hb => hx b (List.mem_cons_of_mem _ hb)

theorem BlankOutside.apart (h : BlankOutside programmed f.cells)
    (hapart : ∀ b ∈ programmed, Stretch.Apart ⟨addr, count⟩ b) {k : Nat} (hk : k < count) :
    f.cells (addr + k) = 0xFF := by
  refine h _ fun b hb hin => ?_
  have := hapart b hb
  simp only [Stretch.Apart, Stretch.Has] at this hin
  omega

/-- A write apart from what is marked leaves it alone. -/
theorem gd55b01geWriteData_apart {b : Stretch} (hapart : Stretch.Apart ⟨addr, count⟩ b) {k : Nat}
    (hk : k < b.count) :
    (gd55b01geWriteData f addr data count).cells (b.addr + k) = f.cells (b.addr + k) := by
  refine gd55b01geWriteData_out f ?_
  simp only [Stretch.Apart] at hapart
  omega

theorem Held.start (hblank : BlankOutside programmed f.cells)
    (hapart : ∀ b ∈ programmed, Stretch.Apart ⟨addr, 32⟩ b) (item : AlarmIndexItem)
    (haddr : item.msgAddr.toNat = addr) (ts : UInt32) (info : Nat → Nat → UInt8) :
    Held item (gd55b01geWriteData f addr data 32).cells (⟨addr, 32⟩ :: programmed)
      ⟨ts, data, 0, info⟩ := by
  subst haddr
  refine ⟨fun k hk => ?_, nofun, List.mem_cons_self, nofun⟩
  exact gd55b01geWriteData_blank _ hk (hblank.apart hapart hk)

variable {item : AlarmIndexItem} {c : OpenCapture}

theorem Held.add (h : Held item f.cells programmed c) (hblank : BlankOutside programmed f.cells)
    (haddr : addr = item.infoAddr.toNat + 64000 * c.seg)
    (hapart : ∀ b ∈ programmed, Stretch.Apart ⟨addr, 64000⟩ b) (data : Nat → UInt8) :
    Held item (gd55b01geWriteData f addr data 64000).cells (⟨addr, 64000⟩ :: programmed)
      (c.add data) := by
  refine ⟨fun k hk => ?_, fun j hj k hk => ?_, List.mem_cons_of_mem _ h.msgMarked, fun j hj => ?_⟩
  · exact (gd55b01geWriteData_apart (hapart _ h.msgMarked) hk).trans (h.msg k hk)
  · rcases Nat.lt_or_eq_of_le (Nat.le_of_lt_succ hj) with hlt | rfl
    · simp only [OpenCapture.add, Function.update_of_ne (Nat.ne_of_lt hlt)]
      exact (gd55b01geWriteData_apart (hapart _ (h.infoMarked j hlt)) hk).trans (h.info j hlt k hk)
    · simp only [OpenCapture.add, Function.update_self, ← haddr]
      exact gd55b01geWriteData_blank _ hk (hblank.apart hapart hk)
  · rcases Nat.lt_or_eq_of_le (Nat.le_of_lt_succ hj) with hlt | rfl
    · exact List.mem_cons_of_mem _ (h.infoMarked j hlt)
    · exact haddr ▸ List.mem_cons_self

/-- The index entry completes the capture. -/
theorem Held.readsBack (h : Held item f.cells programmed c)
    (hblank : BlankOutside programmed f.cells)
    (hapart : ∀ b ∈ programmed, Stretch.Apart ⟨addr, 16⟩ b) :
    ReadsBack (gd55b01geWriteData f addr item.byte 16).cells
      ⟨addr, item, c.seg, c.msg, c.info⟩ := by
  refine ⟨fun k hk => ?_, fun k hk => ?_, fun j hj k hk => ?_⟩
  · exact gd55b01geWriteData_blank _ hk (hblank.apart hapart hk)
  · exact (gd55b01geWriteData_apart (hapart _ h.msgMarked) hk).trans (h.msg k hk)
  · exact (gd55b01geWriteData_apart (hapart _ (h.infoMarked j hj)) hk).trans (h.info j hj k hk)

end

theorem storageWriteAlarmInfo_refused {s : AlarmStore} {ts : UInt32} (off : Nat)
    (data : Nat → UInt8) (len : Nat) (flag : Bool) (hts : ts ≠ s.alarm.indexItem.timestamp) :
    (storageWriteAlarmInfo true s ts off data len flag).1 = s := by
  rw [storageWriteAlarmInfo, if_pos rfl, if_pos hts]

theorem alarmObjectInit_infoAddr (c : ConfigInfo) : (alarmObjectInit c).infoAddr < 2 ^ 32 := by
  unfold alarmObjectInit
  split
  · decide
  · split
    · exact Nat.mod_lt _ (by decide)
    · decide

theorem AlarmStore.finish_infoAddr (s : AlarmStore) (h : s.alarm.infoAddr < 2 ^ 32) :
    s.finish.alarm.infoAddr < 2 ^ 32 := by
  simp only [AlarmStore.finish]
  split
  · exact (by decide : alarmInfoStartAddr < 2 ^ 32)
  · exact h

namespace Durable

variable {d : AlarmDevice}

theorem boot (c : ConfigInfo) : Durable (.boot c) :=
  ⟨alarmObjectInit_infoAddr _, fun _ _ => rfl, nofun, nofun, nofun⟩

theorem restart (d' : AlarmDevice) {flash : Flash} (h : BlankOutside d'.programmed flash.cells) :
    Durable (d'.restart flash) :=
  ⟨alarmObjectInit_infoAddr _, h, nofun, nofun, nofun⟩

theorem message (h : Durable d) (ts : UInt32) (msg : Nat → UInt8)
    (hguard : WritesBlank d (.message ts msg)) : Durable (d.message ts msg) := by
  have haddr : d.store.alarm.addr + 32 ≤ 2 ^ 27 := hguard.inside _ List.mem_cons_self
  have hmsg : (UInt32.ofNat d.store.alarm.addr).toNat = d.store.alarm.addr :=
    UInt32.toNat_ofNat'.trans (Nat.mod_eq_of_lt (by omega))
  have hinfo : (UInt32.ofNat d.store.alarm.infoAddr).toNat = d.store.alarm.infoAddr :=
    UInt32.toNat_ofNat'.trans (Nat.mod_eq_of_lt h.infoAddr)
  refine ⟨h.infoAddr, h.blank.write, ?_, ?_, nofun⟩
  · intro c hc hfresh
    obtain rfl := Option.some.inj hc
    have hblank : d.Blank (.message ts msg) := of_decide_eq_true hfresh
    exact Held.start h.blank (hblank.2 _ List.mem_cons_self) _ hmsg ts _
  · intro c hc _
    obtain rfl := Option.some.inj hc
    exact hinfo.symm

theorem info_refused (h : Durable d) {ts : UInt32} (data : Nat → UInt8) (flag : Bool)
    (hts : ts ≠ d.store.alarm.indexItem.timestamp) : Durable (d.info ts data flag) := by
  have hstore := storageWriteAlarmInfo_refused 0 data adcDataSize flag hts
  have hprogrammed : (d.info ts data flag).programmed = d.programmed :=
    congrArg (· ++ d.programmed) (if_neg hts)
  have hcap : (d.info ts data flag).capturing = d.capturing := by
    simp [AlarmDevice.info, hts]
  have hclosed : (d.info ts data flag).closed = none := by
    simp [AlarmDevice.info, hts]
  refine ⟨?_, ?_, ?_, ?_, ?_⟩
  · simpa only [AlarmDevice.info, hstore] using h.infoAddr
  · rw [hprogrammed]
    simpa only [AlarmDevice.info, hstore] using h.blank
  · intro c hc hfresh
    rw [hprogrammed]
    simpa only [AlarmDevice.info, hstore] using h.held c (hcap ▸ hc) (Bool.and_elim_left hfresh)
  · intro c hc hfresh
    simpa only [AlarmDevice.info, hstore] using h.next c (hcap ▸ hc) (Bool.and_elim_left hfresh)
  · intro r hr
    rw [hclosed] at hr
    cases hr

theorem info_plain (h : Durable d) {ts : UInt32} (data : Nat → UInt8)
    (hguard : WritesBlank d (.info ts data false))
    (hts : ts = d.store.alarm.indexItem.timestamp) : Durable (d.info ts data false) := by
  have htouched : d.touched (.info ts data false) = [⟨d.store.alarm.infoAddr, 64000⟩] :=
    if_pos hts
  have hinside : d.store.alarm.infoAddr + 64000 ≤ 2 ^ 27 := by
    have := hguard.inside
    rw [htouched] at this
    exact this _ List.mem_cons_self
  obtain ⟨-, hinfo, -, -, hitem, -, hflash⟩ := storageWriteAlarmInfo_plain 0 data adcDataSize hts
  have hprogrammed : (d.info ts data false).programmed =
      ⟨d.store.alarm.infoAddr, 64000⟩ :: d.programmed := congrArg (· ++ d.programmed) htouched
  have hcap : ∀ c, (d.info ts data false).capturing = some c →
      ∃ c', d.capturing = some c' ∧ c = c'.add data := by
    intro c hc
    obtain ⟨c', hc', hsome⟩ := Option.bind_eq_some_iff.mp hc
    rw [if_pos hts, if_neg Bool.false_ne_true] at hsome
    exact ⟨c', hc', (Option.some.inj hsome).symm⟩
  refine ⟨?_, ?_, ?_, ?_, ?_⟩
  · exact hinfo.trans_lt (Nat.mod_lt _ (by decide))
  · rw [hprogrammed]
    exact hflash ▸ h.blank.write
  · intro c hc hfresh
    obtain ⟨c', hc', rfl⟩ := hcap c hc
    obtain ⟨hfresh, hblank⟩ := Bool.and_eq_true_iff.mp hfresh
    have hapart := (of_decide_eq_true hblank).2
    rw [htouched] at hapart
    rw [hprogrammed]
    exact hitem.symm ▸ hflash ▸ (h.held c' hc' hfresh).add h.blank (h.next c' hc' hfresh)
      (hapart _ List.mem_cons_self) data
  · intro c hc hfresh
    obtain ⟨c', hc', rfl⟩ := hcap c hc
    have hnext := h.next c' hc' (Bool.and_elim_left hfresh)
    have hitem' : (d.info ts data false).store.alarm.indexItem = d.store.alarm.indexItem := hitem
    refine hinfo.trans ?_
    rw [hitem', OpenCapture.add_seg, adcDataSize, Nat.mod_eq_of_lt (by omega), hnext]
    omega
  · intro r hr
    obtain ⟨c, -, hr⟩ := Option.bind_eq_some_iff.mp hr
    rw [if_neg (fun hboth => Bool.false_ne_true hboth.2)] at hr
    cases hr

theorem info_flag (h : Durable d) {ts : UInt32} (data : Nat → UInt8)
    (hguard : WritesBlank d (.info ts data true))
    (hts : ts = d.store.alarm.indexItem.timestamp) : Durable (d.info ts data true) := by
  have htouched : d.touched (.info ts data true) =
      [⟨d.store.alarm.indexAddr, 16⟩, ⟨d.store.alarm.infoAddr, 64000⟩] := if_pos hts
  obtain ⟨-, hinfo, hindex, -, hitem, -, hflash⟩ :=
    storageWriteAlarmInfo_plain 0 data adcDataSize hts
  have hstore : (d.info ts data true).store = _ :=
    storageWriteAlarmInfo_flag 0 data adcDataSize hts
  have hcells : (d.info ts data true).store.flash =
      gd55b01geWriteData (gd55b01geWriteData d.store.flash d.store.alarm.infoAddr data 64000)
        d.store.alarm.indexAddr d.store.alarm.indexItem.byte 16 := by
    rw [hstore, AlarmStore.finish, hindex, hitem, hflash]
    rfl
  have hprogrammed : (d.info ts data true).programmed = ⟨d.store.alarm.indexAddr, 16⟩ ::
      ⟨d.store.alarm.infoAddr, 64000⟩ :: d.programmed := congrArg (· ++ d.programmed) htouched
  have hnone : (d.info ts data true).capturing = none := by
    simp [AlarmDevice.info, hts]
  refine ⟨?_, ?_, ?_, ?_, ?_⟩
  · rw [hstore]
    exact AlarmStore.finish_infoAddr _ (hinfo.trans_lt (Nat.mod_lt _ (by decide)))
  · rw [hprogrammed, hcells]
    exact h.blank.write.write
  · intro c hc
    rw [hnone] at hc
    cases hc
  · intro c hc
    rw [hnone] at hc
    cases hc
  · intro r hr
    obtain ⟨c, hc, hr⟩ := Option.bind_eq_some_iff.mp hr
    rw [if_pos ⟨hts, rfl⟩] at hr
    obtain rfl := Option.some.inj hr
    obtain ⟨hfresh, hpairwise, hapart⟩ := hguard.blank ⟨Option.isSome_of_mem hc, hts, rfl⟩
    rw [htouched] at hpairwise hapart
    have hadd := (h.held c hc hfresh).add h.blank (h.next c hc hfresh)
      (hapart _ (List.mem_cons_of_mem _ List.mem_cons_self)) data
    rw [hcells]
    refine hadd.readsBack h.blank.write fun b hb => ?_
    rcases List.mem_cons.mp hb with rfl | hb
    · exact List.rel_of_pairwise_cons hpairwise List.mem_cons_self
    · exact hapart _ List.mem_cons_self b hb

theorem info (h : Durable d) {ts : UInt32} {data : Nat → UInt8} {flag : Bool}
    (hguard : WritesBlank d (.info ts data flag)) : Durable (d.info ts data flag) := by
  by_cases hts : ts = d.store.alarm.indexItem.timestamp
  · cases flag with
    | false => exact h.info_plain data hguard hts
    | true => exact h.info_flag data hguard hts
  · exact h.info_refused data flag hts

theorem step (h : Durable d) {e : DeviceEvent} (hguard : WritesBlank d e) :
    Durable (d.step e) := by
  have hcycle : Durable (d.restart d.store.flash) := restart d h.blank
  cases e with
  | message ts msg => exact h.message ts msg hguard
  | info ts data flag => exact h.info hguard
  | clearConfig => exact ⟨h.infoAddr, h.blank, h.held, h.next, nofun⟩
  | clear =>
    exact ⟨(by decide : alarmInfoStartAddr < 2 ^ 32), fun _ _ => rfl,
      fun _ _ hfresh => absurd hfresh Bool.false_ne_true,
      fun _ _ hfresh => absurd hfresh Bool.false_ne_true, nofun⟩
  | save => exact ⟨h.infoAddr, h.blank, h.held, h.next, nofun⟩
  | powerCycle => exact hcycle
  | cutMessage junk => exact restart (d.marked _) h.blank.write
  | cutInfo ts junk =>
    by_cases hts : ts = d.store.alarm.indexItem.timestamp
    · simp only [AlarmDevice.step, if_pos hts]
      refine restart (d.marked _) ?_
      simp only [AlarmDevice.marked, AlarmDevice.touched, if_pos hts]
      exact h.blank.write
    · simpa only [AlarmDevice.step, if_neg hts] using hcycle
  | cutIndex ts data junk =>
    by_cases hts : ts = d.store.alarm.indexItem.timestamp
    · simp only [AlarmDevice.step, if_pos hts]
      refine restart (d.marked _) ?_
      simp only [AlarmDevice.marked, AlarmDevice.touched, if_pos hts]
      exact h.blank.write.write
    · simpa only [AlarmDevice.step, if_neg hts] using hcycle
  | cutClear junk =>
    refine restart (d.marked _) fun x hx => ?_
    have hout : ¬ (0 ≤ x ∧ x < 0 + gd55b01geTotalSize) := hx _ List.mem_cons_self
    have hbeyond : x < 0 ∨ 0 + gd55b01geTotalSize ≤ x := by omega
    have hcells := overlay_out (fun _ b => b) d.store.flash.cells junk hbeyond
    exact hcells.trans (h.blank x fun b hb => hx b (List.mem_cons_of_mem _ hb))

end Durable

/-- In every run that writes to blank cells only, every capture stands in the
flash as it was given when its index entry has been written. -/
theorem alarmDevice_durable (c : ConfigInfo) (es : List DeviceEvent)
    (hes : (alarmDevice c).Guarded WritesBlank (.boot c) es) (r : ClosedCapture)
    (hr : ((alarmDevice c).run es).closed = some r) :
    ReadsBack ((alarmDevice c).run es).store.flash.cells r :=
  have hdurable : Durable ((alarmDevice c).run es) :=
    (alarmDevice c).invariant_run (Durable.boot c)
      (fun _ _ (h : Durable _) hguard => h.step hguard) hes
  hdurable.closed r hr

/-- A capture, a second that comes too late for it, another capture, a message
that a power failure cuts short, and a third capture after the log has been
cleared. -/
def threeCaptures : List DeviceEvent :=
  [.message 100 (fun _ => 1), .info 100 (fun _ => 2) false, .info 100 (fun _ => 3) false,
    .info 100 (fun _ => 4) true, .info 100 (fun _ => 4) false, .message 200 (fun _ => 5),
    .info 200 (fun _ => 6) false, .info 200 (fun _ => 7) false, .info 200 (fun _ => 8) true,
    .save, .cutMessage (fun _ => 9), .clearConfig, .clear, .save, .powerCycle,
    .message 300 (fun _ => 10), .info 300 (fun _ => 11) false, .info 300 (fun _ => 12) false,
    .info 300 (fun _ => 13) true]

theorem alarmDevice_durable_thrice :
    (∃ r, ((alarmDevice .nextOn).run (threeCaptures.take 9)).closed = some r ∧ r.segs = 3 ∧
      ReadsBack ((alarmDevice .nextOn).run (threeCaptures.take 9)).store.flash.cells r) ∧
    ∃ r, ((alarmDevice .nextOn).run threeCaptures).closed = some r ∧ r.segs = 3 ∧
      ReadsBack ((alarmDevice .nextOn).run threeCaptures).store.flash.cells r :=
  ⟨⟨_, rfl, rfl, alarmDevice_durable .nextOn _ (by decide) _ rfl⟩,
    ⟨_, rfl, rfl, alarmDevice_durable .nextOn _ (by decide) _ rfl⟩⟩

/-- The head of a message: the time in BCD. -/
def messageAt (second : UInt8) (k : Nat) : UInt8 :=
  [0x26, 0x01, 0x01, 0x12, 0x00, second].getD k 0

/-- Power fails after the message of one alarm; the message of the next alarm is
programmed over it. -/
theorem alarmDevice_not_durable_restart :
    ∃ r, ((alarmDevice .nextOn).run [.message 100 (messageAt 1), .powerCycle,
        .message 101 (messageAt 2), .info 101 (fun _ => 2) false, .info 101 (fun _ => 3) false,
        .info 101 (fun _ => 4) true]).closed = some r ∧
      ¬ ReadsBack ((alarmDevice .nextOn).run [.message 100 (messageAt 1), .powerCycle,
        .message 101 (messageAt 2), .info 101 (fun _ => 2) false, .info 101 (fun _ => 3) false,
        .info 101 (fun _ => 4) true]).store.flash.cells r := by
  refine ⟨_, rfl, fun hback => ?_⟩
  have hgiven := hback.msg 5 (by decide)
  change (gd55b01geWriteData (gd55b01geWriteData (gd55b01geWriteData (gd55b01geWriteData
    (gd55b01geWriteData (gd55b01geWriteData .erased 0 (messageAt 1) 32) 0 (messageAt 2) 32)
    20480 (fun _ => 2) 64000) 84480 (fun _ => 3) 64000) 148480 (fun _ => 4) 64000)
    130023424 (slotItem 0 101).byte 16).cells (0 + 5) = messageAt 2 5 at hgiven
  -- neither the seconds nor the index entry come near the message
  rw [gd55b01geWriteData_out _ (by omega), gd55b01geWriteData_out _ (by omega),
    gd55b01geWriteData_out _ (by omega), gd55b01geWriteData_out _ (by omega),
    gd55b01geWriteData_cells, overlay_add _ _ _ (by decide),
    gd55b01geWriteData_blank _ (by decide) rfl] at hgiven
  exact absurd hgiven (by decide)

end Lsc100
