import Lsc100.Alarm.Ring

/-! The part of the flash that belongs to one capture. A slot that is blank when
its message is written takes everything a capture writes as it is, and writes to
one slot leave the others alone. -/

namespace Lsc100

/-- A capture in progress: what it was given so far. -/
structure OpenCapture where
  ts : UInt32
  msg : Nat → UInt8
  seg : Nat
  info : Nat → Nat → UInt8

/-- A capture whose index entry has just been written, and where. -/
structure ClosedCapture where
  indexAddr : Nat
  item : AlarmIndexItem
  segs : Nat
  msg : Nat → UInt8
  info : Nat → Nat → UInt8

/-- Everything the capture was given stands in the flash, at the addresses its
index entry records. -/
structure ReadsBack (cells : Nat → UInt8) (r : ClosedCapture) : Prop where
  item : ∀ k < 16, cells (r.indexAddr + k) = r.item.byte k
  msg : ∀ k < 32, cells (r.item.msgAddr.toNat + k) = r.msg k
  info : ∀ j < r.segs, ∀ k < 64000, cells (r.item.infoAddr.toNat + 64000 * j + k) = r.info j k

def InSlot (k x : Nat) : Prop :=
  (32 * k ≤ x ∧ x < 32 * k + 32) ∨
    (alarmInfoStartAddr + 192000 * k ≤ x ∧ x < alarmInfoStartAddr + 192000 * (k + 1)) ∨
    (alarmIndexStartAddr + 16 * k ≤ x ∧ x < alarmIndexStartAddr + 16 * k + 16)

theorem InSlot.unique {j k x : Nat} (hj : j < 640) (hk : k < 640) (hxj : InSlot j x)
    (hxk : InSlot k x) : j = k := by
  have hinfo : alarmInfoStartAddr = 20480 := rfl
  have hindex : alarmIndexStartAddr = 130023424 := rfl
  simp only [InSlot, hinfo, hindex] at hxj hxk
  omega

theorem slotItem_msgAddr {slot : Nat} (hslot : slot < 640) (ts : UInt32) :
    (slotItem slot ts).msgAddr.toNat = 32 * slot :=
  (UInt32.toNat_ofNat').trans (Nat.mod_eq_of_lt (by omega))

theorem slotItem_infoAddr {slot : Nat} (hslot : slot < 640) (ts : UInt32) :
    (slotItem slot ts).infoAddr.toNat = alarmInfoStartAddr + 192000 * slot := by
  have hinfo : alarmInfoStartAddr = 20480 := rfl
  exact (UInt32.toNat_ofNat').trans (Nat.mod_eq_of_lt (by omega))

/-- A capture in progress: its message and seconds so far are in the slot, the
rest of the slot is blank. -/
structure Filling (cells : Nat → UInt8) (slot : Nat) (c : OpenCapture) : Prop where
  msg : ∀ k < 32, cells (32 * slot + k) = c.msg k
  info : ∀ j < c.seg, ∀ k < 64000,
    cells (alarmInfoStartAddr + 192000 * slot + 64000 * j + k) = c.info j k
  blankInfo : ∀ k, 64000 * c.seg ≤ k → k < 192000 →
    cells (alarmInfoStartAddr + 192000 * slot + k) = 0xFF
  blankIndex : ∀ k < 16, cells (alarmIndexStartAddr + 16 * slot + k) = 0xFF

theorem write_other_slot (f : Flash) {slot k x addr count : Nat} {data : Nat → UInt8}
    (hslot : slot < 640) (hin : ∀ x, addr ≤ x → x < addr + count → InSlot slot x) (hk : k < 640)
    (hne : k ≠ slot) (hx : InSlot k x) :
    (gd55b01geWriteData f addr data count).cells x = f.cells x := by
  refine gd55b01geWriteData_out f ?_
  by_contra hmid
  exact hne (hx.unique hk hslot (hin x (by omega) (by omega)))

theorem inSlot_msg {slot x : Nat} (h : 32 * slot ≤ x) (h' : x < 32 * slot + 32) : InSlot slot x :=
  .inl ⟨h, h'⟩

theorem inSlot_info {slot seg x : Nat} (hseg : seg ≤ 2)
    (h : alarmInfoStartAddr + 192000 * slot + 64000 * seg ≤ x)
    (h' : x < alarmInfoStartAddr + 192000 * slot + 64000 * seg + 64000) : InSlot slot x := by
  unfold InSlot
  omega

theorem inSlot_index {slot x : Nat} (h : alarmIndexStartAddr + 16 * slot ≤ x)
    (h' : x < alarmIndexStartAddr + 16 * slot + 16) : InSlot slot x :=
  .inr (.inr ⟨h, h'⟩)

/-- A message written to a blank slot opens a capture there. -/
theorem Filling.start (f : Flash) {slot : Nat} (hslot : slot < 640)
    (hblank : ∀ x, InSlot slot x → f.cells x = 0xFF) (ts : UInt32) (msg : Nat → UInt8)
    (info : Nat → Nat → UInt8) :
    Filling (gd55b01geWriteData f (32 * slot) msg 32).cells slot ⟨ts, msg, 0, info⟩ := by
  have hinfo : alarmInfoStartAddr = 20480 := rfl
  have hindex : alarmIndexStartAddr = 130023424 := rfl
  refine ⟨fun k hk => ?_, nofun, fun k _ hk => ?_, fun k hk => ?_⟩
  · exact gd55b01geWriteData_blank f hk (hblank _ (inSlot_msg (by omega) (by omega)))
  · rw [gd55b01geWriteData_out f (by omega)]
    exact hblank _ (.inr (.inl ⟨by omega, by omega⟩))
  · rw [gd55b01geWriteData_out f (by omega)]
    exact hblank _ (inSlot_index (by omega) (by omega))

theorem Filling.second (f : Flash) {slot : Nat} {c : OpenCapture} (h : Filling f.cells slot c)
    (hslot : slot < 640) (hseg : c.seg ≤ 2) (data : Nat → UInt8) :
    Filling (gd55b01geWriteData f (alarmInfoStartAddr + 192000 * slot + 64000 * c.seg) data
      64000).cells slot { c with seg := c.seg + 1, info := Function.update c.info c.seg data } := by
  have hinfo : alarmInfoStartAddr = 20480 := rfl
  have hindex : alarmIndexStartAddr = 130023424 := rfl
  refine ⟨fun k hk => ?_, fun j hj k hk => ?_, fun k hk hk' => ?_, fun k hk => ?_⟩
  · rw [gd55b01geWriteData_out f (by omega)]
    exact h.msg k hk
  · rcases Nat.lt_or_eq_of_le (Nat.le_of_lt_succ hj) with hlt | rfl
    · rw [gd55b01geWriteData_out f (by omega)]
      simp only [Function.update_of_ne (Nat.ne_of_lt hlt)]
      exact h.info j hlt k hk
    · have hblank := h.blankInfo (64000 * c.seg + k) (by omega) (by omega)
      rw [← Nat.add_assoc] at hblank
      simp only [Function.update_self]
      exact gd55b01geWriteData_blank f hk hblank
  · simp only at hk
    rw [gd55b01geWriteData_out f (by omega)]
    exact h.blankInfo k (by omega) hk'
  · rw [gd55b01geWriteData_out f (by omega)]
    exact h.blankIndex k hk

/-- With three seconds in the slot, the index entry completes the capture. -/
theorem Filling.readsBack (f : Flash) {slot : Nat} {c : OpenCapture} (h : Filling f.cells slot c)
    (hslot : slot < 640) (hseg : c.seg = 3) (ts : UInt32) :
    ReadsBack (gd55b01geWriteData f (alarmIndexStartAddr + 16 * slot) (slotItem slot ts).byte
      16).cells ⟨alarmIndexStartAddr + 16 * slot, slotItem slot ts, 3, c.msg, c.info⟩ := by
  have hinfo : alarmInfoStartAddr = 20480 := rfl
  have hindex : alarmIndexStartAddr = 130023424 := rfl
  refine ⟨fun k hk => ?_, fun k hk => ?_, fun j hj k hk => ?_⟩
  · exact gd55b01geWriteData_blank f hk (h.blankIndex k hk)
  · simp only [slotItem_msgAddr hslot]
    rw [gd55b01geWriteData_out f (by omega)]
    exact h.msg k hk
  · have hj : j < 3 := hj
    simp only [slotItem_infoAddr hslot]
    rw [gd55b01geWriteData_out f (by omega)]
    exact h.info j (by omega) k hk

section

variable {s : AlarmStore} {slot num : Nat}

theorem AtSlot.capture_flash (h : AtSlot s slot num) (hslot : slot ≤ 640) (hnum : num ≤ 640)
    (c : Capture) :
    (s.capture c).flash = gd55b01geWriteData (gd55b01geWriteData (gd55b01geWriteData
      (gd55b01geWriteData (gd55b01geWriteData s.flash (32 * slot) c.msg 32)
      (alarmInfoStartAddr + 192000 * slot + 64000 * 0) (c.info 0) 64000)
      (alarmInfoStartAddr + 192000 * slot + 64000 * 1) (c.info 1) 64000)
      (alarmInfoStartAddr + 192000 * slot + 64000 * 2) (c.info 2) 64000)
      (alarmIndexStartAddr + 16 * slot) (slotItem slot c.ts).byte 16 := by
  obtain ⟨h₀, hf₀⟩ := h.write_msg hslot c.ts c.msg
  obtain ⟨h₁, hf₁⟩ := h₀.segment hslot (by decide) 0 (c.info 0)
  obtain ⟨h₂, hf₂⟩ := h₁.segment hslot (by decide) 0 (c.info 1)
  obtain ⟨-, hf₃⟩ := h₂.last hslot hnum 0 (c.info 2)
  rw [hf₂, hf₁, hf₀] at hf₃
  exact hf₃

theorem AtSlot.capture_readsBack (h : AtSlot s slot slot) (hslot : slot < 640)
    (hblank : ∀ x, InSlot slot x → s.flash.cells x = 0xFF) (c : Capture) :
    ReadsBack (s.capture c).flash.cells
      ⟨alarmIndexStartAddr + 16 * slot, slotItem slot c.ts, 3, c.msg, c.info⟩ := by
  have h₀ := Filling.start s.flash hslot hblank c.ts c.msg c.info
  have h₁ := h₀.second _ hslot (Nat.zero_le 2) (c.info 0)
  simp only [Function.update_eq_self] at h₁
  have h₂ := h₁.second _ hslot (Nat.le_succ 1) (c.info 1)
  simp only [Function.update_eq_self] at h₂
  have h₃ := h₂.second _ hslot (Nat.le_refl 2) (c.info 2)
  simp only [Function.update_eq_self] at h₃
  rw [h.capture_flash (Nat.le_of_lt hslot) (Nat.le_of_lt hslot)]
  exact h₃.readsBack _ hslot rfl c.ts

theorem AtSlot.capture_other (h : AtSlot s slot num) (hslot : slot < 640) (hnum : num ≤ 640)
    (c : Capture) {k x : Nat} (hk : k < 640) (hne : k ≠ slot) (hx : InSlot k x) :
    (s.capture c).flash.cells x = s.flash.cells x := by
  rw [h.capture_flash (Nat.le_of_lt hslot) hnum,
    write_other_slot _ hslot (fun x => inSlot_index) hk hne hx,
    write_other_slot _ hslot (fun x => inSlot_info (by decide)) hk hne hx,
    write_other_slot _ hslot (fun x => inSlot_info (by decide)) hk hne hx,
    write_other_slot _ hslot (fun x => inSlot_info (by decide)) hk hne hx,
    write_other_slot _ hslot (fun x => inSlot_msg) hk hne hx]

end

end Lsc100
