import Lsc100.Alarm.Ring

/-! Which slots the captures of a run go to. The log allocates slots without
regard to what it holds, so the sequence of slots is a function of the sequence
of captures and restarts alone. -/

namespace Lsc100

/-- Slots given out so far, the next one, and the saturated count. -/
structure SlotAlloc where
  given : List Nat
  next : Nat
  num : Nat

def slotAlloc : Machine SlotAlloc AlarmEvent where
  start := ⟨[], 0, 0⟩
  step a
    | .capture _ => ⟨a.given ++ [a.next], nextSlot a.next a.num, min (a.num + 1) 640⟩
    | .reboot => { a with next := a.num }

/-- What is written when capture `m` goes to slot `slots[m]`. -/
def opsAt (cs : List Capture) (slots : List Nat) : List FlashOp :=
  (cs.zip slots).flatMap fun p => captureOps p.2 p.1

theorem opsAt_concat {cs : List Capture} {slots : List Nat} (hlen : cs.length = slots.length)
    (c : Capture) (slot : Nat) :
    opsAt (cs ++ [c]) (slots ++ [slot]) = opsAt cs slots ++ captureOps slot c := by
  simp [opsAt, List.zip_append hlen]

theorem captureOps_inj {c : Capture} {slot slot' : Nat}
    (h : captureOps slot c = captureOps slot' c) : slot = slot' := by
  simp only [captureOps, List.cons.injEq, FlashOp.write.injEq] at h
  omega

theorem opsAt_inj {cs : List Capture} {slots slots' : List Nat} (hlen : slots.length = cs.length)
    (hlen' : slots'.length = cs.length) (h : opsAt cs slots = opsAt cs slots') :
    slots = slots' := by
  induction cs generalizing slots slots' with
  | nil => rw [List.eq_nil_of_length_eq_zero hlen, List.eq_nil_of_length_eq_zero hlen']
  | cons c cs ih =>
    cases slots with
    | nil => simp at hlen
    | cons slot slots =>
      cases slots' with
      | nil => simp at hlen'
      | cons slot' slots' =>
        obtain ⟨hhead, htail⟩ := List.append_inj h rfl
        have hslot : slot = slot' := captureOps_inj hhead
        rw [hslot, ih (Nat.succ.inj hlen) (Nat.succ.inj hlen') htail]

/-- A restart is taken with exactly 640 captures in the log. -/
def RebootFull (es : List AlarmEvent) : Prop :=
  ∃ fs gs, es = fs ++ .reboot :: gs ∧ (captures fs).length = 640

@[simp] theorem captures_append (es fs : List AlarmEvent) :
    captures (es ++ fs) = captures es ++ captures fs := List.filterMap_append

@[simp] theorem captures_capture (c : Capture) : captures [.capture c] = [c] := rfl

@[simp] theorem captures_reboot : captures [.reboot] = [] := rfl

theorem rebootFull_append (es : List AlarmEvent) (e : AlarmEvent) :
    RebootFull (es ++ [e]) ↔ RebootFull es ∨ e = .reboot ∧ (captures es).length = 640 := by
  constructor
  · rintro ⟨fs, gs, heq, hfull⟩
    rcases List.eq_nil_or_concat gs with rfl | ⟨gs, e', rfl⟩
    · obtain ⟨rfl, he⟩ := List.append_inj' heq rfl
      exact .inr ⟨List.singleton_inj.mp he, hfull⟩
    · rw [List.concat_eq_append, ← List.cons_append, ← List.append_assoc] at heq
      obtain ⟨rfl, -⟩ := List.append_inj' heq rfl
      exact .inl ⟨fs, gs, rfl, hfull⟩
  · rintro (⟨fs, gs, rfl, hfull⟩ | ⟨rfl, hfull⟩)
    · exact ⟨fs, gs ++ [e], by simp, hfull⟩
    · exact ⟨es, [], rfl, hfull⟩

theorem RebootFull.length_le {es : List AlarmEvent} (h : RebootFull es) :
    640 ≤ (captures es).length := by
  obtain ⟨fs, gs, rfl, hfull⟩ := h
  rw [captures_append, List.length_append]
  omega

/-- The slots of a run: in order up to the last one, then always the first, but
for the slot behind the last one after a restart with a full log. -/
structure Allocated (es : List AlarmEvent) (a : SlotAlloc) : Prop where
  length : a.given.length = (captures es).length
  num : a.num = min a.given.length 640
  next_small : a.given.length < 640 → a.next = a.given.length
  next_full : 640 ≤ a.given.length → a.next = 0 ∨ a.next = 640
  next_reboot : a.given.length = 640 → (a.next = 640 ↔ RebootFull es)
  given_small : ∀ m < 640, m < a.given.length → a.given[m]? = some m
  given_full : ∀ m, 640 ≤ m → m < a.given.length →
    a.given[m]? = some 0 ∨ a.given[m]? = some 640
  given_reboot : 640 < a.given.length → (a.given[640]? = some 640 ↔ RebootFull es)

namespace Allocated

variable {es : List AlarmEvent} {a : SlotAlloc}

theorem next_le (h : Allocated es a) : a.next ≤ 640 := by
  rcases Nat.lt_or_ge a.given.length 640 with hlt | hge
  · rw [h.next_small hlt]
    omega
  · rcases h.next_full hge with hz | hz <;> omega

theorem capture (h : Allocated es a) (c : Capture) :
    Allocated (es ++ [.capture c]) (slotAlloc.step a (.capture c)) := by
  have hlength := h.length
  have hnum := h.num
  have hreboot : RebootFull (es ++ [.capture c]) ↔ RebootFull es := by
    rw [rebootFull_append]
    simp
  have hgiven : (slotAlloc.step a (.capture c)).given = a.given ++ [a.next] := rfl
  have hnext : (slotAlloc.step a (.capture c)).next = nextSlot a.next a.num := rfl
  have hnum' : (slotAlloc.step a (.capture c)).num = min (a.num + 1) 640 := rfl
  have hlen : (a.given ++ [a.next]).length = a.given.length + 1 := by simp
  have hold : ∀ m < a.given.length, (a.given ++ [a.next])[m]? = a.given[m]? :=
    fun m hm => List.getElem?_append_left hm
  have hnew : (a.given ++ [a.next])[a.given.length]? = some a.next := List.getElem?_concat_length
  generalize slotAlloc.step a (.capture c) = a' at hgiven hnext hnum'
  rw [← hgiven] at hlen hold hnew
  constructor
  · rw [hlen, hlength, captures_append, List.length_append, captures_capture,
      List.length_singleton]
  · rw [hlen, hnum']
    omega
  · intro hlt
    rw [hlen, hnext, nextSlot, if_neg (by omega), h.next_small (by omega)]
  · intro hge
    exact .inl (hnext.trans (if_pos (by omega)))
  · intro heq
    rw [hnext, nextSlot, if_pos (by omega), hreboot]
    refine ⟨fun hz => absurd hz (by decide), fun hfull => ?_⟩
    have := hfull.length_le
    omega
  · intro m hm hlt
    rcases Nat.lt_or_eq_of_le (Nat.le_of_lt_succ (hlen ▸ hlt)) with hlt | rfl
    · rw [hold m hlt]
      exact h.given_small m hm hlt
    · rw [hnew, h.next_small hm]
  · intro m hm hlt
    rcases Nat.lt_or_eq_of_le (Nat.le_of_lt_succ (hlen ▸ hlt)) with hlt | rfl
    · rw [hold m hlt]
      exact h.given_full m hm hlt
    · rw [hnew]
      exact (h.next_full hm).imp (congrArg some) (congrArg some)
  · intro hlt
    rw [hreboot]
    rcases Nat.lt_or_eq_of_le (Nat.le_of_lt_succ (hlen ▸ hlt)) with hlt | heq
    · rw [hold 640 hlt]
      exact h.given_reboot hlt
    · rw [heq, hnew, Option.some.injEq, ← heq]
      exact h.next_reboot heq.symm

theorem reboot (h : Allocated es a) :
    Allocated (es ++ [.reboot]) (slotAlloc.step a .reboot) := by
  have hlength := h.length
  have hnum := h.num
  have hnext : (slotAlloc.step a .reboot).next = a.num := rfl
  have hcaptures : captures (es ++ [.reboot]) = captures es := by simp
  have hreboot : RebootFull (es ++ [.reboot]) ↔ RebootFull es ∨ a.given.length = 640 := by
    rw [rebootFull_append, hlength]
    simp
  constructor
  · rw [hcaptures]
    exact hlength
  · exact hnum
  · intro hlt
    change a.given.length < 640 at hlt
    rw [hnext, hnum, Nat.min_eq_left (Nat.le_of_lt hlt)]
    rfl
  · intro hge
    exact .inr (hnext.trans (hnum.trans (Nat.min_eq_right hge)))
  · intro heq
    change a.given.length = 640 at heq
    rw [hnext, hreboot]
    exact ⟨fun _ => .inr heq, fun _ => by omega⟩
  · exact h.given_small
  · exact h.given_full
  · intro hlt
    change 640 < a.given.length at hlt
    rw [hreboot]
    exact (h.given_reboot hlt).trans ⟨.inl, fun hor => hor.resolve_right (by omega)⟩

theorem run (es : List AlarmEvent) : Allocated es (slotAlloc.run es) := by
  induction es using List.reverseRecOn with
  | nil =>
    have hnone : ¬ RebootFull [] := fun hfull => absurd hfull.length_le (by decide)
    exact ⟨rfl, rfl, fun _ => rfl, nofun, nofun, nofun, nofun, nofun⟩
  | append_singleton es e ih =>
    rw [Machine.run_concat]
    cases e with
    | capture c => exact ih.capture c
    | reboot => exact ih.reboot

theorem slots_iff {es : List AlarmEvent} {a : SlotAlloc} (h : Allocated es a) :
    a.given = (List.range a.given.length).map (· % 640) ↔
      a.given.length ≤ 640 ∨ a.given.length = 641 ∧ ¬ RebootFull es := by
  have hring : ∀ m < a.given.length,
      ((List.range a.given.length).map (· % 640))[m]? = some (m % 640) := fun m hm => by
    rw [List.getElem?_map, List.getElem?_range hm, Option.map_some]
  constructor
  · intro heq
    by_contra hbad
    have hsecond : a.given.length ≤ 641 := by
      by_contra hlong
      have hslot := hring 641 (by omega)
      rw [← heq] at hslot
      rcases h.given_full 641 (by omega) (by omega) with hz | hz
      all_goals simp [hz] at hslot
    have hlong : ¬ a.given.length ≤ 640 := fun hle => hbad (.inl hle)
    have hslot := hring 640 (by omega)
    rw [← heq] at hslot
    have hreboot : RebootFull es := by
      by_contra hnot
      exact hbad (.inr ⟨by omega, hnot⟩)
    have hlast := (h.given_reboot (by omega)).mpr hreboot
    simp [hlast] at hslot
  · intro hgood
    refine List.ext_getElem? fun m => ?_
    rcases Nat.lt_or_ge m a.given.length with hm | hm
    · rw [hring m hm]
      rcases Nat.lt_or_ge m 640 with hlt | hge
      · rw [h.given_small m hlt hm, Nat.mod_eq_of_lt hlt]
      · have hm640 : m = 640 := by omega
        subst hm640
        rcases h.given_full 640 hge hm with hz | hz
        · exact hz
        · have hreboot := (h.given_reboot hm).mp hz
          exact absurd hreboot (hgood.resolve_left (by omega)).2
    · rw [List.getElem?_eq_none hm, List.getElem?_eq_none (by simpa using hm)]

end Allocated

/-- The store follows the allocator and writes what it says. -/
theorem alarmLog_run {c : ConfigInfo} (hflag : c.flag = devFlagNextOn) (hnum : c.alarmNum = 0)
    (es : List AlarmEvent) :
    AtSlot ((alarmLog (.boot c)).run es) (slotAlloc.run es).next (slotAlloc.run es).num ∧
      ((alarmLog (.boot c)).run es).config.flag = devFlagNextOn ∧
      ((alarmLog (.boot c)).run es).config.alarmNum.toNat = (slotAlloc.run es).num ∧
      ((alarmLog (.boot c)).run es).flash.ops =
        opsAt (captures es) (slotAlloc.run es).given := by
  induction es using List.reverseRecOn with
  | nil => exact ⟨.boot hflag hnum, hflag, congrArg UInt16.toNat hnum, rfl⟩
  | append_singleton es e ih =>
    obtain ⟨hat, hon, hcount, hops⟩ := ih
    have halloc := Allocated.run es
    have hle : (slotAlloc.run es).num ≤ 640 := by
      rw [halloc.num]
      omega
    rw [Machine.run_concat, Machine.run_concat]
    cases e with
    | capture cap =>
      obtain ⟨hat', hops', hconfig⟩ := hat.capture halloc.next_le hle cap
      refine ⟨hat', hconfig ▸ hon, (congrArg (·.alarmNum.toNat) hconfig).trans ?_,
        hops'.trans ?_⟩
      · exact (UInt16.toNat_ofNat').trans (Nat.mod_eq_of_lt (by omega))
      · rw [hops, captures_append, captures_capture, ← opsAt_concat halloc.length.symm]
        rfl
    | reboot =>
      have hinit : AtSlot (((alarmLog (.boot c)).run es).reboot) _ _ :=
        AtSlot.init hon (hcount.trans_le hle) rfl
      rw [hcount] at hinit
      refine ⟨hinit, hon, hcount, hops.trans ?_⟩
      rw [captures_append, captures_reboot, List.append_nil]
      rfl

/-- Messages, seconds and index entries are told apart by their sizes. -/
def FlashOp.InOwnRegion : FlashOp → Prop
  | .write addr _ count =>
    if count = alarmMsgSize then addr + count ≤ alarmMsgEndAddr
    else if count = alarmIndexItemSize then
      alarmIndexStartAddr ≤ addr ∧ addr + count ≤ alarmIndexEndAddr
    else alarmInfoStartAddr ≤ addr ∧ addr + count ≤ alarmInfoEndAddr
  | .eraseChip => True

/-- Capture `m` lies in slot `m` modulo 640. -/
structure RingLaw (es : List AlarmEvent) (s : AlarmStore) : Prop where
  ops : s.flash.ops =
    opsAt (captures es) ((List.range (captures es).length).map (· % alarmItemTotalNum))
  distinct : ∀ i j, i < j → j < (captures es).length → (captures es).length ≤ i + 640 →
    i % alarmItemTotalNum ≠ j % alarmItemTotalNum
  regions : ∀ op ∈ s.flash.ops, op.InOwnRegion

theorem captureOps_inOwnRegion {slot : Nat} (hslot : slot < 640) (c : Capture) :
    ∀ op ∈ captureOps slot c, op.InOwnRegion := by
  intro op hop
  simp only [captureOps, List.mem_cons, List.not_mem_nil, or_false] at hop
  rcases hop with rfl | rfl | rfl | rfl | rfl
  · change 32 * slot + 32 ≤ 20480
    omega
  · change 20480 ≤ 20480 + 192000 * slot ∧ 20480 + 192000 * slot + 64000 ≤ 122900480
    omega
  · change 20480 ≤ 20480 + 192000 * slot + 64000 ∧
      20480 + 192000 * slot + 64000 + 64000 ≤ 122900480
    omega
  · change 20480 ≤ 20480 + 192000 * slot + 128000 ∧
      20480 + 192000 * slot + 128000 + 64000 ≤ 122900480
    omega
  · change 130023424 ≤ 130023424 + 16 * slot ∧ 130023424 + 16 * slot + 16 ≤ 130033664
    omega

theorem ringLaw_iff_slots {c : ConfigInfo} (hflag : c.flag = devFlagNextOn)
    (hnum : c.alarmNum = 0) (es : List AlarmEvent) :
    RingLaw es ((alarmLog (.boot c)).run es) ↔
      (slotAlloc.run es).given = (List.range (captures es).length).map (· % 640) := by
  obtain ⟨-, -, -, hops⟩ := alarmLog_run hflag hnum es
  have halloc := Allocated.run es
  constructor
  · intro h
    exact opsAt_inj halloc.length (by simp) (hops.symm.trans h.ops)
  · intro h
    rw [h] at hops
    refine ⟨hops, fun i j hij hj hle => ?_, fun op hop => ?_⟩
    · exact Cyclic.mod_ne_of_lt hij (by simp only [alarmItemTotalNum]; omega)
    · rw [hops, opsAt, List.mem_flatMap] at hop
      obtain ⟨⟨cap, slot⟩, hmem, hop⟩ := hop
      obtain ⟨m, -, rfl⟩ := List.mem_map.mp (List.of_mem_zip hmem).2
      exact captureOps_inOwnRegion (Nat.mod_lt m (by decide)) cap op hop

/-- The log is a ring for up to 640 captures, and for one more unless a restart
is taken with the log full. -/
theorem alarmLog_ring_iff (c : ConfigInfo) (es : List AlarmEvent)
    (hflag : c.flag = devFlagNextOn) (hnum : c.alarmNum = 0) :
    RingLaw es ((alarmLog (.boot c)).run es) ↔
      (captures es).length ≤ 640 ∨ (captures es).length = 641 ∧ ¬ RebootFull es := by
  rw [ringLaw_iff_slots hflag hnum, ← (Allocated.run es).length]
  exact (Allocated.run es).slots_iff

def blankCapture : Capture := ⟨0, fun _ => 0, fun _ _ => 0⟩

/-- Three captures and restarts around the second one. -/
theorem alarmLog_ring_three :
    RingLaw [.capture blankCapture, .reboot, .capture blankCapture, .reboot, .capture blankCapture]
      ((alarmLog (.boot .nextOn)).run
        [.capture blankCapture, .reboot, .capture blankCapture, .reboot, .capture blankCapture]) :=
  (alarmLog_ring_iff .nextOn
    [.capture blankCapture, .reboot, .capture blankCapture, .reboot, .capture blankCapture] rfl
    rfl).mpr (.inl (by decide))

theorem captures_replicate (n : Nat) (c : Capture) :
    captures (List.replicate n (.capture c)) = List.replicate n c := by
  induction n with
  | zero => rfl
  | succ n ih =>
    rw [List.replicate_succ', captures_append, ih, captures_capture, ← List.replicate_succ']

theorem not_ringLaw_replicate {n : Nat} (hn : 642 ≤ n) (c : Capture) :
    ¬ RingLaw (List.replicate n (.capture c))
      ((alarmLog (.boot .nextOn)).run (List.replicate n (.capture c))) := by
  have halloc := Allocated.run (List.replicate n (.capture c))
  have hlen := halloc.length
  rw [captures_replicate, List.length_replicate] at hlen
  rw [ringLaw_iff_slots rfl rfl, ← halloc.length, halloc.slots_iff]
  omega

/-- The 642nd capture goes to slot 0 again. -/
theorem alarmLog_not_ring_long :
    ¬ RingLaw (List.replicate 642 (.capture blankCapture))
      ((alarmLog (.boot .nextOn)).run (List.replicate 642 (.capture blankCapture))) :=
  not_ringLaw_replicate (Nat.le_refl _) blankCapture

end Lsc100
