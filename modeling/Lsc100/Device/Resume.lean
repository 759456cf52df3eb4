import Lsc100.Device.Kept

/-! A capture that has been kept alive can be brought to its end. The seconds
still missing are sampled with few samples each, two more seconds push the last
batch into the store, and `alarm_task` then finds every second it is asked for. -/

namespace Lsc100

namespace Device

namespace Kept

variable {rest : Emmc} {l₀ : AdcLog} {since : Nat} {s : Device}

theorem log_length (l₀ : AdcLog) (s : Device) :
    (l₀.writes (s.flow.handed.map HandedRecord.second)).length =
      l₀.length + s.flow.handed.length := by
  rw [(l₀.writes_slot _).1, List.length_map]

/-- In the first lap the index blocks count the records. -/
theorem length_lt (h : Kept rest l₀ since s) (hroom : s.adc.adc.blockNum + 3 ≤ adcIndexBlockNum) :
    l₀.length + s.flow.handed.length < 479872 := by
  have hlen := log_length l₀ s
  have hblock := h.log.blockNum
  have hle := (l₀.writes (s.flow.handed.map HandedRecord.second)).fresh_le_torn
  have hlt := (l₀.writes (s.flow.handed.map HandedRecord.second)).torn_lt
  rw [AdcLog.length] at hlen
  rw [adcIndexBlockNum_eq] at hroom
  rw [AdcLog.indexBlocks] at hblock
  split at hblock
  · omega
  · omega

theorem sorted (h : Kept rest l₀ since s) (hsorted : l₀.Sorted)
    (hpast : ∀ m < l₀.length, (l₀.slot m).ts.toNat ≤ since) :
    (l₀.writes (s.flow.handed.map HandedRecord.second)).Sorted := by
  have hrtc := s.rtcBaseSec.toNat_lt
  have hbehind := h.timed.behind
  have hsub := (intake_handed_sublist (s.flow.delivered.take s.flow.consumed)).trans
    (List.take_sublist _ _)
  have hrange : ∀ it ∈ (intake (s.flow.delivered.take s.flow.consumed)).handed,
      since ≤ it.second.toNat ∧ it.second.toNat = it.ts.toNat / 1000 := fun it hit => by
    have := h.range it (hsub.subset hit)
    rw [AdcItem.second, UInt32.toNat_ofNat', Nat.mod_eq_of_lt (by omega)]
    exact ⟨this.1, rfl⟩
  have hhanded : (s.flow.handed.map (·.ts)).Pairwise (· ≤ ·) := by
    rw [h.inStep.handed, List.pairwise_map]
    refine (h.ordered.sublist hsub).imp_of_mem fun {a b} ha hb hab => ?_
    rw [UInt32.le_iff_toNat_le, (hrange a ha).2, (hrange b hb).2]
    exact hab
  refine hsorted.writes (List.pairwise_map.mpr (List.pairwise_map.mp hhanded)) fun m hm r hr => ?_
  obtain ⟨r', hr', rfl⟩ := List.mem_map.mp hr
  have hts : r'.ts ∈ s.flow.handed.map (·.ts) := List.mem_map_of_mem hr'
  rw [h.inStep.handed] at hts
  obtain ⟨it, hit, hts⟩ := List.mem_map.mp hts
  simp only [HandedRecord.second]
  rw [UInt32.le_iff_toNat_le, ← hts]
  exact Nat.le_trans (hpast m hm) (hrange it hit).1

theorem retrievable (h : Kept rest l₀ since s) (hsorted : l₀.Sorted)
    (hpast : ∀ m < l₀.length, (l₀.slot m).ts.toNat ≤ since)
    (hroom : l₀.length + s.flow.handed.length < 480000) {sec : Nat} (hpos : 1 ≤ sec)
    (hlt : sec < 2 ^ 32)
    (hrec : UInt32.ofNat sec ∈ s.flow.handed.map (·.ts)) : s.Retrievable sec := by
  obtain ⟨r, hr, hts⟩ := List.mem_map.mp hrec
  obtain ⟨k, hk, hget⟩ := List.mem_iff_getElem.mp hr
  have hlen := log_length l₀ s
  have hflushed : (l₀.writes (s.flow.handed.map HandedRecord.second)).flushed < 7500 := by
    rw [AdcLog.length] at hlen
    omega
  have hslot := (l₀.writes_slot (s.flow.handed.map HandedRecord.second)).2.2 k
    (by rwa [List.length_map])
  have hslotTs : ((l₀.writes (s.flow.handed.map HandedRecord.second)).slot (l₀.length + k)).ts =
      UInt32.ofNat sec := by
    rw [hslot, List.getElem_map, hget]
    exact hts
  have hfound := h.log.lookup_exists (h.sorted hsorted hpast) hflushed (m := l₀.length + k)
    (by omega) (by
      rw [hslotTs, UInt32.lt_iff_toNat_lt, UInt32.toNat_ofNat', Nat.mod_eq_of_lt hlt]
      exact hpos)
  rw [hslotTs] at hfound
  exact storageReadAdcData_ret.mpr hfound

end Kept

/-- A sample over the idle thresholds. -/
def busy : AdcItem := { (default : AdcItem) with data := fun _ => 0x44160000 }

/-- Just enough samples for the second to be handed over: its last one, and as
many before it as still have to come. -/
def Picks (s : Device) : Prop :=
  s.sampleTick % 1000 = 999 ∧ (intake s.flow.delivered).wait = 0 ∨
    s.sampleTick % 1000 ≠ 999 ∧ 0 < (intake s.flow.delivered).wait

instance (s : Device) : Decidable s.Picks := inferInstanceAs (Decidable (_ ∨ _))

def pick (s : Device) : AdcItem := if s.Picks then busy else default

theorem nextItem_data (s : Device) (reading : AdcItem) :
    (s.nextItem reading).data = reading.data := by
  rw [nextItem]
  split <;> rfl

theorem caches_pick {s : Device} (hrec : s.Recording) (hroom : s.flow.cache.count < adcCacheMax) :
    s.Caches s.pick ↔ s.Picks := by
  rw [Caches, Sampled, AdcItem.isIdle, nextItem_data, pick]
  split
  · rename_i hpicks
    exact iff_of_true ⟨⟨hrec, by decide⟩, hroom⟩ hpicks
  · rename_i hpicks
    exact iff_of_false (fun h => absurd h.1.2 (by decide)) hpicks

/-- A continuation that leaves the capture alone and hands over at most one
record for 100 samples. -/
structure Onward (s t : Device) : Prop where
  leads : s.Leads t
  saveSta : t.alarm.notify.saveSta = s.alarm.notify.saveSta
  alarmTs : t.alarm.notify.alarmTs = s.alarm.notify.alarmTs
  index : t.alarm.notify.index = s.alarm.notify.index
  delivered : s.flow.delivered <+: t.flow.delivered
  handed : 100 * t.flow.handed.length + s.flow.consumed ≤
    100 * s.flow.handed.length + t.flow.consumed

namespace Onward

variable {s t u : Device} {sec : Nat}

theorem refl (s : Device) : Onward s s :=
  ⟨.refl s, rfl, rfl, rfl, List.prefix_refl _, Nat.le_refl _⟩

theorem trans (h : Onward s t) (h' : Onward t u) : Onward s u := by
  have hhanded := h.handed
  have hhanded' := h'.handed
  exact ⟨h.leads.trans h'.leads, h'.saveSta.trans h.saveSta, h'.alarmTs.trans h.alarmTs,
    h'.index.trans h.index, h.delivered.trans h'.delivered, by omega⟩

theorem wanted (h : Onward s t) : t.Wanted sec ↔ s.Wanted sec := by
  have hiff : ∀ r : Device, r.Wanted sec ↔ r.alarm.notify.saveSta = .strSave ∧
      r.alarm.notify.alarmTs.toNat + r.alarm.notify.index.toNat ≤ sec ∧
      sec ≤ r.alarm.notify.alarmTs.toNat + 2 := fun r =>
    ⟨fun hr => ⟨hr.capturing, hr.lower, hr.upper⟩, fun hr => ⟨hr.1, hr.2.1, hr.2.2⟩⟩
  rw [hiff, hiff, h.saveSta, h.alarmTs, h.index]

theorem wants (h : Onward s t) (hs : s.Wants) : t.Wants := by
  rw [Wants, h.saveSta, h.index]
  exact hs

theorem stored (h : Onward s t) (hs : s.Stored sec) : t.Stored sec := hs.of_isPrefixOf h.delivered

end Onward

/-- There are seconds still to be captured, and less than a batch lies in the cache. -/
structure Ready (rest : Emmc) (l₀ : AdcLog) (since : Nat) (s : Device) : Prop where
  kept : Kept rest l₀ since s
  wants : s.Wants
  pending : s.flow.delivered.length < s.flow.consumed + 100

section Stages

variable {rest : Emmc} {l₀ : AdcLog} {since : Nat} {s : Device}

theorem Kept.onward_turn (h : Kept rest l₀ since s) : Onward s s.turn := by
  obtain ⟨new, hhanded, -, hcons, -, -⟩ := turn_adc h.flowing
  have hdel : s.turn.flow.delivered = s.flow.delivered := (h.flowing.turn true true).2
  refine ⟨.step (e := .turn) trivial, rfl, rfl, rfl, hdel ▸ List.prefix_refl _, ?_⟩
  rw [hhanded, List.length_append]
  omega

theorem Kept.running (h : Kept rest l₀ since s) (hwants : s.Wants) : s.flow.overrun = false := by
  by_contra hover
  have hbase := intake_over_of_isPrefixOf (List.take_prefix s.flow.consumed s.flow.delivered)
    (h.inStep.overran (Bool.eq_true_of_not_eq_false hover))
  exact absurd (h.fits hwants) (Nat.not_le_of_lt hbase.1)

theorem Kept.exists_ready (h : Kept rest l₀ since s) (hwants : s.Wants) :
    ∃ t, Onward s t ∧ Ready rest l₀ since t ∧ t.flow.delivered = s.flow.delivered ∧
      t.rtcBaseSec = s.rtcBaseSec ∧ t.sampleTick = s.sampleTick ∧ t.item = s.item := by
  induction hn : s.flow.delivered.length - s.flow.consumed using Nat.strong_induction_on
    generalizing s with
  | _ n ih =>
    rcases Nat.lt_or_ge s.flow.delivered.length (s.flow.consumed + 100) with hlt | hge
    · exact ⟨s, .refl s, ⟨h, hwants, hlt⟩, rfl, rfl, rfl, rfl⟩
    · have hdel : s.turn.flow.delivered = s.flow.delivered := (h.flowing.turn true true).2
      have hcons : s.turn.flow.consumed = s.flow.consumed + 100 :=
        h.flowing.turn_consumed (h.running hwants) hge
      obtain ⟨t, ht, hready, hdel', hrest⟩ :=
        ih _ (by rw [hdel, hcons]; omega) h.turn hwants rfl
      exact ⟨t, h.onward_turn.trans ht, hready, hdel'.trans hdel, hrest⟩

theorem Ready.count_lt (h : Ready rest l₀ since s) : s.flow.cache.count < adcCacheMax := by
  have hcount := h.kept.flowing.holds.count
  have hpending := h.pending
  rw [List.length_drop] at hcount
  rw [adcCacheMax_eq]
  omega

theorem Ready.caches_pick (h : Ready rest l₀ since s) : s.Caches s.pick ↔ s.Picks :=
  Device.caches_pick (h.kept.recording h.wants.1) h.count_lt

/-- A picked sample brings the end nearer, or is the end. -/
theorem Ready.intakeAfter_pick (h : Ready rest l₀ since s) :
    (s.intakeAfter s.pick).base ≤ 1000 ∧
      (s.sampleTick % 1000 ≠ 999 →
        (s.intakeAfter s.pick).wait = (intake s.flow.delivered).wait - 1) ∧
      (s.Picks → s.sampleTick % 1000 = 999 →
        (intake s.flow.delivered).HandsOver (s.nextItem s.pick)) := by
  have hbase := h.kept.fits h.wants
  have hlast := h.kept.timed.nextItem_isLast s.pick
  have hcount := intake_count s.flow.delivered
  rw [intakeAfter]
  by_cases hpicks : s.Picks
  · rw [if_pos (h.caches_pick.mpr hpicks)]
    rcases hpicks with ⟨hphase, hwait⟩ | ⟨hphase, hwait⟩
    · have hands := Intake.handsOver_of_wait hwait (hlast.trans (decide_eq_true hphase)) hbase
        (by omega)
      refine ⟨?_, fun hne => absurd hphase hne, fun _ _ => hands⟩
      exact Intake.push_base_of_handsOver hands
    · obtain ⟨hnear, hbase'⟩ := Intake.wait_push hwait (hlast.trans (decide_eq_false hphase)) hbase
        (by omega)
      exact ⟨hbase', fun _ => by omega, fun _ heq => absurd heq hphase⟩
  · rw [if_neg fun hcaches => hpicks (h.caches_pick.mp hcaches)]
    refine ⟨hbase, fun hphase => ?_, fun hpicks' => absurd hpicks' hpicks⟩
    rw [Picks] at hpicks
    omega

theorem Ready.sampleSafe_pick (h : Ready rest l₀ since s) : s.SampleSafe s.pick 0 := by
  obtain ⟨hbase, hnear, hands⟩ := h.intakeAfter_pick
  refine ⟨fun _ => hbase, fun hwanted => ?_, fun hraises => ?_⟩
  · rcases h.kept.held _ hwanted with hstored | hclock | hrun
    · exact .inl hstored
    · exact .inr (.inl hclock)
    · obtain ⟨-, henough⟩ := hrun.enough
      by_cases hphase : s.sampleTick % 1000 = 999
      · have hpicks : s.Picks := .inl ⟨hphase, by omega⟩
        exact .inr (.inr (.inl ⟨h.caches_pick.mpr hpicks, hands hpicks hphase⟩))
      · refine .inr (.inr (.inr ⟨hphase, hbase, ?_⟩))
        rw [hnear hphase]
        omega
  · have hidle := hraises.2.idle
    rw [(s.alarm.unmoved_clear 0).saveSta] at hidle
    exact absurd h.wants.1 hidle

/-- One more sample, and a turn that takes the batch if it completes one. -/
theorem Ready.beat (h : Ready rest l₀ since s) : ∃ t, Onward s t ∧ Ready rest l₀ since t ∧
    t.rtcBaseSec = s.rtcBaseSec ∧ t.sampleTick = s.sampleTick + 1 ∧
    t.item.ts.toNat / 1000 = s.nextSec ∧
    t.flow.delivered =
      if s.Picks then s.flow.delivered ++ [s.nextItem s.pick] else s.flow.delivered := by
  have hsame := sample_unmoved h.wants.1 s.pick 0
  obtain ⟨-, hrtc, -, htick, hitem⟩ := s.sample_frame s.pick 0
  have hkept := h.kept.sample h.sampleSafe_pick
  have hdel : (s.sample s.pick 0).flow.delivered =
      if s.Picks then s.flow.delivered ++ [s.nextItem s.pick] else s.flow.delivered := by
    rcases sample_delivered h.kept.flowing s.pick 0 with
      ⟨hpick, heq⟩ | ⟨hpick, heq⟩
    · rw [if_pos (h.caches_pick.mp hpick), heq]
    · rw [if_neg fun hpicks => hpick (h.caches_pick.mpr hpicks), heq]
  have hflow := s.sample_handed s.pick 0
  have hsample : Onward s (s.sample s.pick 0) := by
    refine ⟨.step (e := .sample s.pick 0) trivial, hsame.saveSta, hsame.alarmTs, hsame.index,
      ?_, ?_⟩
    · rw [hdel]
      split
      · exact List.prefix_append _ _
      · exact List.prefix_refl _
    · rw [hflow.1, hflow.2]
  obtain ⟨t, ht, hready, hdel', hrtc', htick', hitem'⟩ :=
    hkept.exists_ready (hsample.wants h.wants)
  refine ⟨t, hsample.trans ht, hready, hrtc'.trans hrtc, htick'.trans htick, ?_, hdel'.trans hdel⟩
  rw [hitem', hitem, h.kept.timed.nextItem_sec]

/-- To the end of the second, which is handed over if it still can be. -/
theorem Ready.exists_boundary (h : Ready rest l₀ since s) (left : Nat) (hleft : 1 ≤ left)
    (hphase : s.sampleTick % 1000 + left = 1000) : ∃ t, Onward s t ∧ Ready rest l₀ since t ∧
    t.rtcBaseSec = s.rtcBaseSec ∧ t.sampleTick % 1000 = 0 ∧
    t.flow.delivered.length ≤ s.flow.delivered.length + (intake s.flow.delivered).wait + 1 ∧
    (s.sampleTick % 1000 + (intake s.flow.delivered).wait ≤ 999 → t.Stored s.nextSec ∧
      t.flow.delivered.length = s.flow.delivered.length + (intake s.flow.delivered).wait + 1) := by
  induction left, hleft using Nat.le_induction generalizing s with
  | base =>
    obtain ⟨t, ht, hready, hrtc, htick, -, hdel⟩ := h.beat
    refine ⟨t, ht, hready, hrtc, by omega, ?_, fun henough => ?_⟩
    · rw [hdel]
      split
      · rw [List.length_append, List.length_singleton]
        omega
      · omega
    · have hpicks : s.Picks := .inl ⟨by omega, by omega⟩
      have hands := h.intakeAfter_pick.2.2 hpicks (by omega)
      rw [if_pos hpicks] at hdel
      refine ⟨⟨s.nextItem s.pick, ?_, h.kept.timed.nextItem_sec _⟩, ?_⟩
      · rw [hdel, intake_concat, Intake.push_handed, Intake.noted_of_handsOver hands]
        exact List.mem_concat_self
      · rw [hdel, List.length_append, List.length_singleton]
        omega
  | succ left hleft ih =>
    obtain ⟨t, ht, hready, hrtc, htick, hitem, hdel⟩ := h.beat
    have hsec : t.nextSec = s.nextSec := by
      rw [nextSec, if_neg (by omega), hitem]
    have hnear : (intake t.flow.delivered).wait = (intake s.flow.delivered).wait - 1 := by
      rw [← h.intakeAfter_pick.2.1 (by omega), hdel, intakeAfter]
      by_cases hpicks : s.Picks
      · rw [if_pos hpicks, if_pos (h.caches_pick.mpr hpicks), intake_concat]
      · rw [if_neg hpicks, if_neg fun hcaches => hpicks (h.caches_pick.mp hcaches)]
    have hgrown : t.flow.delivered.length + (intake t.flow.delivered).wait =
        s.flow.delivered.length + (intake s.flow.delivered).wait := by
      rw [hnear, hdel]
      split
      · rename_i hpicks
        rw [Picks] at hpicks
        rw [List.length_append, List.length_singleton]
        omega
      · rename_i hpicks
        rw [Picks] at hpicks
        omega
    obtain ⟨u, hu, hready', hrtc', hphase', hlen, hstored⟩ := ih hready (by omega)
    refine ⟨u, ht.trans hu, hready', hrtc'.trans hrtc, hphase', by omega, fun henough => ?_⟩
    obtain ⟨hsto, hlen'⟩ := hstored (by omega)
    exact ⟨hsec ▸ hsto, by omega⟩

/-- A save that is due is made; the capture goes on. -/
theorem Ready.exists_undue (h : Ready rest l₀ since s) :
    ∃ t, Onward s t ∧ Ready rest l₀ since t ∧ t.flow = s.flow ∧ t.sampleTick = s.sampleTick ∧
      t.item = s.item ∧ t.rtcBaseSec = s.rtcBaseSec ∧ t.alarm.saveDue = false := by
  cases hdue : s.alarm.saveDue with
  | false => exact ⟨s, .refl s, h, rfl, rfl, rfl, rfl, hdue⟩
  | true =>
    have hfields : s.save.alarm.notify.saveSta = s.alarm.notify.saveSta ∧
        s.save.alarm.notify.alarmTs = s.alarm.notify.alarmTs ∧
        s.save.alarm.notify.index = s.alarm.notify.index ∧ s.save.alarm.saveDue = false := by
      rw [Device.save, AlarmSystem.save, if_pos hdue]
      rcases adcSaveAlarm_cases true s.alarm.notify with heq | ⟨-, hend, -, -⟩ | ⟨-, heq⟩
      · simp only [heq, and_self]
      · exact absurd (UInt8.le_iff_toNat_le.mp hend) (Nat.not_le_of_lt h.wants.2)
      · simp only [heq, AlarmNotify.send_saveSta, AlarmNotify.send_alarmTs,
          AlarmNotify.send_index, and_self]
    obtain ⟨hsta, hts, hidx, hdue'⟩ := hfields
    have hto : Onward s s.save :=
      ⟨.step (e := .save) trivial, hsta, hts, hidx, List.prefix_refl _, Nat.le_refl _⟩
    exact ⟨s.save, hto, ⟨h.kept.save, hto.wants h.wants, h.pending⟩, rfl, rfl, rfl, rfl, hdue'⟩

theorem Ready.exists_clock (h : Ready rest l₀ since s) {t : UInt32} (hclock : s.rtcBaseSec ≤ t)
    (hsafe : ∀ sec, s.Wanted sec → s.Stored sec ∨ t.toNat ≤ sec) :
    ∃ u, Onward s u ∧ Ready rest l₀ since u ∧ u.flow = s.flow ∧ u.sampleTick = s.sampleTick ∧
      u.rtcBaseSec = t := by
  obtain ⟨v, hv, hready, hflow, htick, -, hrtc, hdue⟩ := h.exists_undue
  have hclock' : v.Clock (.tick t) := (congrArg (· ≤ t) hrtc).mpr hclock
  have hkept := hready.kept.tick hclock' fun _ sec hwanted => by
    rcases hsafe sec (hv.wanted.mp hwanted) with hstored | hle
    · exact .inl (hv.stored hstored)
    · exact .inr (.inl hle)
  have heq : v.tick t = { v with
      rtcBaseSec := t, alarm := { v.alarm with saveDue := saveDue v.alarm.notify t } } := by
    rw [Device.tick, if_neg (by simp [hdue])]
  have hleads : v.Leads (v.tick t) := .step (e := .tick t) hclock'
  have honward : Onward v (v.tick t) := by
    rw [heq] at hleads ⊢
    exact ⟨hleads, rfl, rfl, rfl, List.prefix_refl _, Nat.le_refl _⟩
  refine ⟨v.tick t, hv.trans honward, ⟨hkept, honward.wants hready.wants, ?_⟩, ?_, ?_, ?_⟩
  · rw [heq]
    exact hready.pending
  · rw [heq]
    exact hflow
  · rw [heq]
    exact htick
  · rw [heq]

/-- Second by second, the clock is moved to those still missing, and each gets
its last sample cached. -/
theorem Ready.exists_stored (h : Ready rest l₀ since s) (hphase : s.sampleTick % 1000 = 0)
    (hrange : s.alarm.notify.alarmTs.toNat + 2 < 2 ^ 32) {k : Nat}
    (hk : s.alarm.notify.index.toNat + k ≤ 3) :
    ∃ t, Onward s t ∧ Ready rest l₀ since t ∧ t.sampleTick % 1000 = 0 ∧
      t.flow.delivered.length ≤ s.flow.delivered.length + 103 * k ∧
      ∀ sec, s.Wanted sec →
        sec < s.alarm.notify.alarmTs.toNat + s.alarm.notify.index.toNat + k → t.Stored sec := by
  induction k with
  | zero =>
    refine ⟨s, .refl s, h, hphase, Nat.le_refl _, fun sec hwanted hlt => ?_⟩
    have hlower := hwanted.lower
    omega
  | succ k ih =>
    obtain ⟨t, ht, hready, hphase', hlen, hstored⟩ := ih (by omega)
    generalize hsec : s.alarm.notify.alarmTs.toNat + s.alarm.notify.index.toNat + k = sec at hstored
    have hwanted : s.Wanted sec := ⟨h.wants.1, by omega, by omega⟩
    rcases hready.kept.held sec (ht.wanted.mpr hwanted) with hsto | hclock | hrun
    · refine ⟨t, ht, hready, hphase', by omega, fun sec' hwanted' hlt => ?_⟩
      rcases Nat.lt_or_eq_of_le (Nat.le_of_lt_succ (by omega : sec' < sec + 1)) with hlt' | rfl
      · exact hstored sec' hwanted' hlt'
      · exact hsto
    · have hto : (UInt32.ofNat sec).toNat = sec := by
        rw [UInt32.toNat_ofNat']
        exact Nat.mod_eq_of_lt (by omega)
      have hahead : t.rtcBaseSec ≤ UInt32.ofNat sec := by
        rw [UInt32.le_iff_toNat_le, hto]
        exact hclock
      obtain ⟨u, hu, hready', hflow, htick, hrtc⟩ := hready.exists_clock hahead
        fun sec' hwanted' => by
          rw [hto]
          rcases Nat.lt_or_ge sec' sec with hlt | hge
          · exact .inl (hstored sec' (ht.wanted.mp hwanted') hlt)
          · exact .inr hge
      have hwait := (intake u.flow.delivered).wait_le
      obtain ⟨v, hv, hready'', -, hphase'', hlen', hdone⟩ :=
        hready'.exists_boundary 1000 (by omega) (by omega)
      have hnext : u.nextSec = sec := by
        rw [nextSec, if_pos (by omega), hrtc, hto]
      obtain ⟨hsto, -⟩ := hdone (by omega)
      refine ⟨v, (ht.trans hu).trans hv, hready'', hphase'', ?_, fun sec' hwanted' hlt => ?_⟩
      · rw [hflow] at hlen' hwait
        omega
      · rcases Nat.lt_or_eq_of_le (Nat.le_of_lt_succ (by omega : sec' < sec + 1)) with hlt' | rfl
        · exact (hu.trans hv).stored (hstored sec' hwanted' hlt')
        · exact hnext ▸ hsto
    · exact absurd hphase' hrun.phase

/-- One more second, and the batch is taken in which the last second was handed over. -/
theorem Ready.exists_consumed (h : Ready rest l₀ since s) (hphase : s.sampleTick % 1000 = 0) :
    ∃ t, Onward s t ∧ Ready rest l₀ since t ∧
      t.flow.delivered.length ≤ s.flow.delivered.length + 103 ∧
      (intake s.flow.delivered).handed <+:
        (intake (t.flow.delivered.take t.flow.consumed)).handed := by
  have haligned := h.kept.flowing.aligned
  cases hended : (intake s.flow.delivered).ended with
  | none =>
    have hhanded := intake_handed_take hended haligned h.kept.flowing.consumed_le h.pending
    exact ⟨s, .refl s, h, Nat.le_add_right _ _, hhanded ▸ List.prefix_refl _⟩
  | some j =>
    have hwait := (intake s.flow.delivered).wait_le
    obtain ⟨t, ht, hready, -, -, hlen, hdone⟩ := h.exists_boundary 1000 (by omega) (by omega)
    obtain ⟨-, hlen'⟩ := hdone (by omega)
    have hpending := hready.pending
    have hle := hready.kept.flowing.consumed_le
    have haligned' := hready.kept.flowing.aligned
    have hcount := intake_count s.flow.delivered
    -- the batch of the last end is complete
    have hfull : 100 - (intake s.flow.delivered).count ≤ (intake s.flow.delivered).wait := by
      rw [Intake.wait, hended]
      exact Nat.le_add_right _ _
    refine ⟨t, ht, hready, by omega, intake_handed_isPrefixOf ?_⟩
    refine List.prefix_of_prefix_length_le ht.delivered (List.take_prefix _ _) ?_
    rw [List.length_take]
    omega

/-- All seconds still to be captured can be handed over. -/
theorem Kept.exists_handed (h : Kept rest l₀ since s) (hwants : s.Wants)
    (hrange : s.alarm.notify.alarmTs.toNat + 2 < 2 ^ 32) :
    ∃ t, Onward s t ∧ Kept rest l₀ since t ∧
      t.flow.handed.length ≤ s.flow.handed.length + 15 ∧
      ∀ sec, s.Wanted sec → UInt32.ofNat sec ∈ t.flow.handed.map (·.ts) := by
  have hindex := hwants.2
  obtain ⟨t, ht, hready, hdel, -, -, -⟩ := h.exists_ready hwants
  obtain ⟨u, hu, hready', hphase, hlen⟩ : ∃ u, Onward t u ∧ Ready rest l₀ since u ∧
      u.sampleTick % 1000 = 0 ∧ u.flow.delivered.length ≤ t.flow.delivered.length + 103 := by
    by_cases hphase : t.sampleTick % 1000 = 0
    · exact ⟨t, .refl t, hready, hphase, by omega⟩
    · have hwait := (intake t.flow.delivered).wait_le
      obtain ⟨u, hu, hready', -, hphase', hlen, -⟩ :=
        hready.exists_boundary (1000 - t.sampleTick % 1000) (by omega) (by omega)
      exact ⟨u, hu, hready', hphase', by omega⟩
  have hsu := ht.trans hu
  obtain ⟨v, hv, hready'', hphase', hlen', hstored⟩ := hready'.exists_stored hphase
    (k := 3 - s.alarm.notify.index.toNat) (by rw [hsu.alarmTs]; exact hrange)
    (by rw [hsu.index]; omega)
  obtain ⟨w, hw, hfinal, hlen'', htaken⟩ := hready''.exists_consumed hphase'
  have hsw := (hsu.trans hv).trans hw
  refine ⟨w, hsw, hfinal.kept, ?_, fun sec hwanted => ?_⟩
  · have hhanded := hsw.handed
    have hle := hfinal.kept.flowing.consumed_le
    have hcount := h.flowing.holds.count
    have hcache := h.flowing.holds.count_le
    rw [List.length_drop] at hcount
    rw [hdel] at hlen
    omega
  · have hlower := hwanted.lower
    have hupper := hwanted.upper
    obtain ⟨it, hit, hts⟩ := hstored sec (hsu.wanted.mpr hwanted) (by
      rw [hsu.alarmTs, hsu.index]
      omega)
    rw [hfinal.kept.inStep.handed, ← hts]
    exact List.mem_map_of_mem (htaken.subset hit)

theorem Kept.exists_retrievable (h : Kept rest l₀ since s)
    (hopen : s.alarm.notify.saveSta = .strSave) (hsorted : l₀.Sorted)
    (hpast : ∀ m < l₀.length, (l₀.slot m).ts.toNat ≤ since)
    (hroom : s.Wants → s.adc.adc.blockNum + 3 ≤ adcIndexBlockNum)
    (hrange : s.alarm.notify.alarmTs.toNat + 2 < 2 ^ 32) :
    ∃ t, Onward s t ∧ Kept rest l₀ since t ∧ ∀ sec, s.Wanted sec → t.Retrievable sec := by
  rcases Nat.lt_or_ge s.alarm.notify.index.toNat 3 with hindex | hover
  · obtain ⟨t, ht, hkept, hlen, hhanded⟩ := h.exists_handed ⟨hopen, hindex⟩ hrange
    have hlt := h.length_lt (hroom ⟨hopen, hindex⟩)
    refine ⟨t, ht, hkept, fun sec hwanted => ?_⟩
    have hlower := hwanted.lower
    have hupper := hwanted.upper
    have hpos := (h.alarmTs hopen).1
    exact hkept.retrievable hsorted hpast (by omega) (by omega) (by omega) (hhanded sec hwanted)
  · refine ⟨s, .refl s, h, fun sec hwanted => ?_⟩
    have hlower := hwanted.lower
    have hupper := hwanted.upper
    omega

end Stages

end Device

end Lsc100
