import Lsc100.Sample.Intake

/-! Sample times. `sample_task` counts milliseconds on from the second it finds in
`g_TimeSync` at every 1000th sample; `time_sync_task` sets that second from the
clock chip, on its own time base. -/

namespace Lsc100

structure TimeSync where
  rtcBaseSec : UInt32
  sysTime : SystemTime

/-- What `time_sync_init` and `time_sync_task` make of the registers of the clock chip. -/
def TimeSync.ofRtc (time : SystemTime) : TimeSync :=
  let sysTime := { time with ucHour := time.ucHour &&& 0x7F }
  ⟨sysTime.timestamp, sysTime⟩

def timeSyncGetAbsoluteTime (lock : Bool) (timeSync : TimeSync) (time : SystemTime) :
    UInt64 × SystemTime :=
  if lock then (timeSync.rtcBaseSec.toUInt64 * 1000, timeSync.sysTime) else (0, time)

/-- Besides the globals, the times given to the samples and the second that the
last reading of `g_TimeSync` resulted in. -/
structure SampleClock where
  timeSync : TimeSync
  sampleTick : UInt64
  item : AdcItem
  flow : SampleFlow
  stamps : List UInt64
  second : UInt32

inductive ClockEvent
  | sync (lock : Bool) (time : SystemTime)
  | sample (timeLock : Bool) (rawData : Fin 4 → UInt16) (data : Fin 4 → UInt32) (temp : UInt32)
      (cached : Option Bool)
  | turn (countLock readLock : Bool)

namespace SampleClock

def timeSyncTask (s : SampleClock) (lock : Bool) (time : SystemTime) : SampleClock :=
  if lock then { s with timeSync := .ofRtc time } else s

/-- The item after this sample's time has been taken. -/
def stampItem (s : SampleClock) (timeLock : Bool) (temp : UInt32) : AdcItem :=
  if s.sampleTick % 1000 = 0 then
    let (ts, time) := timeSyncGetAbsoluteTime timeLock s.timeSync s.item.time
    { s.item with ts := ts, time := time, temp := temp }
  else { s.item with ts := s.item.ts + 1 }

/-- One pass of `sample_task`. Whether the sample is cached depends on the
calibration and the idle check; `cached` holds the outcome of the lock then. -/
def sampleTask (s : SampleClock) (timeLock : Bool) (rawData : Fin 4 → UInt16)
    (data : Fin 4 → UInt32) (temp : UInt32) (cached : Option Bool) : SampleClock :=
  let item := { s.stampItem timeLock temp with rawData := rawData, data := data }
  { timeSync := s.timeSync
    sampleTick := s.sampleTick + 1
    item := item
    flow := match cached with
      | some lock => s.flow.write lock item
      | none => s.flow
    stamps := s.stamps ++ [item.ts]
    second := if s.sampleTick % 1000 = 0 then (if timeLock then s.timeSync.rtcBaseSec else 0)
      else s.second }

def step (s : SampleClock) : ClockEvent → SampleClock
  | .sync lock time => s.timeSyncTask lock time
  | .sample timeLock rawData data temp cached => s.sampleTask timeLock rawData data temp cached
  | .turn countLock readLock => { s with flow := s.flow.turn countLock readLock }

end SampleClock

/-- The device starts with the clock chip at `boot`; `sample_task` reads the time
once before its first sample. -/
def sampleClock (boot : SystemTime) (timeLock : Bool) : Machine SampleClock ClockEvent where
  start :=
    let (ts, time) := timeSyncGetAbsoluteTime timeLock (.ofRtc boot) (default : AdcItem).time
    ⟨.ofRtc boot, 0, { (default : AdcItem) with ts := ts, time := time }, sampleFlow.start, [], 0⟩
  step := SampleClock.step

/-- The seconds the clock chip shows, from `boot` on. -/
def rtcSeconds (boot : SystemTime) (es : List ClockEvent) : List UInt32 :=
  (TimeSync.ofRtc boot).rtcBaseSec :: es.filterMap fun
    | .sync _ time => some (TimeSync.ofRtc time).rtcBaseSec
    | _ => none

/-- Sample times increase, and so no two seconds are stored under one timestamp. -/
structure StrictTime (s : SampleClock) : Prop where
  stamps : s.stamps.Pairwise (· < ·)
  handed : (s.flow.handed.map HandedRecord.ts).Nodup

/-- From the second reading of `g_TimeSync` on, each obtains the mutex and finds a
later second than the one before. -/
def Advances (s : SampleClock) : ClockEvent → Prop
  | .sample timeLock _ _ _ _ => s.sampleTick % 1000 = 0 → s.stamps ≠ [] →
      timeLock = true ∧ s.second < s.timeSync.rtcBaseSec
  | _ => True

/-- The time of the last sample within the second last read. -/
structure Within (s : SampleClock) : Prop where
  last : ∃ before, s.stamps = before ++ [s.item.ts]
  le : 1000 * s.second.toNat ≤ s.item.ts.toNat
  lt : s.item.ts.toNat < 1000 * s.second.toNat + 1000
  count : s.sampleTick.toNat % 1000 ≠ 0 →
    s.item.ts.toNat + 1 = 1000 * s.second.toNat + s.sampleTick.toNat % 1000

structure Stamped (s : SampleClock) : Prop where
  within : (s.stamps = [] ∧ s.sampleTick = 0) ∨ Within s
  seconds : ∀ ts ∈ s.stamps, ts.toNat / 1000 < 2 ^ 32
  delivered : (s.flow.delivered.map AdcItem.ts).Sublist s.stamps
  flowing : Flowing s.flow
  inStep : InStep s.flow

section Step

variable {s : SampleClock}

theorem mod_tick (tick : UInt64) : tick % 1000 = 0 ↔ tick.toNat % 1000 = 0 := by
  rw [← UInt64.toNat_inj, UInt64.toNat_mod]
  rfl

theorem second_ts (sec : UInt32) : (sec.toUInt64 * 1000).toNat = 1000 * sec.toNat := by
  have hlt := sec.toNat_lt
  have hmul : (sec.toUInt64 * 1000).toNat = sec.toNat * 1000 % 2 ^ 64 := UInt64.toNat_mul _ _
  omega

theorem tick_succ (tick : UInt64) (h : (tick + 1).toNat % 1000 ≠ 0) :
    (tick + 1).toNat % 1000 = tick.toNat % 1000 + 1 := by
  have hlt := tick.toNat_lt
  have hadd : (tick + 1).toNat = (tick.toNat + 1) % 2 ^ 64 := UInt64.toNat_add _ _
  rcases Nat.lt_or_ge (tick.toNat + 1) (2 ^ 64) with hsmall | hwrap
  · rw [hadd, Nat.mod_eq_of_lt hsmall] at h ⊢
    omega
  · have hlast : tick.toNat + 1 = 2 ^ 64 := by omega
    rw [hadd, hlast, Nat.mod_self] at h
    exact absurd rfl h

theorem within_refresh (hrefresh : s.sampleTick.toNat % 1000 = 0) (timeLock : Bool)
    (rawData : Fin 4 → UInt16) (data : Fin 4 → UInt32) (temp : UInt32) (cached : Option Bool) :
    let s' := s.sampleTask timeLock rawData data temp cached
    Within s' ∧
      s'.item.ts.toNat = 1000 * (if timeLock then s.timeSync.rtcBaseSec.toNat else 0) := by
  have hcond := (mod_tick s.sampleTick).mpr hrefresh
  have hts : (s.stampItem timeLock temp).ts.toNat =
      1000 * (if timeLock then s.timeSync.rtcBaseSec.toNat else 0) := by
    rw [SampleClock.stampItem, if_pos hcond]
    cases timeLock with
    | false => rfl
    | true => exact second_ts _
  have hsecond : (s.sampleTask timeLock rawData data temp cached).second.toNat =
      if timeLock then s.timeSync.rtcBaseSec.toNat else 0 := by
    simp only [SampleClock.sampleTask, if_pos hcond]
    cases timeLock <;> rfl
  refine ⟨⟨⟨s.stamps, rfl⟩, ?_, ?_, fun h => ?_⟩, hts⟩
  · rw [hsecond]
    exact Nat.le_of_eq hts.symm
  · rw [hsecond]
    exact Nat.lt_of_le_of_lt (Nat.le_of_eq hts) (Nat.lt_add_of_pos_right (by decide))
  · have htick : (s.sampleTask timeLock rawData data temp cached).sampleTick =
      s.sampleTick + 1 := rfl
    rw [hsecond, htick, tick_succ s.sampleTick h, hrefresh]
    exact congrArg (· + 1) hts

theorem within_count (h : Within s) (hcount : s.sampleTick.toNat % 1000 ≠ 0) (timeLock : Bool)
    (rawData : Fin 4 → UInt16) (data : Fin 4 → UInt32) (temp : UInt32) (cached : Option Bool) :
    let s' := s.sampleTask timeLock rawData data temp cached
    Within s' ∧ s'.item.ts.toNat = s.item.ts.toNat + 1 := by
  have hcond : ¬ s.sampleTick % 1000 = 0 := fun h => hcount ((mod_tick s.sampleTick).mp h)
  have hnow := h.count hcount
  have hmod := Nat.mod_lt s.sampleTick.toNat (by decide : 1000 > 0)
  have hle := h.le
  have hsec := s.second.toNat_lt
  have hts : (s.stampItem timeLock temp).ts.toNat = s.item.ts.toNat + 1 := by
    rw [SampleClock.stampItem, if_neg hcond]
    exact (UInt64.toNat_add _ _).trans (Nat.mod_eq_of_lt (by rw [UInt64.toNat_one]; omega))
  have hsecond : (s.sampleTask timeLock rawData data temp cached).second = s.second := if_neg hcond
  have hitem : (s.sampleTask timeLock rawData data temp cached).item.ts.toNat =
    s.item.ts.toNat + 1 := hts
  refine ⟨⟨⟨s.stamps, rfl⟩, ?_, ?_, fun hnext => ?_⟩, hts⟩
  · rw [hsecond, hitem]
    omega
  · rw [hsecond, hitem]
    omega
  · have htick : (s.sampleTask timeLock rawData data temp cached).sampleTick =
      s.sampleTick + 1 := rfl
    rw [hsecond, hitem, htick, tick_succ s.sampleTick hnext]
    omega

theorem stamps_sublist (s : SampleClock) (e : ClockEvent) :
    s.stamps.Sublist (s.step e).stamps := by
  cases e with
  | sync lock time =>
    rw [SampleClock.step, SampleClock.timeSyncTask]
    split <;> exact List.Sublist.refl _
  | sample timeLock rawData data temp cached => exact List.sublist_append_left _ _
  | turn countLock readLock => exact List.Sublist.refl _

theorem pairwise_concat {before : List UInt64} {a b : UInt64}
    (h : (before ++ [a]).Pairwise (· < ·)) : (before ++ [a] ++ [b]).Pairwise (· < ·) ↔ a < b := by
  constructor
  · intro hboth
    exact (List.pairwise_append.mp hboth).2.2 a List.mem_concat_self b (List.mem_singleton_self b)
  · intro hab
    refine List.pairwise_append.mpr ⟨h, List.pairwise_singleton _ _, fun x hx y hy => ?_⟩
    rw [List.mem_singleton.mp hy]
    rcases List.mem_append.mp hx with hold | hlast
    · exact UInt64.lt_trans
        ((List.pairwise_append.mp h).2.2 x hold a (List.mem_singleton_self a)) hab
    · rwa [List.mem_singleton.mp hlast]

namespace Stamped

theorem sample_within (h : Stamped s) (timeLock : Bool) (rawData : Fin 4 → UInt16)
    (data : Fin 4 → UInt32) (temp : UInt32) (cached : Option Bool) :
    Within (s.sampleTask timeLock rawData data temp cached) := by
  rcases h.within with ⟨-, htick⟩ | hwithin
  · exact (within_refresh (by rw [htick]; rfl) timeLock rawData data temp cached).1
  · by_cases hrefresh : s.sampleTick.toNat % 1000 = 0
    · exact (within_refresh hrefresh timeLock rawData data temp cached).1
    · exact (within_count hwithin hrefresh timeLock rawData data temp cached).1

theorem sample (h : Stamped s) (timeLock : Bool) (rawData : Fin 4 → UInt16)
    (data : Fin 4 → UInt32) (temp : UInt32) (cached : Option Bool) :
    Stamped (s.sampleTask timeLock rawData data temp cached) := by
  have hwithin := h.sample_within timeLock rawData data temp cached
  refine ⟨.inr hwithin, fun ts hts => ?_, ?_, ?_, ?_⟩
  · rcases List.mem_append.mp hts with hold | hnew
    · exact h.seconds ts hold
    · have hlt := hwithin.lt
      have hsec := (s.sampleTask timeLock rawData data temp cached).second.toNat_lt
      rw [List.mem_singleton.mp hnew]
      exact (Nat.div_lt_of_lt_mul (Nat.lt_of_lt_of_le hlt (by omega)))
  · have hkeep : (s.flow.delivered.map AdcItem.ts).Sublist
        (s.sampleTask timeLock rawData data temp cached).stamps :=
      h.delivered.trans (List.sublist_append_left _ _)
    cases cached with
    | none => exact hkeep
    | some lock =>
      simp only [SampleClock.sampleTask, SampleFlow.write]
      split
      · rw [List.map_append]
        exact h.delivered.append (List.Sublist.refl _)
      · exact hkeep
  · cases cached with
    | none => exact h.flowing
    | some lock => exact (h.flowing.write lock _).1
  · cases cached with
    | none => exact h.inStep
    | some lock => exact h.inStep.write h.flowing lock _

theorem step (h : Stamped s) (e : ClockEvent) : Stamped (s.step e) := by
  cases e with
  | sync lock time =>
    rw [SampleClock.step, SampleClock.timeSyncTask]
    split
    · refine ⟨h.within.imp_right fun hwithin => ?_, h.seconds, h.delivered, h.flowing,
        h.inStep⟩
      exact ⟨hwithin.last, hwithin.le, hwithin.lt, hwithin.count⟩
    · exact h
  | sample timeLock rawData data temp cached => exact h.sample timeLock rawData data temp cached
  | turn countLock readLock =>
    obtain ⟨hflow, hsame⟩ := h.flowing.turn countLock readLock
    refine ⟨h.within.imp_right fun hwithin => ?_, h.seconds, ?_, hflow,
      h.inStep.turn h.flowing countLock readLock⟩
    · exact ⟨hwithin.last, hwithin.le, hwithin.lt, hwithin.count⟩
    · rw [SampleClock.step, hsame]
      exact h.delivered

/-- The next sample time is greater than the last exactly if the step advances. -/
theorem pairwise_iff (h : Stamped s) (hstrict : s.stamps.Pairwise (· < ·)) (e : ClockEvent) :
    (s.step e).stamps.Pairwise (· < ·) ↔ Advances s e := by
  cases e with
  | sync lock time =>
    refine iff_of_true ?_ trivial
    rw [SampleClock.step, SampleClock.timeSyncTask]
    split <;> exact hstrict
  | turn countLock readLock => exact iff_of_true hstrict trivial
  | sample timeLock rawData data temp cached =>
    have hstamps : (s.step (.sample timeLock rawData data temp cached)).stamps =
      s.stamps ++ [(s.sampleTask timeLock rawData data temp cached).item.ts] := rfl
    rw [hstamps, Advances, mod_tick]
    rcases h.within with ⟨hnone, -⟩ | hwithin
    · rw [hnone]
      exact iff_of_true (List.pairwise_singleton _ _) fun _ hsome => absurd rfl hsome
    · obtain ⟨before, hlast⟩ := hwithin.last
      have hle := hwithin.le
      have hlt := hwithin.lt
      rw [hlast] at hstrict ⊢
      rw [pairwise_concat hstrict, UInt64.lt_iff_toNat_lt, UInt32.lt_iff_toNat_lt]
      by_cases hrefresh : s.sampleTick.toNat % 1000 = 0
      · have hts := (within_refresh hrefresh timeLock rawData data temp cached).2
        have hsome : before ++ [s.item.ts] ≠ [] := by simp
        rw [hts]
        cases timeLock with
        | false =>
          refine iff_of_false (Nat.not_lt_zero _) fun hall => ?_
          exact absurd (hall hrefresh hsome).1 (by decide)
        | true =>
          rw [if_pos rfl]
          constructor
          · exact fun hnext _ _ => ⟨rfl, by omega⟩
          · intro hall
            have hsecond := (hall hrefresh hsome).2
            omega
      · have hts := (within_count hwithin hrefresh timeLock rawData data temp cached).2
        rw [hts]
        exact iff_of_true (Nat.lt_succ_self _) fun hzero => absurd hzero hrefresh

/-- Seconds of increasing sample times are handed over once. -/
theorem handed_nodup (h : Stamped s) (hstrict : s.stamps.Pairwise (· < ·)) :
    (s.flow.handed.map HandedRecord.ts).Nodup := by
  rw [h.inStep.handed, List.Nodup, List.pairwise_map]
  have hdelivered := List.pairwise_map.mp (hstrict.sublist h.delivered)
  have hsub := (intake_handed_sublist (s.flow.delivered.take s.flow.consumed)).trans
    (List.take_sublist s.flow.consumed _)
  have htaken := hdelivered.sublist hsub
  have hsecond : ∀ a ∈ (intake (s.flow.delivered.take s.flow.consumed)).handed,
      a.ts.toNat % 1000 = 999 ∧ a.ts.toNat / 1000 < 2 ^ 32 := by
    intro a ha
    have hts : a.ts ∈ s.stamps := h.delivered.subset (List.mem_map_of_mem (hsub.subset ha))
    exact ⟨of_decide_eq_true (isLast_of_mem_handed ha), h.seconds a.ts hts⟩
  refine htaken.imp_of_mem fun {a b} ha hb hab heq => ?_
  obtain ⟨hlasta, hseca⟩ := hsecond a ha
  obtain ⟨hlastb, hsecb⟩ := hsecond b hb
  have htoNat := congrArg UInt32.toNat heq
  rw [AdcItem.second, AdcItem.second, UInt32.toNat_ofNat', UInt32.toNat_ofNat',
    Nat.mod_eq_of_lt hseca, Nat.mod_eq_of_lt hsecb] at htoNat
  have hlt := UInt64.lt_iff_toNat_lt.mp hab
  omega

theorem start (boot : SystemTime) (timeLock : Bool) :
    Stamped (sampleClock boot timeLock).start :=
  ⟨.inl ⟨rfl, rfl⟩, fun _ h => absurd h List.not_mem_nil, List.Sublist.refl _, .start, .start⟩

theorem run (boot : SystemTime) (timeLock : Bool) (es : List ClockEvent) :
    Stamped ((sampleClock boot timeLock).run es) := by
  have hstep : ∀ s e, Stamped s → Stamped ((sampleClock boot timeLock).step s e) :=
    fun _ e h => h.step e
  exact (sampleClock boot timeLock).invariant_runFrom_of_step hstep es (start boot timeLock)

end Stamped

end Step

/-- Sample times are strictly increasing in exactly the runs in which each reading
of `g_TimeSync` after the first succeeds and finds a later second. -/
theorem sampleClock_strict (boot : SystemTime) (timeLock : Bool) (es : List ClockEvent) :
    StrictTime ((sampleClock boot timeLock).run es) ↔
      (sampleClock boot timeLock).Guarded Advances (sampleClock boot timeLock).start es := by
  have hstamps : ((sampleClock boot timeLock).run es).stamps.Pairwise (· < ·) ↔
      (sampleClock boot timeLock).Guarded Advances (sampleClock boot timeLock).start es := by
    induction es using List.reverseRecOn with
    | nil => exact iff_of_true List.Pairwise.nil trivial
    | append_singleton es e ih =>
      have hstamped := Stamped.run boot timeLock es
      have hguard : (sampleClock boot timeLock).Guarded Advances
          ((sampleClock boot timeLock).run es) [e] ↔
          Advances ((sampleClock boot timeLock).run es) e := and_iff_left trivial
      rw [Machine.guarded_append, ← ih, Machine.run_concat]
      constructor
      · intro hnext
        have hold := hnext.sublist (stamps_sublist _ e)
        exact ⟨hold, hguard.mpr ((hstamped.pairwise_iff hold e).mp hnext)⟩
      · rintro ⟨hold, hnext⟩
        exact (hstamped.pairwise_iff hold e).mpr (hguard.mp hnext)
  refine ⟨fun h => hstamps.mp h.stamps, fun h => ⟨hstamps.mpr h, ?_⟩⟩
  exact (Stamped.run boot timeLock es).handed_nodup (hstamps.mpr h)

def clockBoot : SystemTime := ⟨0x26, 0x03, 0x27, 0x08, 0x50, 0x00⟩

/-- 1000 samples and an update that still finds the second of the start. -/
def clockRun : List ClockEvent :=
  List.replicate 1000 (.sample true (fun _ => 0) (fun _ => 0) 0 none) ++ [.sync true clockBoot]

/-- The clock chip does not run backwards, and yet the next sample has the time of the first. -/
theorem sampleClock_repeated :
    let es := clockRun ++ [.sample true (fun _ => 0) (fun _ => 0) 0 none]
    (rtcSeconds clockBoot es).Pairwise (· ≤ ·) ∧
      ¬ StrictTime ((sampleClock clockBoot true).run es) := by
  refine ⟨by decide +kernel, fun hstrict => ?_⟩
  have htick : ((sampleClock clockBoot true).run clockRun).sampleTick = 1000 := by decide +kernel
  have hsecond : ((sampleClock clockBoot true).run clockRun).second = 1774601400 := by
    decide +kernel
  have hbase : ((sampleClock clockBoot true).run clockRun).timeSync.rtcBaseSec = 1774601400 := by
    decide +kernel
  have hstamped := Stamped.run clockBoot true clockRun
  have hstamps := hstrict.stamps
  rw [Machine.run_concat] at hstamps
  generalize (sampleClock clockBoot true).run clockRun = s at htick hsecond hbase hstamped hstamps
  have hadvances := (hstamped.pairwise_iff (hstamps.sublist (stamps_sublist _ _)) _).mp hstamps
  rcases hstamped.within with ⟨-, hzero⟩ | hwithin
  · exact absurd (htick.symm.trans hzero) (by decide)
  · obtain ⟨before, hlast⟩ := hwithin.last
    have hlater := (hadvances (by rw [htick]; decide) (by simp [hlast])).2
    rw [hsecond, hbase] at hlater
    exact absurd hlater (by decide)

end Lsc100
