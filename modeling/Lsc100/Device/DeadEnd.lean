import Lsc100.Adc.Found
import Lsc100.Device.Steps

/-! A capture whose first second was never stored and is over. `time_sync_task`
asks for that second again and again, no read of it succeeds, and no alarm is
detected any more. -/

namespace Lsc100

/-- Where `alarm_task` can be when it is only ever asked for second `m`. -/
def AlarmPc.Asked (m : UInt32) : AlarmPc → Prop
  | .wait | .drain | .relay _ | .led _ | .store _ => True
  | .read msg => msg.ts = m
  | .load | .incr _ | .args | .write _ _ => False

namespace Device

/-- The open capture waits for second `m`, which is over and has not been stored. -/
structure Stuck (rest : Emmc) (m : UInt32) (s : Device) : Prop where
  timed : s.Timed
  flowing : Flowing s.flow
  capturing : s.alarm.notify.saveSta = .strSave
  alarmTs : s.alarm.notify.alarmTs = m
  index : s.alarm.notify.index = 0
  passed : m.toNat < s.nextSec
  delivered : ∀ it ∈ s.flow.delivered, UInt32.ofNat (it.ts.toNat / 1000) ≠ m
  stored : ∃ l, Represents rest s.adc l ∧ ∀ k < l.length, (l.slot k).ts ≠ m
  queue : ∀ msg ∈ s.alarm.notify.alarmQueue, msg.isFault = true ∨ msg = .ofSave m
  pc : s.alarm.pc.Asked m

namespace Stuck

variable {rest : Emmc} {m : UInt32} {s : Device}

theorem not_found (h : Stuck rest m s)
    (hrest : ∀ i, 480000 ≤ i → (diskItem rest i).timestamp ≠ m) :
    (s.readAdcData m).1 ≠ 0 := by
  obtain ⟨l, hrep, hnever⟩ := h.stored
  intro hread
  obtain ⟨it, hit⟩ := storageReadAdcData_ret.mp hread
  rw [hrep.lookup_none hnever hrest] at hit
  cases hit

theorem sample (h : Stuck rest m s) (reading : AdcItem) (rawAdc : UInt16) :
    Stuck rest m (s.sample reading rawAdc) := by
  have hmoved := sample_unmoved h.capturing reading rawAdc
  have htimed := h.timed.sample reading rawAdc
  have hsec := h.timed.nextItem_sec reading
  have hrtc := s.rtcBaseSec.toNat_lt
  have hle := h.timed.nextSec_le
  have hover := h.passed
  obtain ⟨hadc, hrtc', -, -, hitem⟩ := s.sample_frame reading rawAdc
  have hnew : UInt32.ofNat ((s.nextItem reading).ts.toNat / 1000) ≠ m := by
    rw [hsec]
    intro heq
    have := congrArg UInt32.toNat heq
    rw [UInt32.toNat_ofNat', Nat.mod_eq_of_lt (by omega)] at this
    omega
  have hflow : Flowing (s.sample reading rawAdc).flow ∧
      ∀ it ∈ (s.sample reading rawAdc).flow.delivered,
        UInt32.ofNat (it.ts.toNat / 1000) ≠ m := by
    by_cases htaken : s.Sampled reading
    · rw [(sample_taken htaken).2]
      refine ⟨(h.flowing.write true _).1, fun it hit => ?_⟩
      rcases h.flowing.write_cases (s.nextItem reading) with ⟨-, hdel⟩ | ⟨-, hsame⟩
      · rw [hdel, List.mem_append, List.mem_singleton] at hit
        rcases hit with hit | rfl
        · exact h.delivered it hit
        · exact hnew
      · rw [hsame] at hit
        exact h.delivered it hit
    · rw [(sample_skipped htaken).2]
      exact ⟨h.flowing, h.delivered⟩
  refine ⟨htimed, hflow.1, hmoved.saveSta.trans h.capturing, hmoved.alarmTs.trans h.alarmTs,
    hmoved.index.trans h.index, ?_, hflow.2, hadc ▸ h.stored, ?_, ?_⟩
  · have hitem' : (s.sample reading rawAdc).item.ts.toNat / 1000 = s.nextSec := by rw [hitem, hsec]
    rw [nextSec, hrtc', hitem']
    split <;> omega
  · rw [hmoved.alarmQueue]
    exact h.queue
  · rw [hmoved.pc]
    exact h.pc

theorem tick (h : Stuck rest m s) {t : UInt32} (ht : s.rtcBaseSec ≤ t) :
    Stuck rest m (s.tick t) := by
  have htimed := h.timed.tick ht
  have hover := h.passed
  rw [UInt32.le_iff_toNat_le] at ht
  rw [Device.tick] at htimed ⊢
  split
  · exact h
  · rename_i hdue
    rw [if_neg hdue] at htimed
    refine ⟨htimed, h.flowing, h.capturing, h.alarmTs, h.index, ?_, h.delivered, h.stored, h.queue,
      h.pc⟩
    rw [nextSec] at hover ⊢
    split
    · rename_i hphase
      rw [if_pos hphase] at hover
      exact Nat.lt_of_lt_of_le hover ht
    · rename_i hphase
      rwa [if_neg hphase] at hover

/-- The index is 0, so `Adc_Save_Alarm` asks for the first second again. -/
theorem save (h : Stuck rest m s) : Stuck rest m s.save := by
  rw [Device.save, AlarmSystem.save]
  split
  · rcases adcSaveAlarm_cases true s.alarm.notify with heq | ⟨-, hindex, -, -⟩ | ⟨-, heq⟩
    · simp only [heq]
      exact ⟨h.timed.congr rfl rfl rfl, h.flowing, h.capturing, h.alarmTs, h.index, h.passed,
        h.delivered, h.stored, h.queue, h.pc⟩
    · rw [h.index] at hindex
      exact absurd hindex (by decide)
    · have hmsg : AlarmMsg.ofSave (s.alarm.notify.alarmTs + s.alarm.notify.index.toUInt32) =
          .ofSave m := by
        rw [h.alarmTs, h.index]
        exact congrArg AlarmMsg.ofSave (UInt32.add_zero m)
      simp only [heq, hmsg]
      refine ⟨h.timed.congr rfl rfl rfl, h.flowing, ?_, ?_, ?_, h.passed, h.delivered, h.stored,
        ?_, h.pc⟩
      · exact (AlarmNotify.send_saveSta _ _).trans h.capturing
      · exact (AlarmNotify.send_alarmTs _ _).trans h.alarmTs
      · exact (AlarmNotify.send_index _ _).trans h.index
      · simp only [AlarmNotify.send_alarmQueue]
        split
        · intro msg hmem
          rw [List.mem_append, List.mem_singleton] at hmem
          exact hmem.elim (h.queue msg) .inr
        · exact h.queue
  · exact h

theorem turn (h : Stuck rest m s) : Stuck rest m s.turn := by
  obtain ⟨l, hrep, hnever⟩ := h.stored
  obtain ⟨new, -, -, -, hnew, hadc⟩ := turn_adc h.flowing
  obtain ⟨hflow, hdel⟩ := h.flowing.turn true true
  obtain ⟨hlength, hold, hslot⟩ := l.writes_slot (new.map HandedRecord.second)
  refine ⟨h.timed.congr rfl rfl rfl, hflow, h.capturing, h.alarmTs, h.index, h.passed,
    fun it hit => h.delivered it (hdel ▸ hit), ⟨l.writes (new.map HandedRecord.second), ?_, ?_⟩,
    h.queue, h.pc⟩
  · rw [hadc]
    exact hrep.writes _
  · intro k hk
    rcases Nat.lt_or_ge k l.length with hlt | hge
    · rw [hold k hlt]
      exact hnever k hlt
    · obtain ⟨i, rfl⟩ := Nat.exists_eq_add_of_le hge
      have hi : i < new.length := by
        rw [hlength, List.length_map] at hk
        omega
      rw [hslot i (by rwa [List.length_map]), List.getElem_map]
      obtain ⟨it, hit, hts⟩ := hnew _ (List.getElem_mem hi)
      simp only [HandedRecord.second, hts]
      exact h.delivered it hit

theorem alarmTask (h : Stuck rest m s)
    (hrest : ∀ i, 480000 ≤ i → (diskItem rest i).timestamp ≠ m) : Stuck rest m s.alarmTask := by
  have hpcAsked := h.pc
  have hmove : ∀ a : AlarmSystem, a.notify.saveSta = s.alarm.notify.saveSta →
      a.notify.alarmTs = s.alarm.notify.alarmTs → a.notify.index = s.alarm.notify.index →
      (∀ msg ∈ a.notify.alarmQueue, msg ∈ s.alarm.notify.alarmQueue) → a.pc.Asked m →
      Stuck rest m { s with alarm := a } := fun a hsta hts hindex hqueue hpc =>
    ⟨h.timed.congr rfl rfl rfl, h.flowing, hsta.trans h.capturing, hts.trans h.alarmTs,
      hindex.trans h.index, h.passed, h.delivered, h.stored,
      fun msg hmem => h.queue msg (hqueue msg hmem), hpc⟩
  cases hpc : s.alarm.pc with
  | wait =>
    simp only [Device.alarmTask, AlarmSystem.alarmTask, hpc]
    split
    · exact hmove _ rfl rfl rfl (fun _ hmem => hmem) trivial
    · exact hmove _ rfl rfl rfl (fun _ hmem => hmem) (hpc ▸ trivial)
  | drain =>
    simp only [Device.alarmTask, AlarmSystem.alarmTask, hpc]
    cases hqueue : s.alarm.notify.alarmQueue with
    | nil => exact hmove _ rfl rfl rfl (fun _ hmem => hmem) trivial
    | cons msg rest =>
      refine hmove _ rfl rfl rfl (fun x hx => hqueue ▸ List.mem_cons_of_mem msg hx) ?_
      rcases h.queue msg (hqueue ▸ List.mem_cons_self) with hfault | rfl
      · simp only [hfault, if_true]
        trivial
      · exact rfl
  | relay msg =>
    simp only [Device.alarmTask, AlarmSystem.alarmTask, hpc]
    exact hmove _ rfl rfl rfl (fun _ hmem => hmem) trivial
  | led msg =>
    simp only [Device.alarmTask, AlarmSystem.alarmTask, hpc]
    exact hmove _ rfl rfl rfl (fun _ hmem => hmem) trivial
  | store msg =>
    simp only [Device.alarmTask, AlarmSystem.alarmTask, hpc]
    exact hmove _ rfl rfl rfl (fun _ hmem => hmem) trivial
  | read msg =>
    rw [hpc] at hpcAsked
    have hts : msg.ts = m := hpcAsked
    have hread : s.readOk = false := by
      simp only [readOk, hpc, hts]
      exact decide_eq_false (h.not_found hrest)
    simp only [Device.alarmTask, AlarmSystem.alarmTask, hpc, hread]
    exact hmove _ rfl rfl rfl (fun _ hmem => hmem) trivial
  | load =>
    rw [hpc] at hpcAsked
    exact hpcAsked.elim
  | incr index =>
    rw [hpc] at hpcAsked
    exact hpcAsked.elim
  | args =>
    rw [hpc] at hpcAsked
    exact hpcAsked.elim
  | write timestamp flag =>
    rw [hpc] at hpcAsked
    exact hpcAsked.elim

theorem step (hrest : ∀ i, 480000 ≤ i → (diskItem rest i).timestamp ≠ m) (s : Device)
    (e : DeviceStep) (h : Stuck rest m s) (he : s.Clock e) : Stuck rest m (s.step e) := by
  cases e with
  | sample reading rawAdc => exact h.sample reading rawAdc
  | tick t => exact h.tick he
  | save => exact h.save
  | turn => exact h.turn
  | alarmTask => exact h.alarmTask hrest

theorem leads (h : Stuck rest m s) (hrest : ∀ i, 480000 ≤ i → (diskItem rest i).timestamp ≠ m)
    {t : Device} (ht : s.Leads t) : Stuck rest m t :=
  Machine.Reaches.invariant _ (step hrest) h ht

theorem deadEnd (h : Stuck rest m s)
    (hrest : ∀ i, 480000 ≤ i → (diskItem rest i).timestamp ≠ m) : ¬ s.NoDeadEnd := by
  rintro ⟨-, t, ht, hend⟩
  rw [(h.leads hrest ht).capturing] at hend
  cases hend

end Stuck

/-- Samples without voltage and current only move the sampling clock on. -/
theorem runFrom_idle {s : Device} (hsta : s.alarm.notify.alarmSta = .cleared) (start : Device)
    (n : Nat) : ∃ item, (device start).runFrom s (List.replicate n (.sample default 0)) =
      { s with item := item, sampleTick := s.sampleTick + n } := by
  induction n generalizing s with
  | zero => exact ⟨s.item, rfl⟩
  | succ n ih =>
    have hdata : (s.nextItem default).data = fun _ => 0 := by
      rw [nextItem]
      split <;> rfl
    have hidle : (s.nextItem default).isIdle = true := by
      simp only [AdcItem.isIdle, hdata]
      decide
    have hclear : s.alarm.clear true 0 = s.alarm := by
      rw [AlarmSystem.clear, adcClearAlarm, if_pos rfl, if_neg (by simp [hsta])]
    have hstep : s.sample default 0 =
        { s with item := s.nextItem default, sampleTick := s.sampleTick + 1 } := by
      rw [Device.sample]
      simp only [hclear, hidle, if_true, ite_self]
    obtain ⟨item, hitem⟩ := ih (s := s.sample default 0) (by rw [hstep]; exact hsta)
    refine ⟨item, ?_⟩
    rw [List.replicate_succ, Machine.runFrom_cons]
    refine hitem.trans ?_
    rw [hstep]
    simp only [Nat.add_assoc, Nat.add_comm 1 n]

/-- A calibrated device that has stored nothing, started at second 100. -/
def atHundred : Device :=
  .boot (.boot (fun _ => zeroBlock) { limits with calFlag := .devCalEnd }) 100

/-- No voltage and no current in seconds 100 and 101, too much current from the
first sample of second 102 on. -/
def lateCurrent : List DeviceStep :=
  List.replicate 1000 (.sample default 0) ++ [.tick 101] ++
    List.replicate 1000 (.sample default 0) ++ [.tick 102] ++
    List.replicate 6 (.sample (overload 0) 0)

theorem guarded_samples (start s : Device) (n : Nat) (reading : AdcItem) (rawAdc : UInt16) :
    (device start).Guarded Clock s (List.replicate n (.sample reading rawAdc)) := by
  induction n generalizing s with
  | zero => trivial
  | succ n ih => exact ⟨trivial, ih _⟩

def quietSince : Device := { atHundred with sampleTick := 2000, rtcBaseSec := 102 }

theorem run_lateCurrent : (device atHundred).Guarded Clock atHundred lateCurrent ∧
    (device atHundred).run lateCurrent =
      (device atHundred).runFrom quietSince (List.replicate 6 (.sample (overload 0) 0)) := by
  obtain ⟨item₁, h₁⟩ := runFrom_idle (s := atHundred) rfl atHundred 1000
  obtain ⟨item₂, h₂⟩ := runFrom_idle
    (s := { atHundred with item := item₁, sampleTick := 1000, rtcBaseSec := 101 }) rfl atHundred 1000
  have hcurrent : (device atHundred).runFrom { quietSince with item := item₂ }
        (List.replicate 6 (.sample (overload 0) 0)) =
      (device atHundred).runFrom quietSince (List.replicate 6 (.sample (overload 0) 0)) := by
    rw [List.replicate_succ, Machine.runFrom_cons, Machine.runFrom_cons]
    exact congrArg (fun s => (device atHundred).runFrom s _)
      (sample_fresh (s := quietSince) rfl item₂ (overload 0) 0)
  have hidle := fun s => guarded_samples atHundred s 1000 default 0
  have hload := fun s => guarded_samples atHundred s 6 (overload 0) 0
  rw [lateCurrent, ← hcurrent]
  generalize List.replicate 1000 (DeviceStep.sample default 0) = idle at h₁ h₂ hidle ⊢
  generalize List.replicate 6 (DeviceStep.sample (overload 0) 0) = current at hload ⊢
  have hfirst : (device atHundred).runFrom atHundred (idle ++ [.tick 101]) =
      { atHundred with item := item₁, sampleTick := 1000, rtcBaseSec := 101 } := by
    rw [Machine.runFrom_append, h₁]
    rfl
  have hsecond : (device atHundred).runFrom atHundred (idle ++ [.tick 101] ++ idle) =
      { atHundred with item := item₂, sampleTick := 2000, rtcBaseSec := 101 } := by
    rw [Machine.runFrom_append, hfirst, h₂]
  have hquiet : (device atHundred).runFrom atHundred (idle ++ [.tick 101] ++ idle ++ [.tick 102]) =
      { quietSince with item := item₂ } := by
    rw [Machine.runFrom_append, hsecond]
    rfl
  constructor
  · rw [Machine.guarded_append, Machine.guarded_append, Machine.guarded_append,
      Machine.guarded_append, hfirst, hsecond, h₁]
    have hnext : (100 : UInt32) ≤ 101 ∧ (101 : UInt32) ≤ 102 := by decide
    exact ⟨⟨⟨⟨hidle _, hnext.1, trivial⟩, hidle _⟩, hnext.2, trivial⟩, hload _⟩
  · rw [Machine.run, Machine.runFrom_append]
    exact congrArg (fun s => (device atHundred).runFrom s current) hquiet

theorem reaches_lateCurrent :
    (device atHundred).Reaches Clock atHundred ((device atHundred).run lateCurrent) :=
  .runFrom run_lateCurrent.1

theorem stuck_lateCurrent :
    Stuck (fun _ => zeroBlock) 101 ((device atHundred).run lateCurrent) := by
  have hinv : ((device atHundred).run lateCurrent).Timed ∧
      Flowing ((device atHundred).run lateCurrent).flow :=
    Machine.Reaches.invariant (fun s => Device.Timed s ∧ Flowing s.flow)
      (fun s e h he => ⟨h.1.step he, flowing_step h.2 e⟩)
      ⟨Timed.boot _ _, Flowing.start⟩ reaches_lateCurrent
  have hadc : ((device atHundred).run lateCurrent).adc = atHundred.adc := by
    rw [run_lateCurrent.2]
    simp only [List.replicate, Machine.runFrom_cons, Machine.runFrom_nil, device, Device.step,
      (sample_frame _ _ _).1]
    rfl
  have hpc : ((device atHundred).run lateCurrent).alarm.pc = .wait := by
    rw [run_lateCurrent.2]
    simp only [List.replicate, Machine.runFrom_cons, Machine.runFrom_nil, device, Device.step,
      sample_pc]
    rfl
  refine ⟨hinv.1, hinv.2, ?_, ?_, ?_, ?_, ?_, ⟨.empty, ?_, ?_⟩, ?_, ?_⟩
  · rw [run_lateCurrent.2]
    decide +kernel
  · rw [run_lateCurrent.2]
    decide +kernel
  · rw [run_lateCurrent.2]
    decide +kernel
  · rw [run_lateCurrent.2]
    decide +kernel
  · rw [run_lateCurrent.2]
    decide +kernel
  · rw [hadc]
    exact Represents.init _ (.inr ⟨rfl, rfl, rfl⟩) false
  · exact fun k hk => absurd hk (Nat.not_lt_zero k)
  · have hfault : ∀ msg ∈ ((device atHundred).runFrom quietSince
        (List.replicate 6 (.sample (overload 0) 0))).alarm.notify.alarmQueue,
        msg.isFault = true := by decide +kernel
    rw [run_lateCurrent.2]
    exact fun msg hmem => .inl (hfault msg hmem)
  · rw [hpc]
    trivial

/-- The alarm of second 102 waits for second 101 for ever. -/
theorem device_dead_end :
    (device atHundred).Reaches Clock atHundred ((device atHundred).run lateCurrent) ∧
      ((device atHundred).run lateCurrent).Wanted 101 ∧
      (∀ t, ((device atHundred).run lateCurrent).Leads t →
        ¬ t.Retrievable 101 ∧ t.alarm.notify.saveSta = .strSave) ∧
      ¬ ∀ s, (device atHundred).Reaches Clock atHundred s → s.NoDeadEnd := by
  have hrest : ∀ i, 480000 ≤ i → (diskItem (fun _ => zeroBlock) i).timestamp ≠ 101 := by
    intro i hi heq
    have hkey := diskKey_erased (e := fun _ => zeroBlock) (fun _ _ => rfl) hi
    rw [diskKey, heq] at hkey
    exact absurd hkey (by decide)
  have hstuck := stuck_lateCurrent
  refine ⟨reaches_lateCurrent, ⟨hstuck.capturing, ?_, ?_⟩, fun t ht => ⟨?_, ?_⟩, fun hall => ?_⟩
  · rw [hstuck.alarmTs, hstuck.index]
    decide
  · rw [hstuck.alarmTs]
    decide
  · exact (hstuck.leads hrest ht).not_found hrest
  · exact (hstuck.leads hrest ht).capturing
  · exact hstuck.deadEnd hrest (hall _ reaches_lateCurrent)

end Device

end Lsc100
