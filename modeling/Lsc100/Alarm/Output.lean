import Lsc100.Alarm.Task

/-! The relay and the LED against the alarm state. `sample_task` switches them
off by itself, `alarm_task` switches them on when it gets to the message, so the
two agree as long as nothing is cleared that has not been switched on. -/

namespace Lsc100

def AlarmNotify.Active (n : AlarmNotify) : Prop := n.alarmSta = .raised ∨ n.alarmSta = .recovery

namespace AlarmSystem

def FaultPending (s : AlarmSystem) : Prop := ∃ m ∈ s.notify.alarmQueue, m.isFault = true

/-- `alarm_task` has taken a fault message and not yet switched everything on. -/
def Switching (s : AlarmSystem) : Prop := ∃ m, s.pc = .relay m ∨ s.pc = .led m

/-- `alarm_task` is in the middle of a fault message. -/
def Handling (s : AlarmSystem) : Prop := s.Switching ∨ ∃ m, s.pc = .store m

/-- Relay and LED show the alarm state. -/
structure Agrees (s : AlarmSystem) : Prop where
  relay : s.out.relay = true ↔ s.notify.Active
  led : s.out.led = true ↔ s.notify.Active

/-- Nothing is cleared before it has been switched on, and a new alarm finds room
in the queue. -/
def OutputSafe (bootTs : UInt32) (s : AlarmSystem) : TaskEvent → Prop
  | .clear lock rawData => lock = true → s.notify.Active → isCleanrAlarm rawData = true →
      ¬ s.FaultPending ∧ ¬ s.Switching
  | .check lock item => s.notify.Raises lock bootTs s.store.config item →
      s.notify.alarmSta = .cleared → s.notify.alarmQueue.length < alarmQueueLength
  | _ => True

structure OutputInv (s : AlarmSystem) : Prop where
  quiet : ¬ s.FaultPending → ¬ s.Switching → s.Agrees
  busy : s.FaultPending ∨ s.Switching → s.notify.Active
  half : ∀ m, s.pc = .led m → s.out.relay = true

namespace OutputInv

variable {s : AlarmSystem} {bootTs : UInt32}

theorem boot (c : ConfigInfo) : OutputInv (.boot c) := by
  have hidle : ¬ (AlarmSystem.boot c).notify.Active := by rintro (h | h) <;> cases h
  refine ⟨fun _ _ => ⟨iff_of_false Bool.false_ne_true hidle, iff_of_false Bool.false_ne_true hidle⟩,
    ?_, nofun⟩
  rintro (⟨m, hm, -⟩ | ⟨m, h | h⟩)
  · cases hm
  · cases h
  · cases h

/-- Steps that change neither the outputs nor what is on the way to them. -/
theorem frame (h : OutputInv s) {s' : AlarmSystem} (hout : s'.out = s.out)
    (hpc : ∀ m, (s'.pc = .relay m ↔ s.pc = .relay m) ∧ (s'.pc = .led m ↔ s.pc = .led m))
    (hpending : s'.FaultPending ↔ s.FaultPending) (hsta : s'.notify.Active ↔ s.notify.Active) :
    OutputInv s' := by
  have hswitching : s'.Switching ↔ s.Switching :=
    exists_congr fun m => or_congr (hpc m).1 (hpc m).2
  refine ⟨fun hp hs => ?_, fun hbusy => ?_, fun m hm => ?_⟩
  · have hagrees := h.quiet (fun hp' => hp (hpending.mpr hp')) fun hs' => hs (hswitching.mpr hs')
    exact ⟨by rw [hout, hsta, hagrees.relay], by rw [hout, hsta, hagrees.led]⟩
  · exact hsta.mpr (h.busy (hbusy.imp hpending.mp hswitching.mp))
  · rw [hout]
    exact h.half m ((hpc m).2.mp hm)

theorem faultPending_congr {s' : AlarmSystem} (h : s'.notify.alarmQueue = s.notify.alarmQueue) :
    s'.FaultPending ↔ s.FaultPending := by
  rw [FaultPending, FaultPending, h]

theorem frame_notify (h : OutputInv s) {s' : AlarmSystem} (hout : s'.out = s.out)
    (hpc : s'.pc = s.pc) (hqueue : s'.notify.alarmQueue = s.notify.alarmQueue)
    (hsta : s'.notify.Active ↔ s.notify.Active) : OutputInv s' :=
  h.frame hout (fun m => by rw [hpc]; exact ⟨Iff.rfl, Iff.rfl⟩) (faultPending_congr hqueue) hsta

theorem check (h : OutputInv s) {lock : Bool} {item : AdcItem}
    (hsafe : OutputSafe bootTs s (.check lock item)) : OutputInv (s.check bootTs lock item) := by
  have hfields : (s.check bootTs lock item).out = s.out ∧ (s.check bootTs lock item).pc = s.pc ∧
      (s.check bootTs lock item).notify =
        adcCheckAlarm lock bootTs s.store.config item s.notify := by
    rw [AlarmSystem.check]
    split <;> exact ⟨rfl, rfl, rfl⟩
  obtain ⟨hout, hpc, hnotify⟩ := hfields
  rcases adcCheckAlarm_cases lock bootTs s.store.config item s.notify with
    ⟨hraises, heq⟩ | ⟨-, hsame⟩
  · rw [heq] at hnotify
    obtain ⟨hsta, -, -, -, hqueue⟩ :=
      AlarmNotify.raise_fields { s.notify with num := s.notify.num + 1 }
        (alarmType s.store.config item) item
    rw [← hnotify] at hsta hqueue
    by_cases hroom : s.notify.alarmQueue.length < alarmQueueLength
    · rw [if_pos hroom] at hqueue
      have hfault : (AlarmMsg.ofItem (alarmType s.store.config item) item).isFault = true := by
        rcases alarmType_cases s.store.config item with hz | hz | hz | hz
        · exact absurd hz hraises.fault
        all_goals
          rw [hz]
          rfl
      refine ⟨fun hp => ?_, fun _ => .inl hsta, fun m hm => ?_⟩
      · exact absurd ⟨_, hqueue ▸ List.mem_append_right _ (List.mem_singleton_self _), hfault⟩ hp
      · rw [hout]
        exact h.half m (hpc ▸ hm)
    · rw [if_neg hroom] at hqueue
      have hbefore : s.notify.Active := by
        cases hs : s.notify.alarmSta with
        | raised => exact .inl hs
        | recovery => exact .inr hs
        | cleared => exact absurd (hsafe hraises hs) hroom
      exact h.frame_notify hout hpc hqueue (iff_of_true (.inl hsta) hbefore)
  · rw [← hnotify] at hsame
    refine h.frame_notify hout hpc hsame.alarmQueue ?_
    rcases hsame.sta with heq | ⟨hraised, hrecovery⟩
    · rw [AlarmNotify.Active, AlarmNotify.Active, heq]
    · exact iff_of_true (.inr hrecovery) (.inl hraised)

theorem clear (h : OutputInv s) {lock : Bool} {rawData : UInt16}
    (hsafe : OutputSafe bootTs s (.clear lock rawData)) : OutputInv (s.clear lock rawData) := by
  rw [AlarmSystem.clear, adcClearAlarm]
  cases lock with
  | false => exact h.frame_notify rfl rfl rfl Iff.rfl
  | true =>
    by_cases hactive : s.notify.alarmSta = .raised ∨ s.notify.alarmSta = .recovery
    · by_cases hraw : isCleanrAlarm rawData = true
      · simp only [hactive, hraw, if_true]
        obtain ⟨hpending, hswitching⟩ := hsafe rfl hactive hraw
        have hidle : ¬ ({ s.notify with alarmSta := .cleared, type := busAlarmNone } :
            AlarmNotify).Active := by rintro (h | h) <;> cases h
        refine ⟨fun _ _ => ⟨iff_of_false Bool.false_ne_true hidle,
          iff_of_false Bool.false_ne_true hidle⟩, fun hbusy => ?_, fun m hm => ?_⟩
        · exact absurd hbusy (not_or.mpr ⟨hpending, hswitching⟩)
        · exact absurd ⟨m, .inr hm⟩ hswitching
      · simp only [hactive, hraw, if_true]
        exact h.frame_notify rfl rfl rfl Iff.rfl
    · simp only [hactive, if_true, if_false]
      exact h.frame_notify rfl rfl rfl Iff.rfl

theorem save (h : OutputInv s) (lock : Bool) : OutputInv (s.save lock) := by
  rw [AlarmSystem.save]
  by_cases hdue : s.saveDue = true
  · rw [if_pos hdue]
    rcases adcSaveAlarm_cases lock s.notify with heq | ⟨-, -, -, heq⟩ | ⟨-, heq⟩
    · exact h.frame_notify rfl rfl (by simp only [heq]) (by simp only [heq])
    · exact h.frame_notify rfl rfl (by simp only [heq]) (by simp only [heq, AlarmNotify.Active])
    · refine h.frame rfl (fun m => ⟨Iff.rfl, Iff.rfl⟩) ?_ ?_
      · simp only [FaultPending, heq, AlarmNotify.send_alarmQueue]
        split
        · simp [AlarmMsg.isFault, AlarmMsg.ofSave, busAlarmSave, busAlarmFrontVol,
            busAlarmRearVol, busAlarmFrontRearVol]
        · rfl
      · simp only [heq, AlarmNotify.Active, AlarmNotify.send_alarmSta]
  · rw [if_neg hdue]
    exact h

theorem alarmTask (h : OutputInv s) (records : UInt32 → Nat → UInt8) (lock ok : Bool) :
    OutputInv (s.alarmTask records lock ok) := by
  cases hpc : s.pc with
  | wait =>
    simp only [AlarmSystem.alarmTask, hpc]
    split
    · exact h.frame rfl (fun m => by simp [hpc]) (faultPending_congr rfl) Iff.rfl
    · exact h
  | drain =>
    simp only [AlarmSystem.alarmTask, hpc]
    cases hqueue : s.notify.alarmQueue with
    | nil => exact h.frame rfl (fun m => by simp [hpc]) (faultPending_congr rfl) Iff.rfl
    | cons msg rest =>
      by_cases hfault : msg.isFault = true
      · simp only [hfault, if_true]
        have hpending : s.FaultPending := ⟨msg, by rw [hqueue]; exact List.mem_cons_self .., hfault⟩
        exact ⟨fun _ hs => absurd ⟨msg, .inl rfl⟩ hs, fun _ => h.busy (.inl hpending),
          fun _ hled => (by cases hled)⟩
      · simp only [hfault, Bool.false_eq_true, if_false]
        refine h.frame rfl (fun m => ?_) ?_ Iff.rfl
        · split <;> simp [hpc]
        · simp only [FaultPending, hqueue, List.mem_cons, exists_eq_or_imp, hfault, false_or,
            Bool.false_eq_true]
  | relay msg =>
    simp only [AlarmSystem.alarmTask, hpc]
    exact ⟨fun _ hs => absurd ⟨msg, .inr rfl⟩ hs, fun _ => h.busy (.inr ⟨msg, .inl hpc⟩),
      fun _ _ => rfl⟩
  | led msg =>
    simp only [AlarmSystem.alarmTask, hpc]
    have hactive : s.notify.Active := h.busy (.inr ⟨msg, .inr hpc⟩)
    exact ⟨fun _ _ => ⟨iff_of_true (h.half msg hpc) hactive, iff_of_true rfl hactive⟩,
      fun _ => hactive, fun _ hled => (by cases hled)⟩
  | store msg =>
    simp only [AlarmSystem.alarmTask, hpc]
    exact h.frame rfl (fun m => by simp [hpc]) (faultPending_congr rfl) Iff.rfl
  | read msg =>
    simp only [AlarmSystem.alarmTask, hpc]
    split <;> exact h.frame rfl (fun m => by simp [hpc]) (faultPending_congr rfl) Iff.rfl
  | load =>
    simp only [AlarmSystem.alarmTask, hpc]
    exact h.frame rfl (fun m => by simp [hpc]) (faultPending_congr rfl) Iff.rfl
  | incr index =>
    simp only [AlarmSystem.alarmTask, hpc]
    exact h.frame rfl (fun m => by simp [hpc]) (faultPending_congr rfl) Iff.rfl
  | args =>
    simp only [AlarmSystem.alarmTask, hpc]
    exact h.frame rfl (fun m => by simp [hpc]) (faultPending_congr rfl) Iff.rfl
  | write timestamp flag =>
    simp only [AlarmSystem.alarmTask, hpc]
    exact h.frame rfl (fun m => by simp [hpc]) (faultPending_congr rfl) Iff.rfl

theorem step (h : OutputInv s) (records : UInt32 → Nat → UInt8) (c : ConfigInfo) {e : TaskEvent}
    (hsafe : OutputSafe bootTs s e) : OutputInv ((alarmSystem records bootTs c).step s e) := by
  cases e with
  | check lock item => exact h.check hsafe
  | clear lock rawData => exact h.clear hsafe
  | tick rtcBaseSec =>
    simp only [alarmSystem]
    split
    · exact h
    · exact h.frame_notify rfl rfl rfl Iff.rfl
  | save lock => exact h.save lock
  | alarmTask lock ok => exact h.alarmTask records lock ok

end OutputInv

end AlarmSystem

/-- In every run that keeps to the condition, relay and LED show the alarm state
whenever no fault message is queued or being handled. -/
theorem alarmSystem_output (records : UInt32 → Nat → UInt8) (bootTs : UInt32) (c : ConfigInfo)
    (es : List TaskEvent)
    (hes : (alarmSystem records bootTs c).Guarded (AlarmSystem.OutputSafe bootTs) (.boot c) es)
    (hpending : ¬ ((alarmSystem records bootTs c).run es).FaultPending)
    (hhandling : ¬ ((alarmSystem records bootTs c).run es).Handling) :
    ((alarmSystem records bootTs c).run es).Agrees :=
  have hinv : AlarmSystem.OutputInv ((alarmSystem records bootTs c).run es) :=
    (alarmSystem records bootTs c).invariant_run (AlarmSystem.OutputInv.boot c)
      (fun _ _ (h : AlarmSystem.OutputInv _) hsafe => h.step records c hsafe) hes
  hinv.quiet hpending fun hs => hhandling (.inl hs)

theorem AlarmSystem.settled {s : AlarmSystem} (hqueue : s.notify.alarmQueue = [])
    (hpc : s.pc = .wait ∨ s.pc = .drain) : ¬ s.FaultPending ∧ ¬ s.Handling := by
  refine ⟨fun ⟨m, hm, _⟩ => ?_, ?_⟩
  · rw [hqueue] at hm
    cases hm
  · rintro (⟨m, h | h⟩ | ⟨m, h⟩) <;> rcases hpc with hpc | hpc <;> rw [h] at hpc <;> cases hpc

theorem alarmSystem_output_raised :
    ((alarmSystem (fun _ _ => 0) 0 limits).run
      (raiseEvents 5000 ++ List.replicate 6 (.alarmTask true true))).Agrees := by
  have hguard : (alarmSystem (fun _ _ => 0) 0 limits).Guarded (AlarmSystem.OutputSafe 0)
      (.boot limits) (raiseEvents 5000 ++ List.replicate 6 (.alarmTask true true)) :=
    ⟨fun _ _ => by decide, fun _ _ => by decide, fun _ _ => by decide, fun _ _ => by decide,
      fun _ _ => by decide, fun _ _ => by decide, trivial, trivial, trivial, trivial, trivial,
      trivial, trivial⟩
  obtain ⟨hpending, hhandling⟩ := AlarmSystem.settled
    (s := (alarmSystem (fun _ _ => 0) 0 limits).run
      (raiseEvents 5000 ++ List.replicate 6 (.alarmTask true true))) rfl (.inl rfl)
  exact alarmSystem_output (fun _ _ => 0) 0 limits _ hguard hpending hhandling

/-- An alarm is cleared while its message is still queued: the relay is switched
on afterwards and stays on. -/
theorem alarmSystem_output_overtaken :
    ¬ ((alarmSystem (fun _ _ => 0) 0 limits).run (raiseEvents 5000 ++ [.clear true 35000] ++
        List.replicate 5 (.alarmTask true true))).FaultPending ∧
      ¬ ((alarmSystem (fun _ _ => 0) 0 limits).run (raiseEvents 5000 ++ [.clear true 35000] ++
        List.replicate 5 (.alarmTask true true))).Handling ∧
      ¬ ((alarmSystem (fun _ _ => 0) 0 limits).run (raiseEvents 5000 ++ [.clear true 35000] ++
        List.replicate 5 (.alarmTask true true))).Agrees := by
  obtain ⟨hpending, hhandling⟩ := AlarmSystem.settled
    (s := (alarmSystem (fun _ _ => 0) 0 limits).run (raiseEvents 5000 ++ [.clear true 35000] ++
      List.replicate 5 (.alarmTask true true))) rfl (.inr rfl)
  refine ⟨hpending, hhandling, fun hagrees => ?_⟩
  rcases hagrees.relay.mp rfl with h | h <;> cases h

end Lsc100
