import Mathlib.Data.List.Induction
import Mathlib.Data.List.Infix
import Lsc100.Alarm.Task

/-! Debouncing: what precedes a fault message in the sequence of the calls of
`Adc_Check_Alarm` and of the clears. -/

namespace Lsc100

/-- A call of `Adc_Check_Alarm`: what it evaluated its sample to, whether no
capture was open, and what it put on `alarm_queue`. -/
structure AlarmCall where
  type : UInt8
  idle : Bool
  queued : List AlarmMsg

/-- `cleared` is an `Adc_Clear_Alarm` that cleared the alarm. -/
inductive AlarmNote
  | call (c : AlarmCall)
  | cleared

def AlarmNote.call? : AlarmNote → Option AlarmCall
  | .call c => some c
  | .cleared => none

def AlarmNote.Quiet : AlarmNote → Prop
  | .call c => c.type = busAlarmNone
  | .cleared => True

/-- The tasks around `g_AlarmNotify`, with notes of the calls and the clears. -/
structure NotedSystem where
  sys : AlarmSystem
  notes : List AlarmNote

def AlarmSystem.note (s s' : AlarmSystem) : TaskEvent → List AlarmNote
  | .check _ item => [.call ⟨alarmType s.store.config item, s.notify.saveSta ≠ .strSave,
      s'.notify.alarmQueue.drop s.notify.alarmQueue.length⟩]
  | .clear _ _ =>
    if s.notify.alarmSta ≠ .cleared ∧ s'.notify.alarmSta = .cleared then [.cleared] else []
  | _ => []

def notedSystem (records : UInt32 → Nat → UInt8) (bootTs : UInt32) (c : ConfigInfo) :
    Machine NotedSystem TaskEvent where
  start := ⟨.boot c, []⟩
  step s e :=
    let sys := (alarmSystem records bootTs c).step s.sys e
    ⟨sys, s.notes ++ s.sys.note sys e⟩

/-- The lock is obtained, and the sample is not taken too early after the boot. -/
def Checked (bootTs : UInt32) (_ : NotedSystem) : TaskEvent → Prop
  | .check lock item => lock = true ∧ ¬ item.ts / 1000 < bootTs.toUInt64
  | _ => True

instance (bootTs : UInt32) (s : NotedSystem) : (e : TaskEvent) → Decidable (Checked bootTs s e)
  | .check _ _ => inferInstanceAs (Decidable (_ ∧ _))
  | .clear _ _ => isTrue trivial
  | .tick _ => isTrue trivial
  | .save _ => isTrue trivial
  | .alarmTask _ _ => isTrue trivial

/-- The last `n` calls all found `type`, with no capture open. -/
def Streak (notes : List AlarmNote) (type : UInt8) (n : Nat) : Prop :=
  ∃ recent, recent <:+ notes.filterMap AlarmNote.call? ∧ recent.length = n ∧
    ∀ c ∈ recent, c.type = type ∧ c.idle = true

/-- A fault message is queued only by the last of six calls that all found it,
and between two of them the alarm has been quiet. -/
structure Debounced (notes : List AlarmNote) : Prop where
  streak : ∀ before c, before ++ [.call c] <+: notes → ∀ m ∈ c.queued,
    m.type ≠ busAlarmNone ∧ Streak (before ++ [.call c]) m.type 6
  apart : ∀ before c between c', before ++ [.call c] ++ between ++ [.call c'] <+: notes →
    c.queued ≠ [] → c'.queued ≠ [] → ∃ x ∈ between, x.Quiet

/-- `num` counts the calls of the streak, and an alarm that is not raised has been
quiet since the last message. -/
structure Counting (n : AlarmNotify) (notes : List AlarmNote) : Prop where
  num : n.type ≠ busAlarmNone → n.alarmSta ≠ .raised →
    n.num.toNat < 5 ∧ Streak notes n.type (n.num.toNat + 1)
  capture : n.saveSta = .strSave → n.type = busAlarmNone ∨ n.alarmSta = .raised
  quiet : n.alarmSta ≠ .raised → ∀ before c after, before ++ [.call c] ++ after = notes →
    c.queued ≠ [] → ∃ x ∈ after, x.Quiet

theorem Streak.concat {notes : List AlarmNote} {type : UInt8} {n : Nat} (h : Streak notes type n)
    {c : AlarmCall} (htype : c.type = type) (hidle : c.idle = true) :
    Streak (notes ++ [.call c]) type (n + 1) := by
  obtain ⟨recent, hsuffix, hlen, hall⟩ := h
  refine ⟨recent ++ [c], ?_, by rw [List.length_append, hlen, List.length_singleton], fun d hd => ?_⟩
  · rw [List.filterMap_append]
    obtain ⟨older, holder⟩ := hsuffix
    exact ⟨older, by rw [← holder, List.append_assoc]; rfl⟩
  · rcases List.mem_append.mp hd with hold | hnew
    · exact hall d hold
    · rw [List.mem_singleton.mp hnew]
      exact ⟨htype, hidle⟩

theorem Streak.first (notes : List AlarmNote) {c : AlarmCall} (hidle : c.idle = true) :
    Streak (notes ++ [.call c]) c.type 1 := by
  refine Streak.concat ⟨[], List.nil_suffix, rfl, fun d hd => absurd hd List.not_mem_nil⟩ rfl hidle

namespace Debounced

variable {notes : List AlarmNote} {c : AlarmCall}

theorem nil : Debounced [] := by
  constructor
  · intro before c h
    simp at h
  · intro before c between c' h
    simp at h

theorem cleared (h : Debounced notes) : Debounced (notes ++ [.cleared]) := by
  constructor
  · intro before c hpre
    rcases List.prefix_concat_iff.mp hpre with heq | hold
    · exact absurd (List.append_inj' heq rfl).2 (by simp)
    · exact h.streak before c hold
  · intro before c between c' hpre
    rcases List.prefix_concat_iff.mp hpre with heq | hold
    · exact absurd (List.append_inj' heq rfl).2 (by simp)
    · exact h.apart before c between c' hold

theorem silent (h : Debounced notes) (hc : c.queued = []) : Debounced (notes ++ [.call c]) := by
  constructor
  · intro before d hpre
    rcases List.prefix_concat_iff.mp hpre with heq | hold
    · have hd : d = c := by simpa using (List.append_inj' heq rfl).2
      rw [hd, hc]
      exact fun m hm => absurd hm List.not_mem_nil
    · exact h.streak before d hold
  · intro before d between c' hpre hd hc'
    rcases List.prefix_concat_iff.mp hpre with heq | hold
    · have hlast : c' = c := by simpa using (List.append_inj' heq rfl).2
      exact absurd (hlast ▸ hc) hc'
    · exact h.apart before d between c' hold hd hc'

theorem sent (h : Debounced notes)
    (hstreak : ∀ m ∈ c.queued, m.type ≠ busAlarmNone ∧ Streak (notes ++ [.call c]) m.type 6)
    (hquiet : ∀ before d after, before ++ [.call d] ++ after = notes → d.queued ≠ [] →
      ∃ x ∈ after, x.Quiet) : Debounced (notes ++ [.call c]) := by
  constructor
  · intro before d hpre
    rcases List.prefix_concat_iff.mp hpre with heq | hold
    · obtain ⟨rfl, hlast⟩ := List.append_inj' heq rfl
      have hd : d = c := by simpa using hlast
      exact hd ▸ hstreak
    · exact h.streak before d hold
  · intro before d between c' hpre hd hc'
    rcases List.prefix_concat_iff.mp hpre with heq | hold
    · exact hquiet before d between (List.append_inj' heq rfl).1 hd
    · exact h.apart before d between c' hold hd hc'

end Debounced

/-- The exits of `Adc_Check_Alarm` after the boot phase, the lock obtained. -/
inductive CheckExit (c : ConfigInfo) (item : AdcItem) (n : AlarmNotify) : AlarmNotify → Prop
  | none (hnone : alarmType c item = busAlarmNone) : CheckExit c item n
      { n with
        type := busAlarmNone
        alarmSta := if n.alarmSta = .raised then .recovery else n.alarmSta }
  | capturing (hfault : alarmType c item ≠ busAlarmNone) (hopen : n.saveSta = .strSave) :
      CheckExit c item n n
  | known (hfault : alarmType c item ≠ busAlarmNone) (hidle : n.saveSta ≠ .strSave)
      (hsame : alarmType c item = n.type) (hraised : n.alarmSta = .raised) : CheckExit c item n n
  | counted (hfault : alarmType c item ≠ busAlarmNone) (hidle : n.saveSta ≠ .strSave)
      (hsame : alarmType c item = n.type) (hsta : n.alarmSta ≠ .raised) (hnum : n.num + 1 < 5) :
      CheckExit c item n { n with num := n.num + 1 }
  | raised (hfault : alarmType c item ≠ busAlarmNone) (hidle : n.saveSta ≠ .strSave)
      (hsame : alarmType c item = n.type) (hsta : n.alarmSta ≠ .raised) (hnum : ¬ n.num + 1 < 5) :
      CheckExit c item n ({ n with num := n.num + 1 }.raise (alarmType c item) item)
  | changed (hfault : alarmType c item ≠ busAlarmNone) (hidle : n.saveSta ≠ .strSave)
      (hother : alarmType c item ≠ n.type) :
      CheckExit c item n { n with num := 0, type := alarmType c item }

theorem adcCheckAlarm_exit {bootTs : UInt32} {c : ConfigInfo} {item : AdcItem} {n : AlarmNotify}
    (hboot : ¬ item.ts / 1000 < bootTs.toUInt64) :
    CheckExit c item n (adcCheckAlarm true bootTs c item n) := by
  rw [adcCheckAlarm, if_pos rfl]
  by_cases hfault : alarmType c item ≠ 0
  · rw [if_pos hfault]
    by_cases hopen : n.saveSta = .strSave
    · rw [if_pos (.inl hopen)]
      exact .capturing hfault hopen
    rw [if_neg fun h => h.elim hopen hboot]
    by_cases hsame : alarmType c item = n.type
    · rw [if_pos hsame]
      by_cases hsta : n.alarmSta = .raised
      · rw [if_pos hsta]
        exact .known hfault hopen hsame hsta
      rw [if_neg hsta]
      by_cases hnum : n.num + 1 < 5
      · rw [if_pos hnum]
        exact .counted hfault hopen hsame hsta hnum
      · rw [if_neg hnum]
        exact .raised hfault hopen hsame hsta hnum
    · rw [if_neg hsame]
      exact .changed hfault hopen hsame
  · rw [if_neg hfault]
    exact .none (not_not.mp hfault)

namespace Counting

variable {n n' : AlarmNotify} {notes : List AlarmNote}

theorem congr (h : Counting n notes) (hnum : n'.num = n.num) (htype : n'.type = n.type)
    (hsta : n'.alarmSta = n.alarmSta) (hsave : n'.saveSta = .strSave → n.saveSta = .strSave) :
    Counting n' notes := by
  refine ⟨?_, fun hopen => ?_, ?_⟩
  · rw [hnum, htype, hsta]
    exact h.num
  · rw [htype, hsta]
    exact h.capture (hsave hopen)
  · rw [hsta]
    exact h.quiet

/-- After a quiet note no type is remembered. -/
theorem of_quiet {x : AlarmNote} (hx : x.Quiet) (hsilent : ∀ c, x = .call c → c.queued = [])
    (htype : n.type = busAlarmNone) : Counting n (notes ++ [x]) := by
  refine ⟨fun hne => absurd htype hne, fun _ => .inl htype, fun _ before c after heq hc => ?_⟩
  rcases List.eq_nil_or_concat after with rfl | ⟨after', y, rfl⟩
  · rw [List.append_nil] at heq
    have hlast := (List.append_inj' heq rfl).2
    exact absurd (hsilent c (by simpa using hlast.symm)) hc
  · rw [List.concat_eq_append, ← List.append_assoc] at heq
    have hlast : y = x := by simpa using (List.append_inj' heq rfl).2
    exact ⟨x, by simp [hlast], hx⟩

theorem quiet_silent (h : Counting n notes) {c : AlarmCall} (hsilent : c.queued = [])
    (hsta : n.alarmSta ≠ .raised) {before after : List AlarmNote} {d : AlarmCall}
    (heq : before ++ [.call d] ++ after = notes ++ [.call c]) (hd : d.queued ≠ []) :
    ∃ x ∈ after, x.Quiet := by
  rcases List.eq_nil_or_concat after with rfl | ⟨after', y, rfl⟩
  · rw [List.append_nil] at heq
    have hlast : d = c := by simpa using (List.append_inj' heq rfl).2
    exact absurd (hlast ▸ hsilent) hd
  · rw [List.concat_eq_append, ← List.append_assoc] at heq
    obtain ⟨x, hx, hquiet⟩ := h.quiet hsta before d after' (List.append_inj' heq rfl).1 hd
    exact ⟨x, by simp [hx], hquiet⟩

/-- A call during a capture, or of an alarm that has been raised. -/
theorem ignored (h : Counting n notes) {c : AlarmCall} (hsilent : c.queued = [])
    (hknown : n.saveSta = .strSave ∨ n.alarmSta = .raised) : Counting n (notes ++ [.call c]) := by
  refine ⟨fun htype hsta => ?_, h.capture, fun hsta before d after heq hd =>
    h.quiet_silent hsilent hsta heq hd⟩
  rcases hknown with hopen | hraised
  · exact absurd (h.capture hopen) (not_or.mpr ⟨htype, hsta⟩)
  · exact absurd hraised hsta

theorem check (h : Counting n notes) (hdeb : Debounced notes) {bootTs : UInt32} {c : ConfigInfo}
    {item : AdcItem} (hboot : ¬ item.ts / 1000 < bootTs.toUInt64) :
    Counting (adcCheckAlarm true bootTs c item n) (notes ++ [.call ⟨alarmType c item,
        n.saveSta ≠ .strSave,
        (adcCheckAlarm true bootTs c item n).alarmQueue.drop n.alarmQueue.length⟩]) ∧
      Debounced (notes ++ [.call ⟨alarmType c item, n.saveSta ≠ .strSave,
        (adcCheckAlarm true bootTs c item n).alarmQueue.drop n.alarmQueue.length⟩]) := by
  have hexit := adcCheckAlarm_exit (c := c) (n := n) hboot
  generalize adcCheckAlarm true bootTs c item n = n' at hexit
  cases hexit with
  | none hnone =>
    refine ⟨of_quiet hnone (fun d hd => ?_) rfl, hdeb.silent List.drop_length⟩
    rw [← AlarmNote.call.inj hd]
    exact List.drop_length
  | capturing hfault hopen =>
    exact ⟨h.ignored List.drop_length (.inl hopen), hdeb.silent List.drop_length⟩
  | known hfault hidle hsame hraised =>
    exact ⟨h.ignored List.drop_length (.inr hraised), hdeb.silent List.drop_length⟩
  | counted hfault hidle hsame hsta hnum =>
    obtain ⟨hlt, hstreak⟩ := h.num (hsame ▸ hfault) hsta
    have hnext : (n.num + 1).toNat = n.num.toNat + 1 := by
      rw [UInt8.toNat_add]
      exact Nat.mod_eq_of_lt (by simp; omega)
    refine ⟨⟨fun _ _ => ⟨?_, ?_⟩, fun hopen => absurd hopen hidle,
      fun hsta before d after heq hd => h.quiet_silent List.drop_length hsta heq hd⟩,
      hdeb.silent List.drop_length⟩
    · rw [hnext]
      have := UInt8.lt_iff_toNat_lt.mp hnum
      rw [hnext] at this
      exact this
    · simp only [hnext]
      exact hstreak.concat hsame (decide_eq_true hidle)
  | changed hfault hidle hother =>
    refine ⟨⟨fun _ _ =>
        ⟨(by decide : (0 : UInt8).toNat < 5), Streak.first notes (decide_eq_true hidle)⟩,
      fun hopen => absurd hopen hidle,
      fun hsta before d after heq hd => h.quiet_silent List.drop_length hsta heq hd⟩,
      hdeb.silent List.drop_length⟩
  | raised hfault hidle hsame hsta hnum =>
    obtain ⟨hlt, hstreak⟩ := h.num (hsame ▸ hfault) hsta
    obtain ⟨hraised, -, -, -, hqueue⟩ :=
      ({ n with num := n.num + 1 } : AlarmNotify).raise_fields (alarmType c item) item
    have hfour : n.num.toNat + 1 = 5 := by
      have hge : 5 ≤ (n.num + 1).toNat := UInt8.le_iff_toNat_le.mp (UInt8.not_lt.mp hnum)
      rw [UInt8.toNat_add, Nat.mod_eq_of_lt (by simp; omega)] at hge
      simp at hge
      omega
    refine ⟨⟨fun _ hnot => absurd hraised hnot, fun _ => .inr hraised,
      fun hnot => absurd hraised hnot⟩, hdeb.sent (fun m hm => ?_) (h.quiet hsta)⟩
    have hm' : m = .ofItem (alarmType c item) item := by
      rw [hqueue] at hm
      split at hm
      · rw [List.drop_left] at hm
        exact List.mem_singleton.mp hm
      · rw [List.drop_length] at hm
        exact absurd hm List.not_mem_nil
    have htype : m.type = alarmType c item := by
      rw [hm']
      rfl
    rw [htype]
    exact ⟨hfault, (hsame ▸ hfour ▸ hstreak).concat rfl (decide_eq_true hidle)⟩

end Counting

def NotedSystem.Sound (s : NotedSystem) : Prop := Counting s.sys.notify s.notes ∧ Debounced s.notes

/-- `alarm_task` does not touch what the detection works with. -/
theorem Counting.save {n : AlarmNotify} {notes : List AlarmNote} (h : Counting n notes)
    (lock : Bool) : Counting (adcSaveAlarm lock n) notes := by
  rcases adcSaveAlarm_cases lock n with heq | ⟨-, -, -, heq⟩ | ⟨-, heq⟩
  · rw [heq]
    exact h
  · rw [heq]
    exact h.congr rfl rfl rfl fun hopen => (by cases hopen)
  · rw [heq, AlarmNotify.send]
    split <;> exact h.congr rfl rfl rfl id

namespace NotedSystem.Sound

variable {s : NotedSystem} {records : UInt32 → Nat → UInt8} {bootTs : UInt32}

theorem clear (h : s.Sound) (lock : Bool) (rawData : UInt16) :
    Counting (s.sys.clear lock rawData).notify
        (s.notes ++ s.sys.note (s.sys.clear lock rawData) (.clear lock rawData)) ∧
      Debounced (s.notes ++ s.sys.note (s.sys.clear lock rawData) (.clear lock rawData)) := by
  obtain ⟨hcount, hdeb⟩ := h
  rw [AlarmSystem.note, AlarmSystem.clear, adcClearAlarm]
  have hsame : ¬ (s.sys.notify.alarmSta ≠ .cleared ∧ s.sys.notify.alarmSta = .cleared) :=
    fun h => h.1 h.2
  by_cases hlock : lock = true
  · rw [if_pos hlock]
    by_cases hsta : s.sys.notify.alarmSta = .raised ∨ s.sys.notify.alarmSta = .recovery
    · rw [if_pos hsta]
      by_cases hraw : isCleanrAlarm rawData = true
      · have hnot : s.sys.notify.alarmSta ≠ .cleared := fun hcleared => by
          rw [hcleared] at hsta
          exact hsta.elim (fun h => (by cases h)) fun h => (by cases h)
        rw [if_pos hraw, if_pos ⟨hnot, rfl⟩]
        exact ⟨.of_quiet trivial (fun d hd => (by cases hd)) rfl, hdeb.cleared⟩
      · rw [if_neg hraw, if_neg hsame, List.append_nil]
        exact ⟨hcount, hdeb⟩
    · rw [if_neg hsta, if_neg hsame, List.append_nil]
      exact ⟨hcount, hdeb⟩
  · rw [if_neg hlock, if_neg hsame, List.append_nil]
    exact ⟨hcount, hdeb⟩

theorem unnoted (hdeb : Debounced s.notes) {sys : AlarmSystem}
    (hcount : Counting sys.notify s.notes) : NotedSystem.Sound ⟨sys, s.notes ++ []⟩ := by
  rw [List.append_nil]
  exact ⟨hcount, hdeb⟩

theorem step (h : s.Sound) (c : ConfigInfo) {e : TaskEvent} (he : Checked bootTs s e) :
    ((notedSystem records bootTs c).step s e).Sound := by
  obtain ⟨hcount, hdeb⟩ := h
  cases e with
  | check lock item =>
    obtain ⟨rfl, hboot⟩ := he
    have hnotify : (s.sys.check bootTs true item).notify =
        adcCheckAlarm true bootTs s.sys.store.config item s.sys.notify := by
      rw [AlarmSystem.check]
      split <;> rfl
    have hcheck := hcount.check hdeb (c := s.sys.store.config) hboot
    rw [← hnotify] at hcheck
    exact hcheck
  | clear lock rawData => exact clear ⟨hcount, hdeb⟩ lock rawData
  | tick rtcBaseSec =>
    have hsame : ((alarmSystem records bootTs c).step s.sys (.tick rtcBaseSec)).notify =
        s.sys.notify := by
      simp only [alarmSystem]
      split <;> rfl
    exact unnoted hdeb (hsame.symm ▸ hcount)
  | save lock =>
    have hsaved : (s.sys.save lock).notify = s.sys.notify ∨
        (s.sys.save lock).notify = adcSaveAlarm lock s.sys.notify := by
      rw [AlarmSystem.save]
      split
      · exact .inr rfl
      · exact .inl rfl
    refine unnoted hdeb (?_ : Counting (s.sys.save lock).notify s.notes)
    rcases hsaved with heq | heq
    · exact heq ▸ hcount
    · exact heq ▸ hcount.save lock
  | alarmTask lock ok =>
    obtain ⟨queue, sem, index, hnotify⟩ := s.sys.alarmTask_notify records lock ok
    refine unnoted hdeb (?_ : Counting (s.sys.alarmTask records lock ok).notify s.notes)
    rw [hnotify]
    exact hcount.congr rfl rfl rfl id

end NotedSystem.Sound

/-- Debouncing, for every run in which `Adc_Check_Alarm` obtains its lock and sees
no sample from before `g_boot_ts`. -/
theorem adcCheckAlarm_debounced (records : UInt32 → Nat → UInt8) (bootTs : UInt32) (c : ConfigInfo)
    (es : List TaskEvent)
    (hes : (notedSystem records bootTs c).Guarded (Checked bootTs)
      (notedSystem records bootTs c).start es) :
    Debounced ((notedSystem records bootTs c).run es).notes := by
  have hsound : ((notedSystem records bootTs c).run es).Sound := by
    refine Machine.invariant_run _ ⟨⟨fun hne => absurd rfl hne, fun hopen => (by cases hopen),
      fun _ before d after heq _ => ?_⟩, .nil⟩ (fun s e hs he => hs.step c he) hes
    have hnil : before ++ [.call d] ++ after = ([] : List AlarmNote) := heq
    simp at hnil
  exact hsound.2

/-- Six samples over the limit, and the message is queued. -/
theorem adcCheckAlarm_debounced_raised :
    ((notedSystem (fun _ _ => 0) 0 limits).run (raiseEvents 0)).sys.notify.alarmQueue.length = 1 ∧
      Debounced ((notedSystem (fun _ _ => 0) 0 limits).run (raiseEvents 0)).notes :=
  ⟨by decide +kernel, adcCheckAlarm_debounced _ _ _ _ (by decide +kernel)⟩

end Lsc100
