import Lsc100.Basis.Sections
import Lsc100.Sample.Clock

/-! `g_TimeSync` between `time_sync_task`, which sets it field by field, and the tasks that ask
for the time. -/

namespace Lsc100

open Sections

/-- What is done under the mutex of `g_TimeSync`: a pass of `time_sync_task` that has found `time`
in the clock chip, a call of `TimeSync_Get_Absolute_Time` with what its caller has in `time`, and
`kt_SetSysTime`, which only uses the clock chip. -/
inductive TimeOp
  | sync (time : SystemTime)
  | getAbsoluteTime (time : SystemTime)
  | setSysTime

inductive TimeReply
  | done
  | time (absTime : UInt64) (time : SystemTime)
  deriving DecidableEq

namespace TimeSync

def setYear (b : UInt8) (s : TimeSync) : TimeSync :=
  { s with sysTime := { s.sysTime with ucYear := b } }

def setMonth (b : UInt8) (s : TimeSync) : TimeSync :=
  { s with sysTime := { s.sysTime with ucMonth := b } }

def setDay (b : UInt8) (s : TimeSync) : TimeSync :=
  { s with sysTime := { s.sysTime with ucDay := b } }

def setHour (b : UInt8) (s : TimeSync) : TimeSync :=
  { s with sysTime := { s.sysTime with ucHour := b } }

def setMin (b : UInt8) (s : TimeSync) : TimeSync :=
  { s with sysTime := { s.sysTime with ucMin := b } }

def setScd (b : UInt8) (s : TimeSync) : TimeSync :=
  { s with sysTime := { s.sysTime with ucScd := b } }

def setBaseSec (sec : UInt32) (s : TimeSync) : TimeSync := { s with rtcBaseSec := sec }

end TimeSync

namespace TimeOp

open TimeSync Body

/-- Byte for byte. -/
def copyTime (next : SystemTime → Body TimeSync TimeReply) : Body TimeSync TimeReply :=
  fetch (fun s => s.sysTime.ucYear) fun year =>
  fetch (fun s => s.sysTime.ucMonth) fun month =>
  fetch (fun s => s.sysTime.ucDay) fun day =>
  fetch (fun s => s.sysTime.ucHour) fun hour =>
  fetch (fun s => s.sysTime.ucMin) fun min =>
  fetch (fun s => s.sysTime.ucScd) fun scd =>
  next ⟨year, month, day, hour, min, scd⟩

def syncBody (time : SystemTime) : Body TimeSync TimeReply :=
  store (setYear time.ucYear) <|
  store (setMonth time.ucMonth) <|
  store (setDay time.ucDay) <|
  store (setHour (time.ucHour &&& 0x7F)) <|
  store (setMin time.ucMin) <|
  store (setScd time.ucScd) <|
  copyTime fun sysTime =>
  store (setBaseSec sysTime.timestamp) <|
  give .done

def getAbsoluteTimeBody : Body TimeSync TimeReply :=
  copyTime fun time =>
  fetch rtcBaseSec fun sec =>
  give (.time (sec.toUInt64 * 1000) time)

def body : TimeOp → Body TimeSync TimeReply
  | sync time => syncBody time
  | getAbsoluteTime _ => getAbsoluteTimeBody
  | setSysTime => give .done

end TimeOp

def timeObject : Object TimeSync TimeOp TimeReply where
  early _ := none
  refused
    | .getAbsoluteTime time => .time 0 time
    | _ => .done
  body := TimeOp.body

/-- The same in terms of what the clock chip showed last. -/
def timeSpec (shown : SystemTime) : TimeOp → Bool → SystemTime × TimeReply
  | .sync time, true => (time, .done)
  | .getAbsoluteTime time, lock =>
    let (absTime, time) := timeSyncGetAbsoluteTime lock (.ofRtc shown) time
    (shown, .time absTime time)
  | _, _ => (shown, .done)

theorem timeObject_implements :
    Implements timeObject timeSpec fun s shown => s = TimeSync.ofRtc shown where
  without shown c := by cases c <;> rfl
  body s shown c _ h := by
    subst h
    cases c <;> exact ⟨rfl, rfl⟩

/-- What the clock chip showed in the passes of `time_sync_task` that have begun. -/
def syncTimes {τ : Type} (seen : List (Seen τ TimeOp TimeReply)) : List SystemTime :=
  seen.filterMap fun
    | .call _ (.sync time) => some time
    | _ => none

/-- The time is that of one reading, or there is none. -/
def TimeReply.OfReading (readings : List SystemTime) (reply : TimeReply) : Prop :=
  ∀ absTime sysTime, reply = .time absTime sysTime → absTime = 0 ∨
    ∃ reading ∈ readings, absTime = (TimeSync.ofRtc reading).rtcBaseSec.toUInt64 * 1000 ∧
      sysTime = (TimeSync.ofRtc reading).sysTime

section Readings

variable {τ : Type}

theorem TimeReply.OfReading.mono {readings readings' : List SystemTime} {reply : TimeReply}
    (h : reply.OfReading readings) (hsub : readings ⊆ readings') : reply.OfReading readings' := by
  intro absTime sysTime heq
  obtain hnone | ⟨reading, hmem, hreading⟩ := h absTime sysTime heq
  · exact .inl hnone
  · exact .inr ⟨reading, hsub hmem, hreading⟩

theorem readings_subset (boot : SystemTime) (seen new : List (Seen τ TimeOp TimeReply)) :
    boot :: syncTimes seen ⊆ boot :: syncTimes (seen ++ new) := by
  rw [syncTimes, syncTimes, List.filterMap_append]
  exact List.cons_subset_cons boot (List.subset_append_left _ _)

theorem timePromise (boot : SystemTime) :
    Promise timeSpec (fun (seen : List (Seen τ _ _)) shown => shown ∈ boot :: syncTimes seen)
      (fun seen c => ∀ time, c = .sync time → time ∈ boot :: syncTimes seen)
      (fun seen reply => reply.OfReading (boot :: syncTimes seen)) where
  good_mono seen e _ h := readings_subset boot seen [e] h
  called_mono seen e _ h time htime := readings_subset boot seen [e] (h time htime)
  returns_mono seen e _ h := h.mono (readings_subset boot seen [e])
  call seen t c time htime := by
    subst htime
    simp [syncTimes]
  effect seen shown c lock hshown hcall := by
    cases c with
    | sync time =>
      cases lock with
      | false => exact ⟨hshown, nofun⟩
      | true => exact ⟨hcall time rfl, nofun⟩
    | setSysTime => exact ⟨hshown, nofun⟩
    | getAbsoluteTime time =>
      refine ⟨hshown, fun absTime sysTime heq => ?_⟩
      obtain ⟨habs, hsys⟩ := TimeReply.time.inj heq
      cases lock with
      | false => exact .inl habs.symm
      | true => exact .inr ⟨shown, hshown, habs.symm, hsys.symm⟩

end Readings

/-- In whatever order the tasks get at `g_TimeSync`, each call takes effect at once, and a time
that is returned is one reading of the clock chip, the seconds with their date and hour. -/
theorem timeSyncTasks_linearized {τ : Type} [DecidableEq τ] (boot : SystemTime)
    (ms : List (Move τ TimeOp)) :
    let s := (timeObject.tasks (.ofRtc boot)).run ms
    (∃ ps : List (Point τ TimeOp), Linearized timeObject (fun s shown => s = TimeSync.ofRtc shown)
        (.ofRtc boot) s ((atOnce timeSpec boot).run ps)) ∧
      ∀ before t reply, before ++ [.ret t reply] <+: s.seen →
        reply.OfReading (boot :: syncTimes before) := by
  intro s
  obtain ⟨ps, hps⟩ := timeObject_implements.simulates rfl ms
  refine ⟨⟨ps, hps.linearized _⟩, fun before t reply hpre => ?_⟩
  have hkept := (timePromise boot).kept List.mem_cons_self ps
  exact hkept.returned before t reply (hps.seen ▸ hpre)

end Lsc100
