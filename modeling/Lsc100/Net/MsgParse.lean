import Lsc100.Net.CirQueue
import Lsc100.Net.SampleRequest

/-! The three tasks around the two queues of messages. `tcp_server_task` serves one
connection after the other, `msg_proc_task` answers the messages of the handle queue,
and `msg_send_task` moves the messages of `g_CirQue` there. -/

namespace Lsc100

inductive Response
  | sampleData (ulTotalPack ulCurrSequ strTs : UInt32)
  | other (fram : List UInt8)
  deriving DecidableEq, Repr

/-- Where `msg_proc_task` stands: at `xQueueReceive`, in the loop of `kt_SampleData`, in
that of `kt_SampleDataIn`, or with the frames of another handler left to send. -/
inductive MsgProcTask
  | receive
  | sampleData (strTs endTs : UInt32) (i : Nat) (origin : Origin)
  | sampleDataIn (req : SampleDataInRes) (num : Nat) (origin : Origin)
  | reply (frams : List (List UInt8)) (origin : Origin)
  deriving DecidableEq

/-- A call of `tcp_server_send_data`, and the connection the response goes out on. -/
structure SendData where
  response : Response
  origin : Origin
  conn : Option Nat

/-- `conns` counts the connections, `requests` are the windows `kt_SampleData` accepted,
and `sent` has the last call first. -/
structure MsgParse where
  conns : Nat
  connected : Bool
  queue : List QueueItem
  cirQue : ThreadSafeCirQue
  msgProc : MsgProcTask
  msgSend : Option (QueueItem × Nat)
  requests : List (UInt32 × UInt32)
  sent : List SendData

inductive MsgParseEvent
  | accept
  | recv (bytes : List UInt8)
  | receive (around : Int → UInt8) (frams : List (List UInt8))
  | expand (lock : Bool)
  | reply
  | deQueue (lock : Bool)
  | xQueueSend

namespace MsgParse

def accept (s : MsgParse) : MsgParse :=
  if s.connected then s else { s with connected := true, conns := s.conns + 1 }

def recv (s : MsgParse) (bytes : List UInt8) : MsgParse :=
  if s.connected then
    if socketRecvRet bytes.length ≤ 0 then { s with connected := false }
    else if s.queue.length < handleQueueLength then
      { s with queue := s.queue ++ [⟨itemOf bytes, ⟨s.conns, none⟩⟩] }
    else s
  else s

def ktSampleData (s : MsgParse) (item : QueueItem) : MsgParse :=
  let (strTs, endTs) := sampleDataReq item.item
  if endTs < strTs then s
  else
    { s with
      msgProc := .sampleData strTs (sampleDataEndTs strTs endTs) 0
        ⟨item.origin.conn, some s.requests.length⟩
      requests := s.requests ++ [(strTs, endTs)] }

/-- `frams` are the frames the other handlers answer with. -/
def dispatch (s : MsgParse) (item : QueueItem) (frams : List (List UInt8)) : Handler → MsgParse
  | .ktSampleData => s.ktSampleData item
  | .ktSampleDataIn =>
    { s with msgProc := .sampleDataIn (sampleDataInRes item.item) 0 item.origin }
  | .ktSetFrontVmax | .ktSetFrontVmin | .ktSetRearVmax | .ktSetRearVmin => s
  | .ktConfigInfo | .ktAlarmInfo | .ktAlarmData | .ktSampleInfo | .ktSetSysTime
  | .ktClearData | .ktClearConfig => { s with msgProc := .reply frams item.origin }

def receive (s : MsgParse) (around : Int → UInt8) (frams : List (List UInt8)) : MsgParse :=
  match s.msgProc, s.queue with
  | .receive, item :: queue =>
    match Lsc100.msgProc item.item around with
    | some handler => { s with queue := queue }.dispatch item frams handler
    | none => { s with queue := queue }
  | _, _ => s

/-- One round of the loop of `kt_SampleData`. What `enQueue` returns is not looked at. -/
def expand (s : MsgParse) (lock : Bool) : MsgParse :=
  match s.msgProc with
  | .sampleData strTs endTs i origin =>
    if i ≤ (endTs - strTs).toNat then
      { s with
        cirQue := (enQueue lock s.cirQue (memoryOf (sampleDataSecond strTs endTs i).fram)
          origin 32).1
        msgProc := .sampleData strTs endTs (i + 1) origin }
    else { s with msgProc := .receive }
  | _ => s

def tcpServerSendData (s : MsgParse) (response : Response) (origin : Origin) : MsgParse :=
  { s with sent := ⟨response, origin, if s.connected then some s.conns else none⟩ :: s.sent }

def reply (s : MsgParse) : MsgParse :=
  match s.msgProc with
  | .sampleDataIn req num origin =>
    { s.tcpServerSendData (.sampleData req.ulTotalPack req.ulCurrSequ req.ulStrTs) origin with
      msgProc :=
        if num + 1 < 20 then
          .sampleDataIn { req with ulCurrSequ := req.ulCurrSequ + 1 } (num + 1) origin
        else .receive }
  | .reply (fram :: frams) origin =>
    { s.tcpServerSendData (.other fram) origin with msgProc := .reply frams origin }
  | .reply [] _ => { s with msgProc := .receive }
  | .receive | .sampleData .. => s

def deQueue (s : MsgParse) (lock : Bool) : MsgParse :=
  match s.msgSend with
  | none =>
    let (cirQue, msg) := Lsc100.deQueue lock s.cirQue
    { s with cirQue := cirQue, msgSend := msg.map (·, 0) }
  | some _ => s

/-- One attempt of `msg_send_task`; after the fourth one the message is given up. -/
def xQueueSend (s : MsgParse) : MsgParse :=
  match s.msgSend with
  | some (msg, retry) =>
    if s.queue.length < handleQueueLength then
      { s with queue := s.queue ++ [msg], msgSend := none }
    else if retry < 3 then { s with msgSend := some (msg, retry + 1) }
    else { s with msgSend := none }
  | none => s

end MsgParse

def msgParse : Machine MsgParse MsgParseEvent where
  start := ⟨0, false, [], initCirQueue, .receive, none, [], []⟩
  step s
    | .accept => s.accept
    | .recv bytes => s.recv bytes
    | .receive around frams => s.receive around frams
    | .expand lock => s.expand lock
    | .reply => s.reply
    | .deQueue lock => s.deQueue lock
    | .xQueueSend => s.xQueueSend

namespace MsgParse

variable {s : MsgParse} {l : List QueueItem} {msg : QueueItem}

/-- The messages on their way to `msg_proc_task`, in order; `l` are those of `g_CirQue`. -/
def line (s : MsgParse) (l : List QueueItem) : List QueueItem :=
  s.queue ++ ((s.msgSend.map (·.1)).toList ++ l)

theorem line_append (s : MsgParse) (l : List QueueItem) (msg : QueueItem) :
    s.line (l ++ [msg]) = s.line l ++ [msg] := by
  rw [line, line, List.append_assoc, List.append_assoc]

/-- `deQueue` moves a message along the line at most. -/
theorem deQueue_line (h : s.cirQue.Holds l) (lock : Bool) :
    ∃ l' cirQue msgSend, s.deQueue lock = { s with cirQue := cirQue, msgSend := msgSend } ∧
      cirQue.Holds l' ∧ (s.deQueue lock).line l' = s.line l := by
  cases hsend : s.msgSend with
  | some pair =>
    have hstep : s.deQueue lock = s := by rw [deQueue, hsend]
    exact ⟨l, s.cirQue, s.msgSend, hstep, h, by rw [hstep]⟩
  | none =>
    have hstep : s.deQueue lock = { s with
        cirQue := (Lsc100.deQueue lock s.cirQue).1
        msgSend := (Lsc100.deQueue lock s.cirQue).2.map (·, 0) } := by
      rw [deQueue, hsend]
    have hidle (hdeq : Lsc100.deQueue lock s.cirQue = (s.cirQue, none)) :
        ∃ l' cirQue msgSend, s.deQueue lock = { s with cirQue := cirQue, msgSend := msgSend } ∧
          cirQue.Holds l' ∧ (s.deQueue lock).line l' = s.line l := by
      rw [hdeq] at hstep
      refine ⟨l, _, _, hstep, h, ?_⟩
      rw [hstep, line, line, hsend]
      rfl
    cases lock with
    | false => exact hidle rfl
    | true =>
      cases l with
      | nil => exact hidle (h.deQueue_nil true)
      | cons first rest =>
        obtain ⟨hholds, hfirst⟩ := h.deQueue_cons
        refine ⟨rest, _, _, hstep, hholds, ?_⟩
        rw [hstep, line, line, hsend, hfirst]
        rfl

/-- `xQueueSend` moves a message along the line, or gives it up. -/
theorem xQueueSend_line (s : MsgParse) (l : List QueueItem) :
    ∃ queue msgSend, s.xQueueSend = { s with queue := queue, msgSend := msgSend } ∧
      (s.xQueueSend.line l).Sublist (s.line l) ∧
      ((∀ msg ∈ s.msgSend, 3 ≤ msg.2 → s.queue.length < handleQueueLength) →
        s.xQueueSend.line l = s.line l) := by
  cases hsend : s.msgSend with
  | none =>
    have hstep : s.xQueueSend = s := by rw [xQueueSend, hsend]
    rw [hstep]
    exact ⟨s.queue, s.msgSend, rfl, .refl _, fun _ => rfl⟩
  | some pair =>
    obtain ⟨msg, retry⟩ := pair
    have hline : s.line l = s.queue ++ ([msg] ++ l) := by
      rw [line, hsend]
      rfl
    rw [xQueueSend, hsend, hline]
    by_cases hroom : s.queue.length < handleQueueLength
    · simp only [if_pos hroom]
      have hmoved : (s.queue ++ [msg]) ++ ([] ++ l) = s.queue ++ ([msg] ++ l) :=
        List.append_assoc ..
      exact ⟨_, _, rfl, hmoved ▸ .refl _, fun _ => hmoved⟩
    · by_cases hretry : retry < 3
      · simp only [if_neg hroom, if_pos hretry]
        exact ⟨_, _, rfl, .refl _, fun _ => rfl⟩
      · simp only [if_neg hroom, if_neg hretry]
        refine ⟨_, _, rfl, ?_, fun hkeeps => ?_⟩
        · exact (List.sublist_append_right [msg] l).append_left s.queue
        · exact absurd (hkeeps _ rfl (Nat.le_of_not_lt hretry)) hroom

theorem receive_cons {queue : List QueueItem} (hproc : s.msgProc = .receive)
    (hqueue : s.queue = msg :: queue) {around : Int → UInt8} {frams : List (List UInt8)} :
    s.receive around frams =
      match Lsc100.msgProc msg.item around with
      | some handler => { s with queue := queue }.dispatch msg frams handler
      | none => { s with queue := queue } := by
  cases s
  cases hproc
  cases hqueue
  rfl

end MsgParse

end Lsc100
