import Lsc100.Net.MsgParse

/-! Whom an answer goes to. The messages in the two queues outlive the connection they
came on, and `conn_handle` is then that of the next one. -/

namespace Lsc100

/-- The handler answers the message, `kt_SampleData` by way of `g_CirQue`. -/
def Handler.answers (item : Nat → UInt8) : Handler → Bool
  | .ktSetFrontVmax | .ktSetFrontVmin | .ktSetRearVmax | .ktSetRearVmin => false
  | .ktSampleData => (sampleDataReq item).1 ≤ (sampleDataReq item).2
  | .ktConfigInfo | .ktAlarmInfo | .ktAlarmData | .ktSampleInfo | .ktSampleDataIn
  | .ktSetSysTime | .ktClearData | .ktClearConfig => true

/-- With some memory around it the message is answered. -/
def QueueItem.Answered (msg : QueueItem) : Prop :=
  ∃ around handler, msgProc msg.item around = some handler ∧ handler.answers msg.item = true

/-- For whom `msg_proc_task` has something left to send or to write. -/
def MsgProcTask.asker : MsgProcTask → Option Origin
  | .sampleData strTs endTs i origin => if i ≤ (endTs - strTs).toNat then some origin else none
  | .sampleDataIn _ _ origin => some origin
  | .reply (_ :: _) origin => some origin
  | .reply [] _ | .receive => none

namespace MsgParse

/-- A connection is accepted only when nothing is left that will be answered. -/
def Settled (s : MsgParse) : MsgParseEvent → Prop
  | .accept => s.connected = false →
      (∀ msg ∈ s.line s.cirQue.messages, ¬ msg.Answered) ∧ s.msgProc.asker = none
  | _ => True

/-- Whatever will be answered while a connection is open came on that connection. -/
structure Owned (s : MsgParse) (l : List QueueItem) : Prop where
  holds : s.cirQue.Holds l
  line : s.connected = true → ∀ msg ∈ s.line l, msg.Answered → msg.origin.conn = s.conns
  asker : s.connected = true → ∀ origin ∈ s.msgProc.asker, origin.conn = s.conns
  sent : ∀ data ∈ s.sent, ∀ conn, data.conn = some conn → data.origin.conn = conn

namespace Owned

variable {s : MsgParse} {l : List QueueItem} {msg : QueueItem}

theorem start : Owned msgParse.start [] :=
  ⟨.init, fun hconn => (by cases hconn), fun hconn => (by cases hconn),
    fun _ hmem => absurd hmem List.not_mem_nil⟩

theorem moved (h : s.Owned l) {queue : List QueueItem} {cirQue : ThreadSafeCirQue}
    {msgSend : Option (QueueItem × Nat)} {l' : List QueueItem} (hholds : cirQue.Holds l')
    (hline : ∀ msg ∈ MsgParse.line { s with
      queue := queue, cirQue := cirQue, msgSend := msgSend } l', msg ∈ s.line l) :
    Owned { s with queue := queue, cirQue := cirQue, msgSend := msgSend } l' :=
  ⟨hholds, fun hconn msg hmem => h.line hconn msg (hline msg hmem), h.asker, h.sent⟩

theorem accept (h : s.Owned l) (hsettled : s.Settled .accept) : s.accept.Owned l := by
  rw [MsgParse.accept]
  split
  · exact h
  · rename_i hconn
    obtain ⟨hline, hasker⟩ := hsettled (Bool.eq_false_iff.mpr hconn)
    rw [h.holds.messages] at hline
    refine ⟨h.holds, fun _ msg hmem hanswered => ?_, fun _ origin hmem => ?_, h.sent⟩
    · exact absurd hanswered (hline msg hmem)
    · exact absurd (hasker.symm.trans hmem) (Option.some_ne_none origin).symm

theorem recv (h : s.Owned l) (bytes : List UInt8) : (s.recv bytes).Owned l := by
  rw [MsgParse.recv]
  split
  · split
    · exact ⟨h.holds, fun hconn => (by cases hconn), fun hconn => (by cases hconn), h.sent⟩
    · split
      · refine ⟨h.holds, fun hconn msg hmem hanswered => ?_, h.asker, h.sent⟩
        rcases List.mem_append.mp hmem with hmem | hmem
        · rcases List.mem_append.mp hmem with hmem | hmem
          · exact h.line hconn msg (List.mem_append_left _ hmem) hanswered
          · obtain rfl := List.mem_singleton.mp hmem
            rfl
        · exact h.line hconn msg (List.mem_append_right _ hmem) hanswered
      · exact h
  · exact h

theorem deQueue (h : s.Owned l) (lock : Bool) : ∃ l', (s.deQueue lock).Owned l' := by
  obtain ⟨l', cirQue, msgSend, hstep, hholds, hline⟩ := deQueue_line h.holds lock
  rw [hstep] at hline ⊢
  exact ⟨l', h.moved hholds fun msg hmem => hline ▸ hmem⟩

theorem xQueueSend (h : s.Owned l) : s.xQueueSend.Owned l := by
  obtain ⟨queue, msgSend, hstep, hline, _⟩ := s.xQueueSend_line l
  rw [hstep] at hline ⊢
  exact h.moved h.holds fun msg hmem => hline.subset hmem

theorem expand (h : s.Owned l) (lock : Bool) : ∃ l', (s.expand lock).Owned l' := by
  rw [MsgParse.expand]
  cases hproc : s.msgProc with
  | receive | sampleDataIn | reply => exact ⟨l, h⟩
  | sampleData strTs endTs i origin =>
    by_cases hi : i ≤ (endTs - strTs).toNat
    · simp only [if_pos hi]
      have horigin (hconn : s.connected = true) : origin.conn = s.conns := by
        refine h.asker hconn origin ?_
        rw [hproc, MsgProcTask.asker, if_pos hi]
        rfl
      have hasker : s.connected = true →
          ∀ o ∈ (MsgProcTask.sampleData strTs endTs (i + 1) origin).asker, o.conn = s.conns := by
        intro hconn o hmem
        rw [MsgProcTask.asker] at hmem
        split at hmem
        · cases hmem
          exact horigin hconn
        · cases hmem
      by_cases hok : (enQueue lock s.cirQue (memoryOf (sampleDataSecond strTs endTs i).fram)
          origin 32).2 = true
      · obtain ⟨msg, hmsg, _, hholds⟩ := h.holds.enQueue hok
        refine ⟨l ++ [msg], hholds, fun hconn other hmem hanswered => ?_, hasker, h.sent⟩
        rcases List.mem_append.mp (s.line_append l msg ▸ hmem) with hmem | hmem
        · exact h.line hconn other hmem hanswered
        · obtain rfl := List.mem_singleton.mp hmem
          exact hmsg ▸ horigin hconn
      · rw [ThreadSafeCirQue.Holds.enQueue_of_not hok]
        exact ⟨l, h.holds, h.line, hasker, h.sent⟩
    · simp only [if_neg hi]
      exact ⟨l, h.holds, h.line, fun _ _ hmem => (by cases hmem), h.sent⟩

theorem tcpServerSendData (h : s.Owned l) (response : Response) {origin : Origin}
    (horigin : s.connected = true → origin.conn = s.conns) :
    (s.tcpServerSendData response origin).Owned l := by
  refine ⟨h.holds, h.line, h.asker, fun data hmem conn hconn => ?_⟩
  rcases List.mem_cons.mp hmem with rfl | hmem
  · dsimp only at hconn ⊢
    split at hconn
    · cases hconn
      exact horigin ‹_›
    · cases hconn
  · exact h.sent data hmem conn hconn

theorem goesOn (h : s.Owned l) {p : MsgProcTask}
    (hasker : s.connected = true → ∀ origin ∈ p.asker, origin.conn = s.conns) :
    Owned { s with msgProc := p } l :=
  ⟨h.holds, h.line, hasker, h.sent⟩

theorem replied (h : s.Owned l) : s.reply.Owned l := by
  have hasker := h.asker
  cases hproc : s.msgProc with
  | receive | sampleData =>
    rw [MsgParse.reply, hproc]
    exact h
  | sampleDataIn req num origin =>
    rw [hproc] at hasker
    have horigin (hconn : s.connected = true) : origin.conn = s.conns := hasker hconn origin rfl
    rw [MsgParse.reply, hproc]
    refine (h.tcpServerSendData _ horigin).goesOn fun hconn o hmem => ?_
    split at hmem
    · cases hmem
      exact horigin hconn
    · cases hmem
  | reply frams origin =>
    rw [hproc] at hasker
    rw [MsgParse.reply, hproc]
    cases frams with
    | nil => exact h.goesOn fun _ _ hmem => (by cases hmem)
    | cons fram frams =>
      have horigin (hconn : s.connected = true) : origin.conn = s.conns := hasker hconn origin rfl
      refine (h.tcpServerSendData _ horigin).goesOn fun hconn o hmem => ?_
      cases frams with
      | nil => cases hmem
      | cons fram' frams =>
        cases hmem
        exact horigin hconn

theorem dispatch (h : s.Owned l) (frams : List (List UInt8)) {handler : Handler}
    (hmsg : s.connected = true → handler.answers msg.item = true →
      msg.origin.conn = s.conns) : (s.dispatch msg frams handler).Owned l := by
  cases handler with
  | ktSampleData =>
    rw [MsgParse.dispatch, MsgParse.ktSampleData]
    have hwindow (hconn : s.connected = true)
        (hle : (sampleDataReq msg.item).1 ≤ (sampleDataReq msg.item).2) :
        msg.origin.conn = s.conns := by
      refine hmsg hconn ?_
      rw [Handler.answers]
      exact decide_eq_true hle
    generalize sampleDataReq msg.item = window at hwindow ⊢
    obtain ⟨strTs, endTs⟩ := window
    by_cases hle : endTs < strTs
    · simp only [if_pos hle]
      exact h
    · simp only [if_neg hle]
      refine ⟨h.holds, h.line, fun hconn o hmem => ?_, h.sent⟩
      rw [MsgProcTask.asker, if_pos (Nat.zero_le _)] at hmem
      cases hmem
      exact hwindow hconn (UInt32.not_lt.mp hle)
  | ktSetFrontVmax | ktSetFrontVmin | ktSetRearVmax | ktSetRearVmin => exact h
  | ktSampleDataIn =>
    refine h.goesOn fun hconn o hmem => ?_
    cases hmem
    exact hmsg hconn rfl
  | ktConfigInfo | ktAlarmInfo | ktAlarmData | ktSampleInfo | ktSetSysTime | ktClearData
  | ktClearConfig =>
    refine h.goesOn fun hconn o hmem => ?_
    cases frams with
    | nil => cases hmem
    | cons fram frams =>
      cases hmem
      exact hmsg hconn rfl

theorem receive (h : s.Owned l) (around : Int → UInt8) (frams : List (List UInt8)) :
    (s.receive around frams).Owned l := by
  cases hproc : s.msgProc with
  | sampleData | sampleDataIn | reply =>
    rw [MsgParse.receive, hproc]
    exact h
  | receive =>
    cases hqueue : s.queue with
    | nil =>
      rw [MsgParse.receive, hproc, hqueue]
      exact h
    | cons msg queue =>
      have hline : s.line l = msg :: MsgParse.line { s with queue := queue } l := by
        rw [MsgParse.line, hqueue]
        rfl
      have hrest : Owned { s with queue := queue } l :=
        h.moved h.holds fun other hmem => hline ▸ List.mem_cons_of_mem _ hmem
      rw [s.receive_cons hproc hqueue]
      cases hmsg : Lsc100.msgProc msg.item around with
      | none => exact hrest
      | some handler =>
        refine hrest.dispatch frams fun hconn hanswers => ?_
        exact h.line hconn msg (hline ▸ List.mem_cons_self) ⟨around, handler, hmsg, hanswers⟩

theorem run {es : List MsgParseEvent} (hes : msgParse.Guarded Settled msgParse.start es) :
    ∃ l, (msgParse.run es).Owned l := by
  have hstep : ∀ (s : MsgParse) (e : MsgParseEvent), (∃ l, s.Owned l) → s.Settled e →
      ∃ l, (msgParse.step s e).Owned l := by
    rintro s e ⟨l, h⟩ hsettled
    cases e with
    | accept => exact ⟨l, h.accept hsettled⟩
    | recv bytes => exact ⟨l, h.recv bytes⟩
    | receive around frams => exact ⟨l, h.receive around frams⟩
    | expand lock => exact h.expand lock
    | reply => exact ⟨l, h.replied⟩
    | deQueue lock => exact h.deQueue lock
    | xQueueSend => exact ⟨l, h.xQueueSend⟩
  exact msgParse.invariant_run ⟨[], start⟩ hstep hes

end Owned

/-- With everything drained nothing is left to answer. -/
theorem settled_of_drained {s : MsgParse} (h : s.queue = [] ∧ s.cirQue.messages.length = 0 ∧
    s.msgSend = none ∧ s.msgProc = .receive) : s.Settled .accept := by
  obtain ⟨hqueue, hmessages, hsend, hproc⟩ := h
  refine fun _ => ⟨fun msg hmem => ?_, hproc ▸ rfl⟩
  rw [line, hqueue, hsend, List.length_eq_zero_iff.mp hmessages] at hmem
  exact absurd hmem List.not_mem_nil

end MsgParse

/-- If every connection is accepted only when nothing is left that will be answered, then
whatever goes out on a connection answers a message that came on that connection. -/
theorem msgParse_owner (es : List MsgParseEvent)
    (hes : msgParse.Guarded MsgParse.Settled msgParse.start es) (data : SendData)
    (hdata : data ∈ (msgParse.run es).sent) (conn : Nat) (hconn : data.conn = some conn) :
    data.origin.conn = conn := by
  obtain ⟨l, h⟩ := MsgParse.Owned.run hes
  exact h.sent data hdata conn hconn

/-- Two connections, one after the other, with a request each. -/
def inTurn : List MsgParseEvent :=
  [.accept, .recv alarmInfoReq, .receive (fun _ => 0) [[0]], .reply, .reply, .recv [],
   .accept, .recv alarmInfoReq, .receive (fun _ => 0) [[0]], .reply]

theorem msgParse_owner_in_turn :
    ((msgParse.run inTurn).sent.head (by decide +kernel)).origin.conn = 2 :=
  msgParse_owner inTurn
    ⟨MsgParse.settled_of_drained (by decide +kernel), trivial, trivial, trivial, trivial, trivial,
     MsgParse.settled_of_drained (by decide +kernel), trivial, trivial, trivial, trivial⟩
    _ (List.head_mem _) 2 (by decide +kernel)

/-- A client asks for a second of samples and leaves; the next client gets the packets. -/
def leftBehind : List MsgParseEvent :=
  [.accept, .recv (firstSecondsReq 0), .receive (fun _ => 0) [], .expand true, .expand true,
   .recv [], .accept, .deQueue true, .xQueueSend, .receive (fun _ => 0) [], .reply]

theorem msgParse_leftBehind :
    ¬ ∀ data ∈ (msgParse.run leftBehind).sent, ∀ conn, data.conn = some conn →
      data.origin.conn = conn := by
  have hany : ((msgParse.run leftBehind).sent.any fun data =>
      data.conn = some 2 ∧ data.origin.conn = 1) = true := by decide +kernel
  obtain ⟨data, hmem, hdata⟩ := List.any_eq_true.mp hany
  obtain ⟨hconn, horigin⟩ := of_decide_eq_true hdata
  intro h
  exact absurd (horigin.symm.trans (h data hmem 2 hconn)) (by decide)

end Lsc100
