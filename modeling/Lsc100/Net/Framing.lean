import Mathlib.Data.List.Forall2
import Mathlib.Data.List.Induction
import Mathlib.Data.List.ReduceOption
import Lsc100.Net.Server

/-! Frames and results of `recv`. The server keeps nothing from one result to the
next: a result makes at most one call, for the frame it begins with, and what lies
behind that frame is not looked at. -/

namespace Lsc100

open Bytes

/-- A request as the protocol has it. -/
structure WellFormed (fram : List UInt8) : Prop where
  size : 7 ≤ fram.length ∧ fram.length ≤ maxQueueDataSize
  hdr : hConvert (memoryOf fram) = msgDataFramHdr
  len : hConvert (fun k => memoryOf fram (2 + k)) = fram.length
  known : ∃ handler, (memoryOf fram 4, handler) ∈ gMsgPraseInterTable
  crc : hConvert (fun k => memoryOf fram (fram.length - 2 + k)) =
    (checkSum8 (memoryOf fram) (fram.length - 2)).toNat

/-- The test `msg_proc_task` makes of a message; `msg` is at 0. -/
def MsgChecked (msg : Int → UInt8) : Prop :=
  let len := hConvert fun k => msg (2 + k)
  msgDataFramHdr = hConvert (fun k => msg k) ∧
    (checkSum8 (fun k => msg k) ((len + 2 ^ 16 - msgDataFramCrcSize) % 2 ^ 16)).toNat =
      hConvert fun k => msg ((len : Int) - msgDataFramCrcSize + k)

instance (msg : Int → UInt8) : Decidable (MsgChecked msg) := inferInstanceAs (Decidable (_ ∧ _))

theorem msgProc_eq (item : Nat → UInt8) (around : Int → UInt8) :
    msgProc item around =
      if MsgChecked (msgMemory item around) then
        (gMsgPraseInterTable.find? fun entry => entry.1 = msgMemory item around 4).map (·.2)
      else none := rfl

/-- Header, length and checksum of a frame of any kind. -/
structure Sealed (fram : List UInt8) : Prop where
  size : 7 ≤ fram.length ∧ fram.length < 2 ^ 16
  hdr : hConvert (memoryOf fram) = msgDataFramHdr
  len : hConvert (fun k => memoryOf fram (2 + k)) = fram.length
  crc : hConvert (fun k => memoryOf fram (fram.length - 2 + k)) =
    (checkSum8 (memoryOf fram) (fram.length - 2)).toNat

/-- A message that begins with a sealed frame passes the test. -/
theorem Sealed.checked {fram : List UInt8} (h : Sealed fram) {msg : Int → UInt8}
    (hmsg : ∀ i < fram.length, msg (i : Nat) = memoryOf fram i) : MsgChecked msg := by
  obtain ⟨hmin, hmax⟩ := h.size
  have hhdr : hConvert (fun k => msg k) = msgDataFramHdr := by
    rw [← h.hdr]
    exact hConvert_congr fun k hk => hmsg k (by omega)
  have hlen : hConvert (fun k => msg (2 + k)) = fram.length := by
    rw [← h.len]
    refine hConvert_congr fun k hk => ?_
    rw [← hmsg (2 + k) (by omega), Nat.cast_add, Nat.cast_ofNat]
  have hcrc : hConvert (fun k => msg ((fram.length : Int) - (msgDataFramCrcSize : Nat) + k)) =
      (checkSum8 (memoryOf fram) (fram.length - 2)).toNat := by
    rw [← h.crc]
    refine hConvert_congr fun k hk => ?_
    rw [← hmsg (fram.length - 2 + k) (by omega), Nat.cast_add, Nat.cast_sub (by omega)]
    rfl
  have hsum : (fram.length + 2 ^ 16 - msgDataFramCrcSize) % 2 ^ 16 = fram.length - 2 := by
    rw [msgDataFramCrcSize]
    omega
  have hcheck : checkSum8 (fun k => msg k) (fram.length - 2) =
      checkSum8 (memoryOf fram) (fram.length - 2) :=
    checkSum8_congr fun i hi => hmsg i (by omega)
  simp only [MsgChecked, hlen, hsum, hcheck, hcrc, hhdr, and_self]

theorem WellFormed.sealed {fram : List UInt8} (h : WellFormed fram) : Sealed fram := by
  have hsize : maxQueueDataSize = 100 := rfl
  exact ⟨⟨h.size.1, by have := h.size.2; omega⟩, h.hdr, h.len, h.crc⟩

/-- The handler the table gives for the sign of a frame. -/
def handlerOf (fram : List UInt8) : Option Handler :=
  (gMsgPraseInterTable.find? fun entry => entry.1 = memoryOf fram 4).map (·.2)

/-- The item a result of `recv` becomes. -/
def itemOf (bytes : List UInt8) : Nat → UInt8 := memoryOf (bytes.take maxQueueDataSize)

theorem WellFormed.handler {fram : List UInt8} (h : WellFormed fram) :
    ∃ handler, handlerOf fram = some handler := by
  obtain ⟨handler, hmem⟩ := h.known
  cases hfind : gMsgPraseInterTable.find? fun entry => entry.1 = memoryOf fram 4 with
  | none =>
    have hne := List.find?_eq_none.mp hfind _ hmem
    simp at hne
  | some entry => exact ⟨entry.2, by rw [handlerOf, hfind]; rfl⟩

theorem itemOf_eq {fram : List UInt8} (h : fram.length ≤ maxQueueDataSize) (rest : List UInt8)
    {i : Nat} (hi : i < fram.length) : itemOf (fram ++ rest) i = memoryOf fram i := by
  have hlt : i < maxQueueDataSize := Nat.lt_of_lt_of_le hi h
  rw [itemOf, memoryOf, memoryOf, List.getD_eq_getElem?_getD, List.getD_eq_getElem?_getD,
    List.getElem?_take_of_lt hlt, List.getElem?_append_left hi]

/-- An item that begins with a frame has the frame dispatched, whatever the memory
around the array holds. -/
theorem WellFormed.msgProc_item {fram : List UInt8} (h : WellFormed fram) {item : Nat → UInt8}
    (hitem : ∀ i < fram.length, item i = memoryOf fram i) (around : Int → UInt8) :
    msgProc item around = handlerOf fram := by
  obtain ⟨hmin, hmax⟩ := h.size
  have hsize : maxQueueDataSize = 100 := rfl
  have hmsg (i : Nat) (hi : i < fram.length) :
      msgMemory item around (i : Int) = memoryOf fram i := by
    have hlt : (i : Int) < maxQueueDataSize := by omega
    rw [msgMemory, if_pos ⟨Int.natCast_nonneg i, hlt⟩, Int.toNat_natCast, hitem i hi]
  have hsign : msgMemory item around 4 = memoryOf fram 4 := hmsg 4 (by omega)
  rw [msgProc_eq, if_pos (h.sealed.checked hmsg), hsign, handlerOf]

theorem WellFormed.msgProc {fram : List UInt8} (h : WellFormed fram) (rest : List UInt8)
    (around : Int → UInt8) : msgProc (itemOf (fram ++ rest)) around = handlerOf fram :=
  h.msgProc_item (fun _ hi => itemOf_eq h.size.2 rest hi) around

/-- The call is for the frame and is given the frame. -/
structure Serves (d : Dispatch) (fram : List UInt8) : Prop where
  handler : handlerOf fram = some d.handler
  item : ∀ i < fram.length, d.item i = memoryOf fram i

/-- What may come of one result: at most one call, and the call for the frame it
begins with if it does begin with one. -/
def Answers (answer : Option Dispatch) (bytes : List UInt8) : Prop :=
  ∀ fram rest, bytes = fram ++ rest → WellFormed fram → ∃ d, answer = some d ∧ Serves d fram

def received (es : List ServerEvent) : List (List UInt8) :=
  es.filterMap fun
    | .recv bytes => some bytes
    | .proc _ => none

@[simp] theorem received_recv (es : List ServerEvent) (bytes : List UInt8) :
    received (es ++ [.recv bytes]) = received es ++ [bytes] := List.filterMap_append ..

@[simp] theorem received_proc (es : List ServerEvent) (around : Int → UInt8) :
    received (es ++ [.proc around]) = received es :=
  (List.filterMap_append ..).trans (List.append_nil _)

def HasRoom (s : TcpServer) : ServerEvent → Prop
  | .recv _ => s.queue.length < handleQueueLength
  | .proc _ => True

instance (s : TcpServer) (e : ServerEvent) : Decidable (HasRoom s e) :=
  match e with
  | .recv _ => inferInstanceAs (Decidable (_ < _))
  | .proc _ => isTrue trivial

/-- The first results have been answered, the others are queued. -/
structure Answered (s : TcpServer) (done waiting : List (List UInt8)) : Prop where
  connected : s.connected = true
  dispatched : ∃ answers, List.Forall₂ Answers answers done ∧ s.dispatched = answers.reduceOption
  queue : s.queue = waiting.map itemOf

theorem socketRecvRet_of_lt {n : Nat} (h : n < 128) : socketRecvRet n = n := by
  have hlow : -((256 : Nat) : Int) ≤ (n : Int) * 2 := by omega
  have hhigh : (n : Int) * 2 < ((256 : Nat) : Int) := by omega
  exact Int.bmod_eq_of_le_mul_two hlow hhigh

theorem answers_msgProc (bytes : List UInt8) (around : Int → UInt8) :
    Answers ((msgProc (itemOf bytes) around).map fun handler => ⟨handler, itemOf bytes⟩) bytes := by
  rintro fram rest rfl hfram
  obtain ⟨handler, hhandler⟩ := hfram.handler
  rw [hfram.msgProc, hhandler]
  exact ⟨_, rfl, hhandler, fun i hi => itemOf_eq hfram.size.2 rest hi⟩

theorem Answered.recv {s : TcpServer} {done waiting : List (List UInt8)}
    (h : Answered s done waiting) {bytes : List UInt8} (hpos : 0 < bytes.length)
    (hlen : bytes.length < tcpRecvBufLen) (hroom : s.queue.length < handleQueueLength) :
    Answered (s.recv bytes) done (waiting ++ [bytes]) := by
  have hret : ¬ socketRecvRet bytes.length ≤ 0 := by
    rw [socketRecvRet_of_lt hlen]
    omega
  rw [TcpServer.recv, if_pos h.connected, if_neg hret, if_pos hroom]
  refine ⟨h.connected, h.dispatched, ?_⟩
  rw [List.map_append, ← h.queue]
  rfl

theorem Answered.proc {s : TcpServer} {done waiting : List (List UInt8)}
    (h : Answered s done waiting) (around : Int → UInt8) :
    ∃ done' waiting', done' ++ waiting' = done ++ waiting ∧
      Answered (s.proc around) done' waiting' := by
  cases waiting with
  | nil =>
    have hqueue : s.queue = [] := h.queue
    refine ⟨done, [], rfl, ?_⟩
    rw [TcpServer.proc, hqueue]
    exact h
  | cons bytes waiting =>
    obtain ⟨answers, hanswers, hdispatched⟩ := h.dispatched
    have hqueue : s.queue = itemOf bytes :: waiting.map itemOf := h.queue
    have hanswers' := List.rel_append hanswers (.cons (answers_msgProc bytes around) .nil)
    refine ⟨done ++ [bytes], waiting, List.append_assoc .., ?_⟩
    rw [TcpServer.proc, hqueue]
    refine ⟨h.connected, ⟨_, hanswers', ?_⟩, rfl⟩
    rw [List.reduceOption_append, ← hdispatched]
    cases hproc : msgProc (itemOf bytes) around with
    | none =>
      simp only [hproc]
      exact (List.append_nil _).symm
    | some handler =>
      simp only [hproc]
      rfl

/-- In every run the results of `recv` are answered one after the other. -/
theorem tcpServer_run (results : List (List UInt8)) (es : List ServerEvent)
    (hlen : ∀ bytes ∈ results, 0 < bytes.length ∧ bytes.length < tcpRecvBufLen)
    (hes : received es = results) (hroom : tcpServer.Guarded HasRoom tcpServer.start es) :
    ∃ done waiting, done ++ waiting = results ∧ Answered (tcpServer.run es) done waiting := by
  induction es using List.reverseRecOn generalizing results with
  | nil =>
    obtain rfl := hes
    exact ⟨[], [], rfl, rfl, ⟨[], .nil, rfl⟩, rfl⟩
  | append_singleton es e ih =>
    obtain ⟨hbefore, hlast⟩ := (tcpServer.guarded_append _ es [e]).mp hroom
    rw [Machine.run_concat]
    cases e with
    | recv bytes =>
      rw [received_recv] at hes
      obtain rfl := hes
      obtain ⟨done, waiting, heq, h⟩ := ih (received es)
        (fun bytes hb => hlen bytes (List.mem_append_left _ hb)) rfl hbefore
      obtain ⟨hpos, hlt⟩ := hlen bytes (List.mem_append_right _ (List.mem_singleton_self bytes))
      exact ⟨done, waiting ++ [bytes], by rw [← List.append_assoc, heq], h.recv hpos hlt hlast.1⟩
    | proc around =>
      rw [received_proc] at hes
      obtain ⟨done, waiting, heq, h⟩ := ih results hlen hes hbefore
      obtain ⟨done', waiting', heq', h'⟩ := h.proc around
      exact ⟨done', waiting', heq'.trans heq, h'⟩

/-- Frames that arrive in results of their own are dispatched once each. -/
theorem serves_of_answers {answers : List (Option Dispatch)} {frams : List (List UInt8)}
    (h : List.Forall₂ Answers answers frams) (hframs : ∀ fram ∈ frams, WellFormed fram) :
    List.Forall₂ Serves answers.reduceOption frams := by
  induction h with
  | nil => exact .nil
  | cons hanswer _ ih =>
    obtain ⟨d, rfl, hserves⟩ := hanswer _ [] (List.append_nil _).symm
      (hframs _ (List.mem_cons_self ..))
    rw [List.reduceOption_cons_of_some]
    exact .cons hserves (ih fun fram hfram => hframs fram (List.mem_cons_of_mem _ hfram))

/-- Once the queue is drained, every result of `recv` has been answered in order:
with the call for the frame it begins with, and otherwise with at most one call.
If every result is a frame, these calls are the frames once each. -/
theorem tcpServer_dispatched (results : List (List UInt8)) (es : List ServerEvent)
    (hlen : ∀ bytes ∈ results, 0 < bytes.length ∧ bytes.length < tcpRecvBufLen)
    (hes : received es = results) (hroom : tcpServer.Guarded HasRoom tcpServer.start es)
    (hdrained : (tcpServer.run es).queue = []) :
    (∃ answers, List.Forall₂ Answers answers results ∧
      (tcpServer.run es).dispatched = answers.reduceOption) ∧
    ((∀ bytes ∈ results, WellFormed bytes) →
      List.Forall₂ Serves (tcpServer.run es).dispatched results) := by
  obtain ⟨done, waiting, rfl, h⟩ := tcpServer_run results es hlen hes hroom
  obtain rfl := List.map_eq_nil_iff.mp (h.queue.symm.trans hdrained)
  obtain ⟨answers, hanswers, hdispatched⟩ := h.dispatched
  rw [List.append_nil]
  refine ⟨⟨answers, hanswers, hdispatched⟩, fun hframs => ?_⟩
  rw [hdispatched]
  exact serves_of_answers hanswers hframs

def alarmInfoReq : List UInt8 := [0xAA, 0xAA, 0x00, 0x07, 0x20, 0x01, 0x7B]

theorem alarmInfoReq_wellFormed : WellFormed alarmInfoReq :=
  ⟨by decide, by decide, by decide, ⟨.ktAlarmInfo, by decide⟩, by decide⟩

theorem tcpServer_dispatched_two :
    List.Forall₂ Serves (tcpServer.run [.recv alarmInfoReq, .recv alarmInfoReq,
      .proc fun _ => 0, .proc fun _ => 0]).dispatched [alarmInfoReq, alarmInfoReq] :=
  (tcpServer_dispatched [alarmInfoReq, alarmInfoReq] _ (by decide) rfl (by decide) rfl).2
    (by simpa using alarmInfoReq_wellFormed)

/-- Two requests that arrive in one result: the second one is never dispatched. -/
theorem tcpServer_joined_lost :
    WellFormed alarmInfoReq ∧
      (tcpServer.run [.recv (alarmInfoReq ++ alarmInfoReq), .proc fun _ => 0]).queue = [] ∧
      ¬ List.Forall₂ Serves
        (tcpServer.run [.recv (alarmInfoReq ++ alarmInfoReq), .proc fun _ => 0]).dispatched
        [alarmInfoReq, alarmInfoReq] := by
  refine ⟨alarmInfoReq_wellFormed, rfl, fun h => ?_⟩
  exact absurd h.length_eq (by decide)

end Lsc100
