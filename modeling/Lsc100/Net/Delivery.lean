import Lsc100.Net.MsgParse

/-! The packets of accepted requests for samples. What has been sent for a request, what
waits for it in the two queues and what is not yet written make up what was announced,
as long as no step loses a message. -/

namespace Lsc100

/-- The packets one message is answered with. -/
def SampleDataInRes.packets (req : SampleDataInRes) (n : Nat) : List Response :=
  (List.range n).map fun k =>
    .sampleData req.ulTotalPack (req.ulCurrSequ + .ofNat k) req.ulStrTs

/-- The packets of an accepted window: 20 for each of its seconds, of which 60 count. -/
def announced (window : UInt32 × UInt32) : List Response :=
  let n := min (window.2.toNat - window.1.toNat + 1) 60
  (List.range (20 * n)).map fun seq =>
    .sampleData (.ofNat (20 * n)) (.ofNat seq) (window.1 + .ofNat (seq / 20))

/-- `kt_SampleData` writes another message. -/
def MsgProcTask.writes : MsgProcTask → Bool
  | .sampleData strTs endTs i _ => i ≤ (endTs - strTs).toNat
  | _ => false

/-- What is left of the message being answered. -/
def MsgProcTask.inHand (r : Nat) : MsgProcTask → List Response
  | .sampleDataIn req num origin =>
    if origin.request = some r then req.packets (19 - num + 1) else []
  | _ => []

/-- What is left of the window being split. -/
def MsgProcTask.notYet (r : Nat) : MsgProcTask → List Response
  | .sampleData strTs endTs i origin =>
    if origin.request = some r then
      (List.range' i ((endTs - strTs).toNat + 1 - i)).flatMap fun j =>
        (sampleDataSecond strTs endTs j).packets 20
    else []
  | _ => []

/-- The packets of the messages of request `r` in a queue. -/
def waiting (r : Nat) (l : List QueueItem) : List Response :=
  (l.filter fun msg => msg.origin.request = some r).flatMap fun msg =>
    (sampleDataInRes msg.item).packets 20

def left (r : Nat) (p : MsgProcTask) (line : List QueueItem) : List Response :=
  p.inHand r ++ (waiting r line ++ p.notYet r)

namespace MsgParse

def sentFor (s : MsgParse) (r : Nat) : List Response :=
  (s.sent.reverse.filter fun data => data.origin.request = some r).map (·.response)

structure Drained (s : MsgParse) : Prop where
  queue : s.queue = []
  cirQue : isQueueEmpty s.cirQue = true
  msgSend : s.msgSend = none
  msgProc : s.msgProc = .receive

instance (s : MsgParse) : Decidable s.Drained :=
  decidable_of_iff (s.queue = [] ∧ isQueueEmpty s.cirQue = true ∧ s.msgSend = none ∧
      s.msgProc = .receive)
    ⟨fun h => ⟨h.1, h.2.1, h.2.2.1, h.2.2.2⟩, fun h => ⟨h.queue, h.cirQue, h.msgSend, h.msgProc⟩⟩

/-- No accepted window comes near the last second of 32 bits, no message is refused by
`g_CirQue`, and none is given up. -/
def Keeps (s : MsgParse) : MsgParseEvent → Prop
  | .receive around _ =>
    ∀ msg ∈ s.queue.head?, s.msgProc = .receive →
      Lsc100.msgProc msg.item around = some .ktSampleData →
      (sampleDataReq msg.item).1 ≤ (sampleDataReq msg.item).2 →
      (sampleDataReq msg.item).1.toNat + 59 < 2 ^ 32
  | .expand lock => s.msgProc.writes = true → lock = true ∧ isQueueFull s.cirQue = false
  | .xQueueSend => ∀ msg ∈ s.msgSend, 3 ≤ msg.2 → s.queue.length < handleQueueLength
  | .accept | .recv _ | .reply | .deQueue _ => True

instance (s : MsgParse) (e : MsgParseEvent) : Decidable (s.Keeps e) :=
  match e with
  | .receive around _ => inferInstanceAs (Decidable (∀ msg ∈ s.queue.head?,
      s.msgProc = .receive → Lsc100.msgProc msg.item around = some .ktSampleData →
      (sampleDataReq msg.item).1 ≤ (sampleDataReq msg.item).2 →
      (sampleDataReq msg.item).1.toNat + 59 < 2 ^ 32))
  | .expand _ => inferInstanceAs (Decidable (_ = true → _ = true ∧ _ = false))
  | .xQueueSend => inferInstanceAs (Decidable (∀ msg ∈ s.msgSend,
      3 ≤ msg.2 → s.queue.length < handleQueueLength))
  | .accept | .recv _ | .reply | .deQueue _ => isTrue trivial

/-- What is sent and what is still to be sent are what was announced. -/
structure Conserves (s : MsgParse) (l : List QueueItem) : Prop where
  holds : s.cirQue.Holds l
  fram : ∀ msg ∈ s.line l, msg.origin.request ≠ none →
    ∃ req : SampleDataInRes, ∀ k < 32, msg.item k = memoryOf req.fram k
  untagged : ∀ frams origin, s.msgProc = .reply frams origin → origin.request = none
  balance : ∀ r, s.sentFor r ++ left r s.msgProc (s.line l) =
    (s.requests[r]?.map announced).getD []

end MsgParse

/-- The window is cut as it should exactly if its start plus 59 stays in 32 bits. -/
theorem sampleDataEndTs_sub {strTs endTs : UInt32} (hle : strTs ≤ endTs) :
    (sampleDataEndTs strTs endTs - strTs).toNat = min (endTs.toNat - strTs.toNat) 59 ↔
      strTs.toNat + 59 < 2 ^ 32 := by
  have hle' : strTs.toNat ≤ endTs.toNat := hle
  have hend := endTs.toNat_lt
  have hadd : (strTs + 59).toNat = (strTs.toNat + 59) % 2 ^ 32 := UInt32.toNat_add ..
  have hlt : strTs + 59 < endTs ↔ (strTs.toNat + 59) % 2 ^ 32 < endTs.toNat := by
    rw [UInt32.lt_iff_toNat_lt, hadd]
  by_cases hcut : strTs + 59 < endTs
  · have hsub : (strTs + 59 - strTs).toNat = 59 := by
      rw [UInt32.add_comm, UInt32.add_sub_cancel]
      rfl
    rw [sampleDataEndTs, if_pos hcut, hsub]
    have := hlt.mp hcut
    omega
  · have hsub := UInt32.toNat_sub_of_le endTs strTs hle
    rw [sampleDataEndTs, if_neg hcut, hsub]
    have := mt hlt.mpr hcut
    omega

theorem sampleDataTotalPack_eq {strTs endTs : UInt32} (h : (endTs - strTs).toNat ≤ 59) :
    sampleDataTotalPack strTs endTs = .ofNat (20 * ((endTs - strTs).toNat + 1)) := by
  have hnum : (UInt32.ofNat adcItemNumPerSecond).toNat = 1000 := rfl
  have hone : (1 : UInt32).toNat = 1 := rfl
  have hfifty : (50 : UInt32).toNat = 50 := rfl
  rw [← UInt32.toNat_inj, sampleDataTotalPack, UInt32.toNat_div, UInt32.toNat_mul,
    UInt32.toNat_add, hnum, hone, hfifty, UInt32.toNat_ofNat', Nat.mod_eq_of_lt (by omega),
    Nat.mod_eq_of_lt (by omega), Nat.mod_eq_of_lt (by omega)]
  omega

theorem flatMap_groups {α : Type*} (f : Nat → α) (n : Nat) :
    ((List.range n).flatMap fun j => (List.range 20).map fun k => f (20 * j + k)) =
      (List.range (20 * n)).map f := by
  induction n with
  | zero => rfl
  | succ n ih =>
    have hrange : List.range (n + 1) = List.range n ++ [n] := List.range_succ
    rw [hrange, List.flatMap_append, ih, Nat.mul_succ, List.range_add, List.map_append,
      List.flatMap_singleton, List.map_map]
    rfl

theorem announced_eq {strTs endTs : UInt32} (hle : strTs ≤ endTs)
    (hwrap : strTs.toNat + 59 < 2 ^ 32) :
    ((List.range' 0 ((sampleDataEndTs strTs endTs - strTs).toNat + 1)).flatMap fun j =>
      (sampleDataSecond strTs (sampleDataEndTs strTs endTs) j).packets 20) =
      announced (strTs, endTs) := by
  have hsub := (sampleDataEndTs_sub hle).mpr hwrap
  have htotal := sampleDataTotalPack_eq (hsub.trans_le (min_le_right _ _))
  have hmin : min (endTs.toNat - strTs.toNat + 1) 60 = min (endTs.toNat - strTs.toNat) 59 + 1 := by
    omega
  rw [announced, hmin, ← hsub, ← flatMap_groups, ← List.range_eq_range']
  refine List.flatMap_congr fun j hj => List.map_congr_left fun k hk => ?_
  have hk := List.mem_range.mp hk
  have hsecond : (20 * j + k) / 20 = j := by omega
  rw [hsecond, sampleDataSecond, htotal, ← UInt32.ofNat_add, Nat.mul_comm j 20]

theorem SampleDataInRes.packets_succ (req : SampleDataInRes) (n : Nat) :
    req.packets (n + 1) = .sampleData req.ulTotalPack req.ulCurrSequ req.ulStrTs ::
      { req with ulCurrSequ := req.ulCurrSequ + 1 }.packets n := by
  rw [packets, List.range_succ_eq_map, List.map_cons, List.map_map]
  refine congrArg₂ _ ?_ (List.map_congr_left fun k _ => ?_)
  · have hzero : UInt32.ofNat 0 = 0 := rfl
    rw [hzero, UInt32.add_zero]
  · rw [Function.comp_apply, Nat.succ_eq_one_add, UInt32.ofNat_add, ← UInt32.add_assoc]
    rfl

theorem Origin.request_ne {origin : Origin} (h : origin.request = none) (r : Nat) :
    origin.request ≠ some r := h ▸ (Option.some_ne_none r).symm

section Waiting

variable {r : Nat} {msg : QueueItem}

theorem waiting_append (r : Nat) (l l' : List QueueItem) :
    waiting r (l ++ l') = waiting r l ++ waiting r l' := by
  rw [waiting, List.filter_append, List.flatMap_append]
  rfl

theorem waiting_cons_of_eq (h : msg.origin.request = some r) (l : List QueueItem) :
    waiting r (msg :: l) = (sampleDataInRes msg.item).packets 20 ++ waiting r l := by
  rw [waiting, List.filter_cons, if_pos (decide_eq_true h), List.flatMap_cons]
  rfl

theorem waiting_cons_of_ne (h : msg.origin.request ≠ some r) (l : List QueueItem) :
    waiting r (msg :: l) = waiting r l := by
  rw [waiting, List.filter_cons, if_neg (by simpa using h)]
  rfl

end Waiting

section Left

variable {r i num : Nat} {strTs endTs : UInt32} {origin : Origin} {req : SampleDataInRes}
  {msg : QueueItem}

/-- A message that is written waits for its turn instead of being written later. -/
theorem left_write (hi : i ≤ (endTs - strTs).toNat) (horigin : msg.origin = origin)
    (hitem : ∀ k < 32, msg.item k = memoryOf (sampleDataSecond strTs endTs i).fram k)
    (line : List QueueItem) :
    left r (.sampleData strTs endTs (i + 1) origin) (line ++ [msg]) =
      left r (.sampleData strTs endTs i origin) line := by
  rw [left, left, waiting_append, List.append_assoc]
  by_cases hrequest : origin.request = some r
  · have hcount : (endTs - strTs).toNat + 1 - i = (endTs - strTs).toNat + 1 - (i + 1) + 1 := by
      omega
    have hpackets : waiting r [msg] = (sampleDataSecond strTs endTs i).packets 20 := by
      rw [waiting_cons_of_eq (horigin ▸ hrequest), SampleDataInRes.sampleDataInRes_fram hitem]
      exact List.append_nil _
    rw [hpackets, MsgProcTask.notYet, MsgProcTask.notYet, if_pos hrequest, if_pos hrequest, hcount,
      List.range'_succ, List.flatMap_cons]
    rfl
  · rw [waiting_cons_of_ne (horigin ▸ hrequest), MsgProcTask.notYet, MsgProcTask.notYet,
      if_neg hrequest, if_neg hrequest]
    rfl

theorem left_written (hi : (endTs - strTs).toNat < i) (line : List QueueItem) :
    left r (.sampleData strTs endTs i origin) line = left r .receive line := by
  have hcount : (endTs - strTs).toNat + 1 - i = 0 := by omega
  have hnone : MsgProcTask.notYet r (.sampleData strTs endTs i origin) = [] := by
    rw [MsgProcTask.notYet, hcount]
    exact ite_self _
  rw [left, hnone]
  rfl

/-- Each round of `kt_SampleDataIn` takes the first packet that is left. -/
theorem left_sampleDataIn (line : List QueueItem) :
    (if origin.request = some r then
      [Response.sampleData req.ulTotalPack req.ulCurrSequ req.ulStrTs] else []) ++
      left r (if num + 1 < 20 then
        .sampleDataIn { req with ulCurrSequ := req.ulCurrSequ + 1 } (num + 1) origin
      else .receive) line = left r (.sampleDataIn req num origin) line := by
  have hleft : left r (.sampleDataIn req num origin) line =
      (if origin.request = some r then req.packets (19 - num + 1) else []) ++
        (waiting r line ++ []) := rfl
  rw [hleft]
  by_cases hnum : num + 1 < 20
  · have hcount : 19 - num = 19 - (num + 1) + 1 := by omega
    rw [if_pos hnum, left, MsgProcTask.inHand]
    by_cases hrequest : origin.request = some r
    · rw [if_pos hrequest, if_pos hrequest, if_pos hrequest, req.packets_succ, hcount]
      rfl
    · rw [if_neg hrequest, if_neg hrequest, if_neg hrequest]
      rfl
  · have hcount : 19 - num = 0 := by omega
    rw [if_neg hnum]
    by_cases hrequest : origin.request = some r
    · rw [if_pos hrequest, if_pos hrequest, req.packets_succ, hcount]
      rfl
    · rw [if_neg hrequest, if_neg hrequest]
      rfl

/-- The message that is taken out next is the one being answered. -/
theorem left_receive (line : List QueueItem) :
    left r (.sampleDataIn (sampleDataInRes msg.item) 0 msg.origin) line =
      left r .receive (msg :: line) := by
  rw [left, left, MsgProcTask.inHand]
  by_cases hrequest : msg.origin.request = some r
  · rw [if_pos hrequest, waiting_cons_of_eq hrequest, List.append_assoc]
    rfl
  · rw [if_neg hrequest, waiting_cons_of_ne hrequest]
    rfl

theorem left_of_ne (hrequest : msg.origin.request ≠ some r) (p : MsgProcTask)
    (line line' : List QueueItem) : left r p (line ++ msg :: line') = left r p (line ++ line') := by
  rw [left, left, waiting_append, waiting_append, waiting_cons_of_ne hrequest]

end Left

namespace MsgParse

variable {s : MsgParse} {l : List QueueItem} {msg : QueueItem} {origin : Origin} {r : Nat}

theorem sentFor_tcpServerSendData (s : MsgParse) (response : Response) (origin : Origin) (r : Nat) :
    (s.tcpServerSendData response origin).sentFor r =
      s.sentFor r ++ if origin.request = some r then [response] else [] := by
  rw [sentFor, tcpServerSendData, List.reverse_cons, List.filter_append, List.map_append,
    List.filter_singleton]
  by_cases hrequest : origin.request = some r
  · rw [if_pos hrequest, decide_eq_true hrequest]
    rfl
  · rw [if_neg hrequest, decide_eq_false hrequest]
    rfl

namespace Conserves

theorem start : Conserves msgParse.start [] :=
  ⟨.init, fun _ hmem => absurd hmem List.not_mem_nil, fun _ _ heq => (by cases heq), fun _ => rfl⟩

/-- Messages that only move along the line are conserved. -/
theorem moved {s' : MsgParse} {l' : List QueueItem} (h : s.Conserves l)
    (hholds : s'.cirQue.Holds l') (hline : s'.line l' = s.line l) (hsent : s'.sent = s.sent)
    (hproc : s'.msgProc = s.msgProc) (hrequests : s'.requests = s.requests) :
    s'.Conserves l' := by
  refine ⟨hholds, ?_, ?_, fun r => ?_⟩
  · rw [hline]
    exact h.fram
  · rw [hproc]
    exact h.untagged
  · rw [hline, hproc, hrequests, sentFor, hsent]
    exact h.balance r

theorem accept (h : s.Conserves l) : s.accept.Conserves l := by
  rw [MsgParse.accept]
  split
  · exact h
  · exact h.moved h.holds rfl rfl rfl rfl

theorem recv (h : s.Conserves l) (bytes : List UInt8) : (s.recv bytes).Conserves l := by
  rw [MsgParse.recv]
  split
  · split
    · exact h.moved h.holds rfl rfl rfl rfl
    · split
      · have hline : MsgParse.line { s with
              queue := s.queue ++ [⟨itemOf bytes, ⟨s.conns, none⟩⟩] } l =
            s.queue ++ ⟨itemOf bytes, ⟨s.conns, none⟩⟩ ::
              ((s.msgSend.map (·.1)).toList ++ l) := List.append_assoc ..
        refine ⟨h.holds, ?_, h.untagged, fun r => ?_⟩
        · rw [hline]
          intro msg hmem
          rcases List.mem_append.mp hmem with hmem | hmem
          · exact h.fram msg (List.mem_append_left _ hmem)
          · rcases List.mem_cons.mp hmem with rfl | hmem
            · exact fun hrequest => absurd rfl hrequest
            · exact h.fram msg (List.mem_append_right _ hmem)
        · rw [hline, left_of_ne (Origin.request_ne rfl r)]
          exact h.balance r
      · exact h
  · exact h

theorem deQueue (h : s.Conserves l) (lock : Bool) : ∃ l', (s.deQueue lock).Conserves l' := by
  obtain ⟨l', cirQue, msgSend, hstep, hholds, hline⟩ := deQueue_line h.holds lock
  rw [hstep] at hline ⊢
  exact ⟨l', h.moved hholds hline rfl rfl rfl⟩

theorem xQueueSend (h : s.Conserves l) (hkeeps : s.Keeps .xQueueSend) :
    s.xQueueSend.Conserves l := by
  obtain ⟨queue, msgSend, hstep, _, hline⟩ := s.xQueueSend_line l
  have hline := hline hkeeps
  rw [hstep] at hline ⊢
  exact h.moved h.holds hline rfl rfl rfl

theorem expand (h : s.Conserves l) {lock : Bool} (hkeeps : s.Keeps (.expand lock)) :
    ∃ l', (s.expand lock).Conserves l' := by
  rw [MsgParse.expand]
  cases hproc : s.msgProc with
  | receive | sampleDataIn | reply => exact ⟨l, h⟩
  | sampleData strTs endTs i origin =>
    have hbalance := h.balance
    rw [hproc] at hbalance
    by_cases hi : i ≤ (endTs - strTs).toNat
    · simp only [if_pos hi]
      have hwrites : s.msgProc.writes = true := by
        rw [hproc]
        exact decide_eq_true hi
      obtain ⟨rfl, hfull⟩ := hkeeps hwrites
      have hok : (enQueue true s.cirQue (memoryOf (sampleDataSecond strTs endTs i).fram)
          origin 32).2 = true := by
        rw [enQueue, if_pos rfl, hfull]
        rfl
      obtain ⟨msg, horigin, hitem, hholds⟩ := h.holds.enQueue hok
      have hline := s.line_append l msg
      refine ⟨l ++ [msg], hholds, ?_, fun _ _ heq => (by cases heq), fun r => ?_⟩
      · intro other hmem
        rcases List.mem_append.mp (hline ▸ hmem) with hmem | hmem
        · exact h.fram other hmem
        · obtain rfl := List.mem_singleton.mp hmem
          exact fun _ => ⟨_, hitem⟩
      · rw [← hbalance r, ← left_write hi horigin hitem, ← hline]
        rfl
    · simp only [if_neg hi]
      refine ⟨l, h.holds, h.fram, fun _ _ heq => (by cases heq), fun r => ?_⟩
      rw [← hbalance r, left_written (Nat.lt_of_not_le hi)]
      rfl

theorem replied (h : s.Conserves l) : s.reply.Conserves l := by
  have hbalance := h.balance
  cases hproc : s.msgProc with
  | receive | sampleData =>
    rw [MsgParse.reply, hproc]
    exact h
  | sampleDataIn req num origin =>
    rw [hproc] at hbalance
    have hstep : s.reply =
        { s.tcpServerSendData (.sampleData req.ulTotalPack req.ulCurrSequ req.ulStrTs) origin with
          msgProc :=
            if num + 1 < 20 then
              .sampleDataIn { req with ulCurrSequ := req.ulCurrSequ + 1 } (num + 1) origin
            else .receive } := by
      rw [MsgParse.reply, hproc]
    rw [hstep]
    refine ⟨h.holds, h.fram, fun _ _ heq => ?_, fun r => Eq.trans ?_ (hbalance r)⟩
    · dsimp only at heq
      split at heq <;> cases heq
    · have hsent := s.sentFor_tcpServerSendData
        (.sampleData req.ulTotalPack req.ulCurrSequ req.ulStrTs) origin r
      rw [← left_sampleDataIn, ← List.append_assoc, ← hsent]
      rfl
  | reply frams origin =>
    rw [hproc] at hbalance
    have hrequest := h.untagged frams origin hproc
    rw [MsgParse.reply, hproc]
    cases frams with
    | nil => exact ⟨h.holds, h.fram, fun _ _ heq => (by cases heq), hbalance⟩
    | cons fram frams =>
      refine ⟨h.holds, h.fram, fun _ _ heq => ?_, fun r => Eq.trans ?_ (hbalance r)⟩
      · cases heq
        exact hrequest
      · have hsent := s.sentFor_tcpServerSendData (.other fram) origin r
        rw [if_neg (Origin.request_ne hrequest r), List.append_nil] at hsent
        rw [← hsent]
        rfl

/-- An answer that no request waits for changes nothing. -/
theorem answering (h : s.Conserves l) (hproc : s.msgProc = .receive) {p : MsgProcTask}
    (hleft : ∀ r line, left r p line = left r .receive line)
    (huntagged : ∀ frams origin, p = .reply frams origin → origin.request = none) :
    Conserves { s with msgProc := p } l := by
  refine ⟨h.holds, h.fram, huntagged, fun r => ?_⟩
  have hr := h.balance r
  rw [hproc, ← hleft] at hr
  exact hr

theorem ktSampleData (h : s.Conserves l) (hproc : s.msgProc = .receive)
    (hwrap : (sampleDataReq msg.item).1 ≤ (sampleDataReq msg.item).2 →
      (sampleDataReq msg.item).1.toNat + 59 < 2 ^ 32) : (s.ktSampleData msg).Conserves l := by
  rw [MsgParse.ktSampleData]
  generalize sampleDataReq msg.item = window at hwrap ⊢
  obtain ⟨strTs, endTs⟩ := window
  by_cases hle : endTs < strTs
  · simp only [if_pos hle]
    exact h
  · have hle' := UInt32.not_lt.mp hle
    simp only [if_neg hle]
    refine ⟨h.holds, h.fram, fun _ _ heq => (by cases heq), fun r => ?_⟩
    have hr := h.balance r
    rw [hproc] at hr
    by_cases hlast : s.requests.length = r
    · rw [List.getElem?_eq_none (Nat.le_of_eq hlast)] at hr
      obtain ⟨hsent, hleft⟩ := List.append_eq_nil_iff.mp hr
      have hwaiting : waiting r (s.line l) = [] := (List.append_eq_nil_iff.mp
        (show waiting r (s.line l) ++ [] = [] from hleft)).1
      have hannounced : (s.requests ++ [(strTs, endTs)])[r]? = some (strTs, endTs) :=
        hlast ▸ List.getElem?_concat_length
      have hnotYet : MsgProcTask.notYet r (.sampleData strTs (sampleDataEndTs strTs endTs) 0
          ⟨msg.origin.conn, some s.requests.length⟩) = announced (strTs, endTs) := by
        have hrequest : some s.requests.length = some r := congrArg some hlast
        rw [MsgProcTask.notYet, if_pos hrequest]
        exact announced_eq hle' (hwrap hle')
      refine Eq.trans (congrArg₂ (· ++ ·) hsent ?_) (congrArg (Option.getD · [])
        (congrArg (Option.map announced) hannounced)).symm
      exact congrArg₂ (fun a b => [] ++ (a ++ b)) hwaiting hnotYet
    · have hother : (s.requests ++ [(strTs, endTs)])[r]? = s.requests[r]? := by
        rw [List.getElem?_append]
        split
        · rfl
        · rw [List.getElem?_eq_none (by simp only [List.length_singleton]; omega),
            List.getElem?_eq_none (by omega)]
      have hnotYet : MsgProcTask.notYet r (.sampleData strTs (sampleDataEndTs strTs endTs) 0
          ⟨msg.origin.conn, some s.requests.length⟩) = [] :=
        if_neg fun heq => hlast (Option.some.inj heq)
      rw [hother, left, hnotYet]
      exact hr

theorem dispatch (h : s.Conserves l) (hproc : s.msgProc = .receive)
    (hrequest : msg.origin.request = none) (frams : List (List UInt8)) {handler : Handler}
    (hwrap : handler = .ktSampleData → (sampleDataReq msg.item).1 ≤ (sampleDataReq msg.item).2 →
      (sampleDataReq msg.item).1.toNat + 59 < 2 ^ 32) :
    (s.dispatch msg frams handler).Conserves l := by
  cases handler with
  | ktSampleData =>
    rw [MsgParse.dispatch]
    exact h.ktSampleData hproc (hwrap rfl)
  | ktSampleDataIn =>
    refine h.answering hproc (fun r line => ?_) fun _ _ heq => (by cases heq)
    rw [left, MsgProcTask.inHand, if_neg (Origin.request_ne hrequest r)]
    rfl
  | ktSetFrontVmax | ktSetFrontVmin | ktSetRearVmax | ktSetRearVmin => exact h
  | ktConfigInfo | ktAlarmInfo | ktAlarmData | ktSampleInfo | ktSetSysTime | ktClearData
  | ktClearConfig =>
    refine h.answering hproc (fun _ _ => rfl) fun _ _ heq => ?_
    cases heq
    exact hrequest

/-- The next message of the queue is a frame for one second, or is for no request. -/
theorem receive (h : s.Conserves l) {around : Int → UInt8} {frams : List (List UInt8)}
    (hkeeps : s.Keeps (.receive around frams)) : (s.receive around frams).Conserves l := by
  cases hproc : s.msgProc with
  | sampleData | sampleDataIn | reply =>
    rw [MsgParse.receive, hproc]
    exact h
  | receive =>
    cases hqueue : s.queue with
    | nil =>
      rw [MsgParse.receive, hproc, hqueue]
      exact h
    | cons msg queue =>
      have hline : s.line l = msg :: MsgParse.line { s with queue := queue } l := by
        rw [line, hqueue]
        rfl
      have hmem : msg ∈ s.line l := hline ▸ List.mem_cons_self
      have hfram : ∀ other ∈ MsgParse.line { s with queue := queue } l,
          other.origin.request ≠ none →
          ∃ req : SampleDataInRes, ∀ k < 32, other.item k = memoryOf req.fram k :=
        fun other hother => h.fram other (hline ▸ List.mem_cons_of_mem _ hother)
      have hbalance := h.balance
      rw [hproc, hline] at hbalance
      rw [s.receive_cons hproc hqueue]
      cases hrequest : msg.origin.request with
      | some q =>
        obtain ⟨req, hitem⟩ := h.fram msg hmem (hrequest ▸ Option.some_ne_none q)
        rw [SampleDataInRes.msgProc_fram hitem around]
        refine ⟨h.holds, hfram, fun _ _ heq => (by cases heq), fun r => ?_⟩
        exact Eq.trans (congrArg (s.sentFor r ++ ·) (left_receive _)) (hbalance r)
      | none =>
        have hrest : Conserves { s with queue := queue } l := by
          refine ⟨h.holds, hfram, h.untagged, fun r => Eq.trans ?_ (hbalance r)⟩
          have hleft := left_of_ne (Origin.request_ne hrequest r) .receive []
            (MsgParse.line { s with queue := queue } l)
          rw [← hproc] at hleft
          exact congrArg (s.sentFor r ++ ·) (hproc ▸ hleft.symm)
        cases hmsg : Lsc100.msgProc msg.item around with
        | none => exact hrest
        | some handler =>
          refine hrest.dispatch hproc hrequest frams fun heq => ?_
          exact hkeeps msg (hqueue ▸ rfl) hproc (heq ▸ hmsg)

theorem run {es : List MsgParseEvent} (hes : msgParse.Guarded Keeps msgParse.start es) :
    ∃ l, (msgParse.run es).Conserves l := by
  have hstep : ∀ (s : MsgParse) (e : MsgParseEvent), (∃ l, s.Conserves l) → s.Keeps e →
      ∃ l, (msgParse.step s e).Conserves l := by
    rintro s e ⟨l, h⟩ hkeeps
    cases e with
    | accept => exact ⟨l, h.accept⟩
    | recv bytes => exact ⟨l, h.recv bytes⟩
    | receive around frams => exact ⟨l, h.receive hkeeps⟩
    | expand lock => exact h.expand hkeeps
    | reply => exact ⟨l, h.replied⟩
    | deQueue lock => exact h.deQueue lock
    | xQueueSend => exact ⟨l, h.xQueueSend hkeeps⟩
  exact msgParse.invariant_run ⟨[], start⟩ hstep hes

theorem sentFor_of_drained (h : s.Conserves l) (hdrained : s.Drained) (r : Nat) :
    s.sentFor r = (s.requests[r]?.map announced).getD [] := by
  have hnil : l = [] := h.holds.isQueueEmpty_iff.mp hdrained.cirQue
  have hline : s.line l = [] := by
    rw [line, hdrained.queue, hdrained.msgSend, hnil]
    rfl
  have hr := h.balance r
  rw [hline, hdrained.msgProc] at hr
  rw [← hr]
  exact (List.append_nil _).symm

end Conserves

end MsgParse

/-- If no window comes near the end of 32 bits and no message is refused or given up,
then every accepted request has been answered, once everything is drained, with each of
its packets once and in order. -/
theorem msgParse_delivered (es : List MsgParseEvent)
    (hes : msgParse.Guarded MsgParse.Keeps msgParse.start es)
    (hdrained : (msgParse.run es).Drained) (r : Nat) (window : UInt32 × UInt32)
    (hrequest : (msgParse.run es).requests[r]? = some window) :
    (msgParse.run es).sentFor r = announced window := by
  obtain ⟨l, h⟩ := MsgParse.Conserves.run hes
  rw [h.sentFor_of_drained hdrained r, hrequest]
  rfl

/-- A request for two seconds, with `msg_send_task` between the two messages. -/
def twoSeconds : List MsgParseEvent :=
  List.flatten
    [[.accept, .recv (firstSecondsReq 0x01), .receive (fun _ => 0) [], .expand true, .deQueue true,
        .expand true, .xQueueSend, .expand true, .receive (fun _ => 0) [], .deQueue true],
      List.replicate 20 .reply, [.xQueueSend, .receive (fun _ => 0) []], List.replicate 20 .reply]

theorem msgParse_delivered_two_seconds :
    (msgParse.run twoSeconds).sentFor 0 = announced (1767225600, 1767225601) :=
  msgParse_delivered twoSeconds (by decide +kernel) (by decide +kernel) 0 _ (by decide +kernel)

/-- Two requests for a minute each: the second one finds room for one message only. -/
def backToBack : List MsgParseEvent :=
  List.flatten
    [[.accept, .recv (firstSecondsReq 0x59), .recv (firstSecondsReq 0x59)],
      .receive (fun _ => 0) [] :: List.replicate 61 (.expand true),
      .receive (fun _ => 0) [] :: List.replicate 61 (.expand true),
      List.flatten (List.replicate 61 (.deQueue true :: .xQueueSend :: .receive (fun _ => 0) [] ::
        List.replicate 20 .reply))]

theorem msgParse_backToBack_lost :
    (msgParse.run backToBack).Drained ∧
      (msgParse.run backToBack).requests[1]? = some (1767225600, 1767225659) ∧
      (msgParse.run backToBack).sentFor 1 ≠ announced (1767225600, 1767225659) := by
  decide +kernel

end Lsc100
