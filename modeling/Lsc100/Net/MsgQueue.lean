import Mathlib.Data.List.Induction
import Lsc100.Basis.Machine
import Lsc100.Net.CirQueue

/-! `enQueue` and `deQueue` in any order, against a queue of at most 61 messages. That a
message is followed by zeros is a matter of the free slots, which hold nothing but zeros. -/

namespace Lsc100

open Overlay

/-- The queue as it is before `initCirQueue`, a global variable. -/
def zeroCirQue : ThreadSafeCirQue := ⟨fun _ => .zero, 0, 0⟩

/-- The size that `initCirQueue` passes to `memset` is that of an `int`. -/
def initCirQueueSize : Nat := 4

def initCirQueueFrom (que : ThreadSafeCirQue) : ThreadSafeCirQue where
  ucBuf := Function.update que.ucBuf 0
    ⟨overlay (fun _ x => x) (que.ucBuf 0).item 0 initCirQueueSize fun _ => 0, (que.ucBuf 0).origin⟩
  ucRear := 0
  ucFront := 0

theorem initCirQueueFrom_zero : initCirQueueFrom zeroCirQue = initCirQueue := by
  have hslot : overlay (fun _ x => x) (zeroCirQue.ucBuf 0).item 0 initCirQueueSize (fun _ => 0) =
      fun _ => 0 := by
    funext k
    rw [overlay]
    exact ite_self _
  have hbuf : Function.update zeroCirQue.ucBuf 0 ⟨fun _ => 0, (zeroCirQue.ucBuf 0).origin⟩ =
      zeroCirQue.ucBuf := Function.update_eq_self _ _
  rw [initCirQueueFrom, hslot, hbuf]
  rfl

/-- `len` bytes of `buf`, and zeros behind them. -/
def padded (buf : Nat → UInt8) (len : Nat) (k : Nat) : UInt8 := if k < len then buf k else 0

/-- A call with what its caller passes and whether it obtains the mutex. -/
inductive QueueCall
  | enQueue (lock : Bool) (buf : Nat → UInt8) (origin : Origin) (len : Nat)
      (len_le : len ≤ maxQueueDataSize)
  | deQueue (lock : Bool)

inductive QueueReply
  | enQueue (ok : Bool)
  | deQueue (msg : Option QueueItem)

/-- The state after some calls with the replies, the last one first, and the messages that
have been accepted and delivered, in order. -/
structure QueueRun (State : Type) where
  state : State
  replies : List QueueReply
  accepted : List QueueItem
  delivered : List QueueItem

def ThreadSafeCirQue.call (q : ThreadSafeCirQue) : QueueCall → ThreadSafeCirQue × QueueReply
  | .enQueue lock buf origin len _ =>
    let (q, ok) := Lsc100.enQueue lock q buf origin len
    (q, .enQueue ok)
  | .deQueue lock =>
    let (q, msg) := Lsc100.deQueue lock q
    (q, .deQueue msg)

/-- What a queue of at most 61 padded messages answers to the call. -/
def msgQueueCall (l : List QueueItem) : QueueCall → List QueueItem × QueueReply
  | .enQueue true buf origin len _ =>
    if l.length < 61 then (l ++ [⟨padded buf len, origin⟩], .enQueue true)
    else (l, .enQueue false)
  | .deQueue true =>
    match l with
    | [] => ([], .deQueue none)
    | msg :: l => (l, .deQueue (some msg))
  | .enQueue false _ _ _ _ => (l, .enQueue false)
  | .deQueue false => (l, .deQueue none)

def QueueCall.accepted : QueueCall → QueueReply → List QueueItem
  | .enQueue _ buf origin len _, .enQueue true => [⟨padded buf len, origin⟩]
  | _, _ => []

def QueueReply.delivered : QueueReply → List QueueItem
  | .deQueue (some msg) => [msg]
  | _ => []

def queueMachine {State : Type} (start : State) (call : State → QueueCall → State × QueueReply) :
    Machine (QueueRun State) QueueCall where
  start := ⟨start, [], [], []⟩
  step r c :=
    let (state, reply) := call r.state c
    ⟨state, reply :: r.replies, r.accepted ++ c.accepted reply, r.delivered ++ reply.delivered⟩

/-- The ring stands for the queue `l`, and its free slots are zero. -/
structure ThreadSafeCirQue.Keeps (q : ThreadSafeCirQue) (l : List QueueItem) : Prop where
  holds : q.Holds l
  free : ∀ k, l.length ≤ k → k < 62 → (q.ucBuf ((q.ucFront + k) % 62)).item = fun _ => 0

namespace ThreadSafeCirQue.Keeps

variable {q : ThreadSafeCirQue} {l rest : List QueueItem} {msg : QueueItem}

theorem init : initCirQueue.Keeps [] := ⟨.init, fun _ _ _ => rfl⟩

theorem enQueue_fails_iff (h : q.Keeps l) (lock : Bool) (buf : Nat → UInt8) (origin : Origin)
    (len : Nat) :
    (Lsc100.enQueue lock q buf origin len).2 = false ↔ l.length = 61 ∨ lock = false := by
  rw [← h.holds.isQueueFull_iff, Lsc100.enQueue]
  cases lock with
  | false => simp
  | true => cases isQueueFull q <;> simp

theorem deQueue_fails_iff (h : q.Keeps l) (lock : Bool) :
    (Lsc100.deQueue lock q).2 = none ↔ l = [] ∨ lock = false := by
  rw [← h.holds.isQueueEmpty_iff, Lsc100.deQueue]
  cases lock with
  | false => simp
  | true => cases isQueueEmpty q <;> simp

/-- What is written over zeros is padded. -/
theorem enQueue_eq (h : q.Keeps l) (hroom : l.length < 61) (buf : Nat → UInt8) (origin : Origin)
    (len : Nat) :
    Lsc100.enQueue true q buf origin len =
      ({ q with
         ucBuf := Function.update q.ucBuf q.ucRear ⟨padded buf len, origin⟩
         ucRear := (q.ucRear + 1) % maxQueueSize }, true) := by
  have hfull : ¬ isQueueFull q = true := by
    rw [h.holds.isQueueFull_iff]
    exact Nat.ne_of_lt hroom
  have hslot : (q.ucBuf q.ucRear).item = fun _ => 0 := by
    rw [h.holds.rear]
    exact h.free l.length (Nat.le_refl _) (by omega)
  have hitem : overlay (fun _ x => x) (q.ucBuf q.ucRear).item 0 len buf = padded buf len := by
    funext k
    rw [overlay, padded, hslot]
    simp
  rw [Lsc100.enQueue, if_pos rfl, if_neg hfull, hitem]

theorem enQueue (h : q.Keeps l) (hroom : l.length < 61) (buf : Nat → UInt8) (origin : Origin)
    (len : Nat) :
    (Lsc100.enQueue true q buf origin len).1.Keeps (l ++ [⟨padded buf len, origin⟩]) := by
  have hfront := h.holds.front_lt
  have hlen : (l ++ [(⟨padded buf len, origin⟩ : QueueItem)]).length = l.length + 1 := by simp
  rw [h.enQueue_eq hroom]
  refine ⟨⟨hfront, by omega, ?_, ?_⟩, fun k hk hk' => ?_⟩
  · rw [hlen, maxQueueSize, h.holds.rear, Nat.mod_add_mod, Nat.add_assoc]
  · rw [hlen]
    simp only [h.holds.rear]
    rw [Ring.contents_push _ (by omega), h.holds.contents]
  · rw [hlen] at hk
    have hne : (q.ucFront + k) % 62 ≠ q.ucRear := by
      rw [h.holds.rear]
      omega
    simp only [Function.update_of_ne hne]
    exact h.free k (by omega) hk'

theorem deQueue (h : q.Keeps (msg :: rest)) :
    (Lsc100.deQueue true q).1.Keeps rest ∧ (Lsc100.deQueue true q).2 = some msg := by
  obtain ⟨hholds, hmsg⟩ := h.holds.deQueue_cons
  refine ⟨⟨hholds, fun k hk hk' => ?_⟩, hmsg⟩
  have hfront := h.holds.front_lt
  have hnot : ¬ isQueueEmpty q = true := fun hempty => by
    cases h.holds.isQueueEmpty_iff.mp hempty
  rw [Lsc100.deQueue, if_pos rfl, if_neg hnot]
  simp only [maxQueueSize, Nat.mod_add_mod, Nat.add_assoc, Nat.add_comm 1 k]
  by_cases hlast : k + 1 < 62
  · rw [Function.update_of_ne (by omega)]
    exact h.free (k + 1) (by rw [List.length_cons]; omega) hlast
  · have hwrap : (q.ucFront + (k + 1)) % 62 = q.ucFront := by omega
    rw [hwrap, Function.update_self]
    rfl

/-- Every call does to the ring and answers what it does to the queue. -/
theorem call (h : q.Keeps l) (c : QueueCall) :
    (q.call c).1.Keeps (msgQueueCall l c).1 ∧ (q.call c).2 = (msgQueueCall l c).2 := by
  cases c with
  | enQueue lock buf origin len len_le =>
    cases lock with
    | false => exact ⟨h, rfl⟩
    | true =>
      by_cases hroom : l.length < 61
      · simp only [ThreadSafeCirQue.call, msgQueueCall, if_pos hroom]
        refine ⟨h.enQueue hroom buf origin len, ?_⟩
        rw [h.enQueue_eq hroom]
      · have hlen := h.holds.length_le
        have hfull : isQueueFull q = true := h.holds.isQueueFull_iff.mpr (by omega)
        simp only [ThreadSafeCirQue.call, msgQueueCall, if_neg hroom, Lsc100.enQueue, hfull, if_true]
        exact ⟨h, trivial⟩
  | deQueue lock =>
    cases lock with
    | false => exact ⟨h, rfl⟩
    | true =>
      cases l with
      | nil =>
        simp only [ThreadSafeCirQue.call, msgQueueCall, h.holds.deQueue_nil]
        exact ⟨h, trivial⟩
      | cons msg rest =>
        obtain ⟨hkeeps, hmsg⟩ := h.deQueue
        simp only [ThreadSafeCirQue.call, msgQueueCall, hmsg]
        exact ⟨hkeeps, trivial⟩

end ThreadSafeCirQue.Keeps

/-- What has been accepted is what has been delivered and what is stored. -/
theorem msgQueueCall_conserves (l : List QueueItem) (c : QueueCall) :
    l ++ c.accepted (msgQueueCall l c).2 =
      (msgQueueCall l c).2.delivered ++ (msgQueueCall l c).1 := by
  cases c with
  | enQueue lock buf origin len len_le =>
    cases lock with
    | false => simp [msgQueueCall, QueueCall.accepted, QueueReply.delivered]
    | true =>
      by_cases hroom : l.length < 61
      · simp [msgQueueCall, QueueCall.accepted, QueueReply.delivered, hroom]
      · simp [msgQueueCall, QueueCall.accepted, QueueReply.delivered, hroom]
  | deQueue lock =>
    cases lock with
    | false => simp [msgQueueCall, QueueCall.accepted, QueueReply.delivered]
    | true =>
      cases l with
      | nil => simp [msgQueueCall, QueueCall.accepted, QueueReply.delivered]
      | cons msg rest => simp [msgQueueCall, QueueCall.accepted, QueueReply.delivered]

/-- The two machines side by side. -/
structure QueueRun.Agrees (r : QueueRun ThreadSafeCirQue) (s : QueueRun (List QueueItem)) :
    Prop where
  keeps : r.state.Keeps s.state
  replies : r.replies = s.replies
  conserved : r.accepted = r.delivered ++ s.state

theorem QueueRun.Agrees.step {r : QueueRun ThreadSafeCirQue} {s : QueueRun (List QueueItem)}
    (h : r.Agrees s) (q : ThreadSafeCirQue) (l : List QueueItem) (c : QueueCall) :
    ((queueMachine q ThreadSafeCirQue.call).step r c).Agrees
      ((queueMachine l msgQueueCall).step s c) := by
  obtain ⟨hcall, hreply⟩ := h.keeps.call c
  have hconserved : r.accepted ++ c.accepted (r.state.call c).2 =
      r.delivered ++ (r.state.call c).2.delivered ++ (msgQueueCall s.state c).1 := by
    rw [hreply, h.conserved, List.append_assoc, msgQueueCall_conserves, List.append_assoc]
  exact ⟨hcall, congrArg₂ List.cons hreply h.replies, hconserved⟩

theorem queueRun_agrees (calls : List QueueCall) :
    ((queueMachine (initCirQueueFrom zeroCirQue) ThreadSafeCirQue.call).run calls).Agrees
      ((queueMachine [] msgQueueCall).run calls) := by
  induction calls using List.reverseRecOn with
  | nil =>
    have hinit : (initCirQueueFrom zeroCirQue).Keeps [] := by
      rw [initCirQueueFrom_zero]
      exact .init
    exact ⟨hinit, rfl, rfl⟩
  | append_singleton calls c ih =>
    rw [Machine.run_concat, Machine.run_concat]
    exact ih.step _ _ c

/-- From `initCirQueue` on, the ring answers every sequence of calls as a queue of at most 61
padded messages does: what has been accepted comes out in order and once. -/
theorem cirQueue_fifo (calls : List QueueCall) :
    let r := (queueMachine (initCirQueueFrom zeroCirQue) ThreadSafeCirQue.call).run calls
    let s := (queueMachine [] msgQueueCall).run calls
    r.state.Holds s.state ∧ s.state.length ≤ 61 ∧ r.replies = s.replies ∧
      r.accepted = r.delivered ++ s.state ∧
      (∀ lock buf origin len, (enQueue lock r.state buf origin len).2 = false ↔
        s.state.length = 61 ∨ lock = false) ∧
      (∀ lock buf origin len, (enQueue lock r.state buf origin len).2 = false →
        (enQueue lock r.state buf origin len).1 = r.state) ∧
      ∀ lock, (deQueue lock r.state).2 = none ↔ s.state = [] ∨ lock = false := by
  intro r s
  obtain ⟨hkeeps, hreplies, hconserved⟩ := queueRun_agrees calls
  refine ⟨hkeeps.holds, hkeeps.holds.length_le, hreplies, hconserved, hkeeps.enQueue_fails_iff, ?_,
    hkeeps.deQueue_fails_iff⟩
  intro lock buf origin len hfailed
  exact ThreadSafeCirQue.Holds.enQueue_of_not (by rw [hfailed]; exact Bool.false_ne_true)

end Lsc100
