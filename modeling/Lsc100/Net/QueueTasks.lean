import Lsc100.Basis.Sections
import Lsc100.Net.MsgQueue
import Lsc100.Net.Server

/-! `enQueue` and `deQueue` called by any tasks, the accesses of one call between those of the
others. The bytes of a message are copied one at a time. -/

namespace Lsc100

open Overlay Sections

inductive QueueOp
  | enQueue (buf : Nat → UInt8) (origin : Origin) (len : Nat) (len_le : len ≤ maxQueueDataSize)
  | deQueue

def QueueOp.call (lock : Bool) : QueueOp → QueueCall
  | enQueue buf origin len len_le => .enQueue lock buf origin len len_le
  | deQueue => .deQueue lock

namespace ThreadSafeCirQue

def putByte (i k : Nat) (b : UInt8) (q : ThreadSafeCirQue) : ThreadSafeCirQue :=
  { q with
    ucBuf := Function.update q.ucBuf i
      { q.ucBuf i with item := Function.update (q.ucBuf i).item k b } }

/-- Not in the source, as `Origin` is not. -/
def tag (i : Nat) (origin : Origin) (q : ThreadSafeCirQue) : ThreadSafeCirQue :=
  { q with ucBuf := Function.update q.ucBuf i { q.ucBuf i with origin := origin } }

def putRear (i : Nat) (q : ThreadSafeCirQue) : ThreadSafeCirQue := { q with ucRear := i }

def putFront (i : Nat) (q : ThreadSafeCirQue) : ThreadSafeCirQue := { q with ucFront := i }

end ThreadSafeCirQue

namespace QueueOp

open ThreadSafeCirQue Body

def enQueueBody (buf : Nat → UInt8) (origin : Origin) (len : Nat) :
    Body ThreadSafeCirQue QueueReply :=
  fetch ucRear fun rear =>
  fetch ucFront fun front =>
  if (rear + 1) % maxQueueSize = front then give (.enQueue false)
  else
    fetch ucRear fun rear =>
    stores (fun k => putByte rear k (buf k)) len <|
    store (tag rear origin) <|
    fetch ucRear fun rear =>
    store (putRear ((rear + 1) % maxQueueSize)) <|
    give (.enQueue true)

def deQueueBody : Body ThreadSafeCirQue QueueReply :=
  fetch ucFront fun front =>
  fetch ucRear fun rear =>
  if front = rear then give (.deQueue none)
  else
    fetch ucFront fun front =>
    fetch (fun q => (q.ucBuf front).origin) fun origin =>
    loads (fun k q buf => Function.update buf k ((q.ucBuf front).item k)) 0 maxQueueDataSize
      (fun _ => 0) fun buf =>
    fetch ucFront fun front =>
    stores (fun k => putByte front k 0) maxQueueDataSize <|
    store (tag front ⟨0, none⟩) <|
    fetch ucFront fun front =>
    store (putFront ((front + 1) % maxQueueSize)) <|
    give (.deQueue (some ⟨buf, origin⟩))

def body : QueueOp → Body ThreadSafeCirQue QueueReply
  | enQueue buf origin len _ => enQueueBody buf origin len
  | deQueue => deQueueBody

end QueueOp

def queueObject : Object ThreadSafeCirQue QueueOp QueueReply where
  early _ := none
  refused
    | .enQueue .. => .enQueue false
    | .deQueue => .deQueue none
  body := QueueOp.body

def queueSpec (l : List QueueItem) (c : QueueOp) (lock : Bool) : List QueueItem × QueueReply :=
  msgQueueCall l (c.call lock)

/-- The queue with nothing behind the 100 bytes of a slot. -/
structure ThreadSafeCirQue.KeepsBytes (q : ThreadSafeCirQue) (l : List QueueItem) : Prop where
  keeps : q.Keeps l
  beyond : ∀ i k, maxQueueDataSize ≤ k → (q.ucBuf i).item k = 0

namespace ThreadSafeCirQue.KeepsBytes

variable {q : ThreadSafeCirQue} {l : List QueueItem}

theorem init : initCirQueue.KeepsBytes [] := ⟨.init, fun _ _ _ => rfl⟩

theorem foldl_putByte (q : ThreadSafeCirQue) (i : Nat) (buf : Nat → UInt8) (n : Nat) :
    (List.range n).foldl (fun q k => q.putByte i k (buf k)) q =
      { q with
        ucBuf := Function.update q.ucBuf i
          { q.ucBuf i with item := overlay (fun _ x => x) (q.ucBuf i).item 0 n buf } } := by
  induction n with
  | zero => simp
  | succ n ih =>
    rw [List.range_succ, List.foldl_append, ih, overlay_succ, Nat.zero_add]
    simp [putByte]

theorem exec_enQueue (q : ThreadSafeCirQue) (buf : Nat → UInt8) (origin : Origin) {len : Nat}
    (hlen : len ≤ maxQueueDataSize) :
    (QueueOp.enQueueBody buf origin len).exec q = q.call (.enQueue true buf origin len hlen) := by
  rw [QueueOp.enQueueBody, Body.exec_fetch, Body.exec_fetch, ThreadSafeCirQue.call, Lsc100.enQueue,
    if_pos rfl, isQueueFull]
  by_cases hfull : (q.ucRear + 1) % maxQueueSize = q.ucFront
  · rw [if_pos hfull, if_pos (decide_eq_true hfull)]
    rfl
  · rw [if_neg hfull, if_neg (by simpa using hfull), Body.exec_fetch, Body.exec_stores,
      foldl_putByte]
    simp [tag, putRear]

theorem exec_deQueue (h : q.KeepsBytes l) :
    QueueOp.deQueueBody.exec q = q.call (.deQueue true) := by
  rw [QueueOp.deQueueBody, Body.exec_fetch, Body.exec_fetch, ThreadSafeCirQue.call, Lsc100.deQueue,
    if_pos rfl, isQueueEmpty]
  by_cases hempty : q.ucFront = q.ucRear
  · rw [if_pos hempty, if_pos (decide_eq_true hempty)]
    rfl
  · have hread : overlay (fun _ b => b) (fun _ => 0) 0 maxQueueDataSize
        (q.ucBuf q.ucFront).item = (q.ucBuf q.ucFront).item := by
      funext k
      rw [overlay]
      split
      · rfl
      · exact (h.beyond _ _ (by omega)).symm
    have hwiped : overlay (fun _ b => b) (q.ucBuf q.ucFront).item 0 maxQueueDataSize
        (fun _ => 0) = fun _ => 0 := by
      funext k
      rw [overlay]
      split
      · rfl
      · exact h.beyond _ _ (by omega)
    have hbuf := foldl_update (fun _ => 0) (q.ucBuf q.ucFront).item maxQueueDataSize (a := 0)
    simp only [Nat.zero_add] at hbuf
    rw [if_neg hempty, if_neg (by simpa using hempty), Body.exec_fetch, Body.exec_fetch,
      Body.exec_loads, ← List.range_eq_range', hbuf, hread, Body.exec_fetch, Body.exec_stores,
      foldl_putByte, hwiped]
    simp [tag, putFront, QueueItem.zero]

theorem call (h : q.KeepsBytes l) (c : QueueOp) :
    (q.call (c.call true)).1.KeepsBytes (queueSpec l c true).1 ∧
      (q.call (c.call true)).2 = (queueSpec l c true).2 := by
  obtain ⟨hkeeps, hreply⟩ := h.keeps.call (c.call true)
  refine ⟨⟨hkeeps, fun i k hk => ?_⟩, hreply⟩
  cases c with
  | enQueue buf origin len len_le =>
    simp only [QueueOp.call, ThreadSafeCirQue.call, Lsc100.enQueue, if_true]
    split
    · exact h.beyond i k hk
    · by_cases hi : i = q.ucRear
      · simp only [hi, Function.update_self]
        rw [overlay_out _ _ _ (by omega)]
        exact h.beyond _ k hk
      · simp only [Function.update_of_ne hi]
        exact h.beyond i k hk
  | deQueue =>
    simp only [QueueOp.call, ThreadSafeCirQue.call, Lsc100.deQueue, if_true]
    split
    · exact h.beyond i k hk
    · by_cases hi : i = q.ucFront
      · simp only [hi, Function.update_self]
        rfl
      · simp only [Function.update_of_ne hi]
        exact h.beyond i k hk

end ThreadSafeCirQue.KeepsBytes

theorem queueObject_implements :
    Implements queueObject queueSpec ThreadSafeCirQue.KeepsBytes where
  without l c := by cases c <;> rfl
  body q l c _ h := by
    have hexec : (queueObject.body c).exec q = q.call (c.call true) := by
      cases c with
      | enQueue buf origin len len_le =>
        exact ThreadSafeCirQue.KeepsBytes.exec_enQueue q buf origin len_le
      | deQueue => exact h.exec_deQueue
    rw [hexec]
    exact h.call c

/-- Whatever any number of tasks do to the queue from `initCirQueue` on, they see a queue of at
most 61 padded messages on which every call takes effect at once. -/
theorem cirQueueTasks_linearized {τ : Type} [DecidableEq τ] (ms : List (Move τ QueueOp)) :
    let q := initCirQueueFrom zeroCirQue
    ∃ ps : List (Point τ QueueOp),
      ((atOnce queueSpec []).run ps).state.length ≤ 61 ∧
        Linearized queueObject ThreadSafeCirQue.KeepsBytes q ((queueObject.tasks q).run ms)
          ((atOnce queueSpec []).run ps) := by
  intro q
  have hinit : q.KeepsBytes [] := by
    rw [show q = initCirQueue from initCirQueueFrom_zero]
    exact .init
  obtain ⟨ps, hps⟩ := queueObject_implements.simulates hinit ms
  exact ⟨ps, hps.state.keeps.holds.length_le, hps.linearized _⟩

end Lsc100
