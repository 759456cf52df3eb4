import Lsc100.Basis.Ring

/-! `ThreadSafeCirQue` of `utils.c`: 62 slots of 100 bytes, of which one stays free.
Whether the mutex is obtained is an argument. -/

namespace Lsc100

open Overlay

def maxQueueSize : Nat := 62

/-- Where a message comes from, kept for the statements only: the connection, and the
number of the request for samples it was made for. -/
structure Origin where
  conn : Nat
  request : Option Nat
  deriving DecidableEq

structure QueueItem where
  item : Nat → UInt8
  origin : Origin

def QueueItem.zero : QueueItem := ⟨fun _ => 0, ⟨0, none⟩⟩

structure ThreadSafeCirQue where
  ucBuf : Nat → QueueItem
  ucRear : Nat
  ucFront : Nat

def initCirQueue : ThreadSafeCirQue := ⟨fun _ => .zero, 0, 0⟩

def isQueueFull (q : ThreadSafeCirQue) : Bool := (q.ucRear + 1) % maxQueueSize = q.ucFront

def isQueueEmpty (q : ThreadSafeCirQue) : Bool := q.ucFront = q.ucRear

def enQueue (lock : Bool) (q : ThreadSafeCirQue) (buf : Nat → UInt8) (origin : Origin) (len : Nat) :
    ThreadSafeCirQue × Bool :=
  if lock then
    if isQueueFull q then (q, false)
    else
      ({ q with
         ucBuf := Function.update q.ucBuf q.ucRear
           ⟨overlay (fun _ x => x) (q.ucBuf q.ucRear).item 0 len buf, origin⟩
         ucRear := (q.ucRear + 1) % maxQueueSize }, true)
  else (q, false)

def deQueue (lock : Bool) (q : ThreadSafeCirQue) : ThreadSafeCirQue × Option QueueItem :=
  if lock then
    if isQueueEmpty q then (q, none)
    else
      ({ q with
         ucBuf := Function.update q.ucBuf q.ucFront .zero
         ucFront := (q.ucFront + 1) % maxQueueSize }, some (q.ucBuf q.ucFront))
  else (q, none)

def ThreadSafeCirQue.messages (q : ThreadSafeCirQue) : List QueueItem :=
  Ring.contents maxQueueSize q.ucBuf q.ucFront
    ((q.ucRear + maxQueueSize - q.ucFront) % maxQueueSize)

/-- The ring stands for the queue `l`. -/
structure ThreadSafeCirQue.Holds (q : ThreadSafeCirQue) (l : List QueueItem) : Prop where
  front_lt : q.ucFront < 62
  length_le : l.length ≤ 61
  rear : q.ucRear = (q.ucFront + l.length) % 62
  contents : Ring.contents 62 q.ucBuf q.ucFront l.length = l

namespace ThreadSafeCirQue.Holds

variable {q : ThreadSafeCirQue} {l rest : List QueueItem} {first : QueueItem}

theorem init : initCirQueue.Holds [] := ⟨by decide, by decide, rfl, rfl⟩

theorem messages (h : q.Holds l) : q.messages = l := by
  have hfront := h.front_lt
  have hlength := h.length_le
  have hcount : (q.ucRear + maxQueueSize - q.ucFront) % maxQueueSize = l.length := by
    rw [h.rear, maxQueueSize]
    omega
  rw [ThreadSafeCirQue.messages, hcount]
  exact h.contents

theorem isQueueEmpty_iff (h : q.Holds l) : isQueueEmpty q = true ↔ l = [] := by
  have hfront := h.front_lt
  have hlength := h.length_le
  rw [isQueueEmpty, decide_eq_true_iff, h.rear, ← List.length_eq_zero_iff]
  omega

theorem isQueueFull_iff (h : q.Holds l) : isQueueFull q = true ↔ l.length = 61 := by
  have hfront := h.front_lt
  have hlength := h.length_le
  rw [isQueueFull, decide_eq_true_iff, h.rear, maxQueueSize]
  omega

theorem enQueue (h : q.Holds l) {lock : Bool} {buf : Nat → UInt8} {origin : Origin} {len : Nat}
    (hok : (Lsc100.enQueue lock q buf origin len).2 = true) :
    ∃ it : QueueItem, it.origin = origin ∧ (∀ k < len, it.item k = buf k) ∧
      (Lsc100.enQueue lock q buf origin len).1.Holds (l ++ [it]) := by
  rw [Lsc100.enQueue] at hok ⊢
  cases lock with
  | false => cases hok
  | true =>
    rw [if_pos rfl] at hok ⊢
    cases hfull : isQueueFull q with
    | true =>
      rw [if_pos hfull] at hok
      cases hok
    | false =>
      have hroom : l.length ≠ 61 := fun hlen => by
        have := h.isQueueFull_iff.mpr hlen
        rw [hfull] at this
        cases this
      have hlength := h.length_le
      rw [if_neg Bool.false_ne_true]
      refine ⟨⟨overlay (fun _ x => x) (q.ucBuf q.ucRear).item 0 len buf, origin⟩, rfl,
        fun k hk => ?_, h.front_lt, ?_, ?_, ?_⟩
      · exact overlay_in (fun _ x => x) (q.ucBuf q.ucRear).item buf (Nat.zero_le k)
          ((Nat.zero_add len).symm ▸ hk)
      · rw [List.length_append, List.length_singleton]
        omega
      · rw [List.length_append, List.length_singleton, maxQueueSize, h.rear, Nat.mod_add_mod,
          Nat.add_assoc]
      · rw [List.length_append, List.length_singleton]
        simp only [h.rear]
        rw [Ring.contents_push _ (by omega), h.contents]

theorem enQueue_of_not {lock : Bool} {buf : Nat → UInt8} {origin : Origin} {len : Nat}
    (hok : ¬ (Lsc100.enQueue lock q buf origin len).2 = true) :
    (Lsc100.enQueue lock q buf origin len).1 = q := by
  rw [Lsc100.enQueue] at hok ⊢
  split
  · split
    · rfl
    · rename_i hlock hfull
      rw [if_pos hlock, if_neg hfull] at hok
      exact absurd rfl hok
  · rfl

theorem deQueue_nil (h : q.Holds []) (lock : Bool) : Lsc100.deQueue lock q = (q, none) := by
  rw [Lsc100.deQueue, if_pos (h.isQueueEmpty_iff.mpr rfl)]
  exact ite_self _

theorem deQueue_cons (h : q.Holds (first :: rest)) :
    (Lsc100.deQueue true q).1.Holds rest ∧ (Lsc100.deQueue true q).2 = some first := by
  have hlength := h.length_le
  have hfront := h.front_lt
  rw [List.length_cons] at hlength
  have hnot : ¬ isQueueEmpty q = true := fun hempty => by
    cases h.isQueueEmpty_iff.mp hempty
  rw [Lsc100.deQueue, if_pos rfl, if_neg hnot]
  have hcontents := h.contents
  have hhead : q.ucBuf q.ucFront = first := by
    have hget := List.getElem?_eq_getElem (l := Ring.contents 62 q.ucBuf q.ucFront
      (first :: rest).length) (i := 0) (by simp)
    rw [Ring.getElem_contents, Nat.add_zero, Nat.mod_eq_of_lt hfront, hcontents] at hget
    exact (Option.some.inj hget).symm
  have htail : Ring.contents 62 q.ucBuf ((q.ucFront + 1) % 62) rest.length = rest := by
    have hdrop : Ring.contents 62 q.ucBuf ((q.ucFront + 1) % 62) ((first :: rest).length - 1) =
        (Ring.contents 62 q.ucBuf q.ucFront (first :: rest).length).drop 1 := Ring.contents_drop 1
    rw [hcontents] at hdrop
    exact hdrop
  refine ⟨⟨Nat.mod_lt _ (by decide), by omega, ?_, ?_⟩, congrArg some hhead⟩
  · simp only [h.rear, maxQueueSize, List.length_cons, Nat.mod_add_mod]
    congr 1
    omega
  · rw [← htail]
    simp only [Ring.length_contents, maxQueueSize]
    refine List.map_congr_left fun i hi => Function.update_of_ne ?_ _ _
    have hi := List.mem_range.mp hi
    rw [Nat.mod_add_mod]
    omega

end ThreadSafeCirQue.Holds

end Lsc100
