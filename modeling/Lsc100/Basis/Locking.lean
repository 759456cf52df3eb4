import Mathlib.Data.List.Infix

/-! Functions that take and give mutexes, with the takes and gives recorded. -/

namespace Locking

inductive LockEvent (μ : Type)
  | take (m : μ) (ok : Bool)
  | give (m : μ)
  deriving DecidableEq

/-- The state is what has been recorded. -/
abbrev LockM (μ α : Type) := StateM (List (LockEvent μ)) α

section Record

variable {μ α : Type}

def take (m : μ) (ok : Bool) : LockM μ Bool := fun log => (ok, log ++ [.take m ok])

def give (m : μ) : LockM μ Unit := fun log => ((), log ++ [.give m])

/-- One use of `m`: it is given back if it has been obtained. -/
def critical (m : μ) (ok : Bool) : List (LockEvent μ) :=
  if ok then [.take m true, .give m] else [.take m false]

/-- The function returns `a`, having recorded `log`. -/
structure Leaves (f : LockM μ α) (a : α) (log : List (LockEvent μ)) : Prop where
  eq : ∀ before, f before = (a, before ++ log)

variable {m : μ} {a : α} {log : List (LockEvent μ)}

theorem Leaves.pure (a : α) : Leaves (pure a : LockM μ α) a [] :=
  ⟨fun before => by rw [List.append_nil]; rfl⟩

/-- An exit that gives `m` back. -/
theorem Leaves.give (m : μ) (a : α) :
    Leaves (do Locking.give m; Pure.pure a) a [.give m] :=
  ⟨fun _ => rfl⟩

/-- With `m` every way to an end gives it back. -/
theorem Leaves.critical {f : LockM μ α} (ok : Bool) (b : α) (h : Leaves f a [.give m]) :
    Leaves (do if ← take m ok then f else Pure.pure b) (if ok then a else b) (critical m ok) := by
  refine ⟨fun before => ?_⟩
  cases ok with
  | false => rfl
  | true =>
    change f (before ++ [.take m true]) = _
    rw [h.eq, List.append_assoc]
    rfl

/-- The same for a function that goes back at once without `m`. -/
theorem Leaves.obtain {f : LockM μ α} (ok : Bool) (b : α) (h : Leaves f a [.give m]) :
    Leaves (do if !(← take m ok) then return b else f) (if ok then a else b)
      (Locking.critical m ok) := by
  refine ⟨fun before => ?_⟩
  rw [← (Leaves.critical ok b h).eq before]
  cases ok <;> rfl

/-- A test of the arguments in front of the lock. -/
theorem Leaves.guard {skip : Prop} [Decidable skip] {f : LockM μ α} {b : α}
    (h : ¬ skip → Leaves f a log) :
    Leaves (if skip then Pure.pure b else f) (if skip then b else a)
      (if skip then [] else log) := by
  split
  · exact .pure b
  · exact h ‹_›

theorem Leaves.ite {c : Prop} [Decidable c] {f g : LockM μ α} {b : α}
    (hf : Leaves f a log) (hg : Leaves g b log) :
    Leaves (if c then f else g) (if c then a else b) log := by
  split
  · exact hf
  · exact hg

end Record

section Held

variable {μ : Type} [DecidableEq μ]

def hold (held : List μ) : LockEvent μ → List μ
  | .take m true => m :: held
  | .take _ false => held
  | .give m => held.erase m

def held (log : List (LockEvent μ)) : List μ := log.foldl hold []

/-- No mutex is asked for while one is held, and none is kept. -/
structure Orderly (log : List (LockEvent μ)) : Prop where
  released : held log = []
  apart : ∀ before m ok after, log = before ++ .take m ok :: after → held before = []

/-- Only `m` is touched, at most once, and it is given back as often as it is obtained. -/
structure Balanced (m : μ) (log : List (LockEvent μ)) : Prop extends Orderly log where
  taken : log.count (.take m true) ≤ 1
  given : log.count (.give m) = log.count (.take m true)
  alone : ∀ e ∈ log, e = .give m ∨ ∃ ok, e = .take m ok

theorem held_append {log : List (LockEvent μ)} (h : held log = []) (log' : List (LockEvent μ)) :
    held (log ++ log') = held log' := by
  rw [held, List.foldl_append]
  exact congrArg (fun h => log'.foldl hold h) h

theorem Orderly.nil : Orderly ([] : List (LockEvent μ)) := by
  refine ⟨rfl, fun before m ok after h => ?_⟩
  exact absurd h.symm (List.append_ne_nil_of_right_ne_nil _ (List.cons_ne_nil _ _))

theorem Orderly.append {log log' : List (LockEvent μ)} (h : Orderly log) (h' : Orderly log') :
    Orderly (log ++ log') := by
  refine ⟨(held_append h.released log').trans h'.released, fun before m ok after heq => ?_⟩
  obtain ⟨mid, rfl, hcut⟩ | ⟨mid, rfl, hcut⟩ := List.append_eq_append_iff.mp heq
  · exact (held_append h.released mid).trans (h'.apart mid m ok after hcut)
  · cases mid with
    | nil =>
      rw [List.append_nil] at h
      exact h.released
    | cons e mid =>
      obtain ⟨rfl, -⟩ := List.cons.inj hcut
      exact h.apart before m ok mid rfl

theorem Orderly.flatMap {κ : Type} {f : κ → List (LockEvent μ)} (h : ∀ k, Orderly (f k))
    (ks : List κ) : Orderly (ks.flatMap f) := by
  induction ks with
  | nil => exact .nil
  | cons k ks ih => exact (h k).append ih

theorem balanced_nil (m : μ) : Balanced m [] :=
  ⟨.nil, by simp, rfl, fun _ h => absurd h List.not_mem_nil⟩

theorem orderly_critical (m : μ) (ok : Bool) : Orderly (critical m ok) := by
  cases ok with
  | false =>
    refine ⟨rfl, fun before m' ok after heq => ?_⟩
    obtain _ | ⟨e, before⟩ := before
    · rfl
    · simp [critical] at heq
  | true =>
    refine ⟨by simp [critical, held, hold], fun before m' ok after heq => ?_⟩
    obtain _ | ⟨e, _ | ⟨e', before⟩⟩ := before
    · rfl
    · simp [critical] at heq
    · simp [critical] at heq

theorem balanced_critical (m : μ) (ok : Bool) : Balanced m (critical m ok) := by
  refine ⟨orderly_critical m ok, ?_, ?_, ?_⟩
  · cases ok <;> simp [critical]
  · cases ok <;> simp [critical]
  · cases ok <;> simp [critical]

variable {α : Type} {m : μ} {f : LockM μ α} {a : α}

theorem Leaves.balanced_nil (h : Leaves f a []) : Balanced m (f []).2 := by
  rw [h.eq []]
  exact Locking.balanced_nil m

theorem Leaves.balanced_critical {ok : Bool} (h : Leaves f a (Locking.critical m ok)) :
    Balanced m (f []).2 := by
  rw [h.eq []]
  exact Locking.balanced_critical m ok

theorem Leaves.balanced {skip : Prop} [Decidable skip] {ok : Bool}
    (h : Leaves f a (if skip then [] else Locking.critical m ok)) : Balanced m (f []).2 := by
  split at h
  · exact h.balanced_nil
  · exact h.balanced_critical

end Held

end Locking
