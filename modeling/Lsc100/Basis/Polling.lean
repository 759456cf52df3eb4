import Mathlib.Logic.Basic

/-! Programs that send commands and go on by the answers. All that is unbounded in them are
waiting loops, which send one command until an answer ends the loop. The answers are an
infinite sequence, and a run has fuel for each waiting loop. -/

/-- `C` are the commands, `A` the answers and `W` the waiting loops. -/
inductive Polling (C A W α : Type)
  | done (a : α)
  | send (c : C) (k : A → Polling C A W α)
  | wait (w : W) (c : C) (k : A → Polling C A W α)

namespace Polling

variable {C A W α β : Type}

def bind : Polling C A W α → (α → Polling C A W β) → Polling C A W β
  | done a, f => f a
  | send c k, f => send c fun a => (k a).bind f
  | wait w c k, f => wait w c fun a => (k a).bind f

instance : Monad (Polling C A W) where
  pure := done
  bind := bind

variable (ends : W → A → Bool) (answer : Nat → A)

/-- The first answer from `i` on that ends the loop. -/
def firstEnd (w : W) : Nat → Nat → Option Nat
  | 0, _ => none
  | fuel + 1, i => if ends w (answer i) then some i else firstEnd w fuel (i + 1)

/-- The result, and how many answers the program has used up. -/
def run (fuel : Nat) : Polling C A W α → Nat → Option (α × Nat)
  | done a, i => some (a, i)
  | send _ k, i => run fuel (k (answer i)) (i + 1)
  | wait w _ k, i =>
    match firstEnd ends answer w fuel i with
    | some j => run fuel (k (answer j)) (j + 1)
    | none => none

def Returns (p : Polling C A W α) (i : Nat) : Prop :=
  ∃ fuel, (p.run ends answer fuel i).isSome = true

/-- The run of the program from answer `i` on comes to a waiting loop at answer `j`. -/
inductive Enters : Polling C A W α → Nat → W → Nat → Prop
  | here {w : W} {c : C} {k : A → Polling C A W α} {i : Nat} : Enters (wait w c k) i w i
  | sent {c : C} {k : A → Polling C A W α} {i j : Nat} {w : W}
      (h : Enters (k (answer i)) (i + 1) w j) : Enters (send c k) i w j
  | waited {w v : W} {c : C} {k : A → Polling C A W α} {i j m fuel : Nat}
      (hend : firstEnd ends answer w fuel i = some m)
      (h : Enters (k (answer m)) (m + 1) v j) : Enters (wait w c k) i v j

variable {ends answer}

theorem firstEnd_spec {w : W} {fuel i m : Nat} (h : firstEnd ends answer w fuel i = some m) :
    i ≤ m ∧ ends w (answer m) = true := by
  induction fuel generalizing i with
  | zero => exact absurd h (by simp [firstEnd])
  | succ fuel ih =>
    rw [firstEnd] at h
    by_cases hend : ends w (answer i) = true
    · rw [if_pos hend, Option.some.injEq] at h
      subst h
      exact ⟨Nat.le_refl _, hend⟩
    · rw [if_neg hend] at h
      obtain ⟨hle, hm⟩ := ih h
      exact ⟨Nat.le_of_succ_le hle, hm⟩

theorem exists_firstEnd {w : W} {i m : Nat} (hle : i ≤ m) (hend : ends w (answer m) = true) :
    ∃ fuel j, firstEnd ends answer w fuel i = some j := by
  obtain ⟨d, rfl⟩ := Nat.exists_eq_add_of_le hle
  induction d generalizing i with
  | zero => exact ⟨1, i, if_pos hend⟩
  | succ d ih =>
    by_cases h0 : ends w (answer i) = true
    · exact ⟨1, i, if_pos h0⟩
    · rw [← Nat.add_assoc, Nat.add_right_comm] at hend
      obtain ⟨fuel, j, hj⟩ := ih (Nat.le_add_right _ _) hend
      exact ⟨fuel + 1, j, by rw [firstEnd, if_neg h0, hj]⟩

theorem firstEnd_mono {w : W} {fuel fuel' i m : Nat} (hle : fuel ≤ fuel')
    (h : firstEnd ends answer w fuel i = some m) : firstEnd ends answer w fuel' i = some m := by
  induction fuel generalizing fuel' i with
  | zero => exact absurd h (by simp [firstEnd])
  | succ fuel ih =>
    cases fuel' with
    | zero => exact absurd hle (Nat.not_succ_le_zero _)
    | succ fuel' =>
      rw [firstEnd] at h ⊢
      by_cases hend : ends w (answer i) = true
      · rwa [if_pos hend] at h ⊢
      · rw [if_neg hend] at h ⊢
        exact ih (Nat.le_of_succ_le_succ hle) h

theorem firstEnd_unique {w : W} {fuel fuel' i m m' : Nat}
    (h : firstEnd ends answer w fuel i = some m)
    (h' : firstEnd ends answer w fuel' i = some m') : m = m' := by
  have hl := firstEnd_mono (Nat.le_max_left fuel fuel') h
  rw [firstEnd_mono (Nat.le_max_right fuel fuel') h'] at hl
  exact (Option.some.inj hl).symm

theorem run_mono {p : Polling C A W α} {fuel fuel' i : Nat} {r : α × Nat} (hle : fuel ≤ fuel')
    (h : p.run ends answer fuel i = some r) : p.run ends answer fuel' i = some r := by
  induction p generalizing i with
  | done a => exact h
  | send c k ih => exact ih _ h
  | wait w c k ih =>
    rw [run] at h ⊢
    cases hend : firstEnd ends answer w fuel i with
    | none => rw [hend] at h; exact absurd h (by simp)
    | some j =>
      rw [hend] at h
      rw [firstEnd_mono hle hend]
      exact ih _ h

theorem returns_send {c : C} {k : A → Polling C A W α} {i : Nat} :
    Returns ends answer (send c k) i ↔ Returns ends answer (k (answer i)) (i + 1) :=
  Iff.rfl

theorem returns_wait {w : W} {c : C} {k : A → Polling C A W α} {i : Nat} :
    Returns ends answer (wait w c k) i ↔
      ∃ fuel m, firstEnd ends answer w fuel i = some m ∧
        Returns ends answer (k (answer m)) (m + 1) := by
  constructor
  · rintro ⟨fuel, h⟩
    rw [run] at h
    cases hend : firstEnd ends answer w fuel i with
    | none => rw [hend] at h; exact absurd h (by simp)
    | some m =>
      rw [hend] at h
      exact ⟨fuel, m, hend, fuel, h⟩
  · rintro ⟨fuel, m, hend, fuel', h⟩
    obtain ⟨r, hr⟩ := Option.isSome_iff_exists.mp h
    refine ⟨max fuel fuel', ?_⟩
    rw [run, firstEnd_mono (Nat.le_max_left _ _) hend]
    exact Option.isSome_iff_exists.mpr ⟨r, run_mono (Nat.le_max_right _ _) hr⟩

/-- A program returns when every waiting loop that it comes to is ended by some answer. -/
theorem returns_iff (p : Polling C A W α) (i : Nat) :
    Returns ends answer p i ↔
      ∀ w j, Enters ends answer p i w j → ∃ m, j ≤ m ∧ ends w (answer m) = true := by
  induction p generalizing i with
  | done a =>
    constructor
    · intro _ w j h
      cases h
    · intro _
      exact ⟨0, rfl⟩
  | send c k ih =>
    rw [returns_send, ih]
    constructor
    · intro hall w j h
      cases h with
      | sent h => exact hall w j h
    · intro hall w j h
      exact hall w j (.sent h)
  | wait w c k ih =>
    rw [returns_wait]
    constructor
    · rintro ⟨fuel, m, hend, hret⟩ v j h
      cases h with
      | here => exact ⟨m, firstEnd_spec hend⟩
      | waited hend' h =>
        obtain rfl := firstEnd_unique hend hend'
        exact (ih _ _).mp hret v j h
    · intro hall
      obtain ⟨m, hle, hm⟩ := hall w i .here
      obtain ⟨fuel, j, hj⟩ := exists_firstEnd hle hm
      exact ⟨fuel, j, hj, (ih _ _).mpr fun v l h => hall v l (.waited hj h)⟩

theorem returns_of_fair (hfair : ∀ w i, ∃ m, i ≤ m ∧ ends w (answer m) = true)
    (p : Polling C A W α) (i : Nat) : Returns ends answer p i :=
  (returns_iff p i).mpr fun w j _ => hfair w j

/-- All waiting loops of the program are of one kind. -/
def Only (P : W → Prop) : Polling C A W α → Prop
  | done _ => True
  | send _ k => ∀ a, (k a).Only P
  | wait w _ k => P w ∧ ∀ a, (k a).Only P

theorem only_bind {P : W → Prop} {p : Polling C A W α} {f : α → Polling C A W β}
    (hp : p.Only P) (hf : ∀ a, (f a).Only P) : (p >>= f).Only P := by
  induction p with
  | done a => exact hf a
  | send c k ih => exact fun a => ih a (hp a)
  | wait w c k ih => exact ⟨hp.1, fun a => ih a (hp.2 a)⟩

theorem Enters.only {P : W → Prop} {p : Polling C A W α} {i j : Nat} {w : W}
    (h : Enters ends answer p i w j) (hp : p.Only P) : P w := by
  induction h with
  | here => exact hp.1
  | sent _ ih => exact ih (hp _)
  | waited _ _ ih => exact ih (hp.2 _)

end Polling
