import Mathlib.Logic.Basic

/-! Waiting loops with a counter, `while (cond && timeout > 0) timeout--;`. The condition is
tested anew each time and may depend on the number of the test. -/

namespace Countdown

/-- The loop from test `i` on: the number of its last test, and what is left of the counter. -/
def countdown (cond : Nat → Bool) : Nat → Nat → Nat × Nat
  | 0, i => (i, 0)
  | timeout + 1, i => if cond i then countdown cond timeout (i + 1) else (i, timeout + 1)

variable {cond : Nat → Bool} {timeout i j : Nat}

theorem countdown_sum : (countdown cond timeout i).1 + (countdown cond timeout i).2 =
    i + timeout := by
  induction timeout generalizing i with
  | zero => rfl
  | succ timeout ih =>
    rw [countdown]
    split
    · rw [ih]
      omega
    · rfl

/-- Up to its last test the loop has gone on. -/
theorem cond_of_lt (hij : i ≤ j) (hj : j < (countdown cond timeout i).1) : cond j = true := by
  induction timeout generalizing i with
  | zero => exact absurd hj (Nat.not_lt.mpr hij)
  | succ timeout ih =>
    rw [countdown] at hj
    split at hj
    next hcond =>
      obtain rfl | hlt := Nat.eq_or_lt_of_le hij
      · exact hcond
      · exact ih hlt hj
    next => exact absurd hj (Nat.not_lt.mpr hij)

theorem not_cond_of_left (h : (countdown cond timeout i).2 ≠ 0) :
    ¬cond (countdown cond timeout i).1 = true := by
  induction timeout generalizing i with
  | zero => exact absurd rfl h
  | succ timeout ih =>
    rw [countdown] at h ⊢
    split at h
    next hcond =>
      rw [if_pos hcond]
      exact ih h
    next hcond =>
      rw [if_neg hcond]
      exact hcond

theorem last_add_left : (countdown cond timeout 0).1 + (countdown cond timeout 0).2 = timeout :=
  countdown_sum.trans (Nat.zero_add timeout)

theorem last_le : (countdown cond timeout 0).1 ≤ timeout := by
  have hsum : (countdown cond timeout 0).1 + (countdown cond timeout 0).2 = timeout :=
    last_add_left
  omega

/-- A loop that ends before the counter is zero ends by its condition. -/
theorem not_cond_last (hlt : (countdown cond timeout 0).1 < timeout) :
    ¬cond (countdown cond timeout 0).1 = true := by
  have hsum : (countdown cond timeout 0).1 + (countdown cond timeout 0).2 = timeout :=
    last_add_left
  exact not_cond_of_left (by omega)

theorem ranOut_iff : (countdown cond timeout 0).2 = 0 ↔ ∀ k < timeout, cond k = true := by
  have hsum : (countdown cond timeout 0).1 + (countdown cond timeout 0).2 = timeout :=
    last_add_left
  constructor
  · intro h k hk
    have hlt : k < (countdown cond timeout 0).1 := by omega
    exact cond_of_lt (Nat.zero_le k) hlt
  · intro h
    refine Decidable.byContradiction fun hleft => ?_
    exact not_cond_of_left hleft (h _ (by omega))

end Countdown
