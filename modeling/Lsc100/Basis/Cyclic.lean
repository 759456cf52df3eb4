import Mathlib.Data.Nat.ModEq

/-! Ring positions counted without wrap: position `a` lies in slot `a % n`. -/

namespace Cyclic

variable {a b n : Nat}

theorem succ_mod_cases (a : Nat) (hn : 0 < n) :
    (a % n + 1 < n ∧ (a + 1) % n = a % n + 1) ∨ (a % n + 1 = n ∧ (a + 1) % n = 0) := by
  rcases Nat.lt_or_eq_of_le (Nat.succ_le_of_lt (Nat.mod_lt a hn)) with h | h
  · refine .inl ⟨h, ?_⟩
    rw [← Nat.mod_add_mod, Nat.mod_eq_of_lt h]
  · refine .inr ⟨h, ?_⟩
    rw [← Nat.mod_add_mod, show a % n + 1 = n from h, Nat.mod_self]

theorem mod_ne_of_lt (h : a < b) (h' : b < a + n) : a % n ≠ b % n := by
  intro he
  have hdvd : n ∣ b - a := (Nat.modEq_iff_dvd' h.le).mp he
  have := Nat.le_of_dvd (by omega) hdvd
  omega

end Cyclic
