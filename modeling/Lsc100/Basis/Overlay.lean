import Mathlib.Logic.Function.Basic

/-! Memories addressed by numbers, and writes to an interval of them. The cell
that results is a combination of the old and the new one, so that plain
overwriting and the bit-clearing of NOR flash are one operation. -/

namespace Overlay

variable {α : Type*}

/-- Cells `a .. a + n` are combined with `d 0 .. d n`, the others stay. -/
def overlay (f : α → α → α) (m : Nat → α) (a n : Nat) (d : Nat → α) : Nat → α :=
  fun x => if a ≤ x ∧ x < a + n then f (m x) (d (x - a)) else m x

variable (f : α → α → α) (m : Nat → α) {a n x : Nat} (d : Nat → α)

theorem overlay_in (h : a ≤ x) (h' : x < a + n) :
    overlay f m a n d x = f (m x) (d (x - a)) := by
  simp [overlay, h, h']

theorem overlay_out (h : x < a ∨ a + n ≤ x) : overlay f m a n d x = m x := by
  have : ¬ (a ≤ x ∧ x < a + n) := by omega
  simp only [overlay, this, if_false]

@[simp] theorem overlay_add {i : Nat} (h : i < n) :
    overlay f m a n d (a + i) = f (m (a + i)) (d i) := by
  rw [overlay_in f m d (by omega) (by omega), Nat.add_sub_cancel_left]

@[simp] theorem overlay_zero : overlay f m a 0 d = m := by
  funext x
  exact overlay_out f m d (by omega)

theorem overlay_congr {d d' : Nat → α} (h : ∀ i < n, d i = d' i) :
    overlay f m a n d = overlay f m a n d' := by
  funext x
  by_cases hx : a ≤ x ∧ x < a + n
  · rw [overlay_in f m d hx.1 hx.2, overlay_in f m d' hx.1 hx.2, h _ (by omega)]
  · rw [overlay_out f m d (by omega), overlay_out f m d' (by omega)]

theorem overlay_split (k : Nat) (hk : k ≤ n) :
    overlay f (overlay f m a k d) (a + k) (n - k) (fun i => d (k + i)) = overlay f m a n d := by
  funext x
  by_cases h₁ : x < a
  · rw [overlay_out f _ _ (by omega), overlay_out f _ _ (by omega), overlay_out f _ _ (by omega)]
  · by_cases h₂ : x < a + k
    · rw [overlay_out f _ _ (by omega), overlay_in f _ _ (by omega) h₂,
        overlay_in f _ _ (by omega) (by omega)]
    · by_cases h₃ : x < a + n
      · rw [overlay_in f _ _ (by omega) (by omega), overlay_out f _ _ (by omega),
          overlay_in f _ _ (by omega) h₃]
        congr 2
        omega
      · rw [overlay_out f _ _ (by omega), overlay_out f _ _ (by omega),
          overlay_out f _ _ (by omega)]

theorem overlay_append (k l : Nat) :
    overlay f (overlay f m a k d) (a + k) l (fun i => d (k + i)) = overlay f m a (k + l) d := by
  have h := overlay_split f m d k (Nat.le_add_right k l) (a := a)
  rwa [Nat.add_sub_cancel_left] at h

theorem overlay_one : overlay (fun _ b => b) m a 1 d = Function.update m a (d 0) := by
  funext x
  by_cases hx : x = a
  · subst hx
    rw [overlay_in _ _ _ (Nat.le_refl x) (by omega), Nat.sub_self, Function.update_self]
  · rw [overlay_out _ _ _ (by omega), Function.update_of_ne hx]

/-- A write ends with its last cell. -/
theorem overlay_succ : overlay (fun _ b => b) m a (n + 1) d =
    Function.update (overlay (fun _ b => b) m a n d) (a + n) (d n) := by
  rw [← overlay_append, overlay_one]
  rfl

theorem foldl_update (n : Nat) :
    (List.range n).foldl (fun m i => Function.update m (a + i) (d i)) m =
      overlay (fun _ b => b) m a n d := by
  induction n with
  | zero => exact (overlay_zero _ _ _).symm
  | succ n ih =>
    rw [List.range_succ, List.foldl_append, ih, overlay_succ]
    rfl

/-- A write begins with its first cell. -/
theorem overlay_update : overlay (fun _ b => b) (Function.update m a (d 0)) (a + 1) n
    (fun i => d (1 + i)) = overlay (fun _ b => b) m a (1 + n) d := by
  rw [← overlay_one, overlay_append]

theorem overlay_comm {a' n' : Nat} (d' : Nat → α) (h : a + n ≤ a') :
    overlay f (overlay f m a' n' d') a n d = overlay f (overlay f m a n d) a' n' d' := by
  funext x
  by_cases hx : x < a'
  · have hout : overlay f m a' n' d' x = m x := overlay_out f m d' (.inl hx)
    rw [overlay_out f _ d' (.inl hx), overlay, hout, overlay]
  · have hout : overlay f m a n d x = m x := overlay_out f m d (by omega)
    rw [overlay_out f _ d (by omega), overlay, overlay, hout]

/-- Of two writes to one interval only the second is seen. -/
theorem overlay_overlay (d' : Nat → α) :
    overlay (fun _ b => b) (overlay (fun _ b => b) m a n d) a n d' =
      overlay (fun _ b => b) m a n d' := by
  funext x
  by_cases hx : a ≤ x ∧ x < a + n
  · rw [overlay_in _ _ _ hx.1 hx.2, overlay_in _ _ _ hx.1 hx.2]
  · rw [overlay_out _ _ _ (by omega), overlay_out _ _ _ (by omega), overlay_out _ _ _ (by omega)]

end Overlay
