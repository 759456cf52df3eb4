import Mathlib.Logic.Function.Basic
import Lsc100.Basis.Overlay

/-! Memories that are programmed page by page. The address counter of such a memory runs inside
the page, so that a write past its end goes on at its start. -/

namespace Paged

open Overlay

variable {α : Type*}

/-- The cell that element `i` of a write from `a` on goes to. -/
def wrapAddr (size a i : Nat) : Nat := a / size * size + (a + i) % size

def wrapStore (f : α → α → α) (size : Nat) (m : Nat → α) (a : Nat) (d : Nat → α) :
    Nat → Nat → α
  | 0 => m
  | n + 1 =>
    let stored := wrapStore f size m a d n
    Function.update stored (wrapAddr size a n) (f (stored (wrapAddr size a n)) (d n))

/-- How much of `n` elements from `a` on the page of `a` holds. -/
def pieceLength (size a n : Nat) : Nat := min n (size - a % size)

variable {size a n : Nat}

theorem wrapStore_congr (f : α → α → α) (m : Nat → α) {d d' : Nat → α} (h : ∀ i < n, d i = d' i) :
    wrapStore f size m a d n = wrapStore f size m a d' n := by
  induction n with
  | zero => rfl
  | succ n ih =>
    rw [wrapStore, wrapStore, ih fun i hi => h i (Nat.lt_succ_of_lt hi), h n (Nat.lt_succ_self n)]

theorem wrapAddr_eq {i : Nat} (h : a % size + i < size) : wrapAddr size a i = a + i := by
  have hdiv := Nat.div_add_mod a size
  have hmod : (a + i) % size = a % size + i := by
    rw [Nat.add_mod, Nat.mod_eq_of_lt (by omega : i < size), Nat.mod_eq_of_lt h]
  rw [wrapAddr, hmod, Nat.mul_comm]
  omega

theorem wrapStore_eq_overlay (f : α → α → α) (m : Nat → α) (d : Nat → α)
    (h : a % size + n ≤ size) : wrapStore f size m a d n = overlay f m a n d := by
  induction n with
  | zero => rw [wrapStore, overlay_zero]
  | succ n ih =>
    rw [wrapStore, wrapAddr_eq (by omega), ih (by omega)]
    funext x
    by_cases hx : x = a + n
    · subst hx
      rw [Function.update_self, overlay_out f m d (by omega),
        overlay_add f m d (Nat.lt_succ_self n)]
    · rw [Function.update_of_ne hx]
      by_cases hin : a ≤ x ∧ x < a + n
      · rw [overlay_in f m d hin.1 hin.2, overlay_in f m d hin.1 (by omega)]
      · rw [overlay_out f m d (by omega), overlay_out f m d (by omega)]

theorem ite_eq_pieceLength (size a n : Nat) :
    (if n < size - a % size then n else size - a % size) = pieceLength size a n := by
  rw [pieceLength]
  split <;> omega

theorem pieceLength_le : pieceLength size a n ≤ n := Nat.min_le_left _ _

theorem pieceLength_pos (hsize : 0 < size) (hn : 0 < n) : 0 < pieceLength size a n := by
  have hmod := Nat.mod_lt a hsize
  rw [pieceLength]
  omega

theorem mod_add_pieceLength (hsize : 0 < size) : a % size + pieceLength size a n ≤ size := by
  have hmod := Nat.mod_lt a hsize
  rw [pieceLength]
  omega

/-- Induction over the pieces of a write, page by page. -/
@[elab_as_elim]
theorem piece_induction {motive : Nat → Nat → Prop} (hsize : 0 < size) (a n : Nat)
    (done : ∀ a, motive a 0)
    (piece : ∀ a n, 0 < n → motive (a + pieceLength size a n) (n - pieceLength size a n) →
      motive a n) : motive a n := by
  induction n using Nat.strongRecOn generalizing a with
  | _ n ih =>
    rcases Nat.eq_zero_or_pos n with rfl | hn
    · exact done a
    · have hpos := pieceLength_pos (a := a) hsize hn
      exact piece a n hn (ih _ (by omega) _)

end Paged
