import Mathlib.Logic.Function.Basic
import Mathlib.Data.List.Basic
import Lsc100.Basis.Cyclic
import Lsc100.Basis.Overlay

/-! A bounded ring of cells with a read position and a count, and the queue it
stands for. Writing behind the last cell appends to the queue, moving the read
position drops from its front, and the occupied cells are copied out in two
pieces around the end of the ring. -/

namespace Ring

open Overlay

variable {α : Type*} {n rd count k : Nat} {item : Nat → α}

def contents (n : Nat) (item : Nat → α) (rd count : Nat) : List α :=
  (List.range count).map fun i => item ((rd + i) % n)

@[simp] theorem length_contents : (contents n item rd count).length = count := by
  simp [contents]

@[simp] theorem contents_zero : contents n item rd 0 = [] := rfl

theorem getElem_contents (h : k < (contents n item rd count).length) :
    (contents n item rd count)[k] = item ((rd + k) % n) := by
  simp [contents]

theorem contents_push (x : α) (hcount : count < n) :
    contents n (Function.update item ((rd + count) % n) x) rd (count + 1) =
      contents n item rd count ++ [x] := by
  simp only [contents, List.range_succ, List.map_append, List.map_singleton,
    Function.update_self]
  congr 1
  refine List.map_congr_left fun i hi => ?_
  have hi := List.mem_range.mp hi
  exact Function.update_of_ne (Cyclic.mod_ne_of_lt (by omega) (by omega)) _ _

theorem contents_drop (k : Nat) :
    contents n item ((rd + k) % n) (count - k) = (contents n item rd count).drop k := by
  refine List.ext_getElem (by simp) fun i h₁ h₂ => ?_
  rw [List.getElem_drop, getElem_contents, getElem_contents, Nat.mod_add_mod, Nat.add_assoc]

/-- The two-piece copy of `k` cells from the read position to cell `a` on. -/
def copyOut (n : Nat) (item : Nat → α) (rd : Nat) (data : Nat → α) (a k : Nat) : Nat → α :=
  let len := min (n - rd) k
  overlay (fun _ x => x) (overlay (fun _ x => x) data a len (fun i => item (rd + i)))
    (a + len) (k - len) item

theorem copyOut_in {data : Nat → α} {a i : Nat} (hrd : rd < n) (hk : k ≤ n) (hi : i < k) :
    copyOut n item rd data a k (a + i) = item ((rd + i) % n) := by
  simp only [copyOut]
  rcases Nat.lt_or_ge i (min (n - rd) k) with hlt | hge
  · rw [overlay_out _ _ _ (by omega), overlay_add _ _ _ hlt, Nat.mod_eq_of_lt (by omega)]
  · rw [overlay_in _ _ _ (by omega) (by omega), Nat.mod_eq_sub_mod (by omega),
      Nat.mod_eq_of_lt (by omega)]
    congr 1
    omega

theorem copyOut_out {data : Nat → α} {a x : Nat} (hx : x < a ∨ a + k ≤ x) :
    copyOut n item rd data a k x = data x := by
  simp only [copyOut]
  rw [overlay_out _ _ _ (by omega), overlay_out _ _ _ (by omega)]

@[simp] theorem copyOut_zero {data : Nat → α} {a : Nat} : copyOut n item rd data a 0 = data := by
  simp [copyOut]

theorem copyOut_succ {data : Nat → α} {a : Nat} (hrd : rd < n) (hk : k < n) :
    copyOut n item rd data a (k + 1) =
      Function.update (copyOut n item rd data a k) (a + k) (item ((rd + k) % n)) := by
  funext x
  rcases Nat.lt_or_ge x a with hlt | hge
  · rw [copyOut_out (.inl hlt), Function.update_of_ne (by omega), copyOut_out (.inl hlt)]
  · obtain ⟨i, rfl⟩ := Nat.exists_eq_add_of_le hge
    rcases Nat.lt_trichotomy i k with hlt | rfl | hgt
    · rw [copyOut_in hrd hk (by omega), Function.update_of_ne (by omega),
        copyOut_in hrd (by omega) hlt]
    · rw [copyOut_in hrd hk (by omega), Function.update_self]
    · rw [copyOut_out (.inr (by omega)), Function.update_of_ne (by omega),
        copyOut_out (.inr (by omega))]

/-- The two-piece copy of `k` values to the cells from `wr` on. -/
def copyIn (n : Nat) (item : Nat → α) (wr : Nat) (data : Nat → α) (k : Nat) : Nat → α :=
  let len := min (n - wr) k
  overlay (fun _ x => x) (overlay (fun _ x => x) item wr len data) 0 (k - len)
    (fun i => data (len + i))

@[simp] theorem copyIn_zero {wr : Nat} {data : Nat → α} : copyIn n item wr data 0 = item := by
  simp [copyIn]

theorem copyIn_succ {wr : Nat} {data : Nat → α} (hwr : wr < n) (hk : k < n) :
    copyIn n item wr data (k + 1) =
      Function.update (copyIn n item wr data k) ((wr + k) % n) (data k) := by
  funext x
  simp only [copyIn]
  rcases Nat.lt_or_ge k (n - wr) with hlt | hge
  · rw [Nat.mod_eq_of_lt (by omega), Nat.min_eq_right (by omega), Nat.min_eq_right (by omega),
      Nat.sub_self, Nat.sub_self, overlay_zero, overlay_zero]
    by_cases hx : x = wr + k
    · rw [hx, Function.update_self, overlay_add _ _ _ (Nat.lt_succ_self k)]
    · rw [Function.update_of_ne hx]
      by_cases hin : wr ≤ x ∧ x < wr + k
      · rw [overlay_in _ _ _ hin.1 (by omega), overlay_in _ _ _ hin.1 hin.2]
      · rw [overlay_out _ _ _ (by omega), overlay_out _ _ _ (by omega)]
  · rw [Nat.mod_eq_sub_mod (by omega), Nat.mod_eq_of_lt (by omega), Nat.min_eq_left (by omega),
      Nat.min_eq_left hge]
    by_cases hx : x = wr + k - n
    · rw [hx, Function.update_self, overlay_in _ _ _ (Nat.zero_le _) (by omega)]
      congr 1
      omega
    · rw [Function.update_of_ne hx]
      rcases Nat.lt_or_ge x (wr + k - n) with hlt | hgt
      · rw [overlay_in _ _ _ (Nat.zero_le _) (by omega),
          overlay_in _ _ _ (Nat.zero_le _) (by omega)]
      · have hout (m : Nat → α) (d : Nat → α) {j : Nat} (hj : j ≤ wr + k - n + 1) :
            overlay (fun _ x => x) m 0 j d x = m x := overlay_out _ _ _ (by omega)
        rw [hout _ _ (by omega), hout _ _ (by omega)]

theorem contents_copyIn {data : Nat → α} (hn : 0 < n) (hk : count + k ≤ n) :
    contents n (copyIn n item ((rd + count) % n) data k) rd (count + k) =
      contents n item rd count ++ (List.range k).map data := by
  induction k with
  | zero => simp
  | succ k ih =>
    rw [copyIn_succ (Nat.mod_lt _ hn) (by omega), Nat.mod_add_mod, Nat.add_assoc rd,
      ← Nat.add_assoc count, contents_push _ (by omega), ih (by omega), List.range_succ,
      List.map_append, List.append_assoc]
    rfl

end Ring
