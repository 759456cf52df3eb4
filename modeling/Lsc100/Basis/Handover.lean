import Mathlib.Logic.Function.Basic
import Lsc100.Basis.Cyclic

/-! A ring of slots between a side that fills them and a side that empties them. A slot is full or
free, each side has a position of its own, and neither knows that of the other. -/

namespace Handover

variable {α β : Type*} {n take give : Nat} {full : Nat → Option α} {l : List α} {x : α}

def next (n i : Nat) : Nat := if i + 1 = n then 0 else i + 1

/-- What the emptying side finds in `k` slots from slot `i` on, up to the first free one. -/
def collect (n : Nat) (full : Nat → Option α) : Nat → Nat → List α
  | 0, _ => []
  | k + 1, i =>
    match full i with
    | none => []
    | some x => x :: collect n full k (next n i)

/-- The slots from `take` on hold `l`, the others are free, and `give` is where it ends. -/
structure Holds (n : Nat) (full : Nat → Option α) (take give : Nat) (l : List α) : Prop where
  take_lt : take < n
  give_eq : give = (take + l.length) % n
  length_le : l.length ≤ n
  held : ∀ i (h : i < l.length), full ((take + i) % n) = some l[i]
  free : ∀ i, l.length ≤ i → i < n → full ((take + i) % n) = none

theorem next_eq {i : Nat} (h : i < n) : next n i = (i + 1) % n := by
  rw [next]
  split
  · rw [‹i + 1 = n›, Nat.mod_self]
  · rw [Nat.mod_eq_of_lt (by omega)]

theorem next_lt {i : Nat} (h : i < n) : next n i < n := by
  rw [next_eq h]
  exact Nat.mod_lt _ (by omega)

theorem Holds.empty (hn : 0 < n) : Holds n (fun _ => (none : Option α)) 0 0 [] :=
  ⟨hn, rfl, Nat.zero_le n, nofun, fun _ _ _ => rfl⟩

namespace Holds

theorem pos (h : Holds n full take give l) : 0 < n := Nat.lt_of_le_of_lt (Nat.zero_le _) h.take_lt

theorem give_lt (h : Holds n full take give l) : give < n := by
  rw [h.give_eq]
  exact Nat.mod_lt _ h.pos

/-- Where the slots of both sides are looked at with different eyes. -/
theorem congr {full' : Nat → Option β} {f : α → β} (h : Holds n full take give l)
    (hfull : ∀ i < n, full' i = (full i).map f) : Holds n full' take give (l.map f) where
  take_lt := h.take_lt
  give_eq := by
    rw [List.length_map]
    exact h.give_eq
  length_le := by
    rw [List.length_map]
    exact h.length_le
  held := fun i hi => by
    rw [List.length_map] at hi
    rw [hfull _ (Nat.mod_lt _ h.pos), h.held i hi, List.getElem_map]
    rfl
  free := fun i hi hn => by
    rw [List.length_map] at hi
    rw [hfull _ (Nat.mod_lt _ h.pos), h.free i hi hn]
    rfl

theorem of_eq {full' : Nat → Option α} (h : Holds n full take give l)
    (hfull : ∀ i < n, full' i = full i) : Holds n full' take give l := by
  have hmap := h.congr (show ∀ i < n, full' i = (full i).map id from fun i hi => by
    rw [hfull i hi, Option.map_id_fun, id])
  rwa [List.map_id] at hmap

theorem take_eq_none (h : Holds n full take give []) : full take = none := by
  have hfree := h.free 0 (Nat.le_refl 0) h.pos
  rwa [Nat.add_zero, Nat.mod_eq_of_lt h.take_lt] at hfree

theorem take_eq_some (h : Holds n full take give (x :: l)) : full take = some x := by
  have hheld := h.held 0 (Nat.succ_pos _)
  rwa [Nat.add_zero, Nat.mod_eq_of_lt h.take_lt] at hheld

theorem exists_cons (h : Holds n full take give l) (hsome : full take = some x) :
    ∃ l', l = x :: l' := by
  cases l with
  | nil =>
    rw [h.take_eq_none] at hsome
    exact absurd hsome nofun
  | cons y l =>
    rw [h.take_eq_some, Option.some.injEq] at hsome
    exact ⟨l, by rw [hsome]⟩

/-- The filling side finds its slot free as long as there is room. -/
theorem length_lt (h : Holds n full take give l) (hnone : full give = none) : l.length < n := by
  refine Nat.lt_of_le_of_ne h.length_le fun hfull => ?_
  have hpos : 0 < l.length := hfull ▸ h.pos
  have hheld := h.held 0 hpos
  rw [Nat.add_zero, Nat.mod_eq_of_lt h.take_lt] at hheld
  rw [h.give_eq, hfull, Nat.add_mod_right, Nat.mod_eq_of_lt h.take_lt, hheld] at hnone
  exact absurd hnone nofun

theorem put (h : Holds n full take give l) (hnone : full give = none) (x : α) :
    Holds n (Function.update full give (some x)) take (next n give) (l ++ [x]) := by
  have hlt := h.length_lt hnone
  have hne : ∀ i < l.length, (take + i) % n ≠ give := fun i hi => by
    rw [h.give_eq]
    exact Cyclic.mod_ne_of_lt (by omega) (by omega)
  refine ⟨h.take_lt, ?_, ?_, fun i hi => ?_, fun i hi hn => ?_⟩
  · rw [next_eq h.give_lt, h.give_eq, Nat.mod_add_mod, List.length_append]
    rfl
  · rw [List.length_append]
    exact hlt
  · rw [List.length_append, List.length_singleton] at hi
    rcases Nat.lt_or_eq_of_le (Nat.le_of_lt_succ hi) with hlt' | rfl
    · rw [Function.update_of_ne (hne i hlt'), h.held i hlt', List.getElem_append_left hlt']
    · rw [← h.give_eq, Function.update_self, List.getElem_concat_length rfl]
  · rw [List.length_append, List.length_singleton] at hi
    have hgive : (take + i) % n ≠ give := by
      rw [h.give_eq]
      exact (Cyclic.mod_ne_of_lt (by omega) (by omega)).symm
    rw [Function.update_of_ne hgive, h.free i (by omega) hn]

theorem drop (h : Holds n full take give (x :: l)) :
    Holds n (Function.update full take none) (next n take) give l := by
  have hlength := h.length_le
  rw [List.length_cons] at hlength
  have hmod : ∀ i, (next n take + i) % n = (take + (i + 1)) % n := fun i => by
    rw [next_eq h.take_lt, Nat.mod_add_mod, Nat.add_assoc, Nat.add_comm 1]
  have hne : ∀ i, i + 1 < n → (take + (i + 1)) % n ≠ take := fun i hi => by
    have hcyclic := Cyclic.mod_ne_of_lt (n := n) (show take < take + (i + 1) by omega) (by omega)
    rw [Nat.mod_eq_of_lt h.take_lt] at hcyclic
    exact hcyclic.symm
  refine ⟨next_lt h.take_lt, ?_, by omega, fun i hi => ?_, fun i hi hn => ?_⟩
  · rw [hmod]
    exact h.give_eq
  · rw [hmod, Function.update_of_ne (hne i (by omega))]
    exact h.held (i + 1) (Nat.succ_lt_succ hi)
  · rw [hmod]
    rcases Nat.lt_or_eq_of_le (Nat.succ_le_of_lt hn) with hlt | heq
    · rw [Function.update_of_ne (hne i hlt)]
      exact h.free (i + 1) (Nat.succ_le_succ hi) hlt
    · rw [show i + 1 = n from heq, Nat.add_mod_right, Nat.mod_eq_of_lt h.take_lt,
        Function.update_self]

theorem collect_eq (h : Holds n full take give l) : collect n full n take = l := by
  have hpart : ∀ k i, i ≤ l.length → l.length ≤ i + k → i + k ≤ n →
      collect n full k ((take + i) % n) = l.drop i := by
    intro k
    induction k with
    | zero =>
      intro i _ hend _
      rw [collect, List.drop_eq_nil_of_le (show l.length ≤ i from hend)]
    | succ k ih =>
      intro i hi hend hn
      rcases Nat.lt_or_eq_of_le hi with hlt | rfl
      · rw [collect, h.held i hlt, List.drop_eq_getElem_cons hlt,
          ← ih (i + 1) hlt (by omega) (by omega), next_eq (Nat.mod_lt _ h.pos), Nat.mod_add_mod,
          Nat.add_assoc]
      · rw [collect, h.free _ (Nat.le_refl _) (by omega), List.drop_length]
  have hall := hpart n 0 (Nat.zero_le _) (by simpa using h.length_le) (by omega)
  rwa [Nat.add_zero, Nat.mod_eq_of_lt h.take_lt, List.drop_zero] at hall

end Holds

end Handover
