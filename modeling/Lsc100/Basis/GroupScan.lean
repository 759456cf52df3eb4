import Mathlib.Order.Basic
import Mathlib.Order.Lattice
import Mathlib.Data.List.Basic

/-! Search in groups with an early exit. The keys `lo .. n` are read `g` at a
time, a group is searched only when its last key is not below the target, and
no group after a searched one is ever read. On increasing keys this finds every
key; on other sequences it says which keys are hidden. -/

namespace GroupScan

variable {K : Type*} [LinearOrder K]

def scan (key : Nat → K) (t : K) (n g : Nat) (hg : 0 < g) (lo : Nat) : Option Nat :=
  if lo < n then
    if t ≤ key (min (lo + g) n - 1) then
      (List.range' lo (min (lo + g) n - lo)).find? (fun i => key i = t)
    else scan key t n g hg (lo + g)
  else none
termination_by n - lo

variable {key : Nat → K} {t : K} {n g : Nat} {hg : 0 < g} {lo k : Nat}

theorem scan_hit (hlo : lo < n) (hlast : t ≤ key (min (lo + g) n - 1)) :
    scan key t n g hg lo = (List.range' lo (min (lo + g) n - lo)).find? (fun i => key i = t) := by
  rw [scan, if_pos hlo, if_pos hlast]

theorem scan_skip (hlo : lo < n) (hlast : ¬ t ≤ key (min (lo + g) n - 1)) :
    scan key t n g hg lo = scan key t n g hg (lo + g) := by
  rw [scan, if_pos hlo, if_neg hlast]

theorem scan_end (hlo : ¬ lo < n) : scan key t n g hg lo = none := by
  rw [scan, if_neg hlo]

/-- The scan comes to group `q` and stops at `k` in it. -/
structure StopsIn (key : Nat → K) (t : K) (n g lo q k : Nat) : Prop where
  group_le : lo + g * q ≤ k
  lt_group : k < lo + g * (q + 1)
  lt : k < n
  found : key k = t
  skipped : ∀ i < q, key (lo + g * (i + 1) - 1) < t
  searched : t ≤ key (min (lo + g * (q + 1)) n - 1)
  first : ∀ j, lo + g * q ≤ j → j < k → key j ≠ t

theorem stopsIn_zero_iff : StopsIn key t n g lo 0 k ↔
    t ≤ key (min (lo + g) n - 1) ∧ key k = t ∧ (lo ≤ k ∧ k < min (lo + g) n) ∧
      ∀ j, lo ≤ j → j < k → key j ≠ t := by
  constructor
  · intro h
    have hgroup := h.group_le
    have hend := h.lt_group
    have hlt := h.lt
    have hsearched := h.searched
    rw [Nat.zero_add, Nat.mul_one] at hend hsearched
    exact ⟨hsearched, h.found, ⟨by omega, by omega⟩, fun j hj => h.first j (by omega)⟩
  · rintro ⟨hlast, hkey, ⟨hle, hlt⟩, hfirst⟩
    refine ⟨by omega, by omega, by omega, hkey, ?_, ?_, fun j hj => hfirst j (by omega)⟩
    · intro i hi
      exact absurd hi (Nat.not_lt_zero i)
    · rwa [Nat.zero_add, Nat.mul_one]

/-- A group that is skipped shifts the groups behind it. -/
theorem stopsIn_shift_iff {q : Nat} (hlast : ¬ t ≤ key (min (lo + g) n - 1)) :
    StopsIn key t n g (lo + g) q k ↔ StopsIn key t n g lo (q + 1) k := by
  have hshift : ∀ i, lo + g + g * i = lo + g * (i + 1) := by
    intro i
    rw [Nat.mul_succ]
    omega
  constructor
  · intro h
    have hgroup := h.group_le
    have hlt := h.lt
    refine ⟨hshift q ▸ hgroup, hshift (q + 1) ▸ h.lt_group, hlt, h.found, ?_,
      hshift (q + 1) ▸ h.searched, hshift q ▸ h.first⟩
    rintro (_ | i) hi
    · rw [show min (lo + g) n = lo + g by omega] at hlast
      simpa using lt_of_not_ge hlast
    · rw [← hshift]
      exact h.skipped i (by omega)
  · intro h
    refine ⟨(hshift q).symm ▸ h.group_le, (hshift (q + 1)).symm ▸ h.lt_group, h.lt, h.found,
      fun i hi => ?_, (hshift (q + 1)).symm ▸ h.searched, (hshift q).symm ▸ h.first⟩
    rw [hshift]
    exact h.skipped (i + 1) (by omega)

theorem scan_eq_some_iff :
    scan key t n g hg lo = some k ↔ ∃ q, StopsIn key t n g lo q k := by
  induction lo using scan.induct key t n g hg with
  | case1 lo hlo hlast =>
    have hlater : ∀ q, ¬ StopsIn key t n g lo (q + 1) k := by
      intro q h
      have hgroup := h.group_le
      have hlt := h.lt
      have hskip := h.skipped 0 (Nat.succ_pos q)
      rw [Nat.mul_succ] at hgroup
      rw [Nat.zero_add, Nat.mul_one, ← show min (lo + g) n = lo + g by omega] at hskip
      exact absurd hlast (not_le_of_gt hskip)
    have hfind : (List.range' lo (min (lo + g) n - lo)).find? (fun i => key i = t) = some k ↔
        StopsIn key t n g lo 0 k := by
      rw [stopsIn_zero_iff, and_iff_right hlast, List.find?_range'_eq_some,
        List.mem_range'_1, Nat.add_sub_cancel' (by omega)]
      simp
    rw [scan_hit hlo hlast, hfind]
    constructor
    · intro h
      exact ⟨0, h⟩
    · rintro ⟨_ | q, h⟩
      · exact h
      · exact absurd h (hlater q)
  | case2 lo hlo hlast ih =>
    rw [scan_skip hlo hlast, ih]
    simp only [stopsIn_shift_iff hlast]
    constructor
    · rintro ⟨q, h⟩
      exact ⟨q + 1, h⟩
    · rintro ⟨_ | q, h⟩
      · exact absurd (stopsIn_zero_iff.mp h).1 hlast
      · exact ⟨q, h⟩
  | case3 lo hlo =>
    rw [scan_end hlo]
    refine iff_of_false (by simp) ?_
    rintro ⟨q, h⟩
    have hgroup := h.group_le
    have hlt := h.lt
    omega

/-- What is found has the key searched for, and every group wholly before it
ends below that key. -/
theorem scan_some (h : scan key t n g hg lo = some k) :
    key k = t ∧ lo ≤ k ∧ k < n ∧
      ∀ i, lo + g * (i + 1) ≤ k → key (lo + g * (i + 1) - 1) < t := by
  obtain ⟨q, hstop⟩ := scan_eq_some_iff.mp h
  have hgroup := hstop.group_le
  have hend := hstop.lt_group
  refine ⟨hstop.found, by omega, hstop.lt, fun i hi => hstop.skipped i ?_⟩
  by_contra hge
  have hmono : g * (q + 1) ≤ g * (i + 1) := Nat.mul_le_mul_left g (by omega)
  omega

/-- When no group ends at or above the target, nothing is found. -/
theorem scan_none_of_last_lt
    (h : ∀ i, lo + g * i < n → key (min (lo + g * i + g) n - 1) < t) :
    scan key t n g hg lo = none := by
  induction lo using scan.induct key t n g hg with
  | case1 lo hlo hlast =>
    have hfirst := h 0 (by simpa using hlo)
    exact absurd hlast (not_le_of_gt (by simpa using hfirst))
  | case2 lo hlo hlast ih =>
    rw [scan_skip hlo hlast]
    refine ih (fun i hi => ?_)
    have hnext := h (i + 1) (by rw [Nat.mul_succ]; omega)
    rwa [Nat.mul_succ, show lo + (g * i + g) + g = lo + g + g * i + g by omega] at hnext
  | case3 lo hlo => exact scan_end hlo

/-- A first group that ends at or above the target and does not hold it hides
every later key. -/
theorem scan_none_of_head (hlast : t ≤ key (min (lo + g) n - 1))
    (hmiss : ∀ k, lo ≤ k → k < lo + g → k < n → key k ≠ t) :
    scan key t n g hg lo = none := by
  by_cases hlo : lo < n
  · rw [scan_hit hlo hlast, List.find?_eq_none]
    intro k hk
    have hk := List.mem_range'_1.mp hk
    simpa using hmiss k hk.1 (by omega) (by omega)
  · exact scan_end hlo

theorem scan_of_strictMono (hmono : ∀ i j, lo ≤ i → i < j → j < n → key i < key j)
    (hle : lo ≤ k) (hlt : k < n) (hkey : key k = t) : scan key t n g hg lo = some k := by
  induction lo using scan.induct key t n g hg with
  | case1 lo hlo hlast =>
    have hin : k < min (lo + g) n := by
      by_contra hout
      have := hmono (min (lo + g) n - 1) k (by omega) (by omega) hlt
      exact absurd hlast (not_le_of_gt (hkey ▸ this))
    rw [scan_hit hlo hlast, List.find?_range'_eq_some, List.mem_range'_1]
    refine ⟨decide_eq_true hkey, ⟨hle, by omega⟩, fun j hj hjk => ?_⟩
    simp [ne_of_lt (hkey ▸ hmono j k hj hjk hlt)]
  | case2 lo hlo hlast ih =>
    have hout : lo + g ≤ k := by
      by_contra hin
      apply hlast
      rcases Nat.lt_or_ge k (min (lo + g) n - 1) with hk | hk
      · exact le_of_lt (hkey ▸ hmono k _ hle hk (by omega))
      · rw [show min (lo + g) n - 1 = k by omega, hkey]
    rw [scan_skip hlo hlast]
    exact ih (fun i j hi hij hj => hmono i j (by omega) hij hj) hout
  | case3 lo hlo => omega

/-- On keys that do not decrease every key is found, if not where it was sought. -/
theorem scan_of_monotone (hmono : ∀ i j, lo ≤ i → i ≤ j → j < n → key i ≤ key j)
    (hle : lo ≤ k) (hlt : k < n) (hkey : key k = t) : ∃ k', scan key t n g hg lo = some k' := by
  induction lo using scan.induct key t n g hg with
  | case1 lo hlo hlast =>
    have hfind : ((List.range' lo (min (lo + g) n - lo)).find? (fun i => key i = t)).isSome := by
      rw [List.find?_isSome]
      rcases Nat.lt_or_ge k (min (lo + g) n) with hin | hout
      · exact ⟨k, List.mem_range'_1.mpr ⟨hle, by omega⟩, decide_eq_true hkey⟩
      · have hge := hmono (min (lo + g) n - 1) k (by omega) (by omega) hlt
        have heq := le_antisymm (hkey ▸ hge) hlast
        exact ⟨min (lo + g) n - 1, List.mem_range'_1.mpr ⟨by omega, by omega⟩,
          decide_eq_true heq⟩
    rw [scan_hit hlo hlast]
    exact Option.isSome_iff_exists.mp hfind
  | case2 lo hlo hlast ih =>
    have hout : lo + g ≤ k := by
      by_contra hin
      apply hlast
      rcases Nat.lt_or_ge k (min (lo + g) n - 1) with hk | hk
      · exact hkey ▸ hmono k _ hle (Nat.le_of_lt hk) (by omega)
      · rw [show min (lo + g) n - 1 = k by omega, hkey]
    rw [scan_skip hlo hlast]
    exact ih (fun i j hi hij hj => hmono i j (by omega) hij hj) hout
  | case3 lo hlo => omega

end GroupScan
