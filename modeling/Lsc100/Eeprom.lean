import Mathlib.Logic.Function.Basic
import Lsc100.Basis.Overlay

/-! The FM24C02 EEPROM with the transfers of `BSP_FM24C02.c`. The outcomes of the
bus operations of a read, and the page write at which the power fails, are
arguments. -/

namespace Lsc100

open Overlay

/-- How the bus operations of a read end; `recvByte i` is the one for byte `i`. -/
structure I2cRead where
  startAddrWrite : Bool
  sendByteWait : Bool
  startAddrRead : Bool
  recvByte : Nat → Bool

/-- The bus delivers the first `n` bytes. -/
def I2cRead.Delivers (i2c : I2cRead) (n : Nat) : Prop :=
  i2c.startAddrWrite = true ∧ i2c.sendByteWait = true ∧ i2c.startAddrRead = true ∧
    ∀ i < n, i2c.recvByte i = true

/-- The inner loop of `fm24c_read`, `chunk` bytes being left. -/
def recvBytes (recvByte : Nat → Bool) (cells : Nat → UInt8) (addr : Nat) :
    Nat → Nat → (Nat → UInt8) → Bool × (Nat → UInt8)
  | 0, _, buf => (true, buf)
  | chunk + 1, i, buf =>
    if recvByte i then
      recvBytes recvByte cells addr chunk (i + 1) (Function.update buf i (cells (addr + i)))
    else (false, buf)

/-- A read that fails leaves the bytes received so far in `buf`. -/
def fm24cRead (i2c : I2cRead) (cells : Nat → UInt8) (addr : Nat) (buf : Nat → UInt8) (len : Nat) :
    Bool × (Nat → UInt8) :=
  if len = 0 then (false, buf)
  else if i2c.startAddrWrite = false then (false, buf)
  else if i2c.sendByteWait = false then (false, buf)
  else if i2c.startAddrRead = false then (false, buf)
  else recvBytes i2c.recvByte cells addr len 0 buf

def fm24cPageSize : Nat := 16

/-- The page loop of `fm24c_write`; the power fails after `pages` page writes. -/
def fm24cWrite (cells : Nat → UInt8) (addr : Nat) (data : Nat → UInt8) (len : Nat) :
    Nat → Nat → UInt8
  | 0 => cells
  | pages + 1 =>
    if 0 < len then
      let space := fm24cPageSize - addr % fm24cPageSize
      let chunk := if len < space then len else space
      fm24cWrite (overlay (fun _ x => x) cells addr chunk data) (addr + chunk)
        (fun i => data (chunk + i)) (len - chunk) pages
    else cells

theorem recvBytes_fst (recvByte : Nat → Bool) (cells : Nat → UInt8) (addr chunk i : Nat)
    (buf : Nat → UInt8) :
    (recvBytes recvByte cells addr chunk i buf).1 = true ↔ ∀ j < chunk, recvByte (i + j) = true := by
  induction chunk generalizing i buf with
  | zero => exact iff_of_true rfl fun j hj => absurd hj (Nat.not_lt_zero j)
  | succ chunk ih =>
    rw [recvBytes]
    cases hrecv : recvByte i with
    | false =>
      refine iff_of_false Bool.false_ne_true fun hall => ?_
      exact absurd (hrecv.symm.trans (hall 0 (Nat.succ_pos chunk))) (by decide)
    | true =>
      rw [if_pos rfl, ih]
      constructor
      · intro hall j hj
        cases j with
        | zero => exact hrecv
        | succ j =>
          have hnext := hall j (by omega)
          rwa [show i + (j + 1) = i + 1 + j by omega]
      · intro hall j hj
        have hnext := hall (j + 1) (by omega)
        rwa [show i + 1 + j = i + (j + 1) by omega]

theorem recvBytes_snd (recvByte : Nat → Bool) (cells : Nat → UInt8) (addr chunk i : Nat)
    (buf : Nat → UInt8) {x : Nat} :
    ((i ≤ x ∧ x < i + chunk ∧ ∀ j, i ≤ j → j ≤ x → recvByte j = true) →
      (recvBytes recvByte cells addr chunk i buf).2 x = cells (addr + x)) ∧
    (¬ (i ≤ x ∧ x < i + chunk ∧ ∀ j, i ≤ j → j ≤ x → recvByte j = true) →
      (recvBytes recvByte cells addr chunk i buf).2 x = buf x) := by
  induction chunk generalizing i buf with
  | zero => exact ⟨fun h => by omega, fun _ => rfl⟩
  | succ chunk ih =>
    rw [recvBytes]
    cases hrecv : recvByte i with
    | false =>
      refine ⟨fun h => ?_, fun _ => rfl⟩
      exact absurd (hrecv.symm.trans (h.2.2 i (Nat.le_refl i) h.1)) (by decide)
    | true =>
      rw [if_pos rfl]
      obtain ⟨hin, hout⟩ := ih (i + 1) (Function.update buf i (cells (addr + i)))
      by_cases hx : x = i
      · subst hx
        have hsame := hout (by omega)
        rw [Function.update_self] at hsame
        refine ⟨fun _ => hsame, fun hnot => absurd ⟨Nat.le_refl x, by omega, fun j hj hj' => ?_⟩ hnot⟩
        rwa [show j = x by omega]
      · rw [Function.update_of_ne hx] at hout
        refine ⟨fun h => hin ⟨by omega, by omega, fun j hj => h.2.2 j (by omega)⟩, fun hnot => ?_⟩
        refine hout fun h => hnot ⟨by omega, by omega, fun j hj hjx => ?_⟩
        rcases Nat.lt_or_eq_of_le hj with hlt | heq
        · exact h.2.2 j hlt hjx
        · rwa [← heq]

section Read

variable {i2c : I2cRead} {cells buf : Nat → UInt8} {addr len x : Nat}

theorem fm24cRead_eq (hlen : 0 < len) (haddr : i2c.Delivers 0) :
    fm24cRead i2c cells addr buf len = recvBytes i2c.recvByte cells addr len 0 buf := by
  obtain ⟨hwrite, hsend, hread, -⟩ := haddr
  rw [fm24cRead, if_neg (by omega), if_neg (by simp [hwrite]), if_neg (by simp [hsend]),
    if_neg (by simp [hread])]

theorem fm24cRead_failed (haddr : ¬ i2c.Delivers 0) :
    fm24cRead i2c cells addr buf len = (false, buf) := by
  rw [fm24cRead]
  by_cases hlen : len = 0
  · rw [if_pos hlen]
  · rw [if_neg hlen]
    by_cases hwrite : i2c.startAddrWrite = false
    · rw [if_pos hwrite]
    · rw [if_neg hwrite]
      by_cases hsend : i2c.sendByteWait = false
      · rw [if_pos hsend]
      · rw [if_neg hsend]
        by_cases hread : i2c.startAddrRead = false
        · rw [if_pos hread]
        · refine absurd ⟨?_, ?_, ?_, fun i hi => absurd hi (Nat.not_lt_zero i)⟩ haddr
          all_goals simp_all

theorem I2cRead.Delivers.mono {n k : Nat} (h : i2c.Delivers n) (hk : k ≤ n) : i2c.Delivers k :=
  ⟨h.1, h.2.1, h.2.2.1, fun i hi => h.2.2.2 i (Nat.lt_of_lt_of_le hi hk)⟩

/-- The read succeeds exactly if the bus delivers all the bytes. -/
theorem fm24cRead_ok (hlen : 0 < len) :
    (fm24cRead i2c cells addr buf len).1 = true ↔ i2c.Delivers len := by
  by_cases haddr : i2c.Delivers 0
  · rw [fm24cRead_eq hlen haddr, recvBytes_fst]
    simp only [Nat.zero_add]
    exact ⟨fun h => ⟨haddr.1, haddr.2.1, haddr.2.2.1, h⟩, fun h => h.2.2.2⟩
  · rw [fm24cRead_failed haddr]
    exact iff_of_false Bool.false_ne_true fun h => haddr (h.mono (Nat.zero_le len))

theorem fm24cRead_delivered (hx : x < len) (h : i2c.Delivers (x + 1)) :
    (fm24cRead i2c cells addr buf len).2 x = cells (addr + x) := by
  rw [fm24cRead_eq (by omega) (h.mono (Nat.zero_le _))]
  refine (recvBytes_snd ..).1 ⟨Nat.zero_le x, by omega, fun j _ hj => ?_⟩
  exact h.2.2.2 j (by omega)

theorem fm24cRead_missing (h : ¬ i2c.Delivers (x + 1)) :
    (fm24cRead i2c cells addr buf len).2 x = buf x := by
  by_cases haddr : i2c.Delivers 0
  · rcases Nat.eq_zero_or_pos len with hz | hlen
    · rw [fm24cRead, if_pos hz]
    · rw [fm24cRead_eq hlen haddr]
      refine (recvBytes_snd ..).2 fun hin => h ⟨haddr.1, haddr.2.1, haddr.2.2.1, fun i hi => ?_⟩
      exact hin.2.2 i (Nat.zero_le i) (by omega)
  · rw [fm24cRead_failed haddr]

end Read

/-- From a page boundary on, `pages` page writes store as many full pages, or
what there is to store. -/
theorem fm24cWrite_eq (cells : Nat → UInt8) {addr : Nat} (haddr : addr % 16 = 0)
    (data : Nat → UInt8) (len pages : Nat) :
    fm24cWrite cells addr data len pages =
      overlay (fun _ x => x) cells addr (min (16 * pages) len) data := by
  induction pages generalizing cells addr data len with
  | zero => rw [fm24cWrite, Nat.mul_zero, Nat.zero_min, overlay_zero]
  | succ pages ih =>
    rw [fm24cWrite]
    by_cases hlen : 0 < len
    · simp only [if_pos hlen, fm24cPageSize, haddr, Nat.sub_zero]
      by_cases hshort : len < 16
      · have hnone : fm24cWrite (overlay (fun _ x => x) cells addr len data) (addr + len)
            (fun i => data (len + i)) (len - len) pages =
            overlay (fun _ x => x) cells addr len data := by
          cases pages with
          | zero => rfl
          | succ pages => rw [fm24cWrite, if_neg (by omega)]
        rw [if_pos hshort, hnone, Nat.min_eq_right (by omega)]
      · rw [if_neg hshort, ih _ (by omega)]
        have hsplit := overlay_split (fun _ x => x) cells (a := addr)
          (n := min (16 * (pages + 1)) len) data 16 (by omega)
        rw [← hsplit]
        congr 1
        omega
    · rw [if_neg hlen, show len = 0 by omega, Nat.min_zero, overlay_zero]

end Lsc100
