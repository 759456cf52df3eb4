import Mathlib.Tactic.Ring

/-! Numbers as bytes in memory: little-endian storage, big-endian wire order. -/

namespace Bytes

/-- The byte of weight `256 ^ k`. -/
def byteOf (x k : Nat) : UInt8 := UInt8.ofNat (x / 256 ^ k)

/-- The number whose little-endian bytes are `b 0 .. b n`. -/
def leNat : Nat → (Nat → UInt8) → Nat
  | 0, _ => 0
  | n + 1, b => (b 0).toNat + 256 * leNat n (fun i => b (i + 1))

/-- The number whose big-endian bytes are `b 0 .. b n`. -/
def beNat (n : Nat) (b : Nat → UInt8) : Nat := leNat n (fun i => b (n - 1 - i))

theorem leNat_byteOf (n x : Nat) : leNat n (byteOf x) = x % 256 ^ n := by
  induction n generalizing x with
  | zero => simp [leNat, Nat.mod_one]
  | succ n ih =>
    have hshift : (fun i => byteOf x (i + 1)) = byteOf (x / 256) := by
      funext i
      simp [byteOf, Nat.pow_succ', Nat.div_div_eq_div_mul]
    rw [leNat, hshift, ih, Nat.pow_succ', Nat.mod_mul]
    simp [byteOf]

theorem leNat_congr {n : Nat} {b c : Nat → UInt8} (h : ∀ i < n, b i = c i) :
    leNat n b = leNat n c := by
  induction n generalizing b c with
  | zero => rfl
  | succ n ih =>
    rw [leNat, leNat, h 0 (by omega), ih (fun i hi => h (i + 1) (by omega))]

@[simp] theorem leNat_zero (n : Nat) : leNat n (fun _ => 0) = 0 := by
  induction n with
  | zero => rfl
  | succ n ih => simp [leNat, ih]

theorem leNat_lt (n : Nat) (b : Nat → UInt8) : leNat n b < 256 ^ n := by
  induction n generalizing b with
  | zero => simp [leNat]
  | succ n ih =>
    have h₀ := (b 0).toNat_lt
    have h₁ := ih (fun i => b (i + 1))
    rw [leNat, Nat.pow_succ']
    omega

theorem byteOf_leNat (n : Nat) (b : Nat → UInt8) {k : Nat} (hk : k < n) :
    byteOf (leNat n b) k = b k := by
  induction n generalizing b k with
  | zero => exact absurd hk (Nat.not_lt_zero k)
  | succ n ih =>
    have hlt := (b 0).toNat_lt
    cases k with
    | zero =>
      rw [byteOf, leNat, Nat.pow_zero, Nat.div_one, ← UInt8.toNat_inj, UInt8.toNat_ofNat']
      omega
    | succ k =>
      have hdiv : leNat (n + 1) b / 256 ^ (k + 1) = leNat n (fun i => b (i + 1)) / 256 ^ k := by
        rw [leNat, Nat.pow_succ', ← Nat.div_div_eq_div_mul]
        congr 1
        omega
      rw [byteOf, hdiv]
      exact ih (fun i => b (i + 1)) (by omega)

theorem beNat_byteOf (n x : Nat) :
    beNat n (fun i => byteOf x (n - 1 - i)) = x % 256 ^ n := by
  rw [← leNat_byteOf, beNat]
  apply leNat_congr
  intro i hi
  congr 1
  omega

end Bytes
