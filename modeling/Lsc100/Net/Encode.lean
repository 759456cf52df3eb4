import Mathlib.Algebra.Order.Ring.Nat
import Lsc100.Net.Bounds

/-! The macros that swap the bytes of a wide field: storing what they give lays the number
out with its most significant byte first, and applied to such bytes they give it back. -/

namespace Lsc100

open Bytes

/-- `QW_HConvert` of the eight bytes at `b`. -/
def qwHConvert (b : Nat → UInt8) : UInt64 :=
  (dwHConvert b).toUInt64 <<< 32 ||| (dwHConvert fun k => b (k + 4)).toUInt64

/-- A field after `x = DW_HConvert(&x)`. -/
def dwStore (x : UInt32) : List UInt8 := leBytes 4 (dwHConvert (byteOf x.toNat)).toNat

def qwStore (x : UInt64) : List UInt8 := leBytes 8 (qwHConvert (byteOf x.toNat)).toNat

@[simp] theorem length_leBytes (n x : Nat) : (leBytes n x).length = n := by simp [leBytes]

theorem length_dwStore (x : UInt32) : (dwStore x).length = 4 := length_leBytes ..

theorem leBytes_beNat (n : Nat) (b : Nat → UInt8) :
    leBytes n (beNat n b) = (List.range n).map fun i => b (n - 1 - i) := by
  rw [leBytes, beNat]
  exact List.map_congr_left fun i hi => byteOf_leNat n _ (List.mem_range.mp hi)

theorem toNat_dwHConvert (b : Nat → UInt8) : (dwHConvert b).toNat = beNat 4 b :=
  UInt32.toNat_ofNat_of_lt (leNat_lt 4 _)

theorem dwStore_eq (x : UInt32) : dwStore x = beBytes 4 x.toNat := by
  rw [dwStore, toNat_dwHConvert]
  exact leBytes_beNat 4 _

theorem beNat_eight (b : Nat → UInt8) :
    beNat 8 b = beNat 4 b * 2 ^ 32 + beNat 4 fun k => b (k + 4) := by
  simp only [beNat, leNat, Nat.reduceAdd, Nat.reduceSub]
  ring

theorem toNat_qwHConvert (b : Nat → UInt8) : (qwHConvert b).toNat = beNat 8 b := by
  have hhigh : beNat 4 b < 2 ^ 32 := leNat_lt 4 _
  have hlow : beNat 4 (fun k => b (k + 4)) < 2 ^ 32 := leNat_lt 4 _
  have hshift : ((dwHConvert b).toUInt64 <<< 32).toNat = beNat 4 b * 2 ^ 32 := by
    have hcount : (32 : UInt64).toNat % 64 = 32 := rfl
    rw [UInt64.toNat_shiftLeft, UInt32.toNat_toUInt64, toNat_dwHConvert, Nat.shiftLeft_eq, hcount]
    exact Nat.mod_eq_of_lt (by omega)
  rw [qwHConvert, UInt64.toNat_or, hshift, UInt32.toNat_toUInt64, toNat_dwHConvert, beNat_eight,
    Nat.mul_comm]
  exact (Nat.two_pow_add_eq_or_of_lt hlow _).symm

theorem qwStore_eq (x : UInt64) : qwStore x = beBytes 8 x.toNat := by
  rw [qwStore, toNat_qwHConvert]
  exact leBytes_beNat 8 _

theorem beNat_congr {n : Nat} {b c : Nat → UInt8} (h : ∀ i < n, b i = c i) :
    beNat n b = beNat n c :=
  leNat_congr fun i _ => h (n - 1 - i) (by omega)

theorem beNat_beBytes {n : Nat} {b : Nat → UInt8} {x : Nat}
    (h : ∀ i < n, b i = memoryOf (beBytes n x) i) : beNat n b = x % 256 ^ n := by
  rw [← beNat_byteOf]
  refine beNat_congr fun i hi => (h i hi).trans ?_
  simp [memoryOf, beBytes, List.getD_eq_getElem?_getD, hi]

theorem ofNat_hConvert {b : Nat → UInt8} {x : Nat}
    (h : ∀ i < 2, b i = memoryOf (beBytes 2 x) i) : UInt16.ofNat (hConvert b) = .ofNat x := by
  rw [hConvert, beNat_beBytes h]
  exact UInt16.ofNat_mod_size

theorem dwHConvert_eq {b : Nat → UInt8} {x : UInt32}
    (h : ∀ i < 4, b i = memoryOf (beBytes 4 x.toNat) i) : dwHConvert b = x := by
  rw [← UInt32.toNat_inj, toNat_dwHConvert, beNat_beBytes h]
  exact Nat.mod_eq_of_lt x.toNat_lt

theorem qwHConvert_eq {b : Nat → UInt8} {x : UInt64}
    (h : ∀ i < 8, b i = memoryOf (beBytes 8 x.toNat) i) : qwHConvert b = x := by
  rw [← UInt64.toNat_inj, toNat_qwHConvert, beNat_beBytes h]
  exact Nat.mod_eq_of_lt x.toNat_lt

/-- Byte `k` of the piece of the `i`th element, all pieces being of one length. -/
theorem memoryOf_flatMap {α : Type*} {l : List α} {f : α → List UInt8} {n : Nat}
    (hf : ∀ a, (f a).length = n) {i k : Nat} {a : α} (hi : l[i]? = some a) (hk : k < n) :
    memoryOf (l.flatMap f) (n * i + k) = memoryOf (f a) k := by
  induction l generalizing i with
  | nil => cases hi
  | cons x l ih =>
    rw [List.flatMap_cons]
    cases i with
    | zero =>
      obtain rfl := Option.some.inj hi
      rw [Nat.mul_zero, Nat.zero_add, memoryOf_append_left _ ((hf x).symm ▸ hk)]
    | succ i =>
      have hskip : n * (i + 1) + k = (f x).length + (n * i + k) := by
        rw [hf, Nat.mul_succ]
        omega
      rw [hskip, memoryOf_append_right, ih (i := i) hi]

theorem length_flatMap {α : Type*} (l : List α) {f : α → List UInt8} {n : Nat}
    (hf : ∀ a, (f a).length = n) : (l.flatMap f).length = n * l.length := by
  simp [List.length_flatMap, hf, Nat.mul_comm]

theorem memoryOf_middle (a b c : List UInt8) {k : Nat} (hk : k < b.length) :
    memoryOf (a ++ b ++ c) (a.length + k) = memoryOf b k := by
  rw [List.append_assoc, memoryOf_append_right, memoryOf_append_left c hk]

theorem memoryOf_msgFram (len : Nat) (sign : UInt8) {payload : List UInt8} {k : Nat}
    (hk : k < payload.length) : memoryOf (msgFram len sign payload) (5 + k) = memoryOf payload k :=
  memoryOf_middle (beBytes 2 msgDataFramHdr ++ beBytes 2 len ++ [sign]) payload _ hk

end Lsc100
