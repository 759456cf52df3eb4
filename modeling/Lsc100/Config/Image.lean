import Mathlib.Data.Fintype.Basic
import Mathlib.Tactic.FinCases
import Mathlib.Tactic.IntervalCases
import Lsc100.Basis.Bytes
import Lsc100.Config

/-! `ConfigInfo_t` as it lies in memory and in the EEPROM: 86 packed bytes, numbers
with their low byte first. -/

namespace Lsc100

open Bytes

def configInfoSize : Nat := 86

def DevCalFlag.byte : DevCalFlag → UInt8
  | .devCalDef => 0
  | .devCalStr => 1
  | .devCalEnd => 2
  | .other b _ => b

def DevCalFlag.ofByte (b : UInt8) : DevCalFlag :=
  if h : 2 < b then .other b h
  else if b = 2 then .devCalEnd
  else if b = 1 then .devCalStr
  else .devCalDef

@[simp] theorem DevCalFlag.ofByte_byte (f : DevCalFlag) : ofByte f.byte = f := by
  cases f with
  | other b h => exact dif_pos h
  | _ => rfl

@[simp] theorem DevCalFlag.byte_ofByte (b : UInt8) : (ofByte b).byte = b := by
  rw [ofByte]
  by_cases hother : 2 < b
  · rw [dif_pos hother, byte]
  · rw [dif_neg hother]
    have hsmall : b.toNat ≤ 2 := Nat.le_of_not_lt fun h => hother (UInt8.lt_iff_toNat_lt.mpr h)
    by_cases htwo : b = 2
    · rw [if_pos htwo, byte, htwo]
    · rw [if_neg htwo]
      by_cases hone : b = 1
      · rw [if_pos hone, byte, hone]
      · rw [if_neg hone, byte]
        rw [← UInt8.toNat_inj] at htwo hone ⊢
        simp only [UInt8.reduceToNat] at htwo hone ⊢
        omega

namespace ConfigInfo

def words (c : ConfigInfo) : List UInt32 :=
  [c.fVmax, c.fVmin, c.fCmax, c.fCmin, c.rVmax, c.rVmin, c.rCmax, c.rCmin,
    c.fVbias0, c.fCbias0, c.rVbias0, c.rCbias0, c.fVgain, c.fCgain, c.rVgain, c.rCgain]

def image (c : ConfigInfo) (k : Nat) : UInt8 :=
  if k < 3 then c.hw ⟨k % 3, Nat.mod_lt _ (by decide)⟩
  else if k < 6 then c.sw ⟨k % 3, Nat.mod_lt _ (by decide)⟩
  else if k < 7 then c.flag
  else if k < 71 then byteOf (c.words.getD ((k - 7) / 4) 0).toNat ((k - 7) % 4)
  else if k < 72 then c.calFlag.byte
  else if k < 74 then byteOf c.alarmNum.toNat (k - 72)
  else if k < 76 then byteOf c.blockNum.toNat (k - 74)
  else if k < 78 then byteOf c.currBlock.toNat (k - 76)
  else if k < 82 then byteOf c.strTime.toNat (k - 78)
  else byteOf c.endTime.toNat (k - 82)

def numAt (b : Nat → UInt8) (n a : Nat) : Nat := leNat n fun i => b (a + i)

def wordAt (b : Nat → UInt8) (a : Nat) : UInt32 := UInt32.ofNat (numAt b 4 a)

def halfAt (b : Nat → UInt8) (a : Nat) : UInt16 := UInt16.ofNat (numAt b 2 a)

def ofImage (b : Nat → UInt8) : ConfigInfo where
  hw i := b i
  sw i := b (3 + i)
  flag := b 6
  fVmax := wordAt b 7
  fVmin := wordAt b 11
  fCmax := wordAt b 15
  fCmin := wordAt b 19
  rVmax := wordAt b 23
  rVmin := wordAt b 27
  rCmax := wordAt b 31
  rCmin := wordAt b 35
  fVbias0 := wordAt b 39
  fCbias0 := wordAt b 43
  rVbias0 := wordAt b 47
  rCbias0 := wordAt b 51
  fVgain := wordAt b 55
  fCgain := wordAt b 59
  rVgain := wordAt b 63
  rCgain := wordAt b 67
  calFlag := .ofByte (b 71)
  alarmNum := halfAt b 72
  blockNum := halfAt b 74
  currBlock := halfAt b 76
  strTime := wordAt b 78
  endTime := wordAt b 82

section Codec

variable (c : ConfigInfo) {b b' : Nat → UInt8} {a i k : Nat}

theorem halfAt_eq {x : UInt16} (h : ∀ i < 2, b (a + i) = byteOf x.toNat i) : halfAt b a = x := by
  have hlt : x.toNat < 256 ^ 2 := x.toNat_lt
  rw [halfAt, numAt, leNat_congr h, leNat_byteOf, Nat.mod_eq_of_lt hlt, UInt16.ofNat_toNat]

theorem wordAt_eq {x : UInt32} (h : ∀ i < 4, b (a + i) = byteOf x.toNat i) : wordAt b a = x := by
  have hlt : x.toNat < 256 ^ 4 := x.toNat_lt
  rw [wordAt, numAt, leNat_congr h, leNat_byteOf, Nat.mod_eq_of_lt hlt, UInt32.ofNat_toNat]

theorem byteOf_halfAt (hi : i < 2) : byteOf (halfAt b a).toNat i = b (a + i) := by
  have hlt : numAt b 2 a < 2 ^ 16 := leNat_lt 2 _
  rw [halfAt, UInt16.toNat_ofNat', Nat.mod_eq_of_lt hlt]
  exact byteOf_leNat 2 (fun i => b (a + i)) hi

theorem byteOf_wordAt (hi : i < 4) : byteOf (wordAt b a).toNat i = b (a + i) := by
  have hlt : numAt b 4 a < 2 ^ 32 := leNat_lt 4 _
  rw [wordAt, UInt32.toNat_ofNat', Nat.mod_eq_of_lt hlt]
  exact byteOf_leNat 4 (fun i => b (a + i)) hi

@[simp] theorem image_flag : c.image 6 = c.flag := rfl

@[simp] theorem image_calFlag : c.image 71 = c.calFlag.byte := rfl

@[simp] theorem ofImage_image : ofImage c.image = c := by
  have hword : ∀ j < 16, wordAt c.image (7 + 4 * j) = c.words.getD j 0 := fun j hj =>
    wordAt_eq fun i hi => by
      rw [image, if_neg (by omega), if_neg (by omega), if_neg (by omega), if_pos (by omega),
        show (7 + 4 * j + i - 7) / 4 = j by omega, show (7 + 4 * j + i - 7) % 4 = i by omega]
  have hhw : (fun i : Fin 3 => c.image i) = c.hw := by
    funext i
    fin_cases i <;> rfl
  have hsw : (fun i : Fin 3 => c.image (3 + i)) = c.sw := by
    funext i
    fin_cases i <;> rfl
  have halarm : halfAt c.image 72 = c.alarmNum := halfAt_eq fun i hi => by
    interval_cases i <;> rfl
  have hblock : halfAt c.image 74 = c.blockNum := halfAt_eq fun i hi => by
    interval_cases i <;> rfl
  have hcurr : halfAt c.image 76 = c.currBlock := halfAt_eq fun i hi => by
    interval_cases i <;> rfl
  have hstr : wordAt c.image 78 = c.strTime := wordAt_eq fun i hi => by
    interval_cases i <;> rfl
  have hend : wordAt c.image 82 = c.endTime := wordAt_eq fun i hi => by
    interval_cases i <;> rfl
  rw [ofImage, hhw, hsw, halarm, hblock, hcurr, hstr, hend, image_calFlag,
    DevCalFlag.ofByte_byte, hword 0 (by decide), hword 1 (by decide), hword 2 (by decide),
    hword 3 (by decide), hword 4 (by decide), hword 5 (by decide), hword 6 (by decide),
    hword 7 (by decide), hword 8 (by decide), hword 9 (by decide), hword 10 (by decide),
    hword 11 (by decide), hword 12 (by decide), hword 13 (by decide), hword 14 (by decide),
    hword 15 (by decide)]
  rfl

theorem words_ofImage {j : Nat} (hj : j < 16) :
    (ofImage b).words.getD j 0 = wordAt b (7 + 4 * j) := by
  interval_cases j <;> rfl

theorem image_ofImage (hk : k < configInfoSize) : (ofImage b).image k = b k := by
  rw [configInfoSize] at hk
  rw [image]
  split_ifs with h₁ h₂ h₃ h₄ h₅ h₆ h₇ h₈ h₉
  · exact congrArg b (Nat.mod_eq_of_lt h₁)
  · exact congrArg b (by simp only; omega)
  · exact congrArg b (by omega)
  · rw [words_ofImage (by omega), byteOf_wordAt (Nat.mod_lt _ (by decide))]
    exact congrArg b (by omega)
  · rw [show k = 71 by omega]
    exact DevCalFlag.byte_ofByte (b 71)
  · exact (byteOf_halfAt (by omega)).trans (congrArg b (by omega))
  · exact (byteOf_halfAt (by omega)).trans (congrArg b (by omega))
  · exact (byteOf_halfAt (by omega)).trans (congrArg b (by omega))
  · exact (byteOf_wordAt (by omega)).trans (congrArg b (by omega))
  · exact (byteOf_wordAt (by omega)).trans (congrArg b (by omega))

theorem ofImage_congr (h : ∀ k < configInfoSize, b k = b' k) : ofImage b = ofImage b' := by
  have hword : ∀ a, a + 4 ≤ configInfoSize → wordAt b a = wordAt b' a := fun a ha =>
    congrArg UInt32.ofNat (leNat_congr fun i hi => h _ (by omega))
  have hhalf : ∀ a, a + 2 ≤ configInfoSize → halfAt b a = halfAt b' a := fun a ha =>
    congrArg UInt16.ofNat (leNat_congr fun i hi => h _ (by omega))
  have hhw : (fun i : Fin 3 => b i) = fun i : Fin 3 => b' i :=
    funext fun i => h _ (by rw [configInfoSize]; omega)
  have hsw : (fun i : Fin 3 => b (3 + i)) = fun i : Fin 3 => b' (3 + i) :=
    funext fun i => h _ (by rw [configInfoSize]; omega)
  simp (disch := decide) only [ofImage, hhw, hsw, h 6, h 71, hword, hhalf]

theorem eq_of_image {c c' : ConfigInfo} (h : ∀ k < configInfoSize, c.image k = c'.image k) :
    c = c' := by
  rw [← ofImage_image c, ← ofImage_image c', ofImage_congr h]

end Codec

end ConfigInfo

end Lsc100
