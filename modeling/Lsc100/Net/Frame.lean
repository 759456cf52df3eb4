import Mathlib.Data.List.Basic
import Lsc100.Basis.Bytes

/-! The frames of `msg_parse.h`: two bytes 0xAA, the length of the whole frame,
the sign, the payload, and the 16-bit sum of all bytes before it. Numbers are
sent with the most significant byte first. -/

namespace Lsc100

open Bytes

def msgDataFramHdr : Nat := 0xAAAA
def msgDataFramCrcSize : Nat := 2

/-- `HConvert` of the two bytes at `b`. -/
def hConvert (b : Nat → UInt8) : Nat := beNat 2 b

/-- `buf` may be read beyond the array it starts in. -/
def checkSum8 (buf : Nat → UInt8) (len : Nat) : UInt16 :=
  (List.range len).foldl (fun ret i => ret + (buf i).toUInt16) 0

def beBytes (n x : Nat) : List UInt8 := (List.range n).map fun i => byteOf x (n - 1 - i)

/-- The memory in which `bytes` lie at the start and zeros behind. -/
def memoryOf (bytes : List UInt8) (i : Nat) : UInt8 := bytes.getD i 0

/-- Header, payload and checksum, `len` being the length that is announced. -/
def msgFram (len : Nat) (sign : UInt8) (payload : List UInt8) : List UInt8 :=
  let buf := beBytes 2 msgDataFramHdr ++ beBytes 2 len ++ [sign] ++ payload
  buf ++ beBytes 2 (checkSum8 (memoryOf buf) (len - msgDataFramCrcSize)).toNat

@[simp] theorem length_beBytes (n x : Nat) : (beBytes n x).length = n := by
  simp [beBytes]

@[simp] theorem length_msgFram (len : Nat) (sign : UInt8) (payload : List UInt8) :
    (msgFram len sign payload).length = payload.length + 7 := by
  simp only [msgFram, List.length_append, length_beBytes, List.length_singleton]
  omega

theorem checkSum8_congr {buf buf' : Nat → UInt8} {len : Nat} (h : ∀ i < len, buf i = buf' i) :
    checkSum8 buf len = checkSum8 buf' len := by
  simp only [checkSum8]
  refine List.foldl_ext _ _ _ fun ret i hi => ?_
  rw [h i (List.mem_range.mp hi)]

theorem hConvert_congr {b c : Nat → UInt8} (h : ∀ i < 2, b i = c i) : hConvert b = hConvert c :=
  leNat_congr fun i _ => h (2 - 1 - i) (by omega)

end Lsc100
