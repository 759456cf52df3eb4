import Lsc100.Basis.Overlay

/-! The GD55B01 NOR flash with the operations of `BSP_GD55B01.c`. Programming
clears bits, only an erase sets them. What has been written is also kept as a
list of operations. -/

namespace Lsc100

open Overlay

def gd55b01gePageSize : Nat := 256

inductive FlashOp
  | write (addr : Nat) (data : Nat → UInt8) (count : Nat)
  | eraseChip

structure Flash where
  cells : Nat → UInt8
  ops : List FlashOp

def Flash.erased : Flash := ⟨fun _ => 0xFF, []⟩

/-- More than a page is refused. Callers stay within the page of `addr`. -/
def gd55b01gePageProgram (cells : Nat → UInt8) (addr : Nat) (data : Nat → UInt8) (count : Nat) :
    Nat → UInt8 :=
  if gd55b01gePageSize < count then cells else overlay (· &&& ·) cells addr count data

/-- The loop of `gd55b01ge_write_data`, one page at a time. -/
def programPages (cells : Nat → UInt8) (addr : Nat) (data : Nat → UInt8) (count : Nat) :
    Nat → UInt8 :=
  if 0 < count then
    let bytesOnPage := gd55b01gePageSize - addr % gd55b01gePageSize
    let bytesToWrite := if count < bytesOnPage then count else bytesOnPage
    programPages (gd55b01gePageProgram cells addr data bytesToWrite) (addr + bytesToWrite)
      (fun i => data (bytesToWrite + i)) (count - bytesToWrite)
  else cells
termination_by count
decreasing_by
  have := Nat.mod_lt addr (by decide : 0 < gd55b01gePageSize)
  split <;> omega

def gd55b01geWriteData (f : Flash) (addr : Nat) (data : Nat → UInt8) (count : Nat) : Flash :=
  ⟨programPages f.cells addr data count, f.ops ++ [.write addr data count]⟩

def gd55b01geReadData (f : Flash) (addr : Nat) : Nat → UInt8 := fun i => f.cells (addr + i)

def gd55b01geEraseChip (f : Flash) : Flash := ⟨fun _ => 0xFF, f.ops ++ [.eraseChip]⟩

theorem programPages_eq (cells : Nat → UInt8) (addr : Nat) (data : Nat → UInt8) (count : Nat) :
    programPages cells addr data count = overlay (· &&& ·) cells addr count data := by
  induction cells, addr, data, count using programPages.induct with
  | case1 cells addr data count hpos bytesOnPage bytesToWrite ih =>
    have hmod := Nat.mod_lt addr (by decide : 0 < gd55b01gePageSize)
    have hpage : bytesOnPage ≤ gd55b01gePageSize := Nat.sub_le _ _
    have hle : bytesToWrite ≤ count := by
      simp only [bytesToWrite]
      split <;> omega
    have hfit : ¬ gd55b01gePageSize < bytesToWrite := by
      simp only [bytesToWrite]
      split <;> omega
    have hprogram : gd55b01gePageProgram cells addr data bytesToWrite =
        overlay (· &&& ·) cells addr bytesToWrite data := if_neg hfit
    rw [programPages, if_pos hpos]
    change programPages (gd55b01gePageProgram cells addr data bytesToWrite) (addr + bytesToWrite)
      (fun i => data (bytesToWrite + i)) (count - bytesToWrite) = _
    rw [ih, hprogram, overlay_split _ _ _ _ hle]
  | case2 cells addr data count hzero =>
    have hz : count = 0 := by omega
    rw [programPages, if_neg hzero, hz, overlay_zero]

theorem gd55b01geWriteData_cells (f : Flash) (addr : Nat) (data : Nat → UInt8) (count : Nat) :
    (gd55b01geWriteData f addr data count).cells = overlay (· &&& ·) f.cells addr count data :=
  programPages_eq _ _ _ _

theorem gd55b01geWriteData_blank (f : Flash) {addr count i : Nat} {data : Nat → UInt8}
    (hi : i < count) (hblank : f.cells (addr + i) = 0xFF) :
    (gd55b01geWriteData f addr data count).cells (addr + i) = data i := by
  rw [gd55b01geWriteData_cells, overlay_add _ _ _ hi, hblank]
  exact UInt8.neg_one_and

theorem gd55b01geWriteData_out (f : Flash) {addr count x : Nat} {data : Nat → UInt8}
    (hx : x < addr ∨ addr + count ≤ x) :
    (gd55b01geWriteData f addr data count).cells x = f.cells x := by
  rw [gd55b01geWriteData_cells, overlay_out _ _ _ hx]

@[simp] theorem gd55b01geWriteData_ops (f : Flash) (addr : Nat) (data : Nat → UInt8)
    (count : Nat) :
    (gd55b01geWriteData f addr data count).ops = f.ops ++ [.write addr data count] := rfl

end Lsc100
