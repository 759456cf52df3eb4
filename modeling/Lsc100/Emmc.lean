import Lsc100.Basis.Overlay

/-! The eMMC as an array of 512-byte blocks, with the block operations of
`BSP_EMMC.c` that the recorder uses. What the card does in an operation is an
argument, so a run chooses every success and failure. -/

namespace Lsc100

open Overlay

def emmcBlockSize : Nat := 512

abbrev Block := Fin 512 → UInt8

theorem mod_512_lt (k : Nat) : k % 512 < 512 := Nat.mod_lt k (by decide)

/-- `k` may count from the first of several blocks. -/
def Block.byte (b : Block) (k : Nat) : UInt8 := b ⟨k % 512, mod_512_lt k⟩

/-- A run of blocks in memory, read from its first block on. -/
abbrev Blocks := Nat → Block

abbrev Emmc := Nat → Block

def Blocks.byte (b : Blocks) (k : Nat) : UInt8 := (b (k / 512)).byte k

def zeroBlock : Block := fun _ => 0

/-- An operation succeeds, or its attempts run out and leave `junk` in the
blocks it was to fill. -/
inductive BlockIo
  | ok
  | failed (junk : Blocks)

def BlockIo.result : BlockIo → Blocks → Blocks
  | .ok, d => d
  | .failed junk, _ => junk

def BlockIo.isOk : BlockIo → Bool
  | .ok => true
  | .failed _ => false

def emmcEraseWriteBlocks (io : BlockIo) (e : Emmc) (writebuff : Blocks)
    (writeAddr numberOfBlocks : Nat) : Emmc × Bool :=
  if numberOfBlocks ≠ 0 then
    (overlay (fun _ b => b) e writeAddr numberOfBlocks (io.result writebuff), io.isOk)
  else (e, true)

def emmcReadBlocks (io : BlockIo) (e : Emmc) (readbuff : Blocks)
    (readAddr numberOfBlocks : Nat) : Blocks × Bool :=
  if numberOfBlocks ≠ 0 then
    (overlay (fun _ b => b) readbuff 0 numberOfBlocks (io.result (fun i => e (readAddr + i))),
      io.isOk)
  else (readbuff, true)

theorem emmcEraseWriteBlocks_ok_in (e : Emmc) (d : Blocks) {a n x : Nat} (h : a ≤ x)
    (h' : x < a + n) : (emmcEraseWriteBlocks .ok e d a n).1 x = d (x - a) := by
  have hn : n ≠ 0 := by omega
  simp [emmcEraseWriteBlocks, hn, BlockIo.result, overlay_in, h, h']

theorem emmcEraseWriteBlocks_ok_out (e : Emmc) (d : Blocks) {a n x : Nat}
    (h : x < a ∨ a + n ≤ x) : (emmcEraseWriteBlocks .ok e d a n).1 x = e x := by
  by_cases hn : n = 0
  · simp [emmcEraseWriteBlocks, hn]
  · simp [emmcEraseWriteBlocks, hn, overlay_out, h]

theorem emmcReadBlocks_ok (e : Emmc) (d : Blocks) {a n i : Nat} (h : i < n) :
    (emmcReadBlocks .ok e d a n).1 i = e (a + i) := by
  have hn : n ≠ 0 := by omega
  simp [emmcReadBlocks, hn, BlockIo.result, overlay_in, h]

end Lsc100
