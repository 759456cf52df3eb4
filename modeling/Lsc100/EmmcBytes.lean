import Mathlib.Algebra.Ring.Nat
import Lsc100.Emmc

/-! Access to the eMMC by bytes, from `BSP_EMMC.c`: a partial first block, whole blocks
and a partial last block. Seen by bytes, each block operation writes one interval. -/

namespace Lsc100

open Overlay

/-- What the three functions work out first. With `lastPackSize = 0` the range ends with a
block; `lastPackAddr = 0` also stands for a range that begins and ends in one block. -/
structure PackSplit where
  firstPackUnuse : Nat
  firstPackSize : Nat
  firstPackAddr : Nat
  lastPackSize : Nat
  lastPackAddr : Nat

def packSplit (addr size : Nat) : PackSplit :=
  let firstPackUnuse := addr % emmcBlockSize
  let firstPackSize :=
    if size < emmcBlockSize - firstPackUnuse then size else emmcBlockSize - firstPackUnuse
  let lastPackSize := (addr + size) % 2 ^ 32 % emmcBlockSize
  { firstPackUnuse := firstPackUnuse
    firstPackSize := firstPackSize
    firstPackAddr := addr - firstPackUnuse
    lastPackSize := lastPackSize
    lastPackAddr := if size < lastPackSize + firstPackSize ∧ firstPackUnuse ≠ 0 then 0
      else (addr + size) % 2 ^ 32 - lastPackSize }

def PackSplit.packNum (p : PackSplit) (size : Nat) : Nat :=
  if p.lastPackAddr = 0 then 0
  else if p.lastPackSize = 0 then (size - p.firstPackSize) / emmcBlockSize
  else
    let packNum := (p.lastPackAddr - p.firstPackAddr) / emmcBlockSize
    if p.firstPackUnuse ≠ 0 then packNum - 1 else packNum

def blocksOf (data : Nat → UInt8) (off : Nat) : Blocks := fun b k => data (off + 512 * b + k)

/-- `memcpy(&block[off], data, n)` -/
def Block.copy (b : Block) (off n : Nat) (data : Nat → UInt8) : Block :=
  fun k => if off ≤ k.val ∧ k.val < off + n then data (k - off) else b k

/-- `emmcreadblocks` to byte `off` of a buffer. -/
def emmcReadBlocksTo (io : BlockIo) (e : Emmc) (buff : Nat → UInt8) (off readAddr n : Nat) :
    Nat → UInt8 :=
  let blocks := (emmcReadBlocks io e (blocksOf buff off) readAddr n).1
  overlay (fun _ b => b) buff off (512 * n) blocks.byte

/-- `emmcreadblocks` of one block to `sEmmcTempBuff`. -/
def emmcReadTemp (io : BlockIo) (e : Emmc) (temp : Block) (readAddr : Nat) : Block :=
  (emmcReadBlocks io e (fun _ => temp) readAddr 1).1 0

/-- `io` says how the block operations end, in the order of the source. -/
def writebyetstoemmc (io : Nat → BlockIo) (e : Emmc) (temp : Block) (data : Nat → UInt8)
    (addr size : Nat) : Emmc × Bool :=
  if size ≠ 0 then
    let p := packSplit addr size
    if p.firstPackUnuse = 0 ∧ p.lastPackSize = 0 then
      ((emmcEraseWriteBlocks (io 0) e (blocksOf data 0) (addr / emmcBlockSize)
        (size / emmcBlockSize)).1, true)
    else
      let temp := if p.firstPackUnuse ≠ 0 then
          (emmcReadTemp (io 0) e temp (p.firstPackAddr / emmcBlockSize)).copy p.firstPackUnuse
            p.firstPackSize data
        else temp
      let e := if p.firstPackUnuse ≠ 0 then
          (emmcEraseWriteBlocks (io 1) e (fun _ => temp) (p.firstPackAddr / emmcBlockSize) 1).1
        else e
      let e := if p.firstPackUnuse ≠ 0 then
          (emmcEraseWriteBlocks (io 2) e (blocksOf data p.firstPackSize)
            (p.firstPackAddr / emmcBlockSize + 1) (p.packNum size)).1
        else
          (emmcEraseWriteBlocks (io 2) e (blocksOf data 0) (p.firstPackAddr / emmcBlockSize)
            (p.packNum size)).1
      if p.firstPackSize = size ∧ p.firstPackUnuse ≠ 0 then (e, true)
      else if p.lastPackSize ≠ 0 then
        let temp := (emmcReadTemp (io 3) e temp (p.lastPackAddr / emmcBlockSize)).copy 0
          p.lastPackSize fun k => data (size - p.lastPackSize + k)
        ((emmcEraseWriteBlocks (io 4) e (fun _ => temp) (p.lastPackAddr / emmcBlockSize) 1).1, true)
      else (e, true)
  else (e, true)

def readbyetsfromemmc (io : Nat → BlockIo) (e : Emmc) (temp : Block) (buff : Nat → UInt8)
    (addr size : Nat) : (Nat → UInt8) × Bool :=
  if size ≠ 0 then
    let p := packSplit addr size
    if p.firstPackUnuse = 0 ∧ p.lastPackSize = 0 then
      (emmcReadBlocksTo (io 0) e buff 0 (addr / emmcBlockSize) (size / emmcBlockSize), true)
    else
      let temp := if p.firstPackUnuse ≠ 0 then
          emmcReadTemp (io 0) e temp (p.firstPackAddr / emmcBlockSize)
        else temp
      let buff := if p.firstPackUnuse ≠ 0 then
          overlay (fun _ b => b) buff 0 p.firstPackSize fun k =>
            temp.byte (p.firstPackUnuse + k)
        else buff
      let buff :=
        if p.firstPackSize = size ∧ p.firstPackUnuse ≠ 0 then buff
        else if p.lastPackSize ≠ 0 then
          let temp := emmcReadTemp (io 1) e temp (p.lastPackAddr / emmcBlockSize)
          overlay (fun _ b => b) buff (size - p.lastPackSize) p.lastPackSize temp.byte
        else buff
      if p.firstPackUnuse ≠ 0 then
        (emmcReadBlocksTo (io 2) e buff p.firstPackSize (p.firstPackAddr / emmcBlockSize + 1)
          (p.packNum size), true)
      else
        (emmcReadBlocksTo (io 2) e buff 0 (p.firstPackAddr / emmcBlockSize) (p.packNum size), true)
  else (buff, true)

/-- The loop that compares `n` bytes of a block, from `off` on, with those of `buff`. -/
def sameBytes (temp : Block) (off : Nat) (buff : Nat → UInt8) (byteNum n : Nat) : Bool :=
  (List.range n).all fun j => temp.byte (j + off) == buff (byteNum + j)

def sameBlocks (io : Nat → BlockIo) (e : Emmc) (temp : Block) (readAddr : Nat)
    (buff : Nat → UInt8) (byteNum n : Nat) : Bool :=
  (List.range n).all fun i =>
    sameBytes (emmcReadTemp (io i) e temp (readAddr + i)) 0 buff (byteNum + 512 * i) 512

def emmcverifyreadbytes (io : Nat → BlockIo) (e : Emmc) (temp : Block) (buff : Nat → UInt8)
    (addr size : Nat) : Bool :=
  if size ≠ 0 then
    let p := packSplit addr size
    if p.firstPackUnuse = 0 ∧ p.lastPackSize = 0 then
      sameBlocks io e temp (addr / emmcBlockSize) buff 0 (size / emmcBlockSize)
    else
      let first := p.firstPackUnuse = 0 ||
        sameBytes (emmcReadTemp (io 0) e temp (p.firstPackAddr / emmcBlockSize)) p.firstPackUnuse
          buff 0 p.firstPackSize
      let middle :=
        if p.firstPackUnuse ≠ 0 then
          sameBlocks (fun i => io (1 + i)) e temp (p.firstPackAddr / emmcBlockSize + 1) buff
            p.firstPackSize (p.packNum size)
        else
          sameBlocks (fun i => io (1 + i)) e temp (p.firstPackAddr / emmcBlockSize) buff 0
            (p.packNum size)
      let last :=
        if p.firstPackSize = size ∧ p.firstPackUnuse ≠ 0 then true
        else if p.lastPackSize ≠ 0 then
          sameBytes (emmcReadTemp (io (1 + p.packNum size)) e temp
            (p.lastPackAddr / emmcBlockSize)) 0 buff (size - p.lastPackSize) p.lastPackSize
        else true
      first && middle && last
  else false

def Emmc.byte (e : Emmc) (a : Nat) : UInt8 := (e (a / 512)).byte a

section Split

variable {addr size : Nat}

/-- The three pieces: `f` bytes up to the end of the first block unless the range begins
with one, `k` whole blocks, and `l` bytes of the last block. -/
structure Pieces (addr size f k l : Nat) : Prop where
  sum : f + 512 * k + l = size
  first : f = if addr % 512 ≠ 0 then (packSplit addr size).firstPackSize else 0
  first_le : addr % 512 ≠ 0 → addr % 512 + f ≤ 512
  packNum : (packSplit addr size).packNum size = k
  middle : k ≠ 0 → 512 * (addr / 512 + if addr % 512 ≠ 0 then 1 else 0) = addr + f
  last : l = if (packSplit addr size).firstPackSize = size ∧ addr % 512 ≠ 0 then 0
    else (packSplit addr size).lastPackSize
  last_lt : l < 512
  lastAddr : l ≠ 0 → 512 * ((packSplit addr size).lastPackAddr / 512) = addr + f + 512 * k

theorem packSplit_fields (h : addr + size < 2 ^ 32) :
    (packSplit addr size).firstPackUnuse = addr % 512 ∧
      (packSplit addr size).firstPackAddr = addr - addr % 512 ∧
      (packSplit addr size).firstPackSize = min size (512 - addr % 512) ∧
      (packSplit addr size).lastPackSize = (addr + size) % 512 := by
  have hblock : emmcBlockSize = 512 := rfl
  refine ⟨rfl, rfl, ?_, ?_⟩
  · simp only [packSplit]
    rw [hblock]
    split <;> omega
  · simp only [packSplit]
    rw [hblock, Nat.mod_eq_of_lt h]

theorem packSplit_lastPackAddr (h : addr + size < 2 ^ 32)
    (hmore : addr % 512 = 0 ∨ 512 ≤ addr % 512 + size) :
    (packSplit addr size).lastPackAddr = addr + size - (addr + size) % 512 := by
  obtain ⟨hunuse, -, hfirst, hlast⟩ := packSplit_fields h
  have hcond : ¬ (size < (packSplit addr size).lastPackSize + (packSplit addr size).firstPackSize ∧
      (packSplit addr size).firstPackUnuse ≠ 0) := by
    rw [hunuse, hfirst, hlast]
    omega
  have haddr : (packSplit addr size).lastPackAddr =
      (addr + size) % 2 ^ 32 - (packSplit addr size).lastPackSize := if_neg hcond
  rw [haddr, hlast, Nat.mod_eq_of_lt h]

/-- The range ends in the block it begins in, and does not begin with the block. -/
theorem pieces_one (h : addr + size < 2 ^ 32) (hunuse : addr % 512 ≠ 0)
    (hfit : addr % 512 + size ≤ 512) : Pieces addr size size 0 0 := by
  obtain ⟨hunuse', hfirstAddr, hfirst, hlast⟩ := packSplit_fields h
  rw [Nat.min_eq_left (by omega)] at hfirst
  have hpack : (packSplit addr size).packNum size = 0 := by
    rw [PackSplit.packNum]
    split
    · rfl
    · rename_i haddr
      rw [if_pos, hfirst, Nat.sub_self, Nat.zero_div]
      by_cases hend :
          size < (packSplit addr size).lastPackSize + (packSplit addr size).firstPackSize
      · exact absurd (if_pos ⟨hend, hunuse⟩) haddr
      · omega
  exact ⟨by omega, by rw [if_pos hunuse, hfirst], fun _ => hfit, hpack, fun h0 => absurd rfl h0,
    by rw [if_pos ⟨hfirst, hunuse⟩], by decide, fun h0 => absurd rfl h0⟩

/-- The range goes on behind the block it begins in. -/
theorem pieces_many (h : addr + size < 2 ^ 32) (hunuse : addr % 512 ≠ 0)
    (hmore : 512 < addr % 512 + size) : Pieces addr size (512 - addr % 512)
      ((size - (512 - addr % 512)) / 512) ((addr + size) % 512) := by
  have hblock : emmcBlockSize = 512 := rfl
  obtain ⟨hunuse', hfirstAddr, hfirst, hlast⟩ := packSplit_fields h
  rw [Nat.min_eq_right (by omega)] at hfirst
  have hlastAddr := packSplit_lastPackAddr h (.inr (Nat.le_of_lt hmore))
  have hpack : (packSplit addr size).packNum size = (size - (512 - addr % 512)) / 512 := by
    rw [PackSplit.packNum, if_neg (by omega), hunuse', if_pos hunuse, hfirst, hblock]
    split
    · rfl
    · rw [hlastAddr, hfirstAddr]
      omega
  refine ⟨by omega, by rw [if_pos hunuse, hfirst], fun _ => by omega, hpack, fun _ => ?_, ?_,
    Nat.mod_lt _ (by decide), fun _ => ?_⟩
  · rw [if_pos hunuse]
    omega
  · rw [if_neg (by omega), hlast]
  · rw [hlastAddr]
    omega

/-- The range begins with a block and does not end with one. -/
theorem pieces_tail (h : addr + size < 2 ^ 32) (hunuse : addr % 512 = 0)
    (htail : size % 512 ≠ 0) : Pieces addr size 0 (size / 512) (size % 512) := by
  have hblock : emmcBlockSize = 512 := rfl
  obtain ⟨hunuse', hfirstAddr, hfirst, hlast⟩ := packSplit_fields h
  have hlastAddr := packSplit_lastPackAddr h (.inl hunuse)
  have hpack : (packSplit addr size).packNum size = size / 512 := by
    rw [PackSplit.packNum, hunuse', if_neg (not_not_intro hunuse), hlast, hblock]
    split
    · omega
    · rw [if_neg (by omega), hlastAddr, hfirstAddr]
      omega
  have hunuse'' : ¬ addr % 512 ≠ 0 := not_not_intro hunuse
  refine ⟨by omega, by rw [if_neg hunuse''], fun h0 => absurd hunuse h0, hpack, fun _ => ?_, ?_,
    Nat.mod_lt _ (by decide), fun _ => ?_⟩
  · rw [if_neg hunuse'']
    omega
  · rw [if_neg (by omega), hlast]
    omega
  · rw [hlastAddr]
    omega

theorem exists_pieces (h : addr + size < 2 ^ 32)
    (hpart : ¬ ((packSplit addr size).firstPackUnuse = 0 ∧
      (packSplit addr size).lastPackSize = 0)) : ∃ f k l, Pieces addr size f k l := by
  obtain ⟨hunuse', -, -, hlast⟩ := packSplit_fields h
  by_cases hunuse : addr % 512 = 0
  · exact ⟨_, _, _, pieces_tail h hunuse (by omega)⟩
  · by_cases hfit : addr % 512 + size ≤ 512
    · exact ⟨_, _, _, pieces_one h hunuse hfit⟩
    · exact ⟨_, _, _, pieces_many h hunuse (by omega)⟩

end Split

theorem Block.byte_mul_add (b : Block) (a k : Nat) : b.byte (512 * a + k) = b.byte k :=
  congrArg b (Fin.ext (Nat.mul_add_mod ..))

theorem byte_eraseWriteBlocks (e : Emmc) (data : Nat → UInt8) (off a n : Nat) :
    (emmcEraseWriteBlocks .ok e (blocksOf data off) a n).1.byte =
      overlay (fun _ b => b) e.byte (512 * a) (512 * n) fun i => data (off + i) := by
  funext x
  by_cases hin : 512 * a ≤ x ∧ x < 512 * a + 512 * n
  · rw [overlay_in _ _ _ hin.1 hin.2, Emmc.byte,
      emmcEraseWriteBlocks_ok_in _ _ (by omega) (by omega), Block.byte, blocksOf,
      Fin.val_mk]
    congr 1
    omega
  · rw [overlay_out _ _ _ (by omega), Emmc.byte, emmcEraseWriteBlocks_ok_out _ _ (by omega),
      Emmc.byte]

theorem emmcReadTemp_ok (e : Emmc) (temp : Block) (a : Nat) : emmcReadTemp .ok e temp a = e a :=
  emmcReadBlocks_ok e _ (Nat.lt_succ_self 0)

/-- A block that is read, changed in part and written back. -/
theorem byte_patchBlock (e : Emmc) (temp : Block) (data : Nat → UInt8) {a off n : Nat}
    (hfit : off + n ≤ 512) :
    (emmcEraseWriteBlocks .ok e (fun _ => (emmcReadTemp .ok e temp a).copy off n data) a 1).1.byte =
      overlay (fun _ b => b) e.byte (512 * a + off) n data := by
  funext x
  rw [emmcReadTemp_ok]
  by_cases hblock : x / 512 = a
  · rw [Emmc.byte, emmcEraseWriteBlocks_ok_in _ _ (by omega) (by omega), Block.byte, Block.copy,
      Fin.val_mk]
    by_cases hin : 512 * a + off ≤ x ∧ x < 512 * a + off + n
    · rw [overlay_in _ _ _ hin.1 hin.2, if_pos (by omega)]
      congr 1
      omega
    · rw [overlay_out _ _ _ (by omega), if_neg (by omega), Emmc.byte, Block.byte, hblock]
  · rw [overlay_out _ _ _ (by omega), Emmc.byte, emmcEraseWriteBlocks_ok_out _ _ (by omega),
      Emmc.byte]

theorem emmcReadBlocksTo_ok (e : Emmc) (buff : Nat → UInt8) (off a n : Nat) :
    emmcReadBlocksTo .ok e buff off a n =
      overlay (fun _ b => b) buff off (512 * n) fun i => e.byte (512 * a + i) := by
  rw [emmcReadBlocksTo]
  refine overlay_congr _ _ fun i hi => ?_
  have hdiv : (512 * a + i) / 512 = a + i / 512 := by omega
  rw [Blocks.byte, emmcReadBlocks_ok _ _ (by omega), Emmc.byte, Block.byte_mul_add, hdiv]

section Write

variable {e : Emmc} {temp : Block} {data : Nat → UInt8} {addr size f k l : Nat}

theorem byte_writeFirst (h : addr + size < 2 ^ 32) (hp : Pieces addr size f k l) :
    (if (packSplit addr size).firstPackUnuse ≠ 0 then
      (emmcEraseWriteBlocks .ok e (fun _ => if (packSplit addr size).firstPackUnuse ≠ 0 then
          (emmcReadTemp .ok e temp ((packSplit addr size).firstPackAddr / emmcBlockSize)).copy
            (packSplit addr size).firstPackUnuse (packSplit addr size).firstPackSize data
        else temp) ((packSplit addr size).firstPackAddr / emmcBlockSize) 1).1
      else e).byte = overlay (fun _ b => b) e.byte addr f data := by
  have hblock : emmcBlockSize = 512 := rfl
  obtain ⟨hunuse', hfirstAddr, -, -⟩ := packSplit_fields h
  have hfirst := hp.first
  rw [hunuse']
  by_cases hunuse : addr % 512 ≠ 0
  · rw [if_pos hunuse] at hfirst
    simp only [if_pos hunuse]
    rw [← hfirst, byte_patchBlock e temp data (hp.first_le hunuse), hfirstAddr, hblock]
    congr 1
    omega
  · rw [if_neg hunuse] at hfirst
    rw [if_neg hunuse, hfirst, overlay_zero]

theorem byte_writeMiddle (h : addr + size < 2 ^ 32) (hp : Pieces addr size f k l) :
    (if (packSplit addr size).firstPackUnuse ≠ 0 then
      (emmcEraseWriteBlocks .ok e (blocksOf data (packSplit addr size).firstPackSize)
        ((packSplit addr size).firstPackAddr / emmcBlockSize + 1)
        ((packSplit addr size).packNum size)).1
      else (emmcEraseWriteBlocks .ok e (blocksOf data 0)
        ((packSplit addr size).firstPackAddr / emmcBlockSize)
        ((packSplit addr size).packNum size)).1).byte =
      overlay (fun _ b => b) e.byte (addr + f) (512 * k) fun i => data (f + i) := by
  have hblock : emmcBlockSize = 512 := rfl
  obtain ⟨hunuse', hfirstAddr, -, -⟩ := packSplit_fields h
  have hfirst := hp.first
  have hmiddle := hp.middle
  rw [hunuse', hp.packNum, hfirstAddr, hblock]
  by_cases hk : k = 0
  · subst hk
    split <;> simp [byte_eraseWriteBlocks]
  · have haddr := hmiddle hk
    by_cases hunuse : addr % 512 ≠ 0
    · rw [if_pos hunuse] at hfirst haddr ⊢
      rw [← hfirst, byte_eraseWriteBlocks]
      congr 1
      omega
    · rw [if_neg hunuse] at hfirst haddr ⊢
      rw [byte_eraseWriteBlocks, hfirst]
      congr 1
      omega

theorem byte_writeLast (h : addr + size < 2 ^ 32) (hp : Pieces addr size f k l) :
    ((if (packSplit addr size).firstPackSize = size ∧ (packSplit addr size).firstPackUnuse ≠ 0 then
      (e, true)
      else if (packSplit addr size).lastPackSize ≠ 0 then
        ((emmcEraseWriteBlocks .ok e (fun _ =>
          (emmcReadTemp .ok e temp ((packSplit addr size).lastPackAddr / emmcBlockSize)).copy 0
            (packSplit addr size).lastPackSize
            fun i => data (size - (packSplit addr size).lastPackSize + i))
          ((packSplit addr size).lastPackAddr / emmcBlockSize) 1).1, true)
      else (e, true) : Emmc × Bool)).1.byte =
      overlay (fun _ b => b) e.byte (addr + (f + 512 * k)) l fun i => data (f + 512 * k + i) := by
  have hblock : emmcBlockSize = 512 := rfl
  obtain ⟨hunuse', -, -, -⟩ := packSplit_fields h
  have hlast := hp.last
  have hsum := hp.sum
  have hlt := hp.last_lt
  rw [hunuse']
  by_cases hfit : (packSplit addr size).firstPackSize = size ∧ addr % 512 ≠ 0
  · rw [if_pos hfit] at hlast ⊢
    rw [hlast, overlay_zero]
  · rw [if_neg hfit] at hlast ⊢
    rw [← hlast]
    by_cases hl : l ≠ 0
    · rw [if_pos hl, byte_patchBlock _ _ _ (by omega), hblock, hp.lastAddr hl]
      have hoff : size - l = f + 512 * k := by omega
      rw [hoff, Nat.add_zero, Nat.add_assoc]
    · rw [if_neg hl, not_not.mp hl, overlay_zero]

end Write

/-- Bytes `addr .. addr + size` become `data`, and no other byte changes. -/
theorem writebyetstoemmc_byte (e : Emmc) (temp : Block) (data : Nat → UInt8) {addr size : Nat}
    (h : addr + size < 2 ^ 32) :
    (writebyetstoemmc (fun _ => .ok) e temp data addr size).1.byte =
      overlay (fun _ b => b) e.byte addr size data := by
  have hblock : emmcBlockSize = 512 := rfl
  obtain ⟨hunuse, hfirstAddr, -, hlast⟩ := packSplit_fields h
  rw [writebyetstoemmc]
  by_cases hsize : size = 0
  · rw [if_neg (not_not_intro hsize), hsize, overlay_zero]
  · rw [if_pos hsize]
    simp only
    by_cases hpart : (packSplit addr size).firstPackUnuse = 0 ∧
        (packSplit addr size).lastPackSize = 0
    · rw [if_pos hpart, byte_eraseWriteBlocks, hblock]
      have ha : 512 * (addr / 512) = addr := by omega
      have hn : 512 * (size / 512) = size := by omega
      simp only [ha, hn, Nat.zero_add]
    · rw [if_neg hpart]
      obtain ⟨f, k, l, hp⟩ := exists_pieces h hpart
      rw [byte_writeLast h hp, byte_writeMiddle h hp, byte_writeFirst h hp]
      rw [overlay_append, overlay_append, hp.sum]

section Read

variable {e : Emmc} {temp : Block} {buff : Nat → UInt8} {addr size f k l : Nat}

/-- `memcpy` of part of a block that was read. -/
theorem overlay_emmcReadTemp (e : Emmc) (temp : Block) (buff : Nat → UInt8) (a off dst n : Nat)
    (hfit : off + n ≤ 512) :
    overlay (fun _ b => b) buff dst n
      (fun i => (emmcReadTemp .ok e temp a).byte (off + i)) =
      overlay (fun _ b => b) buff dst n fun i => e.byte (512 * a + off + i) := by
  refine overlay_congr _ _ fun i hi => ?_
  have hdiv : (512 * a + off + i) / 512 = a := by omega
  rw [emmcReadTemp_ok, Emmc.byte, hdiv, Nat.add_assoc, Block.byte_mul_add]

theorem readFirst (h : addr + size < 2 ^ 32) (hp : Pieces addr size f k l) :
    (if (packSplit addr size).firstPackUnuse ≠ 0 then
      overlay (fun _ b => b) buff 0 (packSplit addr size).firstPackSize fun i =>
        (if (packSplit addr size).firstPackUnuse ≠ 0 then
          emmcReadTemp .ok e temp ((packSplit addr size).firstPackAddr / emmcBlockSize)
          else temp).byte ((packSplit addr size).firstPackUnuse + i)
      else buff) = overlay (fun _ b => b) buff 0 f fun i => e.byte (addr + i) := by
  have hblock : emmcBlockSize = 512 := rfl
  obtain ⟨hunuse', hfirstAddr, -, -⟩ := packSplit_fields h
  have hfirst := hp.first
  rw [hunuse']
  by_cases hunuse : addr % 512 ≠ 0
  · rw [if_pos hunuse] at hfirst
    simp only [if_pos hunuse]
    rw [← hfirst, overlay_emmcReadTemp _ _ _ _ _ _ _ (hp.first_le hunuse), hfirstAddr, hblock]
    have haddr : 512 * ((addr - addr % 512) / 512) + addr % 512 = addr := by omega
    rw [haddr]
  · rw [if_neg hunuse] at hfirst
    rw [if_neg hunuse, hfirst, overlay_zero]

theorem readLast (h : addr + size < 2 ^ 32) (hp : Pieces addr size f k l) :
    (if (packSplit addr size).firstPackSize = size ∧ (packSplit addr size).firstPackUnuse ≠ 0 then
      buff
      else if (packSplit addr size).lastPackSize ≠ 0 then
        overlay (fun _ b => b) buff (size - (packSplit addr size).lastPackSize)
          (packSplit addr size).lastPackSize
          (emmcReadTemp .ok e temp ((packSplit addr size).lastPackAddr / emmcBlockSize)).byte
      else buff) =
      overlay (fun _ b => b) buff (f + 512 * k) l fun i => e.byte (addr + (f + 512 * k + i)) := by
  have hblock : emmcBlockSize = 512 := rfl
  obtain ⟨hunuse', -, -, -⟩ := packSplit_fields h
  have hlast := hp.last
  have hsum := hp.sum
  have hlt := hp.last_lt
  rw [hunuse']
  by_cases hfit : (packSplit addr size).firstPackSize = size ∧ addr % 512 ≠ 0
  · rw [if_pos hfit] at hlast ⊢
    rw [hlast, overlay_zero]
  · rw [if_neg hfit] at hlast ⊢
    rw [← hlast]
    by_cases hl : l ≠ 0
    · have hread := overlay_emmcReadTemp e temp buff ((packSplit addr size).lastPackAddr / 512) 0
        (size - l) l (by omega)
      simp only [Nat.zero_add, Nat.add_zero] at hread
      rw [if_pos hl, hblock, hread, hp.lastAddr hl]
      have hoff : size - l = f + 512 * k := by omega
      simp only [hoff, Nat.add_assoc]
    · rw [if_neg hl, not_not.mp hl, overlay_zero]

theorem readMiddle (h : addr + size < 2 ^ 32) (hp : Pieces addr size f k l) :
    ((if (packSplit addr size).firstPackUnuse ≠ 0 then
      (emmcReadBlocksTo .ok e buff (packSplit addr size).firstPackSize
        ((packSplit addr size).firstPackAddr / emmcBlockSize + 1)
        ((packSplit addr size).packNum size), true)
      else (emmcReadBlocksTo .ok e buff 0 ((packSplit addr size).firstPackAddr / emmcBlockSize)
        ((packSplit addr size).packNum size), true) : (Nat → UInt8) × Bool)).1 =
      overlay (fun _ b => b) buff f (512 * k) fun i => e.byte (addr + (f + i)) := by
  have hblock : emmcBlockSize = 512 := rfl
  obtain ⟨hunuse', hfirstAddr, -, -⟩ := packSplit_fields h
  have hfirst := hp.first
  have hmiddle := hp.middle
  rw [hunuse', hp.packNum, hfirstAddr, hblock]
  by_cases hk : k = 0
  · subst hk
    split <;> simp [emmcReadBlocksTo_ok]
  · have haddr := hmiddle hk
    by_cases hunuse : addr % 512 ≠ 0
    · rw [if_pos hunuse] at hfirst haddr ⊢
      rw [← hfirst]
      have hstart : 512 * ((addr - addr % 512) / 512 + 1) = addr + f := by omega
      simp only [emmcReadBlocksTo_ok, hstart, Nat.add_assoc]
    · rw [if_neg hunuse] at hfirst haddr ⊢
      have hstart : 512 * ((addr - addr % 512) / 512) = addr := by omega
      simp only [emmcReadBlocksTo_ok, hstart, hfirst, Nat.zero_add]

end Read

/-- The bytes `addr .. addr + size` go to the first `size` bytes of the buffer. -/
theorem readbyetsfromemmc_byte (e : Emmc) (temp : Block) (buff : Nat → UInt8) {addr size : Nat}
    (h : addr + size < 2 ^ 32) :
    (readbyetsfromemmc (fun _ => .ok) e temp buff addr size).1 =
      overlay (fun _ b => b) buff 0 size fun i => e.byte (addr + i) := by
  have hblock : emmcBlockSize = 512 := rfl
  obtain ⟨hunuse, -, -, hlast⟩ := packSplit_fields h
  rw [readbyetsfromemmc]
  by_cases hsize : size = 0
  · rw [if_neg (not_not_intro hsize), hsize, overlay_zero]
  · rw [if_pos hsize]
    simp only
    by_cases hpart : (packSplit addr size).firstPackUnuse = 0 ∧
        (packSplit addr size).lastPackSize = 0
    · rw [if_pos hpart, emmcReadBlocksTo_ok, hblock]
      have ha : 512 * (addr / 512) = addr := by omega
      have hn : 512 * (size / 512) = size := by omega
      rw [ha, hn]
    · rw [if_neg hpart]
      obtain ⟨f, k, l, hp⟩ := exists_pieces h hpart
      rw [readMiddle h hp, readLast h hp, readFirst h hp, overlay_comm _ _ _ _ (Nat.le_refl _)]
      have hmiddle := overlay_append (fun _ b => b) buff (a := 0) (fun i => e.byte (addr + i)) f
        (512 * k)
      have hall := overlay_append (fun _ b => b) buff (a := 0) (fun i => e.byte (addr + i))
        (f + 512 * k) l
      rw [Nat.zero_add] at hmiddle hall
      rw [hmiddle, hall, hp.sum]

section Verify

variable {e : Emmc} {temp : Block} {buff : Nat → UInt8} {addr size f k l : Nat}

/-- `n` bytes of the buffer, from `off` on, are those of the card from `a` on. -/
def Emmc.Same (e : Emmc) (a : Nat) (buff : Nat → UInt8) (off n : Nat) : Prop :=
  ∀ i < n, buff (off + i) = e.byte (a + i)

@[simp] theorem same_zero (a off : Nat) : e.Same a buff off 0 :=
  fun i hi => absurd hi (Nat.not_lt_zero i)

theorem same_add (e : Emmc) (a : Nat) (buff : Nat → UInt8) (off n m : Nat) :
    e.Same a buff off (n + m) ↔ e.Same a buff off n ∧ e.Same (a + n) buff (off + n) m := by
  constructor
  · intro h
    refine ⟨fun i hi => h i (by omega), fun i hi => ?_⟩
    rw [Nat.add_assoc, Nat.add_assoc]
    exact h (n + i) (by omega)
  · rintro ⟨hleft, hright⟩ i hi
    by_cases hn : i < n
    · exact hleft i hn
    · have hi' := hright (i - n) (by omega)
      rwa [Nat.add_assoc, Nat.add_assoc, Nat.add_sub_cancel' (Nat.le_of_not_lt hn)] at hi'

theorem sameBytes_iff (e : Emmc) (temp : Block) (buff : Nat → UInt8) (a off byteNum n : Nat)
    (hfit : off + n ≤ 512) :
    sameBytes (emmcReadTemp .ok e temp a) off buff byteNum n = true ↔
      e.Same (512 * a + off) buff byteNum n := by
  rw [sameBytes, List.all_eq_true]
  have hbyte : ∀ j < n, (e a).byte (j + off) = e.byte (512 * a + off + j) := by
    intro j hj
    have hdiv : (512 * a + off + j) / 512 = a := by omega
    rw [Emmc.byte, hdiv, Nat.add_assoc, Block.byte_mul_add, Nat.add_comm]
  simp only [List.mem_range, beq_iff_eq, emmcReadTemp_ok]
  exact forall₂_congr fun j hj => by rw [hbyte j hj, eq_comm]

theorem sameBlocks_iff (e : Emmc) (temp : Block) (buff : Nat → UInt8) (a byteNum n : Nat) :
    sameBlocks (fun _ => .ok) e temp a buff byteNum n = true ↔
      e.Same (512 * a) buff byteNum (512 * n) := by
  rw [sameBlocks]
  induction n with
  | zero => simp
  | succ n ih =>
    have hlast := sameBytes_iff e temp buff (a + n) 0 (byteNum + 512 * n) 512 (Nat.le_refl _)
    rw [List.range_succ, List.all_append, Bool.and_eq_true, ih, List.all_cons, List.all_nil,
      Bool.and_true, hlast, Nat.mul_succ, same_add, Nat.mul_add, Nat.add_zero]

theorem verifyFirst (h : addr + size < 2 ^ 32) (hp : Pieces addr size f k l) :
    ((decide ((packSplit addr size).firstPackUnuse = 0) ||
      sameBytes (emmcReadTemp .ok e temp ((packSplit addr size).firstPackAddr / emmcBlockSize))
        (packSplit addr size).firstPackUnuse buff 0 (packSplit addr size).firstPackSize) = true) ↔
      e.Same addr buff 0 f := by
  have hblock : emmcBlockSize = 512 := rfl
  obtain ⟨hunuse', hfirstAddr, -, -⟩ := packSplit_fields h
  have hfirst := hp.first
  rw [hunuse']
  by_cases hunuse : addr % 512 = 0
  · rw [if_neg (not_not_intro hunuse)] at hfirst
    simp [hunuse, hfirst]
  · rw [if_pos hunuse] at hfirst
    have haddr : 512 * ((addr - addr % 512) / 512) + addr % 512 = addr := by omega
    rw [← hfirst, Bool.or_eq_true, decide_eq_true_iff,
      sameBytes_iff _ _ _ _ _ _ _ (hp.first_le hunuse), hfirstAddr, hblock, haddr, or_iff_right hunuse]

theorem verifyMiddle (h : addr + size < 2 ^ 32) (hp : Pieces addr size f k l) :
    ((if (packSplit addr size).firstPackUnuse ≠ 0 then
      sameBlocks (fun _ => .ok) e temp ((packSplit addr size).firstPackAddr / emmcBlockSize + 1)
        buff (packSplit addr size).firstPackSize ((packSplit addr size).packNum size)
      else sameBlocks (fun _ => .ok) e temp ((packSplit addr size).firstPackAddr / emmcBlockSize)
        buff 0 ((packSplit addr size).packNum size)) = true) ↔
      e.Same (addr + f) buff (0 + f) (512 * k) := by
  have hblock : emmcBlockSize = 512 := rfl
  obtain ⟨hunuse', hfirstAddr, -, -⟩ := packSplit_fields h
  have hfirst := hp.first
  have hmiddle := hp.middle
  rw [hunuse', hp.packNum, hfirstAddr, hblock]
  by_cases hk : k = 0
  · subst hk
    split <;> simp [sameBlocks_iff]
  · have haddr := hmiddle hk
    by_cases hunuse : addr % 512 ≠ 0
    · rw [if_pos hunuse] at hfirst haddr ⊢
      have hstart : 512 * ((addr - addr % 512) / 512 + 1) = addr + f := by omega
      rw [← hfirst, sameBlocks_iff, hstart, Nat.zero_add]
    · rw [if_neg hunuse] at hfirst haddr ⊢
      have hstart : 512 * ((addr - addr % 512) / 512) = addr := by omega
      rw [sameBlocks_iff, hstart, hfirst, Nat.add_zero, Nat.add_zero]

theorem verifyLast (h : addr + size < 2 ^ 32) (hp : Pieces addr size f k l) :
    ((if (packSplit addr size).firstPackSize = size ∧ (packSplit addr size).firstPackUnuse ≠ 0 then
      true
      else if (packSplit addr size).lastPackSize ≠ 0 then
        sameBytes (emmcReadTemp .ok e temp ((packSplit addr size).lastPackAddr / emmcBlockSize)) 0
          buff (size - (packSplit addr size).lastPackSize) (packSplit addr size).lastPackSize
      else true) = true) ↔ e.Same (addr + (f + 512 * k)) buff (0 + (f + 512 * k)) l := by
  have hblock : emmcBlockSize = 512 := rfl
  obtain ⟨hunuse', -, -, -⟩ := packSplit_fields h
  have hlast := hp.last
  have hsum := hp.sum
  have hlt := hp.last_lt
  rw [hunuse']
  by_cases hfit : (packSplit addr size).firstPackSize = size ∧ addr % 512 ≠ 0
  · rw [if_pos hfit] at hlast ⊢
    simp [hlast]
  · rw [if_neg hfit] at hlast ⊢
    rw [← hlast]
    by_cases hl : l ≠ 0
    · have hoff : size - l = f + 512 * k := by omega
      rw [if_pos hl, hblock, sameBytes_iff _ _ _ _ _ _ _ (by omega), hp.lastAddr hl, hoff,
        Nat.add_zero, Nat.zero_add, Nat.add_assoc]
    · simp [not_not.mp hl]

end Verify

theorem emmcverifyreadbytes_iff (e : Emmc) (temp : Block) (buff : Nat → UInt8) {addr size : Nat}
    (h : addr + size < 2 ^ 32) (hsize : size ≠ 0) :
    emmcverifyreadbytes (fun _ => .ok) e temp buff addr size = true ↔ e.Same addr buff 0 size := by
  have hblock : emmcBlockSize = 512 := rfl
  obtain ⟨hunuse, -, -, hlast⟩ := packSplit_fields h
  rw [emmcverifyreadbytes, if_pos hsize]
  simp only
  by_cases hpart : (packSplit addr size).firstPackUnuse = 0 ∧ (packSplit addr size).lastPackSize = 0
  · have ha : 512 * (addr / 512) = addr := by omega
    have hn : 512 * (size / 512) = size := by omega
    rw [if_pos hpart, sameBlocks_iff, hblock, ha, hn]
  · rw [if_neg hpart]
    obtain ⟨f, k, l, hp⟩ := exists_pieces h hpart
    rw [Bool.and_eq_true, Bool.and_eq_true, verifyFirst h hp, verifyMiddle h hp, verifyLast h hp,
      ← same_add, ← same_add, hp.sum]

/-- Writing, reading and comparing bytes of the card is writing, reading and comparing an
interval of an array of bytes. -/
theorem emmc_bytes (e : Emmc) (temp : Block) (data buff : Nat → UInt8) (addr size : Nat)
    (h : addr + size < 2 ^ 32) :
    (∀ a, (writebyetstoemmc (fun _ => .ok) e temp data addr size).1.byte a =
      if addr ≤ a ∧ a < addr + size then data (a - addr) else e.byte a) ∧
    (∀ i, (readbyetsfromemmc (fun _ => .ok) e temp buff addr size).1 i =
      if i < size then e.byte (addr + i) else buff i) ∧
    (size ≠ 0 → (emmcverifyreadbytes (fun _ => .ok) e temp buff addr size = true ↔
      ∀ i < size, buff i = e.byte (addr + i))) := by
  refine ⟨fun a => ?_, fun i => ?_, fun hsize => ?_⟩
  · rw [writebyetstoemmc_byte e temp data h, overlay]
  · rw [readbyetsfromemmc_byte e temp buff h, overlay]
    simp
  · rw [emmcverifyreadbytes_iff e temp buff h hsize, Emmc.Same]
    simp

/-- Four bytes across the end of the first block. -/
theorem emmc_bytes_across :
    (writebyetstoemmc (fun _ => .ok) (fun _ => zeroBlock) zeroBlock (fun _ => 7) 510 4).1.byte 513 =
      7 ∧
    (writebyetstoemmc (fun _ => .ok) (fun _ => zeroBlock) zeroBlock (fun _ => 7) 510 4).1.byte 514 =
      0 ∧
    (readbyetsfromemmc (fun _ => .ok) (fun _ => zeroBlock) zeroBlock (fun _ => 9) 510 4).1 3 = 0 ∧
    (readbyetsfromemmc (fun _ => .ok) (fun _ => zeroBlock) zeroBlock (fun _ => 9) 510 4).1 4 = 9 ∧
    emmcverifyreadbytes (fun _ => .ok) (fun _ => zeroBlock) zeroBlock (fun _ => 9) 510 4 =
      false := by
  obtain ⟨hwrite, hread, hverify⟩ := emmc_bytes (fun _ => zeroBlock) zeroBlock (fun _ => 7)
    (fun _ => 9) 510 4 (by decide)
  refine ⟨hwrite 513, hwrite 514, hread 3, hread 4, ?_⟩
  rw [← Bool.not_eq_true, hverify (by decide)]
  exact fun h => absurd (h 0 (by decide)) (by decide)

end Lsc100
