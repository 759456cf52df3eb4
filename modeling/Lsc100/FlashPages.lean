import Mathlib.Algebra.Ring.Nat
import Mathlib.Data.List.Basic
import Lsc100.Basis.Paged
import Lsc100.Flash

/-! The page programs that `gd55b01ge_write_data` issues, on a chip whose address counter stays
in the page that is programmed. -/

namespace Lsc100

open Overlay Paged

def gd55b01geTotalSize : Nat := 0x8000000

def gd55b01geSectorSize : Nat := 4096

def gd55b01geBlock32Size : Nat := 32768

def gd55b01geBlock64Size : Nat := 65536

structure PageProgram where
  addr : Nat
  data : Nat → UInt8
  count : Nat

/-- The local variable of `gd55b01ge_write_data`, both it and `bytes_on_page` in 16 bits. -/
def bytesToWrite (currentAddr bytesRemaining : Nat) : Nat :=
  let bytesOnPage := (gd55b01gePageSize - currentAddr % gd55b01gePageSize) % 2 ^ 16
  (if bytesRemaining < bytesOnPage then bytesRemaining else bytesOnPage) % 2 ^ 16

/-- Nothing is lost in 16 bits. -/
theorem bytesToWrite_eq (currentAddr bytesRemaining : Nat) :
    bytesToWrite currentAddr bytesRemaining = pieceLength 256 currentAddr bytesRemaining := by
  have hmod := Nat.mod_lt currentAddr (by decide : 0 < 256)
  have hpage : (256 - currentAddr % 256) % 2 ^ 16 = 256 - currentAddr % 256 :=
    Nat.mod_eq_of_lt (by omega)
  have hle : pieceLength 256 currentAddr bytesRemaining ≤ 256 - currentAddr % 256 :=
    Nat.min_le_right _ _
  rw [bytesToWrite, gd55b01gePageSize, hpage, ite_eq_pieceLength]
  exact Nat.mod_eq_of_lt (by omega)

/-- The loop of `gd55b01ge_write_data`. -/
def pagePrograms (currentAddr : Nat) (buf : Nat → UInt8) (bytesRemaining : Nat) :
    List PageProgram :=
  if 0 < bytesRemaining then
    let n := bytesToWrite currentAddr bytesRemaining
    ⟨currentAddr, buf, n⟩ ::
      pagePrograms ((currentAddr + n) % 2 ^ 32) (fun i => buf (n + i)) (bytesRemaining - n)
  else []
termination_by bytesRemaining
decreasing_by
  have hpos : 0 < bytesToWrite currentAddr bytesRemaining := by
    rw [bytesToWrite_eq]
    exact pieceLength_pos (by decide) ‹_›
  omega

/-- What the chip makes of a page program. More than a page is not sent. -/
def PageProgram.perform (p : PageProgram) (cells : Nat → UInt8) : Nat → UInt8 :=
  if gd55b01gePageSize < p.count then cells
  else wrapStore (· &&& ·) gd55b01gePageSize cells (p.addr % gd55b01geTotalSize) p.data p.count

/-- `gd55b01ge_write_data` on the chip. -/
def chipWriteData (cells : Nat → UInt8) (addr : Nat) (data : Nat → UInt8) (count : Nat) :
    Nat → UInt8 :=
  (pagePrograms addr data count).foldl (fun cells p => p.perform cells) cells

def chipReadData (cells : Nat → UInt8) (addr : Nat) (data : Nat → UInt8) (count : Nat) :
    Nat → UInt8 :=
  overlay (fun _ b => b) data 0 count (fun i => cells ((addr + i) % gd55b01geTotalSize))

inductive FlashErase
  | sector (addr : Nat)
  | block32 (addr : Nat)
  | block64 (addr : Nat)
  | chip

/-- The size of what is erased, and an address in it. -/
def FlashErase.area : FlashErase → Nat × Nat
  | .sector addr => (gd55b01geSectorSize, addr)
  | .block32 addr => (gd55b01geBlock32Size, addr)
  | .block64 addr => (gd55b01geBlock64Size, addr)
  | .chip => (gd55b01geTotalSize, 0)

def FlashErase.Covers (e : FlashErase) (x : Nat) : Prop := x / e.area.1 = e.area.2 / e.area.1

instance (e : FlashErase) (x : Nat) : Decidable (e.Covers x) := inferInstanceAs (Decidable (_ = _))

def FlashErase.perform (e : FlashErase) (cells : Nat → UInt8) : Nat → UInt8 :=
  fun x => if e.Covers x then 0xFF else cells x

/-- The pieces a write is programmed in, with the address of each. -/
theorem pagePrograms_eq {addr count : Nat} (hend : addr + count ≤ gd55b01geTotalSize)
    (hpos : 0 < count) (data : Nat → UInt8) :
    pagePrograms addr data count =
      ⟨addr, data, pieceLength 256 addr count⟩ ::
        pagePrograms (addr + pieceLength 256 addr count)
          (fun i => data (pieceLength 256 addr count + i))
          (count - pieceLength 256 addr count) := by
  have hle : pieceLength 256 addr count ≤ count := pieceLength_le
  have hnext : (addr + pieceLength 256 addr count) % 2 ^ 32 =
      addr + pieceLength 256 addr count := by
    have htotal : addr + count ≤ 2 ^ 27 := hend
    exact Nat.mod_eq_of_lt (by omega)
  conv_lhs => rw [pagePrograms, if_pos hpos]
  simp only [bytesToWrite_eq, hnext]

theorem pagePrograms_zero (addr : Nat) (data : Nat → UInt8) : pagePrograms addr data 0 = [] := by
  rw [pagePrograms, if_neg (Nat.lt_irrefl 0)]

section Pages

variable {addr count : Nat} {data : Nat → UInt8}

/-- Every page program stays in one page, and in the range that is written. -/
theorem pagePrograms_within (hend : addr + count ≤ gd55b01geTotalSize) {p : PageProgram}
    (hp : p ∈ pagePrograms addr data count) :
    p.addr % gd55b01gePageSize + p.count ≤ gd55b01gePageSize ∧ addr ≤ p.addr ∧
      p.addr + p.count ≤ addr + count := by
  induction addr, count using piece_induction (by decide : 0 < 256) generalizing data with
  | done addr => simp [pagePrograms_zero] at hp
  | piece addr count hpos ih =>
    have hle : pieceLength 256 addr count ≤ count := pieceLength_le
    rw [pagePrograms_eq hend hpos] at hp
    rcases List.mem_cons.mp hp with rfl | hrest
    · exact ⟨mod_add_pieceLength (by decide), Nat.le_refl addr, by simp only; omega⟩
    · obtain ⟨hpage, hfrom, hto⟩ := ih (by omega) hrest
      exact ⟨hpage, by omega, by omega⟩

theorem length_pagePrograms (hend : addr + count ≤ gd55b01geTotalSize) (hpos : 0 < count) :
    (pagePrograms addr data count).length = (addr % 256 + count + 255) / 256 := by
  induction addr, count using piece_induction (by decide : 0 < 256) generalizing data with
  | done addr => exact absurd hpos (Nat.lt_irrefl 0)
  | piece addr count hn ih =>
    have hmod := Nat.mod_lt addr (by decide : 0 < 256)
    have hle : pieceLength 256 addr count ≤ count := pieceLength_le
    rw [pagePrograms_eq hend hpos, List.length_cons]
    rcases Nat.le_or_ge count (256 - addr % 256) with hlast | hmore
    · have hall : pieceLength 256 addr count = count := Nat.min_eq_left hlast
      rw [hall, Nat.sub_self, pagePrograms_zero, List.length_nil]
      omega
    · have hpiece : pieceLength 256 addr count = 256 - addr % 256 := Nat.min_eq_right hmore
      rcases Nat.eq_or_lt_of_le hmore with heq | hlt
      · rw [hpiece, heq, Nat.sub_self, pagePrograms_zero, List.length_nil]
        omega
      · rw [ih (by omega) (by omega), hpiece]
        omega

/-- On the chip the page programs are one write, as in `programPages`. -/
theorem chipWriteData_eq (cells : Nat → UInt8) (hend : addr + count ≤ gd55b01geTotalSize) :
    chipWriteData cells addr data count = overlay (· &&& ·) cells addr count data := by
  induction addr, count using piece_induction (by decide : 0 < 256) generalizing cells data with
  | done addr => rw [chipWriteData, pagePrograms_zero, overlay_zero, List.foldl_nil]
  | piece addr count hpos ih =>
    have hle : pieceLength 256 addr count ≤ count := pieceLength_le
    have hpage : addr % 256 + pieceLength 256 addr count ≤ 256 := mod_add_pieceLength (by decide)
    have hperform : (⟨addr, data, pieceLength 256 addr count⟩ : PageProgram).perform cells =
        overlay (· &&& ·) cells addr (pieceLength 256 addr count) data := by
      rw [PageProgram.perform, if_neg (by rw [gd55b01gePageSize]; simp only; omega)]
      simp only [Nat.mod_eq_of_lt (by omega : addr < gd55b01geTotalSize)]
      exact wrapStore_eq_overlay _ _ _ hpage
    rw [chipWriteData, pagePrograms_eq hend hpos, List.foldl_cons, hperform]
    exact (ih _ (by omega)).trans (overlay_split _ _ _ _ hle)

theorem chipReadData_in (cells buf : Nat → UInt8) (hend : addr + count ≤ gd55b01geTotalSize)
    {i : Nat} (hi : i < count) : chipReadData cells addr buf count i = cells (addr + i) := by
  rw [chipReadData, overlay_in _ _ _ (Nat.zero_le i) (by omega), Nat.sub_zero,
    Nat.mod_eq_of_lt (by omega : addr + i < gd55b01geTotalSize)]

theorem gd55b01geWriteData_chip (f : Flash) (hend : addr + count ≤ gd55b01geTotalSize) :
    (gd55b01geWriteData f addr data count).cells = chipWriteData f.cells addr data count := by
  rw [gd55b01geWriteData_cells, chipWriteData_eq f.cells hend]

end Pages

def eraseAll (es : List FlashErase) (cells : Nat → UInt8) : Nat → UInt8 :=
  es.foldl (fun cells e => e.perform cells) cells

theorem eraseAll_keeps {es : List FlashErase} {cells : Nat → UInt8} {x : Nat}
    (h : cells x = 0xFF) : eraseAll es cells x = 0xFF := by
  induction es generalizing cells with
  | nil => exact h
  | cons e es ih =>
    refine ih ?_
    change (if e.Covers x then 0xFF else cells x) = 0xFF
    split
    · rfl
    · exact h

theorem eraseAll_covered {es : List FlashErase} {cells : Nat → UInt8} {x : Nat}
    (h : ∃ e ∈ es, e.Covers x) : eraseAll es cells x = 0xFF := by
  obtain ⟨e, he, hcovers⟩ := h
  induction es generalizing cells with
  | nil => exact absurd he List.not_mem_nil
  | cons e' es ih =>
    rcases List.mem_cons.mp he with rfl | hrest
    · change eraseAll es (e.perform cells) x = 0xFF
      exact eraseAll_keeps (if_pos hcovers)
    · exact ih hrest

structure WrittenByPages (cells : Nat → UInt8) (addr : Nat) (data : Nat → UInt8) (count : Nat) :
    Prop where
  calls : (pagePrograms addr data count).length =
    if count = 0 then 0 else (addr % 256 + count + 255) / 256
  withinPage : ∀ p ∈ pagePrograms addr data count,
    p.addr % gd55b01gePageSize + p.count ≤ gd55b01gePageSize ∧ p.count ≤ gd55b01gePageSize
  written : ∀ i < count,
    chipWriteData cells addr data count (addr + i) = cells (addr + i) &&& data i
  kept : ∀ x, x < addr ∨ addr + count ≤ x → chipWriteData cells addr data count x = cells x
  readBack : ∀ es : List FlashErase, (∀ i < count, ∃ e ∈ es, e.Covers (addr + i)) →
    ∀ buf, ∀ i < count,
      chipReadData (chipWriteData (eraseAll es cells) addr data count) addr buf count i = data i

/-- Any bytes anywhere in the chip are programmed page by page, and nothing else is touched. -/
theorem gd55b01ge_writtenByPages (cells : Nat → UInt8) (addr : Nat) (data : Nat → UInt8)
    (count : Nat) (hend : addr + count ≤ gd55b01geTotalSize) :
    WrittenByPages cells addr data count := by
  refine ⟨?_, fun p hp => ?_, fun i hi => ?_, fun x hx => ?_, fun es herased buf i hi => ?_⟩
  · split
    · rename_i hzero
      rw [hzero, pagePrograms_zero, List.length_nil]
    · rename_i hsome
      exact length_pagePrograms hend (Nat.pos_of_ne_zero hsome)
  · have hpage := (pagePrograms_within hend hp).1
    exact ⟨hpage, by omega⟩
  · rw [chipWriteData_eq cells hend, overlay_add _ _ _ hi]
  · rw [chipWriteData_eq cells hend, overlay_out _ _ _ hx]
  · rw [chipReadData_in _ _ hend hi, chipWriteData_eq _ hend, overlay_add _ _ _ hi,
      eraseAll_covered (herased i hi)]
    exact UInt8.neg_one_and

theorem gd55b01ge_writtenByPages_across :
    WrittenByPages (fun _ => 0xFF) 1000 (fun i => UInt8.ofNat i) 300 :=
  gd55b01ge_writtenByPages _ _ _ _ (by decide)

end Lsc100
