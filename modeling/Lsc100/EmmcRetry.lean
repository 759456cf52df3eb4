import Mathlib.Logic.Function.Iterate
import Lsc100.EmmcBytes

/-! The retry loops of `BSP_EMMC.c` around the low-level command functions. How these end is
left to the monad: a sequence of outcomes here, a card that answers command by command below. -/

namespace Lsc100

open Overlay

inductive EmmcError
  | ok
  | error
  | cmdCrcFail
  | dataCrcFail
  | cmdRspTimeout
  | dataTimeout
  | txUnderrun
  | rxOverrun
  | startBitErr
  | addrMisaligned
  | blockLenErr
  | eraseSeqErr
  | badEraseParam
  | writeProtViolation
  | lockUnlockFailed
  | comCrcFailed
  | illegalCmd
  | cardEccFailed
  | ccError
  | generalUnknownError
  | streamReadUnderrun
  | streamWriteOverrun
  | cardEccDisabled
  | eraseReset
  | akeSeqError
  | addrOutOfRange
  | requestNotApplicable
  deriving DecidableEq

section Retry

variable {m : Type → Type} [Monad m]

/-- `while((errorstatus!=EMMC_OK)&&(Timeout)) { errorstatus = attempt; Timeout--; }`, with the
value of `Timeout` behind the loop. -/
def retry (attempt : m EmmcError) : Nat → m Nat
  | 0 => pure 0
  | timeout + 1 => do
    let errorstatus ← attempt
    if errorstatus = .ok then pure timeout else retry attempt timeout

def emmcEraseBlocks (erase : m EmmcError) (numberOfBlocks : Nat) : m Bool :=
  if numberOfBlocks ≠ 0 then do
    let timeout ← retry erase 3
    if timeout = 0 then pure false else pure true
  else pure true

def emmcerasewriteblocks (erase write : m EmmcError) (numberOfBlocks : Nat) : m Bool :=
  if numberOfBlocks ≠ 0 then do
    let timeout ← retry erase 3
    if timeout = 0 then pure false
    else do
      let timeout ← retry write 3
      if timeout = 0 then pure false else pure true
  else pure true

def emmcreadblocks (read : m EmmcError) (numberOfBlocks : Nat) : m Bool :=
  if numberOfBlocks ≠ 0 then do
    let timeout ← retry read 3
    if timeout = 0 then pure false else pure true
  else pure true

end Retry

section State

theorem pure_apply {σ α : Type} (a : α) (s : σ) : (pure a : StateM σ α) s = (a, s) := rfl

variable {σ : Type} {attempt : StateM σ EmmcError}

theorem retry_succ (timeout : Nat) (s : σ) :
    retry attempt (timeout + 1) s =
      (if (attempt s).1 = .ok then pure timeout else retry attempt timeout) (attempt s).2 :=
  rfl

theorem retry_succ_of_ok {timeout : Nat} {s : σ} (h : (attempt s).1 = .ok) :
    retry attempt (timeout + 1) s = (timeout, (attempt s).2) := by
  rw [retry_succ, if_pos h]
  rfl

theorem retry_succ_of_failed {timeout : Nat} {s : σ} (h : (attempt s).1 ≠ .ok) :
    retry attempt (timeout + 1) s = retry attempt timeout (attempt s).2 := by
  rw [retry_succ, if_neg h]

/-- Nothing is left of `Timeout` unless an attempt before the last one succeeds. -/
theorem retry_eq_zero_iff (attempt : StateM σ EmmcError) (timeout : Nat) (s : σ) :
    (retry attempt (timeout + 1) s).1 = 0 ↔
      ∀ k < timeout, (attempt ((fun s => (attempt s).2)^[k] s)).1 ≠ .ok := by
  induction timeout generalizing s with
  | zero =>
    by_cases h : (attempt s).1 = .ok
    · simp [retry_succ_of_ok h]
    · rw [retry_succ_of_failed h]
      simp [retry, pure_apply]
  | succ timeout ih =>
    by_cases h : (attempt s).1 = .ok
    · rw [retry_succ_of_ok h]
      constructor
      · intro h0
        exact absurd h0 (Nat.succ_ne_zero _)
      · intro hall
        exact absurd h (hall 0 (Nat.succ_pos _))
    · rw [retry_succ_of_failed h, ih]
      constructor
      · rintro hall (_ | k) hk
        · exact h
        · exact hall k (Nat.lt_of_succ_lt_succ hk)
      · intro hall k hk
        exact hall (k + 1) (Nat.succ_lt_succ hk)

theorem retry_invariant (inv : σ → Prop) (hstep : ∀ s, inv s → inv (attempt s).2) {timeout : Nat}
    {s : σ} (h : inv s) : inv (retry attempt timeout s).2 := by
  induction timeout generalizing s with
  | zero => exact h
  | succ timeout ih =>
    by_cases hok : (attempt s).1 = .ok
    · rw [retry_succ_of_ok hok]
      exact hstep s h
    · rw [retry_succ_of_failed hok]
      exact ih (hstep s h)

end State

section Wrappers

variable {σ : Type} {erase write read : StateM σ EmmcError} {n : Nat}

theorem emmcreadblocks_apply (h : n ≠ 0) (s : σ) :
    emmcreadblocks read n s = (decide ((retry read 3 s).1 ≠ 0), (retry read 3 s).2) := by
  have hrun : emmcreadblocks read n s =
      (if (retry read 3 s).1 = 0 then (pure false : StateM σ Bool) else pure true)
        (retry read 3 s).2 := by
    rw [emmcreadblocks, if_pos h]
    rfl
  rw [hrun]
  by_cases h0 : (retry read 3 s).1 = 0
  · rw [if_pos h0, h0]
    rfl
  · rw [if_neg h0, decide_eq_true h0]
    rfl

theorem emmcEraseBlocks_apply (h : n ≠ 0) (s : σ) :
    emmcEraseBlocks erase n s = (decide ((retry erase 3 s).1 ≠ 0), (retry erase 3 s).2) :=
  emmcreadblocks_apply h s

theorem emmcerasewriteblocks_of_erase_failed (h : n ≠ 0) {s : σ} (h0 : (retry erase 3 s).1 = 0) :
    emmcerasewriteblocks erase write n s = (false, (retry erase 3 s).2) := by
  have hrun : emmcerasewriteblocks erase write n s =
      (if (retry erase 3 s).1 = 0 then (pure false : StateM σ Bool)
        else emmcreadblocks write n) (retry erase 3 s).2 := by
    rw [emmcerasewriteblocks, emmcreadblocks, if_pos h, if_pos h]
    rfl
  rw [hrun, if_pos h0]
  rfl

theorem emmcerasewriteblocks_of_erased (h : n ≠ 0) {s : σ} (h0 : (retry erase 3 s).1 ≠ 0) :
    emmcerasewriteblocks erase write n s =
      (decide ((retry write 3 (retry erase 3 s).2).1 ≠ 0),
        (retry write 3 (retry erase 3 s).2).2) := by
  have hrun : emmcerasewriteblocks erase write n s =
      (if (retry erase 3 s).1 = 0 then (pure false : StateM σ Bool)
        else emmcreadblocks write n) (retry erase 3 s).2 := by
    rw [emmcerasewriteblocks, emmcreadblocks, if_pos h, if_pos h]
    rfl
  rw [hrun, if_neg h0, emmcreadblocks_apply h]

end Wrappers

/-- How often each command function has been called. -/
structure EmmcCalls where
  erase : Nat
  write : Nat
  read : Nat

def EmmcCalls.none : EmmcCalls := ⟨0, 0, 0⟩

structure EmmcOutcomes where
  erase : Nat → EmmcError
  write : Nat → EmmcError
  read : Nat → EmmcError

namespace EmmcOutcomes

def emmcErasemultiblock (o : EmmcOutcomes) : StateM EmmcCalls EmmcError :=
  fun c => (o.erase c.erase, { c with erase := c.erase + 1 })

def emmcWriteMultiBlocks (o : EmmcOutcomes) : StateM EmmcCalls EmmcError :=
  fun c => (o.write c.write, { c with write := c.write + 1 })

def emmcReadMultiBlocks (o : EmmcOutcomes) : StateM EmmcCalls EmmcError :=
  fun c => (o.read c.read, { c with read := c.read + 1 })

variable (o : EmmcOutcomes)

theorem iterate_erase (k : Nat) (c : EmmcCalls) :
    (fun c => (o.emmcErasemultiblock c).2)^[k] c = { c with erase := c.erase + k } := by
  induction k with
  | zero => rfl
  | succ k ih => rw [Function.iterate_succ_apply', ih]; rfl

theorem iterate_write (k : Nat) (c : EmmcCalls) :
    (fun c => (o.emmcWriteMultiBlocks c).2)^[k] c = { c with write := c.write + k } := by
  induction k with
  | zero => rfl
  | succ k ih => rw [Function.iterate_succ_apply', ih]; rfl

theorem iterate_read (k : Nat) (c : EmmcCalls) :
    (fun c => (o.emmcReadMultiBlocks c).2)^[k] c = { c with read := c.read + k } := by
  induction k with
  | zero => rfl
  | succ k ih => rw [Function.iterate_succ_apply', ih]; rfl

end EmmcOutcomes

def Succeeds (outcome : Nat → EmmcError) : Prop := ∃ k < 3, outcome k = .ok

def SucceedsLast (outcome : Nat → EmmcError) : Prop :=
  outcome 0 ≠ .ok ∧ outcome 1 ≠ .ok ∧ outcome 2 = .ok

def FailsTwice (outcome : Nat → EmmcError) : Prop := ∀ k < 2, outcome k ≠ .ok

section Outcomes

variable (o : EmmcOutcomes) (c : EmmcCalls)

theorem retry_erase_eq_zero_iff : (retry o.emmcErasemultiblock 3 c).1 = 0 ↔
    FailsTwice fun k => o.erase (c.erase + k) := by
  rw [retry_eq_zero_iff]
  simp only [o.iterate_erase]
  rfl

theorem retry_write_eq_zero_iff : (retry o.emmcWriteMultiBlocks 3 c).1 = 0 ↔
    FailsTwice fun k => o.write (c.write + k) := by
  rw [retry_eq_zero_iff]
  simp only [o.iterate_write]
  rfl

theorem retry_read_eq_zero_iff : (retry o.emmcReadMultiBlocks 3 c).1 = 0 ↔
    FailsTwice fun k => o.read (c.read + k) := by
  rw [retry_eq_zero_iff]
  simp only [o.iterate_read]
  rfl

theorem retry_erase_write : (retry o.emmcErasemultiblock 3 c).2.write = c.write :=
  retry_invariant (fun c' : EmmcCalls => c'.write = c.write) (fun _ h => h) rfl

theorem retry_write_pos : 0 < (retry o.emmcWriteMultiBlocks 3 c).2.write := by
  by_cases h : (o.emmcWriteMultiBlocks c).1 = .ok
  · rw [retry_succ_of_ok h]
    exact Nat.succ_pos _
  · rw [retry_succ_of_failed h]
    exact retry_invariant (fun c' : EmmcCalls => 0 < c'.write) (fun _ _ => Nat.succ_pos _)
      (Nat.succ_pos _)

end Outcomes

theorem succeeds_iff_succeedsLast {outcome : Nat → EmmcError} (h : FailsTwice outcome) :
    Succeeds outcome ↔ SucceedsLast outcome := by
  constructor
  · rintro ⟨k, hk, hok⟩
    have h2 : k = 2 := by
      by_contra hne
      exact h k (by omega) hok
    subst h2
    exact ⟨h 0 (by decide), h 1 (by decide), hok⟩
  · rintro ⟨-, -, hok⟩
    exact ⟨2, by decide, hok⟩

theorem succeeds_of_not_failsTwice {outcome : Nat → EmmcError} (h : ¬ FailsTwice outcome) :
    Succeeds outcome ∧ ¬ SucceedsLast outcome := by
  simp only [FailsTwice, not_forall, ne_eq, not_not] at h
  obtain ⟨k, hk, hok⟩ := h
  refine ⟨⟨k, by omega, hok⟩, ?_⟩
  rintro ⟨h0, h1, -⟩
  obtain rfl | rfl : k = 0 ∨ k = 1 := by omega
  · exact h0 hok
  · exact h1 hok

/-- A stage that is reported as failed after two failures is reported wrongly if its last
attempt succeeds. -/
theorem report_iff (outcome : Nat → EmmcError) :
    (¬ FailsTwice outcome ↔ Succeeds outcome) ↔ ¬ SucceedsLast outcome := by
  by_cases h : FailsTwice outcome
  · simp [h, succeeds_iff_succeedsLast h]
  · simp [h, succeeds_of_not_failsTwice h]

section Card

/-- How an attempt ends, and what it leaves in its blocks. -/
structure EmmcAttempt where
  errorstatus : EmmcError
  junk : Blocks

/-- An attempt that is to bring `good` to its blocks. -/
def EmmcAttempt.filled (good : Blocks) (a : EmmcAttempt) : Blocks :=
  if a.errorstatus = .ok then good else a.junk

/-- The next attempt on the blocks from `addr` on. -/
def fillBlocks (a : Nat → EmmcAttempt) (d : EmmcAttempt → Blocks) (addr n : Nat) :
    StateM ((Nat → Block) × Nat) EmmcError :=
  fun s => ((a s.2).errorstatus, overlay (fun _ b => b) s.1 addr n (d (a s.2)), s.2 + 1)

variable (a : Nat → EmmcAttempt) (d : EmmcAttempt → Blocks) (addr n : Nat)

/-- After the loop the blocks are as one of its attempts has left them, a successful one if the
loop reports success. -/
theorem retry_fillBlocks (timeout : Nat) (s : (Nat → Block) × Nat) :
    ∃ k, (retry (fillBlocks a d addr n) (timeout + 1) s).2.1 =
        overlay (fun _ b => b) s.1 addr n (d (a k)) ∧
      ((retry (fillBlocks a d addr n) (timeout + 1) s).1 ≠ 0 → (a k).errorstatus = .ok) := by
  induction timeout generalizing s with
  | zero =>
    refine ⟨s.2, ?_⟩
    by_cases h : (a s.2).errorstatus = .ok
    · rw [retry_succ_of_ok h]
      exact ⟨rfl, fun h0 => absurd rfl h0⟩
    · rw [retry_succ_of_failed h]
      exact ⟨rfl, fun h0 => absurd rfl h0⟩
  | succ timeout ih =>
    by_cases h : (a s.2).errorstatus = .ok
    · rw [retry_succ_of_ok h]
      exact ⟨s.2, rfl, fun _ => h⟩
    · rw [retry_succ_of_failed h]
      obtain ⟨k, hblocks, hok⟩ := ih (fillBlocks a d addr n s).2
      refine ⟨k, ?_, hok⟩
      rw [hblocks]
      exact overlay_overlay s.1 (d (a s.2)) (d (a k))

/-- The two stages on the card are one operation that succeeds or leaves junk. -/
theorem emmcerasewriteblocks_card (data : Blocks) (s : Emmc × Nat) :
    ∃ io, ((emmcerasewriteblocks (fillBlocks a EmmcAttempt.junk addr n)
        (fillBlocks a (EmmcAttempt.filled data) addr n) n s).2.1,
      (emmcerasewriteblocks (fillBlocks a EmmcAttempt.junk addr n)
        (fillBlocks a (EmmcAttempt.filled data) addr n) n s).1) =
      emmcEraseWriteBlocks io s.1 data addr n := by
  by_cases hn : n = 0
  · refine ⟨.ok, ?_⟩
    rw [emmcerasewriteblocks, emmcEraseWriteBlocks, if_neg (not_not_intro hn),
      if_neg (not_not_intro hn)]
    rfl
  · obtain ⟨k, herase, -⟩ := retry_fillBlocks a EmmcAttempt.junk addr n 2 s
    by_cases h0 : (retry (fillBlocks a EmmcAttempt.junk addr n) 3 s).1 = 0
    · refine ⟨.failed (a k).junk, ?_⟩
      rw [emmcerasewriteblocks_of_erase_failed hn h0, herase, emmcEraseWriteBlocks, if_pos hn]
      rfl
    · obtain ⟨l, hwrite, hok⟩ := retry_fillBlocks a (EmmcAttempt.filled data) addr n 2
        (retry (fillBlocks a EmmcAttempt.junk addr n) 3 s).2
      rw [herase, overlay_overlay] at hwrite
      rw [emmcerasewriteblocks_of_erased hn h0, hwrite]
      by_cases h1 : (retry (fillBlocks a (EmmcAttempt.filled data) addr n) 3
          (retry (fillBlocks a EmmcAttempt.junk addr n) 3 s).2).1 = 0
      · refine ⟨.failed (EmmcAttempt.filled data (a l)), ?_⟩
        rw [h1, emmcEraseWriteBlocks, if_pos hn]
        rfl
      · refine ⟨.ok, ?_⟩
        rw [decide_eq_true h1, EmmcAttempt.filled, if_pos (hok h1), emmcEraseWriteBlocks,
          if_pos hn]
        rfl

theorem emmcreadblocks_card (e : Emmc) (readAddr : Nat) (s : Blocks × Nat) :
    ∃ io, ((emmcreadblocks (fillBlocks a (EmmcAttempt.filled fun i => e (readAddr + i)) 0 n)
        n s).2.1,
      (emmcreadblocks (fillBlocks a (EmmcAttempt.filled fun i => e (readAddr + i)) 0 n) n s).1) =
      emmcReadBlocks io e s.1 readAddr n := by
  by_cases hn : n = 0
  · refine ⟨.ok, ?_⟩
    rw [emmcreadblocks, emmcReadBlocks, if_neg (not_not_intro hn), if_neg (not_not_intro hn)]
    rfl
  · obtain ⟨k, hread, hok⟩ :=
      retry_fillBlocks a (EmmcAttempt.filled fun i => e (readAddr + i)) 0 n 2 s
    rw [emmcreadblocks_apply hn, hread]
    by_cases h0 : (retry (fillBlocks a (EmmcAttempt.filled fun i => e (readAddr + i)) 0 n) 3
        s).1 = 0
    · refine ⟨.failed (EmmcAttempt.filled (fun i => e (readAddr + i)) (a k)), ?_⟩
      rw [h0, emmcReadBlocks, if_pos hn]
      rfl
    · refine ⟨.ok, ?_⟩
      rw [decide_eq_true h0, EmmcAttempt.filled, if_pos (hok h0), emmcReadBlocks, if_pos hn]
      rfl

end Card

section Bytes

/-- A block operation, with its result appended to those of the earlier ones. -/
def logged {α : Type} (r : α × Bool) : StateM (List Bool) α := fun l => (r.1, l ++ [r.2])

/-- `writebyetstoemmc` with the results of its block operations. -/
def writebyetstoemmcLogged (io : Nat → BlockIo) (e : Emmc) (temp : Block) (data : Nat → UInt8)
    (addr size : Nat) : StateM (List Bool) (Emmc × Bool) :=
  if size ≠ 0 then
    let p := packSplit addr size
    if p.firstPackUnuse = 0 ∧ p.lastPackSize = 0 then do
      let e ← logged (emmcEraseWriteBlocks (io 0) e (blocksOf data 0) (addr / emmcBlockSize)
        (size / emmcBlockSize))
      pure (e, true)
    else do
      let (e, temp) ← if p.firstPackUnuse ≠ 0 then do
          let blocks ← logged (emmcReadBlocks (io 0) e (fun _ => temp)
            (p.firstPackAddr / emmcBlockSize) 1)
          let temp := (blocks 0).copy p.firstPackUnuse p.firstPackSize data
          let e ← logged (emmcEraseWriteBlocks (io 1) e (fun _ => temp)
            (p.firstPackAddr / emmcBlockSize) 1)
          pure (e, temp)
        else pure (e, temp)
      let e ← if p.firstPackUnuse ≠ 0 then
          logged (emmcEraseWriteBlocks (io 2) e (blocksOf data p.firstPackSize)
            (p.firstPackAddr / emmcBlockSize + 1) (p.packNum size))
        else
          logged (emmcEraseWriteBlocks (io 2) e (blocksOf data 0)
            (p.firstPackAddr / emmcBlockSize) (p.packNum size))
      if p.firstPackSize = size ∧ p.firstPackUnuse ≠ 0 then pure (e, true)
      else if p.lastPackSize ≠ 0 then do
        let blocks ← logged (emmcReadBlocks (io 3) e (fun _ => temp)
          (p.lastPackAddr / emmcBlockSize) 1)
        let temp := (blocks 0).copy 0 p.lastPackSize fun k => data (size - p.lastPackSize + k)
        let e ← logged (emmcEraseWriteBlocks (io 4) e (fun _ => temp)
          (p.lastPackAddr / emmcBlockSize) 1)
        pure (e, true)
      else pure (e, true)
  else pure (e, true)

def readbyetsfromemmcLogged (io : Nat → BlockIo) (e : Emmc) (temp : Block) (buff : Nat → UInt8)
    (addr size : Nat) : StateM (List Bool) ((Nat → UInt8) × Bool) :=
  if size ≠ 0 then
    let p := packSplit addr size
    if p.firstPackUnuse = 0 ∧ p.lastPackSize = 0 then do
      let blocks ← logged (emmcReadBlocks (io 0) e (blocksOf buff 0) (addr / emmcBlockSize)
        (size / emmcBlockSize))
      pure (overlay (fun _ b => b) buff 0 (512 * (size / emmcBlockSize)) blocks.byte, true)
    else do
      let (buff, temp) ← if p.firstPackUnuse ≠ 0 then do
          let blocks ← logged (emmcReadBlocks (io 0) e (fun _ => temp)
            (p.firstPackAddr / emmcBlockSize) 1)
          let temp := blocks 0
          pure (overlay (fun _ b => b) buff 0 p.firstPackSize fun k =>
            temp.byte (p.firstPackUnuse + k), temp)
        else pure (buff, temp)
      let buff ←
        if p.firstPackSize = size ∧ p.firstPackUnuse ≠ 0 then pure buff
        else if p.lastPackSize ≠ 0 then do
          let blocks ← logged (emmcReadBlocks (io 1) e (fun _ => temp)
            (p.lastPackAddr / emmcBlockSize) 1)
          pure (overlay (fun _ b => b) buff (size - p.lastPackSize) p.lastPackSize
            (blocks 0).byte)
        else pure buff
      if p.firstPackUnuse ≠ 0 then do
        let blocks ← logged (emmcReadBlocks (io 2) e (blocksOf buff p.firstPackSize)
          (p.firstPackAddr / emmcBlockSize + 1) (p.packNum size))
        pure (overlay (fun _ b => b) buff p.firstPackSize (512 * p.packNum size) blocks.byte, true)
      else do
        let blocks ← logged (emmcReadBlocks (io 2) e (blocksOf buff 0)
          (p.firstPackAddr / emmcBlockSize) (p.packNum size))
        pure (overlay (fun _ b => b) buff 0 (512 * p.packNum size) blocks.byte, true)
  else pure (buff, true)

/-- The block operations that `writebyetstoemmc` performs, by their places in the source, with
the number of blocks of each. -/
def writebyetsOps (addr size : Nat) : List (Nat × Nat) :=
  let p := packSplit addr size
  if size = 0 then []
  else if p.firstPackUnuse = 0 ∧ p.lastPackSize = 0 then [(0, size / emmcBlockSize)]
  else
    (if p.firstPackUnuse ≠ 0 then [(0, 1), (1, 1)] else []) ++ [(2, p.packNum size)] ++
      if (p.firstPackSize = size ∧ p.firstPackUnuse ≠ 0) ∨ p.lastPackSize = 0 then []
      else [(3, 1), (4, 1)]

def readbyetsOps (addr size : Nat) : List (Nat × Nat) :=
  let p := packSplit addr size
  if size = 0 then []
  else if p.firstPackUnuse = 0 ∧ p.lastPackSize = 0 then [(0, size / emmcBlockSize)]
  else
    (if p.firstPackUnuse ≠ 0 then [(0, 1)] else []) ++
      (if (p.firstPackSize = size ∧ p.firstPackUnuse ≠ 0) ∨ p.lastPackSize = 0 then []
        else [(1, 1)]) ++ [(2, p.packNum size)]

def opResult (io : Nat → BlockIo) (op : Nat × Nat) : Bool := op.2 == 0 || (io op.1).isOk

theorem emmcEraseWriteBlocks_result (io : Nat → BlockIo) (e : Emmc) (d : Blocks) (k a n : Nat) :
    (emmcEraseWriteBlocks (io k) e d a n).2 = opResult io (k, n) := by
  by_cases hn : n = 0 <;> simp [emmcEraseWriteBlocks, opResult, hn]

theorem emmcReadBlocks_result (io : Nat → BlockIo) (e : Emmc) (d : Blocks) (k a n : Nat) :
    (emmcReadBlocks (io k) e d a n).2 = opResult io (k, n) := by
  by_cases hn : n = 0 <;> simp [emmcReadBlocks, opResult, hn]

theorem writebyetstoemmcLogged_eq (io : Nat → BlockIo) (e : Emmc) (temp : Block)
    (data : Nat → UInt8) (addr size : Nat) (l : List Bool) :
    writebyetstoemmcLogged io e temp data addr size l =
      (writebyetstoemmc io e temp data addr size,
        l ++ (writebyetsOps addr size).map (opResult io)) := by
  rw [writebyetstoemmcLogged, writebyetstoemmc, writebyetsOps]
  by_cases hsize : size = 0
  · simp only [hsize]
    simp [pure_apply]
  · rw [if_pos hsize, if_pos hsize]
    simp only [if_neg hsize]
    by_cases hwhole : (packSplit addr size).firstPackUnuse = 0 ∧
        (packSplit addr size).lastPackSize = 0
    · rw [if_pos hwhole, if_pos hwhole, if_pos hwhole]
      simp [logged, bind, StateT.bind, pure_apply, emmcEraseWriteBlocks_result]
    · rw [if_neg hwhole, if_neg hwhole, if_neg hwhole]
      by_cases hfirst : (packSplit addr size).firstPackUnuse = 0 <;>
        by_cases hlast : (packSplit addr size).lastPackSize = 0 <;>
        by_cases hone : (packSplit addr size).firstPackSize = size <;>
        simp [hfirst, hlast, hone, logged, bind, StateT.bind, pure_apply, emmcReadTemp,
          emmcEraseWriteBlocks_result, emmcReadBlocks_result]

theorem readbyetsfromemmcLogged_eq (io : Nat → BlockIo) (e : Emmc) (temp : Block)
    (buff : Nat → UInt8) (addr size : Nat) (l : List Bool) :
    readbyetsfromemmcLogged io e temp buff addr size l =
      (readbyetsfromemmc io e temp buff addr size,
        l ++ (readbyetsOps addr size).map (opResult io)) := by
  rw [readbyetsfromemmcLogged, readbyetsfromemmc, readbyetsOps]
  by_cases hsize : size = 0
  · simp only [hsize]
    simp [pure_apply]
  · rw [if_pos hsize, if_pos hsize]
    simp only [if_neg hsize]
    by_cases hwhole : (packSplit addr size).firstPackUnuse = 0 ∧
        (packSplit addr size).lastPackSize = 0
    · rw [if_pos hwhole, if_pos hwhole, if_pos hwhole]
      simp [logged, bind, StateT.bind, pure_apply, emmcReadBlocksTo,
        emmcReadBlocks_result]
    · rw [if_neg hwhole, if_neg hwhole, if_neg hwhole]
      by_cases hfirst : (packSplit addr size).firstPackUnuse = 0 <;>
        by_cases hlast : (packSplit addr size).lastPackSize = 0 <;>
        by_cases hone : (packSplit addr size).firstPackSize = size <;>
        simp [hfirst, hlast, hone, logged, bind, StateT.bind, pure_apply, emmcReadTemp,
          emmcReadBlocksTo, emmcReadBlocks_result]

theorem writebyetstoemmc_returns_true (io : Nat → BlockIo) (e : Emmc) (temp : Block)
    (data : Nat → UInt8) (addr size : Nat) :
    (writebyetstoemmc io e temp data addr size).2 = true := by
  simp only [writebyetstoemmc]
  repeat' split
  all_goals rfl

theorem readbyetsfromemmc_returns_true (io : Nat → BlockIo) (e : Emmc) (temp : Block)
    (buff : Nat → UInt8) (addr size : Nat) :
    (readbyetsfromemmc io e temp buff addr size).2 = true := by
  simp only [readbyetsfromemmc]
  repeat' split
  all_goals rfl

theorem all_results_iff (io : Nat → BlockIo) (ops : List (Nat × Nat)) :
    (∀ r ∈ [] ++ ops.map (opResult io), r = true) ↔
      ∀ op ∈ ops, op.2 = 0 ∨ (io op.1).isOk = true := by
  simp [opResult, or_iff_not_imp_left]

end Bytes

section Truthful

variable (o : EmmcOutcomes) (n : Nat)

def ReadBlocksTruthful : Prop :=
  (emmcreadblocks o.emmcReadMultiBlocks n .none).1 = true ↔ (n ≠ 0 → Succeeds o.read)

def EraseBlocksTruthful : Prop :=
  (emmcEraseBlocks o.emmcErasemultiblock n .none).1 = true ↔ (n ≠ 0 → Succeeds o.erase)

/-- Also, the write stage is entered when the erase stage has succeeded. -/
def EraseWriteBlocksTruthful : Prop :=
  ((emmcerasewriteblocks o.emmcErasemultiblock o.emmcWriteMultiBlocks n .none).1 = true ↔
    (n ≠ 0 → Succeeds o.erase ∧ Succeeds o.write)) ∧
  (n ≠ 0 → Succeeds o.erase →
    0 < (emmcerasewriteblocks o.emmcErasemultiblock o.emmcWriteMultiBlocks n .none).2.write)

def ReadBytesTruthful (io : Nat → BlockIo) (e : Emmc) (temp : Block) (buff : Nat → UInt8)
    (addr size : Nat) : Prop :=
  (readbyetsfromemmcLogged io e temp buff addr size []).1.2 = true →
    ∀ r ∈ (readbyetsfromemmcLogged io e temp buff addr size []).2, r = true

def WriteBytesTruthful (io : Nat → BlockIo) (e : Emmc) (temp : Block) (data : Nat → UInt8)
    (addr size : Nat) : Prop :=
  (writebyetstoemmcLogged io e temp data addr size []).1.2 = true →
    ∀ r ∈ (writebyetstoemmcLogged io e temp data addr size []).2, r = true

variable {o n}

theorem readBlocksTruthful_iff : ReadBlocksTruthful o n ↔ n = 0 ∨ ¬ SucceedsLast o.read := by
  rw [ReadBlocksTruthful]
  by_cases hn : n = 0
  · simp [emmcreadblocks, hn, pure_apply]
  · rw [emmcreadblocks_apply hn, decide_eq_true_iff, ne_eq, retry_read_eq_zero_iff]
    simp only [EmmcCalls.none, Nat.zero_add]
    rw [or_iff_right hn, ← report_iff, imp_iff_right hn]

theorem eraseBlocksTruthful_iff : EraseBlocksTruthful o n ↔ n = 0 ∨ ¬ SucceedsLast o.erase := by
  rw [EraseBlocksTruthful]
  by_cases hn : n = 0
  · simp [emmcEraseBlocks, hn, pure_apply]
  · rw [emmcEraseBlocks_apply hn, decide_eq_true_iff, ne_eq, retry_erase_eq_zero_iff]
    simp only [EmmcCalls.none, Nat.zero_add]
    rw [or_iff_right hn, ← report_iff, imp_iff_right hn]

theorem eraseWriteBlocksTruthful_iff : EraseWriteBlocksTruthful o n ↔
    n = 0 ∨ ¬ SucceedsLast o.erase ∧ (Succeeds o.erase → ¬ SucceedsLast o.write) := by
  rw [EraseWriteBlocksTruthful]
  by_cases hn : n = 0
  · simp [emmcerasewriteblocks, hn, pure_apply]
  rw [or_iff_right hn]
  by_cases h0 : (retry o.emmcErasemultiblock 3 .none).1 = 0
  · rw [emmcerasewriteblocks_of_erase_failed hn h0, retry_erase_write]
    rw [retry_erase_eq_zero_iff] at h0
    simp only [EmmcCalls.none, Nat.zero_add] at h0 ⊢
    have hs := succeeds_iff_succeedsLast h0
    by_cases hlast : SucceedsLast o.erase
    · simp [hs, hlast, hn]
    · simp [hs, hlast, hn]
  · have hcalls := retry_write_pos o (retry o.emmcErasemultiblock 3 .none).2
    have hwrite := retry_write_eq_zero_iff o (retry o.emmcErasemultiblock 3 .none).2
    rw [retry_erase_write] at hwrite
    rw [emmcerasewriteblocks_of_erased hn h0]
    rw [retry_erase_eq_zero_iff] at h0
    simp only [decide_eq_true_iff, ne_eq, hwrite, hcalls]
    simp only [EmmcCalls.none, Nat.zero_add] at h0 ⊢
    obtain ⟨hs, hlast⟩ := succeeds_of_not_failsTwice h0
    simp only [hs, hlast, hn, true_and, not_false_eq_true, forall_const, and_true]
    exact report_iff o.write

end Truthful

/-- A stage whose last attempt is the first to succeed is reported as failed, and the two byte
operations ignore what their block operations report. -/
theorem emmc_truthful_iff (o : EmmcOutcomes) (n : Nat) (io : Nat → BlockIo) (e : Emmc)
    (temp : Block) (bytes : Nat → UInt8) (addr size : Nat) :
    (ReadBlocksTruthful o n ↔ n = 0 ∨ ¬ SucceedsLast o.read) ∧
    (EraseBlocksTruthful o n ↔ n = 0 ∨ ¬ SucceedsLast o.erase) ∧
    (EraseWriteBlocksTruthful o n ↔
      n = 0 ∨ ¬ SucceedsLast o.erase ∧ (Succeeds o.erase → ¬ SucceedsLast o.write)) ∧
    (ReadBytesTruthful io e temp bytes addr size ↔
      ∀ op ∈ readbyetsOps addr size, op.2 = 0 ∨ (io op.1).isOk = true) ∧
    (WriteBytesTruthful io e temp bytes addr size ↔
      ∀ op ∈ writebyetsOps addr size, op.2 = 0 ∨ (io op.1).isOk = true) := by
  refine ⟨readBlocksTruthful_iff, eraseBlocksTruthful_iff, eraseWriteBlocksTruthful_iff, ?_, ?_⟩
  · rw [ReadBytesTruthful, readbyetsfromemmcLogged_eq, all_results_iff]
    exact imp_iff_right (readbyetsfromemmc_returns_true io e temp bytes addr size)
  · rw [WriteBytesTruthful, writebyetstoemmcLogged_eq, all_results_iff]
    exact imp_iff_right (writebyetstoemmc_returns_true io e temp bytes addr size)

def thirdTime : EmmcOutcomes where
  erase k := if k < 2 then .cmdRspTimeout else .ok
  write k := if k < 2 then .cmdRspTimeout else .ok
  read k := if k < 2 then .cmdRspTimeout else .ok

theorem emmc_not_truthful : ¬ ReadBlocksTruthful thirdTime 1 ∧ ¬ EraseBlocksTruthful thirdTime 1 ∧
    ¬ EraseWriteBlocksTruthful thirdTime 1 ∧
    ¬ ReadBytesTruthful (fun _ => .failed fun _ => zeroBlock) (fun _ => zeroBlock) zeroBlock
      (fun _ => 0) 0 512 ∧
    ¬ WriteBytesTruthful (fun _ => .failed fun _ => zeroBlock) (fun _ => zeroBlock) zeroBlock
      (fun _ => 0) 0 512 := by
  refine ⟨?_, ?_, ?_, ?_, ?_⟩
  · rw [readBlocksTruthful_iff]
    simp [SucceedsLast, thirdTime]
  · rw [eraseBlocksTruthful_iff]
    simp [SucceedsLast, thirdTime]
  · rw [eraseWriteBlocksTruthful_iff]
    simp [SucceedsLast, thirdTime]
  · rw [ReadBytesTruthful, readbyetsfromemmcLogged_eq]
    exact fun h => absurd (h rfl false (by decide)) (by decide)
  · rw [WriteBytesTruthful, writebyetstoemmcLogged_eq]
    exact fun h => absurd (h rfl false (by decide)) (by decide)

end Lsc100
