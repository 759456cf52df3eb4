import Lsc100.EmmcCardRuns

/-! The block operations of `BSP_EMMC.c` on the bus, against `Emmc`, which the rest of the
firmware is modelled on. -/

namespace Lsc100

open Polling Overlay

inductive EmmcOp
  | erase (addr n : Nat)
  | write (data : Blocks) (addr n : Nat)
  | read (buf : Blocks) (addr n : Nat)

inductive EmmcReply
  | done (ok : Bool)
  | blocks (buf : Blocks) (ok : Bool)

namespace EmmcOp

def program (card : EmmcCardInfo) : EmmcOp → Sdio Bool
  | erase addr n =>
    emmcEraseBlocks (emmcErasemultiblock card addr ((addr + n - 1) % 2 ^ 32)) n
  | write _ addr n => sdioEraseWriteBlocks card addr n
  | read _ addr n => sdioReadBlocks addr n

/-- The buffer of the caller is where the transfers go. -/
def load (s : EmmcBus) : EmmcOp → EmmcBus
  | erase _ _ => s
  | write data _ _ => { s with writebuff := data }
  | read buf _ _ => { s with readbuff := buf }

def reply (ok : Bool) (s : EmmcBus) : EmmcOp → EmmcReply
  | erase _ _ => .done ok
  | write _ _ _ => .done ok
  | read _ _ _ => .blocks s.readbuff ok

def onEmmc (erased : Block) (io : BlockIo) (e : Emmc) : EmmcOp → Emmc × EmmcReply
  | erase addr n =>
    let (e', ok) := emmcEraseWriteBlocks io e (fun _ => erased) addr n
    (e', .done ok)
  | write data addr n =>
    let (e', ok) := emmcEraseWriteBlocks io e data addr n
    (e', .done ok)
  | read buf addr n =>
    let (buf', ok) := emmcReadBlocks io e buf addr n
    (e, .blocks buf' ok)

def Inside : EmmcOp → Prop
  | erase addr n => addr + n ≤ 2 ^ 32
  | write _ addr n => addr + n ≤ 2 ^ 32 ∧ n < 2 ^ 16
  | read _ _ n => n < 2 ^ 16

end EmmcOp

def opsOnEmmc (erased : Block) : Emmc → List (EmmcOp × BlockIo) → Emmc × List EmmcReply
  | e, [] => (e, [])
  | e, (op, io) :: ops =>
    let r := opsOnEmmc erased (op.onEmmc erased io e).1 ops
    (r.1, (op.onEmmc erased io e).2 :: r.2)

/-- The operations return one after the other, with replies and a state as in `post`. -/
def OpsDo (w : CardConduct) (card : EmmcCardInfo) :
    List EmmcOp → UInt32 → EmmcBus → (List EmmcReply → EmmcBus → Prop) → Prop
  | [], _, s, post => post [] s
  | op :: ops, response, s, post =>
    SdioDoes w (op.program card) response (op.load s) fun ok r t =>
      OpsDo w card ops r t fun replies => post (op.reply ok t :: replies)

section Retry

variable {w : CardConduct} {card : EmmcCardInfo} {s : EmmcBus} {response : UInt32}
  {attempt : Sdio EmmcError} {timeout : Nat}

theorem retry_does (inv Q : EmmcBus → Prop)
    (hattempt : ∀ r t, inv t → SdioDoes w attempt r t fun e _ t' => inv t' ∧ (e = .ok → Q t'))
    (hs : inv s) : SdioDoes w (retry attempt timeout) response s fun left _ t =>
      inv t ∧ (left ≠ 0 → Q t) := by
  induction timeout generalizing response s with
  | zero => exact .pure ⟨hs, fun h => absurd rfl h⟩
  | succ timeout ih =>
    refine .bind ((hattempt response s hs).mono fun e r t ht => ?_)
    split
    · exact .pure ⟨ht.1, fun _ => ht.2 ‹_›⟩
    · exact ih ht.1

theorem retry_ready {ready : UInt32 → EmmcBus → Prop}
    (h : SdioDoes w attempt response s fun e r t => e = .ok ∧ ready r t) :
    SdioDoes w (retry attempt (timeout + 1)) response s fun left r t =>
      left = timeout ∧ ready r t := by
  refine .bind (h.mono fun e r t ht => ?_)
  rw [if_pos ht.1]
  exact .pure ⟨rfl, ht.2⟩

end Retry

section Operations

variable {w : CardConduct} {card : EmmcCardInfo} {addr n m : Nat} {s t : EmmcBus}
  {response : UInt32}

theorem EmmcBus.Within.cells_eq (h : s.Within addr n m t) :
    t.cells = overlay (fun _ b => b) s.cells addr n fun i => t.cells (addr + i) := by
  funext x
  by_cases hx : addr ≤ x ∧ x < addr + n
  · rw [overlay_in _ _ _ hx.1 hx.2, Nat.add_sub_cancel' hx.1]
  · have hout : x < addr ∨ addr + n ≤ x := by omega
    rw [overlay_out _ _ _ hout, h.cells x hout]

theorem EmmcBus.Within.readbuff_eq (h : s.Within addr n m t) :
    t.readbuff = overlay (fun _ b => b) s.readbuff 0 m t.readbuff := by
  funext i
  by_cases hi : i < m
  · rw [overlay_in _ _ _ (Nat.zero_le i) (by omega), Nat.sub_zero]
  · have hle : m ≤ i := Nat.le_of_not_lt hi
    rw [overlay_out _ _ _ (.inr (by omega)), h.readbuff i hle]

/-- What an erase or a write has done is one of the outcomes that `Emmc` knows. -/
theorem EmmcBus.Within.exists_io {d : Blocks} {ok : Bool} (h : s.Within addr n m t) (hn : n ≠ 0)
    (hok : ok = true → t.Holds addr n d) :
    ∃ io, emmcEraseWriteBlocks io s.cells d addr n = (t.cells, ok) := by
  cases ok with
  | true =>
    refine ⟨.ok, ?_⟩
    rw [emmcEraseWriteBlocks, if_pos hn, h.cells_eq]
    exact congrArg (·, true) (overlay_congr _ _ fun i hi => (hok rfl i hi).symm)
  | false =>
    refine ⟨.failed fun i => t.cells (addr + i), ?_⟩
    rw [emmcEraseWriteBlocks, if_pos hn, BlockIo.result, ← h.cells_eq]
    rfl

theorem eraseBlocks_does (hfair : w.Fair) (hin : addr + n ≤ 2 ^ 32) :
    SdioDoes w (emmcEraseBlocks (emmcErasemultiblock card addr ((addr + n - 1) % 2 ^ 32)) n)
      response s fun ok _ t =>
        ∃ io, emmcEraseWriteBlocks io s.cells (fun _ => w.erased) addr n = (t.cells, ok) := by
  rw [emmcEraseBlocks]
  split
  · have hn : 0 < n := Nat.pos_of_ne_zero ‹_›
    refine .bind ((retry_does (s.Within addr n 0) (·.Holds addr n fun _ => w.erased)
      (fun r t ht => ?_) (.of_eq rfl rfl rfl)).mono fun left r t ht => ?_)
    · exact (erasemultiblock_does hfair hn hin).mono fun e r t' ht' => ⟨ht.trans ht'.1, ht'.2⟩
    · split
      · exact .pure (ht.1.exists_io ‹_› (by simp))
      · exact .pure (ht.1.exists_io ‹_› fun _ => ht.2 ‹_›)
  · refine .pure ⟨.ok, ?_⟩
    rw [emmcEraseWriteBlocks, if_neg ‹_›]

theorem eraseWriteBlocks_does (hfair : w.Fair) (hcard : card.eMMCType ≠ emmcHighCapacitySdCard)
    (hin : addr + n ≤ 2 ^ 32) (hcount : n < 2 ^ 16) :
    SdioDoes w (sdioEraseWriteBlocks card addr n) response s fun ok _ t =>
      ∃ io, emmcEraseWriteBlocks io s.cells s.writebuff addr n = (t.cells, ok) := by
  rw [sdioEraseWriteBlocks, emmcerasewriteblocks]
  split
  · have hn : 0 < n := Nat.pos_of_ne_zero ‹_›
    refine .bind ((retry_does (s.Within addr n 0) (·.Holds addr n fun _ => w.erased)
      (fun r t ht => ?_) (.of_eq rfl rfl rfl)).mono fun left r t ht => ?_)
    · exact (erasemultiblock_does hfair hn hin).mono fun e r t' ht' => ⟨ht.trans ht'.1, ht'.2⟩
    split
    · exact .pure (ht.1.exists_io ‹_› (by simp))
    refine .bind ((retry_does (s.Within addr n 0) (·.Holds addr n s.writebuff)
      (fun r t ht => ?_) ht.1).mono fun left r t ht => ?_)
    · refine (writeMultiBlocks_does hfair hcard hcount).mono fun e r t' ht' => ⟨ht.trans ht'.1, ?_⟩
      rw [← ht.writebuff]
      exact ht'.2
    · split
      · exact .pure (ht.1.exists_io ‹_› (by simp))
      · exact .pure (ht.1.exists_io ‹_› fun _ => ht.2 ‹_›)
  · refine .pure ⟨.ok, ?_⟩
    rw [emmcEraseWriteBlocks, if_neg ‹_›]

theorem readBlocks_does (hfair : w.Fair) (hcount : n < 2 ^ 16) :
    SdioDoes w (sdioReadBlocks addr n) response s fun ok _ t => t.cells = s.cells ∧
      ∃ io, emmcReadBlocks io s.cells s.readbuff addr n = (t.readbuff, ok) := by
  have hcells : ∀ {t : EmmcBus}, s.Within 0 0 n t → t.cells = s.cells := fun ht =>
    funext fun x => ht.cells x (.inr (Nat.zero_le x))
  rw [sdioReadBlocks, emmcreadblocks]
  split
  · refine .bind ((retry_does (s.Within 0 0 n)
      (fun t => ∀ i < n, t.readbuff i = s.cells (addr + i)) (fun r t ht => ?_)
      (.of_eq rfl rfl rfl)).mono fun left r t ht => ?_)
    · refine (readMultiBlocks_does hfair hcount).mono fun e r t' ht' => ⟨ht.trans ht'.1, ?_⟩
      rw [← hcells ht]
      exact ht'.2
    · split
      · refine .pure ⟨hcells ht.1, .failed t.readbuff, ?_⟩
        rw [emmcReadBlocks, if_pos ‹_›, BlockIo.result, ← ht.1.readbuff_eq]
        rfl
      · refine .pure ⟨hcells ht.1, .ok, ?_⟩
        rw [emmcReadBlocks, if_pos ‹_›, ht.1.readbuff_eq]
        exact congrArg (·, true) (overlay_congr _ _ fun i hi => (ht.2 ‹_› i hi).symm)
  · refine .pure ⟨rfl, .ok, ?_⟩
    rw [emmcReadBlocks, if_neg ‹_›]

/-- What an operation leaves on the card and returns is one of the outcomes that `Emmc` knows for
it, whatever has gone wrong on the bus. -/
theorem EmmcOp.program_does (hfair : w.Fair) (hcard : card.eMMCType ≠ emmcHighCapacitySdCard)
    (op : EmmcOp) (hin : op.Inside) :
    SdioDoes w (op.program card) response (op.load s) fun ok _ t =>
      ∃ io, op.onEmmc w.erased io s.cells = (t.cells, op.reply ok t) := by
  cases op with
  | erase addr n =>
    refine (eraseBlocks_does hfair hin).mono fun ok r t ht => ?_
    obtain ⟨io, hio⟩ := ht
    exact ⟨io, congrArg (fun r => (r.1, EmmcReply.done r.2)) hio⟩
  | write data addr n =>
    refine (eraseWriteBlocks_does hfair hcard hin.1 hin.2).mono fun ok r t ht => ?_
    obtain ⟨io, hio⟩ := ht
    exact ⟨io, congrArg (fun r => (r.1, EmmcReply.done r.2)) hio⟩
  | read buf addr n =>
    refine (readBlocks_does hfair hin).mono fun ok r t ht => ?_
    obtain ⟨hcells, io, hio⟩ := ht
    refine ⟨io, ?_⟩
    rw [hcells]
    exact congrArg (fun r => (s.cells, EmmcReply.blocks r.1 r.2)) hio

/-- With nothing that goes wrong the operation succeeds, and the card is idle behind it. -/
theorem EmmcOp.program_ready (hw : w.Faultless)
    (herase : card.extCardComdClasses &&& emmcCcccErase ≠ 0)
    (hcard : card.eMMCType ≠ emmcHighCapacitySdCard) (hs : s.Idle) (hresponse : NotLocked response)
    (op : EmmcOp) : SdioDoes w (op.program card) response (op.load s) fun ok r t =>
      ok = true ∧ NotLocked r ∧ t.Idle := by
  have hload : (op.load s).Idle := by
    cases op with
    | erase addr n => exact hs
    | write data addr n => exact ⟨hs.state, hs.pending, hs.erase⟩
    | read buf addr n => exact ⟨hs.state, hs.pending, hs.erase⟩
  cases op with
  | erase addr n =>
    rw [EmmcOp.program, emmcEraseBlocks]
    split
    · refine .bind ((retry_ready (erasemultiblock_ready hw herase hload hresponse _)).mono
        fun left r t ht => ?_)
      rw [ht.1, if_neg (by decide)]
      exact .pure ⟨rfl, ht.2⟩
    · exact .pure ⟨rfl, hresponse, hload⟩
  | write data addr n =>
    rw [EmmcOp.program, sdioEraseWriteBlocks, emmcerasewriteblocks]
    split
    · refine .bind ((retry_ready (erasemultiblock_ready hw herase hload hresponse _)).mono
        fun left r t ht => ?_)
      rw [ht.1, if_neg (by decide)]
      refine .bind ((retry_ready (writeMultiBlocks_ready hw hcard ht.2.2)).mono
        fun left r t ht => ?_)
      rw [ht.1, if_neg (by decide)]
      exact .pure ⟨rfl, ht.2⟩
    · exact .pure ⟨rfl, hresponse, hload⟩
  | read buf addr n =>
    rw [EmmcOp.program, sdioReadBlocks, emmcreadblocks]
    split
    · refine .bind ((retry_ready (readMultiBlocks_ready hw hload hresponse)).mono
        fun left r t ht => ?_)
      rw [ht.1, if_neg (by decide)]
      exact .pure ⟨rfl, ht.2⟩
    · exact .pure ⟨rfl, hresponse, hload⟩

theorem EmmcOp.onEmmc_of_true {op : EmmcOp} {io : BlockIo} {e e' : Emmc} {erased : Block}
    (h : op.onEmmc erased io e = (e', op.reply true t)) :
    op.onEmmc erased .ok e = (e', op.reply true t) := by
  cases io with
  | ok => exact h
  | failed junk =>
    cases op with
    | erase addr n =>
      by_cases hn : n = 0
      · simpa [EmmcOp.onEmmc, emmcEraseWriteBlocks, hn] using h
      · simp [EmmcOp.onEmmc, emmcEraseWriteBlocks, hn, EmmcOp.reply, BlockIo.isOk] at h
    | write data addr n =>
      by_cases hn : n = 0
      · simpa [EmmcOp.onEmmc, emmcEraseWriteBlocks, hn] using h
      · simp [EmmcOp.onEmmc, emmcEraseWriteBlocks, hn, EmmcOp.reply, BlockIo.isOk] at h
    | read buf addr n =>
      by_cases hn : n = 0
      · simpa [EmmcOp.onEmmc, emmcReadBlocks, hn] using h
      · simp [EmmcOp.onEmmc, emmcReadBlocks, hn, EmmcOp.reply, BlockIo.isOk] at h

end Operations

section Runs

variable {w : CardConduct} {card : EmmcCardInfo} {s : EmmcBus} {response : UInt32}

theorem OpsDo.mono {ops : List EmmcOp} {post post' : List EmmcReply → EmmcBus → Prop}
    (h : OpsDo w card ops response s post) (himp : ∀ replies t, post replies t → post' replies t) :
    OpsDo w card ops response s post' := by
  induction ops generalizing response s post post' with
  | nil => exact himp _ _ h
  | cons op ops ih => exact SdioDoes.mono h fun ok r t ht => ih ht fun replies => himp _

/-- Whatever commands are lost, however responses are damaged, transfers go wrong and the card is
at work: the operations return, none leaves a trace outside its own blocks, and the card and all
replies are as on `Emmc` with some outcome for each, so that what is reported as written or read
is so. -/
theorem emmcDriver_runs (hfair : w.Fair) (hcard : card.eMMCType ≠ emmcHighCapacitySdCard)
    (ops : List EmmcOp) (hin : ∀ op ∈ ops, op.Inside) :
    OpsDo w card ops response s fun replies t => ∃ ios : List BlockIo,
      ios.length = ops.length ∧ opsOnEmmc w.erased s.cells (ops.zip ios) = (t.cells, replies) := by
  induction ops generalizing response s with
  | nil => exact ⟨[], rfl, rfl⟩
  | cons op ops ih =>
    obtain ⟨hop, hrest⟩ := List.forall_mem_cons.mp hin
    refine (op.program_does hfair hcard hop).mono fun ok r t ht => ?_
    obtain ⟨io, hio⟩ := ht
    refine (ih hrest).mono fun replies t' ht' => ?_
    obtain ⟨ios, hlength, hios⟩ := ht'
    refine ⟨io :: ios, congrArg Nat.succ hlength, ?_⟩
    rw [List.zip_cons_cons, opsOnEmmc, hio, hios]

/-- A command is lost, a response is damaged and a transfer breaks off, and every erase and write
takes the card a while. -/
def disturbedCard : CardConduct where
  fault i :=
    if i = 1 then .lost 0x00800000
    else if i = 9 then .garbled 0xFFFFFFFF
    else if i = 30 then .broken ⟨.dataCrcFail, nofun⟩ (fun _ => zeroBlock) true
    else .none
  cycle _ := 5
  erased := zeroBlock

def EmmcBus.powered (cells : Emmc) : EmmcBus where
  cells := cells
  state := .tran
  busy := 0
  count := 0
  erase := .none
  pending := 0
  shown := 0
  readbuff _ := zeroBlock
  writebuff _ := zeroBlock
  step := 0

theorem disturbedCard_fair : disturbedCard.Fair := by
  intro i
  have hquiet : ∀ m, 31 ≤ m → disturbedCard.fault m = .none := by
    intro m hm
    have h1 : m ≠ 1 := by omega
    have h9 : m ≠ 9 := by omega
    have h30 : m ≠ 30 := by omega
    simp only [disturbedCard, h1, h9, h30, if_false]
  exact ⟨i + 31, Nat.le_add_right _ _, hquiet _ (Nat.le_add_left _ _),
    hquiet _ (Nat.le_succ_of_le (Nat.le_add_left _ _))⟩

theorem emmcDriver_runs_disturbed :
    OpsDo disturbedCard ⟨7, 0x20⟩ [.write (fun i _ => UInt8.ofNat i) 10 3,
        .read (fun _ => zeroBlock) 10 3, .erase 11 2] 0 (.powered fun _ => zeroBlock)
      fun replies t => ∃ ios : List BlockIo, ios.length = 3 ∧
        opsOnEmmc zeroBlock (fun _ => zeroBlock) ([.write (fun i _ => UInt8.ofNat i) 10 3,
          .read (fun _ => zeroBlock) 10 3, .erase 11 2].zip ios) = (t.cells, replies) :=
  emmcDriver_runs disturbedCard_fair (by decide) _ (by simp [EmmcOp.Inside])

/-- With nothing that goes wrong, the card keeps what is written to it until it is overwritten or
erased, and gives it back. -/
theorem emmcDriver_stores (hw : w.Faultless)
    (herase : card.extCardComdClasses &&& emmcCcccErase ≠ 0)
    (hcard : card.eMMCType ≠ emmcHighCapacitySdCard) (hs : s.Idle) (hresponse : NotLocked response)
    (ops : List EmmcOp) (hin : ∀ op ∈ ops, op.Inside) :
    OpsDo w card ops response s fun replies t =>
      opsOnEmmc w.erased s.cells (ops.map fun op => (op, .ok)) = (t.cells, replies) := by
  induction ops generalizing response s with
  | nil => rfl
  | cons op ops ih =>
    obtain ⟨hop, hrest⟩ := List.forall_mem_cons.mp hin
    refine ((op.program_does hw.fair hcard hop).and
      (op.program_ready hw herase hcard hs hresponse)).mono fun ok r t ht => ?_
    obtain ⟨⟨io, hio⟩, rfl, hr, ht⟩ := ht
    refine (ih ht hr hrest).mono fun replies t' ht' => ?_
    simp only [List.map_cons, opsOnEmmc, EmmcOp.onEmmc_of_true hio, ht']

theorem emmcDriver_stores_back :
    OpsDo ⟨fun _ => .none, fun _ => 5, zeroBlock⟩ ⟨7, 0x20⟩
      [.write (fun i _ => UInt8.ofNat i) 10 3, .read (fun _ => zeroBlock) 10 3] 0
      (.powered fun _ => zeroBlock) fun replies t =>
        opsOnEmmc zeroBlock (fun _ => zeroBlock) ([.write (fun i _ => UInt8.ofNat i) 10 3,
          .read (fun _ => zeroBlock) 10 3].map fun op => (op, .ok)) = (t.cells, replies) :=
  emmcDriver_stores (fun _ => rfl) (by decide) (by decide) ⟨rfl, rfl, rfl⟩
    (by decide : (0 : UInt32) &&& _ = 0) _ (by simp [EmmcOp.Inside])

end Runs

end Lsc100
