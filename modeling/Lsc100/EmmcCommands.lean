import Lsc100.Basis.Polling
import Lsc100.EmmcRetry

/-! The low-level commands of `BSP_EMMC.c` against a card whose answers are an infinite
sequence. Every command is answered by a response, a timeout or a CRC flag. -/

namespace Lsc100

open Polling

inductive CmdFlag
  | cmdtmout
  | ccrcerr
  | cmdrecv
  deriving DecidableEq

/-- What the controller shows behind a command. `transfer` is what `EmmcWaitReadOperation` or
`EmmcWaitWriteOperation` returns, should the command start a data transfer. -/
structure CmdAnswer where
  flag : CmdFlag
  commandIndex : Nat
  response0 : UInt32
  transfer : EmmcError

structure EmmcCmd where
  index : Nat
  argument : Nat

def emmcOcrErrorbits : UInt32 := 0xFDFFE008

/-- The error bits in the order in which they are looked at. -/
def ocrErrors : List (UInt32 × EmmcError) :=
  [(0x80000000, .addrOutOfRange), (0x40000000, .addrMisaligned), (0x20000000, .blockLenErr),
    (0x10000000, .eraseSeqErr), (0x08000000, .badEraseParam), (0x04000000, .writeProtViolation),
    (0x01000000, .lockUnlockFailed), (0x00800000, .comCrcFailed), (0x00400000, .illegalCmd),
    (0x00200000, .cardEccFailed), (0x00100000, .ccError), (0x00080000, .generalUnknownError),
    (0x00040000, .streamReadUnderrun), (0x00020000, .streamWriteOverrun),
    (0x00004000, .cardEccDisabled), (0x00002000, .eraseReset), (0x00000008, .akeSeqError)]

def r1Error (response : UInt32) : EmmcError :=
  if response &&& emmcOcrErrorbits = 0 then .ok
  else
    match ocrErrors.find? fun e => response &&& e.1 ≠ 0 with
    | some e => e.2
    | none => .ok

def cmdResp1Error (cmd : Nat) (a : CmdAnswer) : EmmcError :=
  match a.flag with
  | .cmdtmout => .cmdRspTimeout
  | .ccrcerr => .cmdCrcFail
  | .cmdrecv => if a.commandIndex ≠ cmd then .illegalCmd else r1Error a.response0

def emmcCmdSendStatus : Nat := 13

def emmcCmdSetBlocklen : Nat := 16

def emmcCmdReadMultBlock : Nat := 18

def emmcCmdSetBlockCount : Nat := 23

def emmcCmdWriteMultBlock : Nat := 25

def emmcCmdEraseGrpStart : Nat := 35

def emmcCmdEraseGrpEnd : Nat := 36

def emmcCmdErase : Nat := 38

def emmcCardTransfer : Nat := 4

def emmcCardReceiving : Nat := 6

def emmcCardProgramming : Nat := 7

def emmcCardError : Nat := 0xFF

def cardStateOf (response : UInt32) : Nat := ((response >>> 9) &&& 0x0F).toNat

/-- `IsCardProgramming`, with what it leaves in `*pstatus`. -/
def isCardProgramming (pstatus : Nat) (a : CmdAnswer) : EmmcError × Nat :=
  match a.flag with
  | .cmdtmout => (.cmdRspTimeout, pstatus)
  | .ccrcerr => (.cmdCrcFail, pstatus)
  | .cmdrecv =>
    if a.commandIndex ≠ emmcCmdSendStatus then (.illegalCmd, pstatus)
    else (r1Error a.response0, cardStateOf a.response0)

inductive EmmcTransferState
  | ok
  | busy
  | error
  deriving DecidableEq

def emmcGetState (a : CmdAnswer) : Nat :=
  if cmdResp1Error emmcCmdSendStatus a ≠ .ok then emmcCardError else cardStateOf a.response0

def emmcGetStatus (a : CmdAnswer) : EmmcTransferState :=
  let cardState := emmcGetState a
  if cardState = emmcCardTransfer then .ok
  else if cardState = emmcCardReceiving then .ok
  else if cardState = emmcCardError then .error
  else .busy

def emmcDatatimeout : Nat := 0xFFFFFFFF

/-- The loops on the answer to `SEND_STATUS`. -/
inductive EmmcWait
  | erased
  | programmed
  | transferred
  deriving DecidableEq

/-- The condition of the loop that waits for the end of programming. -/
def stillProgramming (a : CmdAnswer) : Bool :=
  let (errorstatus, cardstate) := isCardProgramming 0x0F a
  errorstatus = .ok && (cardstate = emmcCardProgramming || cardstate = emmcCardReceiving)

/-- The answer with which a loop ends. `delay` is set before the loop that waits for the end of
an erase, and nothing counts it down. -/
def EmmcWait.ends : EmmcWait → CmdAnswer → Bool
  | .erased, a => !(0 < emmcDatatimeout && stillProgramming a)
  | .programmed, a => !stillProgramming a
  | .transferred, a => emmcGetStatus a = .ok

/-- The state is the response register. -/
abbrev Sdio (α : Type) := StateT UInt32 (Polling EmmcCmd CmdAnswer EmmcWait) α

def emmcSdioCmdCfg (argument index : Nat) : Sdio CmdAnswer :=
  fun _ => send ⟨index, argument⟩ fun a => done (a, a.response0)

/-- `SEND_STATUS` until the loop ends. -/
def pollStatus (w : EmmcWait) : Sdio CmdAnswer :=
  fun _ => wait w ⟨emmcCmdSendStatus, 0⟩ fun a => done (a, a.response0)

structure EmmcCardInfo where
  eMMCType : Nat
  extCardComdClasses : UInt32

def emmcHighCapacitySdCard : Nat := 2

def emmcCcccErase : UInt32 := 0x20

def emmcCardLocked : UInt32 := 0x02000000

def emmcErasemultiblock (card : EmmcCardInfo) (startaddr endaddr : Nat) : Sdio EmmcError := do
  if card.extCardComdClasses &&& emmcCcccErase = 0 then pure .requestNotApplicable
  else
    let response ← get
    if response &&& emmcCardLocked ≠ 0 then pure .lockUnlockFailed
    else
      let errorstatus :=
        cmdResp1Error emmcCmdEraseGrpStart (← emmcSdioCmdCfg startaddr emmcCmdEraseGrpStart)
      if errorstatus ≠ .ok then pure errorstatus
      else
        let errorstatus :=
          cmdResp1Error emmcCmdEraseGrpEnd (← emmcSdioCmdCfg endaddr emmcCmdEraseGrpEnd)
        if errorstatus ≠ .ok then pure errorstatus
        else
          let errorstatus := cmdResp1Error emmcCmdErase (← emmcSdioCmdCfg 1 emmcCmdErase)
          if errorstatus ≠ .ok then pure errorstatus
          else
            let a ← pollStatus .erased
            pure (isCardProgramming 0x0F a).1

def emmcWriteMultiBlocks (card : EmmcCardInfo) (writeAddr blockSize numberOfBlocks : Nat) :
    Sdio EmmcError := do
  let (blockSize, writeAddr) :=
    if card.eMMCType = emmcHighCapacitySdCard then (512, writeAddr / 512)
    else (blockSize, writeAddr)
  let errorstatus :=
    cmdResp1Error emmcCmdSetBlocklen (← emmcSdioCmdCfg blockSize emmcCmdSetBlocklen)
  if errorstatus ≠ .ok then pure errorstatus
  else
    let errorstatus :=
      cmdResp1Error emmcCmdSetBlockCount (← emmcSdioCmdCfg numberOfBlocks emmcCmdSetBlockCount)
    if errorstatus ≠ .ok then pure errorstatus
    else
      let a ← emmcSdioCmdCfg writeAddr emmcCmdWriteMultBlock
      let errorstatus := cmdResp1Error emmcCmdWriteMultBlock a
      if errorstatus ≠ .ok then pure errorstatus
      else if a.transfer ≠ .ok then pure a.transfer
      else
        let a ← pollStatus .programmed
        let errorstatus := (isCardProgramming 0 a).1
        let _ ← pollStatus .transferred
        pure errorstatus

def emmcReadMultiBlocks (readAddr blockSize numberOfBlocks : Nat) : Sdio EmmcError := do
  if numberOfBlocks = 0 then pure .ok
  else
    let errorstatus :=
      cmdResp1Error emmcCmdSetBlocklen (← emmcSdioCmdCfg blockSize emmcCmdSetBlocklen)
    if errorstatus ≠ .ok then pure errorstatus
    else
      let errorstatus :=
        cmdResp1Error emmcCmdSetBlockCount (← emmcSdioCmdCfg numberOfBlocks emmcCmdSetBlockCount)
      if errorstatus ≠ .ok then pure errorstatus
      else
        let a ← emmcSdioCmdCfg readAddr emmcCmdReadMultBlock
        let errorstatus := cmdResp1Error emmcCmdReadMultBlock a
        if errorstatus ≠ .ok then pure errorstatus
        else if a.transfer ≠ .ok then pure a.transfer
        else
          let _ ← pollStatus .transferred
          pure .ok

/-- `emmcreadblocks` on the card. -/
def sdioReadBlocks (readAddr numberOfBlocks : Nat) : Sdio Bool :=
  emmcreadblocks (emmcReadMultiBlocks readAddr 512 numberOfBlocks) numberOfBlocks

/-- `emmcerasewriteblocks` on the card. -/
def sdioEraseWriteBlocks (card : EmmcCardInfo) (writeAddr numberOfBlocks : Nat) : Sdio Bool :=
  emmcerasewriteblocks
    (emmcErasemultiblock card writeAddr ((writeAddr + numberOfBlocks - 1) % 2 ^ 32))
    (emmcWriteMultiBlocks card writeAddr 512 numberOfBlocks) numberOfBlocks

/-- The waiting loops of the operation are of one kind, whatever the response register holds. -/
def OnlyWaits {α : Type} (P : EmmcWait → Prop) (p : Sdio α) : Prop := ∀ s, (p s).Only P

section OnlyWaits

variable {α β : Type} {P : EmmcWait → Prop}

theorem onlyWaits_pure (a : α) : OnlyWaits P (pure a) := fun _ => trivial

theorem onlyWaits_cmd (argument index : Nat) : OnlyWaits P (emmcSdioCmdCfg argument index) :=
  fun _ _ => trivial

theorem onlyWaits_poll {w : EmmcWait} (h : P w) : OnlyWaits P (pollStatus w) :=
  fun _ => ⟨h, fun _ => trivial⟩

theorem onlyWaits_bind {p : Sdio α} {f : α → Sdio β} (hp : OnlyWaits P p)
    (hf : ∀ a, OnlyWaits P (f a)) : OnlyWaits P (p >>= f) :=
  fun s => only_bind (hp s) fun r => hf r.1 r.2

theorem onlyWaits_retry {attempt : Sdio EmmcError} (h : OnlyWaits P attempt) (timeout : Nat) :
    OnlyWaits P (retry attempt timeout) := by
  induction timeout with
  | zero => exact onlyWaits_pure 0
  | succ timeout ih =>
    refine onlyWaits_bind h fun errorstatus => ?_
    split
    · exact onlyWaits_pure _
    · exact ih

end OnlyWaits

theorem emmcReadMultiBlocks_only (readAddr blockSize numberOfBlocks : Nat) :
    OnlyWaits (· = .transferred) (emmcReadMultiBlocks readAddr blockSize numberOfBlocks) := by
  simp only [emmcReadMultiBlocks]
  split
  · exact onlyWaits_pure _
  refine onlyWaits_bind (onlyWaits_cmd _ _) fun a => ?_
  split
  · exact onlyWaits_pure _
  refine onlyWaits_bind (onlyWaits_cmd _ _) fun a => ?_
  split
  · exact onlyWaits_pure _
  refine onlyWaits_bind (onlyWaits_cmd _ _) fun a => ?_
  split
  · exact onlyWaits_pure _
  split
  · exact onlyWaits_pure _
  · exact onlyWaits_bind (onlyWaits_poll rfl) fun a => onlyWaits_pure _

theorem sdioReadBlocks_only (readAddr numberOfBlocks : Nat) :
    OnlyWaits (· = .transferred) (sdioReadBlocks readAddr numberOfBlocks) := by
  rw [sdioReadBlocks, emmcreadblocks]
  split
  · refine onlyWaits_bind (onlyWaits_retry (emmcReadMultiBlocks_only _ _ _) 3) fun timeout => ?_
    split
    · exact onlyWaits_pure _
    · exact onlyWaits_pure _
  · exact onlyWaits_pure _

/-- A response to `SEND_STATUS` without error, from a card in one of the states. -/
def CmdAnswer.StatusIn (states : List Nat) (a : CmdAnswer) : Prop :=
  a.flag = .cmdrecv ∧ a.commandIndex = emmcCmdSendStatus ∧ r1Error a.response0 = .ok ∧
    cardStateOf a.response0 ∈ states

theorem stillProgramming_iff (a : CmdAnswer) : stillProgramming a = true ↔
    a.StatusIn [emmcCardProgramming, emmcCardReceiving] := by
  rw [stillProgramming, isCardProgramming, CmdAnswer.StatusIn]
  cases hflag : a.flag with
  | cmdtmout => simp
  | ccrcerr => simp
  | cmdrecv =>
    by_cases hindex : a.commandIndex = emmcCmdSendStatus
    · simp [hindex]
    · simp [hindex]

theorem ends_programmed_iff (a : CmdAnswer) : EmmcWait.programmed.ends a = true ↔
    ¬ a.StatusIn [emmcCardProgramming, emmcCardReceiving] := by
  rw [← stillProgramming_iff, EmmcWait.ends, Bool.not_eq_true, Bool.not_eq_true']

/-- `delay` bounds nothing: both loops on the programming state end with the same answers. -/
theorem ends_erased_iff (a : CmdAnswer) : EmmcWait.erased.ends a = true ↔
    ¬ a.StatusIn [emmcCardProgramming, emmcCardReceiving] := by
  rw [← ends_programmed_iff]
  simp [EmmcWait.ends, emmcDatatimeout]

theorem ends_transferred_iff (a : CmdAnswer) : EmmcWait.transferred.ends a = true ↔
    a.StatusIn [emmcCardTransfer, emmcCardReceiving] := by
  rw [EmmcWait.ends, emmcGetStatus, emmcGetState, cmdResp1Error, CmdAnswer.StatusIn]
  cases hflag : a.flag with
  | cmdtmout => simp [emmcCardError, emmcCardTransfer, emmcCardReceiving]
  | ccrcerr => simp [emmcCardError, emmcCardTransfer, emmcCardReceiving]
  | cmdrecv =>
    by_cases hindex : a.commandIndex = emmcCmdSendStatus
    · by_cases herror : r1Error a.response0 = .ok
      · have hlast : (if cardStateOf a.response0 = emmcCardError then EmmcTransferState.error
            else .busy) ≠ .ok := by
          split <;> simp
        simp [hindex, herror, hlast]
      · simp [hindex, herror, emmcCardError, emmcCardTransfer, emmcCardReceiving]
    · simp [hindex, emmcCardError, emmcCardTransfer, emmcCardReceiving]

section Return

variable (answer : Nat → CmdAnswer) (response : UInt32) (card : EmmcCardInfo)
  (addr numberOfBlocks : Nat)

/-- Nothing but the card ends the waiting loops: the operations return when each loop that the
answers lead to is followed by an answer that ends it. -/
theorem emmc_returns_iff :
    (Returns EmmcWait.ends answer (sdioReadBlocks addr numberOfBlocks response) 0 ↔
      ∀ j, Enters EmmcWait.ends answer (sdioReadBlocks addr numberOfBlocks response) 0
          .transferred j →
        ∃ m, j ≤ m ∧ (answer m).StatusIn [emmcCardTransfer, emmcCardReceiving]) ∧
    (Returns EmmcWait.ends answer (sdioEraseWriteBlocks card addr numberOfBlocks response) 0 ↔
      ∀ w j, Enters EmmcWait.ends answer (sdioEraseWriteBlocks card addr numberOfBlocks response)
          0 w j →
        ∃ m, j ≤ m ∧
          if w = .transferred then (answer m).StatusIn [emmcCardTransfer, emmcCardReceiving]
          else ¬ (answer m).StatusIn [emmcCardProgramming, emmcCardReceiving]) := by
  have hends : ∀ w a, EmmcWait.ends w a = true ↔
      if w = .transferred then a.StatusIn [emmcCardTransfer, emmcCardReceiving]
      else ¬ a.StatusIn [emmcCardProgramming, emmcCardReceiving] := by
    intro w a
    cases w with
    | erased => exact ends_erased_iff a
    | programmed => exact ends_programmed_iff a
    | transferred => exact ends_transferred_iff a
  constructor
  · rw [returns_iff]
    simp only [hends]
    constructor
    · intro h j hj
      exact h .transferred j hj
    · intro h w j hj
      obtain rfl : w = .transferred := hj.only (sdioReadBlocks_only addr numberOfBlocks response)
      exact h j hj
  · rw [returns_iff]
    simp only [hends]

/-- With a card that is ready again and again, both operations return. -/
theorem emmc_returns_of_ready (h : ∀ i, ∃ m, i ≤ m ∧ (answer m).StatusIn [emmcCardTransfer]) :
    Returns EmmcWait.ends answer (sdioReadBlocks addr numberOfBlocks response) 0 ∧
      Returns EmmcWait.ends answer (sdioEraseWriteBlocks card addr numberOfBlocks response) 0 := by
  have hfair : ∀ w i, ∃ m, i ≤ m ∧ EmmcWait.ends w (answer m) = true := by
    intro w i
    obtain ⟨m, hle, hflag, hindex, herror, hstate⟩ := h i
    refine ⟨m, hle, ?_⟩
    rw [List.mem_singleton] at hstate
    have hbusy : ¬ (answer m).StatusIn [emmcCardProgramming, emmcCardReceiving] := by
      rintro ⟨-, -, -, hmem⟩
      rw [hstate] at hmem
      exact absurd hmem (by decide)
    cases w with
    | erased => exact (ends_erased_iff _).mpr hbusy
    | programmed => exact (ends_programmed_iff _).mpr hbusy
    | transferred =>
      exact (ends_transferred_iff _).mpr ⟨hflag, hindex, herror, by rw [hstate]; decide⟩
  exact ⟨returns_of_fair hfair _ _, returns_of_fair hfair _ _⟩

end Return

/-- The card accepts an erase, and from then on is in the programming state. -/
def programmingCard (i : Nat) : CmdAnswer where
  flag := .cmdrecv
  commandIndex :=
    if i = 0 then emmcCmdEraseGrpStart else if i = 1 then emmcCmdEraseGrpEnd
    else if i = 2 then emmcCmdErase else emmcCmdSendStatus
  response0 := 0xE00
  transfer := .ok

/-- The card delivers what is read, and from then on does not answer. -/
def silentCard (i : Nat) : CmdAnswer where
  flag := if i < 3 then .cmdrecv else .cmdtmout
  commandIndex :=
    if i = 0 then emmcCmdSetBlocklen else if i = 1 then emmcCmdSetBlockCount
    else emmcCmdReadMultBlock
  response0 := 0x800
  transfer := .ok

theorem emmc_hangs :
    ¬ Returns EmmcWait.ends silentCard (sdioReadBlocks 0 1 0) 0 ∧
      ¬ Returns EmmcWait.ends programmingCard (sdioEraseWriteBlocks ⟨7, 0x20⟩ 0 1 0) 0 := by
  constructor
  · rw [returns_iff]
    intro h
    obtain ⟨m, hm, hend⟩ := h .transferred 3 (.sent (.sent (.sent .here)))
    have hflag : (silentCard m).flag = .cmdtmout := if_neg (by omega)
    simp [EmmcWait.ends, emmcGetStatus, emmcGetState, cmdResp1Error, hflag, emmcCardError,
      emmcCardTransfer, emmcCardReceiving] at hend
  · rw [returns_iff]
    intro h
    obtain ⟨m, hm, hend⟩ := h .erased 3 (.sent (.sent (.sent .here)))
    have hanswer : programmingCard m = ⟨.cmdrecv, emmcCmdSendStatus, 0xE00, .ok⟩ := by
      have h0 : m ≠ 0 := by omega
      have h1 : m ≠ 1 := by omega
      have h2 : m ≠ 2 := by omega
      simp [programmingCard, h0, h1, h2]
    rw [hanswer] at hend
    exact absurd hend (by decide)

end Lsc100
