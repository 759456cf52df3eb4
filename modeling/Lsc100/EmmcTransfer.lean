import Mathlib.Order.Monotone.Defs
import Lsc100.Basis.Countdown
import Lsc100.Basis.Machine
import Lsc100.EmmcCommands

/-! `EmmcWaitReadOperation` and `EmmcWaitWriteOperation` of `BSP_EMMC.c`. What they read is
written by interrupts and by the controller, so the values are sequences, one value for each
time a variable is read. -/

namespace Lsc100

open Countdown

def sdioFlagTxrun : UInt32 := 0x00001000

def sdioFlagRxrun : UInt32 := 0x00002000

structure TransferFlags where
  dmaEndOfTransfer : UInt32
  eMMCTransferEnd : UInt32
  eMMCTransferError : EmmcError

def TransferFlags.Ended (f : TransferFlags) : Prop :=
  f.dmaEndOfTransfer ≠ 0 ∨ f.eMMCTransferEnd ≠ 0

instance (f : TransferFlags) : Decidable f.Ended := inferInstanceAs (Decidable (_ ∨ _))

/-- The condition of the first loop, but for the timeout. -/
def TransferFlags.pending (f : TransferFlags) : Bool :=
  f.dmaEndOfTransfer = 0 && f.eMMCTransferEnd = 0 && f.eMMCTransferError = .ok

/-- `flags` is read by the tests of the first loop and `stat` is `SDIO_STAT` in those of the
second. Behind them `eMMCTransferError` is read twice, to be compared and to be returned. -/
structure TransferSeen where
  flags : Nat → TransferFlags
  stat : Nat → UInt32
  tested : EmmcError
  returned : EmmcError

/-- The first loop: its last test, and what it leaves of the timeout. -/
def waitTransfer (flags : Nat → TransferFlags) (timeout : Nat) : Nat × Nat :=
  countdown (fun i => (flags i).pending) timeout 0

/-- The second loop, for `SDIO_FLAG_RXRUN` or `SDIO_FLAG_TXRUN`. -/
def waitRun (runFlag : UInt32) (stat : Nat → UInt32) (timeout : Nat) : Nat × Nat :=
  countdown (fun i => stat i &&& runFlag ≠ 0) timeout 0

/-- The result, with the number of the last test of the first loop. What this loop leaves of
the timeout is written over before anything looks at it. -/
def emmcWaitOperation (runFlag : UInt32) (seen : TransferSeen) : EmmcError × Nat :=
  let errorstatus : EmmcError := .ok
  let last := (waitTransfer seen.flags emmcDatatimeout).1
  let timeout := (waitRun runFlag seen.stat emmcDatatimeout).2
  let errorstatus := if timeout = 0 ∧ errorstatus = .ok then .dataTimeout else errorstatus
  (if seen.tested ≠ .ok then seen.returned else errorstatus, last)

/-- The second component is `eMMCStopCondition` behind the wait. -/
def emmcWaitReadOperation (seen : TransferSeen) (eMMCStopCondition : UInt32) :
    (EmmcError × Nat) × UInt32 :=
  (emmcWaitOperation sdioFlagRxrun seen, if eMMCStopCondition = 1 then 0 else eMMCStopCondition)

def emmcWaitWriteOperation (seen : TransferSeen) : EmmcError × Nat :=
  emmcWaitOperation sdioFlagTxrun seen

/-- A wait may return `EMMC_OK` only if one of its tests has seen a flag and no error is there in
the end. If all tests are used up and none has seen a flag, an error has to be returned. -/
structure ReportedRight (seen : TransferSeen) (r : EmmcError × Nat) : Prop where
  complete : r.1 = .ok → (∃ i ≤ r.2, (seen.flags i).Ended) ∧ seen.tested = .ok
  runOut : r.2 = emmcDatatimeout → (∀ i ≤ r.2, ¬(seen.flags i).Ended) → r.1 ≠ .ok

theorem TransferFlags.pending_iff {f : TransferFlags} :
    f.pending = true ↔ ¬f.Ended ∧ f.eMMCTransferError = .ok := by
  simp [TransferFlags.pending, TransferFlags.Ended]

theorem waitTransfer_le (flags : Nat → TransferFlags) (timeout : Nat) :
    (waitTransfer flags timeout).1 ≤ timeout :=
  last_le

theorem pending_of_lt_waitTransfer {flags : Nat → TransferFlags} {timeout j : Nat}
    (hj : j < (waitTransfer flags timeout).1) :
    ¬(flags j).Ended ∧ (flags j).eMMCTransferError = .ok :=
  TransferFlags.pending_iff.mp (cond_of_lt (Nat.zero_le j) hj)

/-- The first loop ends before its timeout by a flag or an error. -/
theorem ended_of_waitTransfer_lt {flags : Nat → TransferFlags} {timeout : Nat}
    (hlt : (waitTransfer flags timeout).1 < timeout)
    (hok : (flags (waitTransfer flags timeout).1).eMMCTransferError = .ok) :
    (flags (waitTransfer flags timeout).1).Ended := by
  refine Decidable.byContradiction fun hnot => ?_
  exact not_cond_last hlt (TransferFlags.pending_iff.mpr ⟨hnot, hok⟩)

/-- Among the first `n + 1` tests one sees a flag, and none before it sees an error. -/
def EndsWithin (flags : Nat → TransferFlags) (n : Nat) : Prop :=
  ∃ k ≤ n, (flags k).Ended ∧ ∀ j < k, (flags j).eMMCTransferError = .ok

theorem ended_waitTransfer_iff (flags : Nat → TransferFlags) (timeout : Nat) :
    (∃ i ≤ (waitTransfer flags timeout).1, (flags i).Ended) ↔ EndsWithin flags timeout := by
  constructor
  · rintro ⟨i, hi, hend⟩
    obtain rfl | hlt := Nat.eq_or_lt_of_le hi
    · exact ⟨_, waitTransfer_le flags timeout, hend,
        fun j hj => (pending_of_lt_waitTransfer hj).2⟩
    · exact absurd hend (pending_of_lt_waitTransfer hlt).1
  · rintro ⟨k, hk, hend, hok⟩
    obtain hlt | hge := Nat.lt_or_ge (waitTransfer flags timeout).1 k
    · -- the loop is left before test `k`, with no error there
      have hend' := ended_of_waitTransfer_lt (Nat.lt_of_lt_of_le hlt hk) (hok _ hlt)
      exact ⟨_, Nat.le_refl _, hend'⟩
    · exact ⟨k, hge, hend⟩

/-- The second wait runs out. -/
def RunsOn (runFlag : UInt32) (stat : Nat → UInt32) : Prop :=
  ∀ i < emmcDatatimeout, stat i &&& runFlag ≠ 0

theorem waitRun_eq_zero_iff (runFlag : UInt32) (stat : Nat → UInt32) :
    (waitRun runFlag stat emmcDatatimeout).2 = 0 ↔ RunsOn runFlag stat := by
  refine ranOut_iff.trans (forall₂_congr fun k _ => ?_)
  exact decide_eq_true_iff

theorem emmcWaitOperation_last (runFlag : UInt32) (seen : TransferSeen) :
    (emmcWaitOperation runFlag seen).2 = (waitTransfer seen.flags emmcDatatimeout).1 := rfl

theorem emmcWaitOperation_eq_ok_iff (runFlag : UInt32) (seen : TransferSeen) :
    (emmcWaitOperation runFlag seen).1 = .ok ↔
      (seen.tested = .ok ∧ ¬RunsOn runFlag seen.stat) ∨
        (seen.tested ≠ .ok ∧ seen.returned = .ok) := by
  have hrun := waitRun_eq_zero_iff runFlag seen.stat
  rw [emmcWaitOperation]
  by_cases ht : seen.tested = .ok
  · by_cases h : RunsOn runFlag seen.stat
    · simp [ht, h, hrun.mpr h]
    · simp [ht, h, mt hrun.mp h]
  · simp [ht]

/-- Both reads of the error behind the waits find one, or the first finds none, and a flag has ended
the first wait or the second has run out. -/
def TransferSeen.Sure (runFlag : UInt32) (seen : TransferSeen) : Prop :=
  (seen.tested ≠ .ok ∧ seen.returned ≠ .ok) ∨
    (seen.tested = .ok ∧ (EndsWithin seen.flags emmcDatatimeout ∨ RunsOn runFlag seen.stat))

theorem reportedRight_emmcWaitOperation_iff (runFlag : UInt32) (seen : TransferSeen) :
    ReportedRight seen (emmcWaitOperation runFlag seen) ↔ seen.Sure runFlag := by
  have hok := emmcWaitOperation_eq_ok_iff runFlag seen
  have hend := ended_waitTransfer_iff seen.flags emmcDatatimeout
  rw [← emmcWaitOperation_last runFlag] at hend
  constructor
  · rintro ⟨hcomplete, -⟩
    by_cases ht : seen.tested = .ok
    · refine .inr ⟨ht, ?_⟩
      by_cases hrun : RunsOn runFlag seen.stat
      · exact .inr hrun
      · exact .inl (hend.mp (hcomplete (hok.mpr (.inl ⟨ht, hrun⟩))).1)
    · refine .inl ⟨ht, fun hr => ht ?_⟩
      exact (hcomplete (hok.mpr (.inr ⟨ht, hr⟩))).2
  · intro hsure
    have hcomplete : (emmcWaitOperation runFlag seen).1 = .ok →
        (∃ i ≤ (emmcWaitOperation runFlag seen).2, (seen.flags i).Ended) ∧ seen.tested = .ok := by
      intro h
      obtain ⟨ht, hr⟩ | ⟨ht, hend' | hrun⟩ := hsure
      · exact absurd (hok.mp h) (by simp [ht, hr])
      · exact ⟨hend.mpr hend', ht⟩
      · exact absurd (hok.mp h) (by simp [ht, hrun])
    refine ⟨hcomplete, fun _ hnone h => ?_⟩
    obtain ⟨i, hi, hend'⟩ := (hcomplete h).1
    exact hnone i hi hend'

theorem waits_reportedRight_iff (seen : TransferSeen) (eMMCStopCondition : UInt32) :
    (ReportedRight seen (emmcWaitReadOperation seen eMMCStopCondition).1 ↔
        seen.Sure sdioFlagRxrun) ∧
      (ReportedRight seen (emmcWaitWriteOperation seen) ↔ seen.Sure sdioFlagTxrun) :=
  ⟨reportedRight_emmcWaitOperation_iff sdioFlagRxrun seen,
    reportedRight_emmcWaitOperation_iff sdioFlagTxrun seen⟩

/-- No interrupt comes, and the controller moves no data. -/
def silentTransfer : TransferSeen where
  flags _ := ⟨0, 0, .ok⟩
  stat _ := 0
  tested := .ok
  returned := .ok

theorem silentTransfer_not_sure (runFlag : UInt32) : ¬silentTransfer.Sure runFlag := by
  rintro (⟨ht, -⟩ | ⟨-, ⟨k, -, hend, -⟩ | hrun⟩)
  · exact ht rfl
  · exact absurd hend (by decide : ¬TransferFlags.Ended ⟨0, 0, .ok⟩)
  · exact hrun 0 (by decide) UInt32.zero_and

theorem not_reportedRight_silentTransfer :
    ¬ReportedRight silentTransfer (emmcWaitReadOperation silentTransfer 1).1 ∧
      ¬ReportedRight silentTransfer (emmcWaitWriteOperation silentTransfer) :=
  ⟨mt (reportedRight_emmcWaitOperation_iff _ _).mp (silentTransfer_not_sure _),
    mt (reportedRight_emmcWaitOperation_iff _ _).mp (silentTransfer_not_sure _)⟩

/-- The bit of `SDIO_INT_DTCRCERR` and of `SDIO_INT_FLAG_DTCRCERR`, and so on. -/
def sdioIntDtcrcerr : UInt32 := 0x00000002

def sdioIntDttmout : UInt32 := 0x00000008

def sdioIntTxure : UInt32 := 0x00000010

def sdioIntRxore : UInt32 := 0x00000020

def sdioIntDtend : UInt32 := 0x00000100

def sdioIntStbite : UInt32 := 0x00000200

def sdioIntTfh : UInt32 := 0x00004000

def sdioIntRfh : UInt32 := 0x00008000

structure TransferState extends TransferFlags where
  sdioInten : UInt32

def emmcDmaIrq (ftf : Bool) (s : TransferState) : TransferState :=
  if ftf then { s with dmaEndOfTransfer := 1 } else s

/-- `stat` is `SDIO_STAT` in the tests of the handler. -/
def emmcSdioIrq (stat : Nat → UInt32) (s : TransferState) : TransferState :=
  let s := { s with
    sdioInten := s.sdioInten &&& ~~~(sdioIntDtcrcerr ||| sdioIntDttmout |||
      sdioIntDtend ||| sdioIntTfh ||| sdioIntRfh ||| sdioIntTxure |||
      sdioIntRxore ||| sdioIntStbite) }
  if stat 0 &&& sdioIntDtend ≠ 0 then { s with eMMCTransferError := .ok, eMMCTransferEnd := 1 }
  else if stat 1 &&& sdioIntDtcrcerr ≠ 0 then { s with eMMCTransferError := .dataCrcFail }
  else if stat 2 &&& sdioIntDttmout ≠ 0 then { s with eMMCTransferError := .dataTimeout }
  else if stat 3 &&& sdioIntRxore ≠ 0 then { s with eMMCTransferError := .rxOverrun }
  else if stat 4 &&& sdioIntTxure ≠ 0 then { s with eMMCTransferError := .txUnderrun }
  else if stat 5 &&& sdioIntStbite ≠ 0 then { s with eMMCTransferError := .startBitErr }
  else s

/-- The controller raises its interrupt only for a flag that `SDIO_INTEN` lets through. -/
inductive TransferIrq
  | dma (ftf : Bool)
  | sdio (raised : UInt32) (stat : Nat → UInt32)

/-- A transfer from where `EmmcReadMultiBlocks` and `EmmcWriteMultiBlocks` have enabled the
interrupts. -/
def transferIrqs : Machine TransferState TransferIrq where
  start := ⟨⟨0, 0, .ok⟩, sdioIntDtcrcerr ||| sdioIntDttmout ||| sdioIntDtend |||
    sdioIntRxore ||| sdioIntStbite⟩
  step s
    | .dma ftf => emmcDmaIrq ftf s
    | .sdio raised stat => if s.sdioInten &&& raised ≠ 0 then emmcSdioIrq stat s else s

@[simp] theorem emmcDmaIrq_sdioInten (ftf : Bool) (s : TransferState) :
    (emmcDmaIrq ftf s).sdioInten = s.sdioInten := by
  cases ftf <;> rfl

@[simp] theorem emmcDmaIrq_error (ftf : Bool) (s : TransferState) :
    (emmcDmaIrq ftf s).eMMCTransferError = s.eMMCTransferError := by
  cases ftf <;> rfl

theorem emmcSdioIrq_sdioInten (stat : Nat → UInt32) (s : TransferState) :
    (emmcSdioIrq stat s).sdioInten = s.sdioInten &&& 0xFFFF3CC5 := by
  unfold emmcSdioIrq
  dsimp only
  split_ifs <;> rfl

/-- The SDIO interrupt has come and will not come again, or it has not come and there is no
error. -/
def IrqOnce (s : TransferState) : Prop :=
  s.sdioInten = 0 ∨
    (s.sdioInten = transferIrqs.start.sdioInten ∧ s.eMMCTransferError = .ok)

theorem transferIrqs_step_of_masked {s : TransferState} (e : TransferIrq) (h : s.sdioInten = 0) :
    (transferIrqs.step s e).sdioInten = 0 ∧
      (transferIrqs.step s e).eMMCTransferError = s.eMMCTransferError := by
  cases e with
  | dma ftf => exact ⟨(emmcDmaIrq_sdioInten ftf s).trans h, emmcDmaIrq_error ftf s⟩
  | sdio raised stat => simp [transferIrqs, h]

theorem irqOnce_step (s : TransferState) (e : TransferIrq) (h : IrqOnce s) :
    IrqOnce (transferIrqs.step s e) := by
  obtain h | ⟨hint, hok⟩ := h
  · exact .inl (transferIrqs_step_of_masked e h).1
  · cases e with
    | dma ftf =>
      exact .inr ⟨(emmcDmaIrq_sdioInten ftf s).trans hint, (emmcDmaIrq_error ftf s).trans hok⟩
    | sdio raised stat =>
      by_cases hraised : s.sdioInten &&& raised = 0
      · have hstep : transferIrqs.step s (.sdio raised stat) = s :=
          if_neg (not_not_intro hraised)
        exact .inr (by rw [hstep]; exact ⟨hint, hok⟩)
      · refine .inl ?_
        have hstep : transferIrqs.step s (.sdio raised stat) = emmcSdioIrq stat s := if_pos hraised
        rw [hstep, emmcSdioIrq_sdioInten, hint]
        decide

/-- An error stays to the end of the transfer. -/
theorem error_runFrom {s : TransferState} (es : List TransferIrq) (hs : IrqOnce s)
    (herror : s.eMMCTransferError ≠ .ok) :
    (transferIrqs.runFrom s es).eMMCTransferError = s.eMMCTransferError := by
  let inv : TransferState → Prop := fun t =>
    t.sdioInten = 0 ∧ t.eMMCTransferError = s.eMMCTransferError
  have hstep : ∀ t e, inv t → inv (transferIrqs.step t e) := by
    intro t e ⟨hint, herr⟩
    obtain ⟨hint', herr'⟩ := transferIrqs_step_of_masked e hint
    exact ⟨hint', herr'.trans herr⟩
  have hinv : inv s := ⟨hs.resolve_right fun h => herror h.2, rfl⟩
  exact (transferIrqs.invariant_runFrom_of_step hstep es hinv).2

def transferAt (es : List TransferIrq) (n : Nat) : TransferState := transferIrqs.run (es.take n)

theorem error_transferAt {es : List TransferIrq} {m n : Nat} (hmn : m ≤ n)
    (h : (transferAt es n).eMMCTransferError = .ok) :
    (transferAt es m).eMMCTransferError = .ok := by
  obtain ⟨d, rfl⟩ := Nat.exists_eq_add_of_le hmn
  by_contra herror
  have hat : transferAt es (m + d) =
      transferIrqs.runFrom (transferAt es m) ((es.drop m).take d) := by
    rw [transferAt, List.take_add, Machine.run_append, transferAt]
  have honce : IrqOnce (transferAt es m) :=
    transferIrqs.invariant_runFrom_of_step irqOnce_step _ (.inr ⟨rfl, rfl⟩)
  rw [hat, error_runFrom _ honce herror] at h
  exact herror h

/-- The flags and the error are read from the variables of the interrupts, at moments that go up:
three for each test of the first loop up to the last, and the two behind the loops. -/
def TransferSeen.FromIrqs (seen : TransferSeen) (es : List TransferIrq) (last : Nat) : Prop :=
  ∃ (t : Nat → Nat) (u v : Nat), Monotone t ∧ t (3 * last + 2) ≤ u ∧ u ≤ v ∧
    (∀ i ≤ last, seen.flags i = ⟨(transferAt es (t (3 * i))).dmaEndOfTransfer,
      (transferAt es (t (3 * i + 1))).eMMCTransferEnd,
      (transferAt es (t (3 * i + 2))).eMMCTransferError⟩) ∧
    seen.tested = (transferAt es u).eMMCTransferError ∧
    seen.returned = (transferAt es v).eMMCTransferError

theorem TransferSeen.FromIrqs.error_eq_ok {seen : TransferSeen} {es : List TransferIrq}
    {last : Nat} (h : seen.FromIrqs es last) (ht : seen.tested = .ok) :
    ∀ i ≤ last, (seen.flags i).eMMCTransferError = .ok := by
  obtain ⟨t, u, v, hmono, hu, -, hflags, htested, -⟩ := h
  intro i hi
  rw [hflags i hi]
  have hle : t (3 * i + 2) ≤ u := Nat.le_trans (hmono (by omega)) hu
  exact error_transferAt hle (htested ▸ ht)

theorem TransferSeen.FromIrqs.returned_ne_ok {seen : TransferSeen} {es : List TransferIrq}
    {last : Nat} (h : seen.FromIrqs es last) (ht : seen.tested ≠ .ok) : seen.returned ≠ .ok := by
  obtain ⟨t, u, v, -, -, huv, -, htested, hreturned⟩ := h
  intro hr
  exact ht (htested.trans (error_transferAt huv (hreturned ▸ hr)))

/-- With what the interrupts write, a wait goes wrong in one way: the first loop runs out, and
the second does not. -/
theorem reportedRight_iff_of_irqs {runFlag : UInt32} {seen : TransferSeen} {es : List TransferIrq}
    (h : seen.FromIrqs es (emmcWaitOperation runFlag seen).2) :
    ReportedRight seen (emmcWaitOperation runFlag seen) ↔
      ¬(seen.tested = .ok ∧ (∀ i ≤ emmcDatatimeout, ¬(seen.flags i).Ended) ∧
        ¬RunsOn runFlag seen.stat) := by
  rw [reportedRight_emmcWaitOperation_iff]
  constructor
  · rintro (⟨ht, -⟩ | ⟨-, ⟨k, hk, hend, -⟩ | hrun⟩) ⟨ht', hnone, hnot⟩
    · exact ht ht'
    · exact hnone k hk hend
    · exact hnot hrun
  · intro hwrong
    by_cases ht : seen.tested = .ok
    · refine .inr ⟨ht, ?_⟩
      by_cases hrun : RunsOn runFlag seen.stat
      · exact .inr hrun
      · refine .inl ((ended_waitTransfer_iff _ _).mp ?_)
        by_contra hnone
        refine hwrong ⟨ht, fun i hi hend => hnone ?_, hrun⟩
        obtain hlt | hge := Nat.lt_or_ge (waitTransfer seen.flags emmcDatatimeout).1 i
        · have hok := h.error_eq_ok ht _ (Nat.le_refl _)
          exact ⟨_, Nat.le_refl _, ended_of_waitTransfer_lt (Nat.lt_of_lt_of_le hlt hi) hok⟩
        · exact ⟨i, hge, hend⟩
    · exact .inl ⟨ht, h.returned_ne_ok ht⟩

end Lsc100
