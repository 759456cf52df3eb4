import Lsc100.EmmcCommands

/-! The two places where `BSP_EMMC.c` looks for errors in an R1 response. -/

namespace Lsc100

def emmcOcrAddrOutOfRange : UInt32 := 0x80000000

def emmcOcrAddrMisaligned : UInt32 := 0x40000000

def emmcOcrBlockLenErr : UInt32 := 0x20000000

def emmcOcrEraseSeqErr : UInt32 := 0x10000000

def emmcOcrBadEraseParam : UInt32 := 0x08000000

def emmcOcrWriteProtViolation : UInt32 := 0x04000000

def emmcOcrLockUnlockFailed : UInt32 := 0x01000000

def emmcOcrComCrcFailed : UInt32 := 0x00800000

def emmcOcrIllegalCmd : UInt32 := 0x00400000

def emmcOcrCardEccFailed : UInt32 := 0x00200000

def emmcOcrCcError : UInt32 := 0x00100000

def emmcOcrGeneralUnknownError : UInt32 := 0x00080000

def emmcOcrStreamReadUnderrun : UInt32 := 0x00040000

def emmcOcrStreamWriteOverrun : UInt32 := 0x00020000

def emmcOcrCidCsdOverwriete : UInt32 := 0x00010000

def hocrWpEraseSkip : UInt32 := 0x00008000

def emmcOcrCardEccDisabled : UInt32 := 0x00004000

def emmcOcrEraseReset : UInt32 := 0x00002000

def emmcOcrAkeSeqError : UInt32 := 0x00000008

/-- `CmdResp1Error` with its tests written out. -/
def cmdResp1ErrorTests (cmd : Nat) (a : CmdAnswer) : EmmcError :=
  match a.flag with
  | .cmdtmout => .cmdRspTimeout
  | .ccrcerr => .cmdCrcFail
  | .cmdrecv =>
    if a.commandIndex ≠ cmd then .illegalCmd
    else
      let responseR1 := a.response0
      if responseR1 &&& emmcOcrErrorbits = 0 then .ok
      else if responseR1 &&& emmcOcrAddrOutOfRange ≠ 0 then .addrOutOfRange
      else if responseR1 &&& emmcOcrAddrMisaligned ≠ 0 then .addrMisaligned
      else if responseR1 &&& emmcOcrBlockLenErr ≠ 0 then .blockLenErr
      else if responseR1 &&& emmcOcrEraseSeqErr ≠ 0 then .eraseSeqErr
      else if responseR1 &&& emmcOcrBadEraseParam ≠ 0 then .badEraseParam
      else if responseR1 &&& emmcOcrWriteProtViolation ≠ 0 then .writeProtViolation
      else if responseR1 &&& emmcOcrLockUnlockFailed ≠ 0 then .lockUnlockFailed
      else if responseR1 &&& emmcOcrComCrcFailed ≠ 0 then .comCrcFailed
      else if responseR1 &&& emmcOcrIllegalCmd ≠ 0 then .illegalCmd
      else if responseR1 &&& emmcOcrCardEccFailed ≠ 0 then .cardEccFailed
      else if responseR1 &&& emmcOcrCcError ≠ 0 then .ccError
      else if responseR1 &&& emmcOcrGeneralUnknownError ≠ 0 then .generalUnknownError
      else if responseR1 &&& emmcOcrStreamReadUnderrun ≠ 0 then .streamReadUnderrun
      else if responseR1 &&& emmcOcrStreamWriteOverrun ≠ 0 then .streamWriteOverrun
      else if responseR1 &&& emmcOcrCardEccDisabled ≠ 0 then .cardEccDisabled
      else if responseR1 &&& emmcOcrEraseReset ≠ 0 then .eraseReset
      else if responseR1 &&& emmcOcrAkeSeqError ≠ 0 then .akeSeqError
      else .ok

/-- `IsCardProgramming` with its tests written out. -/
def isCardProgrammingTests (pstatus : Nat) (a : CmdAnswer) : EmmcError × Nat :=
  match a.flag with
  | .cmdtmout => (.cmdRspTimeout, pstatus)
  | .ccrcerr => (.cmdCrcFail, pstatus)
  | .cmdrecv =>
    if a.commandIndex ≠ emmcCmdSendStatus then (.illegalCmd, pstatus)
    else
      let respR1 := a.response0
      let pstatus := ((respR1 >>> 9) &&& 0x0000000F).toNat
      if respR1 &&& emmcOcrErrorbits = 0 then (.ok, pstatus)
      else if respR1 &&& emmcOcrAddrOutOfRange ≠ 0 then (.addrOutOfRange, pstatus)
      else if respR1 &&& emmcOcrAddrMisaligned ≠ 0 then (.addrMisaligned, pstatus)
      else if respR1 &&& emmcOcrBlockLenErr ≠ 0 then (.blockLenErr, pstatus)
      else if respR1 &&& emmcOcrEraseSeqErr ≠ 0 then (.eraseSeqErr, pstatus)
      else if respR1 &&& emmcOcrBadEraseParam ≠ 0 then (.badEraseParam, pstatus)
      else if respR1 &&& emmcOcrWriteProtViolation ≠ 0 then (.writeProtViolation, pstatus)
      else if respR1 &&& emmcOcrLockUnlockFailed ≠ 0 then (.lockUnlockFailed, pstatus)
      else if respR1 &&& emmcOcrComCrcFailed ≠ 0 then (.comCrcFailed, pstatus)
      else if respR1 &&& emmcOcrIllegalCmd ≠ 0 then (.illegalCmd, pstatus)
      else if respR1 &&& emmcOcrCardEccFailed ≠ 0 then (.cardEccFailed, pstatus)
      else if respR1 &&& emmcOcrCcError ≠ 0 then (.ccError, pstatus)
      else if respR1 &&& emmcOcrGeneralUnknownError ≠ 0 then (.generalUnknownError, pstatus)
      else if respR1 &&& emmcOcrStreamReadUnderrun ≠ 0 then (.streamReadUnderrun, pstatus)
      else if respR1 &&& emmcOcrStreamWriteOverrun ≠ 0 then (.streamWriteOverrun, pstatus)
      else if respR1 &&& emmcOcrCardEccDisabled ≠ 0 then (.cardEccDisabled, pstatus)
      else if respR1 &&& emmcOcrEraseReset ≠ 0 then (.eraseReset, pstatus)
      else if respR1 &&& emmcOcrAkeSeqError ≠ 0 then (.akeSeqError, pstatus)
      else (.ok, pstatus)

/-- The error of the first test that applies. -/
def firstError (response : UInt32) : List (UInt32 × EmmcError) → EmmcError
  | [] => .ok
  | e :: l => if response &&& e.1 ≠ 0 then e.2 else firstError response l

theorem firstError_eq (response : UInt32) (l : List (UInt32 × EmmcError)) :
    firstError response l =
      ((l.find? fun e => response &&& e.1 ≠ 0).map Prod.snd).getD .ok := by
  induction l with
  | nil => rfl
  | cons e l ih =>
    by_cases h : response &&& e.1 = 0
    · simpa [firstError, List.find?_cons, h] using ih
    · simp [firstError, h]

theorem r1Error_eq (response : UInt32) : r1Error response =
    if response &&& emmcOcrErrorbits = 0 then .ok else firstError response ocrErrors := by
  rw [r1Error, firstError_eq]
  split
  · rfl
  · split
    next e hfind => rw [hfind]; rfl
    next hfind => rw [hfind]; rfl

theorem cmdResp1ErrorTests_eq (cmd : Nat) (a : CmdAnswer) :
    cmdResp1ErrorTests cmd a = cmdResp1Error cmd a := by
  rw [cmdResp1ErrorTests, cmdResp1Error, r1Error_eq]
  rfl

theorem isCardProgrammingTests_eq (pstatus : Nat) (a : CmdAnswer) :
    isCardProgrammingTests pstatus a = isCardProgramming pstatus a := by
  rw [isCardProgrammingTests, isCardProgramming, r1Error_eq]
  simp only [ocrErrors, firstError, cardStateOf,
    apply_ite (fun e => (e, ((a.response0 >>> 9) &&& 0x0F).toNat))]
  rfl

def testedBits : List (UInt32 × EmmcError) → UInt32
  | [] => 0
  | e :: l => e.1 ||| testedBits l

theorem and_or_eq_zero (r a b : UInt32) : r &&& (a ||| b) = 0 ↔ r &&& a = 0 ∧ r &&& b = 0 := by
  have hdistrib : r &&& (a ||| b) = (r &&& a) ||| (r &&& b) :=
    UInt32.toBitVec_inj.mp BitVec.and_or_distrib_left
  rw [hdistrib, UInt32.or_eq_zero_iff]

theorem firstError_eq_ok_iff {response : UInt32} {l : List (UInt32 × EmmcError)}
    (hl : ∀ e ∈ l, e.2 ≠ .ok) : firstError response l = .ok ↔ response &&& testedBits l = 0 := by
  induction l with
  | nil => simp [firstError, testedBits]
  | cons e l ih =>
    have hrest := ih fun e he => hl e (List.mem_cons_of_mem _ he)
    rw [firstError, testedBits, and_or_eq_zero]
    by_cases h : response &&& e.1 = 0
    · simp [h, hrest]
    · simp [h, hl e List.mem_cons_self]

/-- The bits of the mask that no test looks at. -/
def forgottenBits : UInt32 := emmcOcrCidCsdOverwriete ||| hocrWpEraseSkip

theorem ocrErrorbits_eq : emmcOcrErrorbits = testedBits ocrErrors ||| forgottenBits := by
  decide

theorem testedBits_eq : testedBits ocrErrors = emmcOcrErrorbits ^^^ forgottenBits := by
  decide

theorem cmdResp1Error_ok_iff (cmd : Nat) (response : UInt32) (transfer : EmmcError) :
    cmdResp1Error cmd ⟨.cmdrecv, cmd, response, transfer⟩ = .ok ↔
      response &&& testedBits ocrErrors = 0 := by
  have hnone : ∀ e ∈ ocrErrors, e.2 ≠ .ok := by decide
  rw [cmdResp1Error, if_neg (by simp), r1Error_eq]
  by_cases hbits : response &&& emmcOcrErrorbits = 0
  · rw [if_pos hbits]
    rw [ocrErrorbits_eq, and_or_eq_zero] at hbits
    simp [hbits.1]
  · rw [if_neg hbits, firstError_eq_ok_iff hnone]

structure StatusDecoded (response : UInt32) : Prop where
  complete : ∀ cmd transfer,
    cmdResp1ErrorTests cmd ⟨.cmdrecv, cmd, response, transfer⟩ = .ok ↔
      response &&& emmcOcrErrorbits = 0
  consistent : ∀ cmd transfer transfer' pstatus,
    (isCardProgrammingTests pstatus ⟨.cmdrecv, emmcCmdSendStatus, response, transfer'⟩).1 =
      cmdResp1ErrorTests cmd ⟨.cmdrecv, cmd, response, transfer⟩

/-- The errors are decoded unless the only bits of the mask that are set are forgotten ones. -/
theorem statusDecoded_iff (response : UInt32) : StatusDecoded response ↔
    response &&& forgottenBits = 0 ∨ response &&& (emmcOcrErrorbits ^^^ forgottenBits) ≠ 0 := by
  rw [← testedBits_eq]
  have hconsistent : ∀ cmd transfer transfer' pstatus,
      (isCardProgrammingTests pstatus ⟨.cmdrecv, emmcCmdSendStatus, response, transfer'⟩).1 =
        cmdResp1ErrorTests cmd ⟨.cmdrecv, cmd, response, transfer⟩ := by
    intro cmd transfer transfer' pstatus
    rw [isCardProgrammingTests_eq, cmdResp1ErrorTests_eq, isCardProgramming, cmdResp1Error]
    simp
  have hcomplete : ∀ cmd transfer,
      (cmdResp1ErrorTests cmd ⟨.cmdrecv, cmd, response, transfer⟩ = .ok ↔
        response &&& emmcOcrErrorbits = 0) ↔
      response &&& forgottenBits = 0 ∨ response &&& testedBits ocrErrors ≠ 0 := by
    intro cmd transfer
    rw [cmdResp1ErrorTests_eq, cmdResp1Error_ok_iff, ocrErrorbits_eq, and_or_eq_zero]
    by_cases htested : response &&& testedBits ocrErrors = 0
    · simp [htested]
    · simp [htested]
  constructor
  · intro h
    exact (hcomplete 0 .ok).mp (h.complete 0 .ok)
  · intro h
    exact ⟨fun cmd transfer => (hcomplete cmd transfer).mpr h, hconsistent⟩

/-- A card that is ready and has left out a write-protected part of what it was to erase. -/
theorem not_statusDecoded : ¬ StatusDecoded 0x00008900 := by
  intro h
  exact absurd ((h.complete emmcCmdErase .ok).mp (by decide)) (by decide)

end Lsc100
