import Mathlib.Algebra.Order.Field.Rat
import Mathlib.Data.Rat.Cast.Order
import Mathlib.Tactic.Positivity
import Mathlib.Tactic.Linarith
import Lsc100.Sample.Calibration

/-! The calibration over exact rationals: what the gains are divided by, and when it is
positive. -/

namespace Lsc100

/-- `a / b`, and nothing if `b` is zero. -/
def exactDiv (a b : ℚ) : Option ℚ := if b = 0 then none else some (a / b)

/-- The state of the calibration by channel. `summed` are the samples in `cal`, `zero` and
`full` those the offsets and the gains have been computed from. -/
structure ExactCal where
  calFlag : DevCalFlag
  calKey1Status : Bool
  calKey2Status : Bool
  cal : Cal
  bias : Fin 4 → ℚ
  denominator : Fin 4 → ℚ
  gain : Fin 4 → Option ℚ
  summed : List (Fin 4 → UInt16)
  zero : List (Fin 4 → UInt16)
  full : List (Fin 4 → UInt16)

namespace ExactCal

def start (calFlag : DevCalFlag) (bias : Fin 4 → ℚ) (gain : Fin 4 → Option ℚ) : ExactCal :=
  ⟨calFlag, false, false, .zero, bias, fun _ => 0, gain, [], [], []⟩

def sum (rawData : Fin 4 → UInt16) (s : ExactCal) : ExactCal :=
  if s.cal.num < calSampleNum then
    { s with cal := s.cal.add rawData, summed := s.summed ++ [rawData] }
  else s

def endZero (s : ExactCal) : ExactCal :=
  { s with
    calKey1Status := false
    bias := fun k => (s.cal.data k).toNat / 100
    calFlag := .devCalStr
    cal := .zero
    summed := []
    zero := s.summed }

def endFull (s : ExactCal) : ExactCal :=
  let denominator := fun k => (s.cal.data k).toNat / 100 - s.bias k
  { s with
    calKey2Status := false
    denominator := denominator
    gain := fun k => exactDiv 10 (denominator k)
    calFlag := .devCalEnd
    cal := .zero
    summed := []
    full := s.summed }

def calBiasZero (rawData : Fin 4 → UInt16) (s : ExactCal) : ExactCal :=
  if s.calKey1Status ∧ s.calFlag = .devCalDef then
    let s := s.sum rawData
    if calSampleNum ≤ s.cal.num then s.endZero else s
  else s

def calBiasFull (rawData : Fin 4 → UInt16) (s : ExactCal) : ExactCal :=
  if s.calKey2Status ∧ s.calFlag = .devCalStr then
    let s := s.sum rawData
    if calSampleNum ≤ s.cal.num then s.endFull else s
  else s

def step (s : ExactCal) : CalEvent → ExactCal
  | .key1 => { s with calKey1Status := true }
  | .key2 => { s with calKey2Status := true }
  | .sample rawData => (s.calBiasZero rawData).calBiasFull rawData

end ExactCal

def exactCalibration (calFlag : DevCalFlag) (bias : Fin 4 → ℚ) (gain : Fin 4 → Option ℚ) :
    Machine ExactCal CalEvent where
  start := .start calFlag bias gain
  step := ExactCal.step

def rawSum (samples : List (Fin 4 → UInt16)) (k : Fin 4) : Nat :=
  (samples.map fun rawData => (rawData k).toNat).sum

theorem rawSum_concat (samples : List (Fin 4 → UInt16)) (rawData : Fin 4 → UInt16) (k : Fin 4) :
    rawSum (samples ++ [rawData]) k = rawSum samples k + (rawData k).toNat := by
  simp [rawSum]

theorem rawSum_le (samples : List (Fin 4 → UInt16)) (k : Fin 4) :
    rawSum samples k ≤ 65535 * samples.length := by
  induction samples with
  | nil => exact Nat.le_refl 0
  | cons rawData samples ih =>
    have hlt := (rawData k).toNat_lt
    simp only [rawSum, List.map_cons, List.sum_cons, List.length_cons] at ih ⊢
    omega

namespace ExactCal

/-- A hundred times the zero offset: the sum of the samples it has been computed from, or what
the device started with. -/
def offset (bias : Fin 4 → ℚ) (s : ExactCal) (k : Fin 4) : ℚ :=
  if s.zero = [] then 100 * bias k else rawSum s.zero k

structure Inv (calFlag : DevCalFlag) (bias : Fin 4 → ℚ) (s : ExactCal) : Prop where
  room : s.cal.num < calSampleNum
  num : s.cal.num = s.summed.length
  data : ∀ k, (s.cal.data k).toNat = rawSum s.summed k
  offset : ∀ k, 100 * s.bias k = s.offset bias k
  zero : s.zero = [] ∨ s.zero.length = calSampleNum
  ended : calFlag = .devCalEnd → s.calFlag = .devCalEnd
  done : s.full ≠ [] ↔ s.calFlag = .devCalEnd ∧ calFlag ≠ .devCalEnd
  full : s.full ≠ [] → s.full.length = calSampleNum ∧ ∀ k,
    100 * s.denominator k = rawSum s.full k - s.offset bias k ∧
      s.gain k = exactDiv 10 (s.denominator k)

def added (rawData : Fin 4 → UInt16) (s : ExactCal) : ExactCal :=
  { s with cal := s.cal.add rawData, summed := s.summed ++ [rawData] }

variable {s : ExactCal} {calFlag : DevCalFlag} {bias : Fin 4 → ℚ}

theorem Inv.start (calFlag : DevCalFlag) (bias : Fin 4 → ℚ) (gain : Fin 4 → Option ℚ) :
    (ExactCal.start calFlag bias gain).Inv calFlag bias where
  room := (by decide : 0 < calSampleNum)
  num := rfl
  data _ := rfl
  offset _ := (if_pos rfl).symm
  zero := .inl rfl
  ended h := h
  done := ⟨fun h => absurd rfl h, fun h => absurd h.1 h.2⟩
  full h := absurd rfl h

theorem Inv.added_num (h : s.Inv calFlag bias) (rawData : Fin 4 → UInt16) :
    (s.cal.add rawData).num = (s.summed ++ [rawData]).length := by
  rw [List.length_append, ← h.num]
  rfl

/-- The sum of at most 100 samples does not overflow. -/
theorem Inv.added_data (h : s.Inv calFlag bias) (rawData : Fin 4 → UInt16) (k : Fin 4) :
    ((s.cal.add rawData).data k).toNat = rawSum (s.summed ++ [rawData]) k := by
  have hroom := h.room
  have hnum := h.num
  have hle := rawSum_le s.summed k
  have hlt := (rawData k).toNat_lt
  rw [rawSum_concat, ← h.data k]
  rw [← h.data k] at hle
  simp only [Cal.add, UInt32.toNat_add, UInt16.toNat_toUInt32]
  rw [calSampleNum] at hroom
  exact Nat.mod_eq_of_lt (by omega)

theorem Inv.added (h : s.Inv calFlag bias) (rawData : Fin 4 → UInt16)
    (hroom : s.cal.num + 1 < calSampleNum) : (s.added rawData).Inv calFlag bias :=
  { h with room := hroom, num := h.added_num rawData, data := h.added_data rawData }

theorem Inv.full_eq_nil (h : s.Inv calFlag bias) (hflag : s.calFlag ≠ .devCalEnd) :
    s.full = [] := by
  by_contra hfull
  exact hflag (h.done.mp hfull).1

theorem Inv.endZero (h : s.Inv calFlag bias) (rawData : Fin 4 → UInt16)
    (hnum : s.cal.num + 1 = calSampleNum) (hflag : s.calFlag = .devCalDef) :
    (s.added rawData).endZero.Inv calFlag bias := by
  have hfull : s.full = [] := h.full_eq_nil (by rw [hflag]; exact DevCalFlag.noConfusion)
  have hzero : s.summed ++ [rawData] ≠ [] := by simp
  exact {
    room := (by decide : 0 < calSampleNum)
    num := rfl
    data := fun _ => rfl
    offset := fun k => by
      have hoffset : (s.added rawData).endZero.offset bias k =
          rawSum (s.summed ++ [rawData]) k := if_neg hzero
      rw [hoffset, ← h.added_data]
      exact mul_div_cancel₀ _ (by decide)
    zero := .inr ((h.added_num rawData).symm.trans hnum)
    ended := fun hstart => absurd (hflag.symm.trans (h.ended hstart)) DevCalFlag.noConfusion
    done := ⟨fun hne => absurd hfull hne, fun hend => absurd hend.1 DevCalFlag.noConfusion⟩
    full := fun hne => absurd hfull hne }

theorem Inv.endFull (h : s.Inv calFlag bias) (rawData : Fin 4 → UInt16)
    (hnum : s.cal.num + 1 = calSampleNum) (hflag : s.calFlag = .devCalStr) :
    (s.added rawData).endFull.Inv calFlag bias := by
  have hstart : calFlag ≠ .devCalEnd := by
    intro hstart
    exact absurd (hflag.symm.trans (h.ended hstart)) DevCalFlag.noConfusion
  have hfull : s.summed ++ [rawData] ≠ [] := by simp
  have hlength := (h.added_num rawData).symm.trans hnum
  exact {
    room := (by decide : 0 < calSampleNum)
    num := rfl
    data := fun _ => rfl
    offset := h.offset
    zero := h.zero
    ended := fun _ => rfl
    done := ⟨fun _ => ⟨rfl, hstart⟩, fun _ => hfull⟩
    full := fun _ => ⟨hlength, fun k => ⟨by
      have hden : (s.added rawData).endFull.denominator k =
          (rawSum (s.summed ++ [rawData]) k : ℚ) / 100 - s.bias k := by
        rw [← h.added_data]
        rfl
      rw [hden, mul_sub, h.offset k, mul_div_cancel₀ _ (by decide)]
      rfl, rfl⟩⟩ }

/-- A stage takes the sample or not, and ends with it or goes on. -/
theorem Inv.calBiasZero (h : s.Inv calFlag bias) (rawData : Fin 4 → UInt16) :
    (s.calBiasZero rawData).Inv calFlag bias := by
  rw [ExactCal.calBiasZero, sum, if_pos h.room]
  split
  · rename_i hcond
    dsimp only
    split
    · rename_i hlast
      exact h.endZero rawData (Nat.le_antisymm h.room hlast) hcond.2
    · rename_i hnext
      exact h.added rawData (Nat.not_le.mp hnext)
  · exact h

theorem Inv.calBiasFull (h : s.Inv calFlag bias) (rawData : Fin 4 → UInt16) :
    (s.calBiasFull rawData).Inv calFlag bias := by
  rw [ExactCal.calBiasFull, sum, if_pos h.room]
  split
  · rename_i hcond
    dsimp only
    split
    · rename_i hlast
      exact h.endFull rawData (Nat.le_antisymm h.room hlast) hcond.2
    · rename_i hnext
      exact h.added rawData (Nat.not_le.mp hnext)
  · exact h

theorem Inv.step (h : s.Inv calFlag bias) (e : CalEvent) : (s.step e).Inv calFlag bias := by
  cases e with
  | key1 => exact { h with }
  | key2 => exact { h with }
  | sample rawData => exact (h.calBiasZero rawData).calBiasFull rawData

theorem Inv.run (calFlag : DevCalFlag) (bias : Fin 4 → ℚ) (gain : Fin 4 → Option ℚ)
    (es : List CalEvent) : ((exactCalibration calFlag bias gain).run es).Inv calFlag bias :=
  (exactCalibration calFlag bias gain).invariant_runFrom_of_step (fun _ e h => h.step e) es
    (.start calFlag bias gain)

/-- The gain of channel `k` can be worked out and is positive. -/
structure GainRight (s : ExactCal) (k : Fin 4) : Prop where
  denominator : 0 < s.denominator k
  gain : ∃ g, s.gain k = some g ∧ 0 < g

/-- A denominator is a hundredth of what the samples of the second stage have more than those
of the first one. -/
theorem Inv.gainRight_iff (h : s.Inv calFlag bias) (hfull : s.full ≠ []) (k : Fin 4) :
    s.GainRight k ↔ s.offset bias k < rawSum s.full k := by
  obtain ⟨-, hall⟩ := h.full hfull
  obtain ⟨hden, hgain⟩ := hall k
  constructor
  · intro hright
    have hpos := hright.denominator
    linarith
  · intro hlt
    have hpos : 0 < s.denominator k := by linarith
    refine ⟨hpos, 10 / s.denominator k, ?_, by positivity⟩
    rw [hgain, exactDiv, if_neg hpos.ne']

theorem step_of_end (hflag : s.calFlag = .devCalEnd) (e : CalEvent) :
    (s.step e).calFlag = .devCalEnd ∧ (s.step e).zero = s.zero ∧ (s.step e).full = s.full := by
  cases e with
  | key1 => exact ⟨hflag, rfl, rfl⟩
  | key2 => exact ⟨hflag, rfl, rfl⟩
  | sample rawData =>
    have hzero : s.calBiasZero rawData = s := if_neg fun h => by simp [hflag] at h
    have hfull : s.calBiasFull rawData = s := if_neg fun h => by simp [hflag] at h
    rw [step, hzero, hfull]
    exact ⟨hflag, rfl, rfl⟩

/-- The calibration is over with its first end. -/
theorem run_of_end {gain : Fin 4 → Option ℚ} {before es : List CalEvent} (hpre : before <+: es)
    (hflag : ((exactCalibration calFlag bias gain).run before).calFlag = .devCalEnd) :
    ((exactCalibration calFlag bias gain).run es).zero =
        ((exactCalibration calFlag bias gain).run before).zero ∧
      ((exactCalibration calFlag bias gain).run es).full =
        ((exactCalibration calFlag bias gain).run before).full := by
  obtain ⟨after, rfl⟩ := hpre
  rw [Machine.run_append]
  generalize (exactCalibration calFlag bias gain).run before = s at *
  have hkeeps : ∀ t e, t.calFlag = .devCalEnd ∧ t.zero = s.zero ∧ t.full = s.full →
      (step t e).calFlag = .devCalEnd ∧ (step t e).zero = s.zero ∧ (step t e).full = s.full := by
    rintro t e ⟨hend, hzero, hfull⟩
    rw [← hzero, ← hfull]
    exact step_of_end hend e
  exact ((exactCalibration calFlag bias gain).invariant_runFrom_of_step hkeeps after
    ⟨hflag, rfl, rfl⟩).2

/-- The exact calibration is at the same point as the one on words. -/
structure Follows (t : ExactCal) (s : Calibration) : Prop where
  calFlag : t.calFlag = s.config.calFlag
  calKey1Status : t.calKey1Status = s.calKey1Status
  calKey2Status : t.calKey2Status = s.calKey2Status
  cal : t.cal = s.cal

namespace Follows

variable {t : ExactCal} {s : Calibration} {f : CalFloat}

theorem sum (h : t.Follows s) (rawData : Fin 4 → UInt16) :
    (t.sum rawData).Follows (s.sum rawData) := by
  rw [ExactCal.sum, Calibration.sum, h.cal]
  split
  · exact { h with cal := rfl }
  · exact h

theorem calBiasZero (h : t.Follows s) (rawData : Fin 4 → UInt16) :
    (t.calBiasZero rawData).Follows (s.calBiasZero f rawData) := by
  have hsum := h.sum rawData
  simp only [ExactCal.calBiasZero, Calibration.calBiasZero, h.calKey1Status, h.calFlag, hsum.cal]
  split
  · split
    · exact { hsum with calFlag := rfl, calKey1Status := rfl, cal := rfl }
    · exact hsum
  · exact h

theorem calBiasFull (h : t.Follows s) (rawData : Fin 4 → UInt16) :
    (t.calBiasFull rawData).Follows (s.calBiasFull f rawData) := by
  have hsum := h.sum rawData
  simp only [ExactCal.calBiasFull, Calibration.calBiasFull, h.calKey2Status, h.calFlag, hsum.cal]
  split
  · split
    · exact { hsum with calFlag := rfl, calKey2Status := rfl, cal := rfl }
    · exact hsum
  · exact h

theorem step (h : t.Follows s) (e : CalEvent) :
    (t.step e).Follows (Calibration.step f s e) := by
  cases e with
  | key1 => exact { h with calKey1Status := rfl }
  | key2 => exact { h with calKey2Status := rfl }
  | sample rawData =>
    have hsample := (h.calBiasZero (f := f) rawData).calBiasFull (f := f) rawData
    by_cases hend : s.config.calFlag = .devCalEnd ∧ s.config.flag = devFlagNextOn
    · have hzero : t.calBiasZero rawData = t := if_neg fun hc => by simp [h.calFlag, hend.1] at hc
      have hfull : t.calBiasFull rawData = t := if_neg fun hc => by simp [h.calFlag, hend.1] at hc
      rw [ExactCal.step, hzero, hfull, Calibration.step, Calibration.sample, if_pos hend]
      exact { h with }
    · rw [ExactCal.step, Calibration.step, Calibration.sample, if_neg hend]
      exact { hsample with }

theorem run (f : CalFloat) (config : ConfigInfo) (bias : Fin 4 → ℚ) (gain : Fin 4 → Option ℚ)
    (es : List CalEvent) :
    ((exactCalibration config.calFlag bias gain).run es).Follows
      ((calibration f config).run es) := by
  induction es using List.reverseRecOn with
  | nil => exact ⟨rfl, rfl, rfl, rfl⟩
  | append_singleton es e ih =>
    rw [Machine.run_concat, Machine.run_concat]
    exact ih.step e

end Follows

end ExactCal

/-- Each time `cal_flag` becomes `DEV_CAL_END` the four gains are right. -/
def GainsRight (calFlag : DevCalFlag) (bias : Fin 4 → ℚ) (gain : Fin 4 → Option ℚ)
    (es : List CalEvent) : Prop :=
  ∀ before e, before ++ [e] <+: es →
    ((exactCalibration calFlag bias gain).run before).calFlag ≠ .devCalEnd →
    ((exactCalibration calFlag bias gain).run (before ++ [e])).calFlag = .devCalEnd →
    ∀ k, ((exactCalibration calFlag bias gain).run (before ++ [e])).GainRight k

/-- The gains are right unless on some channel the samples of the second stage do not add up to
more than those of the first one. -/
theorem gainsRight_iff (calFlag : DevCalFlag) (bias : Fin 4 → ℚ) (gain : Fin 4 → Option ℚ)
    (es : List CalEvent) :
    GainsRight calFlag bias gain es ↔
      ((exactCalibration calFlag bias gain).run es).full = [] ∨
        ∀ k, ((exactCalibration calFlag bias gain).run es).offset bias k <
          rawSum ((exactCalibration calFlag bias gain).run es).full k := by
  have hinv := ExactCal.Inv.run calFlag bias gain
  constructor
  · intro hright
    rw [or_iff_not_imp_left]
    intro hfull k
    obtain ⟨hend, hstart⟩ := (hinv es).done.mp hfull
    obtain ⟨before, e, hpre, hbefore, hturn⟩ :=
      (exactCalibration calFlag bias gain).exists_turn (p := fun s => s.calFlag = .devCalEnd)
        hstart hend
    have hgain := hright before e hpre hbefore hturn k
    obtain ⟨hzero, hlast⟩ := ExactCal.run_of_end hpre hturn
    rw [(hinv _).gainRight_iff (hlast ▸ hfull), ExactCal.offset, ← hzero, ← hlast] at hgain
    exact hgain
  · intro hcases before e hpre hbefore hturn k
    obtain ⟨hzero, hlast⟩ := ExactCal.run_of_end hpre hturn
    have hstart : calFlag ≠ .devCalEnd := by
      intro hstart
      exact hbefore ((hinv before).ended hstart)
    have hfull := (hinv (before ++ [e])).done.mpr ⟨hturn, hstart⟩
    obtain hnone | hlt := hcases
    · exact absurd (hlast.symm.trans hnone) hfull
    · rw [(hinv _).gainRight_iff hfull, ExactCal.offset, ← hzero, ← hlast]
      exact hlt k

/-- The same reading on every channel in both stages: the denominators are zero. -/
theorem gains_undefined :
    ¬ GainsRight .devCalDef (fun _ => 0) (fun _ => some 1)
        ([.key1] ++ calSamples 100 ++ [.key2] ++ calSamples 100) ∧
      ∀ k, ((exactCalibration .devCalDef (fun _ => 0) (fun _ => some 1)).run
        ([.key1] ++ calSamples 100 ++ [.key2] ++ calSamples 100)).gain k = none := by
  refine ⟨fun h => ?_, by decide +kernel⟩
  have hlast : calSamples 100 = calSamples 99 ++ [.sample fun _ => 100] := List.replicate_succ'
  have hpre : [.key1] ++ calSamples 100 ++ [.key2] ++ calSamples 99 ++ [.sample fun _ => 100] <+:
      [.key1] ++ calSamples 100 ++ [.key2] ++ calSamples 100 := by
    rw [List.append_assoc _ (calSamples 99), ← hlast]
  have hright := h _ _ hpre (by decide +kernel) (by decide +kernel) 0
  exact absurd hright.denominator (by decide +kernel)

end Lsc100
