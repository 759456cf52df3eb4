import Mathlib.Data.List.Induction
import Lsc100.Basis.Machine
import Lsc100.Alarm.Notify

/-! The two-point calibration of `adc_sample.c`: 100 samples after KEY1 give the
zero offsets, 100 samples after KEY2 the gains. The interrupt handlers only set
flags. -/

namespace Lsc100

def calSampleNum : Nat := 100

/-- `Cal_t`. -/
structure Cal where
  data : Fin 4 → UInt32
  num : Nat

def Cal.zero : Cal := ⟨fun _ => 0, 0⟩

/-- The float expressions of the calibration, on words: `(float)sum / 100.0f` and
`10.0f / ((float)sum / 100.0f - bias)`. -/
structure CalFloat where
  bias : UInt32 → UInt32
  gain : UInt32 → UInt32 → UInt32

/-- Besides the globals, when keys were pressed and when samples were taken: `key1`
are the presses while `cal_flag` was `DEV_CAL_DEF`, `key2` those after the zero
calibration, `early` those of KEY2 before it was complete; `summed` are the samples
in `cal`, `zero` and `gain` those the offsets and the gains have been computed from. -/
structure Calibration where
  config : ConfigInfo
  configStatus : Bool
  calKey1Status : Bool
  calKey2Status : Bool
  cal : Cal
  now : Nat
  key1 : List Nat
  key2 : List Nat
  early : List Nat
  summed : List Nat
  zero : List Nat
  gain : List Nat

inductive CalEvent
  | key1
  | key2
  | sample (rawData : Fin 4 → UInt16)

/-- `cal->data[..] += item->raw_data[..]` -/
def Cal.add (cal : Cal) (rawData : Fin 4 → UInt16) : Cal :=
  ⟨fun k => cal.data k + (rawData k).toUInt32, cal.num + 1⟩

namespace Calibration

def start (config : ConfigInfo) : Calibration :=
  ⟨config, false, false, false, .zero, 0, [], [], [], [], [], []⟩

/-- The part that both stages have in common. -/
def sum (rawData : Fin 4 → UInt16) (s : Calibration) : Calibration :=
  if s.cal.num < calSampleNum then
    { s with cal := s.cal.add rawData, summed := s.summed ++ [s.now] }
  else s

def calBiasZero (f : CalFloat) (rawData : Fin 4 → UInt16) (s : Calibration) : Calibration :=
  if s.calKey1Status ∧ s.config.calFlag = .devCalDef then
    let s := s.sum rawData
    if calSampleNum ≤ s.cal.num then
      { s with
        calKey1Status := false
        config := { s.config with
          fCbias0 := f.bias (s.cal.data sensorFrontCurrent)
          fVbias0 := f.bias (s.cal.data sensorFrontVoltage)
          rCbias0 := f.bias (s.cal.data snesorRearCurrent)
          rVbias0 := f.bias (s.cal.data snesorRearVoltage)
          calFlag := .devCalStr }
        cal := .zero
        summed := []
        zero := s.summed }
    else s
  else s

def calBiasFull (f : CalFloat) (rawData : Fin 4 → UInt16) (s : Calibration) : Calibration :=
  if s.calKey2Status ∧ s.config.calFlag = .devCalStr then
    let s := s.sum rawData
    if calSampleNum ≤ s.cal.num then
      { s with
        calKey2Status := false
        config := { s.config with
          fCgain := f.gain (s.cal.data sensorFrontCurrent) s.config.fCbias0
          fVgain := f.gain (s.cal.data sensorFrontVoltage) s.config.fVbias0
          rCgain := f.gain (s.cal.data snesorRearCurrent) s.config.rCbias0
          rVgain := f.gain (s.cal.data snesorRearVoltage) s.config.rVbias0
          calFlag := .devCalEnd }
        configStatus := true
        cal := .zero
        summed := []
        gain := s.summed }
    else s
  else s

/-- The end of the loop body of `sample_task`, without the recording. -/
def sample (f : CalFloat) (rawData : Fin 4 → UInt16) (s : Calibration) : Calibration :=
  if s.config.calFlag = .devCalEnd ∧ s.config.flag = devFlagNextOn then s
  else (s.calBiasZero f rawData).calBiasFull f rawData

def calKey1IrqHandlerCb (s : Calibration) : Calibration :=
  { s with
    calKey1Status := true
    key1 := if s.config.calFlag = .devCalDef then s.key1 ++ [s.now] else s.key1 }

def calKey2IrqHandlerCb (s : Calibration) : Calibration :=
  { s with
    calKey2Status := true
    key2 := if s.config.calFlag = .devCalDef then s.key2 else s.key2 ++ [s.now]
    early := if s.config.calFlag = .devCalDef then s.early ++ [s.now] else s.early }

def step (f : CalFloat) (s : Calibration) (e : CalEvent) : Calibration :=
  let s := match e with
    | .key1 => s.calKey1IrqHandlerCb
    | .key2 => s.calKey2IrqHandlerCb
    | .sample rawData => s.sample f rawData
  { s with now := s.now + 1 }

end Calibration

def calibration (f : CalFloat) (config : ConfigInfo) : Machine Calibration CalEvent where
  start := .start config
  step := Calibration.step f

namespace Calibration

/-- Every sample the results rest on was taken after the key that asks for it. -/
structure OnRequest (s : Calibration) : Prop where
  zero : ∀ t ∈ s.zero, ∃ p ∈ s.key1, p < t
  gain : ∀ t ∈ s.gain, ∃ p ∈ s.key2, p < t

/-- The samples were taken after some press of `keys`. -/
def After (keys samples : List Nat) : Prop := ∀ t ∈ samples, ∃ p ∈ keys, p < t

/-- One stage of the calibration, with its key and its presses. -/
structure Stage (s : Calibration) (status : Bool) (keys : List Nat) : Prop where
  num : s.cal.num = s.summed.length
  room : s.cal.num < calSampleNum
  pressed : status = true → ∃ p ∈ keys, p < s.now
  asked : After keys s.summed

/-- The invariant. When KEY2 was pressed too early, the sample that completed the
zero calibration is the first one of the next stage. -/
inductive Inv (s : Calibration) : Prop
  | zero (hflag : s.config.calFlag = .devCalDef) (hstage : s.Stage s.calKey1Status s.key1)
      (hearly : s.early ≠ [] → s.calKey2Status = true)
      (hlate : s.early = [] → s.calKey2Status = false) (hkey2 : s.key2 = [])
      (hzero : s.zero = []) (hgain : s.gain = [])
  | gain (hflag : s.config.calFlag = .devCalStr) (hzero : After s.key1 s.zero)
      (hgain : s.gain = []) (hnum : s.cal.num = s.summed.length) (hroom : s.cal.num < calSampleNum)
      (hclean : s.early = [] → s.Stage s.calKey2Status s.key2)
      (hmixed : s.early ≠ [] → ∃ t ∈ s.summed, t < s.now ∧ ∀ p ∈ s.key2, t < p)
  | done (hflag : s.config.calFlag = .devCalEnd) (hzero : After s.key1 s.zero)
      (hclean : s.early = [] → After s.key2 s.gain)
      (hmixed : s.early ≠ [] → ∃ t ∈ s.gain, t < s.now ∧ ∀ p ∈ s.key2, t < p)

theorem After.mono {keys keys' samples : List Nat} (h : After keys samples) (hsub : keys ⊆ keys') :
    After keys' samples := fun t ht => by
  obtain ⟨p, hp, hlt⟩ := h t ht
  exact ⟨p, hsub hp, hlt⟩

theorem After.concat {keys samples : List Nat} {now : Nat} (h : After keys samples)
    (hpressed : ∃ p ∈ keys, p < now) : After keys (samples ++ [now]) := by
  intro t ht
  rcases List.mem_append.mp ht with hold | hnew
  · exact h t hold
  · rw [List.mem_singleton.mp hnew]
    exact hpressed

/-- A sample that a stage has left is still after the same press. -/
theorem Stage.later {s s' : Calibration} {status status' : Bool} {keys keys' : List Nat}
    (h : s.Stage status keys) (hcal : s'.cal = s.cal) (hsummed : s'.summed = s.summed)
    (hsub : keys ⊆ keys') (hpressed : status' = true → ∃ p ∈ keys', p < s'.now) :
    s'.Stage status' keys' :=
  ⟨by rw [hcal, hsummed]; exact h.num, by rw [hcal]; exact h.room, hpressed,
    by rw [hsummed]; exact h.asked.mono hsub⟩

variable {f : CalFloat} {s : Calibration}

theorem Inv.key1 (h : s.Inv) : (Calibration.step f s .key1).Inv := by
  cases h with
  | zero hflag hstage hearly hlate hkey2 hzero hgain =>
    have hkeys : s.calKey1IrqHandlerCb.key1 = s.key1 ++ [s.now] := if_pos hflag
    refine .zero hflag (hstage.later rfl rfl (hkeys ▸ List.subset_append_left _ _) fun _ => ?_)
      hearly hlate hkey2 hzero hgain
    exact ⟨s.now, hkeys ▸ List.mem_concat_self, Nat.lt_succ_self _⟩
  | gain hflag hzero hgain hnum hroom hclean hmixed =>
    have hkeys : s.calKey1IrqHandlerCb.key1 = s.key1 := if_neg (by rw [hflag]; decide)
    refine .gain hflag (hkeys ▸ hzero) hgain hnum hroom (fun hearly => ?_) fun hearly => ?_
    · have hstage := hclean hearly
      refine hstage.later rfl rfl (List.Subset.refl _) fun hstatus => ?_
      obtain ⟨p, hp, hlt⟩ := hstage.pressed hstatus
      exact ⟨p, hp, Nat.lt_succ_of_lt hlt⟩
    · obtain ⟨t, ht, hlt, hkey⟩ := hmixed hearly
      exact ⟨t, ht, Nat.lt_succ_of_lt hlt, hkey⟩
  | done hflag hzero hclean hmixed =>
    have hkeys : s.calKey1IrqHandlerCb.key1 = s.key1 := if_neg (by rw [hflag]; decide)
    refine .done hflag (hkeys ▸ hzero) hclean fun hearly => ?_
    obtain ⟨t, ht, hlt, hkey⟩ := hmixed hearly
    exact ⟨t, ht, Nat.lt_succ_of_lt hlt, hkey⟩

theorem Inv.key2 (h : s.Inv) : (Calibration.step f s .key2).Inv := by
  cases h with
  | zero hflag hstage hearly hlate hkey2 hzero hgain =>
    have hkeys : s.calKey2IrqHandlerCb.key2 = s.key2 := if_pos hflag
    have hsoon : s.calKey2IrqHandlerCb.early = s.early ++ [s.now] := if_pos hflag
    refine .zero hflag (hstage.later rfl rfl (List.Subset.refl _) fun hstatus => ?_) (fun _ => rfl)
      (fun hnone => ?_) (hkeys.trans hkey2) hzero hgain
    · obtain ⟨p, hp, hlt⟩ := hstage.pressed hstatus
      exact ⟨p, hp, Nat.lt_succ_of_lt hlt⟩
    · exact absurd (hsoon.symm.trans hnone) (by simp)
  | gain hflag hzero hgain hnum hroom hclean hmixed =>
    have hnot : ¬ s.config.calFlag = .devCalDef := by
      rw [hflag]
      decide
    have hkeys : s.calKey2IrqHandlerCb.key2 = s.key2 ++ [s.now] := if_neg hnot
    have hsoon : s.calKey2IrqHandlerCb.early = s.early := if_neg hnot
    refine .gain hflag hzero hgain hnum hroom (fun hearly => ?_) fun hearly => ?_
    · refine (hclean (hsoon.symm.trans hearly)).later rfl rfl
        (hkeys ▸ List.subset_append_left _ _) fun _ => ?_
      exact ⟨s.now, hkeys ▸ List.mem_concat_self, Nat.lt_succ_self _⟩
    · obtain ⟨t, ht, hlt, hkey⟩ := hmixed (hsoon ▸ hearly)
      refine ⟨t, ht, Nat.lt_succ_of_lt hlt, fun p hp => ?_⟩
      rcases List.mem_append.mp (hkeys ▸ hp) with hold | hnew
      · exact hkey p hold
      · rwa [List.mem_singleton.mp hnew]
  | done hflag hzero hclean hmixed =>
    have hnot : ¬ s.config.calFlag = .devCalDef := by
      rw [hflag]
      decide
    have hkeys : s.calKey2IrqHandlerCb.key2 = s.key2 ++ [s.now] := if_neg hnot
    have hsoon : s.calKey2IrqHandlerCb.early = s.early := if_neg hnot
    refine .done hflag hzero (fun hearly => ?_) fun hearly => ?_
    · exact (hclean (hsoon.symm.trans hearly)).mono (hkeys ▸ List.subset_append_left _ _)
    · obtain ⟨t, ht, hlt, hkey⟩ := hmixed (hsoon ▸ hearly)
      refine ⟨t, ht, Nat.lt_succ_of_lt hlt, fun p hp => ?_⟩
      rcases List.mem_append.mp (hkeys ▸ hp) with hold | hnew
      · exact hkey p hold
      · rwa [List.mem_singleton.mp hnew]

theorem sum_of_room (hroom : s.cal.num < calSampleNum) (rawData : Fin 4 → UInt16) :
    s.sum rawData = { s with cal := s.cal.add rawData, summed := s.summed ++ [s.now] } :=
  if_pos hroom

/-- The zero calibration takes a sample and does not end with it, or it ends. -/
theorem calBiasZero_cases (hroom : s.cal.num < calSampleNum) (rawData : Fin 4 → UInt16) :
    (¬ (s.calKey1Status = true ∧ s.config.calFlag = .devCalDef) ∧ s.calBiasZero f rawData = s) ∨
    (s.calKey1Status = true ∧ s.config.calFlag = .devCalDef ∧ s.cal.num + 1 < calSampleNum ∧
      s.calBiasZero f rawData =
        { s with cal := s.cal.add rawData, summed := s.summed ++ [s.now] }) ∨
    (s.calKey1Status = true ∧ s.config.calFlag = .devCalDef ∧ s.cal.num + 1 = calSampleNum ∧
      ∃ config : ConfigInfo, config.calFlag = .devCalStr ∧ s.calBiasZero f rawData =
        { s with
          config := config
          calKey1Status := false
          cal := .zero
          summed := []
          zero := s.summed ++ [s.now] }) := by
  rw [calBiasZero]
  by_cases hcond : s.calKey1Status = true ∧ s.config.calFlag = .devCalDef
  · rw [if_pos hcond, sum_of_room hroom]
    by_cases hfull : calSampleNum ≤ s.cal.num + 1
    · refine .inr (.inr ⟨hcond.1, hcond.2, by omega, _, ?_, if_pos hfull⟩)
      rfl
    · exact .inr (.inl ⟨hcond.1, hcond.2, by omega, if_neg hfull⟩)
  · exact .inl ⟨hcond, if_neg hcond⟩

theorem calBiasFull_cases (hroom : s.cal.num < calSampleNum) (rawData : Fin 4 → UInt16) :
    (¬ (s.calKey2Status = true ∧ s.config.calFlag = .devCalStr) ∧ s.calBiasFull f rawData = s) ∨
    (s.calKey2Status = true ∧ s.config.calFlag = .devCalStr ∧ s.cal.num + 1 < calSampleNum ∧
      s.calBiasFull f rawData =
        { s with cal := s.cal.add rawData, summed := s.summed ++ [s.now] }) ∨
    (s.calKey2Status = true ∧ s.config.calFlag = .devCalStr ∧ s.cal.num + 1 = calSampleNum ∧
      ∃ config : ConfigInfo, config.calFlag = .devCalEnd ∧ s.calBiasFull f rawData =
        { s with
          config := config
          configStatus := true
          calKey2Status := false
          cal := .zero
          summed := []
          gain := s.summed ++ [s.now] }) := by
  rw [calBiasFull]
  by_cases hcond : s.calKey2Status = true ∧ s.config.calFlag = .devCalStr
  · rw [if_pos hcond, sum_of_room hroom]
    by_cases hfull : calSampleNum ≤ s.cal.num + 1
    · refine .inr (.inr ⟨hcond.1, hcond.2, by omega, _, ?_, if_pos hfull⟩)
      rfl
    · exact .inr (.inl ⟨hcond.1, hcond.2, by omega, if_neg hfull⟩)
  · exact .inl ⟨hcond, if_neg hcond⟩

theorem calBiasZero_of_flag (hflag : s.config.calFlag ≠ .devCalDef) (rawData : Fin 4 → UInt16) :
    s.calBiasZero f rawData = s := if_neg fun h => hflag h.2

theorem calBiasFull_of_flag (hflag : s.config.calFlag ≠ .devCalStr) (rawData : Fin 4 → UInt16) :
    s.calBiasFull f rawData = s := if_neg fun h => hflag h.2

theorem sample_of_flag (hflag : s.config.calFlag ≠ .devCalEnd) (rawData : Fin 4 → UInt16) :
    s.sample f rawData = (s.calBiasZero f rawData).calBiasFull f rawData :=
  if_neg fun h => hflag h.1

theorem Stage.sampled {s s' : Calibration} {status : Bool} {keys : List Nat}
    (h : s.Stage status keys) (hstatus : status = true) (hroom : s.cal.num + 1 < calSampleNum)
    (hnum : s'.cal.num = s.cal.num + 1) (hsummed : s'.summed = s.summed ++ [s.now])
    (hnow : s'.now = s.now + 1) : s'.Stage status keys := by
  obtain ⟨p, hp, hlt⟩ := h.pressed hstatus
  refine ⟨?_, by omega, fun _ => ⟨p, hp, by omega⟩, ?_⟩
  · rw [hnum, hsummed, List.length_append, h.num]
    rfl
  · rw [hsummed]
    exact h.asked.concat ⟨p, hp, hlt⟩

theorem Stage.idle {s s' : Calibration} {status : Bool} {keys : List Nat}
    (h : s.Stage status keys) (hcal : s'.cal = s.cal) (hsummed : s'.summed = s.summed)
    (hnow : s'.now = s.now + 1) : s'.Stage status keys := by
  refine h.later hcal hsummed (List.Subset.refl _) fun hstatus => ?_
  obtain ⟨p, hp, hlt⟩ := h.pressed hstatus
  exact ⟨p, hp, by omega⟩

/-- One sample of the first stage. The one that completes it is also the first
of the second stage if KEY2 is already latched. -/
theorem Inv.sample_zero (rawData : Fin 4 → UInt16) (hflag : s.config.calFlag = .devCalDef)
    (hstage : s.Stage s.calKey1Status s.key1) (hearly : s.early ≠ [] → s.calKey2Status = true)
    (hlate : s.early = [] → s.calKey2Status = false) (hkey2 : s.key2 = [])
    (hzero : s.zero = []) (hgain : s.gain = []) :
    (Calibration.step f s (.sample rawData)).Inv := by
  have hsample := sample_of_flag (f := f) (s := s) (by rw [hflag]; decide) rawData
  rw [Calibration.step, hsample]
  rcases calBiasZero_cases (f := f) hstage.room rawData with
    ⟨-, heq⟩ | ⟨hstatus, -, hroom, heq⟩ | ⟨hstatus, -, -, config, hconfig, heq⟩
  · rw [heq, calBiasFull_of_flag (by rw [hflag]; decide)]
    exact .zero hflag (hstage.idle rfl rfl rfl) hearly hlate hkey2 hzero hgain
  · rw [heq, calBiasFull_of_flag (by rw [hflag]; decide)]
    exact .zero hflag (hstage.sampled hstatus hroom rfl rfl rfl) hearly hlate hkey2 hzero hgain
  · have hasked := hstage.asked.concat (hstage.pressed hstatus)
    have hnew : Cal.zero.num < calSampleNum := by decide
    rw [heq]
    rcases calBiasFull_cases (f := f) (s := { s with
          config := config
          calKey1Status := false
          cal := .zero
          summed := []
          zero := s.summed ++ [s.now] }) hnew rawData with
      ⟨hidle, heq'⟩ | ⟨hlatched, -, -, heq'⟩ | ⟨-, -, hfull, -⟩
    · have hstatus2 : s.calKey2Status = false := by
        by_contra h
        exact hidle ⟨by simpa using h, hconfig⟩
      have hnone : s.early = [] := by
        by_contra h
        exact absurd (hearly h) (by simp [hstatus2])
      rw [heq']
      refine .gain hconfig hasked hgain rfl hnew (fun _ => ⟨rfl, hnew, ?_, ?_⟩)
        fun hsome => absurd hnone hsome
      · exact fun h => absurd h (by simp [hstatus2])
      · exact fun t ht => absurd ht List.not_mem_nil
    · have hsome : s.early ≠ [] := by
        intro h
        exact absurd hlatched (by simp [hlate h])
      rw [heq']
      have hone : 1 < calSampleNum := by decide
      refine .gain hconfig hasked hgain rfl hone (fun h => absurd h hsome) fun _ => ?_
      refine ⟨s.now, List.mem_singleton_self _, Nat.lt_succ_self _, fun p hp => ?_⟩
      exact absurd (hkey2 ▸ hp) List.not_mem_nil
    · have hone : Cal.zero.num + 1 ≠ calSampleNum := by decide
      exact absurd hfull hone

theorem Inv.sample_gain (rawData : Fin 4 → UInt16) (hflag : s.config.calFlag = .devCalStr)
    (hzero : After s.key1 s.zero) (hgain : s.gain = []) (hnum : s.cal.num = s.summed.length)
    (hroom : s.cal.num < calSampleNum) (hclean : s.early = [] → s.Stage s.calKey2Status s.key2)
    (hmixed : s.early ≠ [] → ∃ t ∈ s.summed, t < s.now ∧ ∀ p ∈ s.key2, t < p) :
    (Calibration.step f s (.sample rawData)).Inv := by
  have hsample := sample_of_flag (f := f) (s := s) (by rw [hflag]; decide) rawData
  rw [calBiasZero_of_flag (by rw [hflag]; decide)] at hsample
  rw [Calibration.step, hsample]
  rcases calBiasFull_cases (f := f) hroom rawData with
    ⟨-, heq⟩ | ⟨hstatus, -, hnext, heq⟩ | ⟨hstatus, -, -, config, hconfig, heq⟩
  · rw [heq]
    refine .gain hflag hzero hgain hnum hroom (fun h => (hclean h).idle rfl rfl rfl) fun h => ?_
    obtain ⟨t, ht, hlt, hkey⟩ := hmixed h
    exact ⟨t, ht, Nat.lt_succ_of_lt hlt, hkey⟩
  · rw [heq]
    refine .gain hflag hzero hgain ?_ hnext (fun h => ?_) fun h => ?_
    · have hlength : (s.summed ++ [s.now]).length = s.summed.length + 1 := List.length_append
      rw [hlength, ← hnum]
      rfl
    · exact (hclean h).sampled hstatus hnext rfl rfl rfl
    · obtain ⟨t, ht, hlt, hkey⟩ := hmixed h
      exact ⟨t, List.mem_append_left _ ht, Nat.lt_succ_of_lt hlt, hkey⟩
  · rw [heq]
    refine .done hconfig hzero (fun h => ?_) fun h => ?_
    · exact (hclean h).asked.concat ((hclean h).pressed hstatus)
    · obtain ⟨t, ht, hlt, hkey⟩ := hmixed h
      exact ⟨t, List.mem_append_left _ ht, Nat.lt_succ_of_lt hlt, hkey⟩

theorem Inv.sample_done (rawData : Fin 4 → UInt16) (hflag : s.config.calFlag = .devCalEnd)
    (hzero : After s.key1 s.zero) (hclean : s.early = [] → After s.key2 s.gain)
    (hmixed : s.early ≠ [] → ∃ t ∈ s.gain, t < s.now ∧ ∀ p ∈ s.key2, t < p) :
    (Calibration.step f s (.sample rawData)).Inv := by
  have hsample : s.sample f rawData = s := by
    have hzero := calBiasZero_of_flag (f := f) (s := s) (by rw [hflag]; decide) rawData
    have hfull := calBiasFull_of_flag (f := f) (s := s) (by rw [hflag]; decide) rawData
    rw [Calibration.sample, hzero, hfull, ite_self]
  rw [Calibration.step, hsample]
  refine .done hflag hzero hclean fun h => ?_
  obtain ⟨t, ht, hlt, hkey⟩ := hmixed h
  exact ⟨t, ht, Nat.lt_succ_of_lt hlt, hkey⟩

theorem Inv.step (h : s.Inv) (e : CalEvent) : (Calibration.step f s e).Inv := by
  cases e with
  | key1 => exact h.key1
  | key2 => exact h.key2
  | sample rawData =>
    cases h with
    | zero hflag hstage hearly hlate hkey2 hzero hgain =>
      exact .sample_zero rawData hflag hstage hearly hlate hkey2 hzero hgain
    | gain hflag hzero hgain hnum hroom hclean hmixed =>
      exact .sample_gain rawData hflag hzero hgain hnum hroom hclean hmixed
    | done hflag hzero hclean hmixed => exact .sample_done rawData hflag hzero hclean hmixed

theorem Inv.start {config : ConfigInfo} (hflag : config.calFlag = .devCalDef) :
    (Calibration.start config).Inv :=
  .zero hflag ⟨rfl, (by decide : 0 < calSampleNum), fun h => (by cases h),
      fun _ h => absurd h List.not_mem_nil⟩
    (fun h => absurd rfl h) (fun _ => rfl) rfl rfl rfl

theorem Inv.onRequest_iff (h : s.Inv) :
    s.OnRequest ↔ (s.config.calFlag = .devCalEnd → s.early = []) := by
  cases h with
  | zero hflag _ _ _ _ hzero hgain =>
    refine ⟨fun _ hend => absurd (hflag.symm.trans hend) (by decide), fun _ => ⟨?_, ?_⟩⟩
    · exact fun t ht => absurd (hzero ▸ ht) List.not_mem_nil
    · exact fun t ht => absurd (hgain ▸ ht) List.not_mem_nil
  | gain hflag hzero hgain _ _ _ _ =>
    refine ⟨fun _ hend => absurd (hflag.symm.trans hend) (by decide), fun _ => ⟨hzero, ?_⟩⟩
    exact fun t ht => absurd (hgain ▸ ht) List.not_mem_nil
  | done hflag hzero hclean hmixed =>
    refine ⟨fun hrequest _ => ?_, fun hnone => ⟨hzero, hclean (hnone hflag)⟩⟩
    by_contra hsome
    obtain ⟨t, ht, -, hkey⟩ := hmixed hsome
    obtain ⟨p, hp, hlt⟩ := hrequest.gain t ht
    exact absurd (hkey p hp) (by omega)

end Calibration

/-- The samples were all asked for exactly if KEY2 was not pressed before the
zero calibration was complete. -/
theorem calibration_onRequest (f : CalFloat) (config : ConfigInfo)
    (hflag : config.calFlag = .devCalDef) (es : List CalEvent) :
    let s := (calibration f config).run es
    s.OnRequest ↔ (s.config.calFlag = .devCalEnd → s.early = []) := by
  have hstep : ∀ s e, Calibration.Inv s → Calibration.Inv ((calibration f config).step s e) :=
    fun _ e h => h.step e
  have hinv : ((calibration f config).run es).Inv :=
    (calibration f config).invariant_runFrom_of_step hstep es (.start hflag)
  exact hinv.onRequest_iff

/-- Words in place of the floats, for the runs below. -/
def calWords : CalFloat := ⟨fun sum => sum / 100, fun sum bias => sum / 100 - bias⟩

def calSamples (n : Nat) : List CalEvent := List.replicate n (.sample fun _ => 100)

theorem calibration_onRequest_asked :
    ((calibration calWords .zero).run
      ([.key1] ++ calSamples 100 ++ [.key2] ++ calSamples 100)).OnRequest :=
  (calibration_onRequest calWords .zero rfl _).mpr fun _ => by decide +kernel

/-- KEY1 and KEY2 in a row: the 100th sample of the zero offsets is the first of the gains. -/
theorem calibration_early_key2 :
    ¬ ((calibration calWords .zero).run ([.key1, .key2] ++ calSamples 199)).OnRequest := by
  intro hrequest
  have hgain : 101 ∈ ((calibration calWords .zero).run
      ([.key1, .key2] ++ calSamples 199)).gain := by decide +kernel
  have hkey2 : ((calibration calWords .zero).run
      ([.key1, .key2] ++ calSamples 199)).key2 = [] := by decide +kernel
  obtain ⟨p, hp, -⟩ := hrequest.gain 101 hgain
  exact absurd (hkey2 ▸ hp) List.not_mem_nil

end Lsc100
