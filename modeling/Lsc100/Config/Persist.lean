import Lsc100.Adc.Store
import Lsc100.Alarm.Store
import Lsc100.Config.Boot
import Lsc100.Sample.Calibration

/-! Who changes `g_ConfigInfo`, and how `msg_send_task` brings it to the EEPROM: a
change sets `g_config_status`, the task clears it and then sends the record byte by
byte, as it is at that moment. -/

namespace Lsc100

/-- `sent` counts the bytes of the record that the running `sys_config_write` has
sent; those of the current page are in `page`. The configuration in `cal` is set
before each use. -/
structure ConfigSystem where
  config : ConfigInfo
  configStatus : Bool
  eeprom : Nat → UInt8
  page : Nat → UInt8
  sent : Option Nat
  adc : AdcObject
  emmc : Emmc
  alarm : AlarmObject
  flash : Flash
  cal : Calibration

inductive ConfigEvent
  | boot (i2c : I2cRead) (rtc : SystemTime)
  | setFrontVmax (uVmax : UInt32)
  | setFrontVmin (uVmin : UInt32)
  | setRearVmax (uVmax : UInt32)
  | setRearVmin (uVmin : UInt32)
  | clearData (alarmLock adcLock : Bool)
  | clearConfig
  | writeAdcData (io : AdcWriteIo) (timestamp : UInt32) (data : Blocks) (blockNum : Nat) (flag : Bool)
  | writeAlarmMsg (lock : Bool) (timestamp : UInt32) (data : Nat → UInt8)
  | writeAlarmInfo (lock : Bool) (timestamp : UInt32) (off : Nat) (data : Nat → UInt8) (len : Nat)
      (flag : Bool)
  | calibrate (e : CalEvent)
  | poll
  | send

namespace ConfigSystem

def adcStore (s : ConfigSystem) : AdcStore := ⟨s.adc, s.emmc, s.config, s.configStatus⟩

def withAdcStore (s : ConfigSystem) (r : AdcStore) : ConfigSystem :=
  { s with adc := r.adc, emmc := r.emmc, config := r.config, configStatus := r.configStatus }

def alarmStore (s : ConfigSystem) : AlarmStore := ⟨s.alarm, s.flash, s.config, s.configStatus⟩

def withAlarmStore (s : ConfigSystem) (r : AlarmStore) : ConfigSystem :=
  { s with alarm := r.alarm, flash := r.flash, config := r.config, configStatus := r.configStatus }

def calibration (s : ConfigSystem) : Calibration :=
  { s.cal with config := s.config, configStatus := s.configStatus }

def withCalibration (s : ConfigSystem) (r : Calibration) : ConfigSystem :=
  { s with cal := r, config := r.config, configStatus := r.configStatus }

def boot (i2c : I2cRead) (rtc : SystemTime) (s : ConfigSystem) : ConfigSystem :=
  let d := (BootDevice.powerOn s.eeprom rtc s.flash).systemInit i2c
  { config := d.config
    configStatus := false
    eeprom := d.eeprom.cells
    page := fun _ => 0
    sent := none
    adc := adcObjectInit d.config
    emmc := s.emmc
    alarm := alarmObjectInit d.config
    flash := d.flash
    cal := .start d.config }

def ktSetFrontVmax (uVmax : UInt32) (s : ConfigSystem) : ConfigSystem :=
  { s with config := { s.config with fVmax := uVmax }, configStatus := true }

def ktSetFrontVmin (uVmin : UInt32) (s : ConfigSystem) : ConfigSystem :=
  { s with config := { s.config with fVmin := uVmin }, configStatus := true }

def ktSetRearVmax (uVmax : UInt32) (s : ConfigSystem) : ConfigSystem :=
  { s with config := { s.config with rVmax := uVmax }, configStatus := true }

def ktSetRearVmin (uVmin : UInt32) (s : ConfigSystem) : ConfigSystem :=
  { s with config := { s.config with rVmin := uVmin }, configStatus := true }

def ktClearData (alarmLock adcLock : Bool) (s : ConfigSystem) : ConfigSystem :=
  let s := { s with config := s.config.cleared }
  let s := s.withAlarmStore (storageClearAlarmData alarmLock s.alarmStore)
  let s := s.withAdcStore (storageClearAdcData adcLock s.adcStore)
  { s with configStatus := true }

def ktClearConfig (s : ConfigSystem) : ConfigSystem :=
  { s with config := .zero, configStatus := true }

/-- The end of the loop body of `msg_send_task`, up to the call of `sys_config_write`. -/
def poll (s : ConfigSystem) : ConfigSystem :=
  if s.sent = none ∧ s.configStatus = true then { s with configStatus := false, sent := some 0 }
  else s

/-- `sys_config_write` sends one byte; the last byte of a page or of the record makes
the EEPROM store the page. -/
def send (s : ConfigSystem) : ConfigSystem :=
  match s.sent with
  | none => s
  | some n =>
    let page := Function.update s.page n (s.config.image n)
    { s with
      page := page
      eeprom := if (n + 1) % fm24cPageSize = 0 ∨ n + 1 = configInfoSize then
          fun k => if n / fm24cPageSize * fm24cPageSize ≤ k ∧ k ≤ n then page k else s.eeprom k
        else s.eeprom
      sent := if n + 1 = configInfoSize then none else some (n + 1) }

def step (f : CalFloat) (s : ConfigSystem) : ConfigEvent → ConfigSystem
  | .boot i2c rtc => s.boot i2c rtc
  | .setFrontVmax uVmax => s.ktSetFrontVmax uVmax
  | .setFrontVmin uVmin => s.ktSetFrontVmin uVmin
  | .setRearVmax uVmax => s.ktSetRearVmax uVmax
  | .setRearVmin uVmin => s.ktSetRearVmin uVmin
  | .clearData alarmLock adcLock => s.ktClearData alarmLock adcLock
  | .clearConfig => s.ktClearConfig
  | .writeAdcData io timestamp data blockNum flag =>
    s.withAdcStore (storageWriteAdcData io s.adcStore timestamp data blockNum flag).1
  | .writeAlarmMsg lock timestamp data =>
    s.withAlarmStore (storageWriteAlarmMsg lock s.alarmStore timestamp data).1
  | .writeAlarmInfo lock timestamp off data len flag =>
    s.withAlarmStore (storageWriteAlarmInfo lock s.alarmStore timestamp off data len flag).1
  | .calibrate e => s.withCalibration (s.calibration.step f e)
  | .poll => s.poll
  | .send => s.send

def off (eeprom : Nat → UInt8) (emmc : Emmc) (flash : Flash) : ConfigSystem :=
  ⟨.zero, false, eeprom, fun _ => 0, none, adcObjectInit .zero, emmc, alarmObjectInit .zero, flash,
    .start .zero⟩

end ConfigSystem

def configSystem (f : CalFloat) (eeprom : Nat → UInt8) (emmc : Emmc) (flash : Flash) :
    Machine ConfigSystem ConfigEvent where
  start := .off eeprom emmc flash
  step := ConfigSystem.step f

namespace ConfigSystem

/-- With nothing to be written and nothing being written, the EEPROM holds the configuration. -/
def Persistent (s : ConfigSystem) : Prop :=
  s.configStatus = false → s.sent = none → ∀ k < configInfoSize, s.eeprom k = s.config.image k

def CompletesZero (s : ConfigSystem) : Prop :=
  s.cal.calKey1Status = true ∧ s.config.calFlag = .devCalDef ∧ calSampleNum ≤ s.cal.cal.num + 1

/-- No change is made behind the back of `g_config_status`: the zero calibration ends
only while a write is due anyway, and a boot that does not set the device up anew
reads the complete record and does not promote its flag. -/
def Announced (s : ConfigSystem) : ConfigEvent → Prop
  | .calibrate (.sample _) => s.CompletesZero → s.configStatus = true
  | .boot i2c _ =>
    let config := sysConfigRead i2c ⟨s.eeprom, []⟩ .zero
    config.Configured → i2c.Delivers configInfoSize ∧
      ¬ (config.flag = devFlagFirstOn ∧ config.calFlag = .devCalEnd)
  | _ => True

/-- Where byte `k` is while the record is being written. -/
def held (s : ConfigSystem) (n k : Nat) : UInt8 :=
  if k < n / fm24cPageSize * fm24cPageSize then s.eeprom k else s.page k

/-- The invariant: unless a write is due, what has been sent is the configuration. -/
structure Inv (s : ConfigSystem) : Prop where
  room : ∀ n, s.sent = some n → n < configInfoSize
  idle : s.Persistent
  writing : s.configStatus = false → ∀ n, s.sent = some n → ∀ k < n, s.held n k = s.config.image k

/-- A step outside the writer: it changes nothing or leaves `g_config_status` set. -/
structure Marked (s s' : ConfigSystem) : Prop where
  eeprom : s'.eeprom = s.eeprom
  page : s'.page = s.page
  sent : s'.sent = s.sent
  change : s'.configStatus = true ∨ (s'.config = s.config ∧ s'.configStatus = s.configStatus)

variable {f : CalFloat} {s s' : ConfigSystem}

theorem Inv.marked (h : s.Inv) (hmarked : Marked s s') : s'.Inv := by
  obtain ⟨heeprom, hpage, hsent, hchange⟩ := hmarked
  refine ⟨fun n hn => h.room n (hsent ▸ hn), fun hclean hidle => ?_, fun hclean n hn => ?_⟩
  · rcases hchange with hset | ⟨hconfig, hstatus⟩
    · exact absurd (hset.symm.trans hclean) (by decide)
    · rw [heeprom, hconfig]
      exact h.idle (hstatus ▸ hclean) (hsent ▸ hidle)
  · rcases hchange with hset | ⟨hconfig, hstatus⟩
    · exact absurd (hset.symm.trans hclean) (by decide)
    · have hold := h.writing (hstatus ▸ hclean) n (hsent ▸ hn)
      simp only [held, heeprom, hpage, hconfig]
      exact hold

theorem storageWriteAdcData_marks (io : AdcWriteIo) (r : AdcStore) (timestamp : UInt32)
    (data : Blocks) (blockNum : Nat) (flag : Bool) :
    let r' := (storageWriteAdcData io r timestamp data blockNum flag).1
    r'.configStatus = true ∨ (r'.config = r.config ∧ r'.configStatus = r.configStatus) := by
  rw [storageWriteAdcData]
  split
  · split
    · simp only
      split
      · exact .inl rfl
      · exact .inr ⟨rfl, rfl⟩
    · exact .inr ⟨rfl, rfl⟩
  · exact .inr ⟨rfl, rfl⟩

theorem storageWriteAlarmInfo_marks (lock : Bool) (r : AlarmStore) (timestamp : UInt32) (off : Nat)
    (data : Nat → UInt8) (len : Nat) (flag : Bool) :
    let r' := (storageWriteAlarmInfo lock r timestamp off data len flag).1
    r'.configStatus = true ∨ (r'.config = r.config ∧ r'.configStatus = r.configStatus) := by
  rw [storageWriteAlarmInfo]
  split
  · split
    · exact .inr ⟨rfl, rfl⟩
    · cases flag with
      | true => exact .inl rfl
      | false => exact .inr ⟨rfl, rfl⟩
  · exact .inr ⟨rfl, rfl⟩

theorem storageWriteAlarmMsg_marks (lock : Bool) (r : AlarmStore) (timestamp : UInt32)
    (data : Nat → UInt8) :
    let r' := (storageWriteAlarmMsg lock r timestamp data).1
    r'.config = r.config ∧ r'.configStatus = r.configStatus := by
  cases lock <;> exact ⟨rfl, rfl⟩

theorem sum_kept (c : Calibration) (rawData : Fin 4 → UInt16) :
    (c.sum rawData).config = c.config ∧ (c.sum rawData).configStatus = c.configStatus ∧
      (c.sum rawData).cal.num ≤ c.cal.num + 1 := by
  rw [Calibration.sum]
  split
  · exact ⟨rfl, rfl, Nat.le_refl _⟩
  · exact ⟨rfl, rfl, Nat.le_succ _⟩

/-- Of the two calibration stages only the first changes the configuration without
setting the status. -/
theorem calBiasFull_marks (c : Calibration) (rawData : Fin 4 → UInt16) :
    let c' := c.calBiasFull f rawData
    c'.configStatus = true ∨ (c'.config = c.config ∧ c'.configStatus = c.configStatus) := by
  obtain ⟨hconfig, hstatus, -⟩ := sum_kept c rawData
  rw [Calibration.calBiasFull]
  split
  · simp only
    split
    · exact .inl rfl
    · exact .inr ⟨hconfig, hstatus⟩
  · exact .inr ⟨rfl, rfl⟩

theorem calBiasZero_marks (c : Calibration) (rawData : Fin 4 → UInt16) :
    (c.calBiasZero f rawData).configStatus = c.configStatus ∧
      ((c.calBiasZero f rawData).config = c.config ∨
        (c.calKey1Status = true ∧ c.config.calFlag = .devCalDef ∧ calSampleNum ≤ c.cal.num + 1)) := by
  obtain ⟨hconfig, hstatus, hnum⟩ := sum_kept c rawData
  rw [Calibration.calBiasZero]
  split
  · rename_i hcond
    simp only
    split
    · rename_i hfull
      exact ⟨hstatus, .inr ⟨hcond.1, hcond.2, Nat.le_trans hfull hnum⟩⟩
    · exact ⟨hstatus, .inl hconfig⟩
  · exact ⟨rfl, .inl rfl⟩

theorem sample_marks (c : Calibration) (rawData : Fin 4 → UInt16)
    (hzero : c.calKey1Status = true ∧ c.config.calFlag = .devCalDef ∧
      calSampleNum ≤ c.cal.num + 1 → c.configStatus = true) :
    let c' := c.sample f rawData
    c'.configStatus = true ∨ (c'.config = c.config ∧ c'.configStatus = c.configStatus) := by
  rw [Calibration.sample]
  split
  · exact .inr ⟨rfl, rfl⟩
  · obtain ⟨hstatus, hconfig⟩ := calBiasZero_marks (f := f) c rawData
    rcases calBiasFull_marks (f := f) (c.calBiasZero f rawData) rawData with hset | ⟨hsame, hkept⟩
    · exact .inl hset
    · rcases hconfig with hconfig | hcompletes
      · exact .inr ⟨hsame.trans hconfig, hkept.trans hstatus⟩
      · exact .inl (hkept.trans (hstatus.trans (hzero hcompletes)))

theorem calibrate_marks (c : Calibration) (e : CalEvent)
    (hzero : ∀ rawData, e = .sample rawData → c.calKey1Status = true ∧
      c.config.calFlag = .devCalDef ∧ calSampleNum ≤ c.cal.num + 1 → c.configStatus = true) :
    let c' := c.step f e
    c'.configStatus = true ∨ (c'.config = c.config ∧ c'.configStatus = c.configStatus) := by
  cases e with
  | key1 => exact .inr ⟨rfl, rfl⟩
  | key2 => exact .inr ⟨rfl, rfl⟩
  | sample rawData => exact sample_marks c rawData (hzero rawData rfl)

theorem Inv.poll (h : s.Inv) : s.poll.Inv := by
  rw [ConfigSystem.poll]
  split
  · refine ⟨fun n hn => ?_, fun _ hidle => (by cases hidle), fun _ n hn k hk => ?_⟩
    · cases hn
      decide
    · cases hn
      exact absurd hk (Nat.not_lt_zero k)
  · exact h

/-- After `n` bytes of the record, byte `n` goes to the page, and a full page to the cells. -/
theorem send_some {n : Nat} (hsent : s.sent = some n) :
    s.send.config = s.config ∧ s.send.configStatus = s.configStatus ∧
      s.send.sent = (if n + 1 = configInfoSize then none else some (n + 1)) ∧
      ∀ k ≤ n, (if (n + 1) % fm24cPageSize = 0 ∨ n + 1 = configInfoSize then s.send.eeprom k
        else s.send.held (n + 1) k) = if k = n then s.config.image n else s.held n k := by
  rw [send, hsent]
  refine ⟨rfl, rfl, rfl, fun k hk => ?_⟩
  have hmod : (n + 1) % fm24cPageSize = (n + 1) % 16 := rfl
  have hstart : n / fm24cPageSize * fm24cPageSize = n / 16 * 16 := rfl
  have hnext : (n + 1) / fm24cPageSize * fm24cPageSize = (n + 1) / 16 * 16 := rfl
  simp only [held]
  by_cases hlast : (n + 1) % fm24cPageSize = 0 ∨ n + 1 = configInfoSize
  · simp only [if_pos hlast]
    by_cases hpage : k < n / fm24cPageSize * fm24cPageSize
    · rw [if_neg (by omega), if_neg (by omega), if_pos hpage]
    · rw [if_pos ⟨by omega, hk⟩, if_neg hpage, Function.update_apply]
  · simp only [if_neg hlast]
    have hsame : (n + 1) / fm24cPageSize * fm24cPageSize = n / fm24cPageSize * fm24cPageSize := by
      omega
    rw [hsame]
    by_cases hpage : k < n / fm24cPageSize * fm24cPageSize
    · rw [if_pos hpage, if_neg (by omega), if_pos hpage]
    · rw [if_neg hpage, Function.update_apply, if_neg hpage]

theorem Inv.send (h : s.Inv) : s.send.Inv := by
  cases hsent : s.sent with
  | none =>
    have hsame : s.send = s := by rw [ConfigSystem.send, hsent]
    exact hsame.symm ▸ h
  | some n =>
    obtain ⟨hconfig, hstatus, hnext, hbytes⟩ := send_some hsent
    have hroom := h.room n hsent
    have hagree : s.send.configStatus = false → ∀ k ≤ n,
        (if k = n then s.config.image n else s.held n k) = s.send.config.image k := by
      intro hclean k hk
      rw [hconfig]
      by_cases hlast : k = n
      · rw [if_pos hlast, hlast]
      · rw [if_neg hlast]
        exact h.writing (hstatus ▸ hclean) n hsent k (by omega)
    by_cases hend : n + 1 = configInfoSize
    · rw [if_pos hend] at hnext
      refine ⟨fun m hm => absurd (hnext.symm.trans hm) (by simp), fun hclean _ k hk => ?_,
        fun _ m hm => absurd (hnext.symm.trans hm) (by simp)⟩
      have hbyte := hbytes k (by omega)
      rw [if_pos (.inr hend)] at hbyte
      exact hbyte.trans (hagree hclean k (by omega))
    · rw [if_neg hend] at hnext
      refine ⟨fun m hm => ?_, fun _ hidle => absurd (hnext.symm.trans hidle) (by simp),
        fun hclean m hm k hk => ?_⟩
      · cases hnext.symm.trans hm
        omega
      · cases hnext.symm.trans hm
        have hbyte := hbytes k (by omega)
        by_cases hpage : (n + 1) % fm24cPageSize = 0
        · have hheld : s.send.held (n + 1) k = s.send.eeprom k := by
            refine if_pos ?_
            rw [fm24cPageSize] at hpage ⊢
            omega
          rw [if_pos (.inl hpage)] at hbyte
          exact hheld.trans (hbyte.trans (hagree hclean k (by omega)))
        · rw [if_neg (not_or.mpr ⟨hpage, hend⟩)] at hbyte
          exact hbyte.trans (hagree hclean k (by omega))

theorem sends_partial (hsent : s.sent = some 0) {n : Nat} (hn : n < configInfoSize) :
    (send^[n] s).sent = some n ∧ (send^[n] s).config = s.config ∧
      (∀ k, (send^[n] s).eeprom k = if k < n / 16 * 16 then s.config.image k else s.eeprom k) ∧
      ∀ k, n / 16 * 16 ≤ k → k < n → (send^[n] s).page k = s.config.image k := by
  induction n with
  | zero => exact ⟨hsent, rfl, fun k => (if_neg (Nat.not_lt_zero k)).symm, fun k _ hk => by omega⟩
  | succ n ih =>
    obtain ⟨hnow, hconfig, hcells, hpage⟩ := ih (by omega)
    rw [Function.iterate_succ_apply']
    generalize send^[n] s = t at hnow hconfig hcells hpage
    have hmod : (n + 1) % fm24cPageSize = (n + 1) % 16 := rfl
    have hstart : n / fm24cPageSize * fm24cPageSize = n / 16 * 16 := rfl
    rw [send, hnow]
    refine ⟨if_neg (by omega), hconfig, fun k => ?_, fun k hlo hk => ?_⟩
    · simp only
      by_cases hlast : (n + 1) % fm24cPageSize = 0 ∨ n + 1 = configInfoSize
      · rw [if_pos hlast]
        by_cases hin : n / fm24cPageSize * fm24cPageSize ≤ k ∧ k ≤ n
        · rw [if_pos hin, if_pos (by omega), Function.update_apply]
          split
          · rename_i heq
            rw [hconfig, heq]
          · exact hpage k (by omega) (by omega)
        · rw [if_neg hin, hcells k]
          by_cases hbelow : k < n / 16 * 16
          · rw [if_pos hbelow, if_pos (by omega)]
          · rw [if_neg hbelow, if_neg (by omega)]
      · rw [if_neg hlast, hcells k]
        have hsame : (n + 1) / 16 * 16 = n / 16 * 16 := by omega
        rw [hsame]
    · simp only [Function.update_apply]
      split
      · rename_i heq
        rw [hconfig, heq]
      · exact hpage k (by omega) (by omega)

/-- Undisturbed, the writer does what `fm24c_write` does. -/
theorem sends_eq_fm24cWrite (hsent : s.sent = some 0) :
    (send^[configInfoSize] s).sent = none ∧ (send^[configInfoSize] s).eeprom =
      fm24cWrite s.eeprom 0 s.config.image configInfoSize configPages := by
  obtain ⟨hnow, hconfig, hcells, hpage⟩ := sends_partial hsent (by decide : 85 < configInfoSize)
  have hwrite : fm24cWrite s.eeprom 0 s.config.image configInfoSize configPages =
    Overlay.overlay (fun _ x => x) s.eeprom 0 86 s.config.image := fm24cWrite_eq s.eeprom rfl _ _ _
  rw [hwrite, show configInfoSize = 85 + 1 from rfl, Function.iterate_succ_apply']
  generalize send^[85] s = t at hnow hconfig hcells hpage
  rw [send, hnow]
  refine ⟨rfl, funext fun k => ?_⟩
  have hlast : (85 + 1) % fm24cPageSize = 0 ∨ 85 + 1 = configInfoSize := .inr rfl
  have hstart : 85 / fm24cPageSize * fm24cPageSize = 80 := rfl
  simp only [if_pos hlast, hstart]
  by_cases hin : 80 ≤ k ∧ k ≤ 85
  · rw [if_pos hin, Overlay.overlay_in _ _ _ (Nat.zero_le k) (by omega), Nat.sub_zero,
      Function.update_apply]
    split
    · rename_i heq
      rw [hconfig, heq]
    · exact hpage k hin.1 (by omega)
  · rw [if_neg hin, hcells k]
    by_cases hbelow : k < 80
    · rw [if_pos hbelow, Overlay.overlay_in _ _ _ (Nat.zero_le k) (by omega), Nat.sub_zero]
    · rw [if_neg hbelow, Overlay.overlay_out _ _ _ (by omega)]

/-- What `system_init` leaves in the EEPROM is what it leaves in memory. -/
theorem boot_stored (i2c : I2cRead) (rtc : SystemTime) (eeprom : Nat → UInt8) (flash : Flash)
    (hread : let config := sysConfigRead i2c ⟨eeprom, []⟩ .zero
      config.Configured → i2c.Delivers configInfoSize ∧
        ¬ (config.flag = devFlagFirstOn ∧ config.calFlag = .devCalEnd)) {k : Nat}
    (hk : k < configInfoSize) :
    let d := (BootDevice.powerOn eeprom rtc flash).systemInit i2c
    d.eeprom.cells k = d.config.image k := by
  rw [BootDevice.systemInit, BootDevice.powerOn]
  simp only
  split
  · have hwrite := fm24cWrite_eq eeprom (by decide : 0 % 16 = 0)
      (sysConfigRead i2c ⟨eeprom, []⟩ .zero).factory.image configInfoSize configPages
    have hall : min (16 * configPages) configInfoSize = configInfoSize := rfl
    rw [hall] at hwrite
    simp only [sysConfigWrite, hwrite]
    rw [Overlay.overlay_in _ _ _ (Nat.zero_le k) (by omega), Nat.sub_zero]
  · rename_i hreset
    have hconfigured : (sysConfigRead i2c ⟨eeprom, []⟩ .zero).Configured :=
      (not_and_or.mp hreset).imp not_not.mp not_not.mp
    obtain ⟨hdelivers, hpromotes⟩ := hread hconfigured
    have hkept : Lsc100.systemInit (sysConfigRead i2c ⟨eeprom, []⟩ .zero) =
      sysConfigRead i2c ⟨eeprom, []⟩ .zero := if_neg hpromotes
    simp only [hkept]
    rw [sysConfigRead, ConfigInfo.image_ofImage hk, fm24cRead_delivered hk (hdelivers.mono hk),
      Nat.zero_add]

theorem Inv.boot (i2c : I2cRead) (rtc : SystemTime) (hannounced : s.Announced (.boot i2c rtc)) :
    (s.boot i2c rtc).Inv :=
  ⟨fun _ hn => (by cases hn),
    fun _ _ _ hk => boot_stored i2c rtc s.eeprom s.flash hannounced hk,
    fun _ _ hn => (by cases hn)⟩

theorem step_marked {e : ConfigEvent} (hannounced : s.Announced e)
    (hboot : ∀ i2c rtc, e ≠ .boot i2c rtc) (hpoll : e ≠ .poll) (hsend : e ≠ .send) :
    Marked s (s.step f e) := by
  cases e with
  | boot i2c rtc => exact absurd rfl (hboot i2c rtc)
  | poll => exact absurd rfl hpoll
  | send => exact absurd rfl hsend
  | setFrontVmax | setFrontVmin | setRearVmax | setRearVmin | clearData | clearConfig =>
    exact ⟨rfl, rfl, rfl, .inl rfl⟩
  | writeAdcData io timestamp data blockNum flag =>
    exact ⟨rfl, rfl, rfl, storageWriteAdcData_marks io s.adcStore timestamp data blockNum flag⟩
  | writeAlarmMsg lock timestamp data =>
    exact ⟨rfl, rfl, rfl, .inr (storageWriteAlarmMsg_marks lock s.alarmStore timestamp data)⟩
  | writeAlarmInfo lock timestamp off data len flag =>
    exact ⟨rfl, rfl, rfl, storageWriteAlarmInfo_marks lock s.alarmStore timestamp off data len flag⟩
  | calibrate e =>
    refine ⟨rfl, rfl, rfl, calibrate_marks s.calibration e fun rawData he => ?_⟩
    subst he
    exact hannounced

theorem Inv.step (h : s.Inv) (e : ConfigEvent) (hannounced : s.Announced e) :
    (s.step f e).Inv := by
  cases e with
  | boot i2c rtc => exact .boot i2c rtc hannounced
  | poll => exact h.poll
  | send => exact h.send
  | _ =>
    refine h.marked (step_marked hannounced ?_ ?_ ?_)
    all_goals simp

end ConfigSystem

/-- In every run whose changes are all announced, from the first boot on. -/
theorem configSystem_persistent (f : CalFloat) (eeprom : Nat → UInt8) (emmc : Emmc) (flash : Flash)
    (i2c : I2cRead) (rtc : SystemTime) (es : List ConfigEvent)
    (hannounced : (configSystem f eeprom emmc flash).Guarded ConfigSystem.Announced
      (configSystem f eeprom emmc flash).start (.boot i2c rtc :: es)) :
    ((configSystem f eeprom emmc flash).run (.boot i2c rtc :: es)).Persistent := by
  have hstart : ((configSystem f eeprom emmc flash).start.step f (.boot i2c rtc)).Inv :=
    .boot i2c rtc hannounced.1
  have hstep : ∀ s e, ConfigSystem.Inv s → s.Announced e →
      ConfigSystem.Inv ((configSystem f eeprom emmc flash).step s e) := fun _ e h he => h.step e he
  have hinv := (configSystem f eeprom emmc flash).invariant_runFrom hstep hstart hannounced.2
  exact hinv.idle

def newDevice : Machine ConfigSystem ConfigEvent :=
  configSystem calWords (fun _ => 0xFF) (fun _ => zeroBlock) .erased

def firstBoot : ConfigEvent := .boot ⟨true, true, true, fun _ => true⟩ ⟨0, 0, 0, 0, 0, 0⟩

theorem firstBoot_announced : newDevice.start.Announced firstBoot := by
  have hflag : (sysConfigRead ⟨true, true, true, fun _ => true⟩ ⟨fun _ => 0xFF, []⟩ .zero).flag =
    0xFF := sysConfigRead_flag ⟨rfl, rfl, rfl, fun _ _ => rfl⟩
  intro hconfigured
  rcases hconfigured with hfirst | hnext
  · exact absurd (hflag.symm.trans hfirst) (by decide)
  · exact absurd (hflag.symm.trans hnext) (by decide)

theorem configSystem_persistent_limit :
    (newDevice.run (firstBoot :: .setFrontVmax 5 :: .poll :: List.replicate 86 .send)).Persistent :=
  configSystem_persistent calWords _ _ _ _ _ _ ⟨firstBoot_announced, trivial, trivial,
    newDevice.guarded_of_forall (fun _ _ he => (List.eq_of_mem_replicate he) ▸ trivial) _⟩

/-- The zero calibration of a new device: its offsets and its stage are in memory only. -/
theorem configSystem_zero_unsaved :
    ¬ (newDevice.run (firstBoot :: .calibrate .key1 ::
      List.replicate 100 (.calibrate (.sample fun _ => 100)))).Persistent := by
  intro hpersistent
  have hbyte := hpersistent (by decide +kernel) (by decide +kernel) 71 (by decide)
  have hcells : (newDevice.run (firstBoot :: .calibrate .key1 ::
      List.replicate 100 (.calibrate (.sample fun _ => 100)))).eeprom 71 = 0 := by decide +kernel
  have himage : (newDevice.run (firstBoot :: .calibrate .key1 ::
      List.replicate 100 (.calibrate (.sample fun _ => 100)))).config.image 71 = 1 := by
    decide +kernel
  rw [hcells, himage] at hbyte
  exact absurd hbyte (by decide)

end Lsc100
