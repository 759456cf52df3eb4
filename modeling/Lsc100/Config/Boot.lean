import Lsc100.Calendar
import Lsc100.Eeprom
import Lsc100.Flash
import Lsc100.Config.Image

/-! `system_init`: the configuration is read from the EEPROM, and a device that
finds no valid flag in it is set up from scratch. The result of the read is dropped
in `sys_config_read`. -/

namespace Lsc100

/-- The EEPROM, with the records `sys_config_write` has been called for. -/
structure Eeprom where
  cells : Nat → UInt8
  stored : List ConfigInfo

def sysConfigWrite (pages : Nat) (e : Eeprom) (config : ConfigInfo) : Eeprom :=
  ⟨fm24cWrite e.cells 0 config.image configInfoSize pages, e.stored ++ [config]⟩

def sysConfigRead (i2c : I2cRead) (e : Eeprom) (config : ConfigInfo) : ConfigInfo :=
  .ofImage (fm24cRead i2c e.cells 0 config.image configInfoSize).2

/-- The factory settings; `f_Cmax`, `f_Cmin`, `r_Cmax` and `r_Cmin` stay as read. -/
def ConfigInfo.factory (c : ConfigInfo) : ConfigInfo :=
  { c with
    hw := fun i => [1, 0, 0].getD i 0
    sw := fun i => [1, 2, 0].getD i 0
    fVmax := 0x44FA0000
    fVmin := 0x43FA0000
    rVmax := 0x44FA0000
    rVmin := 0x43FA0000
    flag := devFlagFirstOn
    rCbias0 := 0
    fCbias0 := 0
    rVbias0 := 0
    fVbias0 := 0
    fVgain := 0x3F800000
    fCgain := 0x3F800000
    rVgain := 0x3F800000
    rCgain := 0x3F800000
    calFlag := .devCalDef
    alarmNum := 0
    blockNum := 0
    currBlock := 0
    strTime := 0
    endTime := 0 }

/-- The page writes a record takes. -/
def configPages : Nat := 6

structure BootDevice where
  config : ConfigInfo
  eeprom : Eeprom
  rtc : SystemTime
  flash : Flash

namespace BootDevice

/-- `g_ConfigInfo` is zero when the power comes on. -/
def powerOn (cells : Nat → UInt8) (rtc : SystemTime) (flash : Flash) : BootDevice :=
  ⟨.zero, ⟨cells, []⟩, rtc, flash⟩

def systemInit (i2c : I2cRead) (d : BootDevice) : BootDevice :=
  let config := sysConfigRead i2c d.eeprom d.config
  if config.flag ≠ devFlagFirstOn ∧ config.flag ≠ devFlagNextOn then
    { config := config.factory
      eeprom := sysConfigWrite configPages d.eeprom config.factory
      rtc := ⟨0x26, 0x03, 0x27, 0x08, 0x50, 0x00⟩
      flash := gd55b01geEraseChip d.flash }
  else { d with config := Lsc100.systemInit config }

/-- The stored configuration was overwritten or the alarm flash erased. -/
def Destroyed (d d' : BootDevice) : Prop :=
  d'.eeprom.stored ≠ d.eeprom.stored ∨ d'.flash.ops ≠ d.flash.ops

end BootDevice

/-- The flag byte of the record in the EEPROM. -/
def Eeprom.Valid (e : Eeprom) : Prop :=
  e.cells 6 = devFlagFirstOn ∨ e.cells 6 = devFlagNextOn

def Eeprom.Read (i2c : I2cRead) (e : Eeprom) (config : ConfigInfo) : Prop :=
  (fm24cRead i2c e.cells 0 config.image configInfoSize).1 = true

section Boot

variable {i2c : I2cRead} {e : Eeprom} {config : ConfigInfo} {d : BootDevice}

theorem Eeprom.read_iff : e.Read i2c config ↔ i2c.Delivers configInfoSize :=
  fm24cRead_ok (by decide)

theorem sysConfigRead_flag (h : i2c.Delivers 7) : (sysConfigRead i2c e config).flag = e.cells 6 :=
  fm24cRead_delivered (by decide) h

theorem sysConfigRead_flag_missing (h : ¬ i2c.Delivers 7) :
    (sysConfigRead i2c e config).flag = config.flag :=
  fm24cRead_missing h

theorem ConfigInfo.zero_not_configured :
    ¬ (ConfigInfo.zero.flag = devFlagFirstOn ∨ ConfigInfo.zero.flag = devFlagNextOn) := by
  decide

/-- `system_init` sets the device up from scratch exactly if the flag it has in
memory after the read is none of the two. -/
theorem BootDevice.destroyed_iff :
    Destroyed d (d.systemInit i2c) ↔ ¬ (sysConfigRead i2c d.eeprom d.config).Configured := by
  have hflash : d.flash.ops ++ [FlashOp.eraseChip] ≠ d.flash.ops := by simp
  rw [BootDevice.systemInit, ConfigInfo.Configured, not_or]
  by_cases hreset : (sysConfigRead i2c d.eeprom d.config).flag ≠ devFlagFirstOn ∧
      (sysConfigRead i2c d.eeprom d.config).flag ≠ devFlagNextOn
  · simp only [if_pos hreset]
    exact iff_of_true (.inr hflash) hreset
  · simp only [if_neg hreset]
    refine iff_of_false (fun h => ?_) hreset
    rcases h with hstored | hops
    · exact hstored rfl
    · exact hops rfl

end Boot

/-- A fault of the bus destroys nothing exactly if the read succeeds after all, or
fails behind the flag byte and that byte is valid. -/
theorem systemInit_transient_fault (i2c : I2cRead) (cells : Nat → UInt8) (rtc : SystemTime)
    (flash : Flash) :
    let d := BootDevice.powerOn cells rtc flash
    (BootDevice.Destroyed d (d.systemInit i2c) → d.eeprom.Read i2c d.config ∧ ¬ d.eeprom.Valid) ↔
      i2c.Delivers configInfoSize ∨ (i2c.Delivers 7 ∧ d.eeprom.Valid) := by
  intro d
  rw [BootDevice.destroyed_iff, Eeprom.read_iff]
  by_cases hseven : i2c.Delivers 7
  · have hvalid : (sysConfigRead i2c d.eeprom d.config).Configured ↔ d.eeprom.Valid := by
      rw [ConfigInfo.Configured, sysConfigRead_flag hseven]
      rfl
    rw [hvalid]
    constructor
    · intro h
      by_cases hv : d.eeprom.Valid
      · exact .inr ⟨hseven, hv⟩
      · exact .inl (h hv).1
    · rintro (hall | ⟨-, hv⟩) hreset
      · exact ⟨hall, hreset⟩
      · exact absurd hv hreset
  · have hreset : ¬ (sysConfigRead i2c d.eeprom d.config).Configured := by
      rw [ConfigInfo.Configured, sysConfigRead_flag_missing hseven]
      exact ConfigInfo.zero_not_configured
    constructor
    · exact fun h => .inl (h hreset).1
    · rintro (hall | ⟨hdelivered, -⟩)
      · exact absurd (hall.mono (by decide)) hseven
      · exact absurd hdelivered hseven

/-- A bus that is busy for a moment at boot, and a device that has been set up. -/
theorem systemInit_busy_bus :
    let d := BootDevice.powerOn ConfigInfo.nextOn.image ⟨0x26, 0x03, 0x27, 0x08, 0x50, 0x00⟩ .erased
    let i2c : I2cRead := ⟨false, true, true, fun _ => true⟩
    d.eeprom.Valid ∧ BootDevice.Destroyed d (d.systemInit i2c) ∧ ¬ d.eeprom.Read i2c d.config := by
  refine ⟨.inr rfl, BootDevice.destroyed_iff.mpr ?_, ?_⟩
  · rw [ConfigInfo.Configured, sysConfigRead_flag_missing (fun h => absurd h.1 (by decide))]
    exact ConfigInfo.zero_not_configured
  · rw [Eeprom.read_iff]
    exact fun h => absurd h.1 (by decide)

end Lsc100
