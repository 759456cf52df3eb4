import Mathlib.Logic.Basic

/-! The configuration record `g_ConfigInfo` of `msg_parse.h`. Floating-point
fields are kept as the words they are stored in. -/

namespace Lsc100

def devFlagFirstOn : UInt8 := 0x5A
def devFlagNextOn : UInt8 := 0xA5

/-- A variable of the enumeration is a byte; `other` are its values that are none of the three. -/
inductive DevCalFlag
  | devCalDef | devCalStr | devCalEnd
  | other (b : UInt8) (h : 2 < b)
  deriving DecidableEq

structure ConfigInfo where
  hw : Fin 3 → UInt8
  sw : Fin 3 → UInt8
  flag : UInt8
  fVmax : UInt32
  fVmin : UInt32
  fCmax : UInt32
  fCmin : UInt32
  rVmax : UInt32
  rVmin : UInt32
  rCmax : UInt32
  rCmin : UInt32
  fVbias0 : UInt32
  fCbias0 : UInt32
  rVbias0 : UInt32
  rCbias0 : UInt32
  fVgain : UInt32
  fCgain : UInt32
  rVgain : UInt32
  rCgain : UInt32
  calFlag : DevCalFlag
  alarmNum : UInt16
  blockNum : UInt16
  currBlock : UInt16
  strTime : UInt32
  endTime : UInt32

/-- `ConfigInfo_t g_ConfigInfo = {0}`. -/
def ConfigInfo.zero : ConfigInfo where
  hw _ := 0
  sw _ := 0
  flag := 0
  fVmax := 0
  fVmin := 0
  fCmax := 0
  fCmin := 0
  rVmax := 0
  rVmin := 0
  rCmax := 0
  rCmin := 0
  fVbias0 := 0
  fCbias0 := 0
  rVbias0 := 0
  rCbias0 := 0
  fVgain := 0
  fCgain := 0
  rVgain := 0
  rCgain := 0
  calFlag := .devCalDef
  alarmNum := 0
  blockNum := 0
  currBlock := 0
  strTime := 0
  endTime := 0

/-- The device has been set up: `system_init` keeps its configuration. -/
def ConfigInfo.Configured (c : ConfigInfo) : Prop := c.flag = devFlagFirstOn ∨ c.flag = devFlagNextOn

/-- What `system_init` does to the configuration of such a device. -/
def systemInit (c : ConfigInfo) : ConfigInfo :=
  if c.flag = devFlagFirstOn ∧ c.calFlag = .devCalEnd then { c with flag := devFlagNextOn } else c

theorem systemInit_configured {c : ConfigInfo} (h : c.Configured) : (systemInit c).Configured := by
  rw [systemInit]
  split
  · exact .inr rfl
  · exact h

/-- What `kt_ClearData` leaves in the configuration. -/
def ConfigInfo.cleared (c : ConfigInfo) : ConfigInfo :=
  { c with
    blockNum := 0
    currBlock := 0
    strTime := 0
    endTime := 0
    alarmNum := 0
    flag := devFlagFirstOn }

/-- The configuration of a device that has been calibrated but not restarted. -/
def ConfigInfo.firstOn : ConfigInfo := { ConfigInfo.zero with flag := devFlagFirstOn }

/-- The configuration of a calibrated device that has stored nothing yet. -/
def ConfigInfo.nextOn : ConfigInfo := { ConfigInfo.zero with flag := devFlagNextOn }

end Lsc100
