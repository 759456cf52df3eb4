import Lsc100.Basis.Machine
import Lsc100.Net.Response
import Lsc100.Sample.Clock

/-! The clock chip SD2505 behind the I2C driver. A transfer may break off at any wait for a flag,
the chip takes what is written to it only when it is unlocked, and time goes by between the calls.
-/

namespace Lsc100

/-- How a wait for a flag ends. When it is `late`, the byte has got through but not the flag. -/
inductive I2cWait
  | ok
  | late
  | lost

def sd2505AddrSecond : Nat := 0x00

def sd2505AddrCtr1 : Nat := 0x0F

def sd2505AddrCtr2 : Nat := 0x10

structure Sd2505 where
  regs : Nat → UInt8
  ptr : Nat

/-- The bus with the chip. `ack` is what `i2c_ack_config` has set, and `step` counts the waits. -/
structure I2cBus where
  chip : Sd2505
  ack : Bool
  step : Nat

namespace Sd2505

/-- WRTC1 comes first, then WRTC2 and WRTC3 with it, and these three unlock the rest. -/
def writable (c : Sd2505) (reg : Nat) : Bool :=
  let wrtc1 := c.regs sd2505AddrCtr2 &&& 0x80 = 0x80
  reg = sd2505AddrCtr2 ∨ wrtc1 ∧
    (reg = sd2505AddrCtr1 ∨ c.regs sd2505AddrCtr1 &&& 0x84 = 0x84)

def store (c : Sd2505) (b : UInt8) : Sd2505 where
  regs := if c.writable c.ptr then Function.update c.regs c.ptr b else c.regs
  ptr := c.ptr + 1

def time (c : Sd2505) : RtcTime where
  ucSecond := c.regs 0
  ucMinute := c.regs 1
  ucHour := c.regs 2
  ucWeek := c.regs 3
  ucDay := c.regs 4
  ucMonth := c.regs 5
  ucYear := c.regs 6

/-- Time goes by. -/
def pass (c : Sd2505) (time : Nat → UInt8) : Sd2505 :=
  { c with regs := fun i => if i < 7 then time i else c.regs i }

end Sd2505

def RtcTime.bytes (t : RtcTime) : List UInt8 :=
  [t.ucSecond, t.ucMinute, t.ucHour, t.ucWeek, t.ucDay, t.ucMonth, t.ucYear]

/-- `rtc_time` after the first bytes of it have been overwritten. -/
def RtcTime.receive (t : RtcTime) (bs : List UInt8) : RtcTime where
  ucSecond := bs.getD 0 t.ucSecond
  ucMinute := bs.getD 1 t.ucMinute
  ucHour := bs.getD 2 t.ucHour
  ucWeek := bs.getD 3 t.ucWeek
  ucDay := bs.getD 4 t.ucDay
  ucMonth := bs.getD 5 t.ucMonth
  ucYear := bs.getD 6 t.ucYear

def RtcTime.fields (t : RtcTime) : SystemTime :=
  ⟨t.ucYear, t.ucMonth, t.ucDay, t.ucHour, t.ucMinute, t.ucSecond⟩

section Driver

variable (w : Nat → I2cWait)

/-- `i2c_wait_flag`, true when the flag has come. -/
def i2cWaitFlag (s : I2cBus) : Bool × I2cBus :=
  (match w s.step with
    | .ok => true
    | _ => false, { s with step := s.step + 1 })

/-- The bytes after the register address, each with its wait. -/
def i2cSend : List UInt8 → I2cBus → Bool × I2cBus
  | [], s => (true, s)
  | b :: bs, s =>
    match w s.step with
    | .ok => i2cSend bs { s with chip := s.chip.store b, step := s.step + 1 }
    | .late => (false, { s with chip := s.chip.store b, step := s.step + 1 })
    | .lost => (false, { s with step := s.step + 1 })

/-- The first bytes of both transfers: the start, the address and the register. -/
def i2cSelect (reg : Nat) (s : I2cBus) : Bool × I2cBus :=
  let (ok, s) := i2cWaitFlag w s
  if ok then
    let (ok, s) := i2cWaitFlag w s
    if ok then
      match w s.step with
      | .ok => (true, { s with chip := { s.chip with ptr := reg }, step := s.step + 1 })
      | .late => (false, { s with chip := { s.chip with ptr := reg }, step := s.step + 1 })
      | .lost => (false, { s with step := s.step + 1 })
    else (false, s)
  else (false, s)

/-- `I2C_Driver_Write`, true for its 0. -/
def i2cDriverWrite (reg : Nat) (data : List UInt8) (s : I2cBus) : Bool × I2cBus :=
  if data = [] then (false, s)
  else
    let (ok, s) := i2cSelect w reg s
    if ok then i2cSend w data s else (false, s)

/-- The bytes that come in. After a byte that is not acknowledged the chip is silent, and the
released line reads as ones. -/
def i2cRecv : Nat → Bool → I2cBus → (Bool × List UInt8) × I2cBus
  | 0, _, s => ((true, []), s)
  | n + 1, talking, s =>
    let s := if n = 0 then { s with ack := false } else s
    match w s.step with
    | .ok =>
      let b := if talking then s.chip.regs s.chip.ptr else 0xFF
      let ((ok, bs), s) := i2cRecv n (talking && s.ack)
        { s with chip := { s.chip with ptr := s.chip.ptr + 1 }, step := s.step + 1 }
      ((ok, b :: bs), s)
    | _ => ((false, []), { s with step := s.step + 1 })

/-- `I2C_Driver_Read`, true for its 0, with the bytes that it has stored. -/
def i2cDriverRead (reg len : Nat) (s : I2cBus) : (Bool × List UInt8) × I2cBus :=
  if len = 0 then ((false, []), s)
  else
    let (ok, s) := i2cSelect w reg s
    if ok then
      let (ok, s) := i2cWaitFlag w s
      if ok then
        let (ok, s) := i2cWaitFlag w s
        if ok then
          let ((ok, bs), s) := i2cRecv w len true s
          if ok then ((true, bs), { s with ack := true }) else ((false, bs), s)
        else ((false, []), s)
      else ((false, []), s)
    else ((false, []), s)

def sd2505WriteOn (s : I2cBus) : Bool × I2cBus :=
  let (ok, s) := i2cDriverWrite w sd2505AddrCtr2 [0x80] s
  if ok then i2cDriverWrite w sd2505AddrCtr1 [0xff] s else (false, s)

def sd2505WriteOff (s : I2cBus) : Bool × I2cBus :=
  let (ok, s) := i2cDriverWrite w sd2505AddrCtr1 [0x7b] s
  if ok then i2cDriverWrite w sd2505AddrCtr2 [0x0] s else (false, s)

def sd2505SetTime (time : RtcTime) (s : I2cBus) : Bool × I2cBus :=
  let (_, s) := sd2505WriteOn w s
  let (ok, s) := i2cDriverWrite w sd2505AddrSecond time.bytes s
  let (_, s) := sd2505WriteOff w s
  (ok, s)

def sd2505GetTime (time : RtcTime) (s : I2cBus) : (Bool × RtcTime) × I2cBus :=
  let ((ok, bs), s) := i2cDriverRead w sd2505AddrSecond 7 s
  ((ok, time.receive bs), s)

end Driver

/-- The clock chip and what is made of it under the mutex of `g_TimeSync`. `time` belongs to
`time_sync_task`, and `failed` tells whether the last reading has failed. -/
structure RtcSystem where
  bus : I2cBus
  time : RtcTime
  timeSync : TimeSync
  failed : Bool

inductive RtcEvent
  | pass (time : Nat → UInt8)
  | sync
  | set (request : SystemTime)

namespace RtcSystem

variable (w : Nat → I2cWait)

/-- `time_sync_task` does not look at the result of the reading. -/
def sync (s : RtcSystem) : RtcSystem :=
  let ((ok, time), bus) := sd2505GetTime w s.time s.bus
  ⟨bus, time, .ofRtc time.fields, !ok⟩

/-- `kt_SetSysTime`, with the time of its answer. -/
def set (s : RtcSystem) (request : SystemTime) : RtcTime × RtcSystem :=
  let time := RtcTime.ofRequest request
  let (_, bus) := sd2505SetTime w time s.bus
  let ((ok, time), bus) := sd2505GetTime w time bus
  (time, { s with bus := bus, failed := !ok })

end RtcSystem

/-- From `time_sync_init` on. `boot` and `time` are what its variable and that of
`time_sync_task` hold before they are set. -/
def rtcSystem (w : Nat → I2cWait) (bus : I2cBus) (boot time : RtcTime) :
    Machine RtcSystem RtcEvent where
  start :=
    let ((ok, boot), bus) := sd2505GetTime w boot bus
    ⟨bus, time, .ofRtc boot.fields, !ok⟩
  step s
    | .pass time => { s with bus := { s.bus with chip := s.bus.chip.pass time } }
    | .sync => s.sync w
    | .set request => (s.set w request).2

end Lsc100
