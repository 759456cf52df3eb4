import Lsc100.Basis.Serving
import Lsc100.FlashPages

/-! The driver of `BSP_GD55B01.c` byte by byte on the SPI bus, with the chip at its end. -/

namespace Lsc100

open Polling Paged Overlay

/-- What happens on the bus. `power` is not the driver's: the supply comes back. -/
inductive SpiCmd
  | power
  | csLow
  | csHigh
  | byte (b : UInt8)

def wrenCmd : UInt8 := 0x06

def rdsr1Cmd : UInt8 := 0x05

def readCmd : UInt8 := 0x03

def ppCmd : UInt8 := 0x02

def seCmd : UInt8 := 0x20

def be32Cmd : UInt8 := 0x52

def be64Cmd : UInt8 := 0xD8

def ceCmd : UInt8 := 0xC7

def rdidCmd : UInt8 := 0x9F

def enter4bModeCmd : UInt8 := 0xB7

def exit4bModeCmd : UInt8 := 0xE9

def gd55b01geJedecId : UInt32 := 0xC8471B

def wipFlagMask : UInt8 := 0x01

def welFlagMask : UInt8 := 0x02

/-- Where the chip is between two edges of the chip select. -/
inductive NorFrame
  | deselected
  | opcode
  | ignored
  | command (opcode : UInt8) (args : List UInt8)

/-- `busy` is for how many more bytes on the bus the chip is at work on an erase or a page
program. `refused` counts the commands that had no effect, because the chip was busy or writing
was not enabled; it is there for the statements only. -/
structure NorChip where
  cells : Nat → UInt8
  fourByte : Bool
  wel : Bool
  busy : Nat
  started : Nat
  refused : Nat
  frame : NorFrame

namespace NorChip

def addrLen (c : NorChip) : Nat := if c.fourByte then 4 else 3

/-- The chip has no more than its cells to address. -/
def address (c : NorChip) (args : List UInt8) : Nat :=
  (args.take c.addrLen).foldl (fun a b => 256 * a + b.toNat) 0 % gd55b01geTotalSize

def output (c : NorChip) (opcode : UInt8) (args : List UInt8) : UInt8 :=
  if opcode = rdsr1Cmd then
    (if 0 < c.busy then wipFlagMask else 0) ||| (if c.wel then welFlagMask else 0)
  else if opcode = rdidCmd then [0xC8, 0x47, 0x1B].getD args.length 0xFF
  else if opcode = readCmd ∧ c.addrLen ≤ args.length then
    c.cells ((c.address args + (args.length - c.addrLen)) % gd55b01geTotalSize)
  else 0xFF

/-- The `n`th erase or page program takes `cycle n` bytes. -/
def start (cycle : Nat → Nat) (c : NorChip) (f : (Nat → UInt8) → Nat → UInt8) : NorChip :=
  if c.wel then
    { c with
      cells := f c.cells
      wel := false
      busy := cycle c.started
      started := c.started + 1 }
  else { c with refused := c.refused + 1 }

/-- What a command does as the chip is deselected. A command with too few bytes or too many does
nothing. -/
def execute (cycle : Nat → Nat) (c : NorChip) (opcode : UInt8) (args : List UInt8) : NorChip :=
  let addr := c.address args
  if opcode = wrenCmd ∧ args = [] then { c with wel := true }
  else if opcode = enter4bModeCmd ∧ args = [] then { c with fourByte := true }
  else if opcode = exit4bModeCmd ∧ args = [] then { c with fourByte := false }
  else if opcode = ceCmd ∧ args = [] then c.start cycle FlashErase.chip.perform
  else if opcode = seCmd ∧ args.length = c.addrLen then
    c.start cycle (FlashErase.sector addr).perform
  else if opcode = be32Cmd ∧ args.length = c.addrLen then
    c.start cycle (FlashErase.block32 addr).perform
  else if opcode = be64Cmd ∧ args.length = c.addrLen then
    c.start cycle (FlashErase.block64 addr).perform
  else if opcode = ppCmd ∧ c.addrLen < args.length then
    c.start cycle fun cells => wrapStore (· &&& ·) gd55b01gePageSize cells addr
      (fun i => (args.drop c.addrLen).getD i 0xFF) (args.length - c.addrLen)
  else c

/-- While it is busy the chip only answers `RDSR1`. -/
def respond (cycle : Nat → Nat) (c : NorChip) : SpiCmd → UInt8 × NorChip
  | .power =>
    (0xFF, { c with fourByte := false, wel := false, busy := 0, frame := .deselected })
  | .csLow => (0xFF, { c with frame := .opcode })
  | .csHigh =>
    match c.frame with
    | .command opcode args => (0xFF, { c.execute cycle opcode args with frame := .deselected })
    | _ => (0xFF, { c with frame := .deselected })
  | .byte b =>
    match c.frame with
    | .deselected => (0xFF, { c with busy := c.busy - 1 })
    | .ignored => (0xFF, { c with busy := c.busy - 1 })
    | .opcode =>
      if 0 < c.busy ∧ b ≠ rdsr1Cmd then
        (0xFF, { c with busy := c.busy - 1, refused := c.refused + 1, frame := .ignored })
      else (0xFF, { c with busy := c.busy - 1, frame := .command b [] })
    | .command opcode args =>
      (c.output opcode args,
        { c with busy := c.busy - 1, frame := .command opcode (args ++ [b]) })

end NorChip

abbrev Spi (α : Type) := Polling SpiCmd UInt8 Unit α

/-- The condition of the loop in `gd55b01ge_wait_for_write_end`. -/
def wipCleared (_ : Unit) (status : UInt8) : Bool := status &&& wipFlagMask ≠ 1

def flashCsLow : Spi Unit := send .csLow fun _ => done ()

def flashCsHigh : Spi Unit := send .csHigh fun _ => done ()

def spiSendRecvByte (byte : UInt8) : Spi UInt8 := send (.byte byte) done

/-- A loop over `spi_send_recv_byte` that drops what it receives. -/
def sendAll : List UInt8 → Spi Unit
  | [] => done ()
  | b :: bytes => do
    let _ ← spiSendRecvByte b
    sendAll bytes

def gd55b01geSendAddress (is4byteMode : Bool) (addr : UInt32) : Spi Unit := do
  if is4byteMode then
    let _ ← spiSendRecvByte ((addr &&& 0xFF000000) >>> 24).toUInt8
  let _ ← spiSendRecvByte ((addr &&& 0xFF0000) >>> 16).toUInt8
  let _ ← spiSendRecvByte ((addr &&& 0xFF00) >>> 8).toUInt8
  let _ ← spiSendRecvByte (addr &&& 0xFF).toUInt8

def gd55b01geReadJedecId : Spi UInt32 := do
  flashCsLow
  let _ ← spiSendRecvByte rdidCmd
  let manufacturerId ← spiSendRecvByte 0xFF
  let deviceId1 ← spiSendRecvByte 0xFF
  let deviceId2 ← spiSendRecvByte 0xFF
  flashCsHigh
  return (manufacturerId.toUInt32 <<< 16) ||| (deviceId1.toUInt32 <<< 8) ||| deviceId2.toUInt32

def gd55b01geWriteEnable : Spi Unit := do
  flashCsLow
  let _ ← spiSendRecvByte wrenCmd
  flashCsHigh

def gd55b01geWaitForWriteEnd : Spi Unit := do
  flashCsLow
  let _ ← spiSendRecvByte rdsr1Cmd
  let _ ← wait () (.byte 0xFF) done
  flashCsHigh

/-- The new value of `is_4byte_mode` is returned. -/
def gd55b01geEnter4byteAddrMode : Spi Bool := do
  flashCsLow
  let _ ← spiSendRecvByte enter4bModeCmd
  flashCsHigh
  return true

def gd55b01geExit4byteAddrMode : Spi Bool := do
  flashCsLow
  let _ ← spiSendRecvByte exit4bModeCmd
  flashCsHigh
  return false

/-- The set-up of the pins and of the controller is left out. -/
def gd55b01geInit : Spi Bool := do
  flashCsHigh
  gd55b01geEnter4byteAddrMode

section Mode

variable (is4byteMode : Bool)

/-- The three functions that erase around an address, with their commands. -/
def eraseWith (cmd : UInt8) (addr : UInt32) : Spi Unit := do
  gd55b01geWriteEnable
  flashCsLow
  let _ ← spiSendRecvByte cmd
  gd55b01geSendAddress is4byteMode addr
  flashCsHigh
  gd55b01geWaitForWriteEnd

def spiEraseSector (sectorAddr : UInt32) : Spi Unit := eraseWith is4byteMode seCmd sectorAddr

def spiEraseBlock32 (blockAddr : UInt32) : Spi Unit := eraseWith is4byteMode be32Cmd blockAddr

def spiEraseBlock64 (blockAddr : UInt32) : Spi Unit := eraseWith is4byteMode be64Cmd blockAddr

def spiEraseChip : Spi Unit := do
  gd55b01geWriteEnable
  flashCsLow
  let _ ← spiSendRecvByte ceCmd
  flashCsHigh
  gd55b01geWaitForWriteEnd

def spiPageProgram (addr : UInt32) (data : Nat → UInt8) (count : Nat) : Spi Unit := do
  if gd55b01gePageSize < count then
    return
  gd55b01geWriteEnable
  flashCsLow
  let _ ← spiSendRecvByte ppCmd
  gd55b01geSendAddress is4byteMode addr
  sendAll ((List.range count).map data)
  flashCsHigh
  gd55b01geWaitForWriteEnd

/-- The calls that the loop of `gd55b01ge_write_data` makes. -/
def programAll : List PageProgram → Spi Unit
  | [] => done ()
  | p :: ps => do
    spiPageProgram is4byteMode (UInt32.ofNat p.addr) p.data p.count
    programAll ps

def spiWriteData (addr : UInt32) (data : Nat → UInt8) (count : Nat) : Spi Unit :=
  programAll is4byteMode (pagePrograms addr.toNat data count)

/-- The loop of `gd55b01ge_read_data` from `i` on. -/
def recvAll (data : Nat → UInt8) : Nat → Nat → Spi (Nat → UInt8)
  | _, 0 => done data
  | i, n + 1 => do
    let b ← spiSendRecvByte 0xFF
    recvAll (Function.update data i b) (i + 1) n

def spiReadData (addr : UInt32) (data : Nat → UInt8) (count : Nat) : Spi (Nat → UInt8) := do
  flashCsLow
  let _ ← spiSendRecvByte readCmd
  gd55b01geSendAddress is4byteMode addr
  let data ← recvAll data 0 count
  flashCsHigh
  return data

end Mode

end Lsc100
