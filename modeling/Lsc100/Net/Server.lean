import Lsc100.Basis.Machine
import Lsc100.Net.Frame

/-! From the socket to the handlers: `tcp_server_task` puts every result of
`socket_recv` into a queue of 100-byte items, `msg_proc_task` takes them out,
checks the checksum and calls a handler. -/

namespace Lsc100

open Bytes

inductive Handler
  | ktConfigInfo
  | ktSetFrontVmax
  | ktSetFrontVmin
  | ktSetRearVmax
  | ktSetRearVmin
  | ktAlarmInfo
  | ktAlarmData
  | ktSampleInfo
  | ktSampleData
  | ktSampleDataIn
  | ktSetSysTime
  | ktClearData
  | ktClearConfig
  deriving DecidableEq, Repr

def gMsgPraseInterTable : List (UInt8 × Handler) :=
  [(0x10, .ktConfigInfo),
   (0x11, .ktSetFrontVmax),
   (0x12, .ktSetFrontVmin),
   (0x13, .ktSetRearVmax),
   (0x14, .ktSetRearVmin),
   (0x20, .ktAlarmInfo),
   (0x21, .ktAlarmData),
   (0x30, .ktSampleInfo),
   (0x31, .ktSampleData),
   (0x32, .ktSampleDataIn),
   (0x15, .ktSetSysTime),
   (0x1A, .ktClearData),
   (0x1B, .ktClearConfig)]

def tcpRecvBufLen : Nat := 128
def maxQueueDataSize : Nat := 100
def handleQueueLength : Nat := 62

/-- The result of `recv` as `socket_recv` returns it, in 8 bits. -/
def socketRecvRet (recvLen : Nat) : Int := Int.bmod recvLen 256

/-- The array `msg` with the memory around it; `msg` is at 0. -/
def msgMemory (item : Nat → UInt8) (around : Int → UInt8) (i : Int) : UInt8 :=
  if 0 ≤ i ∧ i < maxQueueDataSize then item i.toNat else around i

/-- The body of `msg_proc_task` for one item. The checksum is looked for where the
length field says, also outside `msg`. -/
def msgProc (item : Nat → UInt8) (around : Int → UInt8) : Option Handler :=
  let msg := msgMemory item around
  let len := hConvert fun k => msg (2 + k)
  let crc := hConvert fun k => msg ((len : Int) - msgDataFramCrcSize + k)
  let checkCrc := checkSum8 (fun k => msg k) ((len + 2 ^ 16 - msgDataFramCrcSize) % 2 ^ 16)
  if msgDataFramHdr = hConvert (fun k => msg k) ∧ checkCrc.toNat = crc then
    (gMsgPraseInterTable.find? fun entry => entry.1 = msg 4).map (·.2)
  else none

/-- A call of a handler with the item it is given. -/
structure Dispatch where
  handler : Handler
  item : Nat → UInt8

structure TcpServer where
  connected : Bool
  queue : List (Nat → UInt8)
  dispatched : List Dispatch

/-- `recv` delivers some bytes, or `msg_proc_task` gets to run, with anything in
the memory around its array. -/
inductive ServerEvent
  | recv (bytes : List UInt8)
  | proc (around : Int → UInt8)

namespace TcpServer

/-- `recv_buf` is zeroed before; an item is its first 100 bytes. -/
def recv (s : TcpServer) (bytes : List UInt8) : TcpServer :=
  if s.connected then
    if socketRecvRet bytes.length ≤ 0 then { s with connected := false }
    else if s.queue.length < handleQueueLength then
      { s with queue := s.queue ++ [memoryOf (bytes.take maxQueueDataSize)] }
    else s
  else s

def proc (s : TcpServer) (around : Int → UInt8) : TcpServer :=
  match s.queue with
  | [] => s
  | item :: rest =>
    { s with
      queue := rest
      dispatched := match msgProc item around with
        | some handler => s.dispatched ++ [⟨handler, item⟩]
        | none => s.dispatched }

end TcpServer

/-- One connection, which has just been accepted. -/
def tcpServer : Machine TcpServer ServerEvent where
  start := ⟨true, [], []⟩
  step s
    | .recv bytes => s.recv bytes
    | .proc around => s.proc around

end Lsc100
