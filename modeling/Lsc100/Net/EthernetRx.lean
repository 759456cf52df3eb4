import Lsc100.Basis.Machine
import Lsc100.Basis.Overlay
import Lsc100.Basis.Handover

/-! How Ethernet frames come in: the receiving DMA fills the descriptors of a ring, its interrupt
gives `g_rx_semaphore`, and `ethernetif_input` takes the frames out of the ring, with
`low_level_input` and the driver functions of `gd32f4xx_enet.c` step by step. -/

namespace Lsc100

open Overlay

def enetRxbufNum : Nat := 5

def enetMaxFrameSize : Nat := 1524

/-- A descriptor in ring mode, with its buffer. -/
structure RxDesc where
  dav : Bool
  frml : Nat
  frmt : Bool
  buffer : Nat → UInt8

/-- `enet_desc_information_get(.., RXDESC_FRAME_LENGTH)` -/
def RxDesc.frameLength (tfcd : Bool) (d : RxDesc) : Nat :=
  if 4 < d.frml then
    let reval := d.frml - 4
    if tfcd && d.frmt then reval + 4 else reval
  else 0

def readBuffer (buffer : Nat → UInt8) (l len : Nat) : List UInt8 :=
  (List.range len).map fun i => buffer (l + i)

/-- A frame as it arrives, without its checksum. -/
structure EthFrame where
  bytes : List UInt8
  typed : Bool
  header : 14 ≤ bytes.length
  fits : bytes.length + 4 ≤ enetMaxFrameSize

/-- What `low_level_input` has got from the descriptor. -/
inductive Grab
  | empty
  | noMemory
  | frame (p : List UInt8)

/-- Where `ethernetif_input` is. -/
inductive RxPhase
  | waiting
  | probing
  | allocating (len : Nat)
  | copying (p : List UInt8) (lens : List Nat)
  | receiving (g : Grab)
  | advancing (g : Grab)
  | handing (g : Grab)

/-- The pass has found nothing and not yet asked the driver. -/
def RxPhase.foundNothing : RxPhase → Bool
  | .receiving .empty => true
  | _ => false

/-- Where the interrupt handler is. -/
inductive RxIrq
  | none
  | seen
  | given
  deriving DecidableEq

/-- What has become of a frame. -/
inductive FrameFate
  | accepted (p : List UInt8)
  | refused (p : List UInt8)
  | noMemory
  | overlooked

/-- `unseen` frames have come in between the two looks that a pass which has found nothing takes
at the descriptor. -/
structure Arrival where
  bytes : List UInt8
  unseen : Bool

/-- `received`, `fates` and `brokeOff` are there for the statements only. The last
pass broke off when it ended with a frame for which there was no memory, or that
the stack refused. -/
structure EthRx where
  desc : Nat → RxDesc
  dma : Nat
  current : Nat
  rbu : Bool
  rs : Bool
  sem : Bool
  irq : RxIrq
  phase : RxPhase
  received : List Arrival
  fates : List FrameFate
  brokeOff : Bool

/-- What happens next. Of the frame that is coming in, the buffer shows any part at any time. The
interrupt handler has the processor for itself. -/
inductive RxMove
  | scribble (i : Nat) (b : UInt8)
  | complete (f : EthFrame)
  | irq
  | task (chain : Option (List Nat)) (inputOk : Bool)

namespace EthRx

def start : EthRx where
  desc _ := ⟨true, 0, false, fun _ => 0⟩
  dma := 0
  current := 0
  rbu := false
  rs := false
  sem := false
  irq := .none
  phase := .waiting
  received := []
  fates := []
  brokeOff := false

def setDesc (s : EthRx) (i : Nat) (d : RxDesc) : EthRx :=
  { s with desc := Function.update s.desc i d }

def scribble (s : EthRx) (i : Nat) (b : UInt8) : EthRx :=
  let d := s.desc s.dma
  if d.dav then s.setDesc s.dma { d with buffer := Function.update d.buffer i b } else s

/-- The DMA is through with a frame. Without a free descriptor the frame is lost. -/
def complete (tfcd : Bool) (s : EthRx) (f : EthFrame) : EthRx :=
  let d := s.desc s.dma
  if d.dav then
    { s.setDesc s.dma
        { dav := false
          frml := if tfcd && f.typed then f.bytes.length else f.bytes.length + 4
          frmt := f.typed
          buffer := overlay (fun _ b => b) d.buffer 0 f.bytes.length fun i =>
            f.bytes.getD i 0 } with
      dma := Handover.next enetRxbufNum s.dma
      rs := true
      received := s.received ++ [⟨f.bytes, s.phase.foundNothing⟩] }
  else { s with rbu := true }

/-- `ENET_IRQHandler`. The interrupt is raised by the flag that it looks at first. -/
def irqStep (s : EthRx) : EthRx :=
  match s.irq with
  | .none => if s.rs then { s with irq := .seen } else s
  | .seen => { s with sem := true, irq := .given }
  | .given => { s with rs := false, irq := .none }

/-- `enet_frame_receive(NULL, 0)` up to where the descriptor is the DMA's again. -/
def frameReceive (s : EthRx) (g : Grab) : EthRx :=
  let d := s.desc s.current
  if d.dav then { s with phase := .handing g }
  else
    { s.setDesc s.current { d with dav := true, frml := 0, frmt := false } with
      phase := .advancing g
      fates := match g with
        | .empty => s.fates ++ [.overlooked]
        | .noMemory => s.fates ++ [.noMemory]
        | .frame _ => s.fates }

/-- A step of `ethernetif_input`. `pbuf_alloc` gives a chain of the length asked for, or none. -/
def taskStep (tfcd : Bool) (s : EthRx) (chain : Option (List Nat)) (inputOk : Bool) : EthRx :=
  match s.phase with
  | .waiting => if s.sem then { s with sem := false, phase := .probing } else s
  | .probing =>
    let len := (s.desc s.current).frameLength tfcd
    if 0 < len then { s with phase := .allocating len }
    else { s with phase := .receiving .empty }
  | .allocating len =>
    match chain with
    | none => { s with phase := .receiving .noMemory }
    | some lens => if lens.sum = len then { s with phase := .copying [] lens } else s
  | .copying p [] => { s with phase := .receiving (.frame p) }
  | .copying p (len :: lens) =>
    { s with phase := .copying (p ++ readBuffer (s.desc s.current).buffer p.length len) lens }
  | .receiving g => s.frameReceive g
  | .advancing g =>
    { s with rbu := false, current := Handover.next enetRxbufNum s.current, phase := .handing g }
  | .handing (.frame p) =>
    if inputOk then { s with fates := s.fates ++ [.accepted p], phase := .probing }
    else { s with fates := s.fates ++ [.refused p], phase := .waiting, brokeOff := true }
  | .handing .noMemory => { s with phase := .waiting, brokeOff := true }
  | .handing .empty => { s with phase := .waiting, brokeOff := false }

def step (tfcd : Bool) (s : EthRx) : RxMove → EthRx
  | .scribble i b => s.scribble i b
  | .complete f => s.complete tfcd f
  | .irq => s.irqStep
  | .task chain inputOk =>
    match s.irq with
    | .none => s.taskStep tfcd chain inputOk
    | _ => s

end EthRx

def ethRx (tfcd : Bool) : Machine EthRx RxMove where
  start := .start
  step := EthRx.step tfcd

end Lsc100
