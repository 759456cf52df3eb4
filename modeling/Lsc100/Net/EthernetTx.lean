import Lsc100.Net.EthernetRx

/-! How Ethernet frames go out: `low_level_output` copies them into the descriptors of a ring, and
the transmitting DMA sends what it finds there. When it finds nothing it raises TBU and sleeps
until it is polled. -/

namespace Lsc100

open Overlay

def enetTxbufNum : Nat := 32

/-- A descriptor in ring mode, with its buffer. `length` is in `control_buffer_size`. -/
structure TxDesc where
  dav : Bool
  length : Nat
  buffer : Nat → UInt8

/-- A frame in a chain of pbufs. -/
structure PbufChain where
  pieces : List (List UInt8)
  fits : pieces.flatten.length ≤ enetMaxFrameSize

def PbufChain.bytes (p : PbufChain) : List UInt8 := p.pieces.flatten

/-- Where the DMA is. `foundNone` has seen the descriptor and not yet gone to sleep. -/
inductive TxDma
  | looking
  | foundNone
  | sending (p : List UInt8)
  | asleep
  deriving DecidableEq

/-- Where `low_level_output` is, from `asking` on behind `DAV` in `enet_frame_transmit`. -/
inductive TxPhase
  | idle
  | waiting (p : PbufChain)
  | copying (framelength : Nat) (q : List (List UInt8))
  | transmitting (framelength : Nat)
  | giving
  | asking
  | askingTu (tbu : Bool)
  | clearing (tbu tu : Bool)
  | polling
  | advancing

/-- What became of a frame behind the DMA. -/
inductive TxFate
  | sent (bytes : List UInt8)
  | underflow

/-- `given`, `fates`, `results` and `late` are there for the statements only. The DMA is `late` when
it has gone to sleep with a frame there, until it is polled. -/
structure EthTx where
  desc : Nat → TxDesc
  current : Nat
  phase : TxPhase
  dmaDesc : Nat
  dma : TxDma
  tbu : Bool
  tu : Bool
  given : List (List UInt8)
  fates : List TxFate
  results : List Bool
  late : Bool

inductive TxMove
  | send (p : PbufChain)
  | task
  | dma
  | underflow

namespace EthTx

def start : EthTx where
  desc _ := ⟨false, 0, fun _ => 0⟩
  current := 0
  phase := .idle
  dmaDesc := 0
  dma := .looking
  tbu := false
  tu := false
  given := []
  fates := []
  results := []
  late := false

def setDesc (s : EthTx) (i : Nat) (d : TxDesc) : EthTx :=
  { s with desc := Function.update s.desc i d }

/-- A step of `low_level_output`. -/
def taskStep (s : EthTx) : EthTx :=
  let d := s.desc s.current
  match s.phase with
  | .idle => s
  | .waiting p => if d.dav then s else { s with phase := .copying 0 p.pieces }
  | .copying framelength [] => { s with phase := .transmitting framelength }
  | .copying framelength (q :: qs) =>
    { s.setDesc s.current
        { d with
          buffer := overlay (fun _ b => b) d.buffer framelength q.length fun i => q.getD i 0 } with
      phase := .copying ((framelength + q.length) % 65536) qs }
  | .transmitting framelength =>
    if d.dav then { s with results := s.results ++ [false], phase := .idle }
    else if enetMaxFrameSize < framelength then
      { s with results := s.results ++ [false], phase := .idle }
    else { s.setDesc s.current { d with length := framelength } with phase := .giving }
  | .giving => { s.setDesc s.current { d with dav := true } with phase := .asking }
  | .asking => { s with phase := .askingTu s.tbu }
  | .askingTu tbu =>
    if tbu || s.tu then { s with phase := .clearing tbu s.tu } else { s with phase := .advancing }
  | .clearing tbu tu =>
    { s with tbu := s.tbu && !tbu, tu := s.tu && !tu, phase := .polling }
  | .polling =>
    { s with
      dma := if s.dma = .asleep then .looking else s.dma
      late := false
      phase := .advancing }
  | .advancing =>
    { s with
      current := Handover.next enetTxbufNum s.current
      results := s.results ++ [true]
      phase := .idle }

/-- A step of the DMA, which reads the buffer byte by byte. -/
def dmaStep (s : EthTx) : EthTx :=
  let d := s.desc s.dmaDesc
  match s.dma with
  | .looking => if d.dav then { s with dma := .sending [] } else { s with dma := .foundNone }
  | .foundNone => { s with dma := .asleep, tbu := true, late := d.dav }
  | .sending p =>
    if p.length < d.length then { s with dma := .sending (p ++ [d.buffer p.length]) }
    else
      { s.setDesc s.dmaDesc { d with dav := false } with
        dmaDesc := Handover.next enetTxbufNum s.dmaDesc
        dma := .looking
        fates := s.fates ++ [.sent p] }
  | .asleep => s

/-- The DMA gives a frame up, because its bytes do not come fast enough, and goes to sleep. -/
def underflow (s : EthTx) : EthTx :=
  match s.dma with
  | .sending _ =>
    let next := Handover.next enetTxbufNum s.dmaDesc
    { s.setDesc s.dmaDesc { s.desc s.dmaDesc with dav := false } with
      dmaDesc := next
      dma := .asleep
      tu := true
      fates := s.fates ++ [.underflow]
      late := (s.desc next).dav }
  | _ => s

def step (s : EthTx) : TxMove → EthTx
  | .send p =>
    match s.phase with
    | .idle => { s with given := s.given ++ [p.bytes], phase := .waiting p }
    | _ => s
  | .task => s.taskStep
  | .dma => s.dmaStep
  | .underflow => s.underflow

end EthTx

end Lsc100
