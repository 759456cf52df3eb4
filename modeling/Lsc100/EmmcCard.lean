import Lsc100.Basis.Serving
import Lsc100.EmmcStatus

/-! The card at the other end of the SDIO bus, and what can go wrong between it and the driver. -/

namespace Lsc100

open Polling Overlay

inductive CardState
  | tran
  | data
  | rcv
  | prg
  deriving DecidableEq

def CardState.code : CardState → UInt32
  | .tran => 4
  | .data => 5
  | .rcv => 6
  | .prg => 7

/-- What the card has been told of the blocks to erase. -/
inductive EraseGroup
  | none
  | start (a : Nat)
  | range (a b : Nat)
  deriving DecidableEq

def EraseGroup.upTo : EraseGroup → Nat → EraseGroup
  | .start a, b => .range a b
  | _, _ => .none

/-- A lost command is not answered, and may leave error bits for the next response. A garbled one
is obeyed, but its response arrives damaged. In a broken one the data transfer goes wrong, which
may leave the card waiting for the rest of the data. -/
inductive CmdFault
  | none
  | lost (status : UInt32)
  | garbled (shown : UInt32)
  | broken (error : {e : EmmcError // e ≠ .ok}) (junk : Blocks) (stuck : Bool)

inductive DataPhase
  | none
  | moved
  | broken (junk : Blocks) (stuck : Bool)

/-- What the n-th command meets, and for how many commands the card is at work from it on. -/
structure CardConduct where
  fault : Nat → CmdFault
  cycle : Nat → Nat
  erased : Block

/-- The card, with the response register and the memory that the transfers read and fill. -/
structure EmmcBus where
  cells : Emmc
  state : CardState
  busy : Nat
  count : Nat
  erase : EraseGroup
  pending : UInt32
  shown : UInt32
  readbuff : Blocks
  writebuff : Blocks
  step : Nat

namespace EmmcBus

def pass (s : EmmcBus) : EmmcBus :=
  if s.state = .data ∨ s.state = .prg then
    if s.busy = 0 then { s with state := .tran } else { s with busy := s.busy - 1 }
  else s

/-- Only a card that is idle takes commands other than `SEND_STATUS`. -/
def Hears (s : EmmcBus) (c : EmmcCmd) : Prop := s.state = .tran ∨ c.index = emmcCmdSendStatus

instance (s : EmmcBus) (c : EmmcCmd) : Decidable (s.Hears c) :=
  inferInstanceAs (Decidable (_ ∨ _))

/-- The error bits for a command out of the order of an erase. -/
def eraseBits (s : EmmcBus) (index : Nat) : UInt32 :=
  if index = emmcCmdSendStatus ∨ index = emmcCmdEraseGrpStart then 0
  else if index = emmcCmdEraseGrpEnd then
    match s.erase with
    | .start _ => 0
    | _ => emmcOcrEraseSeqErr
  else if index = emmcCmdErase then
    match s.erase with
    | .range _ _ => 0
    | _ => emmcOcrEraseSeqErr
  else if s.erase = .none then 0 else emmcOcrEraseReset

def status (s : EmmcBus) (index : Nat) : UInt32 :=
  s.state.code <<< 9 ||| s.pending ||| s.eraseBits index

/-- Blocks are moved in the numbers that `SET_BLOCK_COUNT` has announced. -/
def obey (w : CardConduct) (s : EmmcBus) (c : EmmcCmd) (phase : DataPhase) : EmmcBus :=
  if c.index = emmcCmdSendStatus then s
  else if c.index = emmcCmdEraseGrpStart then { s with erase := .start c.argument }
  else if c.index = emmcCmdEraseGrpEnd then { s with erase := s.erase.upTo c.argument }
  else if c.index = emmcCmdErase then
    match s.erase with
    | .range a b =>
      { s with
        cells := overlay (fun _ d => d) s.cells a (b + 1 - a) fun _ => w.erased
        erase := .none
        state := .prg
        busy := w.cycle s.step }
    | _ => { s with erase := .none }
  else if c.index = emmcCmdSetBlockCount then
    { s with erase := .none, count := c.argument % 2 ^ 16 }
  else if c.index = emmcCmdReadMultBlock then
    let readbuff :=
      match phase with
      | .none => s.readbuff
      | .moved =>
        overlay (fun _ d => d) s.readbuff 0 s.count fun i => s.cells (c.argument + i)
      | .broken junk _ => overlay (fun _ d => d) s.readbuff 0 s.count junk
    { s with erase := .none, state := .data, busy := w.cycle s.step, readbuff := readbuff }
  else if c.index = emmcCmdWriteMultBlock then
    match phase with
    | .none => { s with erase := .none, state := .rcv }
    | .moved =>
      { s with
        cells := overlay (fun _ d => d) s.cells c.argument s.count s.writebuff
        erase := .none
        state := .prg
        busy := w.cycle s.step }
    | .broken junk stuck =>
      { s with
        cells := overlay (fun _ d => d) s.cells c.argument s.count junk
        erase := .none
        state := if stuck then .rcv else .prg
        busy := w.cycle s.step }
  else { s with erase := .none }

def silent (s : EmmcBus) (status : UInt32) : CmdAnswer × EmmcBus :=
  (⟨.cmdtmout, 0, s.shown, .ok⟩,
    { s with pending := s.pending ||| (status &&& emmcOcrErrorbits) })

/-- The host takes part in the transfer when there is no error in the response. -/
def reply (w : CardConduct) (s : EmmcBus) (c : EmmcCmd) (transfer : EmmcError)
    (phase : DataPhase) : CmdAnswer × EmmcBus :=
  if s.Hears c then
    (⟨.cmdrecv, c.index, s.status c.index, transfer⟩,
      { s.obey w c (if r1Error (s.status c.index) = .ok then phase else .none) with
        pending := 0
        shown := s.status c.index })
  else s.silent emmcOcrIllegalCmd

def replyGarbled (w : CardConduct) (s : EmmcBus) (c : EmmcCmd) (shown : UInt32) :
    CmdAnswer × EmmcBus :=
  if s.Hears c then
    (⟨.ccrcerr, c.index, shown, .ok⟩, { s.obey w c .none with pending := 0, shown := shown })
  else s.silent emmcOcrIllegalCmd

def react (w : CardConduct) (s : EmmcBus) (c : EmmcCmd) : CmdAnswer × EmmcBus :=
  match w.fault s.step with
  | .none => s.reply w c .ok .moved
  | .lost status => s.silent status
  | .garbled shown => s.replyGarbled w c shown
  | .broken error junk stuck => s.reply w c error (.broken junk stuck)

def respond (w : CardConduct) (s : EmmcBus) (c : EmmcCmd) : CmdAnswer × EmmcBus :=
  ((s.pass.react w c).1, { (s.pass.react w c).2 with step := s.step + 1 })

end EmmcBus

end Lsc100
