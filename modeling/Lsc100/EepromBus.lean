import Mathlib.Algebra.Ring.Nat
import Lsc100.Basis.Paged
import Lsc100.Eeprom

/-! The transfers of `BSP_FM24C02.c` byte by byte on the bus, with a 24C04 at its end: two blocks
of 256 bytes that the device address selects, pages of 16 bytes. No fault of the bus occurs; the
chip leaves its address unanswered only while it stores a page. -/

namespace Lsc100

open Overlay Paged

inductive BusPhase
  | idle
  | wordAddress (block : Nat)
  | receiving
  | sending

/-- `latch` is what the cells will be after the next stop condition. `busy` is how often the chip
will not answer, and `cycle` how often it does not after a page. -/
structure Fm24c04 where
  cells : Nat → UInt8
  latch : Nat → UInt8
  pointer : Nat
  phase : BusPhase
  busy : Nat
  cycle : Nat

abbrev Bus (α : Type) := StateM Fm24c04 α

/-- The seven bits of the device address but the last. -/
def fm24cDeviceType : Nat := 0x28

def fm24cSize : Nat := 512

def i2cStartAddrWrite (dev7 : Nat) : Bus Bool := fun d =>
  if 0 < d.busy then (false, { d with busy := d.busy - 1, phase := .idle })
  else if dev7 / 2 = fm24cDeviceType then (true, { d with phase := .wordAddress (dev7 % 2) })
  else (false, d)

def i2cStartAddrRead (dev7 : Nat) : Bus Bool := fun d =>
  if 0 < d.busy then (false, { d with busy := d.busy - 1, phase := .idle })
  else if dev7 / 2 = fm24cDeviceType then
    (true, { d with phase := .sending, pointer := dev7 % 2 * 256 + d.pointer % 256 })
  else (false, d)

def i2cSendByteWait (data : UInt8) : Bus Bool := fun d =>
  match d.phase with
  | .wordAddress block =>
    (true, { d with phase := .receiving, pointer := block * 256 + data.toNat, latch := d.cells })
  | .receiving =>
    (true, { d with
      latch := Function.update d.latch d.pointer data
      -- the counter stays in the page
      pointer := d.pointer / 16 * 16 + (d.pointer + 1) % 16 })
  | _ => (false, d)

/-- Whether a byte came, and the byte. -/
def i2cRecvByte (ack : Bool) : Bus (Bool × UInt8) := fun d =>
  match d.phase with
  | .sending =>
    ((true, d.cells d.pointer),
      { d with pointer := (d.pointer + 1) % fm24cSize, phase := if ack then .sending else .idle })
  | _ => ((false, 0), d)

def i2cStop : Bus Unit := fun d =>
  match d.phase with
  | .receiving => ((), { d with cells := d.latch, busy := d.cycle, phase := .idle })
  | _ => ((), { d with phase := .idle })

/-- `us` is what is left of the time. -/
def eepromAckPoll (dev7 us : Nat) : Bus Bool :=
  if 0 < us then do
    if ← i2cStartAddrWrite dev7 then
      i2cStop
      pure true
    else
      i2cStop
      eepromAckPoll dev7 (if 50 < us then us - 50 else 0)
  else pure false
termination_by us
decreasing_by split <;> omega

def fm24cA2 : Nat := 0

def fm24cA1 : Nat := 0

def fm24cWriteTimeoutMs : Nat := 20

def devAddrWithBlock (memAddr : Nat) : Nat :=
  (0x50 ||| (fm24cA2 <<< 2) ||| (fm24cA1 <<< 1) ||| ((memAddr >>> 8) &&& 0x1)) % 256

/-- `if (!x) return false;` -/
def orFail (x next : Bus Bool) : Bus Bool := do
  if ← x then next else pure false

/-- `if (!x) { i2c_stop(); return false; }` -/
def orStop (x next : Bus Bool) : Bus Bool := do
  if ← x then next
  else
    i2cStop
    pure false

def sendBytes (data : Nat → UInt8) : Nat → Nat → Bus Bool → Bus Bool
  | _, 0, next => next
  | i, n + 1, next => orStop (i2cSendByteWait (data i)) (sendBytes data (i + 1) n next)

/-- The loop of `fm24c_write`. -/
def fm24cWritePages (addr : Nat) (data : Nat → UInt8) (len : Nat) : Bus Bool :=
  if 0 < len then
    let pageOff := addr &&& 0x0F
    let space := 16 - pageOff
    let chunk := if len < space then len else space
    let dev7 := devAddrWithBlock addr
    orFail (i2cStartAddrWrite dev7) <|
      orStop (i2cSendByteWait (UInt8.ofNat (addr &&& 0xFF))) <|
        sendBytes data 0 chunk <| do
          i2cStop
          orFail (eepromAckPoll dev7 (fm24cWriteTimeoutMs * 1000))
            (fm24cWritePages ((addr + chunk) % 2 ^ 16) (fun i => data (chunk + i)) (len - chunk))
  else pure true
termination_by len
decreasing_by
  have hmod : addr &&& 0x0F = addr % 16 := Nat.and_two_pow_sub_one_eq_mod addr 4
  rw [hmod]
  split <;> omega

def fm24cWriteBus (addr : Nat) (data : Nat → UInt8) (len : Nat) : Bus Bool :=
  if len = 0 then pure false else fm24cWritePages addr data len

/-- `chunk` bytes to the buffer, from `i` on. -/
def fm24cRecvBytes : Nat → Nat → (Nat → UInt8) → Bus (Bool × (Nat → UInt8))
  | 0, _, buf => do
    i2cStop
    pure (true, buf)
  | chunk + 1, i, buf => do
    let (ok, data) ← i2cRecvByte (chunk ≠ 0)
    if ok then fm24cRecvBytes chunk (i + 1) (Function.update buf i data)
    else
      i2cStop
      pure (false, buf)

def fm24cReadBus (addr : Nat) (buf : Nat → UInt8) (len : Nat) : Bus (Bool × (Nat → UInt8)) := do
  if len = 0 then pure (false, buf)
  else
    let dev7 := devAddrWithBlock addr
    if ← i2cStartAddrWrite dev7 then
      if ← i2cSendByteWait (UInt8.ofNat (addr &&& 0xFF)) then
        if ← i2cStartAddrRead dev7 then fm24cRecvBytes len 0 buf
        else
          i2cStop
          pure (false, buf)
      else
        i2cStop
        pure (false, buf)
    else pure (false, buf)

section Rules

variable {α β : Type} {x next : Bus Bool} {d d' : Fm24c04}

theorem bind_of {x : Bus α} {f : α → Bus β} {a : α} (h : x d = (a, d')) :
    (x >>= f) d = f a d' := by
  change f (x d).1 (x d).2 = f a d'
  rw [h]

theorem orFail_of (h : x d = (true, d')) : orFail x next d = next d' := by
  rw [orFail, bind_of h]
  rfl

theorem orStop_of (h : x d = (true, d')) : orStop x next d = next d' := by
  rw [orStop, bind_of h]
  rfl

end Rules

theorem devAddrWithBlock_eq (memAddr : Nat) :
    devAddrWithBlock memAddr = 0x50 + memAddr / 256 % 2 := by
  have hand : (memAddr >>> 8) &&& 0x1 = memAddr / 256 % 2 := by
    rw [Nat.shiftRight_eq_div_pow]
    exact Nat.and_two_pow_sub_one_eq_mod _ 1
  rw [devAddrWithBlock, hand, fm24cA2, fm24cA1]
  rcases Nat.mod_two_eq_zero_or_one (memAddr / 256) with h | h <;> rw [h] <;> rfl

/-- The chip is not busy, and will be back before the driver gives up. -/
structure Fm24c04.Ready (d : Fm24c04) : Prop where
  busy : d.busy = 0
  cycle : d.cycle < 400

/-- The chip after its address has been set for a write. -/
def Fm24c04.addressed (d : Fm24c04) (addr : Nat) : Fm24c04 :=
  { d with phase := .receiving, pointer := addr, latch := d.cells }

/-- The chip after `n` bytes for the page of `addr`. -/
def Fm24c04.sent (d : Fm24c04) (addr : Nat) (data : Nat → UInt8) (n : Nat) : Fm24c04 :=
  { d with
    phase := .receiving
    pointer := wrapAddr 16 addr n
    latch := wrapStore (fun _ b => b) 16 d.cells addr data n }

section Spec

variable {d : Fm24c04} {addr : Nat}

theorem i2cStartAddrWrite_of (hbusy : d.busy = 0) (addr : Nat) :
    i2cStartAddrWrite (devAddrWithBlock addr) d =
      (true, { d with phase := .wordAddress (addr / 256 % 2) }) := by
  have hmod := Nat.mod_lt (addr / 256) (by decide : 0 < 2)
  rw [i2cStartAddrWrite, if_neg (by omega), devAddrWithBlock_eq,
    if_pos (by rw [fm24cDeviceType]; omega),
    show (0x50 + addr / 256 % 2) % 2 = addr / 256 % 2 by omega]

theorem i2cSendByteWait_address (d : Fm24c04) (haddr : addr < fm24cSize) :
    i2cSendByteWait (UInt8.ofNat (addr &&& 0xFF))
        { d with phase := .wordAddress (addr / 256 % 2) } = (true, d.addressed addr) := by
  have hlt : addr < 512 := haddr
  have hand : addr &&& 0xFF = addr % 256 := Nat.and_two_pow_sub_one_eq_mod addr 8
  have hword : addr / 256 % 2 * 256 + (UInt8.ofNat (addr &&& 0xFF)).toNat = addr := by
    rw [hand, UInt8.toNat_ofNat']
    omega
  simp only [i2cSendByteWait, hword, Fm24c04.addressed]

theorem sent_zero (d : Fm24c04) (addr : Nat) (data : Nat → UInt8) :
    d.sent addr data 0 = d.addressed addr := by
  have hstart : wrapAddr 16 addr 0 = addr := wrapAddr_eq (by omega)
  simp only [Fm24c04.sent, Fm24c04.addressed, hstart, wrapStore]

theorem i2cSendByteWait_data (d : Fm24c04) (addr : Nat) (data : Nat → UInt8) (i : Nat) :
    i2cSendByteWait (data i) (d.sent addr data i) = (true, d.sent addr data (i + 1)) := by
  have hnext : wrapAddr 16 addr i / 16 * 16 + (wrapAddr 16 addr i + 1) % 16 =
      wrapAddr 16 addr (i + 1) := by
    simp only [wrapAddr]
    omega
  simp only [i2cSendByteWait, Fm24c04.sent, hnext, wrapStore]

theorem sendBytes_of (d : Fm24c04) (addr : Nat) (data : Nat → UInt8) (next : Bus Bool) (i n : Nat) :
    sendBytes data i n next (d.sent addr data i) = next (d.sent addr data (i + n)) := by
  induction n generalizing i with
  | zero => rfl
  | succ n ih =>
    rw [sendBytes, orStop_of (i2cSendByteWait_data d addr data i), ih,
      show i + 1 + n = i + (n + 1) by omega]

theorem eepromAckPoll_of (addr : Nat) {us : Nat} (h : 50 * d.busy < us) :
    eepromAckPoll (devAddrWithBlock addr) us d = (true, { d with busy := 0, phase := .idle }) := by
  generalize hbusy : d.busy = busy at h
  induction busy generalizing d us with
  | zero =>
    rw [eepromAckPoll, if_pos (by omega), bind_of (i2cStartAddrWrite_of hbusy addr), ← hbusy]
    rfl
  | succ busy ih =>
    have hstart : i2cStartAddrWrite (devAddrWithBlock addr) d =
        (false, { d with busy := busy, phase := .idle }) := by
      rw [i2cStartAddrWrite, if_pos (by omega), hbusy, Nat.add_sub_cancel]
    rw [eepromAckPoll, if_pos (by omega), if_pos (by omega : 50 < us), bind_of hstart]
    exact ih rfl (by omega)

/-- Every round of the loop stores what fits on the page. -/
theorem fm24cWritePages_of {len : Nat} (data : Nat → UInt8) (hready : d.Ready)
    (hend : addr + len ≤ fm24cSize) (hpos : 0 < len) : ∃ d', d'.Ready ∧
      d'.cells = overlay (fun _ b => b) d.cells addr (pieceLength 16 addr len) data ∧
      fm24cWritePages addr data len d =
        fm24cWritePages (addr + pieceLength 16 addr len)
          (fun i => data (pieceLength 16 addr len + i)) (len - pieceLength 16 addr len) d' := by
  have hlt : addr + len ≤ 512 := hend
  have hle : pieceLength 16 addr len ≤ len := pieceLength_le
  have hoff : addr &&& 0x0F = addr % 16 := Nat.and_two_pow_sub_one_eq_mod addr 4
  have hnext : (addr + pieceLength 16 addr len) % 2 ^ 16 = addr + pieceLength 16 addr len :=
    Nat.mod_eq_of_lt (by omega)
  have hstored : wrapStore (fun _ b => b) 16 d.cells addr data (pieceLength 16 addr len) =
      overlay (fun _ b => b) d.cells addr (pieceLength 16 addr len) data :=
    wrapStore_eq_overlay _ _ _ (mod_add_pieceLength (by decide))
  let stored := d.sent addr data (pieceLength 16 addr len)
  refine ⟨{ stored with cells := stored.latch, busy := 0, phase := .idle }, ⟨rfl, hready.cycle⟩,
    hstored, ?_⟩
  have hpoll : eepromAckPoll (devAddrWithBlock addr) (fm24cWriteTimeoutMs * 1000)
      { stored with cells := stored.latch, busy := stored.cycle, phase := .idle } =
      (true, { stored with cells := stored.latch, busy := 0, phase := .idle }) := by
    refine eepromAckPoll_of addr ?_
    have hcycle : d.cycle < 400 := hready.cycle
    change 50 * d.cycle < 20 * 1000
    omega
  conv =>
    lhs
    rw [fm24cWritePages, if_pos hpos]
  simp only [hoff, ite_eq_pieceLength, hnext]
  rw [orFail_of (i2cStartAddrWrite_of hready.busy addr),
    orStop_of (i2cSendByteWait_address d (by rw [fm24cSize]; omega)), ← sent_zero d addr data,
    sendBytes_of, Nat.zero_add]
  exact orFail_of hpoll

theorem fm24cWritePages_stores {len : Nat} (data : Nat → UInt8) (hready : d.Ready)
    (hend : addr + len ≤ fm24cSize) : ∃ d', d'.Ready ∧
      d'.cells = overlay (fun _ b => b) d.cells addr len data ∧
      fm24cWritePages addr data len d = (true, d') := by
  induction addr, len using piece_induction (by decide : 0 < 16) generalizing d data with
  | done addr =>
    refine ⟨d, hready, (overlay_zero _ _ _).symm, ?_⟩
    rw [fm24cWritePages, if_neg (Nat.lt_irrefl 0)]
    rfl
  | piece addr len hpos ih =>
    have hle : pieceLength 16 addr len ≤ len := pieceLength_le
    obtain ⟨d₁, hready₁, hcells₁, hround⟩ := fm24cWritePages_of data hready hend hpos
    obtain ⟨d₂, hready₂, hcells₂, hrest⟩ := ih _ hready₁ (by omega)
    refine ⟨d₂, hready₂, ?_, hround.trans hrest⟩
    rw [hcells₂, hcells₁, overlay_split _ _ _ _ hle]

theorem i2cStartAddrRead_of (hbusy : d.busy = 0) (haddr : addr < fm24cSize)
    (hpointer : d.pointer = addr) :
    i2cStartAddrRead (devAddrWithBlock addr) d = (true, { d with phase := .sending }) := by
  have hlt : addr < 512 := haddr
  have hselect : (0x50 + addr / 256 % 2) % 2 * 256 + d.pointer % 256 = d.pointer := by omega
  rw [i2cStartAddrRead, if_neg (by omega), devAddrWithBlock_eq,
    if_pos (by rw [fm24cDeviceType]; omega), hselect]

/-- The bytes come from successive cells, whatever block they are in. -/
theorem fm24cRecvBytes_of (chunk i : Nat) (buf : Nat → UInt8) (hpointer : d.pointer < fm24cSize)
    (hphase : d.phase = .sending ∨ chunk = 0 ∧ d.phase = .idle) :
    ∃ d', d'.cells = d.cells ∧ fm24cRecvBytes chunk i buf d =
      ((true, overlay (fun _ b => b) buf i chunk (fun k => d.cells ((d.pointer + k) % fm24cSize))),
        d') := by
  induction chunk generalizing d i buf with
  | zero =>
    have hstop : i2cStop d = ((), { d with phase := .idle }) := by
      rcases hphase with hsending | ⟨-, hidle⟩
      · simp only [i2cStop, hsending]
      · simp only [i2cStop, hidle]
    refine ⟨{ d with phase := .idle }, rfl, ?_⟩
    rw [fm24cRecvBytes, bind_of hstop, overlay_zero]
    rfl
  | succ chunk ih =>
    have hsending : d.phase = .sending := hphase.resolve_right fun h => Nat.succ_ne_zero chunk h.1
    let d₁ := { d with
      pointer := (d.pointer + 1) % fm24cSize
      phase := if decide (chunk ≠ 0) then .sending else .idle }
    have hrecv : i2cRecvByte (chunk ≠ 0) d = ((true, d.cells d.pointer), d₁) := by
      simp only [i2cRecvByte, hsending, d₁]
    have hphase₁ : d₁.phase = .sending ∨ chunk = 0 ∧ d₁.phase = .idle := by
      by_cases hlast : chunk = 0
      · exact .inr ⟨hlast, if_neg (by simp [hlast])⟩
      · exact .inl (if_pos (by simp [hlast]))
    obtain ⟨d₂, hcells, hrest⟩ := ih (i + 1) (Function.update buf i (d.cells d.pointer))
      (Nat.mod_lt _ (by decide)) hphase₁
    have hfirst : d.cells d.pointer = d.cells ((d.pointer + 0) % fm24cSize) := by
      rw [Nat.add_zero, Nat.mod_eq_of_lt hpointer]
    have hnext : ∀ k, (d₁.pointer + k) % fm24cSize = (d.pointer + (1 + k)) % fm24cSize := by
      intro k
      change ((d.pointer + 1) % 512 + k) % 512 = (d.pointer + (1 + k)) % 512
      omega
    simp only [hnext] at hrest
    refine ⟨d₂, hcells, ?_⟩
    rw [fm24cRecvBytes, bind_of hrecv, Nat.add_comm chunk 1,
      ← overlay_update buf fun k => d.cells ((d.pointer + k) % fm24cSize), ← hfirst]
    exact hrest

theorem fm24cReadBus_of {len : Nat} (buf : Nat → UInt8) (hready : d.Ready)
    (haddr : addr < fm24cSize) (hpos : 0 < len) :
    ∃ d', d'.cells = d.cells ∧ fm24cReadBus addr buf len d =
      ((true, overlay (fun _ b => b) buf 0 len (fun k => d.cells ((addr + k) % fm24cSize))),
        d') := by
  obtain ⟨d', hcells, hrecv⟩ := fm24cRecvBytes_of len 0 buf
    (d := { d.addressed addr with phase := .sending }) haddr (.inl rfl)
  refine ⟨d', hcells, ?_⟩
  rw [fm24cReadBus, if_neg (by omega), bind_of (i2cStartAddrWrite_of hready.busy addr)]
  simp only [if_true]
  rw [bind_of (i2cSendByteWait_address d haddr)]
  simp only [if_true]
  rw [bind_of (i2cStartAddrRead_of (d := d.addressed addr) hready.busy haddr rfl)]
  exact hrecv

end Spec

/-- With as many page writes as it takes, the page loop stores everything. -/
theorem fm24cWrite_all (cells : Nat → UInt8) (addr : Nat) (data : Nat → UInt8) {len pages : Nat}
    (h : len ≤ pages) :
    fm24cWrite cells addr data len pages = overlay (fun _ b => b) cells addr len data := by
  induction pages generalizing cells addr data len with
  | zero => rw [Nat.le_zero.mp h, fm24cWrite, overlay_zero]
  | succ pages ih =>
    rw [fm24cWrite]
    split
    · rename_i hpos
      have hle : pieceLength fm24cPageSize addr len ≤ len := pieceLength_le
      have hsome := pieceLength_pos (a := addr) (by decide : 0 < fm24cPageSize) hpos
      simp only [ite_eq_pieceLength]
      rw [ih _ _ _ (by omega), overlay_split _ _ _ _ hle]
    · rename_i hzero
      rw [show len = 0 by omega, overlay_zero]

/-- Undisturbed, the transfers on the bus are the writes and reads of the memory. -/
theorem fm24cWrite_bus {d : Fm24c04} (hready : d.Ready) {addr len : Nat} (hpos : 0 < len)
    (hend : addr + len ≤ fm24cSize) (data : Nat → UInt8) :
    (fm24cWriteBus addr data len d).2.cells = fm24cWrite d.cells addr data len len := by
  obtain ⟨d', -, hcells, hpages⟩ := fm24cWritePages_stores data hready hend
  rw [fm24cWriteBus, if_neg (by omega), hpages, fm24cWrite_all _ _ _ (Nat.le_refl len), hcells]

theorem fm24cRead_bus {d : Fm24c04} (hready : d.Ready) {addr len : Nat} (hpos : 0 < len)
    (hend : addr + len ≤ fm24cSize) {i2c : I2cRead} (hfree : i2c.Delivers len)
    (buf : Nat → UInt8) {i : Nat} (hi : i < len) :
    (fm24cReadBus addr buf len d).1.2 i = (fm24cRead i2c d.cells addr buf len).2 i := by
  have haddr : addr < fm24cSize := Nat.lt_of_lt_of_le (by omega) hend
  have hcell : (addr + i) % fm24cSize = addr + i := Nat.mod_eq_of_lt (by omega)
  obtain ⟨d', -, hread⟩ := fm24cReadBus_of buf hready haddr hpos
  rw [hread, fm24cRead_delivered hi (hfree.mono hi)]
  simp only
  rw [overlay_in _ _ _ (Nat.zero_le i) (by omega), Nat.sub_zero, hcell]

/-- `fm24c_write` stores the bytes and nothing else, and `fm24c_read` brings them back. -/
structure Fm24c04.StoresAndReads (d : Fm24c04) (addr : Nat) (data buf : Nat → UInt8) (len : Nat) :
    Prop where
  write : (fm24cWriteBus addr data len d).1 = true
  stored : ∀ i < len, (fm24cWriteBus addr data len d).2.cells (addr + i) = data i
  kept : ∀ x, x < addr ∨ addr + len ≤ x → (fm24cWriteBus addr data len d).2.cells x = d.cells x
  read : (fm24cReadBus addr buf len (fm24cWriteBus addr data len d).2).1.1 = true
  readBack : ∀ i < len, (fm24cReadBus addr buf len (fm24cWriteBus addr data len d).2).1.2 i = data i

/-- Writes in pages and reads in one piece address the same cells. -/
theorem fm24c_storesAndReads (d : Fm24c04) (hready : d.Ready) (addr len : Nat) (hpos : 0 < len)
    (hend : addr + len ≤ fm24cSize) (data buf : Nat → UInt8) :
    d.StoresAndReads addr data buf len := by
  have haddr : addr < fm24cSize := Nat.lt_of_lt_of_le (by omega) hend
  obtain ⟨d₁, hready₁, hcells₁, hpages⟩ := fm24cWritePages_stores data hready hend
  have hwrite : fm24cWriteBus addr data len d = (true, d₁) := by
    rw [fm24cWriteBus, if_neg (by omega), hpages]
  obtain ⟨d₂, hcells₂, hread⟩ := fm24cReadBus_of buf hready₁ haddr hpos
  refine ⟨?_, fun i hi => ?_, fun x hx => ?_, ?_, fun i hi => ?_⟩
  · rw [hwrite]
  · rw [hwrite, hcells₁, overlay_add _ _ _ hi]
  · rw [hwrite, hcells₁, overlay_out _ _ _ hx]
  · rw [hwrite, hread]
  · have hcell : (addr + i) % fm24cSize = addr + i := Nat.mod_eq_of_lt (by omega)
    rw [hwrite, hread]
    simp only
    rw [overlay_in _ _ _ (Nat.zero_le i) (by omega), Nat.sub_zero, hcell, hcells₁,
      overlay_add _ _ _ hi]

def blankFm24c04 : Fm24c04 := ⟨fun _ => 0xFF, fun _ => 0xFF, 0, .idle, 0, 300⟩

/-- 100 bytes across the end of the first block. -/
theorem fm24c_storesAndReads_across :
    blankFm24c04.StoresAndReads 200 (fun i => UInt8.ofNat i) (fun _ => 0) 100 :=
  fm24c_storesAndReads _ ⟨rfl, by decide⟩ _ _ (by decide) (by decide) _ _

end Lsc100
