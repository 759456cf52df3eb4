import Lsc100.FlashRuns

/-! Whole runs of the flash driver: any calls one after the other, with losses of power between
them, against the cells alone. -/

namespace Lsc100

open Polling Paged Overlay

/-- A function of the driver with what its caller passes. With `boot` the supply comes back and
`gd55b01ge_init` is called. -/
inductive FlashCall
  | boot
  | readJedecId
  | writeEnable
  | waitForWriteEnd
  | enter4byteAddrMode
  | exit4byteAddrMode
  | eraseSector (addr : UInt32)
  | eraseBlock32 (addr : UInt32)
  | eraseBlock64 (addr : UInt32)
  | eraseChip
  | pageProgram (addr : UInt32) (data : Nat → UInt8) (count : Nat)
  | writeData (addr : UInt32) (data : Nat → UInt8) (count : Nat)
  | readData (addr : UInt32) (buf : Nat → UInt8) (count : Nat)

inductive FlashReply
  | none
  | id (id : UInt32)
  | data (buf : Nat → UInt8)

/-- The call on the bus, with the value of `is_4byte_mode` before it and behind it. -/
def FlashCall.run (is4byteMode : Bool) : FlashCall → Spi (Bool × FlashReply)
  | boot => do
    send .power fun _ => done ()
    return (← gd55b01geInit, .none)
  | readJedecId => do return (is4byteMode, .id (← gd55b01geReadJedecId))
  | writeEnable => do
    gd55b01geWriteEnable
    return (is4byteMode, .none)
  | waitForWriteEnd => do
    gd55b01geWaitForWriteEnd
    return (is4byteMode, .none)
  | enter4byteAddrMode => do return (← gd55b01geEnter4byteAddrMode, .none)
  | exit4byteAddrMode => do return (← gd55b01geExit4byteAddrMode, .none)
  | eraseSector addr => do
    spiEraseSector is4byteMode addr
    return (is4byteMode, .none)
  | eraseBlock32 addr => do
    spiEraseBlock32 is4byteMode addr
    return (is4byteMode, .none)
  | eraseBlock64 addr => do
    spiEraseBlock64 is4byteMode addr
    return (is4byteMode, .none)
  | eraseChip => do
    spiEraseChip
    return (is4byteMode, .none)
  | pageProgram addr data count => do
    spiPageProgram is4byteMode addr data count
    return (is4byteMode, .none)
  | writeData addr data count => do
    spiWriteData is4byteMode addr data count
    return (is4byteMode, .none)
  | readData addr buf count => do
    return (is4byteMode, .data (← spiReadData is4byteMode addr buf count))

/-- The same on the cells. -/
def FlashCall.effect (is4byteMode : Bool) (cells : Nat → UInt8) :
    FlashCall → Bool × (Nat → UInt8) × FlashReply
  | boot => (true, cells, .none)
  | readJedecId => (is4byteMode, cells, .id gd55b01geJedecId)
  | writeEnable => (is4byteMode, cells, .none)
  | waitForWriteEnd => (is4byteMode, cells, .none)
  | enter4byteAddrMode => (true, cells, .none)
  | exit4byteAddrMode => (false, cells, .none)
  | eraseSector addr =>
    (is4byteMode, (FlashErase.sector (reachedAddr is4byteMode addr.toNat)).perform cells, .none)
  | eraseBlock32 addr =>
    (is4byteMode, (FlashErase.block32 (reachedAddr is4byteMode addr.toNat)).perform cells, .none)
  | eraseBlock64 addr =>
    (is4byteMode, (FlashErase.block64 (reachedAddr is4byteMode addr.toNat)).perform cells, .none)
  | eraseChip => (is4byteMode, FlashErase.chip.perform cells, .none)
  | pageProgram addr data count =>
    (is4byteMode,
      ((⟨addr.toNat, data, count⟩ : PageProgram).reaches is4byteMode).perform cells, .none)
  | writeData addr data count =>
    (is4byteMode, reachedWriteData is4byteMode cells addr.toNat data count, .none)
  | readData addr buf count =>
    (is4byteMode, cells,
      .data (chipReadData cells (reachedAddr is4byteMode addr.toNat) buf count))

def runCalls (is4byteMode : Bool) : List FlashCall → Spi (Bool × List FlashReply)
  | [] => done (is4byteMode, [])
  | call :: calls => do
    let r ← call.run is4byteMode
    let rest ← runCalls r.1 calls
    return (rest.1, r.2 :: rest.2)

def effects (is4byteMode : Bool) (cells : Nat → UInt8) :
    List FlashCall → Bool × (Nat → UInt8) × List FlashReply
  | [] => (is4byteMode, cells, [])
  | call :: calls =>
    let e := call.effect is4byteMode cells
    let rest := effects e.1 e.2.1 calls
    (rest.1, rest.2.1, e.2.2 :: rest.2.2)

/-- The chip without power. -/
def NorChip.off (cells : Nat → UInt8) : NorChip :=
  ⟨cells, false, false, 0, 0, 0, .deselected⟩

section Run

variable {cycle : Nat → Nat} {c : NorChip} {is4byteMode : Bool}

/-- What one call comes to: `r` is returned and `d` is the chip behind it. -/
structure FlashCall.Done (call : FlashCall) (is4byteMode : Bool) (before : Nat → UInt8)
    (r : Bool × FlashReply) (d : NorChip) : Prop where
  ready : d.Ready r.1
  mode : r.1 = (call.effect is4byteMode before).1
  cells : d.cells = (call.effect is4byteMode before).2.1
  reply : r.2 = (call.effect is4byteMode before).2.2

theorem enter4byteAddrMode_does {post : Bool → NorChip → Prop} (hbusy : c.busy = 0)
    (h : post true { c with fourByte := true, frame := .deselected }) :
    Does cycle gd55b01geEnter4byteAddrMode c post :=
  select_does enter4bModeCmd hbusy (.bind (deselect_does rfl (.done h)))

theorem exit4byteAddrMode_does {post : Bool → NorChip → Prop} (hbusy : c.busy = 0)
    (h : post false { c with fourByte := false, frame := .deselected }) :
    Does cycle gd55b01geExit4byteAddrMode c post :=
  select_does exit4bModeCmd hbusy (.bind (deselect_does rfl (.done h)))

theorem init_does {post : Bool → NorChip → Prop} (hbusy : c.busy = 0)
    (hframe : c.frame = .deselected)
    (h : post true { c with fourByte := true, frame := .deselected }) :
    Does cycle gd55b01geInit c post := by
  have hhigh : (NorChip.respond cycle c .csHigh).2 = c := by
    simp only [NorChip.respond, hframe]
    rw [← hframe]
  refine .send ?_
  rw [hhigh]
  exact enter4byteAddrMode_does hbusy h

theorem recv_does {opcode : UInt8} {args : List UInt8} {post : UInt8 → NorChip → Prop}
    (hbusy : c.busy = 0) (hframe : c.frame = .command opcode args)
    (h : post (c.output opcode args) { c with frame := .command opcode (args ++ [0xFF]) }) :
    Does cycle (spiSendRecvByte 0xFF) c post := by
  have hrespond : NorChip.respond cycle c (.byte 0xFF) =
      (c.output opcode args, { c with frame := .command opcode (args ++ [0xFF]) }) := by
    simp only [NorChip.respond, hframe, hbusy]
  refine .send (.done ?_)
  rw [hrespond]
  exact h

theorem output_rdidCmd (c : NorChip) (args : List UInt8) :
    c.output rdidCmd args = [0xC8, 0x47, 0x1B].getD args.length 0xFF := by
  rw [NorChip.output, if_neg (by decide), if_pos rfl]

theorem execute_rdidCmd (c : NorChip) (args : List UInt8) : c.execute cycle rdidCmd args = c := by
  simp [NorChip.execute, rdidCmd, ppCmd, be64Cmd, be32Cmd, seCmd, wrenCmd, enter4bModeCmd,
    exit4bModeCmd, ceCmd]

theorem readJedecId_does {post : UInt32 → NorChip → Prop} (hc : c.Ready is4byteMode)
    (h : post gd55b01geJedecId c) : Does cycle gd55b01geReadJedecId c post := by
  refine select_does rdidCmd hc.busy (.bind (recv_does hc.busy rfl ?_))
  refine .bind (recv_does hc.busy rfl (.bind (recv_does hc.busy rfl ?_)))
  refine .bind (deselect_does rfl (.done ?_))
  rw [execute_rdidCmd, output_rdidCmd, output_rdidCmd, output_rdidCmd, ← hc.frame]
  exact h

theorem FlashCall.run_does (hc : c.Ready is4byteMode) (call : FlashCall) :
    Does cycle (call.run is4byteMode) c (call.Done is4byteMode c.cells) := by
  cases call with
  | boot =>
    refine .bind (.send (.done (.bind (init_does rfl rfl ?_))))
    exact .done ⟨⟨rfl, rfl, rfl, hc.refused⟩, rfl, rfl, rfl⟩
  | readJedecId =>
    refine .bind (readJedecId_does hc ?_)
    exact .done ⟨hc, rfl, rfl, rfl⟩
  | writeEnable =>
    refine .bind (writeEnable_does hc.busy hc.frame ?_)
    exact .done ⟨⟨hc.busy, hc.frame, hc.mode, hc.refused⟩, rfl, rfl, rfl⟩
  | waitForWriteEnd =>
    refine .bind (wait_does ?_)
    exact .done ⟨⟨rfl, rfl, hc.mode, hc.refused⟩, rfl, rfl, rfl⟩
  | enter4byteAddrMode =>
    refine .bind (enter4byteAddrMode_does hc.busy ?_)
    exact .done ⟨⟨hc.busy, rfl, rfl, hc.refused⟩, rfl, rfl, rfl⟩
  | exit4byteAddrMode =>
    refine .bind (exit4byteAddrMode_does hc.busy ?_)
    exact .done ⟨⟨hc.busy, rfl, rfl, hc.refused⟩, rfl, rfl, rfl⟩
  | eraseSector addr =>
    exact .bind (eraseSector_does hc addr fun d hd hcells => .done ⟨hd, rfl, hcells, rfl⟩)
  | eraseBlock32 addr =>
    exact .bind (eraseBlock32_does hc addr fun d hd hcells => .done ⟨hd, rfl, hcells, rfl⟩)
  | eraseBlock64 addr =>
    exact .bind (eraseBlock64_does hc addr fun d hd hcells => .done ⟨hd, rfl, hcells, rfl⟩)
  | eraseChip => exact .bind (eraseChip_does hc fun d hd hcells => .done ⟨hd, rfl, hcells, rfl⟩)
  | pageProgram addr data count =>
    exact .bind (pageProgram_does hc addr data count fun d hd hcells =>
      .done ⟨hd, rfl, hcells, rfl⟩)
  | writeData addr data count =>
    exact .bind (writeData_does hc addr data count fun d hd hcells =>
      .done ⟨hd, rfl, hcells, rfl⟩)
  | readData addr buf count =>
    exact .bind (readData_does hc addr buf count fun d hd hcells =>
      .done ⟨hd, rfl, hcells, rfl⟩)

theorem runCalls_does (calls : List FlashCall) (hc : c.Ready is4byteMode)
    {post : Bool × List FlashReply → NorChip → Prop}
    (h : ∀ d : NorChip, d.Ready (effects is4byteMode c.cells calls).1 →
      d.cells = (effects is4byteMode c.cells calls).2.1 →
      post ((effects is4byteMode c.cells calls).1, (effects is4byteMode c.cells calls).2.2) d) :
    Does cycle (runCalls is4byteMode calls) c post := by
  induction calls generalizing c is4byteMode post with
  | nil => exact .done (h c hc rfl)
  | cons call calls ih =>
    refine .bind ((call.run_does hc).mono fun r d hdone => ?_)
    obtain ⟨hready, hmode, hcells, hreply⟩ := hdone
    refine .bind (ih hready fun e he hcells' => .done ?_)
    rw [hmode, hcells] at he hcells' ⊢
    rw [hreply]
    exact h e he hcells'

end Run

/-- What a run of the driver on the bus comes to: the replies and the cells are those of `e`. The
chip is in the address mode the driver takes it to be in and at rest, and has refused nothing. -/
structure DriverRun (e : Bool × (Nat → UInt8) × List FlashReply) (r : Bool × List FlashReply)
    (d : NorChip) : Prop where
  replies : r.2 = e.2.2
  cells : d.cells = e.2.1
  mode : r.1 = e.1 ∧ d.fourByte = r.1
  atRest : d.busy = 0 ∧ d.frame = .deselected
  refused : d.refused = 0

/-- From power-on every run of the driver ends, however long the chip takes for each erase and each
page program, and does and returns what the calls do to the cells. No command is sent while the
chip is busy, and none that writes without the write enable. -/
theorem flashDriver_runs (cycle : Nat → Nat) (cells : Nat → UInt8) (calls : List FlashCall) :
    Achieves wipCleared (NorChip.respond cycle) (runCalls false (.boot :: calls)) (.off cells)
      (DriverRun (effects false cells (.boot :: calls))) := by
  have hoff : (NorChip.off cells).Ready false := ⟨rfl, rfl, rfl, rfl⟩
  exact runCalls_does _ hoff fun d hd hcells =>
    ⟨rfl, hcells, ⟨rfl, hd.mode⟩, ⟨hd.busy, hd.frame⟩, hd.refused⟩

/-- What the application does with the flash. -/
inductive FlashUse
  | boot
  | eraseChip
  | writeData (addr : Nat) (data : Nat → UInt8) (count : Nat)
  | readData (addr : Nat) (buf : Nat → UInt8) (count : Nat)

namespace FlashUse

def Inside : FlashUse → Prop
  | writeData addr _ count | readData addr _ count => addr + count ≤ gd55b01geTotalSize
  | _ => True

def call : FlashUse → FlashCall
  | boot => .boot
  | eraseChip => .eraseChip
  | writeData addr data count => .writeData (UInt32.ofNat addr) data count
  | readData addr buf count => .readData (UInt32.ofNat addr) buf count

/-- The same on the flash as the rest of the program is modelled with it. -/
def onFlash (f : Flash) : FlashUse → Flash × FlashReply
  | boot => (f, .none)
  | eraseChip => (gd55b01geEraseChip f, .none)
  | writeData addr data count => (gd55b01geWriteData f addr data count, .none)
  | readData addr buf count =>
    (f, .data (overlay (fun _ b => b) buf 0 count (gd55b01geReadData f addr)))

end FlashUse

def usesOnFlash (f : Flash) : List FlashUse → Flash × List FlashReply
  | [] => (f, [])
  | use :: uses =>
    let r := use.onFlash f
    let rest := usesOnFlash r.1 uses
    (rest.1, r.2 :: rest.2)

section Uses

variable {cells : Nat → UInt8} {f : Flash}

theorem reachedAddr_true {addr : Nat} (h : addr < gd55b01geTotalSize) :
    reachedAddr true addr = addr := Nat.mod_eq_of_lt h

theorem reachedWriteData_true (cells : Nat → UInt8) (addr : Nat) (data : Nat → UInt8)
    (count : Nat) :
    reachedWriteData true cells addr data count = chipWriteData cells addr data count := by
  have hreaches (p : PageProgram) (cells : Nat → UInt8) :
      (p.reaches true).perform cells = p.perform cells := by
    simp only [PageProgram.perform, PageProgram.reaches, reachedAddr, if_true, Nat.mod_mod]
  simp only [reachedWriteData, chipWriteData, hreaches]

theorem toNat_addr {addr count : Nat} (h : addr + count ≤ gd55b01geTotalSize) :
    (UInt32.ofNat addr).toNat = addr := by
  have htotal : gd55b01geTotalSize = 2 ^ 27 := rfl
  rw [UInt32.toNat_ofNat']
  omega

/-- The cells of the chip are those of the flash. -/
def SameCells (cells : Nat → UInt8) (f : Flash) : Prop :=
  ∀ x < gd55b01geTotalSize, cells x = f.cells x

theorem FlashUse.effect_onFlash (h : SameCells cells f) {use : FlashUse} (hin : use.Inside) :
    (use.call.effect true cells).1 = true ∧
      SameCells (use.call.effect true cells).2.1 (use.onFlash f).1 ∧
      (use.call.effect true cells).2.2 = (use.onFlash f).2 := by
  cases use with
  | boot => exact ⟨rfl, h, rfl⟩
  | eraseChip =>
    refine ⟨rfl, fun x hx => ?_, rfl⟩
    have hcovers : FlashErase.chip.Covers x := by
      simp [FlashErase.Covers, FlashErase.area, Nat.div_eq_of_lt hx]
    exact if_pos hcovers
  | writeData addr data count =>
    refine ⟨rfl, fun x hx => ?_, rfl⟩
    simp only [call, FlashCall.effect, onFlash]
    rw [toNat_addr hin, reachedWriteData_true, chipWriteData_eq cells hin, gd55b01geWriteData_cells,
      overlay, overlay, h x hx]
  | readData addr buf count =>
    refine ⟨rfl, h, ?_⟩
    simp only [call, FlashCall.effect, onFlash]
    rw [toNat_addr hin]
    congr 1
    refine overlay_congr _ _ fun i hi => ?_
    have hlt : addr + i < gd55b01geTotalSize := Nat.lt_of_lt_of_le (Nat.add_lt_add_left hi _) hin
    rw [reachedAddr_true (Nat.lt_of_le_of_lt (Nat.le_add_right _ _) hlt), Nat.mod_eq_of_lt hlt,
      h _ hlt]
    rfl

theorem effects_onFlash (h : SameCells cells f) {uses : List FlashUse}
    (hin : ∀ use ∈ uses, use.Inside) :
    SameCells (effects true cells (uses.map FlashUse.call)).2.1 (usesOnFlash f uses).1 ∧
      (effects true cells (uses.map FlashUse.call)).2.2 = (usesOnFlash f uses).2 := by
  induction uses generalizing cells f with
  | nil => exact ⟨h, rfl⟩
  | cons use uses ih =>
    obtain ⟨huse, hrest⟩ := List.forall_mem_cons.mp hin
    obtain ⟨hmode, hcells, hreply⟩ := FlashUse.effect_onFlash h huse
    obtain ⟨hcells', hreplies⟩ := ih hcells hrest
    simp only [List.map_cons, effects, usesOnFlash, hmode]
    exact ⟨hcells', congrArg₂ List.cons hreply hreplies⟩

end Uses

/-- Down on the bus the application gets from the flash what it gets from `Flash`, and the cells
become the same, as long as it keeps to the size of the chip. -/
theorem flashUses_onBus (cycle : Nat → Nat) (f : Flash) (uses : List FlashUse)
    (hin : ∀ use ∈ uses, use.Inside) :
    Achieves wipCleared (NorChip.respond cycle)
      (runCalls false (.boot :: uses.map FlashUse.call)) (.off f.cells) fun r d =>
        r.2 = .none :: (usesOnFlash f uses).2 ∧ SameCells d.cells (usesOnFlash f uses).1 := by
  have hoff : (NorChip.off f.cells).Ready false := ⟨rfl, rfl, rfl, rfl⟩
  obtain ⟨hcells, hreplies⟩ := effects_onFlash (show SameCells f.cells f from fun _ _ => rfl) hin
  refine runCalls_does _ hoff fun d hd hd' => ⟨congrArg (List.cons FlashReply.none) hreplies, ?_⟩
  rw [hd']
  exact hcells

theorem flashUses_onBus_across :
    Achieves wipCleared (NorChip.respond fun _ => 7)
      (runCalls false (.boot :: [FlashUse.eraseChip, .writeData 1000 (fun i => UInt8.ofNat i) 300,
        .readData 1100 (fun _ => 0) 50].map FlashUse.call)) (.off Flash.erased.cells) fun r d =>
        r.2 = .none :: (usesOnFlash .erased [.eraseChip,
          .writeData 1000 (fun i => UInt8.ofNat i) 300, .readData 1100 (fun _ => 0) 50]).2 ∧
          SameCells d.cells (usesOnFlash .erased [.eraseChip,
            .writeData 1000 (fun i => UInt8.ofNat i) 300, .readData 1100 (fun _ => 0) 50]).1 :=
  flashUses_onBus (fun _ => 7) .erased _ (by simp [FlashUse.Inside, gd55b01geTotalSize])

end Lsc100
