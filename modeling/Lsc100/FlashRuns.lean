import Lsc100.FlashSpi

/-! What the driver of the NOR flash achieves on the bus. The chip is ready behind every call, and
in the address mode that `is_4byte_mode` says. -/

namespace Lsc100

open Polling Paged Overlay

/-- The address that reaches the chip: in three bytes what is above them is lost. -/
def reachedAddr (is4byteMode : Bool) (addr : Nat) : Nat :=
  (if is4byteMode then addr else addr % 2 ^ 24) % gd55b01geTotalSize

structure NorChip.Ready (is4byteMode : Bool) (c : NorChip) : Prop where
  busy : c.busy = 0
  frame : c.frame = .deselected
  mode : c.fourByte = is4byteMode
  refused : c.refused = 0

abbrev Does (cycle : Nat → Nat) {α : Type} (p : Spi α) (c : NorChip) (post : α → NorChip → Prop) :
    Prop := Achieves wipCleared (NorChip.respond cycle) p c post

def addressBytes (is4byteMode : Bool) (addr : UInt32) : List UInt8 :=
  (if is4byteMode then [((addr &&& 0xFF000000) >>> 24).toUInt8] else []) ++
    [((addr &&& 0xFF0000) >>> 16).toUInt8, ((addr &&& 0xFF00) >>> 8).toUInt8,
      (addr &&& 0xFF).toUInt8]

section Frames

variable {cycle : Nat → Nat} {c : NorChip} {α : Type} {post : α → NorChip → Prop}

theorem sendAddress_eq (is4byteMode : Bool) (addr : UInt32) :
    gd55b01geSendAddress is4byteMode addr = sendAll (addressBytes is4byteMode addr) := by
  cases is4byteMode <;> rfl

theorem length_addressBytes (addr : UInt32) :
    (addressBytes c.fourByte addr).length = c.addrLen := by
  rw [addressBytes, NorChip.addrLen]
  cases c.fourByte <;> rfl

theorem toNat_masked (x mask : UInt32) {k : Nat} (hk : k < 32) (hmask : mask.toNat >>> k = 255) :
    ((x &&& mask) >>> UInt32.ofNat k).toUInt8.toNat = x.toNat / 2 ^ k % 256 := by
  have hshift : (UInt32.ofNat k).toNat % 32 = k := by
    rw [UInt32.toNat_ofNat']
    omega
  rw [UInt32.toNat_toUInt8, UInt32.toNat_shiftRight, hshift, UInt32.toNat_and,
    Nat.shiftRight_and_distrib, hmask, Nat.and_two_pow_sub_one_eq_mod _ 8, Nat.mod_mod,
    Nat.shiftRight_eq_div_pow]

/-- What the chip makes of the bytes of an address and what follows them. -/
theorem address_append (addr : UInt32) (bytes : List UInt8) :
    c.address (addressBytes c.fourByte addr ++ bytes) = reachedAddr c.fourByte addr.toNat := by
  have hlt := addr.toNat_lt
  have h24 : ((addr &&& 0xFF000000) >>> 24).toUInt8.toNat = addr.toNat / 2 ^ 24 % 256 :=
    toNat_masked addr 0xFF000000 (by decide) (by decide)
  have h16 : ((addr &&& 0xFF0000) >>> 16).toUInt8.toNat = addr.toNat / 2 ^ 16 % 256 :=
    toNat_masked addr 0xFF0000 (by decide) (by decide)
  have h8 : ((addr &&& 0xFF00) >>> 8).toUInt8.toNat = addr.toNat / 2 ^ 8 % 256 :=
    toNat_masked addr 0xFF00 (by decide) (by decide)
  have h0 : (addr &&& 0xFF).toUInt8.toNat = addr.toNat % 256 := by
    rw [UInt32.toNat_toUInt8, UInt32.toNat_and]
    change (addr.toNat &&& 2 ^ 8 - 1) % 256 = _
    rw [Nat.and_two_pow_sub_one_eq_mod, Nat.mod_mod]
  rw [NorChip.address, ← length_addressBytes addr, List.take_left' rfl, reachedAddr, addressBytes]
  congr 1
  cases c.fourByte with
  | false =>
    simp only [Bool.false_eq_true, if_false, List.nil_append, List.foldl_cons, List.foldl_nil, h16,
      h8, h0]
    omega
  | true =>
    simp only [if_true, List.cons_append, List.nil_append, List.foldl_cons, List.foldl_nil, h24,
      h16, h8, h0]
    omega

/-- With the chip selected and a command begun, bytes only add to it. -/
theorem sendAll_does {opcode : UInt8} {args : List UInt8} (bytes : List UInt8)
    {post : Unit → NorChip → Prop} (hbusy : c.busy = 0) (hframe : c.frame = .command opcode args)
    (h : post () { c with frame := .command opcode (args ++ bytes) }) :
    Does cycle (sendAll bytes) c post := by
  induction bytes generalizing c args with
  | nil =>
    rw [List.append_nil, ← hframe] at h
    exact .done h
  | cons b bytes ih =>
    refine .send (ih ?_ (show _ = NorFrame.command opcode (args ++ [b]) from ?_) ?_)
    · simp only [NorChip.respond, hframe, hbusy]
    · simp only [NorChip.respond, hframe]
    · simpa [NorChip.respond, hframe, hbusy] using h

theorem select_does {k : Spi α} (opcode : UInt8) (hbusy : c.busy = 0)
    (h : Does cycle k { c with frame := .command opcode [] } post) :
    Does cycle (do flashCsLow; let _ ← spiSendRecvByte opcode; k) c post := by
  have hbyte : (NorChip.respond cycle { c with frame := .opcode } (.byte opcode)).2 =
      { c with frame := .command opcode [] } := by
    simp [NorChip.respond, hbusy]
  exact .send (.send (hbyte ▸ h))

theorem deselect_does {opcode : UInt8} {args : List UInt8} {post : Unit → NorChip → Prop}
    (hframe : c.frame = .command opcode args)
    (h : post () { c.execute cycle opcode args with frame := .deselected }) :
    Does cycle flashCsHigh c post := by
  have hhigh : (NorChip.respond cycle c .csHigh).2 =
      { c.execute cycle opcode args with frame := .deselected } := by
    simp only [NorChip.respond, hframe]
  exact .send (.done (hhigh ▸ h))

theorem wipCleared_status (n : Nat) (wel : Bool) :
    wipCleared () ((if 0 < n then wipFlagMask else 0) ||| if wel then welFlagMask else 0) =
      decide (n = 0) := by
  rcases Nat.eq_zero_or_pos n with rfl | hpos
  · cases wel <;> decide
  · rw [if_pos hpos, decide_eq_false (Nat.ne_of_gt hpos)]
    cases wel <;> decide

/-- Whatever the chip is at work on, it is done when the wait has come to its end. -/
theorem wait_does {post : Unit → NorChip → Prop}
    (h : post () { c with busy := 0, frame := .deselected }) :
    Does cycle gd55b01geWaitForWriteEnd c post := by
  have hbegin : (NorChip.respond cycle { c with frame := .opcode } (.byte rdsr1Cmd)).2 =
      { c with busy := c.busy - 1, frame := .command rdsr1Cmd [] } := by
    simp [NorChip.respond]
  refine .send (.send ?_)
  change Does cycle _ (NorChip.respond cycle { c with frame := .opcode } (.byte rdsr1Cmd)).2 post
  rw [hbegin]
  refine Achieves.wait
    (fun s => ∃ n args, s = { c with busy := n, frame := .command rdsr1Cmd args }) NorChip.busy
    ?_ ⟨_, _, rfl⟩
  rintro s ⟨n, args, rfl⟩
  have hstatus := wipCleared_status n c.wel
  rcases Nat.eq_zero_or_pos n with rfl | hpos
  · exact .inl ⟨hstatus, deselect_does rfl h⟩
  · refine .inr ⟨?_, ⟨n - 1, args ++ [0xFF], rfl⟩, Nat.sub_lt hpos Nat.one_pos⟩
    exact hstatus.trans (decide_eq_false (Nat.ne_of_gt hpos))

theorem writeEnable_does {post : Unit → NorChip → Prop} (hbusy : c.busy = 0)
    (hframe : c.frame = .deselected) (h : post () { c with wel := true }) :
    Does cycle gd55b01geWriteEnable c post := by
  refine select_does wrenCmd hbusy (deselect_does rfl ?_)
  simpa [NorChip.execute, hframe] using h

end Frames

section Operations

variable {cycle : Nat → Nat} {c : NorChip} {is4byteMode : Bool} {α : Type}

/-- The chip with writing enabled, in the middle of a command. -/
def NorChip.told (c : NorChip) (opcode : UInt8) (args : List UInt8) : NorChip :=
  { c with wel := true, frame := .command opcode args }

theorem begin_does {k : Spi α} {post : α → NorChip → Prop} (hc : c.Ready is4byteMode)
    (opcode : UInt8) (h : Does cycle k (c.told opcode []) post) :
    Does cycle (do gd55b01geWriteEnable; flashCsLow; let _ ← spiSendRecvByte opcode; k) c post :=
  .bind (writeEnable_does hc.busy hc.frame (select_does opcode hc.busy h))

/-- The chip starts and is waited for. -/
theorem end_does {post : Unit → NorChip → Prop} (hc : c.Ready is4byteMode) {opcode : UInt8}
    {args : List UInt8} {f : (Nat → UInt8) → Nat → UInt8}
    (hexec : (c.told opcode args).execute cycle opcode args = (c.told opcode args).start cycle f)
    (h : ∀ d : NorChip, d.Ready is4byteMode → d.cells = f c.cells → post () d) :
    Does cycle (do flashCsHigh; gd55b01geWaitForWriteEnd) (c.told opcode args) post := by
  refine .bind (deselect_does rfl (wait_does ?_))
  rw [hexec]
  exact h _ ⟨rfl, rfl, hc.mode, hc.refused⟩ rfl

theorem sendAddress_does {post : Unit → NorChip → Prop} (hc : c.Ready is4byteMode) {opcode : UInt8}
    (addr : UInt32) (h : post () (c.told opcode (addressBytes is4byteMode addr))) :
    Does cycle (gd55b01geSendAddress is4byteMode addr) (c.told opcode []) post := by
  rw [sendAddress_eq]
  exact sendAll_does _ hc.busy rfl h

theorem told_address (hc : c.Ready is4byteMode) (opcode : UInt8) (addr : UInt32)
    (bytes : List UInt8) :
    (c.told opcode (addressBytes is4byteMode addr ++ bytes)).address
      (addressBytes is4byteMode addr ++ bytes) = reachedAddr is4byteMode addr.toNat := by
  obtain rfl := hc.mode
  exact address_append (c := c.told opcode _) addr bytes

theorem told_addrLen (hc : c.Ready is4byteMode) (opcode : UInt8) (addr : UInt32)
    (bytes : List UInt8) :
    (addressBytes is4byteMode addr ++ bytes).length =
      (c.told opcode (addressBytes is4byteMode addr ++ bytes)).addrLen + bytes.length := by
  obtain rfl := hc.mode
  rw [List.length_append]
  exact congrArg (· + bytes.length) (length_addressBytes (c := c.told opcode _) addr)

theorem told_drop (hc : c.Ready is4byteMode) (opcode : UInt8) (addr : UInt32)
    (bytes : List UInt8) :
    (addressBytes is4byteMode addr ++ bytes).drop
      (c.told opcode (addressBytes is4byteMode addr ++ bytes)).addrLen = bytes := by
  obtain rfl := hc.mode
  exact List.drop_left' (length_addressBytes (c := c.told opcode _) addr)

theorem eraseWith_does {post : Unit → NorChip → Prop} (hc : c.Ready is4byteMode) {cmd : UInt8}
    (addr : UInt32) {erase : Nat → FlashErase}
    (hcmd : ∀ (d : NorChip) args, args ≠ [] → args.length = d.addrLen →
      d.execute cycle cmd args = d.start cycle (erase (d.address args)).perform)
    (h : ∀ d : NorChip, d.Ready is4byteMode →
      d.cells = (erase (reachedAddr is4byteMode addr.toNat)).perform c.cells → post () d) :
    Does cycle (eraseWith is4byteMode cmd addr) c post := by
  refine begin_does hc cmd (.bind (sendAddress_does hc addr (end_does hc ?_ h)))
  have haddr := told_address hc cmd addr []
  have hlen := told_addrLen hc cmd addr []
  rw [List.append_nil] at haddr hlen
  rw [hcmd _ _ (by simp [addressBytes]) hlen, haddr]

theorem eraseSector_does {post : Unit → NorChip → Prop} (hc : c.Ready is4byteMode) (addr : UInt32)
    (h : ∀ d : NorChip, d.Ready is4byteMode → d.cells =
      (FlashErase.sector (reachedAddr is4byteMode addr.toNat)).perform c.cells → post () d) :
    Does cycle (spiEraseSector is4byteMode addr) c post := by
  refine eraseWith_does hc addr (fun d args hargs hlen => ?_) h
  simp [NorChip.execute, seCmd, wrenCmd, enter4bModeCmd, exit4bModeCmd, ceCmd, hlen]

theorem eraseBlock32_does {post : Unit → NorChip → Prop} (hc : c.Ready is4byteMode)
    (addr : UInt32)
    (h : ∀ d : NorChip, d.Ready is4byteMode → d.cells =
      (FlashErase.block32 (reachedAddr is4byteMode addr.toNat)).perform c.cells → post () d) :
    Does cycle (spiEraseBlock32 is4byteMode addr) c post := by
  refine eraseWith_does hc addr (fun d args hargs hlen => ?_) h
  simp [NorChip.execute, be32Cmd, seCmd, wrenCmd, enter4bModeCmd, exit4bModeCmd, ceCmd, hlen]

theorem eraseBlock64_does {post : Unit → NorChip → Prop} (hc : c.Ready is4byteMode)
    (addr : UInt32)
    (h : ∀ d : NorChip, d.Ready is4byteMode → d.cells =
      (FlashErase.block64 (reachedAddr is4byteMode addr.toNat)).perform c.cells → post () d) :
    Does cycle (spiEraseBlock64 is4byteMode addr) c post := by
  refine eraseWith_does hc addr (fun d args hargs hlen => ?_) h
  simp [NorChip.execute, be64Cmd, be32Cmd, seCmd, wrenCmd, enter4bModeCmd, exit4bModeCmd, ceCmd,
    hlen]

theorem eraseChip_does {post : Unit → NorChip → Prop} (hc : c.Ready is4byteMode)
    (h : ∀ d : NorChip, d.Ready is4byteMode → d.cells = FlashErase.chip.perform c.cells →
      post () d) : Does cycle spiEraseChip c post := by
  refine begin_does hc ceCmd (end_does hc ?_ h)
  simp [NorChip.execute, wrenCmd, enter4bModeCmd, exit4bModeCmd, ceCmd]

/-- A page program, in the address mode of the chip. -/
def PageProgram.reaches (is4byteMode : Bool) (p : PageProgram) : PageProgram :=
  { p with addr := reachedAddr is4byteMode p.addr }

theorem sendData_does {post : Unit → NorChip → Prop} (hc : c.Ready is4byteMode) {opcode : UInt8}
    {args : List UInt8} (bytes : List UInt8) (h : post () (c.told opcode (args ++ bytes))) :
    Does cycle (sendAll bytes) (c.told opcode args) post :=
  sendAll_does bytes hc.busy rfl h

/-- With no data the chip does nothing. -/
theorem program_none (hc : c.Ready is4byteMode) (addr : UInt32) {d : NorChip}
    (hd : d = c.told ppCmd (addressBytes is4byteMode addr)) :
    d.execute cycle ppCmd (addressBytes is4byteMode addr) = d := by
  have hlen := told_addrLen hc ppCmd addr []
  rw [List.append_nil, ← hd] at hlen
  simp [NorChip.execute, ppCmd, be64Cmd, be32Cmd, seCmd, wrenCmd, enter4bModeCmd, exit4bModeCmd,
    ceCmd, hlen]

theorem program_some (hc : c.Ready is4byteMode) (addr : UInt32) (data : Nat → UInt8) {count : Nat}
    (hpos : 0 < count) {args : List UInt8} {d : NorChip}
    (hargs : args = addressBytes is4byteMode addr ++ (List.range count).map data)
    (hd : d = c.told ppCmd args) :
    d.execute cycle ppCmd args = d.start cycle fun cells => wrapStore (· &&& ·) gd55b01gePageSize
      cells (reachedAddr is4byteMode addr.toNat) data count := by
  have haddr := told_address hc ppCmd addr ((List.range count).map data)
  have hlen := told_addrLen hc ppCmd addr ((List.range count).map data)
  have hdrop := told_drop hc ppCmd addr ((List.range count).map data)
  rw [← hargs, ← hd] at haddr hlen hdrop
  rw [List.length_map, List.length_range] at hlen
  have hstore (cells : Nat → UInt8) (a : Nat) :
      wrapStore (· &&& ·) gd55b01gePageSize cells a
        (fun i => ((List.range count).map data).getD i 0xFF) count =
      wrapStore (· &&& ·) gd55b01gePageSize cells a data count := by
    refine wrapStore_congr _ _ fun i hi => ?_
    simp [hi]
  have hcount : args.length - d.addrLen = count := by omega
  have hmore : d.addrLen < args.length := by omega
  have hargs' : args ≠ [] := by
    rintro rfl
    simp at hmore
  simp only [NorChip.execute, haddr, hdrop, hcount, hstore, hmore, hargs', and_true, and_false]
  rfl

theorem pageProgram_does {post : Unit → NorChip → Prop} (hc : c.Ready is4byteMode) (addr : UInt32)
    (data : Nat → UInt8) (count : Nat)
    (h : ∀ d : NorChip, d.Ready is4byteMode → d.cells =
      ((⟨addr.toNat, data, count⟩ : PageProgram).reaches is4byteMode).perform c.cells →
        post () d) :
    Does cycle (spiPageProgram is4byteMode addr data count) c post := by
  rw [spiPageProgram]
  split
  · rename_i hmore
    exact .done (h c hc (if_pos hmore).symm)
  · rename_i hfits
    refine begin_does hc ppCmd (.bind (sendAddress_does hc addr (.bind (sendData_does hc _ ?_))))
    rcases Nat.eq_zero_or_pos count with rfl | hpos
    · rw [List.range_zero, List.map_nil, List.append_nil]
      refine .bind (deselect_does rfl (wait_does (h _ ?_ ?_)))
      · rw [program_none hc addr rfl]
        exact ⟨rfl, rfl, hc.mode, hc.refused⟩
      · rw [program_none hc addr rfl]
        rfl
    · refine end_does hc (program_some hc addr data hpos rfl rfl) fun d hd hcells => h d hd ?_
      have hmod : reachedAddr is4byteMode addr.toNat % gd55b01geTotalSize =
          reachedAddr is4byteMode addr.toNat := Nat.mod_mod _ _
      rw [hcells]
      refine Eq.trans ?_ (if_neg hfits).symm
      simp only [PageProgram.reaches, hmod]

theorem reachedAddr_ofNat (is4byteMode : Bool) (addr : Nat) :
    reachedAddr is4byteMode (UInt32.ofNat addr).toNat = reachedAddr is4byteMode addr := by
  have htotal : gd55b01geTotalSize = 2 ^ 27 := rfl
  rw [UInt32.toNat_ofNat', reachedAddr, reachedAddr, htotal]
  cases is4byteMode with
  | false =>
    simp only [Bool.false_eq_true, if_false]
    omega
  | true =>
    simp only [if_true]
    omega

/-- `gd55b01ge_write_data` in the address mode of the chip. -/
def reachedWriteData (is4byteMode : Bool) (cells : Nat → UInt8) (addr : Nat) (data : Nat → UInt8)
    (count : Nat) : Nat → UInt8 :=
  (pagePrograms addr data count).foldl (fun cells p => (p.reaches is4byteMode).perform cells) cells

theorem programAll_does {post : Unit → NorChip → Prop} (ps : List PageProgram)
    (hc : c.Ready is4byteMode)
    (h : ∀ d : NorChip, d.Ready is4byteMode → d.cells =
      ps.foldl (fun cells p => (p.reaches is4byteMode).perform cells) c.cells → post () d) :
    Does cycle (programAll is4byteMode ps) c post := by
  induction ps generalizing c with
  | nil => exact .done (h c hc rfl)
  | cons p ps ih =>
    refine .bind (pageProgram_does hc _ _ _ fun d hd hcells => ih hd fun e he hcells' => h e he ?_)
    rw [hcells', hcells, List.foldl_cons, PageProgram.reaches, reachedAddr_ofNat]
    rfl

theorem writeData_does {post : Unit → NorChip → Prop} (hc : c.Ready is4byteMode) (addr : UInt32)
    (data : Nat → UInt8) (count : Nat)
    (h : ∀ d : NorChip, d.Ready is4byteMode →
      d.cells = reachedWriteData is4byteMode c.cells addr.toNat data count → post () d) :
    Does cycle (spiWriteData is4byteMode addr data count) c post :=
  programAll_does _ hc h

/-- The chip sends its cells one after the other, however long it is asked to. -/
theorem recvAll_does {pre : List UInt8} {addr : Nat} {post : (Nat → UInt8) → NorChip → Prop}
    (hbusy : c.busy = 0) (hpre : pre.length = c.addrLen)
    (haddr : ∀ rest, c.address (pre ++ rest) = addr) (rest : List UInt8) {args : List UInt8}
    (hargs : args = pre ++ rest) (n : Nat) (data : Nat → UInt8)
    (h : ∀ args, post (overlay (fun _ b => b) data rest.length n fun j =>
      c.cells ((addr + (rest.length + j)) % gd55b01geTotalSize))
      { c with frame := .command readCmd args }) :
    Does cycle (recvAll data rest.length n) { c with frame := .command readCmd args } post := by
  subst hargs
  induction n generalizing rest data with
  | zero =>
    refine .done ?_
    rw [← overlay_zero (fun _ b => b) data (a := rest.length)
      (fun j => c.cells ((addr + (rest.length + j)) % gd55b01geTotalSize))]
    exact h (pre ++ rest)
  | succ n ih =>
    have hlen : (pre ++ rest).length = c.addrLen + rest.length := by
      rw [List.length_append, hpre]
    have hout : NorChip.output { c with frame := .command readCmd (pre ++ rest) } readCmd
        (pre ++ rest) = c.cells ((addr + rest.length) % gd55b01geTotalSize) := by
      have haddr' := haddr rest
      simp only [NorChip.output, NorChip.addrLen, NorChip.address] at hlen haddr' ⊢
      rw [if_neg (by decide), if_neg (by decide), if_pos ⟨trivial, by omega⟩, haddr']
      congr 3
      omega
    have hnext : (NorChip.respond cycle { c with frame := .command readCmd (pre ++ rest) }
        (.byte 0xFF)).2 = { c with frame := .command readCmd (pre ++ (rest ++ [0xFF])) } := by
      simp [NorChip.respond, hbusy]
    refine .send ?_
    rw [hnext]
    change Does cycle (recvAll (Function.update data rest.length (NorChip.output _ readCmd _))
      (rest.length + 1) n) _ post
    rw [hout]
    have hrest := ih (rest ++ [0xFF])
      (Function.update data rest.length (c.cells ((addr + rest.length) % gd55b01geTotalSize)))
      fun args => ?_
    · rwa [List.length_append] at hrest
    · have hall := h args
      rw [Nat.add_comm n 1, ← overlay_update] at hall
      rw [List.length_append, List.length_singleton]
      simpa only [Nat.add_assoc, Nat.add_zero] using hall

theorem execute_readCmd (c : NorChip) (args : List UInt8) : c.execute cycle readCmd args = c := by
  simp [NorChip.execute, readCmd, ppCmd, be64Cmd, be32Cmd, seCmd, wrenCmd, enter4bModeCmd,
    exit4bModeCmd, ceCmd]

theorem readData_does {post : (Nat → UInt8) → NorChip → Prop} (hc : c.Ready is4byteMode)
    (addr : UInt32) (data : Nat → UInt8) (count : Nat)
    (h : ∀ d : NorChip, d.Ready is4byteMode → d.cells = c.cells →
      post (chipReadData c.cells (reachedAddr is4byteMode addr.toNat) data count) d) :
    Does cycle (spiReadData is4byteMode addr data count) c post := by
  obtain rfl := hc.mode
  refine select_does readCmd hc.busy (.bind ?_)
  rw [sendAddress_eq]
  refine sendAll_does _ hc.busy rfl (.bind ?_)
  refine recvAll_does hc.busy
    (length_addressBytes addr) (fun rest => address_append addr rest) []
    (List.append_nil _).symm count data fun args => .bind (deselect_does rfl (.done ?_))
  rw [execute_readCmd]
  have hready := h { c with frame := .deselected } ⟨hc.busy, rfl, rfl, hc.refused⟩ rfl
  simpa only [chipReadData, List.length_nil, Nat.zero_add] using hready

end Operations

end Lsc100
