import Lsc100.EmmcCard

/-! What the functions of `BSP_EMMC.c` for the blocks of the card do on the bus, one lemma
each. -/

namespace Lsc100

open Polling Overlay

/-- Nothing but `n` blocks of the card from `a` on and the first `m` blocks of the buffer for what
is read may differ. -/
structure EmmcBus.Within (a n m : Nat) (s s' : EmmcBus) : Prop where
  cells : ∀ x, x < a ∨ a + n ≤ x → s'.cells x = s.cells x
  readbuff : ∀ i, m ≤ i → s'.readbuff i = s.readbuff i
  writebuff : s'.writebuff = s.writebuff

/-- The card is idle and has nothing to report. -/
structure EmmcBus.Idle (s : EmmcBus) : Prop where
  state : s.state = .tran
  pending : s.pending = 0
  erase : s.erase = .none

def NotLocked (response : UInt32) : Prop := response &&& emmcCardLocked = 0

def CardConduct.Faultless (w : CardConduct) : Prop := ∀ i, w.fault i = .none

/-- Again and again two commands in a row get through: the response to the first may still report
that one before it was damaged. -/
def CardConduct.Fair (w : CardConduct) : Prop :=
  ∀ i, ∃ m, i ≤ m ∧ w.fault m = .none ∧ w.fault (m + 1) = .none

def SdioDoes {α : Type} (w : CardConduct) (p : Sdio α) (response : UInt32) (s : EmmcBus)
    (post : α → UInt32 → EmmcBus → Prop) : Prop :=
  Achieves EmmcWait.ends (EmmcBus.respond w) (p response) s fun r s' => post r.1 r.2 s'

section Rules

variable {w : CardConduct} {α β : Type} {response : UInt32} {s : EmmcBus}
  {post : α → UInt32 → EmmcBus → Prop}

theorem SdioDoes.pure {a : α} (h : post a response s) : SdioDoes w (pure a) response s post :=
  .done h

theorem SdioDoes.mono {post' : α → UInt32 → EmmcBus → Prop} {p : Sdio α}
    (h : SdioDoes w p response s post) (himp : ∀ a r s', post a r s' → post' a r s') :
    SdioDoes w p response s post' :=
  Achieves.mono h fun _ _ hpost => himp _ _ _ hpost

theorem SdioDoes.bind {p : Sdio α} {f : α → Sdio β} {post : β → UInt32 → EmmcBus → Prop}
    (h : SdioDoes w p response s fun a r s' => SdioDoes w (f a) r s' post) :
    SdioDoes w (p >>= f) response s post :=
  Achieves.bind h

theorem SdioDoes.cmd {post : CmdAnswer → UInt32 → EmmcBus → Prop} (argument index : Nat)
    (h : post (s.respond w ⟨index, argument⟩).1 (s.respond w ⟨index, argument⟩).1.response0
      (s.respond w ⟨index, argument⟩).2) :
    SdioDoes w (emmcSdioCmdCfg argument index) response s post :=
  .send (.done h)

/-- A command whose response is looked at before anything else is done. -/
theorem SdioDoes.checked {post : EmmcError → UInt32 → EmmcBus → Prop} {argument index : Nat}
    {k : CmdAnswer → Sdio EmmcError}
    (hfailed : ∀ a s', s.respond w ⟨index, argument⟩ = (a, s') → cmdResp1Error index a ≠ .ok →
      post (cmdResp1Error index a) a.response0 s')
    (hok : ∀ a s', s.respond w ⟨index, argument⟩ = (a, s') → cmdResp1Error index a = .ok →
      SdioDoes w (k a) a.response0 s' post) :
    SdioDoes w (do
      let a ← emmcSdioCmdCfg argument index
      if cmdResp1Error index a ≠ .ok then Pure.pure (cmdResp1Error index a) else k a)
      response s post := by
  refine .bind (.cmd argument index ?_)
  by_cases h : cmdResp1Error index (s.respond w ⟨index, argument⟩).1 = .ok
  · rw [if_neg (not_not_intro h)]
    exact hok _ _ rfl h
  · rw [if_pos h]
    exact .pure (hfailed _ _ rfl h)

theorem SdioDoes.get {post : UInt32 → UInt32 → EmmcBus → Prop} (h : post response response s) :
    SdioDoes w get response s post :=
  .done h

theorem SdioDoes.and {post' : α → UInt32 → EmmcBus → Prop} {p : Sdio α}
    (h : SdioDoes w p response s post) (h' : SdioDoes w p response s post') :
    SdioDoes w p response s fun a r s' => post a r s' ∧ post' a r s' :=
  Achieves.and h h'

end Rules

section Respond

variable {w : CardConduct} {a n m : Nat} {c : EmmcCmd} {s s' s'' : EmmcBus}

theorem EmmcBus.Within.of_eq (hcells : s'.cells = s.cells) (hread : s'.readbuff = s.readbuff)
    (hwrite : s'.writebuff = s.writebuff) : s.Within a n m s' :=
  ⟨fun x _ => congrFun hcells x, fun i _ => congrFun hread i, hwrite⟩

theorem EmmcBus.Within.trans (h : s.Within a n m s') (h' : s'.Within a n m s'') :
    s.Within a n m s'' :=
  ⟨fun x hx => (h'.cells x hx).trans (h.cells x hx),
    fun i hi => (h'.readbuff i hi).trans (h.readbuff i hi), h'.writebuff.trans h.writebuff⟩

theorem EmmcBus.pass_eq (s : EmmcBus) :
    ∃ state busy, s.pass = { s with state := state, busy := busy } := by
  rw [EmmcBus.pass]
  split
  · split
    · exact ⟨.tran, s.busy, rfl⟩
    · exact ⟨s.state, s.busy - 1, rfl⟩
  · exact ⟨s.state, s.busy, rfl⟩

theorem EmmcBus.within_pass (s : EmmcBus) : s.Within a n m s.pass := by
  obtain ⟨state, busy, hpass⟩ := s.pass_eq
  rw [hpass]
  exact .of_eq rfl rfl rfl

theorem EmmcBus.Within.of_overlay (d : Blocks)
    (hcells : s'.cells = overlay (fun _ b => b) s.cells a n d) (hread : s'.readbuff = s.readbuff)
    (hwrite : s'.writebuff = s.writebuff) : s.Within a n m s' := by
  refine ⟨fun x hx => ?_, fun i _ => congrFun hread i, hwrite⟩
  rw [hcells]
  exact overlay_out _ _ _ hx

theorem EmmcBus.Within.of_read (d : Blocks) (hcells : s'.cells = s.cells)
    (hread : s'.readbuff = overlay (fun _ b => b) s.readbuff 0 m d)
    (hwrite : s'.writebuff = s.writebuff) : s.Within a n m s' := by
  refine ⟨fun x _ => congrFun hcells x, fun i hi => ?_, hwrite⟩
  rw [hread]
  exact overlay_out _ _ _ (.inr ((Nat.zero_add m).symm ▸ hi))

/-- What the card has been told before keeps a command to the blocks that are meant. -/
structure EmmcBus.Meant (a n m : Nat) (s : EmmcBus) (c : EmmcCmd) : Prop where
  erase : c.index = emmcCmdErase → 0 < n ∧ s.erase = .range a (a + n - 1)
  read : c.index = emmcCmdReadMultBlock → s.count = m
  write : c.index = emmcCmdWriteMultBlock → s.count = n ∧ c.argument = a

theorem EmmcBus.obey_erase {argument : Nat} (phase : DataPhase) (hn : 0 < n)
    (h : s.erase = .range a (a + n - 1)) : s.obey w ⟨emmcCmdErase, argument⟩ phase =
      { s with
        cells := overlay (fun _ b => b) s.cells a n fun _ => w.erased
        erase := .none
        state := .prg
        busy := w.cycle s.step } := by
  have hlength : a + n - 1 + 1 - a = n := by omega
  simp only [EmmcBus.obey, h, hlength]
  rw [if_neg (by decide), if_neg (by decide), if_neg (by decide), if_pos trivial]

theorem EmmcBus.Meant.obey (h : s.Meant a n m c) (phase : DataPhase) :
    s.Within a n m (s.obey w c phase) := by
  unfold EmmcBus.obey
  split
  · exact .of_eq rfl rfl rfl
  split
  · exact .of_eq rfl rfl rfl
  split
  · exact .of_eq rfl rfl rfl
  split
  · obtain ⟨hn, herase⟩ := h.erase ‹_›
    have hlength : a + n - 1 + 1 - a = n := by omega
    rw [herase]
    simp only [hlength]
    exact .of_overlay (fun _ => w.erased) rfl rfl rfl
  split
  · exact .of_eq rfl rfl rfl
  split
  · rw [h.read ‹_›]
    cases phase with
    | none => exact .of_eq rfl rfl rfl
    | moved => exact .of_read (fun i => s.cells (c.argument + i)) rfl rfl rfl
    | broken junk stuck => exact .of_read junk rfl rfl rfl
  split
  · rw [(h.write ‹_›).1, (h.write ‹_›).2]
    cases phase with
    | none => exact .of_eq rfl rfl rfl
    | moved => exact .of_overlay s.writebuff rfl rfl rfl
    | broken junk stuck => exact .of_overlay junk rfl rfl rfl
  · exact .of_eq rfl rfl rfl

theorem EmmcBus.Meant.reply (h : s.Meant a n m c) (transfer : EmmcError) (phase : DataPhase) :
    s.Within a n m (s.reply w c transfer phase).2 := by
  unfold EmmcBus.reply
  split
  · exact (h.obey _).trans (.of_eq rfl rfl rfl)
  · exact .of_eq rfl rfl rfl

theorem EmmcBus.Meant.replyGarbled (h : s.Meant a n m c) (shown : UInt32) :
    s.Within a n m (s.replyGarbled w c shown).2 := by
  unfold EmmcBus.replyGarbled
  split
  · exact (h.obey _).trans (.of_eq rfl rfl rfl)
  · exact .of_eq rfl rfl rfl

theorem EmmcBus.react_none (h : w.fault s.step = .none) :
    s.react w c = s.reply w c .ok .moved := by
  simp only [EmmcBus.react, h]

theorem EmmcBus.react_lost {status : UInt32} (h : w.fault s.step = .lost status) :
    s.react w c = s.silent status := by
  simp only [EmmcBus.react, h]

theorem EmmcBus.react_garbled {shown : UInt32} (h : w.fault s.step = .garbled shown) :
    s.react w c = s.replyGarbled w c shown := by
  simp only [EmmcBus.react, h]

theorem EmmcBus.react_broken {error : {e : EmmcError // e ≠ .ok}} {junk : Blocks} {stuck : Bool}
    (h : w.fault s.step = .broken error junk stuck) :
    s.react w c = s.reply w c error (.broken junk stuck) := by
  simp only [EmmcBus.react, h]

theorem EmmcBus.Meant.react (h : s.Meant a n m c) : s.Within a n m (s.react w c).2 := by
  cases hfault : w.fault s.step with
  | none =>
    rw [EmmcBus.react_none hfault]
    exact h.reply _ _
  | lost status =>
    rw [EmmcBus.react_lost hfault]
    exact .of_eq rfl rfl rfl
  | garbled shown =>
    rw [EmmcBus.react_garbled hfault]
    exact h.replyGarbled shown
  | broken error junk stuck =>
    rw [EmmcBus.react_broken hfault]
    exact h.reply _ _

theorem EmmcBus.Meant.respond {answer : CmdAnswer} (h : s.Meant a n m c)
    (hresp : s.respond w c = (answer, s')) : s.Within a n m s' := by
  obtain rfl : (s.respond w c).2 = s' := by rw [hresp]
  obtain ⟨state, busy, hpass⟩ := s.pass_eq
  have hmeant : s.pass.Meant a n m c := by
    rw [hpass]
    exact ⟨h.erase, h.read, h.write⟩
  have hreact : s.pass.Within a n m (s.respond w c).2 :=
    (hmeant.react (w := w)).trans (.of_eq rfl rfl rfl)
  exact s.within_pass.trans hreact

theorem EmmcBus.Meant.plain {index argument : Nat} (herase : index ≠ emmcCmdErase)
    (hread : index ≠ emmcCmdReadMultBlock) (hwrite : index ≠ emmcCmdWriteMultBlock) :
    s.Meant a n m ⟨index, argument⟩ :=
  ⟨fun h => absurd h herase, fun h => absurd h hread, fun h => absurd h hwrite⟩

theorem EmmcBus.reply_of_ok {transfer : EmmcError} {phase : DataPhase}
    (hok : cmdResp1Error c.index (s.reply w c transfer phase).1 = .ok) :
    s.reply w c transfer phase = (⟨.cmdrecv, c.index, s.status c.index, transfer⟩,
      { s.obey w c phase with pending := 0, shown := s.status c.index }) := by
  unfold EmmcBus.reply at hok ⊢
  split at hok
  · simp only [cmdResp1Error, ne_eq, not_true_eq_false, if_false] at hok
    rw [if_pos ‹_›, if_pos hok]
  · simp [EmmcBus.silent, cmdResp1Error] at hok

/-- The driver goes on from a response only when the card has done what it was told to. -/
theorem EmmcBus.respond_of_ok {answer : CmdAnswer} (hresp : s.respond w c = (answer, s'))
    (hok : cmdResp1Error c.index answer = .ok) :
    ∃ phase, s' = { s.pass.obey w c phase with
      pending := 0
      shown := s.pass.status c.index
      step := s.step + 1 } ∧ (answer.transfer = .ok → phase = .moved) := by
  rw [EmmcBus.respond, Prod.mk.injEq] at hresp
  obtain ⟨rfl, rfl⟩ := hresp
  cases hfault : w.fault s.pass.step with
  | none =>
    rw [EmmcBus.react_none hfault] at hok ⊢
    rw [EmmcBus.reply_of_ok hok]
    exact ⟨.moved, rfl, fun _ => rfl⟩
  | lost status =>
    rw [EmmcBus.react_lost hfault] at hok
    simp [EmmcBus.silent, cmdResp1Error] at hok
  | garbled shown =>
    rw [EmmcBus.react_garbled hfault, EmmcBus.replyGarbled] at hok
    split at hok
    · simp [cmdResp1Error] at hok
    · simp [EmmcBus.silent, cmdResp1Error] at hok
  | broken error junk stuck =>
    rw [EmmcBus.react_broken hfault] at hok ⊢
    rw [EmmcBus.reply_of_ok hok]
    exact ⟨.broken junk stuck, rfl, fun htransfer => absurd htransfer error.2⟩

theorem EmmcBus.respond_status (argument : Nat) :
    ∃ pending shown, (s.respond w ⟨emmcCmdSendStatus, argument⟩).2 =
        { s.pass with pending := pending, shown := shown, step := s.step + 1 } ∧
      ((∃ status, w.fault s.step = .lost status) ∨ pending = 0) := by
  have hhears : s.pass.Hears ⟨emmcCmdSendStatus, argument⟩ := .inr rfl
  have hstep : s.pass.step = s.step := by
    obtain ⟨state, busy, hpass⟩ := s.pass_eq
    rw [hpass]
  unfold EmmcBus.respond EmmcBus.react
  rw [hstep]
  cases hfault : w.fault s.step with
  | none =>
    refine ⟨0, s.pass.status emmcCmdSendStatus, ?_, .inr rfl⟩
    simp only [EmmcBus.reply, if_pos hhears]
    rfl
  | lost status => exact ⟨_, s.pass.shown, rfl, .inl ⟨status, rfl⟩⟩
  | garbled shown =>
    refine ⟨0, shown, ?_, .inr rfl⟩
    simp only [EmmcBus.replyGarbled, if_pos hhears]
    rfl
  | broken error junk stuck =>
    refine ⟨0, s.pass.status emmcCmdSendStatus, ?_, .inr rfl⟩
    simp only [EmmcBus.reply, if_pos hhears]
    rfl

/-- The answer to `SEND_STATUS` when nothing goes wrong. -/
theorem EmmcBus.respond_status_of_none (hfault : w.fault s.step = .none) (hpending : s.pending = 0)
    (argument : Nat) : (s.respond w ⟨emmcCmdSendStatus, argument⟩).1 =
      ⟨.cmdrecv, emmcCmdSendStatus, s.pass.state.code <<< 9, .ok⟩ := by
  have hhears : s.pass.Hears ⟨emmcCmdSendStatus, argument⟩ := .inr rfl
  obtain ⟨state, busy, hpass⟩ := s.pass_eq
  have hstep : s.pass.step = s.step := by rw [hpass]
  have hstatus : s.pass.status emmcCmdSendStatus = s.pass.state.code <<< 9 := by
    have hp : s.pass.pending = 0 := by rw [hpass]; exact hpending
    simp [EmmcBus.status, EmmcBus.eraseBits, hp]
  unfold EmmcBus.respond EmmcBus.react
  rw [hstep, hfault]
  simp only [EmmcBus.reply, if_pos hhears, hstatus]

theorem statusIn_code (state : CardState) (states : List Nat) :
    (⟨.cmdrecv, emmcCmdSendStatus, state.code <<< 9, .ok⟩ : CmdAnswer).StatusIn states ↔
      state.code.toNat ∈ states := by
  have hcode : r1Error (state.code <<< 9) = .ok ∧ cardStateOf (state.code <<< 9) =
      state.code.toNat := by
    cases state with
    | tran => exact ⟨by decide, by decide⟩
    | data => exact ⟨by decide, by decide⟩
    | rcv => exact ⟨by decide, by decide⟩
    | prg => exact ⟨by decide, by decide⟩
  simp [CmdAnswer.StatusIn, hcode]

end Respond

section Poll

variable {w : CardConduct} {s : EmmcBus} {m : Nat}

/-- With command `m` the work of the card is done and what it had to report is read. -/
structure EmmcBus.ReadyBy (w : CardConduct) (m : Nat) (s : EmmcBus) : Prop where
  step : s.step ≤ m + 1
  first : w.fault m = .none
  second : w.fault (m + 1) = .none
  busy : s.state = .data ∨ s.state = .prg → s.busy + s.step ≤ m + 1
  pending : s.step = m + 1 → s.pending = 0

theorem EmmcBus.exists_readyBy (hfair : w.Fair) (s : EmmcBus) : ∃ m, s.ReadyBy w m := by
  obtain ⟨m, hm, hfirst, hsecond⟩ := hfair (s.busy + s.step)
  refine ⟨m, ?_, hfirst, hsecond, fun _ => Nat.le_succ_of_le hm, fun hstep => ?_⟩
  · omega
  · omega

theorem EmmcBus.ReadyBy.status (h : s.ReadyBy w m) (hlt : s.step < m + 1) (argument : Nat) :
    (s.respond w ⟨emmcCmdSendStatus, argument⟩).2.ReadyBy w m := by
  obtain ⟨pending, shown, hresp, hpending⟩ := s.respond_status (w := w) argument
  rw [hresp]
  refine ⟨hlt, h.first, h.second, fun hbusy => ?_, fun hstep => ?_⟩
  · by_cases hwork : s.state = .data ∨ s.state = .prg
    · by_cases hdone : s.busy = 0
      · simp [EmmcBus.pass, hwork, hdone] at hbusy
      · have hbound := h.busy hwork
        simp only [EmmcBus.pass, if_pos hwork, if_neg hdone]
        omega
    · simp only [EmmcBus.pass, if_neg hwork] at hbusy
      exact absurd hbusy hwork
  · obtain rfl : s.step = m := Nat.succ.inj hstep
    rcases hpending with ⟨status, hlost⟩ | hzero
    · rw [h.first] at hlost
      exact absurd hlost nofun
    · exact hzero

theorem EmmcBus.ReadyBy.ends (h : s.ReadyBy w m) (hstep : s.step = m + 1)
    (hstate : s.state ≠ .rcv) (loop : EmmcWait) (argument : Nat) :
    loop.ends (s.respond w ⟨emmcCmdSendStatus, argument⟩).1 = true := by
  have htran : s.pass.state = .tran := by
    by_cases hwork : s.state = .data ∨ s.state = .prg
    · have hdone : s.busy = 0 := by
        have := h.busy hwork
        omega
      simp [EmmcBus.pass, hwork, hdone]
    · rw [EmmcBus.pass, if_neg hwork]
      cases hs : s.state with
      | tran => rfl
      | rcv => exact absurd hs hstate
      | data => exact absurd (.inl hs) hwork
      | prg => exact absurd (.inr hs) hwork
  rw [s.respond_status_of_none (hstep ▸ h.second) (h.pending hstep), htran]
  cases loop with
  | erased => exact (ends_erased_iff _).mpr ((statusIn_code _ _).not.mpr (by decide))
  | programmed => exact (ends_programmed_iff _).mpr ((statusIn_code _ _).not.mpr (by decide))
  | transferred => exact (ends_transferred_iff _).mpr ((statusIn_code _ _).mpr (by decide))

/-- A loop on the answers to `SEND_STATUS` returns, whatever it waits for. -/
theorem SdioDoes.poll (hfair : w.Fair) (loop : EmmcWait) {response : UInt32}
    {post : CmdAnswer → UInt32 → EmmcBus → Prop} (inv : EmmcBus → Prop)
    (hstep : ∀ s, inv s → inv (s.respond w ⟨emmcCmdSendStatus, 0⟩).2)
    (hstate : ∀ s, inv s → s.state ≠ .rcv) (hs : inv s)
    (h : ∀ s, inv s → loop.ends (s.respond w ⟨emmcCmdSendStatus, 0⟩).1 = true →
      post (s.respond w ⟨emmcCmdSendStatus, 0⟩).1 (s.respond w ⟨emmcCmdSendStatus, 0⟩).1.response0
        (s.respond w ⟨emmcCmdSendStatus, 0⟩).2) :
    SdioDoes w (pollStatus loop) response s post := by
  obtain ⟨m, hm⟩ := s.exists_readyBy hfair
  refine .wait (fun s => inv s ∧ s.ReadyBy w m) (fun s => m + 1 - s.step) ?_ ⟨hs, hm⟩
  rintro s ⟨hinv, hready⟩
  cases hend : loop.ends (s.respond w ⟨emmcCmdSendStatus, 0⟩).1 with
  | true => exact .inl ⟨rfl, .done (h s hinv hend)⟩
  | false =>
    have hlt : s.step < m + 1 := by
      refine Nat.lt_of_le_of_ne hready.step fun hlast => ?_
      rw [hready.ends hlast (hstate s hinv)] at hend
      exact absurd hend nofun
    refine .inr ⟨rfl, ⟨hstep s hinv, hready.status hlt 0⟩, ?_⟩
    change m + 1 - (s.step + 1) < m + 1 - s.step
    omega

theorem EmmcBus.state_pass (h : s.state ≠ .rcv) : s.pass.state ≠ .rcv := by
  rw [EmmcBus.pass]
  split
  · split
    · exact nofun
    · exact h
  · exact h

/-- The loops leave the blocks and the buffers as they are. -/
theorem SdioDoes.settle (hfair : w.Fair) (loop : EmmcWait) {response : UInt32}
    {post : CmdAnswer → UInt32 → EmmcBus → Prop} (hstate : s.state ≠ .rcv)
    (h : ∀ t, t.state ≠ .rcv → t.cells = s.cells → t.readbuff = s.readbuff →
      t.writebuff = s.writebuff → ∀ a r, post a r t) :
    SdioDoes w (pollStatus loop) response s post := by
  have hstep : ∀ t : EmmcBus, t.state ≠ .rcv ∧ t.cells = s.cells ∧ t.readbuff = s.readbuff ∧
        t.writebuff = s.writebuff →
      (t.respond w ⟨emmcCmdSendStatus, 0⟩).2.state ≠ .rcv ∧
        (t.respond w ⟨emmcCmdSendStatus, 0⟩).2.cells = s.cells ∧
        (t.respond w ⟨emmcCmdSendStatus, 0⟩).2.readbuff = s.readbuff ∧
        (t.respond w ⟨emmcCmdSendStatus, 0⟩).2.writebuff = s.writebuff := by
    rintro t ⟨ht, hcells, hread, hwrite⟩
    have hpassed := EmmcBus.state_pass ht
    obtain ⟨pending, shown, hresp, -⟩ := t.respond_status (w := w) 0
    obtain ⟨state, busy, hpass⟩ := t.pass_eq
    rw [hpass] at hresp hpassed
    rw [hresp]
    exact ⟨hpassed, hcells, hread, hwrite⟩
  refine .poll hfair loop _ hstep (fun t ht => ht.1) ⟨hstate, rfl, rfl, rfl⟩ fun t ht _ => ?_
  obtain ⟨hstate, hcells, hread, hwrite⟩ := hstep t ht
  exact h _ hstate hcells hread hwrite _ _

end Poll

section Attempts

variable {w : CardConduct} {card : EmmcCardInfo} {addr n m : Nat} {s : EmmcBus}
  {response : UInt32}

/-- The blocks hold what has been written, or are erased. -/
def EmmcBus.Holds (addr n : Nat) (d : Blocks) (s : EmmcBus) : Prop :=
  ∀ i < n, s.cells (addr + i) = d i

/-- One command on the way to what `EmmcError.ok` promises. -/
theorem SdioDoes.told {Q : EmmcBus → Prop} {index argument : Nat} {s' : EmmcBus}
    {k : CmdAnswer → Sdio EmmcError} (hwithin : s.Within addr n m s')
    (hmeant : s'.Meant addr n m ⟨index, argument⟩)
    (hok : ∀ answer phase s'', s.Within addr n m s'' →
      s'' = { s'.pass.obey w ⟨index, argument⟩ phase with
        pending := 0
        shown := s'.pass.status index
        step := s'.step + 1 } →
      (answer.transfer = .ok → phase = .moved) →
      SdioDoes w (k answer) answer.response0 s'' fun e _ t =>
        s.Within addr n m t ∧ (e = .ok → Q t)) :
    SdioDoes w (do
      let a ← emmcSdioCmdCfg argument index
      if cmdResp1Error index a ≠ .ok then Pure.pure (cmdResp1Error index a) else k a)
      response s' fun e _ t => s.Within addr n m t ∧ (e = .ok → Q t) := by
  refine .checked (fun answer s'' hresp hne => ?_) fun answer s'' hresp h => ?_
  · exact ⟨hwithin.trans (hmeant.respond hresp), fun h => absurd h hne⟩
  · obtain ⟨phase, hs'', hphase⟩ := EmmcBus.respond_of_ok hresp h
    exact hok answer phase s'' (hwithin.trans (hmeant.respond hresp)) hs'' hphase

theorem erasemultiblock_does (hfair : w.Fair) (hn : 0 < n) (hin : addr + n ≤ 2 ^ 32) :
    SdioDoes w (emmcErasemultiblock card addr ((addr + n - 1) % 2 ^ 32)) response s fun e _ t =>
      s.Within addr n 0 t ∧ (e = .ok → t.Holds addr n fun _ => w.erased) := by
  have hend : (addr + n - 1) % 2 ^ 32 = addr + n - 1 := Nat.mod_eq_of_lt (by omega)
  rw [hend, emmcErasemultiblock]
  split
  · exact .pure ⟨.of_eq rfl rfl rfl, by simp⟩
  refine .bind (.get ?_)
  split
  · exact .pure ⟨.of_eq rfl rfl rfl, by simp⟩
  refine .told (.of_eq rfl rfl rfl) (.plain (by decide) (by decide) (by decide))
    fun a phase s1 hw1 hs1 _ => ?_
  have herase1 : s1.erase = .start addr := by
    rw [hs1]
    rfl
  refine .told hw1 (.plain (by decide) (by decide) (by decide)) fun a phase s2 hw2 hs2 _ => ?_
  have herase2 : s2.erase = .range addr (addr + n - 1) := by
    obtain ⟨state, busy, hpass⟩ := s1.pass_eq
    rw [hs2, hpass]
    change s1.erase.upTo _ = _
    rw [herase1]
    rfl
  refine .told hw2 ⟨fun _ => ⟨hn, herase2⟩,
    fun h => absurd h (by decide : emmcCmdErase ≠ emmcCmdReadMultBlock),
    fun h => absurd h (by decide : emmcCmdErase ≠ emmcCmdWriteMultBlock)⟩
    fun a phase s3 hw3 hs3 _ => ?_
  have hdone : (s3.cells = overlay (fun _ b => b) s2.cells addr n fun _ => w.erased) ∧
      s3.state = .prg := by
    obtain ⟨state, busy, hpass⟩ := s2.pass_eq
    have herase : s2.pass.erase = .range addr (addr + n - 1) := by
      rw [hpass]
      exact herase2
    rw [hs3, EmmcBus.obey_erase phase hn herase, hpass]
    exact ⟨rfl, rfl⟩
  obtain ⟨hcells3, hstate3⟩ := hdone
  refine .bind (.settle hfair .erased (by simp [hstate3]) fun t _ hcells hread hwrite a r => ?_)
  refine .pure ⟨hw3.trans (.of_eq hcells hread hwrite), fun _ i hi => ?_⟩
  rw [hcells, hcells3]
  exact overlay_add _ _ _ hi

theorem writeMultiBlocks_does (hfair : w.Fair) (hcard : card.eMMCType ≠ emmcHighCapacitySdCard)
    (hcount : n < 2 ^ 16) :
    SdioDoes w (emmcWriteMultiBlocks card addr 512 n) response s fun e _ t =>
      s.Within addr n 0 t ∧ (e = .ok → t.Holds addr n s.writebuff) := by
  rw [emmcWriteMultiBlocks, if_neg hcard]
  refine .told (.of_eq rfl rfl rfl) (.plain (by decide) (by decide) (by decide))
    fun a phase s1 hw1 hs1 _ => ?_
  refine .told hw1 (.plain (by decide) (by decide) (by decide)) fun a phase s2 hw2 hs2 _ => ?_
  have hcount2 : s2.count = n := by
    rw [hs2]
    exact Nat.mod_eq_of_lt hcount
  refine .told hw2 ⟨fun h => absurd h (by decide : emmcCmdWriteMultBlock ≠ emmcCmdErase),
    fun h => absurd h (by decide : emmcCmdWriteMultBlock ≠ emmcCmdReadMultBlock),
    fun _ => ⟨hcount2, rfl⟩⟩ fun a phase s3 hw3 hs3 hphase => ?_
  by_cases htransfer : a.transfer = .ok
  · rw [if_neg (not_not_intro htransfer)]
    obtain rfl := hphase htransfer
    obtain ⟨hcells3, hstate3⟩ : (s3.cells = overlay (fun _ b => b) s2.cells addr n s2.writebuff) ∧
        s3.state = .prg := by
      obtain ⟨state, busy, hpass⟩ := s2.pass_eq
      rw [hs3, hpass, ← hcount2]
      exact ⟨rfl, rfl⟩
    refine .bind (.settle hfair .programmed (by simp [hstate3])
      fun t hstate hcells hread hwrite a r => .bind (.settle hfair .transferred hstate
        fun t' _ hcells' hread' hwrite' a' r' => .pure ⟨?_, fun _ i hi => ?_⟩))
    · exact hw3.trans (.of_eq (hcells'.trans hcells) (hread'.trans hread) (hwrite'.trans hwrite))
    · rw [hcells', hcells, hcells3, hw2.writebuff]
      exact overlay_add _ _ _ hi
  · rw [if_pos htransfer]
    exact .pure ⟨hw3, fun h => absurd h htransfer⟩

theorem readMultiBlocks_does (hfair : w.Fair) (hcount : n < 2 ^ 16) :
    SdioDoes w (emmcReadMultiBlocks addr 512 n) response s fun e _ t =>
      s.Within 0 0 n t ∧ (e = .ok → ∀ i < n, t.readbuff i = s.cells (addr + i)) := by
  rw [emmcReadMultiBlocks]
  split
  · refine .pure ⟨.of_eq rfl rfl rfl, fun _ i hi => ?_⟩
    omega
  refine .told (.of_eq rfl rfl rfl) (.plain (by decide) (by decide) (by decide))
    fun a phase s1 hw1 hs1 _ => ?_
  refine .told hw1 (.plain (by decide) (by decide) (by decide)) fun a phase s2 hw2 hs2 _ => ?_
  have hcount2 : s2.count = n := by
    rw [hs2]
    exact Nat.mod_eq_of_lt hcount
  refine .told hw2 ⟨fun h => absurd h (by decide : emmcCmdReadMultBlock ≠ emmcCmdErase),
    fun _ => hcount2,
    fun h => absurd h (by decide : emmcCmdReadMultBlock ≠ emmcCmdWriteMultBlock)⟩
    fun a phase s3 hw3 hs3 hphase => ?_
  by_cases htransfer : a.transfer = .ok
  · rw [if_neg (not_not_intro htransfer)]
    obtain rfl := hphase htransfer
    obtain ⟨hread3, hstate3⟩ : (s3.readbuff = overlay (fun _ b => b) s2.readbuff 0 n
        fun i => s2.cells (addr + i)) ∧ s3.state = .data := by
      obtain ⟨state, busy, hpass⟩ := s2.pass_eq
      rw [hs3, hpass, ← hcount2]
      exact ⟨rfl, rfl⟩
    refine .bind (.settle hfair .transferred (by simp [hstate3])
      fun t _ hcells hread hwrite a r => .pure ⟨?_, fun _ i hi => ?_⟩)
    · exact hw3.trans (.of_eq hcells hread hwrite)
    · rw [hread, hread3, overlay_in _ _ _ (Nat.zero_le i) (by omega)]
      exact hw2.cells _ (.inr (Nat.zero_le _))
  · rw [if_pos htransfer]
    exact .pure ⟨hw3, fun h => absurd h htransfer⟩

end Attempts

section Faultless

variable {w : CardConduct} {card : EmmcCardInfo} {addr n : Nat} {s : EmmcBus}
  {response : UInt32}

theorem CardConduct.Faultless.fair (hw : w.Faultless) : w.Fair :=
  fun i => ⟨i, Nat.le_refl i, hw i, hw (i + 1)⟩

theorem EmmcBus.respond_of_faultless {c : EmmcCmd} (hw : w.Faultless) (hstate : s.state = .tran)
    (hpending : s.pending = 0) (hbits : s.eraseBits c.index = 0) :
    s.respond w c = (⟨.cmdrecv, c.index, 0x800, .ok⟩,
      { s.obey w c .moved with pending := 0, shown := 0x800, step := s.step + 1 }) := by
  have hpass : s.pass = s := by simp [EmmcBus.pass, hstate]
  have hstatus : s.status c.index = 0x800 := by
    rw [EmmcBus.status, hstate, hpending, hbits]
    rfl
  have hok : r1Error 0x800 = .ok := by decide
  rw [EmmcBus.respond, hpass, EmmcBus.react_none (hw _), EmmcBus.reply, if_pos (.inl hstate),
    hstatus, if_pos hok]

/-- One command on the way, with nothing that goes wrong. -/
theorem SdioDoes.heard {index argument : Nat} {k : CmdAnswer → Sdio EmmcError}
    {post : EmmcError → UInt32 → EmmcBus → Prop} (hw : w.Faultless) (hstate : s.state = .tran)
    (hpending : s.pending = 0) (hbits : s.eraseBits index = 0)
    (hk : SdioDoes w (k ⟨.cmdrecv, index, 0x800, .ok⟩) 0x800
      { s.obey w ⟨index, argument⟩ .moved with
        pending := 0
        shown := 0x800
        step := s.step + 1 } post) :
    SdioDoes w (do
      let a ← emmcSdioCmdCfg argument index
      if cmdResp1Error index a ≠ .ok then Pure.pure (cmdResp1Error index a) else k a)
      response s post := by
  have hresp := EmmcBus.respond_of_faultless (c := ⟨index, argument⟩) hw hstate hpending hbits
  have hok : cmdResp1Error index ⟨.cmdrecv, index, 0x800, .ok⟩ = .ok := by
    rw [cmdResp1Error, if_neg (not_not_intro rfl)]
    exact (by decide : r1Error 0x800 = .ok)
  refine .checked (fun a t h hne => ?_) fun a t h _ => ?_
  · rw [hresp, Prod.mk.injEq] at h
    exact absurd (h.1 ▸ hok) hne
  · rw [hresp, Prod.mk.injEq] at h
    obtain ⟨rfl, rfl⟩ := h
    exact hk

theorem notLocked_idle : NotLocked 0x800 := (by decide : (0x800 : UInt32) &&& _ = 0)

/-- Such a loop ends once the card is idle again. -/
theorem SdioDoes.quiet (hw : w.Faultless) (loop : EmmcWait) (work : CardState)
    {post : CmdAnswer → UInt32 → EmmcBus → Prop} (hwork : work ≠ .rcv)
    (hloop : loop.ends ⟨.cmdrecv, emmcCmdSendStatus, work.code <<< 9, .ok⟩ = false)
    (hstate : s.state = work ∨ s.state = .tran) (hpending : s.pending = 0)
    (herase : s.erase = .none)
    (h : ∀ t : EmmcBus, t.Idle → post ⟨.cmdrecv, emmcCmdSendStatus, 0x800, .ok⟩ 0x800 t) :
    SdioDoes w (pollStatus loop) response s post := by
  have hpassed : ∀ t : EmmcBus, t.state = work ∨ t.state = .tran →
      t.pass.state = work ∨ t.pass.state = .tran := by
    intro t ht
    rw [EmmcBus.pass]
    split
    · split
      · exact .inr rfl
      · exact ht
    · exact ht
  have hstep : ∀ t : EmmcBus, (t.state = work ∨ t.state = .tran) ∧ t.pending = 0 ∧
      t.erase = .none → (t.respond w ⟨emmcCmdSendStatus, 0⟩).2.state = t.pass.state ∧
        (t.respond w ⟨emmcCmdSendStatus, 0⟩).2.pending = 0 ∧
        (t.respond w ⟨emmcCmdSendStatus, 0⟩).2.erase = .none := by
    rintro t ⟨ht, -, herase⟩
    obtain ⟨pending, shown, hresp, hpending⟩ := t.respond_status (w := w) 0
    obtain ⟨state, busy, hpass⟩ := t.pass_eq
    have hzero : pending = 0 := by
      rcases hpending with ⟨status, hlost⟩ | hzero
      · rw [hw] at hlost
        exact absurd hlost nofun
      · exact hzero
    rw [hresp, hpass]
    exact ⟨rfl, hzero, herase⟩
  refine .poll hw.fair loop
    (fun t => (t.state = work ∨ t.state = .tran) ∧ t.pending = 0 ∧ t.erase = .none)
    (fun t ht => ?_) (fun t ht => ?_) ⟨hstate, hpending, herase⟩ fun t ht hends => ?_
  · obtain ⟨hst, hrest⟩ := hstep t ht
    exact ⟨hst ▸ hpassed t ht.1, hrest⟩
  · rcases ht.1 with hst | hst
    · exact hst ▸ hwork
    · exact hst ▸ nofun
  · obtain ⟨hst, hzero, hnone⟩ := hstep t ht
    rw [t.respond_status_of_none (hw _) ht.2.1] at hends ⊢
    have htran : t.pass.state = .tran := by
      refine (hpassed t ht.1).resolve_left fun hst => ?_
      rw [hst, hloop] at hends
      exact absurd hends nofun
    rw [htran]
    exact h _ ⟨hst.trans htran, hzero, hnone⟩

theorem erasemultiblock_ready (hw : w.Faultless)
    (hcard : card.extCardComdClasses &&& emmcCcccErase ≠ 0) (hs : s.Idle)
    (hresponse : NotLocked response) (endaddr : Nat) :
    SdioDoes w (emmcErasemultiblock card addr endaddr) response s fun e r t =>
      e = .ok ∧ NotLocked r ∧ t.Idle := by
  rw [emmcErasemultiblock, if_neg hcard]
  refine .bind (.get ?_)
  rw [if_neg (show ¬ (response &&& emmcCardLocked ≠ 0) from not_not_intro hresponse)]
  refine .heard hw hs.state hs.pending rfl (.heard hw hs.state rfl rfl (.heard hw hs.state rfl rfl
    (.bind (.quiet hw .erased .prg (by decide) (by decide) (.inl rfl) rfl rfl fun t ht => ?_))))
  exact .pure ⟨by decide, notLocked_idle, ht⟩

theorem writeMultiBlocks_ready (hw : w.Faultless) (hcard : card.eMMCType ≠ emmcHighCapacitySdCard)
    (hs : s.Idle) : SdioDoes w (emmcWriteMultiBlocks card addr 512 n) response s fun e r t =>
      e = .ok ∧ NotLocked r ∧ t.Idle := by
  have hbits : s.eraseBits emmcCmdSetBlocklen = 0 := by
    rw [EmmcBus.eraseBits, hs.erase]
    rfl
  rw [emmcWriteMultiBlocks, if_neg hcard]
  refine .heard hw hs.state hs.pending hbits (.heard hw hs.state rfl rfl (.heard hw hs.state rfl rfl
    (.bind (.quiet hw .programmed .prg (by decide) (by decide) (.inl rfl) rfl rfl fun t ht =>
      .bind (.quiet hw .transferred .prg (by decide) (by decide) (.inr ht.state) ht.pending ht.erase
        fun t ht => ?_)))))
  exact .pure ⟨by decide, notLocked_idle, ht⟩

theorem readMultiBlocks_ready (hw : w.Faultless) (hs : s.Idle) (hresponse : NotLocked response) :
    SdioDoes w (emmcReadMultiBlocks addr 512 n) response s fun e r t =>
      e = .ok ∧ NotLocked r ∧ t.Idle := by
  have hbits : s.eraseBits emmcCmdSetBlocklen = 0 := by
    rw [EmmcBus.eraseBits, hs.erase]
    rfl
  rw [emmcReadMultiBlocks]
  split
  · exact .pure ⟨rfl, hresponse, hs⟩
  refine .heard hw hs.state hs.pending hbits (.heard hw hs.state rfl rfl (.heard hw hs.state rfl rfl
    (.bind (.quiet hw .transferred .data (by decide) (by decide) (.inl rfl) rfl rfl fun t ht => ?_))))
  exact .pure ⟨rfl, notLocked_idle, ht⟩

end Faultless

end Lsc100
