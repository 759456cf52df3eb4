import Mathlib.Data.List.Forall2
import Lsc100.Net.EthernetFrames
import Lsc100.Net.EthernetTx

/-! What becomes of the frames that `low_level_output` is given. -/

namespace Lsc100

open Overlay

def TxDesc.content (d : TxDesc) : Option (List UInt8) :=
  if d.dav then some (readBuffer d.buffer 0 d.length) else none

namespace EthTx

/-- The descriptor from which on there is room. -/
def tail (s : EthTx) : Nat :=
  match s.phase with
  | .asking | .askingTu _ | .clearing _ _ | .polling | .advancing =>
    Handover.next enetTxbufNum s.current
  | _ => s.current

/-- The frames in the ring, in the order in which the DMA will come to them. -/
def inRing (s : EthTx) : List (List UInt8) :=
  Handover.collect enetTxbufNum (fun i => (s.desc i).content) enetTxbufNum s.dmaDesc

end EthTx

namespace TxPhase

/-- The frame that is on its way into the descriptor. -/
def inHand (d : TxDesc) : TxPhase → List (List UInt8)
  | .waiting p => [p.bytes]
  | .copying framelength q => [readBuffer d.buffer 0 framelength ++ q.flatten]
  | .transmitting framelength => [readBuffer d.buffer 0 framelength]
  | .giving => [readBuffer d.buffer 0 d.length]
  | _ => []

/-- The descriptor is the task's for as long as it is filled. -/
def Fills (d : TxDesc) : TxPhase → Prop
  | .copying framelength q => d.dav = false ∧ framelength + q.flatten.length ≤ enetMaxFrameSize
  | .transmitting framelength => d.dav = false ∧ framelength ≤ enetMaxFrameSize
  | .giving => d.dav = false
  | _ => True

/-- What the task has seen of the flags still holds. -/
def Knows (dma : TxDma) (tbu tu : Bool) : TxPhase → Prop
  | .askingTu seen => seen = true → tbu = true
  | .clearing tbu' tu' => dma = .asleep ∧ tbu = tbu' ∧ tu = tu'
  | .polling => dma = .asleep ∧ tbu = false ∧ tu = false
  | _ => True

/-- The task will still see what the DMA must be woken for. -/
def Wakes (tu : Bool) : TxPhase → Prop
  | .asking | .clearing _ _ | .polling => True
  | .askingTu tbu => tbu = true ∨ tu = true
  | _ => False

/-- A descriptor that is the DMA's is not the one that is being filled. -/
theorem Fills.of_dav {phase : TxPhase} {d : TxDesc} (h : phase.Fills d) (hdav : d.dav = true)
    (d' : TxDesc) : phase.inHand d' = phase.inHand d ∧ phase.Fills d' := by
  cases phase with
  | copying framelength q => exact absurd hdav (by simp [h.1])
  | transmitting framelength => exact absurd hdav (by simp [h.1])
  | giving => exact absurd hdav (by simp [show d.dav = false from h])
  | _ => exact ⟨rfl, trivial⟩

/-- Before the DMA goes to sleep, it is not being woken. -/
theorem Knows.of_awake {phase : TxPhase} {dma : TxDma} {tbu tu : Bool} (h : phase.Knows dma tbu tu)
    (hdma : dma ≠ .asleep) {tbu' : Bool} (htbu : tbu = true → tbu' = true) (dma' : TxDma)
    (tu' : Bool) : phase.Knows dma' tbu' tu' := by
  cases phase with
  | askingTu seen => exact fun hseen => htbu (h hseen)
  | clearing _ _ => exact absurd h.1 hdma
  | polling => exact absurd h.1 hdma
  | _ => trivial

end TxPhase

/-- The DMA has sent a part of the first frame in the ring. -/
def TxDma.Fits (ring : List (List UInt8)) : TxDma → Prop
  | .sending p => ∃ x rest, ring = x :: rest ∧ p = x.take p.length
  | _ => True

def TxFate.Settles : TxFate → List UInt8 → Prop
  | .sent p, x => p = x
  | .underflow, _ => True

structure EthTx.Accounts (s : EthTx) (done ring : List (List UInt8)) : Prop where
  given : s.given = done ++ ring ++ s.phase.inHand (s.desc s.current)
  settled : List.Forall₂ TxFate.Settles s.fates done
  holds : Handover.Holds enetTxbufNum (fun i => (s.desc i).content) s.dmaDesc s.tail ring
  dma : s.dma.Fits ring
  fills : s.phase.Fills (s.desc s.current)
  results : ∀ r ∈ s.results, r = true
  /-- A flag stands for a DMA that sleeps for one reason. -/
  flagged : (s.tbu = true ∨ s.tu = true) → s.dma = .asleep
  once : s.tbu = true → s.tu = false
  asleep : s.dma = .asleep → (s.tbu = true ∨ s.tu = true) ∨ s.phase = .polling
  knows : s.phase.Knows s.dma s.tbu s.tu
  wakes : s.dma = .asleep → ring ≠ [] → s.late = true ∨ s.phase.Wakes s.tu

namespace EthTx.Accounts

variable {s : EthTx} {done ring : List (List UInt8)}

theorem start : EthTx.start.Accounts [] [] where
  given := rfl
  settled := .nil
  holds := Handover.Holds.empty (by decide)
  dma := trivial
  fills := trivial
  results := nofun
  flagged := nofun
  once := nofun
  asleep := nofun
  knows := trivial
  wakes _ h := absurd rfl h

section Dma

theorem flags_of_awake (h : s.Accounts done ring) (hdma : s.dma ≠ .asleep) :
    s.tbu = false ∧ s.tu = false := by
  constructor
  · by_contra htbu
    exact hdma (h.flagged (.inl (by simpa using htbu)))
  · by_contra htu
    exact hdma (h.flagged (.inr (by simpa using htu)))

theorem dav_cons {x : List UInt8} (h : s.Accounts done (x :: ring)) :
    (s.desc s.dmaDesc).dav = true ∧
      readBuffer (s.desc s.dmaDesc).buffer 0 (s.desc s.dmaDesc).length = x := by
  have hsome := h.holds.take_eq_some
  rw [TxDesc.content] at hsome
  split at hsome
  · exact ⟨‹_›, Option.some.inj hsome⟩
  · exact absurd hsome nofun

theorem cons_of_dav (h : s.Accounts done ring) (hdav : (s.desc s.dmaDesc).dav = true) :
    ∃ x rest, ring = x :: rest := by
  obtain ⟨rest, hring⟩ := h.holds.exists_cons (x := readBuffer (s.desc s.dmaDesc).buffer 0
    (s.desc s.dmaDesc).length) (by rw [TxDesc.content, if_pos hdav])
  exact ⟨_, rest, hring⟩

/-- The DMA moves on and stays awake. -/
theorem stir (h : s.Accounts done ring) (hdma : s.dma ≠ .asleep) {dma : TxDma}
    (hfits : dma.Fits ring) (hawake : dma ≠ .asleep) :
    ({ s with dma := dma } : EthTx).Accounts done ring := by
  obtain ⟨htbu, htu⟩ := h.flags_of_awake hdma
  exact ⟨h.given, h.settled, h.holds, hfits, h.fills, h.results, by simp [htbu, htu], h.once,
    fun hasleep => absurd hasleep hawake, h.knows.of_awake hdma id _ _,
    fun hasleep => absurd hasleep hawake⟩

theorem look (h : s.Accounts done ring) (hdma : s.dma = .looking) :
    s.dmaStep.Accounts done ring := by
  simp only [dmaStep, hdma]
  split
  · obtain ⟨x, rest, rfl⟩ := h.cons_of_dav ‹_›
    exact h.stir (by simp [hdma]) ⟨x, rest, rfl, rfl⟩ (by simp)
  · exact h.stir (by simp [hdma]) trivial (by simp)

/-- The flag tells the task of it, unless the task has already looked. -/
theorem fallAsleep (h : s.Accounts done ring) (hdma : s.dma = .foundNone) :
    s.dmaStep.Accounts done ring := by
  have hawake : s.dma ≠ .asleep := by simp [hdma]
  obtain ⟨_, htu⟩ := h.flags_of_awake hawake
  simp only [dmaStep, hdma]
  refine ⟨h.given, h.settled, h.holds, trivial, h.fills, h.results, fun _ => rfl, fun _ => htu,
    fun _ => .inl (.inl rfl), h.knows.of_awake hawake (fun _ => rfl) _ _, fun _ hring => ?_⟩
  obtain ⟨x, rest, rfl⟩ := List.exists_cons_of_ne_nil hring
  exact .inl h.dav_cons.1

/-- The descriptor that the DMA is through with is the task's again. -/
theorem holds_close {x : List UInt8} (h : s.Accounts done (x :: ring)) :
    Handover.Holds enetTxbufNum
      (fun i => (Function.update s.desc s.dmaDesc { s.desc s.dmaDesc with dav := false } i).content)
      (Handover.next enetTxbufNum s.dmaDesc) s.tail ring := by
  refine h.holds.drop.of_eq fun i _ => ?_
  by_cases hi : i = s.dmaDesc
  · subst hi
    simp [TxDesc.content]
  · simp [Function.update_of_ne hi]

theorem inHand_close {x : List UInt8} (h : s.Accounts done (x :: ring)) (d : TxDesc) :
    s.phase.inHand (Function.update s.desc s.dmaDesc d s.current) =
        s.phase.inHand (s.desc s.current) ∧
      s.phase.Fills (Function.update s.desc s.dmaDesc d s.current) := by
  by_cases hcurrent : s.current = s.dmaDesc
  · exact h.fills.of_dav (by rw [hcurrent]; exact h.dav_cons.1) _
  · rw [Function.update_of_ne hcurrent]
    exact ⟨rfl, h.fills⟩

theorem next_ne (i : Nat) : Handover.next enetTxbufNum i ≠ i := by
  rw [Handover.next, enetTxbufNum]
  split
  · omega
  · omega

theorem send (h : s.Accounts done ring) {p : List UInt8} (hdma : s.dma = .sending p) :
    ∃ done' ring', s.dmaStep.Accounts done' ring' := by
  have hawake : s.dma ≠ .asleep := by simp [hdma]
  have hp := h.dma
  rw [hdma] at hp
  obtain ⟨x, rest, rfl, hp⟩ := hp
  obtain ⟨_, hread⟩ := h.dav_cons
  have hlength := congrArg List.length hread
  rw [length_readBuffer] at hlength
  simp only [dmaStep, hdma]
  split
  · rename_i hlt
    refine ⟨done, x :: rest, h.stir hawake ⟨x, rest, rfl, ?_⟩ (by simp)⟩
    have htake : ∀ k ≤ (s.desc s.dmaDesc).length,
        x.take k = readBuffer (s.desc s.dmaDesc).buffer 0 k := fun k hk => by
      rw [← hread, readBuffer_take _ hk]
    have hnext : readBuffer (s.desc s.dmaDesc).buffer (0 + p.length) 1 =
        [(s.desc s.dmaDesc).buffer p.length] := by simp [readBuffer]
    rw [List.length_append, List.length_singleton, htake (p.length + 1) hlt, ← readBuffer_succ,
      hnext, ← htake _ (Nat.le_of_lt hlt), ← hp]
  · rename_i hge
    obtain ⟨hhand, hfills⟩ := h.inHand_close { s.desc s.dmaDesc with dav := false }
    obtain ⟨htbu, htu⟩ := h.flags_of_awake hawake
    refine ⟨done ++ [x], rest, ?_, List.rel_append h.settled (.cons ?_ .nil), h.holds_close,
      trivial, hfills, h.results, by simp [setDesc, htbu, htu], h.once, by simp,
      h.knows.of_awake hawake id _ _, by simp⟩
    · simp [setDesc, h.given, hhand]
    · rw [TxFate.Settles, hp]
      exact List.take_of_length_le (by omega)

theorem underflow (h : s.Accounts done ring) :
    ∃ done' ring', s.underflow.Accounts done' ring' := by
  rw [EthTx.underflow]
  split
  · rename_i hdma
    have hawake : s.dma ≠ .asleep := by simp [hdma]
    have hp := h.dma
    rw [hdma] at hp
    obtain ⟨x, rest, rfl, _⟩ := hp
    obtain ⟨hhand, hfills⟩ := h.inHand_close { s.desc s.dmaDesc with dav := false }
    obtain ⟨htbu, _⟩ := h.flags_of_awake hawake
    refine ⟨done ++ [x], rest, ?_, List.rel_append h.settled (.cons trivial .nil), h.holds_close,
      trivial, hfills, h.results, fun _ => rfl, by simp [setDesc, htbu], fun _ => .inl (.inr rfl),
      h.knows.of_awake hawake id _ _, fun _ hring => ?_⟩
    · simp [setDesc, h.given, hhand]
    · obtain ⟨y, rest, rfl⟩ := List.exists_cons_of_ne_nil hring
      have hsome := h.holds_close.take_eq_some
      simp only [Function.update_of_ne (next_ne s.dmaDesc), TxDesc.content] at hsome
      split at hsome
      · exact .inl ‹_›
      · exact absurd hsome nofun
  · exact ⟨done, ring, h⟩

theorem dmaStep (h : s.Accounts done ring) : ∃ done' ring', s.dmaStep.Accounts done' ring' := by
  cases hdma : s.dma with
  | looking => exact ⟨done, ring, h.look hdma⟩
  | foundNone => exact ⟨done, ring, h.fallAsleep hdma⟩
  | sending p => exact h.send hdma
  | asleep =>
    simp only [EthTx.dmaStep, hdma]
    exact ⟨done, ring, h⟩

end Dma

section Task

theorem readBuffer_overlay (buffer : Nat → UInt8) (k : Nat) (q : List UInt8) :
    readBuffer (overlay (fun _ b => b) buffer k q.length fun i => q.getD i 0) 0 (k + q.length) =
      readBuffer buffer 0 k ++ q := by
  rw [← readBuffer_succ]
  congr 1
  · refine List.map_congr_left fun i hi => ?_
    rw [overlay_out _ _ _ (by have := List.mem_range.1 hi; omega)]
  · refine List.ext_getElem (length_readBuffer _ _ _) fun i h h' => ?_
    simp [readBuffer, overlay, h']

/-- A step that leaves the descriptors and the flags alone. -/
theorem move (h : s.Accounts done ring) {phase : TxPhase}
    (htail : ({ s with phase := phase } : EthTx).tail = s.tail)
    (hhand : phase.inHand (s.desc s.current) = s.phase.inHand (s.desc s.current))
    (hfills : phase.Fills (s.desc s.current)) (hknows : phase.Knows s.dma s.tbu s.tu)
    (hpolling : s.phase ≠ .polling)
    (hwakes : s.dma = .asleep → ring ≠ [] → s.late = true ∨ phase.Wakes s.tu) :
    ({ s with phase := phase } : EthTx).Accounts done ring where
  given := by
    rw [hhand]
    exact h.given
  settled := h.settled
  holds := by
    rw [htail]
    exact h.holds
  dma := h.dma
  fills := hfills
  results := h.results
  flagged := h.flagged
  once := h.once
  asleep hasleep := .inl ((h.asleep hasleep).resolve_right hpolling)
  knows := hknows
  wakes := hwakes

/-- A step that writes into the current descriptor before it is the DMA's. -/
theorem fill (h : s.Accounts done ring) (hdav : (s.desc s.current).dav = false) {d : TxDesc}
    (hd : d.dav = false) {phase : TxPhase}
    (htail : ({ s with phase := phase } : EthTx).tail = s.tail)
    (hhand : phase.inHand d = s.phase.inHand (s.desc s.current)) (hfills : phase.Fills d)
    (hknows : phase.Knows s.dma s.tbu s.tu) (hpolling : s.phase ≠ .polling)
    (hwakes : s.dma = .asleep → ring ≠ [] → s.late = true ∨ phase.Wakes s.tu) :
    ({ s.setDesc s.current d with phase := phase } : EthTx).Accounts done ring where
  given := by
    show s.given = done ++ ring ++ phase.inHand (Function.update s.desc s.current d s.current)
    rw [Function.update_self, hhand]
    exact h.given
  settled := h.settled
  holds := by
    have hholds := h.holds
    rw [← htail] at hholds
    refine hholds.of_eq fun i _ => ?_
    by_cases hi : i = s.current
    · subst hi
      simp [setDesc, TxDesc.content, hd, hdav]
    · simp [setDesc, Function.update_of_ne hi]
  dma := h.dma
  fills := by
    show phase.Fills (Function.update s.desc s.current d s.current)
    rw [Function.update_self]
    exact hfills
  results := h.results
  flagged := h.flagged
  once := h.once
  asleep hasleep := .inl ((h.asleep hasleep).resolve_right hpolling)
  knows := hknows
  wakes := hwakes

theorem wait (h : s.Accounts done ring) {p : PbufChain} (hphase : s.phase = .waiting p) :
    s.taskStep.Accounts done ring := by
  have hwakes := h.wakes
  rw [hphase] at hwakes
  simp only [taskStep, hphase]
  split
  · exact h
  · rename_i hdav
    refine h.move (by simp [tail, hphase]) ?_ ⟨by simpa using hdav, ?_⟩ trivial (by simp [hphase])
      hwakes
    · simp [TxPhase.inHand, hphase, PbufChain.bytes, readBuffer]
    · rw [Nat.zero_add]
      exact p.fits

theorem copy (h : s.Accounts done ring) {framelength : Nat} {q : List (List UInt8)}
    (hphase : s.phase = .copying framelength q) : s.taskStep.Accounts done ring := by
  have hfills := h.fills
  have hwakes := h.wakes
  rw [hphase] at hfills hwakes
  obtain ⟨hdav, hle⟩ := hfills
  cases q with
  | nil =>
    simp only [taskStep, hphase]
    exact h.move (by simp [tail, hphase]) (by simp [TxPhase.inHand, hphase])
      ⟨hdav, by simpa using hle⟩ trivial (by simp [hphase]) hwakes
  | cons q qs =>
    rw [List.flatten_cons, List.length_append] at hle
    have hmod : (framelength + q.length) % 65536 = framelength + q.length := by
      rw [enetMaxFrameSize] at hle
      exact Nat.mod_eq_of_lt (by omega)
    simp only [taskStep, hphase, hmod]
    apply h.fill hdav
    · exact hdav
    · simp [tail, hphase]
    · simp only [TxPhase.inHand, hphase, readBuffer_overlay, List.flatten_cons, List.append_assoc]
    · exact ⟨hdav, by omega⟩
    · trivial
    · simp [hphase]
    · exact hwakes

theorem transmit (h : s.Accounts done ring) {framelength : Nat}
    (hphase : s.phase = .transmitting framelength) : s.taskStep.Accounts done ring := by
  have hfills := h.fills
  have hwakes := h.wakes
  rw [hphase] at hfills hwakes
  obtain ⟨hdav, hle⟩ := hfills
  simp only [taskStep, hphase]
  rw [if_neg (by simp [hdav]), if_neg (by omega)]
  apply h.fill hdav
  · exact hdav
  · simp [tail, hphase]
  · simp [TxPhase.inHand, hphase]
  · exact hdav
  · trivial
  · simp [hphase]
  · exact hwakes

theorem give (h : s.Accounts done ring) (hphase : s.phase = .giving) :
    ∃ ring', s.taskStep.Accounts done ring' := by
  have hdav := h.fills
  have hasleep := h.asleep
  rw [hphase] at hdav hasleep
  have hcurrent : (s.desc s.current).dav = false := hdav
  refine ⟨ring ++ [readBuffer (s.desc s.current).buffer 0 (s.desc s.current).length], ?_⟩
  simp only [taskStep, hphase]
  refine ⟨?_, h.settled, ?_, ?_, trivial, h.results, h.flagged, h.once,
    fun hdma => .inl ((hasleep hdma).resolve_right nofun), trivial, fun _ _ => .inr trivial⟩
  · simp [setDesc, h.given, hphase, TxPhase.inHand]
  · have hholds := h.holds
    rw [show s.tail = s.current by rw [tail, hphase]] at hholds
    refine (hholds.put (by simp [TxDesc.content, hcurrent]) _).of_eq fun i _ => ?_
    by_cases hi : i = s.current
    · subst hi
      simp [setDesc, TxDesc.content]
    · simp [setDesc, Function.update_of_ne hi]
  · have hdma := h.dma
    simp only [setDesc]
    cases hs : s.dma with
    | sending p =>
      rw [hs] at hdma
      obtain ⟨x, rest, rfl, hp⟩ := hdma
      exact ⟨x, rest ++ _, rfl, hp⟩
    | _ => trivial

/-- The status is looked at after the frame is there. -/
theorem ask (h : s.Accounts done ring) (hphase : s.phase = .asking) :
    s.taskStep.Accounts done ring := by
  have hasleep := h.asleep
  rw [hphase] at hasleep
  simp only [taskStep, hphase]
  exact h.move (by simp [tail, hphase]) (by simp [TxPhase.inHand, hphase]) trivial id
    (by simp [hphase]) fun hdma _ => .inr ((hasleep hdma).resolve_right nofun)

theorem askTu (h : s.Accounts done ring) {tbu : Bool} (hphase : s.phase = .askingTu tbu) :
    s.taskStep.Accounts done ring := by
  have hwakes := h.wakes
  have hknows := h.knows
  have honce := h.once
  rw [hphase] at hwakes hknows
  simp only [taskStep, hphase]
  split
  · rename_i hseen
    have hflag : s.tbu = true ∨ s.tu = true := by
      rcases (show tbu = true ∨ s.tu = true by simpa using hseen) with htbu | htu
      · exact .inl (hknows htbu)
      · exact .inr htu
    have hread : s.tbu = tbu := by
      cases htbu : tbu with
      | true => exact hknows htbu
      | false =>
        rw [htbu, Bool.false_or] at hseen
        cases hs : s.tbu with
        | true => exact absurd hseen (by simp [honce hs])
        | false => rfl
    exact h.move (by simp [tail, hphase]) (by simp [TxPhase.inHand, hphase]) trivial
      ⟨h.flagged hflag, hread, rfl⟩ (by simp [hphase]) fun _ _ => .inr trivial
  · rename_i hseen
    refine h.move (by simp [tail, hphase]) (by simp [TxPhase.inHand, hphase]) trivial trivial
      (by simp [hphase]) fun hdma hring => .inl ((hwakes hdma hring).resolve_right ?_)
    simpa [TxPhase.Wakes] using hseen

theorem clear (h : s.Accounts done ring) {tbu tu : Bool} (hphase : s.phase = .clearing tbu tu) :
    s.taskStep.Accounts done ring := by
  have hgiven := h.given
  have hholds := h.holds
  have hknows := h.knows
  rw [hphase] at hgiven hknows
  rw [show s.tail = Handover.next enetTxbufNum s.current by rw [tail, hphase]] at hholds
  obtain ⟨hdma, htbu, htu⟩ := hknows
  simp only [taskStep, hphase, htbu, htu, Bool.and_not_self]
  exact ⟨hgiven, h.settled, hholds, h.dma, trivial, h.results, fun _ => hdma, nofun,
    fun _ => .inr rfl, ⟨hdma, rfl, rfl⟩, fun _ _ => .inr trivial⟩

/-- The DMA is awake again, and no flag is left of its sleep. -/
theorem poll (h : s.Accounts done ring) (hphase : s.phase = .polling) :
    s.taskStep.Accounts done ring := by
  have hgiven := h.given
  have hholds := h.holds
  have hknows := h.knows
  rw [hphase] at hgiven hknows
  rw [show s.tail = Handover.next enetTxbufNum s.current by rw [tail, hphase]] at hholds
  obtain ⟨hdma, htbu, htu⟩ := hknows
  simp only [taskStep, hphase, hdma, if_true]
  exact ⟨hgiven, h.settled, hholds, trivial, trivial, h.results, by simp [htbu, htu], h.once, nofun,
    trivial, nofun⟩

theorem advance (h : s.Accounts done ring) (hphase : s.phase = .advancing) :
    s.taskStep.Accounts done ring := by
  have hgiven := h.given
  have hholds := h.holds
  have hasleep := h.asleep
  have hwakes := h.wakes
  rw [hphase] at hgiven hasleep hwakes
  rw [show s.tail = Handover.next enetTxbufNum s.current by rw [tail, hphase]] at hholds
  simp only [taskStep, hphase]
  refine ⟨hgiven, h.settled, hholds, h.dma, trivial, fun r hr => ?_, h.flagged, h.once,
    fun hdma => .inl ((hasleep hdma).resolve_right nofun), trivial, hwakes⟩
  rcases List.mem_append.1 hr with hr | hr
  · exact h.results r hr
  · exact List.mem_singleton.1 hr

theorem taskStep (h : s.Accounts done ring) : ∃ ring', s.taskStep.Accounts done ring' := by
  cases hphase : s.phase with
  | idle =>
    simp only [EthTx.taskStep, hphase]
    exact ⟨ring, h⟩
  | waiting p => exact ⟨ring, h.wait hphase⟩
  | copying framelength q => exact ⟨ring, h.copy hphase⟩
  | transmitting framelength => exact ⟨ring, h.transmit hphase⟩
  | giving => exact h.give hphase
  | asking => exact ⟨ring, h.ask hphase⟩
  | askingTu tbu => exact ⟨ring, h.askTu hphase⟩
  | clearing tbu tu => exact ⟨ring, h.clear hphase⟩
  | polling => exact ⟨ring, h.poll hphase⟩
  | advancing => exact ⟨ring, h.advance hphase⟩

theorem accept (h : s.Accounts done ring) (hphase : s.phase = .idle) (p : PbufChain) :
    ({ s with given := s.given ++ [p.bytes], phase := .waiting p } : EthTx).Accounts done ring := by
  have hgiven := h.given
  have hholds := h.holds
  have hasleep := h.asleep
  have hwakes := h.wakes
  rw [hphase] at hgiven hasleep hwakes
  rw [show s.tail = s.current by rw [tail, hphase]] at hholds
  refine ⟨?_, h.settled, hholds, h.dma, trivial, h.results, h.flagged, h.once,
    fun hdma => .inl ((hasleep hdma).resolve_right nofun), trivial, hwakes⟩
  rw [hgiven]
  simp [TxPhase.inHand]

end Task

theorem step (h : s.Accounts done ring) (m : TxMove) :
    ∃ done' ring', (s.step m).Accounts done' ring' := by
  cases m with
  | send p =>
    cases hphase : s.phase with
    | idle =>
      simp only [EthTx.step, hphase]
      exact ⟨done, ring, h.accept hphase p⟩
    | _ =>
      simp only [EthTx.step, hphase]
      exact ⟨done, ring, h⟩
  | task => exact ⟨done, h.taskStep⟩
  | dma => exact h.dmaStep
  | underflow => exact h.underflow

end EthTx.Accounts

end Lsc100
