import Mathlib.Data.List.Forall2
import Lsc100.Net.EthernetRx

/-! What becomes of the frames that the receiving DMA has put into the ring. -/

namespace Lsc100

open Overlay

def RxDesc.content (tfcd : Bool) (d : RxDesc) : Option (List UInt8) :=
  if d.dav then none else some (readBuffer d.buffer 0 (d.frameLength tfcd))

namespace EthRx

/-- The descriptor from which on the frames are still in the ring. -/
def head (s : EthRx) : Nat :=
  match s.phase with
  | .advancing _ => Handover.next enetRxbufNum s.current
  | _ => s.current

/-- The frames in the ring, in the order in which they will be taken out. -/
def inRing (tfcd : Bool) (s : EthRx) : List (List UInt8) :=
  Handover.collect enetRxbufNum (fun i => (s.desc i).content tfcd) enetRxbufNum s.head

/-- The frame that is on its way to the stack. -/
def inHand (s : EthRx) : List (List UInt8) :=
  match s.phase with
  | .advancing (.frame p) => [p]
  | .handing (.frame p) => [p]
  | _ => []

/-- Nothing makes the waiting task look at the ring. -/
def Quiet (s : EthRx) : Prop := s.sem = false ∧ s.rs = false

end EthRx

/-- The fate is one that the frame can have had. -/
def Arrival.Settled (a : Arrival) : FrameFate → Prop
  | .accepted p => p = a.bytes
  | .refused p => p = a.bytes
  | .noMemory => True
  | .overlooked => a.unseen = true

/-- How far a pass has come, seen from the frames in the ring. -/
def RxPhase.Fits (ring : List Arrival) : RxPhase → Prop
  | .allocating len => ∃ a rest, ring = a :: rest ∧ a.bytes.length = len
  | .copying p lens => ∃ a rest, ring = a :: rest ∧ p = a.bytes.take p.length ∧
      p.length + lens.sum = a.bytes.length
  | .receiving .empty => ∀ a ∈ ring, a.unseen = true
  | .receiving .noMemory => ring ≠ []
  | .receiving (.frame p) => ∃ a rest, ring = a :: rest ∧ a.bytes = p
  | _ => True

/-- No frame waits in the ring that nothing will make the task look at, unless the last pass broke
off. -/
def EthRx.Noticed (s : EthRx) (ring : List Arrival) : Prop :=
  match s.phase with
  | .waiting => s.Quiet → ring = [] ∨ s.brokeOff = true
  | .receiving .empty | .advancing .empty | .handing .empty => s.Quiet → ring = []
  | _ => True

structure EthRx.Accounts (tfcd : Bool) (s : EthRx) (seen hand ring : List Arrival) : Prop where
  received : s.received = seen ++ hand ++ ring
  settled : List.Forall₂ (fun f (a : Arrival) => a.Settled f) s.fates seen
  hand : hand.map Arrival.bytes = s.inHand
  holds : Handover.Holds enetRxbufNum (fun i => (s.desc i).content tfcd) s.head s.dma
    (ring.map Arrival.bytes)
  free : ∀ i, (s.desc i).dav = true → (s.desc i).frml = 0
  pos : ∀ a ∈ ring, 0 < a.bytes.length
  fits : s.phase.Fits ring
  given : s.irq = .given → s.sem = true
  noticed : s.Noticed ring

section Buffer

theorem readBuffer_succ (buffer : Nat → UInt8) (l k len : Nat) :
    readBuffer buffer l k ++ readBuffer buffer (l + k) len = readBuffer buffer l (k + len) := by
  simp only [readBuffer, List.range_add, List.map_append, List.map_map]
  congr 1
  refine List.map_congr_left fun i _ => ?_
  simp only [Function.comp, Nat.add_assoc]

theorem readBuffer_take (buffer : Nat → UInt8) {k len : Nat} (h : k ≤ len) :
    (readBuffer buffer 0 len).take k = readBuffer buffer 0 k := by
  rw [readBuffer, ← List.map_take, List.take_range, Nat.min_eq_left h, readBuffer]

theorem length_readBuffer (buffer : Nat → UInt8) (l len : Nat) :
    (readBuffer buffer l len).length = len := by
  simp [readBuffer]

/-- The descriptor that the DMA leaves behind shows the frame. -/
theorem content_complete (tfcd : Bool) (d : RxDesc) (f : EthFrame) :
    RxDesc.content tfcd
      { dav := false
        frml := if tfcd && f.typed then f.bytes.length else f.bytes.length + 4
        frmt := f.typed
        buffer := overlay (fun _ b => b) d.buffer 0 f.bytes.length fun i => f.bytes.getD i 0 } =
      some f.bytes := by
  have hlength : RxDesc.frameLength tfcd
      { dav := false
        frml := if tfcd && f.typed then f.bytes.length else f.bytes.length + 4
        frmt := f.typed
        buffer := overlay (fun _ b => b) d.buffer 0 f.bytes.length fun i => f.bytes.getD i 0 } =
      f.bytes.length := by
    have := f.header
    cases htyped : tfcd && f.typed with
    | true =>
      simp only [RxDesc.frameLength, htyped, if_true]
      rw [if_pos (by omega)]
      omega
    | false =>
      simp only [RxDesc.frameLength, htyped, Bool.false_eq_true, if_false]
      rw [if_pos (by omega)]
      omega
  rw [RxDesc.content, if_neg (by simp), hlength]
  refine congrArg some (List.ext_getElem (by simp [readBuffer]) fun i h _ => ?_)
  rw [length_readBuffer] at h
  simp [readBuffer, overlay, h]

theorem frameLength_zero (tfcd : Bool) {d : RxDesc} (h : d.frml = 0) :
    d.frameLength tfcd = 0 := by
  simp [RxDesc.frameLength, h]

end Buffer

section Fits

variable {ring : List Arrival} {a : Arrival}

/-- A frame that comes in behind the others does not change what the pass has of the first. -/
theorem RxPhase.Fits.append {phase : RxPhase} (h : phase.Fits ring)
    (hunseen : phase = .receiving .empty → a.unseen = true) : phase.Fits (ring ++ [a]) := by
  match phase, h with
  | .allocating _, ⟨first, rest, hring, hlen⟩ =>
    subst hring
    exact ⟨first, rest ++ [a], rfl, hlen⟩
  | .copying _ _, ⟨first, rest, hring, hp, hlen⟩ =>
    subst hring
    exact ⟨first, rest ++ [a], rfl, hp, hlen⟩
  | .receiving .empty, h =>
    intro b hb
    rcases List.mem_append.1 hb with hb | hb
    · exact h b hb
    · rw [List.mem_singleton.1 hb]
      exact hunseen rfl
  | .receiving .noMemory, _ => exact List.append_ne_nil_of_right_ne_nil _ (List.cons_ne_nil _ _)
  | .receiving (.frame _), ⟨first, rest, hring, hp⟩ =>
    subst hring
    exact ⟨first, rest ++ [a], rfl, hp⟩
  | .waiting, _ => trivial
  | .probing, _ => trivial
  | .advancing _, _ => trivial
  | .handing _, _ => trivial

theorem EthRx.Noticed.mono {s t : EthRx} {ring' : List Arrival} (h : s.Noticed ring)
    (hphase : t.phase = s.phase) (hbroke : t.brokeOff = s.brokeOff)
    (hquiet : t.Quiet → s.Quiet ∧ ring' = ring) : t.Noticed ring' := by
  simp only [Noticed, hphase, hbroke] at h ⊢
  split <;> simp_all

end Fits

namespace EthRx.Accounts

variable {tfcd : Bool} {s : EthRx} {seen hand ring : List Arrival} {chain : Option (List Nat)}
  {inputOk : Bool}

theorem start (tfcd : Bool) : EthRx.start.Accounts tfcd [] [] [] where
  received := rfl
  settled := .nil
  hand := rfl
  holds := Handover.Holds.empty (by decide)
  free _ _ := rfl
  pos := nofun
  fits := trivial
  given := nofun
  noticed _ := .inl rfl

theorem scribble (h : s.Accounts tfcd seen hand ring) (i : Nat) (b : UInt8) :
    (s.scribble i b).Accounts tfcd seen hand ring := by
  rw [EthRx.scribble]
  split
  · rename_i hdav
    refine ⟨h.received, h.settled, h.hand, h.holds.of_eq fun j _ => ?_, fun j => ?_, h.pos, h.fits,
      h.given, h.noticed.mono rfl rfl fun hq => ⟨hq, rfl⟩⟩
    · by_cases hj : j = s.dma
      · subst hj
        simp [EthRx.setDesc, RxDesc.content, hdav]
      · simp [EthRx.setDesc, Function.update_of_ne hj]
    · by_cases hj : j = s.dma
      · subst hj
        simp only [EthRx.setDesc, Function.update_self]
        exact h.free s.dma
      · simp only [EthRx.setDesc, Function.update_of_ne hj]
        exact h.free j
  · exact h

theorem complete (h : s.Accounts tfcd seen hand ring) (f : EthFrame) :
    ∃ ring', (s.complete tfcd f).Accounts tfcd seen hand ring' := by
  by_cases hdav : (s.desc s.dma).dav = true
  · rw [EthRx.complete, if_pos hdav]
    refine ⟨ring ++ [⟨f.bytes, s.phase.foundNothing⟩], ?_, h.settled, h.hand, ?_, fun j => ?_, ?_,
      ?_, h.given, ?_⟩
    · rw [h.received, List.append_assoc]
    · have hput := h.holds.put (by simp [RxDesc.content, hdav]) f.bytes
      rw [List.map_append]
      refine hput.of_eq fun j _ => ?_
      by_cases hj : j = s.dma
      · subst hj
        simp only [EthRx.setDesc, Function.update_self]
        exact content_complete tfcd _ f
      · simp only [EthRx.setDesc, Function.update_of_ne hj]
    · by_cases hj : j = s.dma
      · subst hj
        simp [EthRx.setDesc]
      · simp only [EthRx.setDesc, Function.update_of_ne hj]
        exact h.free j
    · intro a ha
      rcases List.mem_append.1 ha with ha | ha
      · exact h.pos a ha
      · rw [List.mem_singleton.1 ha]
        exact Nat.lt_of_lt_of_le (by decide) f.header
    · refine h.fits.append fun hphase => ?_
      rw [show s.phase = .receiving .empty from hphase, RxPhase.foundNothing]
    · exact h.noticed.mono rfl rfl fun hq => absurd hq.2 (by simp)
  · rw [EthRx.complete, if_neg hdav]
    exact ⟨ring, h.received, h.settled, h.hand, h.holds, h.free, h.pos, h.fits, h.given,
      h.noticed.mono rfl rfl fun hq => ⟨hq, rfl⟩⟩

theorem irqStep (h : s.Accounts tfcd seen hand ring) : s.irqStep.Accounts tfcd seen hand ring := by
  rw [EthRx.irqStep]
  cases hirq : s.irq with
  | none =>
    simp only
    split
    · exact ⟨h.received, h.settled, h.hand, h.holds, h.free, h.pos, h.fits, nofun,
        h.noticed.mono rfl rfl fun hq => ⟨hq, rfl⟩⟩
    · exact h
  | seen =>
    exact ⟨h.received, h.settled, h.hand, h.holds, h.free, h.pos, h.fits, fun _ => rfl,
      h.noticed.mono rfl rfl fun hq => absurd hq.1 (by simp)⟩
  | given =>
    have hsem := h.given hirq
    exact ⟨h.received, h.settled, h.hand, h.holds, h.free, h.pos, h.fits, nofun,
      h.noticed.mono rfl rfl fun hq => absurd (show s.sem = false from hq.1) (by simp [hsem])⟩

/-- A step of the task that leaves the descriptors alone. -/
theorem move (h : s.Accounts tfcd seen hand ring) {phase : RxPhase}
    (hhead : ({ s with phase := phase } : EthRx).head = s.head)
    (hhand : ({ s with phase := phase } : EthRx).inHand = s.inHand) (hfits : phase.Fits ring)
    (hnoticed : ({ s with phase := phase } : EthRx).Noticed ring) :
    ({ s with phase := phase } : EthRx).Accounts tfcd seen hand ring where
  received := h.received
  settled := h.settled
  hand := by
    rw [hhand]
    exact h.hand
  holds := by
    rw [hhead]
    exact h.holds
  free := h.free
  pos := h.pos
  fits := hfits
  given := h.given
  noticed := hnoticed

theorem frameLength_nil (h : s.Accounts tfcd seen hand []) (hhead : s.head = s.current) :
    (s.desc s.current).dav = true ∧ (s.desc s.current).frameLength tfcd = 0 := by
  have hnone := h.holds.take_eq_none
  rw [hhead, RxDesc.content] at hnone
  split at hnone
  · exact ⟨‹_›, frameLength_zero tfcd (h.free _ ‹_›)⟩
  · exact absurd hnone nofun

theorem frameLength_cons {a : Arrival} (h : s.Accounts tfcd seen hand (a :: ring))
    (hhead : s.head = s.current) :
    (s.desc s.current).dav = false ∧ (s.desc s.current).frameLength tfcd = a.bytes.length ∧
      readBuffer (s.desc s.current).buffer 0 a.bytes.length = a.bytes := by
  have hsome := h.holds.take_eq_some
  rw [hhead, RxDesc.content] at hsome
  split at hsome
  · exact absurd hsome nofun
  · rename_i hdav
    have hread := Option.some.inj hsome
    have hlength := congrArg List.length hread
    rw [length_readBuffer] at hlength
    exact ⟨by simpa using hdav, hlength, by rwa [hlength] at hread⟩

theorem wait (h : s.Accounts tfcd seen hand ring) (hphase : s.phase = .waiting)
    (hirq : s.irq = .none) :
    ({ s with sem := false, phase := .probing } : EthRx).Accounts tfcd seen hand ring where
  received := h.received
  settled := h.settled
  hand := by
    rw [h.hand, inHand, hphase]
    rfl
  holds := by
    have hholds := h.holds
    rw [show s.head = s.current by rw [head, hphase]] at hholds
    exact hholds
  free := h.free
  pos := h.pos
  fits := trivial
  given := by simp [hirq]
  noticed := trivial

theorem probe (h : s.Accounts tfcd seen hand ring) (hphase : s.phase = .probing) :
    (s.taskStep tfcd chain inputOk).Accounts tfcd seen hand ring := by
  have hhead : s.head = s.current := by rw [head, hphase]
  simp only [taskStep, hphase]
  cases ring with
  | nil =>
    rw [if_neg (by rw [(h.frameLength_nil hhead).2]; exact Nat.lt_irrefl 0)]
    exact h.move (by simp [head, hphase]) (by simp [inHand, hphase]) nofun fun _ => rfl
  | cons a ring =>
    obtain ⟨_, hlength, _⟩ := h.frameLength_cons hhead
    have hpos := h.pos a List.mem_cons_self
    rw [hlength, if_pos hpos]
    exact h.move (by simp [head, hphase]) (by simp [inHand, hphase]) ⟨a, ring, rfl, rfl⟩ trivial

theorem allocate (h : s.Accounts tfcd seen hand ring) {len : Nat}
    (hphase : s.phase = .allocating len) :
    (s.taskStep tfcd chain inputOk).Accounts tfcd seen hand ring := by
  have hfits := h.fits
  rw [hphase] at hfits
  obtain ⟨a, rest, rfl, hlength⟩ := hfits
  simp only [taskStep, hphase]
  cases chain with
  | none =>
    exact h.move (by simp [head, hphase]) (by simp [inHand, hphase]) (List.cons_ne_nil a rest)
      trivial
  | some lens =>
    simp only
    split
    · exact h.move (by simp [head, hphase]) (by simp [inHand, hphase])
        ⟨a, rest, rfl, rfl, by simp_all⟩ trivial
    · exact h

theorem copy (h : s.Accounts tfcd seen hand ring) {p : List UInt8} {lens : List Nat}
    (hphase : s.phase = .copying p lens) :
    (s.taskStep tfcd chain inputOk).Accounts tfcd seen hand ring := by
  have hhead : s.head = s.current := by rw [head, hphase]
  have hfits := h.fits
  rw [hphase] at hfits
  obtain ⟨a, rest, rfl, hp, hlength⟩ := hfits
  cases lens with
  | nil =>
    simp only [taskStep, hphase]
    rw [List.sum_nil, Nat.add_zero] at hlength
    rw [hlength, List.take_length] at hp
    exact h.move (by simp [head, hphase]) (by simp [inHand, hphase]) ⟨a, rest, rfl, hp.symm⟩
      trivial
  | cons len lens =>
    simp only [taskStep, hphase]
    rw [List.sum_cons] at hlength
    obtain ⟨_, _, hread⟩ := h.frameLength_cons hhead
    have htake : ∀ k ≤ a.bytes.length,
        a.bytes.take k = readBuffer (s.desc s.current).buffer 0 k := fun k hk => by
      rw [← readBuffer_take _ hk, hread]
    refine h.move (by simp [head, hphase]) (by simp [inHand, hphase]) ⟨a, rest, rfl, ?_, ?_⟩ trivial
    · rw [List.length_append, length_readBuffer, htake _ (by omega), ← readBuffer_succ,
        ← htake _ (by omega), ← hp, Nat.zero_add]
    · rw [List.length_append, length_readBuffer]
      omega

/-- The descriptor is the DMA's again. -/
theorem release {a : Arrival} (h : s.Accounts tfcd seen hand (a :: ring))
    (hhead : s.head = s.current) :
    Handover.Holds enetRxbufNum
      (fun i => ((s.setDesc s.current
        { s.desc s.current with dav := true, frml := 0, frmt := false }).desc i).content tfcd)
      (Handover.next enetRxbufNum s.current) s.dma (ring.map Arrival.bytes) := by
  have hdrop := h.holds.drop
  rw [hhead] at hdrop
  refine hdrop.of_eq fun i _ => ?_
  by_cases hi : i = s.current
  · subst hi
    simp [EthRx.setDesc, RxDesc.content]
  · simp [EthRx.setDesc, Function.update_of_ne hi]

theorem free_release (h : s.Accounts tfcd seen hand ring) (i : Nat) :
    ((s.setDesc s.current { s.desc s.current with dav := true, frml := 0, frmt := false }).desc
      i).dav = true →
    ((s.setDesc s.current { s.desc s.current with dav := true, frml := 0, frmt := false }).desc
      i).frml = 0 := by
  by_cases hi : i = s.current
  · subst hi
    simp [EthRx.setDesc]
  · simp only [EthRx.setDesc, Function.update_of_ne hi]
    exact h.free i

theorem hand_eq_nil (h : s.Accounts tfcd seen hand ring) (hnil : s.inHand = []) : hand = [] := by
  have hhand := h.hand
  rw [hnil] at hhand
  exact List.map_eq_nil_iff.1 hhand

theorem receive (h : s.Accounts tfcd seen hand ring) {g : Grab}
    (hphase : s.phase = .receiving g) :
    ∃ seen' hand' ring', (s.frameReceive g).Accounts tfcd seen' hand' ring' := by
  have hhead : s.head = s.current := by rw [head, hphase]
  have hfits := h.fits
  have hnoticed := h.noticed
  rw [hphase] at hfits
  rw [Noticed, hphase] at hnoticed
  cases ring with
  | nil =>
    simp only [frameReceive, (h.frameLength_nil hhead).1, if_true]
    cases g with
    | empty =>
      exact ⟨seen, hand, [], h.move (by simp [head, hphase]) (by simp [inHand, hphase]) trivial
        fun _ => rfl⟩
    | noMemory => exact absurd rfl hfits
    | frame p =>
      obtain ⟨a, rest, hring, _⟩ := hfits
      exact absurd hring.symm (List.cons_ne_nil a rest)
  | cons a ring =>
    have hnil := h.hand_eq_nil (by rw [inHand, hphase])
    subst hnil
    have hreceived := h.received
    rw [List.append_nil] at hreceived
    have hpos : ∀ b ∈ ring, 0 < b.bytes.length := fun b hb => h.pos b (List.mem_cons_of_mem a hb)
    simp only [frameReceive, (h.frameLength_cons hhead).1, Bool.false_eq_true, if_false]
    cases g with
    | empty =>
      refine ⟨seen ++ [a], [], ring, ?_, ?_, rfl, h.release hhead, h.free_release, hpos, trivial,
        h.given, fun hq => absurd (hnoticed hq) (List.cons_ne_nil a ring)⟩
      · simp [EthRx.setDesc, hreceived]
      · exact List.rel_append h.settled (.cons (hfits a List.mem_cons_self) .nil)
    | noMemory =>
      refine ⟨seen ++ [a], [], ring, ?_, ?_, rfl, h.release hhead, h.free_release, hpos, trivial,
        h.given, trivial⟩
      · simp [EthRx.setDesc, hreceived]
      · exact List.rel_append h.settled (.cons trivial .nil)
    | frame p =>
      obtain ⟨b, rest, hring, hp⟩ := hfits
      obtain ⟨rfl, rfl⟩ := List.cons.inj hring
      refine ⟨seen, [a], ring, ?_, h.settled, ?_, h.release hhead, h.free_release, hpos, trivial,
        h.given, trivial⟩
      · simp [EthRx.setDesc, hreceived]
      · simp [inHand, hp]

theorem advance (h : s.Accounts tfcd seen hand ring) {g : Grab}
    (hphase : s.phase = .advancing g) :
    (s.taskStep tfcd chain inputOk).Accounts tfcd seen hand ring := by
  have hhead : s.head = Handover.next enetRxbufNum s.current := by rw [head, hphase]
  have hhand := h.hand
  have hholds := h.holds
  have hnoticed := h.noticed
  rw [hhead] at hholds
  rw [Noticed, hphase] at hnoticed
  rw [inHand, hphase] at hhand
  simp only [taskStep, hphase]
  cases g with
  | empty =>
    exact ⟨h.received, h.settled, hhand, hholds, h.free, h.pos, trivial, h.given, hnoticed⟩
  | noMemory =>
    exact ⟨h.received, h.settled, hhand, hholds, h.free, h.pos, trivial, h.given, hnoticed⟩
  | frame p =>
    exact ⟨h.received, h.settled, hhand, hholds, h.free, h.pos, trivial, h.given, trivial⟩

/-- The stack has the frame in hand, or gives it up. -/
theorem deliver (h : s.Accounts tfcd seen hand ring) {g : Grab} (hphase : s.phase = .handing g)
    (chain : Option (List Nat)) (inputOk : Bool) :
    ∃ seen' hand', (s.taskStep tfcd chain inputOk).Accounts tfcd seen' hand' ring := by
  have hhead : s.head = s.current := by rw [head, hphase]
  have hhand := h.hand
  have hholds := h.holds
  have hnoticed := h.noticed
  rw [hhead] at hholds
  rw [Noticed, hphase] at hnoticed
  rw [inHand, hphase] at hhand
  cases g with
  | empty =>
    refine ⟨seen, hand, ?_⟩
    simp only [taskStep, hphase]
    exact ⟨h.received, h.settled, hhand, hholds, h.free, h.pos, trivial, h.given,
      fun hq => .inl (hnoticed hq)⟩
  | noMemory =>
    refine ⟨seen, hand, ?_⟩
    simp only [taskStep, hphase]
    exact ⟨h.received, h.settled, hhand, hholds, h.free, h.pos, trivial, h.given,
      fun _ => .inr rfl⟩
  | frame p =>
    obtain ⟨a, rfl, hp⟩ := List.map_eq_singleton_iff.1 hhand
    refine ⟨seen ++ [a], [], ?_⟩
    have hreceived := h.received
    rw [← List.append_nil (seen ++ [a])] at hreceived
    simp only [taskStep, hphase]
    split
    · exact ⟨hreceived, List.rel_append h.settled (.cons hp.symm .nil), rfl, hholds, h.free, h.pos,
        trivial, h.given, trivial⟩
    · exact ⟨hreceived, List.rel_append h.settled (.cons hp.symm .nil), rfl, hholds, h.free, h.pos,
        trivial, h.given, fun _ => .inr rfl⟩

theorem task (h : s.Accounts tfcd seen hand ring) (hirq : s.irq = .none)
    (chain : Option (List Nat)) (inputOk : Bool) :
    ∃ seen' hand' ring', (s.taskStep tfcd chain inputOk).Accounts tfcd seen' hand' ring' := by
  cases hphase : s.phase with
  | waiting =>
    refine ⟨seen, hand, ring, ?_⟩
    simp only [taskStep, hphase]
    split
    · exact h.wait hphase hirq
    · exact h
  | probing => exact ⟨seen, hand, ring, h.probe hphase⟩
  | allocating len => exact ⟨seen, hand, ring, h.allocate hphase⟩
  | copying p lens => exact ⟨seen, hand, ring, h.copy hphase⟩
  | receiving g =>
    simp only [taskStep, hphase]
    exact h.receive hphase
  | advancing g => exact ⟨seen, hand, ring, h.advance hphase⟩
  | handing g =>
    obtain ⟨seen', hand', hdeliver⟩ := h.deliver hphase chain inputOk
    exact ⟨seen', hand', ring, hdeliver⟩

theorem step (h : s.Accounts tfcd seen hand ring) (m : RxMove) :
    ∃ seen' hand' ring', (s.step tfcd m).Accounts tfcd seen' hand' ring' := by
  cases m with
  | scribble i b => exact ⟨seen, hand, ring, h.scribble i b⟩
  | complete f =>
    obtain ⟨ring', hcomplete⟩ := h.complete f
    exact ⟨seen, hand, ring', hcomplete⟩
  | irq => exact ⟨seen, hand, ring, h.irqStep⟩
  | task chain inputOk =>
    cases hirq : s.irq with
    | none =>
      simp only [EthRx.step, hirq]
      exact h.task hirq chain inputOk
    | seen =>
      simp only [EthRx.step, hirq]
      exact ⟨seen, hand, ring, h⟩
    | given =>
      simp only [EthRx.step, hirq]
      exact ⟨seen, hand, ring, h⟩

end EthRx.Accounts

/-- However the DMA, the interrupt and the task take their turns: the frames have come out of the
ring one by one and in order, and each was given to the stack as it came in, or was lost for want
of memory or because it came in between two looks. The others are still there, and when nothing
makes the waiting task look again, there are none or the last pass broke off. -/
theorem ethRx_accounted (tfcd : Bool) (ms : List RxMove) :
    let s := (ethRx tfcd).run ms
    ∃ seen rest, s.received = seen ++ rest ∧
      List.Forall₂ (fun f (a : Arrival) => a.Settled f) s.fates seen ∧
      rest.map Arrival.bytes = s.inHand ++ s.inRing tfcd ∧
      (s.phase = .waiting → s.Quiet → rest = [] ∨ s.brokeOff = true) := by
  intro s
  have hstep : ∀ (s : EthRx) (m : RxMove), (∃ seen hand ring, s.Accounts tfcd seen hand ring) →
      ∃ seen hand ring, ((ethRx tfcd).step s m).Accounts tfcd seen hand ring :=
    fun s m ⟨_, _, _, h⟩ => h.step m
  obtain ⟨seen, hand, ring, h⟩ : ∃ seen hand ring, s.Accounts tfcd seen hand ring :=
    (ethRx tfcd).invariant_runFrom_of_step hstep ms ⟨[], [], [], .start tfcd⟩
  refine ⟨seen, hand ++ ring, ?_, h.settled, ?_, fun hphase hquiet => ?_⟩
  · rw [h.received, List.append_assoc]
  · rw [List.map_append, h.hand, EthRx.inRing, h.holds.collect_eq]
  · have hnoticed := h.noticed
    rw [EthRx.Noticed, hphase] at hnoticed
    rw [h.hand_eq_nil (by rw [EthRx.inHand, hphase]), List.nil_append]
    exact hnoticed hquiet

end Lsc100
