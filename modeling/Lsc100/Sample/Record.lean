import Mathlib.Data.List.Induction
import Lsc100.Sample.StorageTask

/-! What the records handed over consist of. After a second whose last sample is
not the last of its batch, the buffer starts with that sample and lacks the last
of the batch; only a buffer filled from empty holds a second. -/

namespace Lsc100

open Overlay

/-- At some point of the run the buffer was empty with `q` samples taken. -/
def EmptyAt (es : List SampleEvent) (q : Nat) : Prop :=
  ∃ fs gs, es = fs ++ gs ∧ (sampleFlow.run fs).overrun = false ∧
    (sampleFlow.run fs).task.index = 0 ∧ (sampleFlow.run fs).consumed = q

theorem EmptyAt.append {es : List SampleEvent} {q : Nat} (h : EmptyAt es q)
    (e : SampleEvent) : EmptyAt (es ++ [e]) q := by
  obtain ⟨fs, gs, rfl, h⟩ := h
  exact ⟨fs, gs ++ [e], by rw [List.append_assoc], h⟩

theorem EmptyAt.now {es : List SampleEvent} (hrun : (sampleFlow.run es).overrun = false)
    (hindex : (sampleFlow.run es).task.index = 0) : EmptyAt es (sampleFlow.run es).consumed :=
  ⟨es, [], (List.append_nil es).symm, hrun, hindex, rfl⟩

/-- The buffer's first `k` slots: filled from empty, or begun with a sample that
ended a second. -/
def Assembled (es : List SampleEvent) (s : SampleFlow) (k : Nat) : Prop :=
  (k ≤ s.consumed ∧ EmptyAt es (s.consumed - k) ∧
      ∀ i < k, s.delivered[s.consumed - k + i]? = some (s.task.items i)) ∨
    (0 < k ∧ (s.task.items 0).ts.toNat % 1000 = 999)

/-- Where a record comes from: the sample that ended its second, and how the
buffer it was taken from began. -/
def Originates (es : List SampleEvent) (s : SampleFlow) (r : HandedRecord) : Prop :=
  (∃ m < s.consumed, ∃ it, s.delivered[m]? = some it ∧ it.ts.toNat % 1000 = 999 ∧
      r.ts = UInt32.ofNat (it.ts.toNat / 1000)) ∧
    ((r.items 0).ts.toNat % 1000 = 999 ∨
      ∃ q, EmptyAt es q ∧ s.delivered[q]? = some (r.items 0))

theorem getElem?_of_isPrefixOf {α : Type*} {l l' : List α} (h : l <+: l') {i : Nat} {x : α}
    (hx : l[i]? = some x) : l'[i]? = some x := by
  obtain ⟨hi, rfl⟩ := List.getElem?_eq_some_iff.mp hx
  exact List.prefix_iff_getElem?.mp h i hi

theorem Originates.mono {es : List SampleEvent} {s s' : SampleFlow} {r : HandedRecord}
    (h : Originates es s r) (e : SampleEvent) (hdel : s.delivered <+: s'.delivered)
    (hcons : s.consumed ≤ s'.consumed) : Originates (es ++ [e]) s' r := by
  obtain ⟨⟨m, hm, it, hit, hmod, hts⟩, hfirst⟩ := h
  refine ⟨⟨m, Nat.lt_of_lt_of_le hm hcons, it, getElem?_of_isPrefixOf hdel hit, hmod, hts⟩,
    hfirst.imp id ?_⟩
  rintro ⟨q, hempty, hq⟩
  exact ⟨q, hempty.append _, getElem?_of_isPrefixOf hdel hq⟩

theorem Batch.first {s : SampleFlow} {k : Nat} {cache : AdcItemCache} {items : Nat → AdcItem}
    {es : List SampleEvent} (b : Batch s k cache items) (h : Assembled es s k) :
    (items 0).ts.toNat % 1000 = 999 ∨ ∃ q, EmptyAt es q ∧ s.delivered[q]? = some (items 0) := by
  rcases h with ⟨hle, hempty, hslots⟩ | ⟨hpos, hfirst⟩
  · refine .inr ⟨_, hempty, ?_⟩
    by_cases hz : k = 0
    · subst hz
      exact b.new 0 (by decide)
    · rw [b.old 0 (by omega)]
      exact hslots 0 (by omega)
  · exact .inl (b.old 0 hpos ▸ hfirst)

theorem Batch.slots {s : SampleFlow} {k : Nat} {cache : AdcItemCache} {items : Nat → AdcItem}
    (b : Batch s k cache items) (hle : k ≤ s.consumed)
    (hslots : ∀ i < k, s.delivered[s.consumed - k + i]? = some (s.task.items i)) {i : Nat}
    (hi : i < k + 100) : s.delivered[s.consumed - k + i]? = some (items i) := by
  rcases Nat.lt_or_ge i k with hlt | hge
  · rw [b.old i hlt]
    exact hslots i hlt
  · have hnew := b.new (i - k) (by omega)
    rwa [show s.consumed + (i - k) = s.consumed - k + i by omega, Nat.add_sub_cancel' hge] at hnew

theorem Assembled.filled {es : List SampleEvent} {s : SampleFlow} {k : Nat} {cache : AdcItemCache}
    {items : Nat → AdcItem} (h : Assembled es s k) (b : Batch s k cache items) (e : SampleEvent)
    (index : Nat) (handed : List HandedRecord) :
    Assembled (es ++ [e]) (s.taken cache s.overrun ⟨items, index⟩ handed) (k + 100) := by
  rcases h with ⟨hle, hempty, hslots⟩ | ⟨hpos, hfirst⟩
  · refine .inl ⟨Nat.add_le_add_right hle 100, ?_, fun i hi => ?_⟩
    · rw [SampleFlow.taken, Nat.add_sub_add_right]
      exact hempty.append _
    · rw [SampleFlow.taken, Nat.add_sub_add_right]
      exact b.slots hle hslots hi
  · refine .inr ⟨Nat.add_pos_left hpos 100, ?_⟩
    rw [← b.old 0 hpos] at hfirst
    exact hfirst

/-- The record handed over when the batch ends a second. -/
theorem Assembled.ended {es : List SampleEvent} {s : SampleFlow} {k j : Nat}
    {cache : AdcItemCache} {items : Nat → AdcItem} (h : Assembled es s k)
    (b : Batch s k cache items) (hj : j < 100) (hend : EndsSecond items (k + j))
    (e : SampleEvent) (task : StorageTask) (handed : List HandedRecord) :
    Originates (es ++ [e]) (s.taken cache s.overrun task handed)
      ⟨UInt32.ofNat ((items (k + j)).ts.toNat / 1000), items⟩ := by
  refine ⟨⟨s.consumed + j, Nat.add_lt_add_left hj _, _, b.new j hj, hend.1, rfl⟩, ?_⟩
  refine (b.first h).imp id ?_
  rintro ⟨q, hempty, hq⟩
  exact ⟨q, hempty.append _, hq⟩

structure Recorded (es : List SampleEvent) (s : SampleFlow) : Prop where
  buffer : s.overrun = false → ∃ k < 1100, s.task.index = 64 * k ∧ Assembled es s k
  handed : ∀ r ∈ s.handed, Originates es s r

namespace Recorded

variable {es : List SampleEvent}

theorem write (h : Recorded es (sampleFlow.run es)) (lock : Bool) (item : AdcItem) :
    Recorded (es ++ [.write lock item]) (sampleFlow.run (es ++ [.write lock item])) := by
  have hprefix := ((Flowing.run es).write lock item).2
  rw [Machine.run_concat]
  refine ⟨fun hrun => ?_, fun r hr => (h.handed r hr).mono _ hprefix (Nat.le_refl _)⟩
  obtain ⟨k, hk, hindex, hbuf⟩ := h.buffer hrun
  refine ⟨k, hk, hindex, hbuf.imp ?_ id⟩
  rintro ⟨hle, hempty, hslots⟩
  exact ⟨hle, hempty.append _, fun i hi => getElem?_of_isPrefixOf hprefix (hslots i hi)⟩

theorem turn (h : Recorded es (sampleFlow.run es)) (countLock readLock : Bool) :
    Recorded (es ++ [.turn countLock readLock])
      (sampleFlow.run (es ++ [.turn countLock readLock])) := by
  have hstep : sampleFlow.run (es ++ [.turn countLock readLock]) =
    (sampleFlow.run es).turn countLock readLock := Machine.run_concat _ _ _
  have hnow := @EmptyAt.now (es ++ [.turn countLock readLock])
  have hflow := Flowing.run es
  rw [hstep] at hnow ⊢
  generalize sampleFlow.run es = s at h hnow hflow ⊢
  have hidle : ∀ r ∈ s.handed, Originates (es ++ [.turn countLock readLock]) s r :=
    fun r hr => (h.handed r hr).mono _ (List.prefix_refl _) (Nat.le_refl _)
  have htaken : ∀ cache overrun task handed, ∀ r ∈ s.handed,
      Originates (es ++ [.turn countLock readLock]) (s.taken cache overrun task handed) r :=
    fun cache overrun task handed r hr =>
      (h.handed r hr).mono _ (List.prefix_refl _) (Nat.le_add_right _ _)
  cases hrun : s.overrun with
  | true =>
    rw [SampleFlow.turn, if_pos hrun]
    exact ⟨fun hfalse => absurd (hrun.symm.trans hfalse) (by decide), hidle⟩
  | false =>
    obtain ⟨k, hk, hindex, hbuf⟩ := h.buffer hrun
    have hspec := hflow.turn_spec hrun hk hindex countLock readLock
    generalize s.turn countLock readLock = s' at hspec hnow
    cases hspec with
    | idle =>
      refine ⟨fun _ => ⟨k, hk, hindex, hbuf.imp ?_ id⟩, hidle⟩
      rintro ⟨hle, hempty, hslots⟩
      exact ⟨hle, hempty.append _, hslots⟩
    | past b hk' =>
      exact ⟨fun hfalse => (by cases hfalse), htaken _ _ _ _⟩
    | @filled cache items b hk' hnone =>
      refine ⟨fun _ => ?_, htaken _ _ _ _⟩
      by_cases hfull : k + 100 = 1100
      · refine ⟨0, by decide, if_pos hfull, .inl ⟨Nat.zero_le _, ?_, fun i hi => ?_⟩⟩
        · exact hnow hrun (if_pos hfull)
        · exact absurd hi (Nat.not_lt_zero i)
      · exact ⟨k + 100, by omega, if_neg hfull, hbuf.filled b _ _ _⟩
    | @ended cache items j b hk' hj hend hfirst =>
      have hcarry : 0 < 99 - j → (overlay (fun _ x => x) items 0 (99 - j)
          (fun i => items (k + j + i)) 0).ts.toNat % 1000 = 999 := fun hpos => by
        rw [overlay_in _ _ _ (Nat.le_refl 0) (by omega)]
        exact hend.1
      refine ⟨fun _ => ⟨99 - j, by omega, rfl, ?_⟩, fun r hr => ?_⟩
      · rcases Nat.eq_zero_or_pos (99 - j) with hz | hpos
        · refine .inl ⟨by omega, ?_, fun i hi => absurd hi (by omega)⟩
          have hempty := hnow hrun (congrArg (64 * ·) hz)
          rwa [← Nat.sub_zero (SampleFlow.consumed _), ← hz] at hempty
        · exact .inr ⟨hpos, hcarry hpos⟩
      · rcases List.mem_append.mp hr with hr | hr
        · exact htaken _ _ _ _ r hr
        · rw [List.mem_singleton] at hr
          rw [hr]
          exact hbuf.ended b hj hend _ _ _

theorem run (es : List SampleEvent) : Recorded es (sampleFlow.run es) := by
  induction es using List.reverseRecOn with
  | nil =>
    refine ⟨fun hrun => ⟨0, by decide, rfl, .inl ⟨Nat.zero_le _, ?_, nofun⟩⟩, nofun⟩
    exact EmptyAt.now hrun rfl
  | append_singleton es e ih =>
    cases e with
    | write lock item => exact ih.write lock item
    | turn countLock readLock => exact ih.turn countLock readLock

end Recorded

/-- Samples in order: timestamps increase, and their seconds fit the index. -/
structure InOrder (stream : List AdcItem) : Prop where
  increasing : stream.Pairwise fun a b => a.ts.toNat < b.ts.toNat
  seconds : ∀ it ∈ stream, it.ts.toNat / 1000 < 2 ^ 32

def Delivers (stream : List AdcItem) (sec : Nat) : Prop :=
  ∀ j < 1000, ∃ it ∈ stream, it.ts.toNat = 1000 * sec + j

/-- The record consists of the samples of the second, in order. -/
def HandedRecord.Exact (r : HandedRecord) (stream : List AdcItem) (sec : Nat) : Prop :=
  ∀ j < 1000, r.items j ∈ stream ∧ (r.items j).ts.toNat = 1000 * sec + j

namespace InOrder

variable {stream : List AdcItem} {i j : Nat} {a b : AdcItem}

theorem ts_lt (h : InOrder stream) (hij : i < j) (hi : stream[i]? = some a)
    (hj : stream[j]? = some b) : a.ts.toNat < b.ts.toNat := by
  obtain ⟨hi', rfl⟩ := List.getElem?_eq_some_iff.mp hi
  obtain ⟨hj', rfl⟩ := List.getElem?_eq_some_iff.mp hj
  exact List.pairwise_iff_getElem.mp h.increasing i j hi' hj' hij

theorem pos_eq (h : InOrder stream) (hi : stream[i]? = some a) (hj : stream[j]? = some b)
    (hts : a.ts.toNat = b.ts.toNat) : i = j := by
  rcases Nat.lt_trichotomy i j with hlt | heq | hgt
  · exact absurd hts (Nat.ne_of_lt (h.ts_lt hlt hi hj))
  · exact heq
  · exact absurd hts.symm (Nat.ne_of_lt (h.ts_lt hgt hj hi))

theorem pos_lt (h : InOrder stream) (hi : stream[i]? = some a) (hj : stream[j]? = some b)
    (hts : a.ts.toNat < b.ts.toNat) : i < j := by
  by_contra hle
  rcases Nat.lt_or_eq_of_le (Nat.le_of_not_lt hle) with hgt | rfl
  · exact absurd hts (Nat.not_lt_of_gt (h.ts_lt hgt hj hi))
  · exact absurd hts (Option.some.inj (hi.symm.trans hj) ▸ Nat.lt_irrefl _)

/-- A second that is there completely lies in consecutive positions. -/
theorem second (h : InOrder stream) {sec p : Nat} (hsec : Delivers stream sec)
    (hp : stream[p]? = some a) (hts : a.ts.toNat = 1000 * sec) {j : Nat} (hj : j < 1000) :
    ∃ it, stream[p + j]? = some it ∧ it.ts.toNat = 1000 * sec + j := by
  induction j with
  | zero => exact ⟨a, hp, hts⟩
  | succ j ih =>
    obtain ⟨it, hit, hits⟩ := ih (by omega)
    obtain ⟨next, hmem, hnext⟩ := hsec (j + 1) hj
    obtain ⟨n, hn⟩ := List.mem_iff_getElem?.mp hmem
    have hlt := h.pos_lt hit hn (by omega)
    rcases Nat.lt_or_eq_of_le (Nat.succ_le_of_lt hlt) with hgap | rfl
    · have hlen := (List.getElem?_eq_some_iff.mp hn).1
      have hmid := List.getElem?_eq_getElem (Nat.lt_trans hgap hlen)
      have h₁ := h.ts_lt (Nat.lt_succ_self _) hit hmid
      have h₂ := h.ts_lt hgap hmid hn
      omega
    · exact ⟨next, hn, hnext⟩

theorem ofNat_inj (h : InOrder stream) {sec : Nat} (ha : a ∈ stream)
    (hsec : sec < 2 ^ 32) (heq : UInt32.ofNat (a.ts.toNat / 1000) = UInt32.ofNat sec) :
    a.ts.toNat / 1000 = sec := by
  have := congrArg UInt32.toNat heq
  rwa [UInt32.toNat_ofNat', UInt32.toNat_ofNat', Nat.mod_eq_of_lt (h.seconds a ha),
    Nat.mod_eq_of_lt hsec] at this

end InOrder

/-- The second that starts at position `p` is being collected from slot 0 on, or
has been handed over. -/
structure Collecting (stream : List AdcItem) (p sec : Nat) (s : SampleFlow) : Prop where
  filling : s.consumed < p + 1000 → s.overrun = false ∧ p ≤ s.consumed ∧
    s.task.index = 64 * (s.consumed - p) ∧
    ∀ i < s.consumed - p, stream[p + i]? = some (s.task.items i)
  exact : ∀ r ∈ s.handed, r.ts = UInt32.ofNat sec → r.Exact stream sec
  handed : p + 1000 ≤ s.consumed → ∃ r ∈ s.handed, r.ts = UInt32.ofNat sec

namespace Collecting

variable {stream : List AdcItem} {p sec k : Nat} {s : SampleFlow} {first : AdcItem}

/-- While the second is collected, only its last sample hands it over. -/
theorem endsSecond_iff (hord : InOrder stream) (hsec : Delivers stream sec)
    (hp : stream[p]? = some first) (hts : first.ts.toNat = 1000 * sec) {items : Nat → AdcItem}
    (hitems : ∀ i < k, stream[p + i]? = some (items i)) (hk : k ≤ 1000) {i : Nat} (hi : i < k) :
    (items i).ts.toNat = 1000 * sec + i ∧ (EndsSecond items i ↔ i = 999) := by
  obtain ⟨it, hit, hits⟩ := hord.second hsec hp hts (j := i) (by omega)
  have heq : (items i).ts.toNat = 1000 * sec + i := by
    rw [← hits, ← Option.some.inj ((hitems i hi).symm.trans hit)]
  refine ⟨heq, ?_⟩
  rw [EndsSecond, heq]
  omega

theorem turn (h : Collecting stream p sec s) (hflow : Flowing s) (hp100 : p % 100 = 0)
    (hord : InOrder stream) (hsec : Delivers stream sec) (hp : stream[p]? = some first)
    (hts : first.ts.toNat = 1000 * sec) (hpre : s.delivered <+: stream)
    (countLock readLock : Bool) : Collecting stream p sec (s.turn countLock readLock) := by
  have hfirst := List.mem_of_getElem? hp
  have hsec32 : sec < 2 ^ 32 := by
    have := hord.seconds first hfirst
    omega
  have haligned := hflow.aligned
  rcases Nat.lt_or_ge s.consumed (p + 1000) with hfill | hdone
  · obtain ⟨hrun, hle, hindex, hitems⟩ := h.filling hfill
    have hspec := hflow.turn_spec hrun (by omega) hindex countLock readLock
    generalize s.turn countLock readLock = s' at hspec
    have hslots : ∀ {cache items}, Batch s (s.consumed - p) cache items →
        ∀ i < s.consumed - p + 100, stream[p + i]? = some (items i) := by
      intro cache items b i hi
      rcases Nat.lt_or_ge i (s.consumed - p) with hlt | hge
      · rw [b.old i hlt]
        exact hitems i hlt
      · have hnew := getElem?_of_isPrefixOf hpre (b.new (i - (s.consumed - p)) (by omega))
        rwa [show s.consumed + (i - (s.consumed - p)) = p + i by omega,
          Nat.add_sub_cancel' hge] at hnew
    cases hspec with
    | idle => exact h
    | past b hk => omega
    | @filled cache items b hk hnone =>
      have hmore : s.consumed + 100 < p + 1000 := by
        by_contra hlast
        have hends := (endsSecond_iff hord hsec hp hts (hslots b) (by omega)
          (i := s.consumed - p + 99) (by omega)).2
        exact hnone 99 (by decide) (hends.mpr (by omega))
      refine ⟨fun _ => ⟨hrun, ?_, ?_, fun i hi => hslots b i ?_⟩, h.exact, fun hdone => ?_⟩
      · exact Nat.le_add_right_of_le hle
      · simp only [SampleFlow.taken]
        rw [if_neg (by omega), Nat.sub_add_comm hle]
      · simp only [SampleFlow.taken] at hi
        omega
      · exact absurd hdone (Nat.not_le_of_lt hmore)
    | @ended cache items j b hk hj hend hfirst' =>
      have hends := (endsSecond_iff hord hsec hp hts (hslots b) (by omega)
        (i := s.consumed - p + j) (by omega))
      have hlast := hends.2.mp hend
      have hrec : UInt32.ofNat ((items (s.consumed - p + j)).ts.toNat / 1000) =
          UInt32.ofNat sec := by
        rw [hends.1, hlast]
        congr 1
        omega
      refine ⟨fun hlt => ?_, fun r hr hrts => ?_, fun _ => ⟨_, List.mem_concat_self, hrec⟩⟩
      · exact absurd hlt (by simp only [SampleFlow.taken]; omega)
      · rcases List.mem_append.mp hr with hr | hr
        · exact h.exact r hr hrts
        · rw [List.mem_singleton] at hr
          subst hr
          intro i hi
          exact ⟨List.mem_of_getElem? (hslots b i (by omega)),
            (endsSecond_iff hord hsec hp hts (hslots b) (by omega) (by omega)).1⟩
  · cases hrun : s.overrun with
    | true =>
      rw [SampleFlow.turn, if_pos hrun]
      exact h
    | false =>
      obtain ⟨k, hk, hindex⟩ := hflow.index hrun
      have hspec := hflow.turn_spec hrun hk hindex countLock readLock
      generalize s.turn countLock readLock = s' at hspec
      have htaken : ∀ cache overrun task handed, (∀ r ∈ handed, r.ts = UInt32.ofNat sec →
          r ∈ s.handed) → (∀ r ∈ s.handed, r ∈ handed) →
          Collecting stream p sec (s.taken cache overrun task handed) := by
        intro cache overrun task handed hnew hkeep
        refine ⟨fun hlt => ?_, fun r hr hrts => h.exact r (hnew r hr hrts) hrts, fun _ => ?_⟩
        · exact absurd hlt (by simp only [SampleFlow.taken]; omega)
        · obtain ⟨r, hr, hrts⟩ := h.handed hdone
          exact ⟨r, hkeep r hr, hrts⟩
      cases hspec with
      | idle => exact h
      | past b => exact htaken _ _ _ _ (fun r hr _ => hr) fun r hr => hr
      | filled b => exact htaken _ _ _ _ (fun r hr _ => hr) fun r hr => hr
      | @ended cache items j b hk' hj hend =>
        refine htaken _ _ _ _ (fun r hr hrts => ?_) fun r hr => List.mem_append_left _ hr
        rcases List.mem_append.mp hr with hr | hr
        · exact hr
        · -- the sample that ends this second lies behind the last of second `sec`
          rw [List.mem_singleton] at hr
          subst hr
          have hit := getElem?_of_isPrefixOf hpre (b.new j hj)
          have hsec' := hord.ofNat_inj (List.mem_of_getElem? hit) hsec32 hrts
          obtain ⟨it, hlast, hlastTs⟩ := hord.second hsec hp hts (j := 999) (by decide)
          have hend' := hend.1
          have := hord.pos_eq hit hlast (by omega)
          omega

end Collecting

/-- The stream delivered in a run is known in part at every point before. -/
theorem delivered_extends (es fs : List SampleEvent) :
    (sampleFlow.run es).delivered <+: (sampleFlow.run (es ++ fs)).delivered := by
  induction fs using List.reverseRecOn with
  | nil => exact ⟨[], by rw [List.append_nil, List.append_nil]⟩
  | append_singleton fs e ih =>
    rw [← List.append_assoc, Machine.run_concat]
    refine ih.trans ?_
    cases e with
    | write lock item => exact ((Flowing.run (es ++ fs)).write lock item).2
    | turn countLock readLock =>
      exact ((Flowing.run (es ++ fs)).turn countLock readLock).2 ▸ List.prefix_refl _

theorem collecting_of_emptyAt {stream : List AdcItem} {p sec : Nat} {first : AdcItem}
    {fs : List SampleEvent} (hord : InOrder stream) (hsec : Delivers stream sec)
    (hp : stream[p]? = some first) (hts : first.ts.toNat = 1000 * sec)
    (hrun : (sampleFlow.run fs).overrun = false) (hindex : (sampleFlow.run fs).task.index = 0)
    (hconsumed : (sampleFlow.run fs).consumed = p) (gs : List SampleEvent)
    (hpre : (sampleFlow.run (fs ++ gs)).delivered <+: stream) :
    Collecting stream p sec (sampleFlow.run (fs ++ gs)) := by
  have hp100 : p % 100 = 0 := hconsumed ▸ (Flowing.run fs).aligned
  induction gs using List.reverseRecOn with
  | nil =>
    rw [List.append_nil] at hpre ⊢
    refine ⟨fun _ => ⟨hrun, hconsumed.ge, by rw [hindex, hconsumed, Nat.sub_self],
      fun i hi => absurd hi (by omega)⟩, fun r hr hrts => ?_, fun hle => absurd hle (by omega)⟩
    obtain ⟨⟨m, hm, it, hit, hmod, hrts'⟩, -⟩ := (Recorded.run fs).handed r hr
    have hget := getElem?_of_isPrefixOf hpre hit
    have hlt := hord.ts_lt (by omega) hget hp
    have hfirst := hord.seconds first (List.mem_of_getElem? hp)
    have := hord.ofNat_inj (List.mem_of_getElem? hget) (by omega) (hrts'.symm.trans hrts)
    omega
  | append_singleton gs e ih =>
    rw [← List.append_assoc] at hpre ⊢
    have hbefore := (delivered_extends (fs ++ gs) [e]).trans hpre
    have hcoll := ih hbefore
    have hflow := Flowing.run (fs ++ gs)
    rw [Machine.run_concat]
    cases e with
    | write lock item => exact ⟨hcoll.filling, hcoll.exact, hcoll.handed⟩
    | turn countLock readLock =>
      exact hcoll.turn hflow hp100 hord hsec hp hts hbefore countLock readLock

/-- The second has been taken from the queue to its end, or never will be. -/
def Finished (s : SampleFlow) (sec : Nat) : Prop :=
  s.overrun = true ∨
    ∃ n < s.consumed, ∃ it, s.delivered[n]? = some it ∧ it.ts.toNat = 1000 * sec + 999

/-- A second is handed over, and only as it was sampled, exactly when the buffer
was empty just before its first sample was taken. -/
theorem storageTask_record_iff (es : List SampleEvent) (sec : Nat)
    (hord : InOrder (sampleFlow.run es).delivered)
    (hsec : Delivers (sampleFlow.run es).delivered sec)
    (hfin : Finished (sampleFlow.run es) sec) :
    ((∃ r ∈ (sampleFlow.run es).handed, r.ts = UInt32.ofNat sec) ∧
      ∀ r ∈ (sampleFlow.run es).handed, r.ts = UInt32.ofNat sec →
        r.Exact (sampleFlow.run es).delivered sec) ↔
    ∃ fs gs, es = fs ++ gs ∧ (sampleFlow.run fs).overrun = false ∧
      (sampleFlow.run fs).task.index = 0 ∧
      ∃ it, (sampleFlow.run es).delivered[(sampleFlow.run fs).consumed]? = some it ∧
        it.ts.toNat = 1000 * sec := by
  obtain ⟨first, hmem, hts⟩ := hsec 0 (by decide)
  obtain ⟨p, hp⟩ := List.mem_iff_getElem?.mp hmem
  constructor
  · rintro ⟨⟨r, hr, hrts⟩, hexact⟩
    obtain ⟨hin, hfirstTs⟩ := hexact r hr hrts 0 (by decide)
    obtain ⟨-, hbegin⟩ := (Recorded.run es).handed r hr
    rcases hbegin with hlast | ⟨q, ⟨fs, gs, hes, hrun, hindex, hq⟩, hqItem⟩
    · omega
    · exact ⟨fs, gs, hes, hrun, hindex, r.items 0, hq ▸ hqItem, hfirstTs⟩
  · rintro ⟨fs, gs, rfl, hrun, hindex, it, hit, hits⟩
    have hcoll := collecting_of_emptyAt hord hsec hit hits hrun hindex rfl gs (List.prefix_refl _)
    have hdone : (sampleFlow.run fs).consumed + 1000 ≤ (sampleFlow.run (fs ++ gs)).consumed := by
      by_contra hlt
      have hfill := hcoll.filling (by omega)
      rcases hfin with hover | ⟨n, hn, last, hlast, hlastTs⟩
      · exact absurd (hfill.1.symm.trans hover) (by decide)
      · obtain ⟨it', hit', hits'⟩ := hord.second hsec hit hits (j := 999) (by decide)
        have := hord.pos_eq hlast hit' (by omega)
        omega
    exact ⟨hcoll.handed hdone, hcoll.exact⟩

end Lsc100
