import Lsc100.Sample.Record

/-! Streams without a missing sample. Wherever they begin, the buffer never runs
over, and from the first full second on every second is handed over; whether
the record is right depends on where the stream begins. -/

namespace Lsc100

open Overlay

def Contiguous (t₀ : Nat) (stream : List AdcItem) : Prop :=
  ∀ i x, stream[i]? = some x → x.ts.toNat = t₀ + i

theorem Contiguous.of_isPrefixOf {t₀ : Nat} {stream stream' : List AdcItem}
    (h : Contiguous t₀ stream') (hpre : stream <+: stream') : Contiguous t₀ stream := by
  intro i x hx
  exact h i x (getElem?_of_isPrefixOf hpre hx)

/-- No second has ended in the buffer yet, or the last one to end did so at
position `m` and the buffer has been filled since. -/
def SinceEnd (t₀ : Nat) (s : SampleFlow) (k : Nat) : Prop :=
  (k = s.consumed ∧ s.consumed ≤ 1000 ∧ ∀ m < s.consumed, 1 < m → (t₀ + m) % 1000 ≠ 999) ∨
    ∃ m, (t₀ + m) % 1000 = 999 ∧ k + m + 1 = s.consumed ∧ s.consumed ≤ m + 1000

structure Paced (t₀ : Nat) (s : SampleFlow) : Prop where
  running : s.overrun = false
  buffer : ∃ k, s.task.index = 64 * k ∧ SinceEnd t₀ s k
  handed : ∀ m < s.consumed, 1 < m → (t₀ + m) % 1000 = 999 →
    ∃ r ∈ s.handed, r.ts = UInt32.ofNat ((t₀ + m) / 1000)

namespace Paced

variable {t₀ k : Nat} {s : SampleFlow}

theorem slot_le (h : SinceEnd t₀ s k) : k ≤ 1000 := by
  rcases h with ⟨rfl, hle, -⟩ | ⟨m, -, hk, hle⟩ <;> omega

theorem batch_ts (hcont : Contiguous t₀ s.delivered) {cache : AdcItemCache}
    {items : Nat → AdcItem} (b : Batch s k cache items) {j : Nat} (hj : j < 100) :
    (items (k + j)).ts.toNat = t₀ + (s.consumed + j) :=
  hcont _ _ (b.new j hj)

theorem turn (h : Paced t₀ s) (hflow : Flowing s) (hcont : Contiguous t₀ s.delivered)
    (countLock readLock : Bool) : Paced t₀ (s.turn countLock readLock) := by
  obtain ⟨hrun, ⟨k, hindex, hbuf⟩, hhanded⟩ := h
  have hk := slot_le hbuf
  have haligned := hflow.aligned
  have hspec := hflow.turn_spec hrun (by omega) hindex countLock readLock
  generalize s.turn countLock readLock = s' at hspec
  cases hspec with
  | idle => exact ⟨hrun, ⟨k, hindex, hbuf⟩, hhanded⟩
  | past b hover => omega
  | @filled cache items b hk' hnone =>
    have hends : ∀ j < 100, 1 < k + j → (t₀ + (s.consumed + j)) % 1000 ≠ 999 :=
      fun j hj hpos hmod => hnone j hj ⟨by rw [batch_ts hcont b hj]; exact hmod, hpos⟩
    have hkeep : ∀ m < s.consumed + 100, 1 < m → (t₀ + m) % 1000 = 999 → m < s.consumed := by
      intro m hm hpos hmod
      by_contra hge
      have hend := hends (m - s.consumed) (by omega)
      rw [Nat.add_sub_cancel' (by omega)] at hend
      rcases hbuf with ⟨rfl, hle, -⟩ | ⟨m', hm', hpos', hle⟩
      · exact hend (by omega) hmod
      · exact hend (by omega) hmod
    refine ⟨hrun, ?_, fun m hm hpos hmod => hhanded m (hkeep m hm hpos hmod) hpos hmod⟩
    rcases hbuf with ⟨rfl, hle, hnot⟩ | ⟨m, hm, hpos, hle⟩
    · have hroom : s.consumed < 1000 := by
        by_contra hfull
        have hmod : (t₀ + (2 + (999 - (t₀ + 2) % 1000))) % 1000 = 999 := by omega
        have hlt := hkeep _ (by omega) (by omega) hmod
        exact hnot _ hlt (by omega) hmod
      refine ⟨s.consumed + 100, if_neg (by omega), .inl ⟨rfl, ?_, fun m hm hpos hmod => ?_⟩⟩
      · simp only [SampleFlow.taken]
        omega
      · exact hnot m (hkeep m hm hpos hmod) hpos hmod
    · have hroom : k + 100 ≤ 999 := by
        by_contra hfull
        exact hends (999 - k) (by omega) (by omega) (by omega)
      refine ⟨k + 100, if_neg (by omega), .inr ⟨m, hm, ?_, ?_⟩⟩
      · simp only [SampleFlow.taken]
        omega
      · simp only [SampleFlow.taken]
        omega
  | @ended cache items j b hk' hj hend hfirst =>
    have hmod : (t₀ + (s.consumed + j)) % 1000 = 999 := batch_ts hcont b hj ▸ hend.1
    refine ⟨hrun, ⟨99 - j, rfl, .inr ⟨s.consumed + j, hmod, ?_, ?_⟩⟩, fun m hm hpos hm999 => ?_⟩
    · simp only [SampleFlow.taken]
      omega
    · simp only [SampleFlow.taken]
      omega
    · simp only [SampleFlow.taken] at hm
      rcases Nat.lt_or_ge m s.consumed with hlt | hge
      · obtain ⟨r, hr, hrts⟩ := hhanded m hlt hpos hm999
        exact ⟨r, List.mem_append_left _ hr, hrts⟩
      · have hm : m = s.consumed + j := by omega
        refine ⟨_, List.mem_concat_self, ?_⟩
        simp only [batch_ts hcont b hj, hm]

theorem write (h : Paced t₀ s) (lock : Bool) (item : AdcItem) : Paced t₀ (s.write lock item) :=
  ⟨h.running, h.buffer, h.handed⟩

theorem start : Paced t₀ sampleFlow.start :=
  ⟨rfl, ⟨0, rfl, .inl ⟨rfl, Nat.zero_le _, nofun⟩⟩, nofun⟩

theorem run {es : List SampleEvent} (hcont : Contiguous t₀ (sampleFlow.run es).delivered) :
    Paced t₀ (sampleFlow.run es) := by
  induction es using List.reverseRecOn with
  | nil => exact start
  | append_singleton es e ih =>
    have hbefore := hcont.of_isPrefixOf (delivered_extends es [e])
    have hpaced := ih hbefore
    rw [Machine.run_concat]
    cases e with
    | write lock item => exact hpaced.write lock item
    | turn countLock readLock => exact hpaced.turn (Flowing.run es) hbefore countLock readLock

end Paced

/-- The sample taken at `t` milliseconds; only its time matters here. -/
def sampleAt (t : Nat) : AdcItem := { (default : AdcItem) with ts := UInt64.ofNat t }

theorem sampleAt_ts {t : Nat} (ht : t < 2 ^ 64) : (sampleAt t).ts.toNat = t :=
  (UInt64.toNat_ofNat').trans (Nat.mod_eq_of_lt ht)

def samplesFrom (t₀ n : Nat) : List AdcItem := (List.range n).map fun i => sampleAt (t₀ + i)

/-- The storage task takes every batch as soon as it is there. -/
def steadyRun (t₀ : Nat) : Nat → List SampleEvent
  | 0 => []
  | b + 1 => steadyRun t₀ b ++
      ((List.range 100).map fun i => sampleAt (t₀ + 100 * b + i)).map (.write true) ++
      [.turn true true]

section Steady

variable {t₀ n b sec : Nat}

theorem samplesFrom_get {i : Nat} {x : AdcItem} :
    (samplesFrom t₀ n)[i]? = some x ↔ i < n ∧ x = sampleAt (t₀ + i) := by
  rw [samplesFrom, List.getElem?_map]
  constructor
  · intro h
    obtain ⟨j, hj, rfl⟩ := Option.map_eq_some_iff.mp h
    obtain ⟨hi, rfl⟩ := List.getElem?_eq_some_iff.mp hj
    simpa using hi
  · rintro ⟨hi, rfl⟩
    rw [List.getElem?_range hi, Option.map_some]

theorem contiguous_samplesFrom (t₀ : Nat) (hn : t₀ + n ≤ 2 ^ 64) :
    Contiguous t₀ (samplesFrom t₀ n) := by
  intro i x hx
  obtain ⟨hi, rfl⟩ := samplesFrom_get.mp hx
  exact sampleAt_ts (by omega)

theorem inOrder_samplesFrom (hn : t₀ + n ≤ 2 ^ 32) : InOrder (samplesFrom t₀ n) := by
  have hcont := contiguous_samplesFrom t₀ (n := n) (by omega)
  refine ⟨List.pairwise_iff_getElem.mpr fun i j hi hj hij => ?_, fun x hx => ?_⟩
  · rw [hcont i _ (List.getElem?_eq_getElem hi), hcont j _ (List.getElem?_eq_getElem hj)]
    omega
  · obtain ⟨i, hi⟩ := List.mem_iff_getElem?.mp hx
    have hlt := (samplesFrom_get.mp hi).1
    rw [hcont i x hi]
    omega

theorem delivers_samplesFrom (hn : t₀ + n ≤ 2 ^ 64) (hlo : t₀ ≤ 1000 * sec)
    (hhi : 1000 * sec + 1000 ≤ t₀ + n) : Delivers (samplesFrom t₀ n) sec := by
  intro j hj
  have hget : (samplesFrom t₀ n)[1000 * sec + j - t₀]? = some (sampleAt (1000 * sec + j)) :=
    samplesFrom_get.mpr ⟨by omega, by rw [Nat.add_sub_cancel' (by omega)]⟩
  exact ⟨_, List.mem_of_getElem? hget, sampleAt_ts (by omega)⟩

theorem samplesFrom_add (k : Nat) : samplesFrom t₀ (n + k) =
    samplesFrom t₀ n ++ (List.range k).map fun i => sampleAt (t₀ + n + i) := by
  simp [samplesFrom, List.range_add, Nat.add_assoc]

theorem runFrom_writes {s : SampleFlow} (hflow : Flowing s) (items : List AdcItem)
    (hroom : s.delivered.length + items.length ≤ s.consumed + 600) :
    ∃ s', sampleFlow.runFrom s (items.map (.write true)) = s' ∧ Flowing s' ∧
      s'.delivered = s.delivered ++ items ∧ s'.consumed = s.consumed ∧ s'.overrun = s.overrun := by
  induction items generalizing s with
  | nil => exact ⟨s, rfl, hflow, (List.append_nil _).symm, rfl, rfl⟩
  | cons item items ih =>
    rw [List.length_cons] at hroom
    have hlt : (s.delivered.drop s.consumed).length < 600 := by
      rw [List.length_drop]
      omega
    have hdelivered : (s.write true item).delivered = s.delivered ++ [item] := by
      simp only [SampleFlow.write, (hflow.holds.writeOne item hlt).1, if_true]
    obtain ⟨s', hs', hflow', hdel, hcons, hover⟩ := ih (hflow.write true item).1 (by
      rw [hdelivered, List.length_append, List.length_singleton]
      exact Nat.le_trans (by omega) hroom)
    refine ⟨s', hs', hflow', ?_, hcons, hover⟩
    rw [hdel, hdelivered, List.append_assoc, List.singleton_append]

theorem run_steadyRun (t₀ : Nat) (hn : t₀ + 100 * b ≤ 2 ^ 64) :
    (sampleFlow.run (steadyRun t₀ b)).delivered = samplesFrom t₀ (100 * b) ∧
      (sampleFlow.run (steadyRun t₀ b)).consumed = 100 * b := by
  induction b with
  | zero => exact ⟨rfl, rfl⟩
  | succ b ih =>
    obtain ⟨hdel, hcons⟩ := ih (by omega)
    have hpaced : Paced t₀ (sampleFlow.run (steadyRun t₀ b)) :=
      Paced.run (hdel ▸ contiguous_samplesFrom t₀ (by omega))
    have hlen : (samplesFrom t₀ (100 * b)).length = 100 * b := by simp [samplesFrom]
    obtain ⟨s', hs', hflow', hdel', hcons', hover'⟩ := runFrom_writes (Flowing.run (steadyRun t₀ b))
      ((List.range 100).map fun i => sampleAt (t₀ + 100 * b + i)) (by
        rw [hdel, hcons, hlen, List.length_map, List.length_range]
        omega)
    have hlen' : s'.consumed + 100 ≤ s'.delivered.length := by
      rw [hdel', hcons', hdel, hcons, List.length_append, hlen, List.length_map, List.length_range]
    rw [steadyRun, Machine.run_concat, Machine.run_append, hs']
    change (s'.turn true true).delivered = _ ∧ (s'.turn true true).consumed = _
    constructor
    · rw [(hflow'.turn true true).2, hdel', hdel, Nat.mul_succ, samplesFrom_add]
    · rw [hflow'.turn_consumed (hover'.trans hpaced.running) hlen', hcons', hcons, Nat.mul_succ]

end Steady

/-- A stream that begins with a full second is stored as it was sampled. -/
theorem storageTask_record_aligned :
    (∃ r ∈ (sampleFlow.run (steadyRun 0 10)).handed, r.ts = UInt32.ofNat 0) ∧
      ∀ r ∈ (sampleFlow.run (steadyRun 0 10)).handed, r.ts = UInt32.ofNat 0 →
        r.Exact (sampleFlow.run (steadyRun 0 10)).delivered 0 := by
  obtain ⟨hdel, hcons⟩ := run_steadyRun 0 (b := 10) (by decide)
  refine (storageTask_record_iff (steadyRun 0 10) 0 ?_ ?_ ?_).mpr
    ⟨[], steadyRun 0 10, rfl, rfl, rfl, sampleAt 0, ?_, sampleAt_ts (by decide)⟩
  · exact hdel ▸ inOrder_samplesFrom (by decide)
  · exact hdel ▸ delivers_samplesFrom (by decide) (by decide) (by decide)
  · refine .inr ⟨999, by omega, sampleAt 999, ?_, sampleAt_ts (by decide)⟩
    rw [hdel]
    exact samplesFrom_get.mpr ⟨by decide, rfl⟩
  · rw [hdel]
    exact samplesFrom_get.mpr ⟨by decide, rfl⟩

/-- No second of a stream that begins off the batches is stored as it was
sampled. -/
theorem not_exact_of_phase {t₀ b sec : Nat} (hn : t₀ + 100 * b ≤ 2 ^ 32)
    (hlo : t₀ ≤ 1000 * sec) (hhi : 1000 * sec + 1000 ≤ t₀ + 100 * b)
    (hphase : (1000 * sec - t₀) % 100 ≠ 0) :
    ∃ r ∈ (sampleFlow.run (steadyRun t₀ b)).handed, r.ts = UInt32.ofNat sec ∧
      ¬ r.Exact (sampleFlow.run (steadyRun t₀ b)).delivered sec := by
  obtain ⟨hdel, hcons⟩ := run_steadyRun t₀ (b := b) (by omega)
  have hcont := contiguous_samplesFrom t₀ (n := 100 * b) (by omega)
  have hpaced : Paced t₀ (sampleFlow.run (steadyRun t₀ b)) := Paced.run (hdel ▸ hcont)
  obtain ⟨r, hr, hrts⟩ := hpaced.handed (1000 * sec + 999 - t₀) (by omega) (by omega) (by omega)
  have hsec : (t₀ + (1000 * sec + 999 - t₀)) / 1000 = sec := by omega
  refine ⟨r, hr, hsec ▸ hrts, fun hexact => ?_⟩
  obtain ⟨-, hts⟩ := hexact 0 (by decide)
  obtain ⟨-, hbegin⟩ := (Recorded.run (steadyRun t₀ b)).handed r hr
  rcases hbegin with hlast | ⟨q, ⟨fs, gs, -, -, -, hq⟩, hqItem⟩
  · omega
  · have haligned := (Flowing.run fs).aligned
    rw [hdel] at hqItem
    have hqTs := hcont q _ hqItem
    omega

/-- Sampling begins 950 ms into a second. The next second is sampled and taken
completely, and its record is wrong. -/
theorem storageTask_record_shifted :
    InOrder (sampleFlow.run (steadyRun 950 11)).delivered ∧
      Delivers (sampleFlow.run (steadyRun 950 11)).delivered 1 ∧
      ∃ r ∈ (sampleFlow.run (steadyRun 950 11)).handed, r.ts = UInt32.ofNat 1 ∧
        ¬ r.Exact (sampleFlow.run (steadyRun 950 11)).delivered 1 := by
  obtain ⟨hdel, -⟩ := run_steadyRun 950 (b := 11) (by decide)
  refine ⟨?_, ?_, not_exact_of_phase (by decide) (by decide) (by decide) (by decide)⟩
  · exact hdel ▸ inOrder_samplesFrom (by decide)
  · exact hdel ▸ delivers_samplesFrom (by decide) (by decide) (by decide)

end Lsc100
