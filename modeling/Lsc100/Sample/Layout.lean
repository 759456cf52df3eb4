import Lsc100.Sample.Steady

/-! Where the samples of an unbroken stream come to lie in the records. The remainder of a batch
is kept from the sample on that ended the second, and without its last sample, so a second that
does not begin with a batch is shifted up to the next one.
-/

namespace Lsc100

open Overlay

/-- Where in the stream the sample in slot `i` is of the record of the second that begins at
position `p`. A second that ends with the first or the second sample of the stream is not taken
for one, and what comes after lies behind it. -/
def slotPos (p i : Nat) : Nat :=
  if p ≤ 2 then i
  else if p % 100 ≠ 0 ∧ p % 100 + i < 100 then p + i - 1
  else p + i

theorem slotPos_remainder {m i : Nat} (hm : 1 < m) (hi : m % 100 + i < 99) :
    slotPos (m + 1) i = m + i := by
  rw [slotPos, if_neg (by omega), if_pos (by omega)]
  omega

theorem slotPos_batch {p k i c : Nat} (hp : p = 0 ∨ 2 < p) (hc : c % 100 = 0) (hk : k + p = c) :
    slotPos p (k + i) = c + i := by
  rcases hp with rfl | hp
  · rw [slotPos, if_pos (Nat.zero_le 2)]
    omega
  · rw [slotPos, if_neg (by omega), if_neg (by omega)]
    omega

/-- The second that begins at position `p` has filled the slots below `k`. -/
def Fills (stream : List AdcItem) (p k : Nat) (items : Nat → AdcItem) : Prop :=
  ∀ i < k, stream[slotPos p i]? = some (items i)

theorem Fills.mono {stream stream' : List AdcItem} {p k : Nat} {items : Nat → AdcItem}
    (h : Fills stream p k items) (hpre : stream <+: stream') : Fills stream' p k items :=
  fun i hi => getElem?_of_isPrefixOf hpre (h i hi)

/-- The buffer below slot `k` belongs to the second that begins at position `p`, or to the start
of the stream as long as no second has ended. -/
structure FillingFrom (t₀ : Nat) (s : SampleFlow) (k p : Nat) : Prop where
  slots : k + p = s.consumed
  fills : Fills s.delivered p k s.task.items
  begins : (t₀ + p) % 1000 = 0 ∧ 2 < p ∧ k < 1000 ∨
    p = 0 ∧ ∀ m < s.consumed, 1 < m → (t₀ + m) % 1000 ≠ 999

/-- The record of the second that begins at position `p`. -/
structure RecordAt (t₀ : Nat) (s : SampleFlow) (p : Nat) (r : HandedRecord) : Prop where
  mem : r ∈ s.handed
  ts : r.ts = UInt32.ofNat ((t₀ + p) / 1000)
  items : Fills s.delivered p 1000 r.items

structure Laid (t₀ : Nat) (s : SampleFlow) : Prop where
  running : s.overrun = false
  buffer : ∃ k p, s.task.index = 64 * k ∧ k ≤ 1000 ∧ FillingFrom t₀ s k p
  recorded : ∀ p, (t₀ + p) % 1000 = 0 → p + 1000 ≤ s.consumed → ∃ r, RecordAt t₀ s p r
  ended : ∀ r ∈ s.handed, ∃ m < s.consumed, (t₀ + m) % 1000 = 999 ∧
    r.ts = UInt32.ofNat ((t₀ + m) / 1000)
  ordered : s.handed.Pairwise (·.ts < ·.ts)

section Turn

variable {t₀ k p : Nat} {s : SampleFlow} {cache : AdcItemCache} {items : Nat → AdcItem}

theorem FillingFrom.base (h : FillingFrom t₀ s k p) : p = 0 ∨ 2 < p := by
  rcases h.begins with ⟨-, hp, -⟩ | ⟨hp, -⟩
  · exact .inr hp
  · exact .inl hp

theorem FillingFrom.batch (h : FillingFrom t₀ s k p) (hflow : Flowing s)
    (b : Batch s k cache items) : Fills s.delivered p (k + 100) items := by
  intro i hi
  rcases Nat.lt_or_ge i k with hlt | hge
  · rw [b.old i hlt, h.fills i hlt]
  · obtain ⟨j, rfl⟩ := Nat.exists_eq_add_of_le hge
    rw [slotPos_batch h.base hflow.aligned h.slots, b.new j (by omega)]

/-- A second that ends in the batch is the one that fills the buffer. -/
theorem FillingFrom.ends (h : FillingFrom t₀ s k p) (hk : k ≤ 1000) {q : Nat}
    (hmod : (t₀ + q) % 1000 = 0) (hnew : s.consumed < q + 1000)
    (hdone : q + 1000 ≤ s.consumed + 100) : p ≤ q ∧ slotPos q = slotPos p := by
  have hslots := h.slots
  rcases h.begins with ⟨hbegin, -, -⟩ | ⟨rfl, hnone⟩
  · have heq : q = p := by omega
    exact ⟨Nat.le_of_eq heq.symm, heq ▸ rfl⟩
  · have hsmall : q ≤ 2 := by
      by_contra hpos
      exact hnone (q - 1) (by omega) (by omega) (by omega)
    refine ⟨Nat.zero_le q, funext fun i => ?_⟩
    rw [slotPos, slotPos, if_pos hsmall, if_pos (Nat.zero_le 2)]

theorem RecordAt.mono {r : HandedRecord} (h : RecordAt t₀ s p r) {task : StorageTask}
    (handed : List HandedRecord) (cache : AdcItemCache) :
    RecordAt t₀ (s.taken cache s.overrun task (s.handed ++ handed)) p r :=
  ⟨List.mem_append_left _ h.mem, h.ts, h.items⟩

theorem Laid.turn (h : Laid t₀ s) (hflow : Flowing s) (hcont : Contiguous t₀ s.delivered)
    (hfit : t₀ + s.delivered.length ≤ 1000 * 2 ^ 32) (countLock readLock : Bool) :
    Laid t₀ (s.turn countLock readLock) := by
  obtain ⟨hrun, ⟨k, p, hindex, hk, hfilling⟩, hrecorded, hended, hordered⟩ := h
  have haligned := hflow.aligned
  have hslots := hfilling.slots
  have hspec := hflow.turn_spec hrun (by omega) hindex countLock readLock
  generalize s.turn countLock readLock = s' at hspec
  cases hspec with
  | idle => exact ⟨hrun, ⟨k, p, hindex, hk, hfilling⟩, hrecorded, hended, hordered⟩
  | past b hover => omega
  | @filled cache items b hk' hnone =>
    have hends : ∀ j < 100, 1 < k + j → (t₀ + (s.consumed + j)) % 1000 ≠ 999 :=
      fun j hj hpos hmod => hnone j hj ⟨by rw [Paced.batch_ts hcont b hj]; exact hmod, hpos⟩
    have hquiet : ∀ m < s.consumed + 100, s.consumed ≤ m → 1 < m → (t₀ + m) % 1000 ≠ 999 := by
      intro m hlt hm hpos hmod
      have hend := hends (m - s.consumed) (by omega)
      rw [Nat.add_sub_cancel' hm] at hend
      rcases hfilling.begins with ⟨hbegin, hp, hlt'⟩ | ⟨rfl, -⟩
      · exact hend (by omega) hmod
      · exact hend (by omega) hmod
    have hroom : k + 100 ≤ 1000 := by
      by_contra hfull
      rcases hfilling.begins with ⟨hbegin, hp, hlt'⟩ | ⟨rfl, hnone⟩
      · exact hquiet (p + 999) (by omega) (by omega) (by omega) (by omega)
      · have hmod : (t₀ + (2 + (999 - (t₀ + 2) % 1000))) % 1000 = 999 := by omega
        rcases Nat.lt_or_ge (2 + (999 - (t₀ + 2) % 1000)) s.consumed with hlt | hge
        · exact hnone _ hlt (by omega) hmod
        · exact hquiet _ (by omega) hge (by omega) hmod
    refine ⟨hrun, ⟨k + 100, p, if_neg (by omega), hroom, ?_, hfilling.batch hflow b, ?_⟩,
      fun q hqmod hdone => ?_, fun r hr => ?_, hordered⟩
    · simp only [SampleFlow.taken]
      omega
    · rcases hfilling.begins with ⟨hbegin, hp, hlt'⟩ | ⟨hp, hnone⟩
      · refine .inl ⟨hbegin, hp, ?_⟩
        by_contra hfull
        exact hquiet (p + 999) (by omega) (by omega) (by omega) (by omega)
      · refine .inr ⟨hp, fun m hm hpos => ?_⟩
        rcases Nat.lt_or_ge m s.consumed with hlt | hge
        · exact hnone m hlt hpos
        · exact hquiet m hm hge hpos
    · rcases Nat.lt_or_ge s.consumed (q + 1000) with hnew | hold
      · simp only [SampleFlow.taken] at hdone
        exact absurd (by omega) (hquiet (q + 999) (by omega) (by omega) (by omega))
      · obtain ⟨r, hr⟩ := hrecorded q hqmod hold
        exact ⟨r, hr.mem, hr.ts, hr.items⟩
    · obtain ⟨m, hm, hmod, hts⟩ := hended r hr
      exact ⟨m, Nat.lt_add_right 100 hm, hmod, hts⟩
  | @ended cache items j b hk' hj hend hfirst =>
    have hmod : (t₀ + (s.consumed + j)) % 1000 = 999 := Paced.batch_ts hcont b hj ▸ hend.1
    have hlen := b.len
    have hlate : 1 < s.consumed + j := by
      have := hend.2
      omega
    refine ⟨hrun, ⟨99 - j, s.consumed + j + 1, rfl, by omega, ?_, fun i hi => ?_, .inl ?_⟩,
      fun q hqmod hdone => ?_, fun r hr => ?_, ?_⟩
    · simp only [SampleFlow.taken]
      omega
    · have hpos : slotPos (s.consumed + j + 1) i = s.consumed + (j + i) := by
        rw [slotPos_remainder hlate (by omega)]
        omega
      have hover : overlay (fun _ x => x) items 0 (99 - j) (fun i => items (k + j + i)) i =
          items (k + (j + i)) := by
        rw [overlay_in _ _ _ (Nat.zero_le _) (by omega), Nat.sub_zero, Nat.add_assoc]
      simp only [SampleFlow.taken, hpos, hover]
      exact b.new (j + i) (by omega)
    · omega
    · rcases Nat.lt_or_ge s.consumed (q + 1000) with hnew | hold
      · obtain ⟨hle, hsame⟩ := hfilling.ends hk hqmod hnew hdone
        simp only [SampleFlow.taken] at hdone
        refine ⟨_, List.mem_concat_self, ?_, fun i hi => ?_⟩
        case refine_2 =>
          rw [hsame]
          exact hfilling.batch hflow b i (by omega)
        simp only [Paced.batch_ts hcont b hj]
        congr 1
        omega
      · obtain ⟨r, hr⟩ := hrecorded q hqmod hold
        exact ⟨r, hr.mono _ _⟩
    · rcases List.mem_append.mp hr with hr | hr
      · obtain ⟨m, hm, hmod, hts⟩ := hended r hr
        exact ⟨m, Nat.lt_add_right 100 hm, hmod, hts⟩
      · refine ⟨s.consumed + j, Nat.add_lt_add_left hj _, hmod, ?_⟩
        rw [List.mem_singleton.mp hr, Paced.batch_ts hcont b hj]
    · refine List.pairwise_append.mpr ⟨hordered, List.pairwise_singleton _ _, fun r hr r' hr' => ?_⟩
      obtain ⟨m, hm, hmmod, hts⟩ := hended r hr
      rw [List.mem_singleton.mp hr', hts, Paced.batch_ts hcont b hj, UInt32.lt_iff_toNat_lt,
        UInt32.toNat_ofNat', UInt32.toNat_ofNat', Nat.mod_eq_of_lt (by omega),
        Nat.mod_eq_of_lt (by omega)]
      omega

theorem Laid.write (h : Laid t₀ s) (hflow : Flowing s) (lock : Bool) (item : AdcItem) :
    Laid t₀ (s.write lock item) := by
  have hpre := (hflow.write lock item).2
  obtain ⟨hrun, ⟨k, p, hindex, hk, hfilling⟩, hrecorded, hended, hordered⟩ := h
  refine ⟨hrun, ⟨k, p, hindex, hk, hfilling.slots, hfilling.fills.mono hpre, hfilling.begins⟩,
    fun q hmod hdone => ?_, hended, hordered⟩
  obtain ⟨r, hr⟩ := hrecorded q hmod hdone
  exact ⟨r, hr.mem, hr.ts, hr.items.mono hpre⟩

end Turn

theorem Laid.start (t₀ : Nat) : Laid t₀ sampleFlow.start where
  running := rfl
  buffer := ⟨0, 0, rfl, Nat.zero_le _, rfl, fun i hi => absurd hi (Nat.not_lt_zero i),
    .inr ⟨rfl, fun m hm => absurd hm (Nat.not_lt_zero m)⟩⟩
  recorded := fun p _ hdone => absurd hdone (by simp [sampleFlow])
  ended := fun r hr => absurd hr List.not_mem_nil
  ordered := .nil

/-- Every second of an unbroken stream is handed over, with its samples where `slotPos` says. -/
theorem Laid.run {t₀ : Nat} {es : List SampleEvent}
    (hcont : Contiguous t₀ (sampleFlow.run es).delivered)
    (hfit : t₀ + (sampleFlow.run es).delivered.length ≤ 1000 * 2 ^ 32) :
    Laid t₀ (sampleFlow.run es) := by
  induction es using List.reverseRecOn with
  | nil => exact .start t₀
  | append_singleton es e ih =>
    have hpre := delivered_extends es [e]
    have hbefore := hcont.of_isPrefixOf hpre
    have hfit' : t₀ + (sampleFlow.run es).delivered.length ≤ 1000 * 2 ^ 32 := by
      have := hpre.length_le
      omega
    have hlaid := ih hbefore hfit'
    rw [Machine.run_concat]
    cases e with
    | write lock item => exact hlaid.write (Flowing.run es) lock item
    | turn countLock readLock => exact hlaid.turn (Flowing.run es) hbefore hfit' countLock readLock

end Lsc100
