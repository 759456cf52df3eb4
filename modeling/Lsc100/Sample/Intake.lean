import Mathlib.Data.List.Induction
import Lsc100.Sample.StorageTask

/-! How `storage_task` lays a stream of samples down, seen sample by sample. Of a
batch only the first sample hands a second over that ends one behind the first
two slots, and a batch that begins behind slot 1000 does not fit any more. -/

namespace Lsc100

open Overlay

def AdcItem.isLast (item : AdcItem) : Bool := item.ts.toNat % 1000 = 999

def AdcItem.second (item : AdcItem) : UInt32 := UInt32.ofNat (item.ts.toNat / 1000)

/-- The batch begins at slot `base` and has `count` samples so far, the one at
`ended` hands its second over. -/
structure Intake where
  base : Nat
  count : Nat
  ended : Option Nat
  handed : List AdcItem

namespace Intake

def HandsOver (b : Intake) (item : AdcItem) : Prop :=
  item.isLast = true ∧ b.ended = none ∧ 1 < b.base + b.count ∧ b.base ≤ 1000

instance (b : Intake) (item : AdcItem) : Decidable (b.HandsOver item) :=
  inferInstanceAs (Decidable (_ ∧ _))

/-- Where the next batch begins. -/
def nextBase (b : Intake) : Nat :=
  if 1000 < b.base then b.base
  else match b.ended with
    | some j => 99 - j
    | none => if b.base = 1000 then 0 else b.base + 100

def noted (b : Intake) (item : AdcItem) : Intake :=
  if b.HandsOver item then { b with ended := some b.count, handed := b.handed ++ [item] } else b

def push (b : Intake) (item : AdcItem) : Intake :=
  if b.count < 99 then { b.noted item with count := b.count + 1 }
  else ⟨(b.noted item).nextBase, 0, none, (b.noted item).handed⟩

/-- The batch with `n` more samples of which none hands over. -/
def ahead (b : Intake) (n : Nat) : Intake := { b with count := b.count + n }

/-- So many samples have to come before one can hand its second over. -/
def wait (b : Intake) : Nat :=
  match b.ended with
  | some j => 100 - b.count + (2 - (99 - j))
  | none => 2 - (b.base + b.count)

end Intake

/-- Where `storage_task` will be when it has taken all of the stream. -/
def intake (stream : List AdcItem) : Intake := stream.foldl Intake.push ⟨0, 0, none, []⟩

namespace Intake

variable {b : Intake} {item : AdcItem} {l : List AdcItem}

theorem noted_of_not (h : ¬ b.HandsOver item) : b.noted item = b := if_neg h

theorem noted_of_handsOver (h : b.HandsOver item) :
    b.noted item = { b with ended := some b.count, handed := b.handed ++ [item] } := if_pos h

@[simp] theorem noted_base (b : Intake) (item : AdcItem) : (b.noted item).base = b.base := by
  rw [noted]
  split <;> rfl

theorem push_inside (h : b.count < 99) (item : AdcItem) : b.push item = (b.noted item).ahead 1 := by
  rw [push, if_pos h, noted]
  split <;> rfl

theorem push_full (h : ¬ b.count < 99) (item : AdcItem) :
    b.push item = ⟨(b.noted item).nextBase, 0, none, (b.noted item).handed⟩ := if_neg h

theorem push_handed (b : Intake) (item : AdcItem) :
    (b.push item).handed = (b.noted item).handed := by
  rw [push]
  split <;> rfl

theorem noted_handed (b : Intake) (item : AdcItem) :
    (b.noted item).handed = b.handed ∨ (b.noted item).handed = b.handed ++ [item] := by
  rw [noted]
  split
  · exact .inr rfl
  · exact .inl rfl

/-- A batch that does not fit stays where it is. -/
theorem push_over (h : 1000 < b.base) (item : AdcItem) :
    (b.push item).base = b.base ∧ (b.push item).handed = b.handed := by
  have hnot : ¬ b.HandsOver item := fun hands => by
    have := hands.2.2.2
    omega
  rw [push, noted_of_not hnot, nextBase, if_pos h]
  split <;> exact ⟨rfl, rfl⟩

/-- A part of a batch in which nothing is handed over. -/
theorem foldl_part (hroom : b.count + l.length < 100)
    (hquiet : ∀ j x, l[j]? = some x → ¬ (b.ahead j).HandsOver x) :
    l.foldl push b = b.ahead l.length := by
  induction l generalizing b with
  | nil => rfl
  | cons x l ih =>
    rw [List.length_cons] at hroom ⊢
    have hnot : ¬ b.HandsOver x := hquiet 0 x rfl
    have hstep : b.push x = b.ahead 1 := by rw [push_inside (by omega), noted_of_not hnot]
    have hahead : ∀ n, (b.ahead 1).ahead n = b.ahead (n + 1) := fun n => by
      rw [ahead, ahead, ahead, Nat.add_assoc, Nat.add_comm 1]
    have hroom' : (b.ahead 1).count + l.length < 100 := by
      simp only [ahead]
      omega
    rw [List.foldl_cons, hstep, ih hroom' fun j y hy => ?_, hahead]
    rw [hahead]
    exact hquiet (j + 1) y hy

/-- The rest of a batch in which nothing is handed over. -/
theorem foldl_batch (hfull : b.count + l.length = 100) (hne : l ≠ [])
    (hquiet : ∀ j x, l[j]? = some x → ¬ (b.ahead j).HandsOver x) :
    l.foldl push b = ⟨b.nextBase, 0, none, b.handed⟩ := by
  obtain ⟨init, x, rfl⟩ := List.eq_nil_or_concat' l |>.resolve_left hne
  rw [List.length_append, List.length_singleton] at hfull
  have hinit : init.foldl push b = b.ahead init.length :=
    foldl_part (by omega) fun j y hy => hquiet j y (by
      rw [List.getElem?_append_left (List.getElem?_eq_some_iff.mp hy).1, hy])
  have hlast := hquiet init.length x (by simp)
  have hcount : ¬ (b.ahead init.length).count < 99 := by
    simp only [ahead]
    omega
  rw [List.foldl_append, hinit, List.foldl_cons, List.foldl_nil, push_full hcount,
    noted_of_not hlast]
  rfl

/-- The rest of a batch whose first sample hands its second over. -/
theorem foldl_ended (hfull : b.count + l.length = 99) (hands : b.HandsOver item) :
    (item :: l).foldl push b = ⟨99 - b.count, 0, none, b.handed ++ [item]⟩ := by
  have hover : ¬ 1000 < b.base := Nat.not_lt_of_le hands.2.2.2
  rw [List.foldl_cons]
  cases l with
  | nil =>
    rw [List.length_nil] at hfull
    rw [push_full (by omega), noted_of_handsOver hands, nextBase, if_neg hover]
    rfl
  | cons x l =>
    rw [List.length_cons] at hfull
    rw [push_inside (by omega), noted_of_handsOver hands, foldl_batch (by simp [ahead]; omega)
      (List.cons_ne_nil x l) fun j y _ hands' => absurd hands'.2.1 (by simp [ahead])]
    rw [ahead, nextBase, if_neg hover]

theorem wait_le (b : Intake) : b.wait ≤ 102 := by
  rw [wait]
  split <;> omega

/-- A sample that ends no second brings the next end one sample nearer. -/
theorem wait_push (hwait : 0 < b.wait) (hitem : item.isLast = false) (hbase : b.base ≤ 1000)
    (hcount : b.count < 100) : (b.push item).wait + 1 = b.wait ∧ (b.push item).base ≤ 1000 := by
  have hnot : ¬ b.HandsOver item := fun hands => by simp [hands.1] at hitem
  rw [wait] at hwait ⊢
  by_cases hinside : b.count < 99
  · rw [push_inside hinside, noted_of_not hnot, wait]
    refine ⟨?_, hbase⟩
    cases hended : b.ended with
    | some j =>
      simp only [ahead, hended]
      omega
    | none =>
      simp only [hended] at hwait
      simp only [ahead, hended]
      omega
  · rw [push_full hinside, noted_of_not hnot, nextBase, if_neg (Nat.not_lt_of_le hbase), wait]
    cases hended : b.ended with
    | some j =>
      simp only
      omega
    | none =>
      simp only [hended] at hwait
      omega

theorem push_base_of_handsOver (h : b.HandsOver item) : (b.push item).base ≤ 1000 := by
  have hbase := h.2.2.2
  rw [push, noted_of_handsOver h]
  split
  · exact hbase
  · simp only [nextBase, if_neg (Nat.not_lt_of_le hbase)]
    omega

theorem handsOver_of_wait (hwait : b.wait = 0) (hitem : item.isLast = true)
    (hbase : b.base ≤ 1000) (hcount : b.count < 100) : b.HandsOver item := by
  rw [wait] at hwait
  cases hended : b.ended with
  | some j =>
    simp only [hended] at hwait
    omega
  | none =>
    simp only [hended] at hwait
    exact ⟨hitem, hended, by omega, hbase⟩

end Intake

section Stream

variable {stream before : List AdcItem} {item : AdcItem}

theorem intake_concat (stream : List AdcItem) (item : AdcItem) :
    intake (stream ++ [item]) = (intake stream).push item := List.foldl_concat ..

theorem intake_append (before after : List AdcItem) :
    intake (before ++ after) = after.foldl Intake.push (intake before) := List.foldl_append

theorem intake_count (stream : List AdcItem) : (intake stream).count = stream.length % 100 := by
  induction stream using List.reverseRecOn with
  | nil => rfl
  | append_singleton stream x ih =>
    rw [intake_concat, Intake.push, List.length_append, List.length_singleton]
    split
    · simp only
      omega
    · simp only
      omega

theorem intake_base_lt (stream : List AdcItem) : (intake stream).base < 1100 := by
  induction stream using List.reverseRecOn with
  | nil => exact Nat.succ_pos _
  | append_singleton stream x ih =>
    rw [intake_concat, Intake.push]
    split
    · simpa using ih
    · simp only [Intake.nextBase, Intake.noted_base]
      split
      · exact ih
      · split
        · omega
        · split <;> omega

theorem intake_ended_lt (stream : List AdcItem) {j : Nat} (h : (intake stream).ended = some j) :
    j < (intake stream).count := by
  induction stream using List.reverseRecOn generalizing j with
  | nil => cases h
  | append_singleton stream x ih =>
    rw [intake_concat, Intake.push] at h ⊢
    split at h
    · rename_i hcount
      rw [if_pos hcount]
      simp only at h ⊢
      by_cases hands : (intake stream).HandsOver x
      · rw [Intake.noted_of_handsOver hands] at h
        obtain rfl := Option.some.inj h
        exact Nat.lt_succ_self _
      · rw [Intake.noted_of_not hands] at h
        exact Nat.lt_succ_of_lt (ih h)
    · cases h

theorem intake_handed_sublist (stream : List AdcItem) : (intake stream).handed.Sublist stream := by
  induction stream using List.reverseRecOn with
  | nil => exact List.Sublist.refl []
  | append_singleton stream x ih =>
    rw [intake_concat, Intake.push_handed]
    rcases (intake stream).noted_handed x with heq | heq
    · exact heq ▸ ih.trans (List.sublist_append_left _ _)
    · exact heq ▸ ih.append (List.Sublist.refl [x])

theorem intake_handed_isPrefixOf (h : before <+: stream) :
    (intake before).handed <+: (intake stream).handed := by
  obtain ⟨after, rfl⟩ := h
  induction after using List.reverseRecOn with
  | nil => simp
  | append_singleton after x ih =>
    rw [← List.append_assoc, intake_concat, Intake.push_handed]
    rcases (intake (before ++ after)).noted_handed x with heq | heq
    · exact heq ▸ ih
    · exact heq ▸ ih.trans (List.prefix_append _ _)

theorem isLast_of_mem_handed (h : item ∈ (intake stream).handed) : item.isLast = true := by
  induction stream using List.reverseRecOn with
  | nil => cases h
  | append_singleton stream x ih =>
    rw [intake_concat, Intake.push_handed] at h
    by_cases hands : (intake stream).HandsOver x
    · rw [Intake.noted_of_handsOver hands] at h
      rcases List.mem_append.mp h with h | h
      · exact ih h
      · exact List.mem_singleton.mp h ▸ hands.1
    · rw [Intake.noted_of_not hands] at h
      exact ih h

/-- Once a batch does not fit, none will. -/
theorem intake_over_of_isPrefixOf (h : before <+: stream) (hover : 1000 < (intake before).base) :
    1000 < (intake stream).base ∧ (intake stream).handed = (intake before).handed := by
  obtain ⟨after, rfl⟩ := h
  induction after using List.reverseRecOn with
  | nil =>
    rw [List.append_nil]
    exact ⟨hover, rfl⟩
  | append_singleton after x ih =>
    rw [← List.append_assoc, intake_concat]
    obtain ⟨hbase, hhanded⟩ := Intake.push_over ih.1 x
    exact ⟨hbase ▸ ih.1, hhanded.trans ih.2⟩

/-- With no end in the batch that is not complete, all that is handed over is in
the others. -/
theorem intake_handed_take (h : (intake stream).ended = none) {n : Nat} (hn : n % 100 = 0)
    (hle : n ≤ stream.length) (hlt : stream.length < n + 100) :
    (intake stream).handed = (intake (stream.take n)).handed := by
  induction stream using List.reverseRecOn with
  | nil => rw [List.take_nil]
  | append_singleton stream x ih =>
    rw [List.length_append, List.length_singleton] at hle hlt
    rcases Nat.lt_or_eq_of_le hle with hmore | rfl
    · have hcount := intake_count stream
      have hpart : (intake stream).count < 99 := by omega
      rw [intake_concat, Intake.push, if_pos hpart] at h ⊢
      have hnot : ¬ (intake stream).HandsOver x := fun hands => by
        simp only [Intake.noted_of_handsOver hands] at h
        cases h
      rw [Intake.noted_of_not hnot] at h ⊢
      rw [List.take_append_of_le_length (by omega)]
      exact ih h (by omega) (by omega)
    · rw [List.take_of_length_le (by simp)]

end Stream

/-- The slot the next batch goes to, and the seconds handed over, are those of
the samples taken. -/
structure InStep (s : SampleFlow) : Prop where
  overran : s.overrun = true → 1000 < (intake (s.delivered.take s.consumed)).base
  index : s.overrun = false → s.task.index = 64 * (intake (s.delivered.take s.consumed)).base
  handed : s.handed.map (·.ts) =
    (intake (s.delivered.take s.consumed)).handed.map AdcItem.second

namespace InStep

variable {s : SampleFlow}

theorem start : InStep sampleFlow.start := ⟨nofun, fun _ => rfl, rfl⟩

/-- The samples of a batch, one after the other. -/
theorem take_batch {k : Nat} {cache : AdcItemCache} {items : Nat → AdcItem}
    (b : Batch s k cache items) : ∃ batch : List AdcItem,
      s.delivered.take (s.consumed + 100) = s.delivered.take s.consumed ++ batch ∧
      batch.length = 100 ∧ ∀ j < 100, batch[j]? = some (items (k + j)) := by
  refine ⟨(s.delivered.drop s.consumed).take 100, List.take_add, ?_, fun j hj => ?_⟩
  · have := b.len
    rw [List.length_take, List.length_drop]
    omega
  · rw [List.getElem?_take_of_lt hj, List.getElem?_drop]
    exact b.new j hj

theorem turn (h : InStep s) (hflow : Flowing s) (countLock readLock : Bool) :
    InStep (s.turn countLock readLock) := by
  cases hrun : s.overrun with
  | true =>
    rw [SampleFlow.turn, if_pos hrun]
    exact h
  | false =>
    have hle := hflow.consumed_le
    have hcount : (intake (s.delivered.take s.consumed)).count = 0 := by
      rw [intake_count, List.length_take, Nat.min_eq_left hle, hflow.aligned]
    have hnone : (intake (s.delivered.take s.consumed)).ended = none := by
      cases hended : (intake (s.delivered.take s.consumed)).ended with
      | none => rfl
      | some j => exact absurd (intake_ended_lt _ hended) (by omega)
    have hspec := hflow.turn_spec hrun (intake_base_lt _) (h.index hrun) countLock readLock
    have hhanded := h.handed
    generalize s.turn countLock readLock = s' at hspec
    generalize hb : intake (s.delivered.take s.consumed) = b at *
    -- the condition of `storage_task` is that of the intake
    have hends : ∀ (items : Nat → AdcItem) (j : Nat), b.base ≤ 1000 →
        ((b.ahead j).HandsOver (items (b.base + j)) ↔ EndsSecond items (b.base + j)) := by
      intro items j hbase
      rw [Intake.HandsOver, EndsSecond, AdcItem.isLast, decide_eq_true_iff]
      simp only [Intake.ahead, hnone, hcount, Nat.zero_add, hbase, true_and, and_true]
    cases hspec with
    | idle =>
      exact ⟨fun h => absurd (hrun.symm.trans h) Bool.false_ne_true,
        fun _ => hb.symm ▸ h.index hrun, hb.symm ▸ hhanded⟩
    | past batch hover =>
      have hover' : 1000 < (intake (s.delivered.take s.consumed)).base := hb.symm ▸ hover
      have hkept := intake_over_of_isPrefixOf
        (List.take_prefix_take_left (l := s.delivered) (Nat.le_add_right s.consumed 100)) hover'
      refine ⟨fun _ => hkept.1, fun hfits => absurd hfits.symm Bool.false_ne_true, ?_⟩
      simp only [SampleFlow.taken]
      rw [hkept.2, hb]
      exact hhanded
    | @filled cache items bat hk hquiet =>
      obtain ⟨batch, htake, hlen, hget⟩ := take_batch bat
      have hfold : intake (s.delivered.take (s.consumed + 100)) =
          ⟨b.nextBase, 0, none, b.handed⟩ := by
        rw [htake, intake_append, hb]
        refine Intake.foldl_batch (by omega) (by rintro rfl; cases hlen) fun j x hx hands => ?_
        have hj : j < 100 := hlen ▸ (List.getElem?_eq_some_iff.mp hx).1
        obtain rfl := Option.some.inj ((hget j hj).symm.trans hx)
        exact hquiet j hj ((hends items j hk).mp hands)
      refine ⟨fun h => absurd (hrun.symm.trans h) Bool.false_ne_true, fun _ => ?_, ?_⟩
      · simp only [SampleFlow.taken]
        rw [hfold]
        simp only [Intake.nextBase, if_neg (Nat.not_lt_of_le hk), hnone]
        split <;> split <;> omega
      · simp only [SampleFlow.taken]
        rw [hfold]
        exact hhanded
    | @ended cache items j bat hk hj hend hfirst =>
      obtain ⟨batch, htake, hlen, hget⟩ := take_batch bat
      have hsplit : batch = batch.take j ++ items (b.base + j) :: batch.drop (j + 1) := by
        have hitem := (List.getElem?_eq_some_iff.mp (hget j hj)).2
        rw [← hitem, ← List.drop_eq_getElem_cons, List.take_append_drop]
      have hlength : (batch.take j).length = j := by
        rw [List.length_take]
        omega
      have hbefore : (batch.take j).foldl Intake.push b = b.ahead j := by
        rw [Intake.foldl_part (by omega) fun i x hx hands => ?_, hlength]
        have hi : i < j := hlength ▸ (List.getElem?_eq_some_iff.mp hx).1
        rw [List.getElem?_take_of_lt hi, hget i (by omega)] at hx
        obtain rfl := Option.some.inj hx
        exact hfirst i hi ((hends items i hk).mp hands)
      have hfold : intake (s.delivered.take (s.consumed + 100)) =
          ⟨99 - j, 0, none, b.handed ++ [items (b.base + j)]⟩ := by
        rw [htake, hsplit, intake_append, hb, List.foldl_append, hbefore,
          Intake.foldl_ended ?_ ((hends items j hk).mpr hend)]
        · simp [Intake.ahead, hcount]
        · simp only [Intake.ahead, List.length_drop]
          omega
      refine ⟨fun h => absurd (hrun.symm.trans h) Bool.false_ne_true, fun _ => ?_, ?_⟩
      · simp only [SampleFlow.taken]
        rw [hfold]
      · simp only [SampleFlow.taken]
        rw [hfold, List.map_append, List.map_append, hhanded]
        rfl

theorem write (h : InStep s) (hflow : Flowing s) (lock : Bool) (item : AdcItem) :
    InStep (s.write lock item) := by
  have hpre := (hflow.write lock item).2
  have htake : (s.write lock item).delivered.take s.consumed = s.delivered.take s.consumed := by
    obtain ⟨rest, hrest⟩ := hpre
    rw [← hrest, List.take_append_of_le_length hflow.consumed_le]
  refine ⟨fun hover => ?_, fun hrun => ?_, ?_⟩
  · change 1000 < (intake ((s.write lock item).delivered.take s.consumed)).base
    exact htake ▸ h.overran hover
  · change s.task.index = 64 * (intake ((s.write lock item).delivered.take s.consumed)).base
    exact htake ▸ h.index hrun
  · change s.handed.map _ = (intake ((s.write lock item).delivered.take s.consumed)).handed.map _
    exact htake ▸ h.handed

end InStep

end Lsc100
