import Mathlib.Logic.Function.Basic
import Mathlib.Data.List.Induction
import Lsc100.Basis.Machine

/-! Tasks that share an object under one mutex, one access to it at a time in any order, and the
same calls when each takes effect at once. -/

namespace Sections

/-- What a task still does while it has the mutex. -/
inductive Body (σ ρ : Type)
  | give (ret : ρ)
  | load (next : σ → Body σ ρ)
  | store (f : σ → σ) (next : Body σ ρ)

namespace Body

variable {σ ρ β : Type}

/-- All that is left, with nothing in between. -/
def exec : Body σ ρ → σ → σ × ρ
  | give ret, s => (s, ret)
  | load next, s => (next s).exec s
  | store f next, s => next.exec (f s)

/-- A load of a part of the object. -/
def fetch (part : σ → β) (next : β → Body σ ρ) : Body σ ρ := load fun s => next (part s)

/-- A loop that writes. -/
def stores (f : Nat → σ → σ) : Nat → Body σ ρ → Body σ ρ
  | 0, next => next
  | n + 1, next => stores f n (.store (f n) next)

/-- A loop that reads, from `i` on, into what the task has for itself. -/
def loads (f : Nat → σ → β → β) : Nat → Nat → β → (β → Body σ ρ) → Body σ ρ
  | _, 0, b, next => next b
  | i, n + 1, b, next => .load fun s => loads f (i + 1) n (f i s b) next

@[simp] theorem exec_give (ret : ρ) (s : σ) : (give ret).exec s = (s, ret) := rfl

@[simp] theorem exec_fetch (part : σ → β) (next : β → Body σ ρ) (s : σ) :
    (fetch part next).exec s = (next (part s)).exec s := rfl

@[simp] theorem exec_store (f : σ → σ) (next : Body σ ρ) (s : σ) :
    (store f next).exec s = next.exec (f s) := rfl

theorem exec_stores (f : Nat → σ → σ) (n : Nat) (next : Body σ ρ) (s : σ) :
    (stores f n next).exec s = next.exec ((List.range n).foldl (fun s i => f i s) s) := by
  induction n generalizing next with
  | zero => rfl
  | succ n ih =>
    rw [stores, ih, exec_store, List.range_succ, List.foldl_append]
    rfl

theorem exec_loads (f : Nat → σ → β → β) (i n : Nat) (b : β) (next : β → Body σ ρ) (s : σ) :
    (loads f i n b next).exec s =
      (next ((List.range' i n).foldl (fun b i => f i s b) b)).exec s := by
  induction n generalizing i b with
  | zero => rfl
  | succ n ih =>
    rw [List.range'_succ, List.foldl_cons]
    exact ih (i + 1) (f i s b)

end Body

/-- The calls of an object. `early` is returned without asking for the mutex, `refused` when it
has not been obtained in time. -/
structure Object (σ κ ρ : Type) where
  early : κ → Option ρ
  refused : κ → ρ
  body : κ → Body σ ρ

inductive Phase (σ κ ρ : Type)
  | idle
  | asking (c : κ)
  | inside (rest : Body σ ρ)
  | leaving (ret : ρ)

/-- What the callers see, in order. -/
inductive Seen (τ κ ρ : Type)
  | call (t : τ) (c : κ)
  | ret (t : τ) (r : ρ)

structure Tasks (τ σ κ ρ : Type) where
  shared : σ
  owner : Option τ
  phase : τ → Phase σ κ ρ
  seen : List (Seen τ κ ρ)

/-- What happens next. A `step` is one access of the task, or its return. -/
inductive Move (τ κ : Type)
  | call (t : τ) (c : κ)
  | take (t : τ)
  | timeout (t : τ)
  | step (t : τ)

section Fine

variable {τ σ κ ρ : Type} [DecidableEq τ]

def Object.enter (o : Object σ κ ρ) (c : κ) : Phase σ κ ρ :=
  match o.early c with
  | some ret => .leaving ret
  | none => .asking c

/-- Moves that are not possible change nothing. -/
def Object.step (o : Object σ κ ρ) (s : Tasks τ σ κ ρ) : Move τ κ → Tasks τ σ κ ρ
  | .call t c =>
    match s.phase t with
    | .idle =>
      { s with phase := Function.update s.phase t (o.enter c), seen := s.seen ++ [.call t c] }
    | _ => s
  | .take t =>
    match s.phase t, s.owner with
    | .asking c, none =>
      { s with owner := some t, phase := Function.update s.phase t (.inside (o.body c)) }
    | _, _ => s
  | .timeout t =>
    match s.phase t with
    | .asking c => { s with phase := Function.update s.phase t (.leaving (o.refused c)) }
    | _ => s
  | .step t =>
    match s.phase t with
    | .inside (.give ret) =>
      { s with owner := none, phase := Function.update s.phase t (.leaving ret) }
    | .inside (.load next) =>
      { s with phase := Function.update s.phase t (.inside (next s.shared)) }
    | .inside (.store f next) =>
      { s with shared := f s.shared, phase := Function.update s.phase t (.inside next) }
    | .leaving ret =>
      { s with phase := Function.update s.phase t .idle, seen := s.seen ++ [.ret t ret] }
    | _ => s

def Object.tasks (o : Object σ κ ρ) (shared : σ) : Machine (Tasks τ σ κ ρ) (Move τ κ) where
  start := ⟨shared, none, fun _ => .idle, []⟩
  step := o.step

end Fine

inductive Status (κ ρ : Type)
  | idle
  | called (c : κ)
  | done (ret : ρ)

/-- The object in its own terms. -/
structure AtOnce (τ α κ ρ : Type) where
  state : α
  status : τ → Status κ ρ
  seen : List (Seen τ κ ρ)

inductive Point (τ κ : Type)
  | call (t : τ) (c : κ)
  | effect (t : τ) (lock : Bool)
  | ret (t : τ)

section Coarse

variable {τ α κ ρ : Type} [DecidableEq τ] (spec : α → κ → Bool → α × ρ)

/-- A call takes effect at one point between the call and its return. -/
def atOnceStep (s : AtOnce τ α κ ρ) : Point τ κ → AtOnce τ α κ ρ
  | .call t c =>
    match s.status t with
    | .idle =>
      { s with status := Function.update s.status t (.called c), seen := s.seen ++ [.call t c] }
    | _ => s
  | .effect t lock =>
    match s.status t with
    | .called c =>
      let r := spec s.state c lock
      { s with state := r.1, status := Function.update s.status t (.done r.2) }
    | _ => s
  | .ret t =>
    match s.status t with
    | .done ret =>
      { s with status := Function.update s.status t .idle, seen := s.seen ++ [.ret t ret] }
    | _ => s

def atOnce (state : α) : Machine (AtOnce τ α κ ρ) (Point τ κ) where
  start := ⟨state, fun _ => .idle, []⟩
  step := atOnceStep spec

/-- What can be said of the object, of calls and of results, given what has been seen. -/
structure Promise (Good : List (Seen τ κ ρ) → α → Prop) (Called : List (Seen τ κ ρ) → κ → Prop)
    (Returns : List (Seen τ κ ρ) → ρ → Prop) : Prop where
  good_mono : ∀ seen e a, Good seen a → Good (seen ++ [e]) a
  called_mono : ∀ seen e c, Called seen c → Called (seen ++ [e]) c
  returns_mono : ∀ seen e r, Returns seen r → Returns (seen ++ [e]) r
  call : ∀ seen t c, Called (seen ++ [.call t c]) c
  effect : ∀ seen a c lock, Good seen a → Called seen c →
    Good seen (spec a c lock).1 ∧ Returns seen (spec a c lock).2

variable {spec} {Good : List (Seen τ κ ρ) → α → Prop} {Called : List (Seen τ κ ρ) → κ → Prop}
  {Returns : List (Seen τ κ ρ) → ρ → Prop}

def StatusOk (Called : List (Seen τ κ ρ) → κ → Prop) (Returns : List (Seen τ κ ρ) → ρ → Prop)
    (seen : List (Seen τ κ ρ)) : Status κ ρ → Prop
  | .idle => True
  | .called c => Called seen c
  | .done r => Returns seen r

structure Kept (Good : List (Seen τ κ ρ) → α → Prop) (Called : List (Seen τ κ ρ) → κ → Prop)
    (Returns : List (Seen τ κ ρ) → ρ → Prop) (a : AtOnce τ α κ ρ) : Prop where
  state : Good a.seen a.state
  status : ∀ t, StatusOk Called Returns a.seen (a.status t)
  returned : ∀ before t r, before ++ [.ret t r] <+: a.seen → Returns before r

omit [DecidableEq τ] in
theorem Promise.status_mono (h : Promise spec Good Called Returns) {seen : List (Seen τ κ ρ)}
    (e : Seen τ κ ρ) {q : Status κ ρ} (hq : StatusOk Called Returns seen q) :
    StatusOk Called Returns (seen ++ [e]) q := by
  cases q with
  | idle => trivial
  | called c => exact h.called_mono seen e c hq
  | done r => exact h.returns_mono seen e r hq

theorem Promise.step (h : Promise spec Good Called Returns) {a : AtOnce τ α κ ρ}
    (ha : Kept Good Called Returns a) (p : Point τ κ) :
    Kept Good Called Returns (atOnceStep spec a p) := by
  cases p with
  | call t c =>
    cases hstatus : a.status t with
    | idle =>
      simp only [atOnceStep, hstatus]
      refine ⟨h.good_mono _ _ _ ha.state, ?_, fun before t' r hpre => ?_⟩
      · exact (Function.forall_update_iff a.status fun _ q => StatusOk Called Returns _ q).mpr
          ⟨h.call _ t c, fun t' _ => h.status_mono _ (ha.status t')⟩
      · obtain hlast | hbefore := List.prefix_concat_iff.mp hpre
        · cases (List.append_inj' hlast rfl).2
        · exact ha.returned before t' r hbefore
    | called c' =>
      simp only [atOnceStep, hstatus]
      exact ha
    | done r =>
      simp only [atOnceStep, hstatus]
      exact ha
  | effect t lock =>
    cases hstatus : a.status t with
    | called c =>
      simp only [atOnceStep, hstatus]
      have hcalled : StatusOk Called Returns a.seen (.called c) := hstatus ▸ ha.status t
      obtain ⟨hgood, hreturns⟩ := h.effect a.seen a.state c lock ha.state hcalled
      exact ⟨hgood, (Function.forall_update_iff a.status fun _ q =>
        StatusOk Called Returns _ q).mpr ⟨hreturns, fun t' _ => ha.status t'⟩, ha.returned⟩
    | idle =>
      simp only [atOnceStep, hstatus]
      exact ha
    | done r =>
      simp only [atOnceStep, hstatus]
      exact ha
  | ret t =>
    cases hstatus : a.status t with
    | done r =>
      simp only [atOnceStep, hstatus]
      have hreturns : StatusOk Called Returns a.seen (.done r) := hstatus ▸ ha.status t
      refine ⟨h.good_mono _ _ _ ha.state, ?_, fun before t' r' hpre => ?_⟩
      · exact (Function.forall_update_iff a.status fun _ q => StatusOk Called Returns _ q).mpr
          ⟨trivial, fun t' _ => h.status_mono _ (ha.status t')⟩
      · obtain hlast | hbefore := List.prefix_concat_iff.mp hpre
        · obtain ⟨rfl, hret⟩ := List.append_inj' hlast rfl
          cases hret
          exact hreturns
        · exact ha.returned before t' r' hbefore
    | idle =>
      simp only [atOnceStep, hstatus]
      exact ha
    | called c =>
      simp only [atOnceStep, hstatus]
      exact ha

/-- Whatever is returned in a run keeps the promise, given what has been seen before. -/
theorem Promise.kept (h : Promise spec Good Called Returns) {state : α} (hstart : Good [] state)
    (ps : List (Point τ κ)) : Kept Good Called Returns ((atOnce spec state).run ps) := by
  have hkept : Kept Good Called Returns (atOnce spec state).start :=
    ⟨hstart, fun _ => trivial, fun before t r hpre => absurd (List.prefix_nil.mp hpre) (by simp)⟩
  have hstep (a : AtOnce τ α κ ρ) (p : Point τ κ) (ha : Kept Good Called Returns a) :
      Kept Good Called Returns ((atOnce spec state).step a p) := h.step ha p
  exact (atOnce spec state).invariant_runFrom_of_step hstep ps hkept

end Coarse

/-- Taken one at a time the calls do what `spec` says, `Rep` relating the states. -/
structure Implements {σ α κ ρ : Type} (o : Object σ κ ρ) (spec : α → κ → Bool → α × ρ)
    (Rep : σ → α → Prop) : Prop where
  without : ∀ a c, spec a c false = (a, (o.early c).getD (o.refused c))
  body : ∀ s a c, o.early c = none → Rep s a →
    Rep ((o.body c).exec s).1 (spec a c true).1 ∧ ((o.body c).exec s).2 = (spec a c true).2

section Refines

variable {τ σ α κ ρ : Type} {o : Object σ κ ρ} {spec : α → κ → Bool → α × ρ}
  {Rep : σ → α → Prop}

/-- How the phase of a task shows in the coarse system. The call of a task that is inside has
taken effect with what it is going to return. -/
def PhaseAs (o : Object σ κ ρ) (shared : σ) : Phase σ κ ρ → Status κ ρ → Prop
  | .idle, .idle => True
  | .asking c, .called c' => c = c' ∧ o.early c = none
  | .inside rest, .done ret => (rest.exec shared).2 = ret
  | .leaving ret, .done ret' => ret = ret'
  | _, _ => False

/-- The state the object is going to have once the mutex is free. -/
def settled (s : Tasks τ σ κ ρ) : σ :=
  match s.owner with
  | none => s.shared
  | some t =>
    match s.phase t with
    | .inside rest => (rest.exec s.shared).1
    | _ => s.shared

structure Simulates (o : Object σ κ ρ) (Rep : σ → α → Prop) (s : Tasks τ σ κ ρ)
    (a : AtOnce τ α κ ρ) : Prop where
  seen : s.seen = a.seen
  phase : ∀ t, PhaseAs o s.shared (s.phase t) (a.status t)
  exclusive : ∀ t, (∃ rest, s.phase t = .inside rest) ↔ s.owner = some t
  state : Rep (settled s) a.state

theorem phaseAs_idle {shared : σ} {q : Status κ ρ} (h : PhaseAs o shared .idle q) : q = .idle := by
  cases q with
  | idle => rfl
  | called c => exact h.elim
  | done ret => exact h.elim

theorem phaseAs_asking {shared : σ} {c : κ} {q : Status κ ρ} (h : PhaseAs o shared (.asking c) q) :
    q = .called c ∧ o.early c = none := by
  cases q with
  | idle => exact h.elim
  | called c' => exact ⟨congrArg Status.called h.1.symm, h.2⟩
  | done ret => exact h.elim

theorem phaseAs_inside {shared : σ} {rest : Body σ ρ} {q : Status κ ρ}
    (h : PhaseAs o shared (.inside rest) q) : q = .done (rest.exec shared).2 := by
  cases q with
  | idle => exact h.elim
  | called c => exact h.elim
  | done ret => exact congrArg Status.done h.symm

theorem phaseAs_leaving {shared : σ} {ret : ρ} {q : Status κ ρ}
    (h : PhaseAs o shared (.leaving ret) q) : q = .done ret := by
  cases q with
  | idle => exact h.elim
  | called c => exact h.elim
  | done ret' => exact congrArg Status.done h.symm

/-- Only for a task that is inside does it matter what the object holds. -/
theorem PhaseAs.congr {shared shared' : σ} {p : Phase σ κ ρ} {q : Status κ ρ}
    (hout : ¬ ∃ rest, p = .inside rest) (h : PhaseAs o shared p q) : PhaseAs o shared' p q := by
  cases p with
  | idle => cases q <;> exact h
  | asking c => cases q <;> exact h
  | inside rest => exact absurd ⟨rest, rfl⟩ hout
  | leaving ret => cases q <;> exact h

section Step

variable {s : Tasks τ σ κ ρ} {a : AtOnce τ α κ ρ} {b : α} {t : τ}

theorem settled_eq_of_free (h : s.owner = none) : settled s = s.shared := by
  rw [settled, h]

theorem settled_eq_of_inside {rest : Body σ ρ} (h : s.owner = some t)
    (hphase : s.phase t = .inside rest) : settled s = (rest.exec s.shared).1 := by
  rw [settled, h]
  simp only [hphase]

theorem Simulates.outside (h : Simulates o Rep s a) {p : Phase σ κ ρ} (hphase : s.phase t = p)
    (hp : ¬ ∃ rest, p = .inside rest) : s.owner ≠ some t := fun howner =>
  hp (hphase ▸ (h.exclusive t).mpr howner)

variable [DecidableEq τ]

/-- What a task does that is not inside does not bear on what becomes of the object. -/
theorem settled_update (h : s.owner ≠ some t) (p : Phase σ κ ρ) (seen : List (Seen τ κ ρ)) :
    settled { s with phase := Function.update s.phase t p, seen := seen } = settled s := by
  cases howner : s.owner with
  | none => simp only [settled, howner]
  | some t' =>
    have hne : t' ≠ t := fun heq => h (heq ▸ howner)
    simp only [settled, howner, Function.update_of_ne hne]

theorem Simulates.phase_update (h : Simulates o Rep s a) {shared : σ} {p : Phase σ κ ρ}
    {q : Status κ ρ} (hkept : shared = s.shared ∨ s.owner = some t)
    (hp : PhaseAs o shared p q) (t' : τ) :
    PhaseAs o shared (Function.update s.phase t p t') (Function.update a.status t q t') := by
  by_cases ht : t' = t
  · subst ht
    rw [Function.update_self, Function.update_self]
    exact hp
  · rw [Function.update_of_ne ht, Function.update_of_ne ht]
    rcases hkept with rfl | howner
    · exact h.phase t'
    · refine (h.phase t').congr fun hin => ht ?_
      have hother := (h.exclusive t').mp hin
      rw [howner] at hother
      exact (Option.some.inj hother).symm

/-- A task that is not inside before and not inside behind. -/
theorem Simulates.exclusive_outside (h : Simulates o Rep s a) {p : Phase σ κ ρ}
    (hbefore : s.owner ≠ some t) (hp : ¬ ∃ rest, p = .inside rest) (t' : τ) :
    (∃ rest, Function.update s.phase t p t' = .inside rest) ↔ s.owner = some t' := by
  by_cases ht : t' = t
  · subst ht
    rw [Function.update_self]
    exact ⟨fun hin => absurd hin hp, fun howner => absurd howner hbefore⟩
  · rw [Function.update_of_ne ht]
    exact h.exclusive t'

theorem not_inside {p : Phase σ κ ρ} (h : ∀ rest, p ≠ .inside rest) :
    ¬ ∃ rest, p = .inside rest := fun ⟨rest, hrest⟩ => h rest hrest

/-- A task that the mutex was free for, or that had it: no other is inside. -/
theorem Simulates.exclusive_only (h : Simulates o Rep s a) {p : Phase σ κ ρ} {owner : Option τ}
    (hbefore : s.owner = none ∨ s.owner = some t) (hp : (∃ rest, p = .inside rest) ↔ owner = some t)
    (hafter : owner = none ∨ owner = some t) (t' : τ) :
    (∃ rest, Function.update s.phase t p t' = .inside rest) ↔ owner = some t' := by
  by_cases ht : t' = t
  · subst ht
    rw [Function.update_self]
    exact hp
  · have hnot {owner : Option τ} (hcases : owner = none ∨ owner = some t) : owner ≠ some t' := by
      rintro rfl
      obtain heq | heq := hcases
      · cases heq
      · exact ht (Option.some.inj heq)
    rw [Function.update_of_ne ht, h.exclusive t']
    exact ⟨fun heq => absurd heq (hnot hbefore), fun heq => absurd heq (hnot hafter)⟩

theorem Simulates.call (h : Simulates o Rep s a) (hspec : Implements o spec Rep) (t : τ) (c : κ) :
    ∃ ps, Simulates o Rep (o.step s (.call t c)) ((atOnce spec b).runFrom a ps) := by
  cases hphase : s.phase t with
  | idle =>
    have hstatus := phaseAs_idle (hphase ▸ h.phase t)
    have hout := h.outside hphase (not_inside nofun)
    cases hearly : o.early c with
    | none =>
      refine ⟨[.call t c], ?_⟩
      simp only [Object.step, hphase, Object.enter, hearly, Machine.runFrom_cons,
        Machine.runFrom_nil, atOnce, atOnceStep, hstatus]
      exact
        { seen := congrArg (· ++ _) h.seen
          phase := h.phase_update (.inl rfl) ⟨rfl, hearly⟩
          exclusive := h.exclusive_outside hout (not_inside nofun)
          state := settled_update hout _ _ ▸ h.state }
    | some ret =>
      refine ⟨[.call t c, .effect t false], ?_⟩
      simp only [Object.step, hphase, Object.enter, hearly, Machine.runFrom_cons,
        Machine.runFrom_nil, atOnce, atOnceStep, hstatus, Function.update_self,
        Function.update_idem, hspec.without, Option.getD_some]
      exact
        { seen := congrArg (· ++ _) h.seen
          phase := h.phase_update (.inl rfl) rfl
          exclusive := h.exclusive_outside hout (not_inside nofun)
          state := settled_update hout _ _ ▸ h.state }
  | asking c' =>
    simp only [Object.step, hphase]
    exact ⟨[], h⟩
  | inside rest =>
    simp only [Object.step, hphase]
    exact ⟨[], h⟩
  | leaving ret =>
    simp only [Object.step, hphase]
    exact ⟨[], h⟩

/-- The call takes effect as its task obtains the mutex. -/
theorem Simulates.take (h : Simulates o Rep s a) (hspec : Implements o spec Rep) (t : τ) :
    ∃ ps, Simulates o Rep (o.step s (.take t)) ((atOnce spec b).runFrom a ps) := by
  cases hphase : s.phase t with
  | asking c =>
    cases howner : s.owner with
    | none =>
      obtain ⟨hstatus, hearly⟩ := phaseAs_asking (hphase ▸ h.phase t)
      have hrep : Rep s.shared a.state := settled_eq_of_free howner ▸ h.state
      obtain ⟨hstate, hret⟩ := hspec.body s.shared a.state c hearly hrep
      refine ⟨[.effect t true], ?_⟩
      simp only [Object.step, hphase, howner, Machine.runFrom_cons, Machine.runFrom_nil, atOnce,
        atOnceStep, hstatus]
      refine
        { seen := h.seen
          phase := h.phase_update (.inl rfl) hret
          exclusive := h.exclusive_only (.inl howner) ⟨fun _ => rfl, fun _ => ⟨_, rfl⟩⟩ (.inr rfl)
          state := ?_ }
      rw [settled_eq_of_inside rfl (Function.update_self t _ _)]
      exact hstate
    | some t' =>
      simp only [Object.step, hphase, howner]
      exact ⟨[], h⟩
  | idle =>
    simp only [Object.step, hphase]
    exact ⟨[], h⟩
  | inside rest =>
    simp only [Object.step, hphase]
    exact ⟨[], h⟩
  | leaving ret =>
    simp only [Object.step, hphase]
    exact ⟨[], h⟩

theorem Simulates.timeout (h : Simulates o Rep s a) (hspec : Implements o spec Rep) (t : τ) :
    ∃ ps, Simulates o Rep (o.step s (.timeout t)) ((atOnce spec b).runFrom a ps) := by
  cases hphase : s.phase t with
  | asking c =>
    obtain ⟨hstatus, hearly⟩ := phaseAs_asking (hphase ▸ h.phase t)
    have hout := h.outside hphase (not_inside nofun)
    refine ⟨[.effect t false], ?_⟩
    simp only [Object.step, hphase, Machine.runFrom_cons, Machine.runFrom_nil, atOnce, atOnceStep,
      hstatus, hspec.without, hearly, Option.getD_none]
    exact
      { seen := h.seen
        phase := h.phase_update (.inl rfl) rfl
        exclusive := h.exclusive_outside hout (not_inside nofun)
        state := settled_update hout _ _ ▸ h.state }
  | idle =>
    simp only [Object.step, hphase]
    exact ⟨[], h⟩
  | inside rest =>
    simp only [Object.step, hphase]
    exact ⟨[], h⟩
  | leaving ret =>
    simp only [Object.step, hphase]
    exact ⟨[], h⟩

/-- An access of the task that is inside is none of the coarse system's. -/
theorem Simulates.access (h : Simulates o Rep s a) {rest rest' : Body σ ρ} {shared : σ}
    (hphase : s.phase t = .inside rest) (hexec : rest'.exec shared = rest.exec s.shared) :
    Simulates o Rep
      { s with shared := shared, phase := Function.update s.phase t (.inside rest') } a := by
  have howner := (h.exclusive t).mp ⟨rest, hphase⟩
  have hstatus := phaseAs_inside (hphase ▸ h.phase t)
  refine
    { seen := h.seen
      phase := fun t' => ?_
      exclusive := h.exclusive_only (.inr howner) ⟨fun _ => howner, fun _ => ⟨_, rfl⟩⟩ (.inr howner)
      state := ?_ }
  · have hupdate := h.phase_update (q := .done (rest'.exec shared).2) (.inr howner)
      (show PhaseAs o shared (.inside rest') (.done _) from rfl) t'
    rwa [hexec, ← hstatus, Function.update_eq_self] at hupdate
  · have hsettled := settled_eq_of_inside howner hphase ▸ h.state
    rw [settled, howner]
    simp only [Function.update_self, hexec]
    exact hsettled

theorem Simulates.give (h : Simulates o Rep s a) {ret : ρ}
    (hphase : s.phase t = .inside (.give ret)) :
    Simulates o Rep
      { s with owner := none, phase := Function.update s.phase t (.leaving ret) } a := by
  have howner := (h.exclusive t).mp ⟨_, hphase⟩
  have hstatus := phaseAs_inside (hphase ▸ h.phase t)
  refine
    { seen := h.seen
      phase := fun t' => ?_
      exclusive := h.exclusive_only (.inr howner)
        ⟨fun hin => absurd hin (not_inside nofun), nofun⟩ (.inl rfl)
      state := ?_ }
  · have hupdate := h.phase_update (t := t) (q := .done ret) (.inl rfl)
      (show PhaseAs o s.shared (.leaving ret) (.done ret) from rfl) t'
    rwa [show Status.done ret = a.status t from hstatus.symm, Function.update_eq_self] at hupdate
  · have hsettled := settled_eq_of_inside howner hphase ▸ h.state
    exact hsettled

theorem Simulates.proceed (h : Simulates o Rep s a) (t : τ) :
    ∃ ps, Simulates o Rep (o.step s (.step t)) ((atOnce spec b).runFrom a ps) := by
  cases hphase : s.phase t with
  | inside rest =>
    cases rest with
    | give ret =>
      simp only [Object.step, hphase]
      exact ⟨[], h.give hphase⟩
    | load next =>
      simp only [Object.step, hphase]
      exact ⟨[], show Simulates o Rep { s with shared := s.shared, phase := _ } a from
        h.access hphase rfl⟩
    | store f next =>
      simp only [Object.step, hphase]
      exact ⟨[], h.access hphase rfl⟩
  | leaving ret =>
    have hstatus := phaseAs_leaving (hphase ▸ h.phase t)
    have hout := h.outside hphase (not_inside nofun)
    refine ⟨[.ret t], ?_⟩
    simp only [Object.step, hphase, Machine.runFrom_cons, Machine.runFrom_nil, atOnce, atOnceStep,
      hstatus]
    exact
      { seen := congrArg (· ++ _) h.seen
        phase := h.phase_update (.inl rfl) trivial
        exclusive := h.exclusive_outside hout (not_inside nofun)
        state := settled_update hout _ _ ▸ h.state }
  | idle =>
    simp only [Object.step, hphase]
    exact ⟨[], h⟩
  | asking c =>
    simp only [Object.step, hphase]
    exact ⟨[], h⟩

/-- Each move of the tasks is at most two points of the coarse system. -/
theorem Simulates.step (h : Simulates o Rep s a) (hspec : Implements o spec Rep) (m : Move τ κ) :
    ∃ ps, Simulates o Rep (o.step s m) ((atOnce spec b).runFrom a ps) := by
  cases m with
  | call t c => exact h.call hspec t c
  | take t => exact h.take hspec t
  | timeout t => exact h.timeout hspec t
  | step t => exact h.proceed t

/-- What a task that is inside still does comes to an end, and the mutex is free then. -/
theorem exists_free (o : Object σ κ ρ) (shared : σ) {rest : Body σ ρ}
    (hphase : s.phase t = .inside rest) :
    ∃ n, ((o.tasks shared).runFrom s (List.replicate n (.step t))).owner = none := by
  induction rest generalizing s with
  | give ret =>
    refine ⟨1, ?_⟩
    simp only [List.replicate_one, Machine.runFrom_cons, Machine.runFrom_nil, Object.tasks,
      Object.step, hphase]
  | load next ih =>
    have hnext : (o.step s (.step t)).phase t = .inside (next s.shared) := by
      simp [Object.step, hphase]
    obtain ⟨n, hn⟩ := ih s.shared hnext
    exact ⟨n + 1, hn⟩
  | store f next ih =>
    have hnext : (o.step s (.step t)).phase t = .inside next := by simp [Object.step, hphase]
    obtain ⟨n, hn⟩ := ih hnext
    exact ⟨n + 1, hn⟩

end Step

variable [DecidableEq τ]

/-- The tasks see what those of the coarse system see, and the object is in its state whenever
the mutex is free. One task at a time has the mutex, and comes to give it back. -/
structure Linearized (o : Object σ κ ρ) (Rep : σ → α → Prop) (shared : σ) (s : Tasks τ σ κ ρ)
    (a : AtOnce τ α κ ρ) : Prop where
  seen : s.seen = a.seen
  free : s.owner = none → Rep s.shared a.state
  alone : ∀ t t' rest rest', s.phase t = .inside rest → s.phase t' = .inside rest' → t = t'
  released : ∀ t, s.owner = some t →
    ∃ n, ((o.tasks shared).runFrom s (List.replicate n (.step t))).owner = none

theorem Simulates.linearized {s : Tasks τ σ κ ρ} {a : AtOnce τ α κ ρ} (h : Simulates o Rep s a)
    (shared : σ) : Linearized o Rep shared s a where
  seen := h.seen
  free howner := settled_eq_of_free howner ▸ h.state
  alone t t' rest rest' ht ht' := by
    have howner := (h.exclusive t).mp ⟨rest, ht⟩
    have howner' := (h.exclusive t').mp ⟨rest', ht'⟩
    exact Option.some.inj (howner.symm.trans howner')
  released t howner := by
    obtain ⟨rest, hrest⟩ := (h.exclusive t).mpr howner
    exact exists_free o shared hrest

/-- In whatever order the tasks move, what they see is a run in which each call takes effect at
one point while it is made. -/
theorem Implements.simulates (h : Implements o spec Rep) {shared : σ} {state : α}
    (hstart : Rep shared state) (ms : List (Move τ κ)) :
    ∃ ps, Simulates o Rep ((o.tasks shared).run ms) ((atOnce spec state).run ps) := by
  induction ms using List.reverseRecOn with
  | nil =>
    refine ⟨[], rfl, fun _ => trivial, fun t => ?_, hstart⟩
    exact ⟨fun hin => absurd hin (not_inside nofun), nofun⟩
  | append_singleton ms m ih =>
    obtain ⟨ps, hps⟩ := ih
    obtain ⟨ps', hps'⟩ := hps.step h m (b := state)
    refine ⟨ps ++ ps', ?_⟩
    rw [Machine.run_concat, Machine.run_append]
    exact hps'

end Refines

end Sections
