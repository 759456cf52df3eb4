import Mathlib.Data.List.Induction
import Mathlib.Logic.Relation

/-! Deterministic machines driven by lists of events, and the one induction
every invariant of a run is an instance of. Scheduling is in the events, so a
statement about every event list is a statement about every interleaving. -/

structure Machine (State Event : Type*) where
  start : State
  step : State → Event → State

namespace Machine

variable {State Event : Type*}

def runFrom (m : Machine State Event) (s : State) (es : List Event) : State :=
  es.foldl m.step s

def run (m : Machine State Event) (es : List Event) : State :=
  m.runFrom m.start es

/-- Every step of the run from `s` is taken in a state that meets the guard. -/
def Guarded (m : Machine State Event) (guard : State → Event → Prop) : State → List Event → Prop
  | _, [] => True
  | s, e :: es => guard s e ∧ m.Guarded guard (m.step s e) es

instance decidableGuarded (m : Machine State Event) (guard : State → Event → Prop)
    [∀ s e, Decidable (guard s e)] (s : State) (es : List Event) :
    Decidable (m.Guarded guard s es) :=
  match es with
  | [] => isTrue trivial
  | e :: es =>
    have := m.decidableGuarded guard (m.step s e) es
    inferInstanceAs (Decidable (_ ∧ _))

variable (m : Machine State Event) {guard : State → Event → Prop} {inv : State → Prop}

@[simp] theorem runFrom_nil (s : State) : m.runFrom s [] = s := rfl

@[simp] theorem runFrom_cons (s : State) (e : Event) (es : List Event) :
    m.runFrom s (e :: es) = m.runFrom (m.step s e) es := rfl

@[simp] theorem runFrom_append (s : State) (es fs : List Event) :
    m.runFrom s (es ++ fs) = m.runFrom (m.runFrom s es) fs := by
  simp [runFrom]

theorem run_append (es fs : List Event) : m.run (es ++ fs) = m.runFrom (m.run es) fs :=
  m.runFrom_append m.start es fs

theorem run_concat (es : List Event) (e : Event) : m.run (es ++ [e]) = m.step (m.run es) e := by
  rw [run_append, runFrom_cons, runFrom_nil]

theorem guarded_append (s : State) (es fs : List Event) :
    m.Guarded guard s (es ++ fs) ↔
      m.Guarded guard s es ∧ m.Guarded guard (m.runFrom s es) fs := by
  induction es generalizing s with
  | nil => simp [Guarded]
  | cons e es ih => simp [Guarded, ih, and_assoc]

theorem guarded_of_forall {es : List Event} (h : ∀ s, ∀ e ∈ es, guard s e) (s : State) :
    m.Guarded guard s es := by
  induction es generalizing s with
  | nil => trivial
  | cons e es ih =>
    exact ⟨h s e List.mem_cons_self, ih (fun s e he => h s e (List.mem_cons_of_mem _ he)) _⟩

theorem guarded_and {guard' : State → Event → Prop} {s : State} {es : List Event}
    (h : m.Guarded guard s es) (h' : m.Guarded guard' s es) :
    m.Guarded (fun s e => guard s e ∧ guard' s e) s es := by
  induction es generalizing s with
  | nil => trivial
  | cons e es ih => exact ⟨⟨h.1, h'.1⟩, ih h.2 h'.2⟩

/-- An invariant of the guarded steps holds after every guarded run. -/
theorem invariant_runFrom (hstep : ∀ s e, inv s → guard s e → inv (m.step s e))
    {s : State} {es : List Event} (hs : inv s) (hes : m.Guarded guard s es) :
    inv (m.runFrom s es) := by
  induction es generalizing s with
  | nil => exact hs
  | cons e es ih => exact ih (hstep s e hs hes.1) hes.2

theorem invariant_run (hstart : inv m.start)
    (hstep : ∀ s e, inv s → guard s e → inv (m.step s e))
    {es : List Event} (hes : m.Guarded guard m.start es) : inv (m.run es) :=
  m.invariant_runFrom hstep hstart hes

/-- The unguarded case: what every step preserves, every run preserves. -/
theorem invariant_runFrom_of_step (hstep : ∀ s e, inv s → inv (m.step s e))
    {s : State} (es : List Event) (hs : inv s) : inv (m.runFrom s es) := by
  induction es generalizing s with
  | nil => exact hs
  | cons e es ih => exact ih (hstep s e hs)

/-- What does not hold at the start and holds in the end comes about in some step. -/
theorem exists_turn {p : State → Prop} (hstart : ¬ p m.start) {es : List Event}
    (hend : p (m.run es)) :
    ∃ before e, before ++ [e] <+: es ∧ ¬ p (m.run before) ∧ p (m.run (before ++ [e])) := by
  induction es using List.reverseRecOn with
  | nil => exact absurd hend hstart
  | append_singleton es e ih =>
    by_cases hlast : p (m.run es)
    · obtain ⟨before, e', hpre, hturn⟩ := ih hlast
      exact ⟨before, e', hpre.trans (List.prefix_append es [e]), hturn⟩
    · exact ⟨es, e, List.prefix_rfl, hlast, hend⟩

def Reaches (m : Machine State Event) (guard : State → Event → Prop) : State → State → Prop :=
  Relation.ReflTransGen fun s t => ∃ e, guard s e ∧ t = m.step s e

namespace Reaches

variable {m : Machine State Event} {s t u : State}

theorem refl (s : State) : m.Reaches guard s s := Relation.ReflTransGen.refl

theorem trans (h : m.Reaches guard s t) (h' : m.Reaches guard t u) : m.Reaches guard s u :=
  Relation.ReflTransGen.trans h h'

theorem step {e : Event} (he : guard s e) : m.Reaches guard s (m.step s e) :=
  Relation.ReflTransGen.single ⟨e, he, rfl⟩

theorem invariant (inv : State → Prop) (hstep : ∀ s e, inv s → guard s e → inv (m.step s e))
    (hs : inv s) (h : m.Reaches guard s t) : inv t := by
  induction h with
  | refl => exact hs
  | tail _ hlast ih =>
    obtain ⟨e, he, rfl⟩ := hlast
    exact hstep _ e ih he

theorem runFrom {es : List Event} (hes : m.Guarded guard s es) :
    m.Reaches guard s (m.runFrom s es) := by
  induction es generalizing s with
  | nil => exact refl s
  | cons e es ih => exact (step hes.1).trans (ih hes.2)

theorem weaken {guard' : State → Event → Prop} (hguard : ∀ s e, guard s e → guard' s e)
    (h : m.Reaches guard s t) : m.Reaches guard' s t := by
  induction h with
  | refl => exact refl s
  | tail _ hlast ih =>
    obtain ⟨e, he, rfl⟩ := hlast
    exact ih.trans (step (hguard _ e he))

end Reaches

end Machine
