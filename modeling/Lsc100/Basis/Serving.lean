import Lsc100.Basis.Polling

/-! Programs that send commands, against a device that answers from a state of its own, and rules
for what they achieve there. -/

namespace Polling

variable {C A W α β δ : Type}

section Serve

variable (ends : W → A → Bool) (respond : δ → C → A × δ)

/-- The answer that ends the waiting loop, and the state of the device then. -/
def await (w : W) (c : C) : Nat → δ → Option (A × δ)
  | 0, _ => none
  | fuel + 1, s =>
    if ends w (respond s c).1 then some (respond s c) else await w c fuel (respond s c).2

def serve (fuel : Nat) : Polling C A W α → δ → Option (α × δ)
  | done a, s => some (a, s)
  | send c k, s => serve fuel (k (respond s c).1) (respond s c).2
  | wait w c k, s => (await ends respond w c fuel s).bind fun r => serve fuel (k r.1) r.2

/-- The program returns, with a result and a state of the device as in `post`. -/
def Achieves (p : Polling C A W α) (s : δ) (post : α → δ → Prop) : Prop :=
  ∃ fuel a s', p.serve ends respond fuel s = some (a, s') ∧ post a s'

end Serve

variable {ends : W → A → Bool} {respond : δ → C → A × δ}

theorem await_mono {w : W} {c : C} {fuel fuel' : Nat} {s : δ} {r : A × δ} (hle : fuel ≤ fuel')
    (h : await ends respond w c fuel s = some r) : await ends respond w c fuel' s = some r := by
  induction fuel generalizing fuel' s with
  | zero => exact absurd h (by simp [await])
  | succ fuel ih =>
    cases fuel' with
    | zero => exact absurd hle (Nat.not_succ_le_zero _)
    | succ fuel' =>
      rw [await] at h ⊢
      split at h
      · rwa [if_pos ‹_›]
      · rw [if_neg ‹_›]
        exact ih (Nat.le_of_succ_le_succ hle) h

theorem serve_mono {p : Polling C A W α} {fuel fuel' : Nat} {s : δ} {r : α × δ}
    (hle : fuel ≤ fuel') (h : p.serve ends respond fuel s = some r) :
    p.serve ends respond fuel' s = some r := by
  induction p generalizing s with
  | done a => exact h
  | send c k ih => exact ih _ h
  | wait w c k ih =>
    obtain ⟨q, hq, hrest⟩ := Option.bind_eq_some_iff.mp h
    rw [serve, await_mono hle hq]
    exact ih _ hrest

theorem serve_bind (p : Polling C A W α) (f : α → Polling C A W β) (fuel : Nat) (s : δ) :
    (p >>= f).serve ends respond fuel s =
      (p.serve ends respond fuel s).bind fun r => (f r.1).serve ends respond fuel r.2 := by
  induction p generalizing s with
  | done a => rfl
  | send c k ih => exact ih _ _
  | wait w c k ih =>
    change (await ends respond w c fuel s).bind _ = ((await ends respond w c fuel s).bind _).bind _
    rw [Option.bind_assoc]
    exact congrArg _ (funext fun r => ih _ _)

namespace Achieves

variable {post post' : α → δ → Prop} {s : δ}

theorem done {a : α} (h : post a s) : Achieves ends respond (done a) s post :=
  ⟨0, a, s, rfl, h⟩

theorem send {c : C} {k : A → Polling C A W α}
    (h : Achieves ends respond (k (respond s c).1) (respond s c).2 post) :
    Achieves ends respond (send c k) s post := h

theorem mono {p : Polling C A W α} (h : Achieves ends respond p s post)
    (himp : ∀ a s', post a s' → post' a s') : Achieves ends respond p s post' := by
  obtain ⟨fuel, a, s', hserve, hpost⟩ := h
  exact ⟨fuel, a, s', hserve, himp a s' hpost⟩

theorem bind {p : Polling C A W α} {f : α → Polling C A W β} {post : β → δ → Prop}
    (h : Achieves ends respond p s fun a s' => Achieves ends respond (f a) s' post) :
    Achieves ends respond (p >>= f) s post := by
  obtain ⟨fuel, a, s', hserve, fuel', b, t, hserve', hpost⟩ := h
  refine ⟨max fuel fuel', b, t, ?_, hpost⟩
  rw [serve_bind, serve_mono (Nat.le_max_left _ _) hserve]
  exact serve_mono (Nat.le_max_right _ _) hserve'

/-- A waiting loop ends when each answer brings the device closer to the one that ends it. -/
theorem wait {w : W} {c : C} {k : A → Polling C A W α} (inv : δ → Prop) (rank : δ → Nat)
    (hstep : ∀ s, inv s →
      (ends w (respond s c).1 = true ∧
        Achieves ends respond (k (respond s c).1) (respond s c).2 post) ∨
      (ends w (respond s c).1 = false ∧ inv (respond s c).2 ∧ rank (respond s c).2 < rank s))
    (hs : inv s) : Achieves ends respond (wait w c k) s post := by
  induction hn : rank s using Nat.strongRecOn generalizing s with
  | _ n ih =>
    obtain ⟨hend, fuel, a, s', hserve, hpost⟩ | ⟨hgo, hinv, hlt⟩ := hstep s hs
    · refine ⟨fuel + 1, a, s', ?_, hpost⟩
      rw [serve, await, if_pos hend]
      exact serve_mono (Nat.le_succ fuel) hserve
    · obtain ⟨fuel, a, s', hserve, hpost⟩ := ih _ (hn ▸ hlt) hinv rfl
      obtain ⟨r, hr, hrest⟩ := Option.bind_eq_some_iff.mp hserve
      refine ⟨fuel + 1, a, s', ?_, hpost⟩
      rw [serve, await, if_neg (by rw [hgo]; exact Bool.false_ne_true), hr]
      exact serve_mono (Nat.le_succ fuel) hrest

/-- The result does not depend on the fuel. -/
theorem unique {p : Polling C A W α} (h : Achieves ends respond p s post) {fuel : Nat} {a : α}
    {s' : δ} (hserve : p.serve ends respond fuel s = some (a, s')) : post a s' := by
  obtain ⟨fuel', b, t, hserve', hpost⟩ := h
  have hl := serve_mono (Nat.le_max_left fuel fuel') hserve
  rw [serve_mono (Nat.le_max_right fuel fuel') hserve', Option.some.injEq, Prod.mk.injEq] at hl
  obtain ⟨rfl, rfl⟩ := hl
  exact hpost

theorem and {p : Polling C A W α} (h : Achieves ends respond p s post)
    (h' : Achieves ends respond p s post') :
    Achieves ends respond p s fun a s' => post a s' ∧ post' a s' := by
  obtain ⟨fuel, a, s', hserve, hpost⟩ := h
  exact ⟨fuel, a, s', hserve, hpost, h'.unique hserve⟩

end Achieves

end Polling
