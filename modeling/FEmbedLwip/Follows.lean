/-
Two runs of programs, from states that are related.

`Follows` relates two programs, with what they return; a program that behaves
the same from all related states is `Blind` to what the relation leaves open.
-/
import FEmbedLwip.Prog

namespace Prog

variable {S T S' T' α β γ δ : Type}

/-- What `x` returns, `y` returns from a related state, up to `Q`. -/
def Follows (R : S → T → Prop) (x : Prog S α) (y : Prog T β) (Q : α → β → S → T → Prop) : Prop :=
  ∀ s t, R s t → ∀ a s', x.Returns s a s' → ∃ b t', y.Returns t b t' ∧ Q a b s' t'

namespace Follows

variable {R : S → T → Prop} {x : Prog S α} {y : Prog T β} {Q Q' : α → β → S → T → Prop}

theorem post (h : Follows R x y Q) (hq : ∀ a b s t, Q a b s t → Q' a b s t) : Follows R x y Q' := by
  intro s t hR a s' hx
  obtain ⟨b, t', hy, hQ⟩ := h s t hR a s' hx
  exact ⟨b, t', hy, hq a b s' t' hQ⟩

/-- What does not depend on the states may be assumed once. -/
theorem assume {p : Prop} (h : p → Follows R x y Q) : Follows (fun s t => p ∧ R s t) x y Q :=
  fun s t hR => h hR.1 s t hR.2

theorem pure {a : α} {b : β} (h : ∀ s t, R s t → Q a b s t) : Follows R (pure a) (pure b) Q := by
  intro s t hR a' s' hx
  obtain ⟨rfl, rfl⟩ := returns_pure.mp hx
  exact ⟨b, t, returns_pure.mpr ⟨rfl, rfl⟩, h _ t hR⟩

theorem undefined : Follows R (undefined : Prog S α) y Q := fun _ _ _ _ _ h => absurd h returns_undefined

theorem bind {P : γ → δ → S → T → Prop} {x : Prog S γ} {y : Prog T δ} {f : γ → Prog S α} {g : δ → Prog T β}
    (hx : Follows R x y P) (hf : ∀ c d, Follows (P c d) (f c) (g d) Q) : Follows R (x >>= f) (y >>= g) Q := by
  intro s t hR a s'' h
  obtain ⟨c, s', hc, ha⟩ := returns_bind.mp h
  obtain ⟨d, t', hd, hP⟩ := hx s t hR c s' hc
  obtain ⟨b, t'', hb, hQ⟩ := hf c d s' t' hP a s'' ha
  exact ⟨b, t'', returns_bind.mpr ⟨d, t', hd, hb⟩, hQ⟩

theorem ite {c d : Prop} [Decidable c] [Decidable d] {x' : Prog S α} {y' : Prog T β} (hcd : c ↔ d)
    (hx : c → Follows R x y Q) (hx' : ¬ c → Follows R x' y' Q) :
    Follows R (if c then x else x') (if d then y else y') Q := by
  by_cases h : c
  · rw [if_pos h, if_pos (hcd.mp h)]
    exact hx h
  · rw [if_neg h, if_neg (fun hd => h (hcd.mpr hd))]
    exact hx' h

/-- The turns of two loops, in step. -/
theorem loop {body : γ → Prog S (Turn γ α)} {body' : δ → Prog T (Turn δ β)} (I : γ → δ → S → T → Prop)
    (turn : ∀ c d, Follows (I c d) (body c) (body' d) fun r r' s t =>
      match r, r' with
      | .next c', .next d' => I c' d' s t
      | .exit a, .exit b => Q a b s t
      | _, _ => False) (c : γ) (d : δ) : Follows (I c d) (loop body c) (loop body' d) Q := by
  intro s t hI a s' h
  refine Returns.loop_induct (fun c s => ∀ d t, I c d s t → ∃ b t', (Prog.loop body' d).Returns t b t' ∧ Q a b s' t') ?_ ?_ h d t hI
  · intro c s hexit d t hI
    obtain ⟨r', t', hr', hQ⟩ := turn c d s t hI _ _ hexit
    cases r' with
    | next d' => exact hQ.elim
    | exit b => exact ⟨b, t', returns_loop.mpr (.inl hr'), hQ⟩
  · intro c s c' u hnext _ ih d t hI
    obtain ⟨r', t', hr', hQ⟩ := turn c d s t hI _ _ hnext
    cases r' with
    | exit b => exact hQ.elim
    | next d' =>
      obtain ⟨b, t'', hloop, hQ'⟩ := ih d' t' hQ
      exact ⟨b, t'', returns_loop.mpr (.inr ⟨d', t', hr', hloop⟩), hQ'⟩

/-- Programs over parts of the states. -/
theorem zoom {P : S' → T' → Prop} {x : Prog S' α} {y : Prog T' β} {Q' : α → β → S' → T' → Prop} {view : S → S'} {put : S' → S → S}
    {view' : T → T'} {put' : T' → T → T} (hx : Follows P x y Q') (hview : ∀ s t, R s t → P (view s) (view' t))
    (hput : ∀ s t a b u v, R s t → Q' a b u v → Q a b (put u s) (put' v t)) :
    Follows R (zoom view put x) (zoom view' put' y) Q := by
  intro s t hR a s' h
  obtain ⟨u, hu, rfl⟩ := returns_zoom.mp h
  obtain ⟨b, v, hv, hQ⟩ := hx _ _ (hview s t hR) a u hu
  exact ⟨b, put' v t, returns_zoom.mpr ⟨v, hv, rfl⟩, hput s t a b u v hR hQ⟩

end Follows

/-! ## One program -/

/-- From related states `x` returns the same, and leaves related states. -/
def Blind (R : S → S → Prop) (x : Prog S α) : Prop := Follows R x x fun a b s t => a = b ∧ R s t

namespace Blind

variable {R : S → S → Prop} {x : Prog S α}

theorem step {f : S → α × S} (h : ∀ s t, R s t → (f s).1 = (f t).1 ∧ R (f s).2 (f t).2) : Blind R (step f) := by
  intro s t hR a s' hx
  have heq := returns_step.mp hx
  obtain ⟨hval, hrel⟩ := h s t hR
  rw [heq] at hval hrel
  exact ⟨(f t).1, (f t).2, returns_step.mpr rfl, hval, hrel⟩

theorem pure {a : α} : Blind R (pure a) := Follows.pure fun _ _ hR => ⟨rfl, hR⟩

theorem gets {f : S → α} (h : ∀ s t, R s t → f s = f t) : Blind R (gets f) := step fun s t hR => ⟨h s t hR, hR⟩

theorem modify {f : S → S} (h : ∀ s t, R s t → R (f s) (f t)) : Blind R (modify f) := step fun s t hR => ⟨rfl, h s t hR⟩

theorem undefined : Blind R (undefined : Prog S α) := Follows.undefined

theorem bind {y : Prog S β} {f : β → Prog S α} (hy : Blind R y) (hf : ∀ b, Blind R (f b)) : Blind R (y >>= f) := by
  refine Follows.bind hy fun c d s t h a s' hx => ?_
  obtain ⟨rfl, hR⟩ := h
  exact hf c s t hR a s' hx

/-- What was read may differ, if what is done with it does not. -/
theorem gets_bind {g : S → β} {f : β → Prog S α} (h : ∀ s t, R s t → f (g s) = f (g t)) (hf : ∀ b, Blind R (f b)) :
    Blind R (Prog.gets g >>= f) := by
  intro s t hR a s' hx
  rw [returns_gets_bind, h s t hR] at hx
  obtain ⟨b, t', ht', hQ⟩ := hf (g t) s t hR a s' hx
  exact ⟨b, t', returns_gets_bind.mpr ht', hQ⟩

/-- What follows a program that behaves the same. -/
theorem follows {y : Prog S β} {f g : β → Prog S α} {Q : α → α → S → S → Prop} (hy : Blind R y)
    (hf : ∀ b, Follows R (f b) (g b) Q) : Follows R (y >>= f) (y >>= g) Q := by
  refine Follows.bind hy fun c d s t h a s' hx => ?_
  obtain ⟨rfl, hR⟩ := h
  exact hf c s t hR a s' hx

theorem ite {c : Prop} [Decidable c] {y : Prog S α} (hx : Blind R x) (hy : Blind R y) : Blind R (if c then x else y) := by
  split
  · exact hx
  · exact hy

theorem loop {body : β → Prog S (Turn β α)} (h : ∀ b, Blind R (body b)) (b : β) : Blind R (loop body b) := by
  have hloop : Follows (fun s t => b = b ∧ R s t) (Prog.loop body b) (Prog.loop body b) fun a a' s t => a = a' ∧ R s t := by
    refine Follows.loop (fun c d s t => c = d ∧ R s t) (fun c d s t hcd r s' hr => ?_) b b
    obtain ⟨rfl, hR⟩ := hcd
    obtain ⟨r', t', hr', rfl, hR'⟩ := h c s t hR r s' hr
    refine ⟨r, t', hr', ?_⟩
    cases r with
    | next c' => exact ⟨rfl, hR'⟩
    | exit a => exact ⟨rfl, hR'⟩
  exact fun s t hR => hloop s t ⟨rfl, hR⟩

/-- A program over a part of the state that related states share. -/
theorem zoom_same {view : S → T} {put : T → S → S} {x : Prog T α} (hview : ∀ s t, R s t → view s = view t)
    (hput : ∀ s t u, R s t → R (put u s) (put u t)) : Blind R (zoom view put x) := by
  intro s t hR a s' h
  obtain ⟨u, hu, rfl⟩ := returns_zoom.mp h
  exact ⟨a, put u t, returns_zoom.mpr ⟨u, hview s t hR ▸ hu, rfl⟩, rfl, hput s t u hR⟩

theorem zoom {P : T → T → Prop} {view : S → T} {put : T → S → S} {x : Prog T α} (hx : Blind P x)
    (hview : ∀ s t, R s t → P (view s) (view t)) (hput : ∀ s t u v, R s t → P u v → R (put u s) (put v t)) :
    Blind R (zoom view put x) :=
  Follows.zoom hx hview fun s t _ _ u v hR h => ⟨h.1, hput s t u v hR h.2⟩

/-- A program that only runs from states related to themselves leaves such a state. -/
theorem keeps (h : Blind R x) {s s' : S} {a : α} (hx : x.Returns s a s') (hs : R s s) : R s' s' := by
  obtain ⟨b, t', ht', _, hR⟩ := h s s hs a s' hx
  rwa [(hx.det ht').2] at hR ⊢

end Blind

end Prog
