/-
Imperative programs with loops, as total functions of a fuel.

A `Prog S α` runs from a state and ends with a value, with undefined
behaviour, or not within its fuel; the state it reached is kept in every
case, so that a property of the states a program goes through can be said of
a run that has not ended. More fuel never changes a run that has ended
(`settled`, a field: no program without it can be built), so a program
returns at most one value from a state (`Returns.det`).

Two ways to reason: `Returns` is the big-step relation (what a run that ends
returns, one rule per construct), `Hoare` a logic of assertions whose second
postcondition speaks of the states of runs that do not return.
-/
import Mathlib.Tactic.Common

/-- What a run ends with. -/
inductive Outcome (α : Type) where
  | done (a : α)
  | undefined
  | running
  deriving DecidableEq, Repr

/-- A program over the state `S`. -/
structure Prog (S α : Type) where
  run : Nat → S → Outcome α × S
  settled : ∀ {n m : Nat} (s : S), n ≤ m → (run n s).1 ≠ .running → run m s = run n s

/-- One turn of a loop: go on with new locals, or leave. -/
inductive Turn (β γ : Type) where
  | next (b : β)
  | exit (c : γ)
  deriving DecidableEq

namespace Prog

variable {S T α β γ : Type}

/-! ## Constructs -/

/-- A step that always ends: it reads the state and changes it. -/
def step (f : S → α × S) : Prog S α where
  run _ s := (.done (f s).1, (f s).2)
  settled _ _ _ := rfl

def get : Prog S S := step fun s => (s, s)

def gets (f : S → α) : Prog S α := step fun s => (f s, s)

def modify (f : S → S) : Prog S Unit := step fun s => ((), f s)

/-- Undefined behaviour: nothing is said of what follows. -/
def undefined : Prog S α where
  run _ s := (.undefined, s)
  settled _ _ _ := rfl

def bindRun (x : Outcome α × S) (f : α → S → Outcome β × S) : Outcome β × S :=
  match x with
  | (.done a, s) => f a s
  | (.undefined, s) => (.undefined, s)
  | (.running, s) => (.running, s)

theorem bindRun_settled {x x' : Outcome α × S} {f f' : α → S → Outcome β × S}
    (hx : x.1 ≠ .running → x' = x) (hf : ∀ a s, (f a s).1 ≠ .running → f' a s = f a s)
    (h : (bindRun x f).1 ≠ .running) : bindRun x' f' = bindRun x f := by
  obtain ⟨o, s⟩ := x
  cases o with
  | done a => rw [hx (by simp)]; exact hf a s h
  | undefined => rw [hx (by simp)]; rfl
  | running => exact absurd rfl h

instance : Monad (Prog S) where
  pure a := step fun s => (a, s)
  bind x f :=
    { run := fun n s => bindRun (x.run n s) fun a s' => (f a).run n s'
      settled := fun s hnm h =>
        bindRun_settled (fun hx => x.settled s hnm hx) (fun a s' hf => (f a).settled s' hnm hf) h }

/-- At most `k` turns of a loop, each with the fuel `n`. -/
def loopRun (body : β → Prog S (Turn β γ)) (n : Nat) : Nat → β → S → Outcome γ × S
  | 0, _, s => (.running, s)
  | k + 1, b, s => bindRun ((body b).run n s) fun
    | .next b', s' => loopRun body n k b' s'
    | .exit c, s' => (.done c, s')

theorem loopRun_settled (body : β → Prog S (Turn β γ)) {n m : Nat} (hnm : n ≤ m) :
    ∀ {k l : Nat} (b : β) (s : S), k ≤ l → (loopRun body n k b s).1 ≠ .running →
      loopRun body m l b s = loopRun body n k b s
  | 0, _, _, _, _, h => absurd rfl h
  | k + 1, l, b, s, hkl, h => by
    obtain ⟨l, rfl⟩ : ∃ l', l = l' + 1 := ⟨l - 1, by omega⟩
    refine bindRun_settled (fun hx => (body b).settled s hnm hx) (fun t s' ht => ?_) h
    cases t with
    | next b' => exact loopRun_settled body hnm b' s' (by omega) ht
    | exit c => rfl

/-- `body` again and again, from the locals `b`, until it exits. -/
def loop (body : β → Prog S (Turn β γ)) (b : β) : Prog S γ where
  run n s := loopRun body n n b s
  settled s hnm h := loopRun_settled body hnm b s hnm h

/-- A program over one part of the state, as one over the whole. -/
def zoom (view : S → T) (put : T → S → S) (x : Prog T α) : Prog S α where
  run n s := ((x.run n (view s)).1, put (x.run n (view s)).2 s)
  settled s hnm h := by simp only [x.settled (view s) hnm h]

/-! ## Big steps -/

/-- Run from `s`, `x` returns `a` and leaves `s'`. -/
def Returns (x : Prog S α) (s : S) (a : α) (s' : S) : Prop := ∃ n, x.run n s = (.done a, s')

/-- Run from `s`, `x` reaches undefined behaviour. -/
def Undef (x : Prog S α) (s : S) : Prop := ∃ n, (x.run n s).1 = .undefined

theorem Returns.mono {x : Prog S α} {s a s' n m} (hnm : n ≤ m) (h : x.run n s = (.done a, s')) :
    x.run m s = (.done a, s') := by
  rw [x.settled s hnm (by simp [h]), h]

/-- A program returns at most one value from a state, and leaves at most one. -/
theorem Returns.det {x : Prog S α} {s a b s' s''} (h : x.Returns s a s') (h' : x.Returns s b s'') :
    a = b ∧ s' = s'' := by
  obtain ⟨n, hn⟩ := h
  obtain ⟨m, hm⟩ := h'
  have := (Returns.mono (Nat.le_max_left n m) hn).symm.trans (Returns.mono (Nat.le_max_right n m) hm)
  simpa using this

/-- A program that reaches undefined behaviour returns nothing. -/
theorem Undef.not_returns {x : Prog S α} {s a s'} (h : x.Undef s) : ¬ x.Returns s a s' := by
  rintro ⟨m, hm⟩
  obtain ⟨n, hn⟩ := h
  have h₁ := x.settled s (Nat.le_max_left n m) (by simp [hn])
  have h₂ := x.settled s (Nat.le_max_right n m) (by simp [hm])
  rw [← h₁, h₂, hm] at hn
  exact nomatch hn

theorem Returns.of_run {x : Prog S α} {s a} (n : Nat) (h : (x.run n s).1 = .done a) :
    x.Returns s a (x.run n s).2 := ⟨n, Prod.ext h rfl⟩

theorem bindRun_done {x : Outcome α × S} {f : α → S → Outcome β × S} {b s''} :
    bindRun x f = (.done b, s'') ↔ ∃ a s', x = (.done a, s') ∧ f a s' = (.done b, s'') := by
  obtain ⟨o, s⟩ := x
  cases o <;> simp [bindRun]

@[simp] theorem returns_step {f : S → α × S} {s a s'} :
    (step f).Returns s a s' ↔ f s = (a, s') := by
  simp only [Returns, step, Outcome.done.injEq, exists_const, Prod.ext_iff]

@[simp] theorem returns_pure {a b : α} {s s' : S} :
    (pure a : Prog S α).Returns s b s' ↔ b = a ∧ s' = s := by
  show (step fun s => (a, s)).Returns s b s' ↔ _
  simp [eq_comm]

@[simp] theorem returns_bind {x : Prog S α} {f : α → Prog S β} {s b s''} :
    (x >>= f).Returns s b s'' ↔ ∃ a s', x.Returns s a s' ∧ (f a).Returns s' b s'' := by
  constructor
  · rintro ⟨n, h⟩
    obtain ⟨a, s', hx, hf⟩ := bindRun_done.mp h
    exact ⟨a, s', ⟨n, hx⟩, n, hf⟩
  · rintro ⟨a, s', ⟨n, hx⟩, m, hf⟩
    refine ⟨max n m, bindRun_done.mpr ⟨a, s', ?_, ?_⟩⟩
    · exact Returns.mono (Nat.le_max_left n m) hx
    · exact Returns.mono (Nat.le_max_right n m) hf

@[simp] theorem returns_map {x : Prog S α} {f : α → β} {s b s'} :
    (f <$> x).Returns s b s' ↔ ∃ a, x.Returns s a s' ∧ b = f a := by
  show (x >>= fun a => pure (f a)).Returns s b s' ↔ _
  simp only [returns_bind, returns_pure]
  constructor
  · rintro ⟨a, t, h, rfl, rfl⟩; exact ⟨a, h, rfl⟩
  · rintro ⟨a, h, rfl⟩; exact ⟨a, s', h, rfl, rfl⟩

@[simp] theorem returns_get {s a s' : S} : (get : Prog S S).Returns s a s' ↔ a = s ∧ s' = s := by
  simp [get, eq_comm]

@[simp] theorem returns_gets {f : S → α} {s a s'} : (gets f).Returns s a s' ↔ a = f s ∧ s' = s := by
  simp [gets, eq_comm]

@[simp] theorem returns_modify {f : S → S} {s u s'} : (modify f).Returns s u s' ↔ s' = f s := by
  simp [modify, eq_comm]

@[simp] theorem returns_undefined {s a s'} : ¬ (undefined : Prog S α).Returns s a s' := by
  simp [Returns, undefined]

/-- A first step that is known to return can be run. -/
theorem returns_bind_of {x : Prog S α} {f : α → Prog S β} {s a s' b s''} (h : x.Returns s a s') :
    (x >>= f).Returns s b s'' ↔ (f a).Returns s' b s'' := by
  rw [returns_bind]
  constructor
  · rintro ⟨a', t, hx, hf⟩
    obtain ⟨rfl, rfl⟩ := h.det hx
    exact hf
  · exact fun hf => ⟨a, s', h, hf⟩

theorem returns_pure_bind {a : α} {f : α → Prog S β} {s b s''} :
    (pure a >>= f).Returns s b s'' ↔ (f a).Returns s b s'' := returns_bind_of (by simp)

theorem returns_gets_bind {g : S → α} {f : α → Prog S β} {s b s''} :
    (gets g >>= f).Returns s b s'' ↔ (f (g s)).Returns s b s'' := returns_bind_of (by simp)

theorem returns_ite {c : Prop} [Decidable c] {x y : Prog S α} {s a s'} :
    (if c then x else y).Returns s a s' ↔ (c ∧ x.Returns s a s') ∨ (¬ c ∧ y.Returns s a s') := by
  by_cases hc : c <;> simp [hc]

@[simp] theorem returns_zoom {view : S → T} {put : T → S → S} {x : Prog T α} {s a s'} :
    (zoom view put x).Returns s a s' ↔ ∃ t, x.Returns (view s) a t ∧ s' = put t s := by
  simp only [Returns, zoom, Prod.ext_iff]
  constructor
  · rintro ⟨n, h, rfl⟩; exact ⟨_, ⟨n, h, rfl⟩, rfl⟩
  · rintro ⟨t, ⟨n, h, rfl⟩, rfl⟩; exact ⟨n, h, rfl⟩

theorem returns_loop {body : β → Prog S (Turn β γ)} {b s c s'} :
    (loop body b).Returns s c s' ↔
      (body b).Returns s (.exit c) s' ∨
        ∃ b' t, (body b).Returns s (.next b') t ∧ (loop body b').Returns t c s' := by
  constructor
  · rintro ⟨n, h⟩
    cases n with
    | zero => simp [loop, loopRun] at h
    | succ n =>
      obtain ⟨r, t, hb, hr⟩ := bindRun_done.mp h
      cases r with
      | exit c' =>
        simp only [Prod.mk.injEq, Outcome.done.injEq] at hr
        obtain ⟨rfl, rfl⟩ := hr
        exact .inl ⟨n + 1, hb⟩
      | next b' =>
        refine .inr ⟨b', t, ⟨n + 1, hb⟩, n + 1, ?_⟩
        have hr : loopRun body (n + 1) n b' t = (.done c, s') := hr
        exact (loopRun_settled body (Nat.le_refl _) b' t (Nat.le_succ n) (by simp [hr])).trans hr
  · rintro (⟨n, hb⟩ | ⟨b', t, ⟨n, hb⟩, m, hl⟩)
    · refine ⟨n + 1, bindRun_done.mpr ⟨.exit c, s', ?_, rfl⟩⟩
      exact Returns.mono (Nat.le_succ n) hb
    · refine ⟨max n m + 1, bindRun_done.mpr ⟨.next b', t, ?_, ?_⟩⟩
      · exact Returns.mono (by omega) hb
      · have hl : loopRun body m m b' t = (.done c, s') := hl
        exact (loopRun_settled body (by omega) b' t (by omega) (by simp [hl])).trans hl

theorem not_returns_loop {body : β → Prog S (Turn β γ)} {b : β} {s : S} (h : ∀ r t, ¬ (body b).Returns s r t) {c s'} :
    ¬ (loop body b).Returns s c s' := by
  rw [returns_loop]
  rintro (hexit | ⟨_, _, hnext, _⟩)
  · exact h _ _ hexit
  · exact h _ _ hnext

/-- Induction on the turns of a loop that returns. -/
theorem Returns.loop_induct {body : β → Prog S (Turn β γ)} {c s'} (I : β → S → Prop)
    (exit : ∀ b s, (body b).Returns s (.exit c) s' → I b s)
    (next : ∀ b s b' t, (body b).Returns s (.next b') t → (loop body b').Returns t c s' → I b' t → I b s)
    {b s} (h : (loop body b).Returns s c s') : I b s := by
  obtain ⟨n, h⟩ := h
  have key : ∀ k b s, loopRun body n k b s = (.done c, s') → I b s := by
    intro k
    induction k with
    | zero => intro b s h; simp [loopRun] at h
    | succ k ih =>
      intro b s h
      obtain ⟨r, t, hb, hr⟩ := bindRun_done.mp h
      cases r with
      | exit c' =>
        simp only [Prod.mk.injEq, Outcome.done.injEq] at hr
        obtain ⟨rfl, rfl⟩ := hr
        exact exit b s ⟨n, hb⟩
      | next b' =>
        have hr : loopRun body n k b' t = (.done c, s') := hr
        refine next b s b' t ⟨n, hb⟩ ⟨max n k, ?_⟩ (ih b' t hr)
        exact (loopRun_settled body (Nat.le_max_left n k) b' t (Nat.le_max_right n k)
          (by simp [hr])).trans hr
  exact key n b s h

/-- An invariant of a loop's turns holds when it exits. -/
theorem Returns.loop_inv {body : β → Prog S (Turn β γ)} (I : β → S → Prop) (Q : γ → S → Prop)
    (turn : ∀ b s r t, I b s → (body b).Returns s r t →
      match r with
      | .next b' => I b' t
      | .exit c => Q c t)
    {b s c s'} (h : (loop body b).Returns s c s') (hI : I b s) : Q c s' := by
  refine Returns.loop_induct (fun b s => I b s → Q c s') ?_ ?_ h hI
  · exact fun b s hb hI => turn b s _ _ hI hb
  · exact fun b s b' t hb _ ih hI => ih (turn b s _ _ hI hb)

/-- Turns of `body` that go on lead from `b` and `s` to `b'` and `s'`. -/
inductive Passes (body : β → Prog S (Turn β γ)) : β → S → β → S → Prop
  | refl (b : β) (s : S) : Passes body b s b s
  | next {b b₁ b' : β} {s s₁ s' : S} : (body b).Returns s (.next b₁) s₁ → Passes body b₁ s₁ b' s' → Passes body b s b' s'

/-- A loop whose turns keep an invariant and lower a well-founded measure ends. -/
theorem loop_returns {δ : Type} {r : δ → δ → Prop} (wf : WellFounded r) {body : β → Prog S (Turn β γ)}
    (I : β → S → Prop) (Q : γ → S → Prop) (μ : β → S → δ)
    (turn : ∀ b s, I b s → ∃ x t, (body b).Returns s x t ∧
      match x with
      | .next b' => I b' t ∧ r (μ b' t) (μ b s)
      | .exit c => Q c t) {b s} (hI : I b s) : ∃ c s', (loop body b).Returns s c s' ∧ Q c s' := by
  suffices key : ∀ m b s, μ b s = m → I b s → ∃ c s', (loop body b).Returns s c s' ∧ Q c s' from key _ b s rfl hI
  intro m
  induction m using wf.induction with
  | _ m ih =>
    rintro b s rfl hI
    obtain ⟨x, t, hb, hx⟩ := turn b s hI
    cases x with
    | next b' =>
      obtain ⟨c, s', hl, hq⟩ := ih _ hx.2 b' t rfl hx.1
      exact ⟨c, s', returns_loop.mpr (.inr ⟨b', t, hb, hl⟩), hq⟩
    | exit c => exact ⟨c, t, returns_loop.mpr (.inl hb), hx⟩

/-- The order of pairs of numbers in which the first counts most. -/
theorem lex_wf : WellFounded (Prod.Lex (· < · : Nat → Nat → Prop) (· < · : Nat → Nat → Prop)) :=
  (Prod.lex Nat.lt_wfRel Nat.lt_wfRel).wf

/-- `x` returns from every state. -/
def Ends (x : Prog S α) : Prop := ∀ s, ∃ a s', x.Returns s a s'

namespace Ends

variable {x : Prog S α}

theorem step {f : S → α × S} : Ends (step f) := fun _ => ⟨_, _, returns_step.mpr rfl⟩

theorem pure {a : α} : Ends (pure a : Prog S α) := step

theorem gets {f : S → α} : Ends (gets f) := step

theorem modify {f : S → S} : Ends (modify f) := step

theorem bind {y : Prog S β} {f : β → Prog S α} (hy : Ends y) (hf : ∀ b, Ends (f b)) : Ends (y >>= f) := by
  intro s
  obtain ⟨b, t, hb⟩ := hy s
  obtain ⟨a, s', ha⟩ := hf b t
  exact ⟨a, s', returns_bind.mpr ⟨b, t, hb, ha⟩⟩

theorem ite {c : Prop} [Decidable c] {y : Prog S α} (hx : Ends x) (hy : Ends y) : Ends (if c then x else y) := by
  split
  · exact hx
  · exact hy

end Ends

/-! ## Undefined behaviour -/

theorem Undef.mono {x : Prog S α} {s : S} {n m : Nat} (hnm : n ≤ m) (h : (x.run n s).1 = .undefined) :
    (x.run m s).1 = .undefined := by
  rw [x.settled s hnm (by simp [h]), h]

theorem bindRun_undefined {x : Outcome α × S} {f : α → S → Outcome β × S} :
    (bindRun x f).1 = .undefined ↔ x.1 = .undefined ∨ ∃ a s', x = (.done a, s') ∧ (f a s').1 = .undefined := by
  obtain ⟨o, s⟩ := x
  cases o <;> simp [bindRun]

@[simp] theorem undef_undefined {s : S} : (undefined : Prog S α).Undef s := ⟨0, rfl⟩

@[simp] theorem undef_step {f : S → α × S} {s : S} : ¬ (step f).Undef s := by
  simp [Undef, step]

@[simp] theorem undef_pure {a : α} {s : S} : ¬ (pure a : Prog S α).Undef s := undef_step

@[simp] theorem undef_bind {x : Prog S α} {f : α → Prog S β} {s : S} :
    (x >>= f).Undef s ↔ x.Undef s ∨ ∃ a s', x.Returns s a s' ∧ (f a).Undef s' := by
  constructor
  · rintro ⟨n, h⟩
    rcases bindRun_undefined.mp h with hx | ⟨a, s', hx, hf⟩
    · exact .inl ⟨n, hx⟩
    · exact .inr ⟨a, s', ⟨n, hx⟩, n, hf⟩
  · rintro (⟨n, hx⟩ | ⟨a, s', ⟨n, hx⟩, m, hf⟩)
    · exact ⟨n, bindRun_undefined.mpr (.inl hx)⟩
    · exact ⟨max n m, bindRun_undefined.mpr (.inr ⟨a, s', Returns.mono (Nat.le_max_left n m) hx,
        Undef.mono (Nat.le_max_right n m) hf⟩)⟩

/-- A first step that is known to return can be run. -/
theorem undef_bind_of {x : Prog S α} {f : α → Prog S β} {s a s'} (h : x.Returns s a s') :
    (x >>= f).Undef s ↔ (f a).Undef s' := by
  rw [undef_bind]
  constructor
  · rintro (hx | ⟨a', t, hx, hf⟩)
    · exact absurd h hx.not_returns
    · obtain ⟨rfl, rfl⟩ := h.det hx
      exact hf
  · exact fun hf => .inr ⟨a, s', h, hf⟩

@[simp] theorem undef_zoom {view : S → T} {put : T → S → S} {x : Prog T α} {s : S} :
    (zoom view put x).Undef s ↔ x.Undef (view s) := Iff.rfl

/-- A loop reaches undefined behaviour in one of its turns. -/
theorem undef_loop {body : β → Prog S (Turn β γ)} {b : β} {s : S} :
    (loop body b).Undef s ↔ ∃ b' s', Passes body b s b' s' ∧ (body b').Undef s' := by
  constructor
  · rintro ⟨n, h⟩
    suffices key : ∀ k b s, (loopRun body n k b s).1 = .undefined → ∃ b' s', Passes body b s b' s' ∧ (body b').Undef s' from
      key n b s h
    intro k
    induction k with
    | zero => exact fun b s h => nomatch h
    | succ k ih =>
      intro b s h
      rcases bindRun_undefined.mp h with hx | ⟨r, t, hb, hr⟩
      · exact ⟨b, s, .refl b s, n, hx⟩
      · cases r with
        | exit c => exact nomatch hr
        | next b₁ =>
          obtain ⟨b', s', hpasses, hu⟩ := ih b₁ t hr
          exact ⟨b', s', .next ⟨n, hb⟩ hpasses, hu⟩
  · rintro ⟨b', s', hpasses, hu⟩
    induction hpasses with
    | refl b s =>
      obtain ⟨n, hu⟩ := hu
      exact ⟨n + 1, bindRun_undefined.mpr (.inl (Undef.mono (Nat.le_succ n) hu))⟩
    | @next b b₁ b' s t s' hb _ ih =>
      obtain ⟨n, hb⟩ := hb
      obtain ⟨m, hm⟩ := ih hu
      have hm : (loopRun body m m b₁ t).1 = .undefined := hm
      refine ⟨max n m + 1, bindRun_undefined.mpr (.inr ⟨.next b₁, t, Returns.mono (by omega) hb, ?_⟩)⟩
      show (loopRun body (max n m + 1) (max n m) b₁ t).1 = .undefined
      rw [loopRun_settled body (show m ≤ max n m + 1 by omega) b₁ t (show m ≤ max n m by omega) (by simp [hm]), hm]

/-- An invariant of the turns that go on holds in every pass. -/
theorem Passes.inv {body : β → Prog S (Turn β γ)} (I : β → S → Prop)
    (turn : ∀ b s b' t, I b s → (body b).Returns s (.next b') t → I b' t) {b s b' s'} (h : Passes body b s b' s') (hI : I b s) :
    I b' s' := by
  induction h with
  | refl => exact hI
  | next hb _ ih => exact ih (turn _ _ _ _ hI hb)

/-! ## Assertions -/

/-- From a state where `P` holds, a run of `x` that returns ends where `Q`
holds of the value and the state; one that does not return is, at any fuel,
in a state where `E` holds. -/
def Hoare (P : S → Prop) (x : Prog S α) (Q : α → S → Prop) (E : S → Prop) : Prop :=
  ∀ n s, P s → match x.run n s with
    | (.done a, s') => Q a s'
    | (_, s') => E s'

/-- `x` keeps `I`, whether or not it returns. -/
abbrev Keeps (I : S → Prop) (x : Prog S α) : Prop := Hoare I x (fun _ => I) I

namespace Hoare

variable {P P' : S → Prop} {Q Q' : α → S → Prop} {E E' : S → Prop} {x : Prog S α}

theorem returns (h : Hoare P x Q E) {s a s'} (hp : P s) (hr : x.Returns s a s') : Q a s' := by
  obtain ⟨n, hn⟩ := hr
  have := h n s hp
  rw [hn] at this
  exact this

theorem conseq (h : Hoare P x Q E) (hp : ∀ s, P' s → P s) (hq : ∀ a s, Q a s → Q' a s)
    (he : ∀ s, E s → E' s) : Hoare P' x Q' E' := by
  intro n s hs
  have := h n s (hp s hs)
  revert this
  split
  · exact hq _ _
  · exact he _

theorem post (h : Hoare P x Q E) (hq : ∀ a s, Q a s → Q' a s) : Hoare P x Q' E :=
  h.conseq (fun _ => id) hq fun _ => id

theorem step {f : S → α × S} (h : ∀ s, P s → Q (f s).1 (f s).2) : Hoare P (step f) Q E :=
  fun _ s hs => h s hs

theorem pure {a : α} (h : ∀ s, P s → Q a s) : Hoare P (pure a) Q E := fun _ s hs => h s hs

theorem gets {f : S → α} (h : ∀ s, P s → Q (f s) s) : Hoare P (gets f) Q E := fun _ s hs => h s hs

theorem modify {f : S → S} {Q : Unit → S → Prop} (h : ∀ s, P s → Q () (f s)) :
    Hoare P (modify f) Q E := fun _ s hs => h s hs

theorem undefined (h : ∀ s, P s → E s) : Hoare P (undefined : Prog S α) Q E := fun _ s hs => h s hs

theorem bind {R : β → S → Prop} {y : Prog S β} {f : β → Prog S α} (hy : Hoare P y R E)
    (hf : ∀ b, Hoare (R b) (f b) Q E) : Hoare P (y >>= f) Q E := by
  intro n s hs
  have h := hy n s hs
  show match bindRun (y.run n s) fun b s' => (f b).run n s' with | (.done a, s') => Q a s' | (_, s') => E s'
  revert h
  rcases y.run n s with ⟨_ | _ | _, s'⟩
  · exact fun h => hf _ n s' h
  · exact id
  · exact id

theorem ite {c : Prop} [Decidable c] {y : Prog S α} (ht : c → Hoare P x Q E) (hf : ¬ c → Hoare P y Q E) :
    Hoare P (if c then x else y) Q E := by
  split
  · exact ht ‹_›
  · exact hf ‹_›

/-- The loop rule: an invariant of the turns, and what holds at the exit. -/
theorem loop {body : β → Prog S (Turn β α)} (I : β → S → Prop)
    (turn : ∀ b, Hoare (I b) (body b) (fun r s => match r with | .next b' => I b' s | .exit a => Q a s) E)
    (out : ∀ b s, I b s → E s) (b : β) : Hoare (I b) (loop body b) Q E := by
  intro n
  suffices key : ∀ k b s, I b s → match loopRun body n k b s with
      | (.done a, s') => Q a s'
      | (_, s') => E s' from key n b
  intro k
  induction k with
  | zero => exact fun b s hs => out b s hs
  | succ k ih =>
    intro b s hs
    have h := turn b n s hs
    revert h
    rw [loopRun]
    rcases (body b).run n s with ⟨r | _ | _, s'⟩
    · cases r with
      | next b' => exact fun h => ih b' s' h
      | exit a => exact id
    · exact id
    · exact id

end Hoare

/-! ## Guarantees -/

/-- What a run may change: a reflexive and transitive relation of the states
before and after. -/
structure Guarantee (S : Type) where
  rel : S → S → Prop
  refl : ∀ s, rel s s
  trans : ∀ {s t u}, rel s t → rel t u → rel s u

/-- `f` stays what it is. -/
def Guarantee.same (f : S → β) : Guarantee S where
  rel s s' := f s' = f s
  refl _ := rfl
  trans h h' := h'.trans h

/-- Every run of `x` that returns respects `G`. -/
def Guarantees (G : Guarantee S) (x : Prog S α) : Prop := ∀ s a s', x.Returns s a s' → G.rel s s'

namespace Guarantees

variable {G : Guarantee S} {x : Prog S α}

theorem step {f : S → α × S} (h : ∀ s, G.rel s (f s).2) : Guarantees G (step f) := by
  intro s a s' hs
  rw [returns_step] at hs
  have := h s
  rw [hs] at this
  exact this

theorem pure {a : α} : Guarantees G (pure a) := step fun s => G.refl s

theorem gets {f : S → α} : Guarantees G (gets f) := step fun s => G.refl s

theorem modify {f : S → S} (h : ∀ s, G.rel s (f s)) : Guarantees G (modify f) := step h

theorem undefined : Guarantees G (undefined : Prog S α) := fun _ _ _ h => absurd h returns_undefined

theorem bind {y : Prog S β} {f : β → Prog S α} (hy : Guarantees G y) (hf : ∀ b, Guarantees G (f b)) :
    Guarantees G (y >>= f) := by
  intro s a s' h
  obtain ⟨b, t, hb, ha⟩ := returns_bind.mp h
  exact G.trans (hy s b t hb) (hf b t a s' ha)

theorem ite {c : Prop} [Decidable c] {y : Prog S α} (hx : Guarantees G x) (hy : Guarantees G y) :
    Guarantees G (if c then x else y) := by
  split
  · exact hx
  · exact hy

theorem loop {body : β → Prog S (Turn β α)} (h : ∀ b, Guarantees G (body b)) (b : β) :
    Guarantees G (loop body b) := by
  intro s a s' hl
  refine Returns.loop_induct (fun _ t => G.rel t s') ?_ ?_ hl
  · exact fun b t ht => h b t _ s' ht
  · exact fun b t b' u ht _ ih => G.trans (h b t _ u ht) ih

theorem zoom {H : Guarantee T} {view : S → T} {put : T → S → S} {x : Prog T α} (hx : Guarantees H x)
    (hput : ∀ s t, H.rel (view s) t → G.rel s (put t s)) : Guarantees G (zoom view put x) := by
  intro s a s' h
  obtain ⟨t, ht, rfl⟩ := returns_zoom.mp h
  exact hput s t (hx _ a t ht)

end Guarantees

end Prog
