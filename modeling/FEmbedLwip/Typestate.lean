/-
Typestates: objects that are initialised and freed, known by keys, and the
order in which that may be done.

`Sound` says it of a whole life: nothing is freed that was never initialised,
and what is initialised of an owned key is freed before the key is initialised
again, and before the life is over. Freeing what is free is allowed. `Lawful`
is the monitor that judges one event after the other.
-/
import Mathlib.Logic.Function.Basic

namespace Typestate

inductive Phase where
  | never
  | initialised
  | freed
  deriving DecidableEq, Repr

inductive Event (K : Type) where
  | init (k : K)
  | free (k : K)
  deriving DecidableEq, Repr

variable {K : Type} {owned : K → Prop} {phase : K → Phase} {e : Event K} {es es' : List (Event K)} {k : K}

def Permits (owned : K → Prop) (phase : K → Phase) : Event K → Prop
  | .init k => owned k → phase k ≠ .initialised
  | .free k => phase k ≠ .never

@[simp] theorem permits_init : Permits owned phase (.init k) ↔ (owned k → phase k ≠ .initialised) := Iff.rfl

@[simp] theorem permits_free : Permits owned phase (.free k) ↔ phase k ≠ .never := Iff.rfl

/-- The phases before a life. -/
def fresh : K → Phase := fun _ => .never

variable [DecidableEq K]

/-- The phases after an event. -/
def next (phase : K → Phase) : Event K → K → Phase
  | .init k => Function.update phase k .initialised
  | .free k => Function.update phase k .freed

/-- The phases after all events, in their order. -/
def after (phase : K → Phase) (es : List (Event K)) : K → Phase := es.foldl next phase

structure Sound (owned : K → Prop) (es : List (Event K)) : Prop where
  initialised : ∀ before k rest, es = before ++ .free k :: rest → after fresh before k ≠ .never
  released : ∀ before k rest, owned k → es = before ++ .init k :: rest →
    ∃ mid rest', rest = mid ++ .free k :: rest' ∧ .init k ∉ mid

def Lawful (owned : K → Prop) (phase : K → Phase) : List (Event K) → Prop
  | [] => True
  | e :: es => Permits owned phase e ∧ Lawful owned (next phase e) es

@[simp] theorem after_nil : after phase [] = phase := rfl

@[simp] theorem after_cons : after phase (e :: es) = after (next phase e) es := rfl

@[simp] theorem after_append : after phase (es ++ es') = after (after phase es) es' := List.foldl_append

@[simp] theorem lawful_nil : Lawful owned phase [] := trivial

@[simp] theorem lawful_cons : Lawful owned phase (e :: es) ↔ Permits owned phase e ∧ Lawful owned (next phase e) es := Iff.rfl

theorem lawful_append : Lawful owned phase (es ++ es') ↔ Lawful owned phase es ∧ Lawful owned (after phase es) es' := by
  induction es generalizing phase with
  | nil => simp
  | cons e es ih => simp [ih, and_assoc]

/-- What is initialised and does not stay so is freed before it is initialised again. -/
theorem Lawful.released (hk : owned k) (h : Lawful owned phase es) (hphase : phase k = .initialised)
    (hend : after phase es k ≠ .initialised) : ∃ mid rest, es = mid ++ .free k :: rest ∧ .init k ∉ mid := by
  induction es generalizing phase with
  | nil => exact absurd hphase hend
  | cons e es ih =>
    have later (hsame : next phase e k = .initialised) (he : e ≠ .init k) :
        ∃ mid rest, e :: es = mid ++ .free k :: rest ∧ .init k ∉ mid := by
      obtain ⟨mid, rest, rfl, hmid⟩ := ih h.2 hsame hend
      exact ⟨e :: mid, rest, rfl, by simp [hmid, he.symm]⟩
    cases e with
    | init j =>
      by_cases hj : j = k
      · subst hj
        exact absurd hphase (h.1 hk)
      · exact later (by rw [next, Function.update_of_ne (Ne.symm hj), hphase]) (by simp [hj])
    | free j =>
      by_cases hj : j = k
      · subst hj
        exact ⟨[], es, rfl, by simp⟩
      · exact later (by rw [next, Function.update_of_ne (Ne.symm hj), hphase]) (by simp)

/-- A life that the monitor lets pass and that ends with no owned key initialised is sound. -/
theorem Lawful.sound (h : Lawful owned fresh es) (hend : ∀ k, owned k → after fresh es k ≠ .initialised) :
    Sound owned es where
  initialised := by
    rintro before k rest rfl
    exact (lawful_append.mp h).2.1
  released := by
    rintro before k rest hk rfl
    rw [after_append, after_cons] at hend
    exact (lawful_append.mp h).2.2.released hk (by simp [next]) (hend k hk)

end Typestate
