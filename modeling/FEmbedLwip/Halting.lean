/-
Programs that come to an end, and what a run never comes to.

`Halts` is what total correctness adds to `Returns`: with enough fuel a run is
over, for it has returned, or it is undefined where `E` holds. Each rule asks
for the parts of a program only from the states they can be run in.

`Avoids` is about runs of which it is not known whether they end: something that
would stay, if it happened, has not happened. It is inherited by the parts of a
program.
-/
import FEmbedLwip.Prog

namespace Prog

variable {S T α β γ : Type}

/-- From `s`, `x` returns, or it is undefined in a state of `E`. -/
def Halts (x : Prog S α) (s : S) (E : S → Prop) : Prop :=
  ∃ n, match x.run n s with
    | (.done _, _) => True
    | (.undefined, s') => E s'
    | (.running, _) => False

namespace Halts

variable {x : Prog S α} {s : S} {E : S → Prop}

theorem of_returns {a : α} {s' : S} (h : x.Returns s a s') : Halts x s E := by
  obtain ⟨n, hn⟩ := h
  exact ⟨n, by rw [hn]; trivial⟩

theorem step {f : S → α × S} : Halts (step f) s E := ⟨0, trivial⟩

theorem pure {a : α} : Halts (pure a) s E := step

theorem gets {f : S → α} : Halts (gets f) s E := step

theorem modify {f : S → S} : Halts (modify f) s E := step

theorem undefined (h : E s) : Halts (undefined : Prog S α) s E := ⟨0, h⟩

/-- What halts returns, or it is undefined. -/
theorem cases (h : Halts x s E) : (∃ a s', x.Returns s a s') ∨ ∃ n s', x.run n s = (.undefined, s') ∧ E s' := by
  obtain ⟨n, h⟩ := h
  split at h
  · rename_i a s' hrun
    exact .inl ⟨a, s', n, hrun⟩
  · rename_i s' hrun
    exact .inr ⟨n, s', hrun, h⟩
  · exact h.elim

theorem of_undefined (n : Nat) (s' : S) (h : x.run n s = (.undefined, s')) (hE : E s') : Halts x s E := ⟨n, by rw [h]; exact hE⟩

theorem bind {y : Prog S β} {f : β → Prog S α} (hy : Halts y s E) (hf : ∀ b t, y.Returns s b t → Halts (f b) t E) :
    Halts (y >>= f) s E := by
  rcases hy.cases with ⟨b, t, hret⟩ | ⟨n, t, hrun, hE⟩
  · rcases (hf b t hret).cases with ⟨a, s', hret'⟩ | ⟨m, s', hrun, hE⟩
    · exact of_returns (returns_bind.mpr ⟨b, t, hret, hret'⟩)
    · obtain ⟨n, hn⟩ := hret
      refine of_undefined (max n m) s' ?_ hE
      show bindRun (y.run (max n m) s) (fun b s' => (f b).run (max n m) s') = _
      rw [Returns.mono (Nat.le_max_left n m) hn]
      exact ((f b).settled t (Nat.le_max_right n m) (by simp [hrun])).trans hrun
  · refine of_undefined n t ?_ hE
    show bindRun (y.run n s) (fun b s' => (f b).run n s') = _
    rw [hrun]
    rfl

/-- Where undefined behaviour may come already, it may come later. -/
theorem bind_keeps {G : Guarantee S} (hE : ∀ {s t}, G.rel s t → E s → E t) {y : Prog S β} {f : β → Prog S α}
    (hy : Halts y s E) (hG : y.Guarantees G) (hf : ∀ b t, E t → Halts (f b) t E) (hs : E s) : Halts (y >>= f) s E :=
  bind hy fun b t hret => hf b t (hE (hG s b t hret) hs)

/-- A first step that is known to return can be run. -/
theorem bind_of {y : Prog S β} {f : β → Prog S α} {b : β} {t : S} (hy : y.Returns s b t) (hf : Halts (f b) t E) :
    Halts (y >>= f) s E := by
  refine bind (of_returns hy) fun b' t' hy' => ?_
  obtain ⟨rfl, rfl⟩ := hy.det hy'
  exact hf

theorem ite {c : Prop} [Decidable c] {y : Prog S α} (hx : c → Halts x s E) (hy : ¬ c → Halts y s E) :
    Halts (if c then x else y) s E := by
  split
  · exact hx ‹_›
  · exact hy ‹_›

/-- A loop whose turns halt, and go down in `R` when they go on. -/
theorem loop {body : β → Prog S (Turn β γ)} (I : β → S → Prop) {R : S → S → Prop} (hR : WellFounded R)
    (turn : ∀ b s, I b s → Halts (body b) s E ∧ ∀ b' t, (body b).Returns s (.next b') t → I b' t ∧ R t s)
    {b : β} (hI : I b s) : Halts (loop body b) s E := by
  induction s using hR.induction generalizing b with
  | _ s ih =>
    obtain ⟨hbody, hnext⟩ := turn b s hI
    rcases hbody.cases with ⟨r, t, hret⟩ | ⟨n, t, hrun, hE⟩
    · cases r with
      | exit c => exact of_returns (returns_loop.mpr (.inl hret))
      | next b' =>
        obtain ⟨hI', hlt⟩ := hnext b' t hret
        rcases (ih t hlt hI').cases with ⟨c, s', hret'⟩ | ⟨n, s', hrun, hE⟩
        · exact of_returns (returns_loop.mpr (.inr ⟨b', t, hret, hret'⟩))
        · obtain ⟨k, hk⟩ := hret
          have hrun : loopRun body n n b' t = (.undefined, s') := hrun
          refine of_undefined (max k n + 1) s' ?_ hE
          show bindRun ((body b).run (max k n + 1) s) _ = _
          rw [Returns.mono (by omega) hk]
          exact (loopRun_settled body (by omega) b' t (by omega) (by simp [hrun])).trans hrun
    · refine of_undefined (n + 1) t ?_ hE
      show bindRun ((body b).run (n + 1) s) _ = _
      rw [(body b).settled s (Nat.le_succ n) (by simp [hrun]), hrun]
      rfl

end Halts

theorem Keeps.run {I : S → Prop} {x : Prog S α} (hx : Keeps I x) (n : Nat) {s : S} (h : I s) : I (x.run n s).2 := by
  have hrun := hx n s h
  revert hrun
  rcases x.run n s with ⟨_ | _ | _, t⟩
  · exact id
  · exact id
  · exact id

/-- However long `x` runs from `s`, `I` does not hold. -/
def Avoids (x : Prog S α) (s : S) (I : S → Prop) : Prop := ∀ n, ∃ m, n ≤ m ∧ ¬ I (x.run m s).2

namespace Avoids

variable {x : Prog S α} {s : S} {I : S → Prop}

theorem of_runs (h : ∀ n, ¬ I (x.run n s).2) : Avoids x s I := fun n => ⟨n, Nat.le_refl n, h n⟩

theorem start (h : Avoids x s I) (hx : Keeps I x) : ¬ I s := by
  obtain ⟨m, _, hm⟩ := h 0
  exact fun hI => hm (hx.run m hI)

/-- What follows does not undo it. -/
theorem left {y : Prog S β} {f : β → Prog S α} (h : Avoids (y >>= f) s I) (hf : ∀ b, Keeps I (f b)) : Avoids y s I := by
  intro n
  obtain ⟨m, hle, hm⟩ := h n
  refine ⟨m, hle, fun hI => hm ?_⟩
  show I (bindRun (y.run m s) fun b t => (f b).run m t).2
  revert hI
  rcases y.run m s with ⟨b | _ | _, t⟩
  · exact fun hI => (hf b).run m hI
  · exact id
  · exact id

theorem right {y : Prog S β} {f : β → Prog S α} {b : β} {t : S} (h : Avoids (y >>= f) s I) (hy : y.Returns s b t) :
    Avoids (f b) t I := by
  obtain ⟨k, hk⟩ := hy
  intro n
  obtain ⟨m, hle, hm⟩ := h (max n k)
  refine ⟨m, by omega, fun hI => hm ?_⟩
  show I (bindRun (y.run m s) fun b t => (f b).run m t).2
  rw [Returns.mono (by omega) hk]
  exact hI

/-- The first turn of a loop. -/
theorem turn {body : β → Prog S (Turn β γ)} {b : β} (h : Avoids (loop body b) s I) (hbody : ∀ b, Keeps I (body b)) :
    Avoids (body b) s I := by
  intro n
  obtain ⟨m, hle, hm⟩ := h (n + 1)
  obtain ⟨m, rfl⟩ : ∃ k, m = k + 1 := ⟨m - 1, by omega⟩
  refine ⟨m + 1, by omega, fun hI => hm ?_⟩
  have rest (k : Nat) (b : β) (t : S) (hI : I t) : I (loopRun body (m + 1) k b t).2 := by
    induction k generalizing b t with
    | zero => exact hI
    | succ k ih =>
      have hnext := (hbody b).run (m + 1) hI
      rw [loopRun]
      revert hnext
      rcases (body b).run (m + 1) t with ⟨r | _ | _, u⟩
      · cases r with
        | next b' => exact fun hI => ih b' u hI
        | exit c => exact id
      · exact id
      · exact id
  show I (bindRun ((body b).run (m + 1) s) _).2
  revert hI
  rcases (body b).run (m + 1) s with ⟨r | _ | _, t⟩
  · cases r with
    | next b' => exact fun hI => rest m b' t hI
    | exit c => exact id
  · exact id
  · exact id

end Avoids

end Prog
