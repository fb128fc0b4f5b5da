/-
Association lists as maps: `Represents m r` says that `m` has the entries of `r`,
each once. Entries stay where they are when one is put in between, taken away,
or given another value.
-/
import Mathlib.Data.List.Nodup
import Mathlib.Logic.Function.Basic

open Function (update)

variable {κ ν : Type}

/-- The entries of a map, each once. -/
structure Represents (m : List (κ × ν)) (r : κ → Option ν) : Prop where
  nodup : (m.map Prod.fst).Nodup
  mem : ∀ k v, (k, v) ∈ m ↔ r k = some v

namespace Represents

variable {m m' : List (κ × ν)} {r : κ → Option ν} {k : κ} {v : ν}

theorem empty : Represents ([] : List (κ × ν)) fun _ => none := ⟨List.nodup_nil, by simp⟩

theorem not_mem (h : Represents m r) (hk : r k = none) : k ∉ m.map Prod.fst := by
  intro hmem
  obtain ⟨⟨k', v⟩, hx, rfl⟩ := List.mem_map.mp hmem
  exact absurd (hk.symm.trans ((h.mem k' v).mp hx)) (by simp)

variable [DecidableEq κ]

theorem insert (h : Represents (m ++ m') r) (hk : r k = none) : Represents (m ++ (k, v) :: m') (update r k (some v)) := by
  have hnot := h.not_mem hk
  refine ⟨?_, fun k' v' => ?_⟩
  · have hnodup := h.nodup
    rw [List.map_append] at hnodup hnot ⊢
    rw [List.map_cons, List.nodup_middle]
    exact List.nodup_cons.mpr ⟨hnot, hnodup⟩
  · have hmem := h.mem k' v'
    rw [List.mem_append] at hmem ⊢
    by_cases hk' : k' = k
    · subst hk'
      rw [Function.update_self]
      have hold : ¬ ((k', v') ∈ m ∨ (k', v') ∈ m') := fun hold => absurd (hk.symm.trans (hmem.mp hold)) (by simp)
      simp only [List.mem_cons, Prod.mk.injEq, true_and, Option.some.injEq]
      constructor
      · rintro (h | rfl | h)
        · exact absurd (.inl h) hold
        · rfl
        · exact absurd (.inr h) hold
      · rintro rfl
        exact .inr (.inl rfl)
    · rw [Function.update_of_ne hk', ← hmem, List.mem_cons, Prod.mk.injEq, or_iff_right (a := k' = k ∧ v' = v) fun heq => hk' heq.1]

theorem erase (h : Represents (m ++ (k, v) :: m') r) : Represents (m ++ m') (update r k none) := by
  have hnodup := h.nodup
  rw [List.map_append, List.map_cons, List.nodup_middle, List.nodup_cons, ← List.map_append] at hnodup
  refine ⟨hnodup.2, fun k' v' => ?_⟩
  by_cases hk' : k' = k
  · subst hk'
    rw [Function.update_self]
    refine iff_of_false (fun hmem => hnodup.1 (List.mem_map.mpr ⟨_, hmem, rfl⟩)) (by simp)
  · rw [Function.update_of_ne hk', ← h.mem k' v', List.mem_append, List.mem_append, List.mem_cons, Prod.mk.injEq,
      or_iff_right (a := k' = k ∧ v' = v) fun heq => hk' heq.1]

theorem replace {v' : ν} (h : Represents (m ++ (k, v) :: m') r) : Represents (m ++ (k, v') :: m') (update r k (some v')) := by
  have hnew : Represents (m ++ (k, v') :: m') (update (update r k none) k (some v')) := h.erase.insert (Function.update_self ..)
  rwa [Function.update_idem] at hnew

end Represents
