/-
Segments of a buffer: what a format has written at a place, and reading it
there. `At e buf i` says that the elements `e` are in `buf` from the index `i`
on. A text that was written is taken apart by `at_append` and `at_cons`, field
by field, and each field is read by a lemma of its own; what is before and
behind it does not matter.
-/
import Mathlib.Data.List.Basic

namespace Segments

variable {α : Type}

/-- `e` is in `buf` at `i`. -/
def At (e buf : List α) (i : Nat) : Prop := ∀ k, k < e.length → buf[i + k]? = e[k]?

variable {e a b buf : List α} {i : Nat} {x : α}

theorem at_append : At (a ++ b) buf i ↔ At a buf i ∧ At b buf (i + a.length) := by
  constructor
  · intro h
    refine ⟨fun k hk => ?_, fun k hk => ?_⟩
    · have hat := h k (by rw [List.length_append]; omega)
      rwa [List.getElem?_append_left hk] at hat
    · have hat := h (a.length + k) (by rw [List.length_append]; omega)
      rwa [List.getElem?_append_right (by omega), Nat.add_sub_cancel_left, ← Nat.add_assoc] at hat
  · rintro ⟨ha, hb⟩ k hk
    rw [List.length_append] at hk
    by_cases hlt : k < a.length
    · rw [List.getElem?_append_left hlt]
      exact ha k hlt
    · have hat := hb (k - a.length) (by omega)
      rw [List.getElem?_append_right (by omega), ← hat]
      congr 1
      omega

theorem at_cons : At (x :: e) buf i ↔ buf[i]? = some x ∧ At e buf (i + 1) := by
  have h : At ([x] ++ e) buf i ↔ At [x] buf i ∧ At e buf (i + 1) := at_append
  rw [List.singleton_append] at h
  rw [h]
  refine and_congr_left fun _ => ⟨fun hat => hat 0 (Nat.zero_lt_one), fun hx k hk => ?_⟩
  obtain rfl : k = 0 := by
    rw [List.length_singleton] at hk
    omega
  exact hx

/-- What was written first is at the start, whatever follows. -/
theorem at_start (e rest : List α) : At e (e ++ rest) 0 := by
  intro k hk
  rw [Nat.zero_add, List.getElem?_append_left hk]

theorem At.left (h : At (a ++ b) buf i) : At a buf i := (at_append.mp h).1

theorem At.right (h : At (a ++ b) buf i) : At b buf (i + a.length) := (at_append.mp h).2

theorem At.take (h : At e buf i) : (buf.drop i).take e.length = e := by
  refine List.ext_getElem? fun k => ?_
  by_cases hk : k < e.length
  · rw [List.getElem?_take_of_lt hk, List.getElem?_drop]
    exact h k hk
  · rw [List.getElem?_take_eq_none (by omega), List.getElem?_eq_none (by omega)]

/-- The buffer from there on. -/
theorem At.drop (h : At e buf i) : buf.drop i = e ++ buf.drop (i + e.length) := by
  conv_lhs => rw [← List.take_append_drop e.length (buf.drop i), h.take, List.drop_drop]

end Segments
