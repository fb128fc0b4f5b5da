/-
A heap of blocks that are known by when they were allocated, so that a block
which is freed is not taken for another one at its address.
-/
import Mathlib.Logic.Function.Basic

structure Block (V : Type) where
  id : Nat
  content : V
  deriving DecidableEq, Repr

/-- The blocks at the addresses, of the `clock` that were allocated so far. -/
structure Blocks (A V : Type) where
  clock : Nat
  heap : A → Option (Block V)
  older : ∀ a b, heap a = some b → b.id < clock
  unique : ∀ a a' b b', heap a = some b → heap a' = some b' → b.id = b'.id → a = a'

namespace Blocks

variable {A V : Type}

def empty : Blocks A V where
  clock := 0
  heap _ := none
  older _ _ h := by simp at h
  unique _ _ _ _ h := by simp at h

variable [DecidableEq A]

theorem update_some {heap : A → Option (Block V)} {a x : A} {b : Block V} {o : Option (Block V)}
    (h : Function.update heap a o x = some b) : (x = a ∧ o = some b) ∨ heap x = some b := by
  by_cases hx : x = a
  · subst hx
    rw [Function.update_self] at h
    exact .inl ⟨rfl, h⟩
  · rw [Function.update_of_ne hx] at h
    exact .inr h

def alloc (m : Blocks A V) (a : A) (v : V) : Blocks A V where
  clock := m.clock + 1
  heap := Function.update m.heap a (some ⟨m.clock, v⟩)
  older x b h := by
    rcases update_some h with ⟨-, hb⟩ | hb
    · obtain rfl := Option.some.inj hb
      exact Nat.lt_succ_self _
    · exact Nat.lt_succ_of_lt (m.older x b hb)
  unique x y b c hb hc hid := by
    rcases update_some hb with ⟨rfl, hnew⟩ | hold
    · obtain rfl := Option.some.inj hnew
      rcases update_some hc with ⟨rfl, -⟩ | hold
      · rfl
      · exact absurd hid (Nat.ne_of_gt (m.older y c hold))
    · rcases update_some hc with ⟨rfl, hnew⟩ | hold'
      · obtain rfl := Option.some.inj hnew
        exact absurd hid (Nat.ne_of_lt (m.older x b hold))
      · exact m.unique x y b c hold hold' hid

def free (m : Blocks A V) (a : A) : Blocks A V where
  clock := m.clock
  heap := Function.update m.heap a none
  older x b h := by
    rcases update_some h with ⟨-, hb⟩ | hb
    · cases hb
    · exact m.older x b hb
  unique x y b c hb hc hid := by
    rcases update_some hb with ⟨-, hb⟩ | hb
    · cases hb
    · rcases update_some hc with ⟨-, hc⟩ | hc
      · cases hc
      · exact m.unique x y b c hb hc hid

variable {m : Blocks A V} {a x : A} {v : V} {k : Nat}

@[simp] theorem heap_alloc_self : (m.alloc a v).heap a = some ⟨m.clock, v⟩ := Function.update_self ..

theorem heap_alloc_ne (h : x ≠ a) : (m.alloc a v).heap x = m.heap x := Function.update_of_ne h ..

@[simp] theorem heap_free_self : (m.free a).heap a = none := Function.update_self ..

theorem heap_free_ne (h : x ≠ a) : (m.free a).heap x = m.heap x := Function.update_of_ne h ..

/-- The block `k` was freed. -/
def Gone (m : Blocks A V) (k : Nat) : Prop := k < m.clock ∧ ∀ a b, m.heap a = some b → b.id ≠ k

theorem gone_free (h : m.heap a = some ⟨k, v⟩) : (m.free a).Gone k := by
  refine ⟨m.older a _ h, fun x b hb hid => ?_⟩
  rcases update_some hb with ⟨-, hb⟩ | hb'
  · cases hb
  · have hx := m.unique x a b _ hb' h hid
    subst hx
    rw [heap_free_self] at hb
    cases hb

theorem Gone.alloc (h : m.Gone k) : (m.alloc a v).Gone k := by
  refine ⟨Nat.lt_succ_of_lt h.1, fun x b hb => ?_⟩
  rcases update_some hb with ⟨-, hb⟩ | hb
  · obtain rfl := Option.some.inj hb
    exact Nat.ne_of_gt h.1
  · exact h.2 x b hb

theorem Gone.free (h : m.Gone k) : (m.free a).Gone k := by
  refine ⟨h.1, fun x b hb => ?_⟩
  rcases update_some hb with ⟨-, hb⟩ | hb
  · cases hb
  · exact h.2 x b hb

end Blocks
