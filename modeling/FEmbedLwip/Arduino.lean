/-
What the sources take from C and from the Arduino core: 32-bit integers,
`strtol`, and the operations of `String`.

The targets are 32-bit (`long` and `int` have 32 bits, `size_t` is unsigned
with 32 bits). A `String` is its bytes; an index `-1` says "not found", and
is a very large one where the sources pass it on as `unsigned int`.
-/
import Mathlib.Algebra.Group.Int.Defs
import Mathlib.Algebra.Group.Nat.Defs
import Mathlib.Data.List.DropRight
import Mathlib.Tactic.Common

namespace FEmbed

abbrev Bytes := List UInt8

/-- A string literal of the sources. -/
def bytes (s : String) : Bytes := s.toList.map fun c => UInt8.ofNat c.toNat

/-! ## Integers -/

/-- An `int`: 32 bits, wrapping. -/
def int32 (x : Int) : Int := Int.bmod x (2 ^ 32)

/-- A `size_t` or `unsigned int`: 32 bits, wrapping. -/
def sizeT (x : Int) : Nat := (x % 2 ^ 32).toNat

theorem int32_eq {x : Int} (h₀ : -2 ^ 31 ≤ x) (h₁ : x < 2 ^ 31) : int32 x = x :=
  Int.bmod_eq_of_le (by omega) (by omega)

theorem int32_lt (x : Int) : int32 x < 2 ^ 31 := by
  have := Int.bmod_lt (x := x) (m := 2 ^ 32) (by decide)
  simpa [int32] using this

theorem sizeT_eq {x : Int} (h₀ : 0 ≤ x) (h₁ : x < 2 ^ 32) : sizeT x = x.toNat := by
  rw [sizeT, Int.emod_eq_of_lt h₀ h₁]

theorem sizeT_lt (x : Int) : sizeT x < 2 ^ 32 := by
  unfold sizeT
  omega

theorem int32_ne_zero {n : Nat} (h : n ≠ 0) (hlt : n < 2 ^ 32) : int32 n ≠ 0 := by
  rw [int32, Int.bmod_def]
  split <;> omega

theorem sizeT_natCast {n : Nat} (h : n < 2 ^ 32) : sizeT n = n := by
  rw [sizeT_eq (by omega) (by omega)]; simp

theorem int32_sizeT {x : Int} (h₀ : -2 ^ 31 ≤ x) (h₁ : x < 2 ^ 31) : int32 (sizeT x) = x := by
  have hpos : 0 ≤ x % 2 ^ 32 := Int.emod_nonneg x (by decide)
  rw [sizeT, Int.toNat_of_nonneg hpos]
  exact (Int.emod_bmod x (2 ^ 32)).trans (int32_eq h₀ h₁)

/-! ## Numbers in text -/

/-- `isspace`. -/
def isSpace (b : UInt8) : Bool := b == 32 || (9 ≤ b && b ≤ 13)

/-- The value of a digit or letter, as `strtol` reads it. -/
def digitVal (b : UInt8) : Option Nat :=
  if 48 ≤ b ∧ b ≤ 57 then some (b.toNat - 48)
  else if 97 ≤ b ∧ b ≤ 122 then some (b.toNat - 87)
  else if 65 ≤ b ∧ b ≤ 90 then some (b.toNat - 55)
  else none

def isDigit (base : Nat) (b : UInt8) : Bool :=
  match digitVal b with
  | some d => d < base
  | none => false

/-- The value of a string of digits. -/
def ofDigits (base : Nat) (s : Bytes) : Nat := s.foldl (fun v b => v * base + (digitVal b).getD 0) 0

/-- The digits a string starts with. -/
def digits (base : Nat) (s : Bytes) : Bytes := s.takeWhile (isDigit base)

/-- A decidable fact about bytes is checked on all of them. -/
theorem forall_byte {P : UInt8 → Prop} (h : ∀ n : Fin 256, P (UInt8.ofNat n)) (b : UInt8) : P b := by
  simpa using h ⟨b.toNat, b.toNat_lt⟩

theorem isDigit_not_space {base : Nat} {b : UInt8} (h : isDigit base b = true) : isSpace b = false := by
  have hall := forall_byte (P := fun b => (digitVal b).isSome → isSpace b = false) (by decide +kernel) b
  refine hall ?_
  rw [isDigit] at h
  split at h
  · rename_i d hd
    rw [hd]
    rfl
  · exact nomatch h

theorem isDigit_ne {base : Nat} {b c : UInt8} (h : isDigit base b = true) (hc : isDigit base c = false) : b ≠ c := by
  rintro rfl
  rw [h] at hc
  exact absurd hc (by decide)

theorem digits_append {base : Nat} {ds rest : Bytes} (hds : ∀ b ∈ ds, isDigit base b = true)
    (hrest : ∀ b ∈ rest.head?, isDigit base b = false) : digits base (ds ++ rest) = ds := by
  rw [digits, List.takeWhile_append_of_pos hds]
  cases rest with
  | nil => exact List.append_nil ds
  | cons c rest => rw [List.takeWhile_cons_of_neg (by simp [hrest c rfl]), List.append_nil]

theorem takeWhile_front {before rest : Bytes} {b : UInt8} (h : b ∉ before) : (before ++ b :: rest).takeWhile (· != b) = before := by
  rw [List.takeWhile_append_of_pos fun c hc => bne_iff_ne.mpr (ne_of_mem_of_not_mem hc h)]
  simp

/-- A `long` out of range is the nearest one in range. -/
def clampLong (x : Int) : Int := max (-2 ^ 31) (min x (2 ^ 31 - 1))

/-- What is left after the `0x` that base 16 admits. -/
def dropHexPrefix : Bytes → Bytes
  | 48 :: 120 :: s => s
  | 48 :: 88 :: s => s
  | s => s

/-- `strtol(s, NULL, base)`, for base 10 or 16. -/
def strtol (base : Nat) (s : Bytes) : Int :=
  let magnitude (t : Bytes) : Nat := ofDigits base (digits base (if base = 16 then dropHexPrefix t else t))
  match s.dropWhile isSpace with
  | 45 :: t => clampLong (-magnitude t)
  | 43 :: t => clampLong (magnitude t)
  | t => clampLong (magnitude t)

theorem clampLong_eq {x : Int} (h₀ : -2 ^ 31 ≤ x) (h₁ : x < 2 ^ 31) : clampLong x = x := by
  simp only [clampLong]; omega

theorem clampLong_range (x : Int) : -2 ^ 31 ≤ clampLong x ∧ clampLong x < 2 ^ 31 := by
  simp only [clampLong]; omega

theorem strtol_range (base : Nat) (s : Bytes) : -2 ^ 31 ≤ strtol base s ∧ strtol base s < 2 ^ 31 := by
  simp only [strtol]
  split <;> exact clampLong_range _

/-! ## Strings -/

namespace Str

/-- `s.indexOf(c, from)`. -/
def indexOfFrom (s : Bytes) (c : UInt8) (start : Nat) : Int :=
  match (s.drop start).findIdx? (· == c) with
  | some i => (start + i : Nat)
  | none => -1

/-- `s.indexOf(c)`. -/
def indexOf (s : Bytes) (c : UInt8) : Int := indexOfFrom s c 0

theorem indexOf_eq (s : Bytes) (c : UInt8) :
    indexOf s c = if c ∈ s then ((s.takeWhile (· != c)).length : Int) else -1 := by
  have key : s.findIdx? (· == c) = if c ∈ s then some (s.takeWhile (· != c)).length else none := by
    induction s with
    | nil => rfl
    | cons b s ih =>
      rw [List.findIdx?_cons, ih]
      by_cases hb : b = c
      · simp [hb]
      · have hne : c ≠ b := Ne.symm hb
        by_cases hs : c ∈ s <;> simp [hb, hne, hs]
  rw [indexOf, indexOfFrom, List.drop_zero, key]
  split <;> simp_all

/-- `s.indexOf(t)` for a string `t`. -/
def indexOfStr (s t : Bytes) : Int :=
  match s.tails.findIdx? (t.isPrefixOf ·) with
  | some i => (i : Nat)
  | none => -1

/-- `s.substring(left, right)`, the indices already converted to `unsigned`. -/
def substring (s : Bytes) (left right : Nat) : Bytes :=
  if left ≤ right then (s.take right).drop left else (s.take left).drop right

/-- `s.substring(left)`. -/
def substringFrom (s : Bytes) (left : Nat) : Bytes := substring s left s.length

/-- `s.remove(index, count)`. -/
def remove (s : Bytes) (index count : Nat) : Bytes := s.take index ++ s.drop (index + count)

/-- `s.trim()`. -/
def trim (s : Bytes) : Bytes := s.rdropWhile isSpace |>.dropWhile isSpace

/-- `tolower`, in the C locale. -/
def toLower (b : UInt8) : UInt8 := if 65 ≤ b ∧ b ≤ 90 then b + 32 else b

def equalsIgnoreCase (s t : Bytes) : Bool := s.map toLower == t.map toLower

def startsWith (s t : Bytes) : Bool := t.isPrefixOf s

/-- `s.toInt()`: a C string ends at its first NUL. -/
def toInt (s : Bytes) : Int := strtol 10 (s.takeWhile (· != 0))

/-- `String(n)` for an unsigned number. -/
def ofNat (n : Nat) : Bytes := bytes (toString n)

/-- `s[i]`, 0 beyond the end. -/
def charAt (s : Bytes) (i : Nat) : UInt8 := s.getD i 0

end Str

end FEmbed
