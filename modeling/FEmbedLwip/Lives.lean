/-
Objects through their lives: the operations called on one, in any order, the
record of the calls they make outside, the order of its events, and what these
may do with handles.

A `Calls` is a sequence of operations, each run as its program returns. A
ledger is a monitor of the events of a life: it holds the handles that are
open, and has no state after the use or the closing of one that is not.
-/
import FEmbedLwip.Prog
import Mathlib.Data.List.Count

namespace Prog

variable {S Op Out : Type}

/-- One operation of a life: what it was, what it returned, and the states around it. -/
structure Call (S Op Out : Type) where
  op : Op
  before : S
  out : Out
  after : S

/-- Operations called one after the other. -/
inductive Calls (run : Op → Prog S Out) : S → List (Call S Op Out) → S → Prop
  | nil {s} : Calls run s [] s
  | cons {c cs s} : (run c.op).Returns c.before c.out c.after → Calls run c.after cs s →
      Calls run c.before (c :: cs) s

namespace Calls

variable {run : Op → Prog S Out} {s s' s'' : S} {cs cs' : List (Call S Op Out)}

/-- A sequence can be cut anywhere. -/
theorem split (h : Calls run s (cs ++ cs') s'') : ∃ s', Calls run s cs s' ∧ Calls run s' cs' s'' := by
  induction cs generalizing s with
  | nil => exact ⟨s, .nil, h⟩
  | cons c cs ih =>
    cases h with
    | cons hc h =>
      obtain ⟨s', hcs, hcs'⟩ := ih h
      exact ⟨s', .cons hc hcs, hcs'⟩

/-- Each operation of a sequence is one that its program made. -/
theorem mem (h : Calls run s cs s') {c} (hc : c ∈ cs) : (run c.op).Returns c.before c.out c.after := by
  induction h with
  | nil => cases hc
  | cons hr _ ih =>
    cases hc with
    | head => exact hr
    | tail _ hc => exact ih hc

/-- An invariant that the operations meeting `Tame` keep holds between any two
of them, and at the end. -/
theorem keeps {I : S → Prop} {Tame : Call S Op Out → Prop}
    (step : ∀ c : Call S Op Out, (run c.op).Returns c.before c.out c.after → Tame c → I c.before → I c.after)
    (h : Calls run s cs s') (ht : ∀ c ∈ cs, Tame c) (hI : I s) : (∀ c ∈ cs, I c.before ∧ I c.after) ∧ I s' := by
  induction h with
  | nil =>
    refine ⟨fun c hc => ?_, hI⟩
    cases hc
  | @cons c cs s' hc _ ih =>
    have hI' := step c hc (ht c List.mem_cons_self) hI
    obtain ⟨hcs, hlast⟩ := ih (fun d hd => ht d (List.mem_cons_of_mem c hd)) hI'
    refine ⟨fun d hd => ?_, hlast⟩
    cases hd with
    | head => exact ⟨hI, hI'⟩
    | tail _ hd => exact hcs d hd

/-- An invariant that every call keeps. -/
theorem always {I : S → Prop} (step : ∀ c : Call S Op Out, (run c.op).Returns c.before c.out c.after → I c.before → I c.after)
    (h : Calls run s cs s') (hI : I s) : (∀ c ∈ cs, I c.before ∧ I c.after) ∧ I s' :=
  h.keeps (fun c hc (_ : True) => step c hc) (fun _ _ => trivial) hI

/-- An invariant of the calls so far and of the state. -/
theorem induct {I : List (Call S Op Out) → S → Prop}
    (step : ∀ past (c : Call S Op Out), (run c.op).Returns c.before c.out c.after → I past c.before → I (past ++ [c]) c.after)
    (h : Calls run s cs s') {past : List (Call S Op Out)} (hI : I past s) : I (past ++ cs) s' := by
  induction h generalizing past with
  | nil => rwa [List.append_nil]
  | @cons c cs s' hc _ ih =>
    have hcs := ih (step past c hc hI)
    rwa [List.append_assoc, List.singleton_append] at hcs

end Calls

/-- The operations `ops` from `s`, each run with the fuel `n`, and the state
after; `none` if one did not return. -/
def walk (run : Op → Prog S Out) (n : Nat) (s : S) : List Op → Option (List (Call S Op Out) × S)
  | [] => some ([], s)
  | op :: ops =>
    match (run op).run n s with
    | (.done out, s') => (walk run n s' ops).map fun x => (⟨op, s, out, s'⟩ :: x.1, x.2)
    | _ => none

theorem Calls.of_walk {run : Op → Prog S Out} {n : Nat} {s s' : S} {ops : List Op} {cs : List (Call S Op Out)}
    (h : walk run n s ops = some (cs, s')) : Calls run s cs s' := by
  induction ops generalizing s cs with
  | nil =>
    simp only [walk, Option.some.injEq, Prod.mk.injEq] at h
    obtain ⟨rfl, rfl⟩ := h
    exact .nil
  | cons op ops ih =>
    rw [walk] at h
    cases hrun : (run op).run n s with
    | mk o t =>
      rw [hrun] at h
      cases o with
      | done out =>
        obtain ⟨⟨ds, u⟩, hwalk, hcs⟩ := Option.map_eq_some_iff.mp h
        simp only [Prod.mk.injEq] at hcs
        obtain ⟨rfl, rfl⟩ := hcs
        exact .cons (c := ⟨op, s, out, t⟩) ⟨n, hrun⟩ (ih hwalk)
      | undefined => cases h
      | running => cases h

/-- The calls that `walk` makes, and the state after them. -/
def walked (run : Op → Prog S Out) (n : Nat) (s : S) (ops : List Op) : List (Call S Op Out) × S :=
  (walk run n s ops).getD ([], s)

theorem Calls.of_walked {run : Op → Prog S Out} {n : Nat} {s : S} {ops : List Op} (h : (walk run n s ops).isSome) :
    Calls run s (walked run n s ops).1 (walked run n s ops).2 := by
  obtain ⟨x, hx⟩ := Option.isSome_iff_exists.mp h
  rw [walked, hx]
  exact .of_walk hx

end Prog

/-! ## Records -/

section Records

variable {σ C α : Type}

/-- The call `f` of an outside, with `c` of its answer put on record. -/
def recorded (f : σ → α × σ) (c : α → C) (s : σ × List C) : α × σ × List C :=
  ((f s.1).1, (f s.1).2, s.2 ++ [c (f s.1).1])

/-- `f`, not put on record. -/
def unrecorded (f : σ → α × σ) (s : σ × List C) : α × σ × List C := ((f s.1).1, (f s.1).2, s.2)

/-- The effect `f`, with `c` put on record. -/
def noted (f : σ → σ) (c : C) (s : σ × List C) : σ × List C := (f s.1, s.2 ++ [c])

/-- The effect `f`, not put on record. -/
def unnoted (f : σ → σ) (s : σ × List C) : σ × List C := (f s.1, s.2)

end Records

/-! ## Order -/

/-- Each `A` of a log comes after some `B`. -/
def Preceded {E : Type} (A B : E → Prop) (log : List E) : Prop :=
  ∀ before e after, log = before ++ e :: after → A e → ∃ e' ∈ before, B e'

namespace Preceded

variable {E : Type} {A B C : E → Prop} {log log' : List E}

theorem none (h : ∀ e ∈ log, ¬ A e) : Preceded A B log := by
  rintro before e after rfl hA
  exact absurd hA (h e (by simp))

theorem append (h : Preceded A B log) (h' : Preceded A B log') : Preceded A B (log ++ log') := by
  intro before e after heq hA
  rcases List.append_eq_append_iff.mp heq with ⟨mid, rfl, hlog'⟩ | ⟨mid, hlog, hafter⟩
  · obtain ⟨e', he', hB⟩ := h' mid e after hlog' hA
    exact ⟨e', List.mem_append_right _ he', hB⟩
  · cases mid with
    | nil =>
      rw [List.append_nil] at hlog
      obtain ⟨e', he', _⟩ := h' [] e after hafter.symm hA
      exact nomatch he'
    | cons e₀ mid =>
      obtain ⟨rfl, _⟩ := List.cons.inj hafter
      exact h before e mid hlog hA

/-- After the first `B` anything may follow. -/
theorem append_of_mem (h : Preceded A B log) {e : E} (he : e ∈ log) (hB : B e) (log' : List E) : Preceded A B (log ++ log') := by
  intro before e' after heq hA
  rcases List.append_eq_append_iff.mp heq with ⟨mid, rfl, _⟩ | ⟨mid, hlog, hafter⟩
  · exact ⟨e, List.mem_append_left _ he, hB⟩
  · cases mid with
    | nil =>
      rw [List.append_nil] at hlog
      exact ⟨e, hlog ▸ he, hB⟩
    | cons e₀ mid =>
      obtain ⟨rfl, _⟩ := List.cons.inj hafter
      exact h before e' mid hlog hA

theorem left (h : Preceded A B (log ++ log')) : Preceded A B log := by
  rintro before e after rfl hA
  exact h before e (after ++ log') (by rw [List.append_assoc, List.cons_append]) hA

theorem trans (h : Preceded A B log) (h' : Preceded B C log) : Preceded A C log := by
  intro before e after heq hA
  obtain ⟨e', he', hB⟩ := h before e after heq hA
  obtain ⟨before₁, before₂, rfl⟩ := List.append_of_mem he'
  obtain ⟨e'', he'', hC⟩ := h' before₁ e' (before₂ ++ e :: after) (by rw [heq, List.append_assoc, List.cons_append]) hB
  exact ⟨e'', List.mem_append_left _ he'', hC⟩

end Preceded

/-! ## Ledgers -/

/-- What is done with a handle. -/
inductive HandleEvent (H : Type) where
  | opened (h : H)
  | used (h : H)
  | closed (h : H)
  deriving DecidableEq, Repr

namespace Ledger

variable {H : Type} [DecidableEq H] {held held' : List H} {e : HandleEvent H} {es es' : List (HandleEvent H)}

/-- The open handles after an event. -/
def book (held : List H) : HandleEvent H → Option (List H)
  | .opened h => some (h :: held)
  | .used h => if h ∈ held then some held else none
  | .closed h => if h ∈ held then some (held.erase h) else none

/-- The open handles after all events, in their order. -/
def settle (held : List H) : List (HandleEvent H) → Option (List H)
  | [] => some held
  | e :: es => (book held e).bind (settle · es)

@[simp] theorem settle_nil : settle held [] = some held := rfl

@[simp] theorem settle_cons : settle held (e :: es) = (book held e).bind (settle · es) := rfl

@[simp] theorem book_opened {h : H} : book held (.opened h) = some (h :: held) := rfl

theorem book_used {h : H} (hh : h ∈ held) : book held (.used h) = some held := if_pos hh

theorem settle_append : settle held (es ++ es') = (settle held es).bind (settle · es') := by
  induction es generalizing held with
  | nil => rfl
  | cons e es ih =>
    simp only [List.cons_append, settle_cons, Option.bind_assoc]
    congr 1
    funext held'
    exact ih

/-- How often `h` is opened. -/
def openings (h : H) (es : List (HandleEvent H)) : Nat := es.count (.opened h)

/-- How often `h` is closed. -/
def closings (h : H) (es : List (HandleEvent H)) : Nat := es.count (.closed h)

theorem count_book {h : H} (hb : book held e = some held') :
    held'.count h + closings h [e] = held.count h + openings h [e] := by
  cases e with
  | opened g =>
    simp only [book_opened, Option.some.injEq] at hb
    subst hb
    by_cases hg : g = h <;> simp [openings, closings, hg]
  | used g =>
    simp only [book, Option.ite_none_right_eq_some, Option.some.injEq] at hb
    obtain ⟨_, rfl⟩ := hb
    simp [openings, closings]
  | closed g =>
    simp only [book, Option.ite_none_right_eq_some, Option.some.injEq] at hb
    obtain ⟨hg, rfl⟩ := hb
    by_cases hgh : g = h
    · subst hgh
      have hpos : 0 < held.count g := List.count_pos_iff.mpr hg
      simp only [openings, closings, List.count_erase_self, List.count_singleton_self]
      have hne : List.count (HandleEvent.opened g) [HandleEvent.closed g] = 0 := by simp
      omega
    · have hne : held.count h = (held.erase g).count h := (List.count_erase_of_ne (Ne.symm hgh)).symm
      simp [openings, closings, hgh, hne]

/-- Every opening of a handle is matched by a closing, or by its being held. -/
theorem count_settle {h : H} (hs : settle held es = some held') :
    held'.count h + closings h es = held.count h + openings h es := by
  induction es generalizing held with
  | nil =>
    simp only [settle_nil, Option.some.injEq] at hs
    subst hs
    simp [openings, closings]
  | cons e es ih =>
    obtain ⟨mid, hb, hs⟩ := Option.bind_eq_some_iff.mp hs
    have h₁ := count_book (h := h) hb
    have h₂ := ih hs
    have hc : closings h (e :: es) = closings h [e] + closings h es := by
      rw [closings, closings, closings, ← List.count_append, List.singleton_append]
    have ho : openings h (e :: es) = openings h [e] + openings h es := by
      rw [openings, openings, openings, ← List.count_append, List.singleton_append]
    omega

/-- `h` was opened once more than it was closed. -/
def Open (h : H) (es : List (HandleEvent H)) : Prop := closings h es < openings h es

/-- The handles in the ledger of a life are the open ones. -/
theorem mem_iff_open {h : H} (hs : settle [] es = some held) : h ∈ held ↔ Open h es := by
  have hc := count_settle (h := h) hs
  rw [← List.count_pos_iff, Open]
  simp only [List.count_nil] at hc
  omega

/-- Of a life that ends with no handle open, each was closed as often as it was opened. -/
theorem closings_eq {h : H} (hs : settle [] es = some []) : closings h es = openings h es := by
  have hc := count_settle (h := h) hs
  simp only [List.count_nil] at hc
  omega

/-- What the ledger of a life admits is done with open handles alone. -/
theorem open_of_settle {h : H} (hs : settle [] (es ++ e :: es') = some held) (he : e = .used h ∨ e = .closed h) :
    Open h es := by
  rw [settle_append] at hs
  obtain ⟨mid, hmid, hs⟩ := Option.bind_eq_some_iff.mp hs
  obtain ⟨_, hb, _⟩ := Option.bind_eq_some_iff.mp hs
  refine (mem_iff_open hmid).mp ?_
  rcases he with rfl | rfl
  · exact (Option.ite_none_right_eq_some.mp hb).1
  · exact (Option.ite_none_right_eq_some.mp hb).1

end Ledger
