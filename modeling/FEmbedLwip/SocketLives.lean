/-
Objects that wrap a socket, from constructor to destructor.

The calls of a life are on record, and their ledger says which descriptors
are open. While a class does what it should, the ledger holds its own
descriptor and no other (`Owns`); a life whose operations all keep that, from
its constructor to its destructor, closes each descriptor once and uses none
after (`Life.owned`). What is left for a class is which operations keep it.
-/
import FEmbedLwip.Stack

namespace FEmbed

open Live
open Prog (Hoare)

variable {σ O α β : Type}

/-! ## The ledger of a record -/

/-- What a call does with descriptors; a negative number is none. -/
def SocketCall.events : SocketCall → List (HandleEvent Int)
  | .socket fd | .adopted fd => if 0 ≤ fd then [.opened fd] else []
  | .setsockopt fd _ _ | .connect fd _ | .use fd => if 0 ≤ fd then [.used fd] else []
  | .close fd => if 0 ≤ fd then [.closed fd] else []

def handleEvents (log : List SocketCall) : List (HandleEvent Int) := log.flatMap SocketCall.events

/-- The open descriptors after the calls; `none` after a call on one that is not open. -/
def ledger (log : List SocketCall) : Option (List Int) := Ledger.settle [] (handleEvents log)

/-- The descriptors a socket number stands for. -/
def own (fd : Int) : List Int := if 0 ≤ fd then [fd] else []

theorem own_open {fd : Int} (h : 0 ≤ fd) : own fd = [fd] := if_pos h

theorem own_none {fd : Int} (h : fd < 0) : own fd = [] := if_neg (Int.not_le.mpr h)

theorem ledger_append {log cs : List SocketCall} :
    ledger (log ++ cs) = (ledger log).bind (Ledger.settle · (handleEvents cs)) := by
  unfold ledger handleEvents
  rw [List.flatMap_append, Ledger.settle_append]

theorem ledger_snoc {log : List SocketCall} {c : SocketCall} :
    ledger (log ++ [c]) = (ledger log).bind (Ledger.settle · c.events) := by
  rw [ledger_append]
  simp only [handleEvents, List.flatMap_singleton]

theorem ledger_opened {log : List SocketCall} {held : List Int} {fd : Int} {c : SocketCall}
    (hc : c = .socket fd ∨ c = .adopted fd) (h : ledger log = some held) :
    ledger (log ++ [c]) = some (own fd ++ held) := by
  have he : c.events = if 0 ≤ fd then [.opened fd] else [] := by rcases hc with rfl | rfl <;> rfl
  rw [ledger_snoc, h, he, own]
  by_cases hfd : 0 ≤ fd <;> simp [hfd]

theorem ledger_first {fd : Int} {c : SocketCall} (hc : c = .socket fd ∨ c = .adopted fd) :
    ledger ([] ++ [c]) = some (own fd) := by
  have h : ledger [] = some [] := rfl
  rw [ledger_opened hc h, List.append_nil]

/-- The events of a call on a socket that neither opens nor closes one. -/
def uses (fd : Int) : List (HandleEvent Int) := if 0 ≤ fd then [.used fd] else []

theorem ledger_used {log : List SocketCall} {fd : Int} {c : SocketCall} (hc : c.events = uses fd)
    (h : ledger log = some (own fd)) : ledger (log ++ [c]) = some (own fd) := by
  rw [ledger_snoc, h, hc, own, uses]
  by_cases hfd : 0 ≤ fd <;> simp [hfd, Ledger.book]

theorem ledger_closed {log : List SocketCall} {fd : Int} (h : ledger log = some (own fd)) :
    ledger (log ++ [.close fd]) = some [] := by
  rw [ledger_snoc, h, SocketCall.events, own]
  by_cases hfd : 0 ≤ fd <;> simp [hfd, Ledger.book]

theorem recorded_bind {f : σ → β × σ} {c : β → SocketCall} {g : β → Prog (Live (σ × List SocketCall) O) α}
    {s s' : Live (σ × List SocketCall) O} {a : α} (h : (call (recorded f c) >>= g).Returns s a s') :
    ∃ b e, (g b).Returns ⟨s.self, e, s.env.2 ++ [c b]⟩ a s' :=
  ⟨_, _, returns_call_bind.mp h⟩

/-! ## Owning -/

section Owns

variable {fdOf : O → Int} {fd : Int}

/-- The object's descriptor is `fd`, and no other is open. -/
def Owns (fdOf : O → Int) (fd : Int) (s : Live (σ × List SocketCall) O) : Prop :=
  fdOf s.self = fd ∧ ledger s.env.2 = some (own fd)

/-- Programs that make calls on the object's own socket, and keep it. -/
abbrev UsesOwn (fdOf : O → Int) (fd : Int) (x : Prog (Live (σ × List SocketCall) O) α) : Prop :=
  Prog.Keeps (Owns fdOf fd) x

namespace UsesOwn

theorem pure {a : α} : UsesOwn (σ := σ) fdOf fd (pure a) := Hoare.pure fun _ h => h

theorem bind {x : Prog (Live (σ × List SocketCall) O) β} {f : β → Prog (Live (σ × List SocketCall) O) α}
    (hx : UsesOwn fdOf fd x) (hf : ∀ b, UsesOwn fdOf fd (f b)) : UsesOwn fdOf fd (x >>= f) := Hoare.bind hx hf

theorem ite {c : Prop} [Decidable c] {x y : Prog (Live (σ × List SocketCall) O) α} (hx : UsesOwn fdOf fd x)
    (hy : UsesOwn fdOf fd y) : UsesOwn fdOf fd (if c then x else y) := Hoare.ite (fun _ => hx) fun _ => hy

theorem undefined : UsesOwn (σ := σ) fdOf fd (Prog.undefined : Prog _ α) := Hoare.undefined fun _ h => h

theorem obj {f : O → Prog (Live (σ × List SocketCall) O) α} (hf : ∀ c, fdOf c = fd → UsesOwn fdOf fd (f c)) :
    UsesOwn fdOf fd (obj >>= f) := by
  intro n s hs
  exact hf s.self hs.1 n s hs

theorem set {f : O → O} (hf : ∀ c, fdOf (f c) = fdOf c) : UsesOwn (σ := σ) fdOf fd (set f) :=
  Hoare.modify fun s h => ⟨(hf s.self).trans h.1, h.2⟩

theorem call {f : σ → α × σ} {c : α → SocketCall} (hc : ∀ a, (c a).events = uses fd) :
    UsesOwn fdOf fd (call (recorded f c)) :=
  Hoare.step fun _ h => ⟨h.1, ledger_used (hc _) h.2⟩

theorem owns {x : Prog (Live (σ × List SocketCall) O) α} {s s' : Live (σ × List SocketCall) O} {a : α}
    (hx : UsesOwn fdOf (fdOf s.self) x) (hs : Owns fdOf (fdOf s.self) s) (h : x.Returns s a s') :
    Owns fdOf (fdOf s'.self) s' := by
  obtain ⟨hfd, hl⟩ := hx.returns hs h
  rw [← hfd] at hl
  exact ⟨rfl, hl⟩

end UsesOwn

/-- What becomes of the outside when the object's descriptor, if it has one, is closed. -/
def closedBy (close : Int → σ × List SocketCall → σ × List SocketCall) (fd : Int) (e : σ × List SocketCall) :
    σ × List SocketCall :=
  if fd ≥ 0 then close fd e else e

theorem ledger_closedBy {net : Lwip σ} {e : σ × List SocketCall} (h : ledger e.2 = some (own fd)) :
    ledger (closedBy net.recording.close fd e).2 = some [] := by
  unfold closedBy
  by_cases hfd : fd ≥ 0
  · rw [if_pos hfd]
    exact ledger_closed h
  · rw [if_neg hfd, h, own_none (Int.not_le.mp hfd)]

end Owns

/-! ## Lives -/

/-- A class that wraps a socket. -/
structure Wrapper (σ : Type) where
  Obj : Type
  Ctor : Type
  Op : Type
  socketFd : Obj → Int
  construct : Ctor → Prog (Live (σ × List SocketCall) Obj) Unit
  run : Op → Prog (Live (σ × List SocketCall) Obj) Unit
  destroy : Prog (Live (σ × List SocketCall) Obj) Unit

namespace Wrapper

variable {w : Wrapper σ}

/-- An operation of a life. -/
abbrev Step (w : Wrapper σ) := Prog.Call (Live (σ × List SocketCall) w.Obj) w.Op Unit

/-- The calls the operation made. -/
def made (c : w.Step) : List SocketCall := c.after.env.2.drop c.before.env.2.length

/-- The life of one object: its constructor on raw memory, its operations in
any order, and its destructor. -/
structure Life (w : Wrapper σ) where
  ctor : w.Ctor
  raw : Live (σ × List SocketCall) w.Obj
  born : Live (σ × List SocketCall) w.Obj
  steps : List w.Step
  last : Live (σ × List SocketCall) w.Obj
  dead : Live (σ × List SocketCall) w.Obj
  unrecorded : raw.env.2 = []
  constructs : (w.construct ctor).Returns raw () born
  runs : Prog.Calls w.run born steps last
  destroys : w.destroy.Returns last () dead

/-- Every descriptor the object got is closed exactly once by the end of its
life, and none is used or closed when it is not open. -/
structure Settled (l : w.Life) : Prop where
  closedOnce : ∀ fd, Ledger.closings fd (handleEvents l.dead.env.2) = Ledger.openings fd (handleEvents l.dead.env.2)
  usedOpen : ∀ es e es' fd, handleEvents l.dead.env.2 = es ++ e :: es' → e = .used fd ∨ e = .closed fd →
    Ledger.Open fd es

/-- Besides, between the operations the object's descriptor is open. -/
structure Owned (l : w.Life) : Prop extends Settled l where
  held : ∀ s, s = l.born ∨ (∃ c ∈ l.steps, s = c.after) → 0 ≤ w.socketFd s.self →
    Ledger.Open (w.socketFd s.self) (handleEvents s.env.2)

/-- The object owns the descriptor it has, and no other. -/
def OwnsIts (w : Wrapper σ) (s : Live (σ × List SocketCall) w.Obj) : Prop := Owns w.socketFd (w.socketFd s.self) s

theorem OwnsIts.held {s : Live (σ × List SocketCall) w.Obj} (h : w.OwnsIts s) (hfd : 0 ≤ w.socketFd s.self) :
    Ledger.Open (w.socketFd s.self) (handleEvents s.env.2) := by
  refine (Ledger.mem_iff_open h.2).mp ?_
  rw [own_open hfd]
  exact List.mem_singleton_self _

theorem Life.settled (l : w.Life) (h : ledger l.dead.env.2 = some []) : Settled l := by
  refine ⟨fun fd => Ledger.closings_eq h, fun es e es' fd hes he => ?_⟩
  unfold ledger at h
  rw [hes] at h
  exact Ledger.open_of_settle h he

/-- A life owns its descriptors if an invariant that says so is set up by the
constructor and kept by its operations, and the destructor closes the last. -/
theorem Life.owned (l : w.Life) (tame : w.Step → Prop) (I : Live (σ × List SocketCall) w.Obj → Prop)
    (owns : ∀ s, I s → w.OwnsIts s) (construct : I l.born)
    (step : ∀ c : w.Step, (w.run c.op).Returns c.before () c.after → tame c → I c.before → I c.after)
    (destroy : I l.last → ledger l.dead.env.2 = some [])
    (ht : ∀ c ∈ l.steps, tame c) : Owned l := by
  obtain ⟨hcalls, hlast⟩ := l.runs.keeps (fun c hr ht hI => step c hr ht hI) ht construct
  refine ⟨l.settled (destroy hlast), fun s hs hfd => ?_⟩
  rcases hs with rfl | ⟨c, hc, rfl⟩
  · exact (owns _ construct).held hfd
  · exact (owns _ (hcalls c hc).2).held hfd

/-! ### Lives that are run -/

/-- The life that runs with the fuel `n`. -/
def lifeOf (w : Wrapper σ) (n : Nat) (ctor : w.Ctor) (o : w.Obj) (e : σ) (ops : List w.Op)
    (hc : ((w.construct ctor).run n ⟨o, e, []⟩).1 = .done ())
    (hw : (Prog.walk w.run n ((w.construct ctor).run n ⟨o, e, []⟩).2 ops).isSome)
    (hd : (w.destroy.run n (Prog.walked w.run n ((w.construct ctor).run n ⟨o, e, []⟩).2 ops).2).1 = .done ()) : w.Life where
  ctor := ctor
  raw := ⟨o, e, []⟩
  born := ((w.construct ctor).run n ⟨o, e, []⟩).2
  steps := (Prog.walked w.run n ((w.construct ctor).run n ⟨o, e, []⟩).2 ops).1
  last := (Prog.walked w.run n ((w.construct ctor).run n ⟨o, e, []⟩).2 ops).2
  dead := (w.destroy.run n (Prog.walked w.run n ((w.construct ctor).run n ⟨o, e, []⟩).2 ops).2).2
  unrecorded := rfl
  constructs := .of_run n hc
  runs := .of_walked hw
  destroys := .of_run n hd

end Wrapper

/-- `x`, with its value dropped. -/
def void {S : Type} (x : Prog S α) : Prog S Unit := do
  let _ ← x

theorem returns_void {S : Type} {x : Prog S α} {s s' : S} {u : Unit} :
    (void x).Returns s u s' ↔ ∃ a, x.Returns s a s' := by
  unfold void
  rw [Prog.returns_bind]
  constructor
  · rintro ⟨a, t, hx, ht⟩
    obtain ⟨_, rfl⟩ := Prog.returns_pure.mp ht
    exact ⟨a, hx⟩
  · rintro ⟨a, hx⟩
    exact ⟨a, s', hx, Prog.returns_pure.mpr ⟨rfl, rfl⟩⟩

end FEmbed
