/-
`PPPAdapter`: the state the library records of a PPP session of lwIP.

The status callback runs in lwIP's thread, at any time. `pppCloseAndFree`
waits, so it is cut where a callback, or another operation, may come in
between: each `Action` is one such piece, and a run is any sequence of them.
The settings of the interface and the log messages are left out.
-/
import Mathlib.Data.List.Basic

namespace FEmbed

inductive PPPState where
  | disconnected
  | connected
  | idle
  | uninit
  deriving DecidableEq, Repr

/-- The codes of the status callback. -/
inductive PPPErr where
  | none
  | param
  | openFailed
  | device
  | alloc
  | user
  | connect
  | authfail
  | protocol
  | peerdead
  | idletimeout
  | connecttime
  | loopback
  | unknown (errCode : Int)
  deriving DecidableEq, Repr

structure PPPAdapter where
  state : PPPState := .uninit
  pppPcb : Option Nat := none
  deriving DecidableEq, Repr

namespace PPPAdapter

/-- `ppp_status_cb`: most codes are logged only. -/
def pppStatusCb (errCode : PPPErr) (a : PPPAdapter) : PPPAdapter :=
  match errCode with
  | .none => { a with state := .connected }
  | .user | .connect => { a with state := .disconnected }
  | _ => a

/-- `pppInit`, with what `pppapi_pppos_create` gives. -/
def pppInit (pcb : Option Nat) (a : PPPAdapter) : Bool × PPPAdapter := (pcb.isSome, { a with pppPcb := pcb })

/-- `pppNegotiation`, with what `pppapi_connect` gives: `none` where it writes
through a null control block. Nothing is recorded. -/
def pppNegotiation (rc : Int) (a : PPPAdapter) : Option Bool :=
  if a.pppPcb.isSome then some (rc == 0) else none

/-! ## Runs -/

/-- Where `pppCloseAndFree` is: not called, after `i` turns of its loop, or
having found the session disconnected. -/
inductive Pc where
  | outside
  | waiting (i : Nat)
  | freeing
  deriving DecidableEq, Repr

structure World where
  adapter : PPPAdapter := {}
  pc : Pc := .outside
  deriving DecidableEq, Repr

inductive Action where
  | callback (errCode : PPPErr)
  | pppInit (pcb : Option Nat)
  | pppNegotiation (rc : Int)
  | pppClose
  /-- `pppCloseAndFree`, up to its `pppapi_close`. -/
  | pppCloseAndFree
  /-- A turn of its loop: a second, unless it is disconnected. -/
  | wait
  /-- The test after the loop. -/
  | test
  /-- `pppapi_free`. -/
  | pppapiFree
  deriving DecidableEq, Repr

def step (w : World) : Action → Option World
  | .callback errCode => some { w with adapter := pppStatusCb errCode w.adapter }
  | .pppInit pcb => some { w with adapter := (pppInit pcb w.adapter).2 }
  | .pppNegotiation rc => if (pppNegotiation rc w.adapter).isSome then some w else none
  | .pppClose => some w
  | .pppCloseAndFree =>
    if w.pc = .outside then
      some (if w.adapter.pppPcb.isSome then { w with pc := .waiting 0 } else w)
    else none
  | .wait => match w.pc with
    | .waiting i => if i < 5 then some { w with pc := .waiting (i + 1) } else none
    | _ => none
  | .test =>
    if w.pc = .waiting 5 then
      some (if w.adapter.state = .disconnected then { w with pc := .freeing }
        else { adapter := { w.adapter with pppPcb := none }, pc := .outside })
    else none
  | .pppapiFree =>
    if w.pc = .freeing then some { adapter := { w.adapter with pppPcb := none }, pc := .outside } else none

/-- The state after some actions, the last one first. -/
def exec : List Action → Option World
  | [] => some {}
  | a :: past => (exec past).bind fun w => step w a

/-- The code of the last callback. -/
def lastCallback : List Action → Option PPPErr
  | [] => none
  | .callback errCode :: _ => some errCode
  | _ :: past => lastCallback past

/-- Whether a callback has reported the session's end since the last `pppNegotiation`. -/
def sessionEnded : List Action → Bool
  | [] => false
  | .callback errCode :: past => errCode ≠ .none || sessionEnded past
  | .pppNegotiation _ :: _ => false
  | _ :: past => sessionEnded past

/-- Whether a session was begun and its end not reported. -/
def sessionOpen : List Action → Bool
  | [] => false
  | .callback errCode :: past => errCode = .none && sessionOpen past
  | .pppNegotiation _ :: _ => true
  | _ :: past => sessionOpen past

/-- lwIP reports an end once for each session. -/
def wellReported : List Action → Bool
  | [] => true
  | .callback errCode :: past => (errCode = .none || sessionOpen past) && wellReported past
  | _ :: past => wellReported past

/-! ## What is recorded -/

/-- The state is connected only if the last callback said so, and a control
block is freed only after its session's end was reported. -/
structure Sound (acts : List Action) (w : World) : Prop where
  connected : w.adapter.state = .connected → lastCallback acts = some .none
  freed : ∀ past, .pppapiFree :: past <:+ acts → sessionEnded past = true

/-- An action that the record can follow: an end that is reported to a
connected adapter has one of the two codes it looks at; `pppCloseAndFree` does
not find it disconnected from an earlier session; and no session is begun
while it is about to free one. -/
def fits (past : List Action) (w : World) : Action → Bool
  | .callback errCode => w.adapter.state ≠ .connected || errCode = .none || errCode = .user || errCode = .connect
  | .pppCloseAndFree => w.adapter.state ≠ .disconnected || sessionEnded past
  | .pppNegotiation _ => w.pc = .outside || (w.pc ≠ .freeing && w.adapter.state ≠ .disconnected)
  | _ => true

/-- Each action fits the run before it. -/
def tame : List Action → Bool
  | [] => true
  | a :: past => tame past && (exec past).all fun w => fits past w a

/-- `Sound`, and what holds while the control block may still be freed. -/
structure Inv (acts : List Action) (w : World) : Prop extends Sound acts w where
  waiting : w.pc ≠ .outside → w.adapter.state = .disconnected → sessionEnded acts = true
  freeing : w.pc = .freeing → sessionEnded acts = true

theorem suffix_cons_of_ne {α : Type} {a b : α} {past acts : List α} (h : a :: past <:+ b :: acts) (hne : a ≠ b) :
    a :: past <:+ acts := by
  rcases List.suffix_cons_iff.mp h with h | h
  · exact absurd (List.cons.inj h).1 hne
  · exact h

/-- The three things a callback can do to the record. -/
theorem pppStatusCb_cases (errCode : PPPErr) (a : PPPAdapter) :
    (errCode = .none ∧ (pppStatusCb errCode a).state = .connected) ∨
    ((errCode = .user ∨ errCode = .connect) ∧ (pppStatusCb errCode a).state = .disconnected) ∨
    (errCode ≠ .none ∧ errCode ≠ .user ∧ errCode ≠ .connect ∧ pppStatusCb errCode a = a) := by
  cases errCode <;> simp [pppStatusCb]

/-- What a callback leaves. -/
theorem Inv.callback {past : List Action} {w : World} {errCode : PPPErr} (h : Inv past w)
    (hfits : fits past w (.callback errCode) = true) :
    Inv (.callback errCode :: past) { w with adapter := pppStatusCb errCode w.adapter } := by
  have hfits : w.adapter.state = .connected → errCode = .none ∨ errCode = .user ∨ errCode = .connect := by
    simpa [fits, or_assoc, or_iff_not_imp_left] using hfits
  refine ⟨⟨fun hc => ?_, fun past' hp => ?_⟩, fun hpc hd => ?_, fun hpc => ?_⟩
  · rcases pppStatusCb_cases errCode w.adapter with ⟨rfl, _⟩ | ⟨_, hdis⟩ | ⟨h₀, h₁, h₂, heq⟩
    · rfl
    · exact absurd (hdis.symm.trans hc) (by decide)
    · rw [heq] at hc
      rcases hfits hc with h | h | h
      · exact absurd h h₀
      · exact absurd h h₁
      · exact absurd h h₂
  · exact h.freed past' (suffix_cons_of_ne hp (by simp))
  · rcases pppStatusCb_cases errCode w.adapter with ⟨_, hcon⟩ | ⟨hcode, _⟩ | ⟨h₀, _⟩
    · exact absurd (hcon.symm.trans hd) (by decide)
    · rcases hcode with rfl | rfl <;> rfl
    · simp [sessionEnded, h₀]
  · simp [sessionEnded, h.freeing hpc]

theorem Inv.step {past : List Action} {w w' : World} {a : Action} (h : Inv past w) (hfits : fits past w a = true)
    (hstep : step w a = some w') : Inv (a :: past) w' := by
  cases a with
  | callback errCode =>
    obtain rfl := Option.some.inj hstep
    exact h.callback hfits
  | pppInit pcb =>
    obtain rfl := Option.some.inj hstep
    exact ⟨⟨h.connected, fun _ hp => h.freed _ (suffix_cons_of_ne hp (by simp))⟩, h.waiting, h.freeing⟩
  | pppNegotiation rc =>
    simp only [PPPAdapter.step, Option.ite_none_right_eq_some, Option.some.injEq] at hstep
    obtain ⟨_, rfl⟩ := hstep
    have hfits : w.pc ≠ .outside → w.pc ≠ .freeing ∧ w.adapter.state ≠ .disconnected := by
      simpa [fits, or_iff_not_imp_left] using hfits
    refine ⟨⟨h.connected, fun _ hp => h.freed _ (suffix_cons_of_ne hp (by simp))⟩, fun hpc hd => ?_, fun hf => ?_⟩
    · exact absurd hd (hfits hpc).2
    · exact absurd hf (hfits (by simp [hf])).1
  | pppClose =>
    obtain rfl := Option.some.inj hstep
    exact ⟨⟨h.connected, fun _ hp => h.freed _ (suffix_cons_of_ne hp (by simp))⟩, h.waiting, h.freeing⟩
  | pppCloseAndFree =>
    simp only [PPPAdapter.step, Option.ite_none_right_eq_some, Option.some.injEq] at hstep
    obtain ⟨hpc, rfl⟩ := hstep
    have hended : w.adapter.state = .disconnected → sessionEnded past = true := by
      simpa [fits, or_iff_not_imp_left] using hfits
    split
    · exact ⟨⟨h.connected, fun _ hp => h.freed _ (suffix_cons_of_ne hp (by simp))⟩,
        fun _ => hended, fun hf => by simp at hf⟩
    · exact ⟨⟨h.connected, fun _ hp => h.freed _ (suffix_cons_of_ne hp (by simp))⟩,
        fun hne => absurd hpc hne, fun hf => by simp [hpc] at hf⟩
  | wait =>
    simp only [PPPAdapter.step] at hstep
    split at hstep
    · rename_i i hpc
      simp only [Option.ite_none_right_eq_some, Option.some.injEq] at hstep
      obtain ⟨_, rfl⟩ := hstep
      exact ⟨⟨h.connected, fun _ hp => h.freed _ (suffix_cons_of_ne hp (by simp))⟩,
        fun _ => h.waiting (by simp [hpc]), fun hf => by simp at hf⟩
    · exact nomatch hstep
  | test =>
    simp only [PPPAdapter.step, Option.ite_none_right_eq_some, Option.some.injEq] at hstep
    obtain ⟨hpc, rfl⟩ := hstep
    split
    · rename_i hdis
      have hended : sessionEnded past = true := h.waiting (by simp [hpc]) hdis
      exact ⟨⟨h.connected, fun _ hp => h.freed _ (suffix_cons_of_ne hp (by simp))⟩, fun _ _ => hended, fun _ => hended⟩
    · exact ⟨⟨h.connected, fun _ hp => h.freed _ (suffix_cons_of_ne hp (by simp))⟩,
        fun hne => absurd rfl hne, fun hf => by simp at hf⟩
  | pppapiFree =>
    simp only [PPPAdapter.step, Option.ite_none_right_eq_some, Option.some.injEq] at hstep
    obtain ⟨hpc, rfl⟩ := hstep
    refine ⟨⟨h.connected, fun past' hp => ?_⟩, fun hne => absurd rfl hne, fun hf => by simp at hf⟩
    rcases List.suffix_cons_iff.mp hp with heq | hp
    · rw [(List.cons.inj heq).2]
      exact h.freeing hpc
    · exact h.freed _ hp

/-- **The record is sound** on every run whose actions it can follow. -/
theorem sound_of_tame {acts : List Action} {w : World} (h : exec acts = some w) (ht : tame acts = true) : Sound acts w := by
  suffices inv : Inv acts w from inv.toSound
  induction acts generalizing w with
  | nil =>
    obtain rfl := Option.some.inj h
    exact ⟨⟨fun hc => absurd hc (by decide), fun past hp => absurd (List.suffix_nil.mp hp) (by simp)⟩,
      fun hne => absurd rfl hne, fun hf => nomatch hf⟩
  | cons a past ih =>
    obtain ⟨v, hv, hstep⟩ := Option.bind_eq_some_iff.mp h
    rw [tame, hv, Bool.and_eq_true] at ht
    exact (ih hv ht.1).step ht.2 hstep

/-- A session from its negotiation to the free of its control block. -/
def oneSession : List Action :=
  [.pppapiFree, .test, .wait, .wait, .wait, .wait, .callback .user, .wait, .pppCloseAndFree, .callback .none,
    .pppNegotiation 0, .pppInit (some 1)]

theorem sound_oneSession : Sound oneSession { adapter := { state := .disconnected } } :=
  sound_of_tame (by decide) (by decide)

/-- A lost peer is not recorded. -/
def lostPeer : List Action := [.callback .peerdead, .callback .none, .pppNegotiation 0, .pppInit (some 1)]

/-- A second session, freed while it is being set up: the adapter is still
disconnected from the first. -/
def staleSession : List Action :=
  [.pppapiFree, .test, .wait, .wait, .wait, .wait, .wait, .pppCloseAndFree, .pppNegotiation 0,
    .callback .user, .pppClose, .callback .none, .pppNegotiation 0, .pppInit (some 1)]

theorem record_unsound :
    (∃ w, exec lostPeer = some w ∧ wellReported lostPeer = true ∧ w.adapter.state = .connected ∧
      lastCallback lostPeer = some .peerdead) ∧
    (∃ w past, exec staleSession = some w ∧ wellReported staleSession = true ∧ staleSession = .pppapiFree :: past ∧
      sessionEnded past = false) :=
  ⟨⟨_, rfl, rfl, rfl, rfl⟩, ⟨_, _, rfl, rfl, rfl, rfl⟩⟩

end PPPAdapter

end FEmbed
