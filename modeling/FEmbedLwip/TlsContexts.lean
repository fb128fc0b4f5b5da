/-
The contexts of mbedTLS over the life of a `TCPClientSecure`: what is
initialised, and what is freed.

`ssl`, `sslConfig` and `ctrDrbg` are initialised by the constructor, `entropy`
by the second stage of `start_ssl_client`, the contexts of the certificates and
of the key by the third and the fourth, each if it is given. `stop` frees the
first four whatever was initialised; the last three are freed by a verification
that passes, each if it is given, and nowhere else.

`startSslClient_ran` says how far a run came. From it `connect_adds` has the
calls that a `connect` makes in the four ways it can end, and the invariant of
a life (`Kept`) is kept by the operations that meet `Meets`.
-/
import FEmbedLwip.SecureFacts
import FEmbedLwip.TlsCalls
import FEmbedLwip.Typestate

namespace FEmbed

open Live Typestate

variable {σ : Type}

/-- The contexts of the certificates and of the private key. -/
def TlsContext.Credential : TlsContext → Prop
  | .caCert | .clientCert | .clientKey => True
  | .ssl | .sslConfig | .ctrDrbg | .entropy => False

instance : DecidablePred TlsContext.Credential
  | .caCert | .clientCert | .clientKey => .isTrue trivial
  | .ssl | .sslConfig | .ctrDrbg | .entropy => .isFalse id

def TlsCall.event : TlsCall → Option (Event TlsContext)
  | .init c => some (.init c)
  | .free c => some (.free c)
  | .read _ _ | .bytesAvail | .write _ => none

/-- What a record says of the contexts. -/
def contextEvents (log : List TlsCall) : List (Event TlsContext) := log.filterMap TlsCall.event

/-- The phases of the contexts after a record. -/
def phases (log : List TlsCall) : TlsContext → Phase := after fresh (contextEvents log)

theorem phases_append {log cs : List TlsCall} : phases (log ++ cs) = after (phases log) (contextEvents cs) := by
  rw [phases, contextEvents, List.filterMap_append, after_append]
  rfl

/-! ## How far `start_ssl_client` came -/

section Stages

variable {S : Type}

/-- The stages, one after the other, lead from `s` to `t`. -/
inductive Passed : List (Prog S (Except Int Unit)) → S → S → Prop
  | nil {s} : Passed [] s s
  | cons {x xs s t u} : x.Returns s (.ok ()) t → Passed xs t u → Passed (x :: xs) s u

/-- The first `n` stages pass, and the next ends the function with `ret`. -/
inductive Stopped : List (Prog S (Except Int Unit)) → Nat → S → Int → S → Prop
  | here {x xs s ret t} : x.Returns s (.error ret) t → Stopped (x :: xs) 0 s ret t
  | later {x xs n s t ret u} : x.Returns s (.ok ()) t → Stopped xs n t ret u → Stopped (x :: xs) (n + 1) s ret u

variable {x : Prog S (Except Int Unit)} {xs : List (Prog S (Except Int Unit))} {s s' t : S} {ret : Int} {n m : Nat}

theorem Stopped.lt (h : Stopped xs n s ret t) : n < xs.length := by
  induction h with
  | here => exact Nat.succ_pos _
  | later _ _ ih => exact Nat.succ_lt_succ ih

/-- No further stage is passed than those before the one that stopped. -/
theorem Stopped.passed_le (h : Stopped xs n s ret t) (hp : Passed (xs.take m) s s') (hm : m ≤ xs.length) : m ≤ n := by
  induction h generalizing m with
  | here hx =>
    cases m with
    | zero => exact Nat.le_refl 0
    | succ m =>
      cases hp with
      | cons hx' _ => exact nomatch (hx.det hx').1
  | later hx _ ih =>
    cases m with
    | zero => exact Nat.zero_le _
    | succ m =>
      cases hp with
      | cons hx' hp =>
        obtain ⟨_, rfl⟩ := hx.det hx'
        exact Nat.succ_le_succ (ih hp (Nat.le_of_succ_le_succ hm))

theorem Stopped.passed (h : Stopped xs n s ret t) (hm : m ≤ n) : ∃ u, Passed (xs.take m) s u := by
  induction h generalizing m with
  | here =>
    obtain rfl := Nat.le_zero.mp hm
    exact ⟨_, .nil⟩
  | later hx _ ih =>
    cases m with
    | zero => exact ⟨_, .nil⟩
    | succ m =>
      obtain ⟨u, hu⟩ := ih (Nat.le_of_succ_le_succ hm)
      exact ⟨u, .cons hx hu⟩

theorem Passed.take (h : Passed xs s t) : ∃ u, Passed (xs.take m) s u := by
  induction h generalizing m with
  | nil =>
    rw [List.take_nil]
    exact ⟨_, .nil⟩
  | cons hx _ ih =>
    cases m with
    | zero => exact ⟨_, .nil⟩
    | succ m =>
      obtain ⟨u, hu⟩ := ih (m := m)
      exact ⟨u, .cons hx hu⟩

theorem Passed.det {t' : S} (h : Passed xs s t) (h' : Passed xs s t') : t = t' := by
  induction h with
  | nil =>
    cases h'
    rfl
  | cons hx _ ih =>
    cases h' with
    | cons hx' h' =>
      obtain ⟨_, rfl⟩ := hx.det hx'
      exact ih h'

/-- A stage and what follows it. -/
theorem stage_returns {rest : Prog S Int}
    (h : (do
      if let .error e ← x then
        return e
      rest : Prog S Int).Returns s ret s') :
    x.Returns s (.error ret) s' ∨ ∃ t, x.Returns s (.ok ()) t ∧ rest.Returns t ret s' := by
  obtain ⟨r, t, hx, h⟩ := Prog.returns_bind.mp h
  cases r with
  | error e =>
    obtain ⟨rfl, rfl⟩ := Prog.returns_pure.mp h
    exact .inl hx
  | ok _ => exact .inr ⟨t, hx, h⟩

end Stages

/-- What `start_ssl_client` is called with. -/
structure Dial where
  host : Bytes
  port : Nat
  timeout : Int
  rootCABuff : Option Bytes := none
  cliCert : Option Bytes := none
  cliKey : Option Bytes := none
  pskIdent : Option Bytes := none
  psKey : Option Bytes := none
  deriving DecidableEq, Repr

namespace Dial

variable (p : Platform σ) (d : Dial)

def start : Prog (Live σ SslContext) Int :=
  SslContext.startSslClient p d.host d.port d.timeout d.rootCABuff d.cliCert d.cliKey d.pskIdent d.psKey

def stages : List (Prog (Live σ SslContext) (Except Int Unit)) :=
  [SslContext.openSocket p d.host d.port d.timeout, SslContext.seedAndDefaults p,
    SslContext.setPeerAuth p d.rootCABuff d.pskIdent d.psKey, SslContext.setOwnCert p d.cliCert d.cliKey,
    SslContext.setup p d.host, SslContext.handshake p]

/-- The flags of the verification after the handshake. -/
def flags (e : σ) : Nat :=
  if d.cliCert.isSome ∧ d.cliKey.isSome then (p.tls.sslGetVerifyResult (p.tls.sslGetRecordExpansion e).2).1
  else (p.tls.sslGetVerifyResult e).1

/-- The first `n` stages pass. -/
def Reaches (n : Nat) (s : Live σ SslContext) : Prop := ∃ t, Passed ((d.stages p).take n) s t

/-- All stages pass, and the peer is verified. -/
def Verified (s : Live σ SslContext) : Prop := ∃ t, Passed (d.stages p) s t ∧ d.flags p t.env = 0

variable {p d} {s s' : Live σ SslContext} {ret : Int}

theorem start_ran (h : (d.start p).Returns s ret s') :
    (∃ n, Stopped (d.stages p) n s ret s') ∨
      ∃ t, Passed (d.stages p) s t ∧ (SslContext.verifyPeer p d.rootCABuff d.cliCert d.cliKey).Returns
        ⟨{ t.self with session := some d.rootCABuff }, t.env⟩ ret s' := by
  rcases stage_returns h with h₁ | ⟨t₁, h₁, h⟩
  · exact .inl ⟨0, .here h₁⟩
  rcases stage_returns h with h₂ | ⟨t₂, h₂, h⟩
  · exact .inl ⟨1, .later h₁ (.here h₂)⟩
  rcases stage_returns h with h₃ | ⟨t₃, h₃, h⟩
  · exact .inl ⟨2, .later h₁ (.later h₂ (.here h₃))⟩
  rcases stage_returns h with h₄ | ⟨t₄, h₄, h⟩
  · exact .inl ⟨3, .later h₁ (.later h₂ (.later h₃ (.here h₄)))⟩
  rcases stage_returns h with h₅ | ⟨t₅, h₅, h⟩
  · exact .inl ⟨4, .later h₁ (.later h₂ (.later h₃ (.later h₄ (.here h₅))))⟩
  rcases stage_returns h with h₆ | ⟨t₆, h₆, h⟩
  · exact .inl ⟨5, .later h₁ (.later h₂ (.later h₃ (.later h₄ (.later h₅ (.here h₆)))))⟩
  rw [returns_set_bind] at h
  exact .inr ⟨t₆, .cons h₁ (.cons h₂ (.cons h₃ (.cons h₄ (.cons h₅ (.cons h₆ .nil))))), h⟩

end Dial

/-! ## The calls of the stages -/

/-- `x` adds the calls `cs` to the record, however it returns. -/
def Adds {O α : Type} (x : Prog (Live (σ × List TlsCall) O) α) (cs : List TlsCall) : Prop :=
  ∀ s a s', x.Returns s a s' → s'.env.2 = s.env.2 ++ cs

/-- The record stays as it is. -/
def unchanged {O : Type} : Prog.Guarantee (Live (σ × List TlsCall) O) := .same (·.env.2)

section Adds

variable {O α : Type} {cs ds : List TlsCall}

theorem Adds.of_unchanged {x : Prog (Live (σ × List TlsCall) O) α} (h : x.Guarantees unchanged) : Adds x [] := by
  intro s a s' hx
  rw [List.append_nil]
  exact h s a s' hx

theorem Adds.tell {g : σ → σ} {c : TlsCall} {f : Unit → Prog (Live (σ × List TlsCall) O) α} (h : Adds (f ()) cs) :
    Adds (tell (noted g c) >>= f) (c :: cs) := by
  intro s a s' hx
  rw [returns_tell_bind] at hx
  rw [h _ a s' hx]
  exact List.append_assoc ..

theorem unchanged_call {β : Type} {f : σ → β × σ} : (call (unrecorded f)).Guarantees (unchanged (O := O)) :=
  guarantees_call fun _ => rfl

theorem unchanged_tell {f : σ → σ} : (tell (unnoted f)).Guarantees (unchanged (O := O)) := guarantees_tell fun _ => rfl

theorem unchanged_set {f : O → O} : (set f).Guarantees (unchanged (σ := σ)) := guarantees_set fun _ => rfl

end Adds

section Calls

variable {p : Platform σ}

theorem hostByName_unchanged {O : Type} {host : Bytes} :
    (TCPClient.hostByName p.watched.lwip host).Guarantees (unchanged (O := O)) := by
  intro s srv s' h
  rcases TCPClient.hostByName_returns h with rfl | rfl
  · rfl
  · rfl

theorem openSocket_adds {host : Bytes} {port : Nat} {timeout : Int} :
    Adds (SslContext.openSocket p.watched host port timeout) [] := by
  refine .of_unchanged (.bind unchanged_set fun _ => .bind unchanged_call fun fd => .bind unchanged_set fun _ => ?_)
  refine .ite .pure (.bind hostByName_unchanged fun srv => ?_)
  cases srv with
  | none => exact .pure
  | some srv =>
    refine .bind unchanged_call fun rc => .ite ?_ .pure
    exact .bind unchanged_call fun _ => .bind unchanged_call fun _ => .bind unchanged_call fun _ =>
      .bind unchanged_call fun _ => .bind unchanged_tell fun _ => .pure

theorem seedAndDefaults_adds : Adds (SslContext.seedAndDefaults p.watched) [.init .entropy] := by
  refine .tell (.of_unchanged (.bind unchanged_call fun _ => .ite .pure ?_))
  exact .bind unchanged_call fun _ => .ite .pure .pure

theorem setPeerAuth_adds {rootCABuff pskIdent psKey : Option Bytes} :
    Adds (SslContext.setPeerAuth p.watched rootCABuff pskIdent psKey) (if rootCABuff.isSome then [.init .caCert] else []) := by
  cases rootCABuff with
  | some ca =>
    refine .tell (.of_unchanged (.bind unchanged_tell fun _ => .bind unchanged_call fun _ => ?_))
    exact .bind unchanged_tell fun _ => .ite .pure .pure
  | none =>
    refine .of_unchanged ?_
    cases pskIdent with
    | none => exact .bind unchanged_tell fun _ => .pure
    | some ident =>
      cases psKey with
      | none => exact .bind unchanged_tell fun _ => .pure
      | some key =>
        unfold SslContext.setPeerAuth
        refine .ite .pure ?_
        cases SslContext.decodePsk key with
        | none => exact .pure
        | some psk => exact .bind unchanged_call fun _ => .ite .pure .pure

theorem setOwnCert_adds {cliCert cliKey : Option Bytes} : Adds (SslContext.setOwnCert p.watched cliCert cliKey)
    (if cliCert.isSome ∧ cliKey.isSome then [.init .clientCert, .init .clientKey] else []) := by
  cases cliCert with
  | none => exact .of_unchanged .pure
  | some cert =>
    cases cliKey with
    | none => exact .of_unchanged .pure
    | some key =>
      refine .tell (.tell (.of_unchanged (.bind unchanged_call fun _ => .ite .pure ?_)))
      exact .bind unchanged_call fun _ => .ite .pure (.bind unchanged_tell fun _ => .pure)

theorem setup_adds {host : Bytes} : Adds (SslContext.setup p.watched host) [] := by
  refine .of_unchanged (.bind unchanged_call fun _ => .ite .pure (.bind unchanged_tell fun _ => ?_))
  exact .bind unchanged_call fun _ => .ite .pure (.bind guarantees_obj fun _ => .bind unchanged_tell fun _ => .pure)

theorem handshake_adds : Adds (SslContext.handshake p.watched) [] := by
  refine .of_unchanged (.bind unchanged_call fun _ => .loop (fun _ => ?_) ())
  refine .bind unchanged_call fun _ => .ite .pure (.ite .pure (.bind unchanged_call fun _ => ?_))
  exact .bind guarantees_obj fun _ => .ite .pure (.bind unchanged_tell fun _ => .pure)

end Calls

/-! ## The calls of `connect` and of `stop` -/

/-- The calls of `stop`. -/
def stopCalls : List TlsCall := [.free .ssl, .free .sslConfig, .free .ctrDrbg, .free .entropy]

section Stopping

variable {p : Platform σ} {O α : Type} {cs : List TlsCall} {x y : Prog (Live (σ × List TlsCall) O) α}

theorem freed_adds {e : σ × List TlsCall} : (SslContext.freed p.watched.tls e).2 = e.2 ++ stopCalls := by
  simp [SslContext.freed, Platform.watched, MbedTls.watched, noted, stopCalls]

theorem stopSslSocket_adds : Adds (SslContext.stopSslSocket p.watched) stopCalls := by
  intro s a s' h
  by_cases hs : 0 ≤ s.self.socket
  · obtain ⟨_, rfl⟩ := h.det (SslContext.stopSslSocket_open hs)
    exact freed_adds
  · obtain ⟨_, rfl⟩ := h.det (SslContext.stopSslSocket_closed (Int.not_le.mp hs))
    exact freed_adds

theorem stop_adds : Adds (TCPClientSecure.stop p.watched) stopCalls := by
  intro s a s' h
  rw [TCPClientSecure.stop_returns.mp h, TCPClientSecure.stopped]
  split
  · exact freed_adds
  · exact freed_adds

/-- A call that is made if `c` holds, and what follows. -/
theorem Adds.tellIf {c : Prop} [Decidable c] {g : σ → σ} {k : TlsCall} (hx : Adds x cs) :
    Adds (if c then Live.tell (noted g k) >>= fun _ => x else x) ((if c then [k] else []) ++ cs) := by
  split
  · exact .tell hx
  · exact hx

end Stopping

theorem Passed.adds {xs : List (Prog (Live (σ × List TlsCall) SslContext) (Except Int Unit))} {css : List (List TlsCall)}
    {s t : Live (σ × List TlsCall) SslContext} (h : Passed xs s t) (hc : List.Forall₂ Adds xs css) :
    t.env.2 = s.env.2 ++ css.flatten := by
  induction h generalizing css with
  | nil =>
    cases hc
    exact (List.append_nil _).symm
  | cons hx _ ih =>
    cases hc with
    | cons hadds hc => rw [ih hc, hadds _ _ _ hx, List.flatten_cons, List.append_assoc]

theorem Stopped.adds {xs : List (Prog (Live (σ × List TlsCall) SslContext) (Except Int Unit))} {css : List (List TlsCall)}
    {n : Nat} {ret : Int} {s t : Live (σ × List TlsCall) SslContext} (h : Stopped xs n s ret t)
    (hc : List.Forall₂ Adds xs css) : t.env.2 = s.env.2 ++ (css.take (n + 1)).flatten := by
  induction h generalizing css with
  | here hx =>
    cases hc with
    | cons hadds _ => rw [hadds _ _ _ hx]; simp
  | later hx _ ih =>
    cases hc with
    | cons hadds hc => rw [ih hc, hadds _ _ _ hx, List.take_succ_cons, List.flatten_cons, List.append_assoc]

namespace Dial

variable {p : Platform σ} {d : Dial} {s s' t : Live (σ × List TlsCall) SslContext} {ret : Int} {n : Nat}

/-- The calls of the stages. -/
def stageCalls (d : Dial) : List (List TlsCall) :=
  [[], [.init .entropy], if d.rootCABuff.isSome then [.init .caCert] else [],
    if d.cliCert.isSome ∧ d.cliKey.isSome then [.init .clientCert, .init .clientKey] else [], [], []]

theorem stages_add : List.Forall₂ Adds (d.stages p.watched) d.stageCalls :=
  .cons openSocket_adds <| .cons seedAndDefaults_adds <| .cons setPeerAuth_adds <| .cons setOwnCert_adds <|
    .cons setup_adds <| .cons handshake_adds .nil

/-- The stages up to one that stops, where no credential has been loaded. -/
theorem stageCalls_take (hn : 1 ≤ n) (hca : 2 ≤ n → d.rootCABuff.isSome = false)
    (hown : 3 ≤ n → ¬ (d.cliCert.isSome ∧ d.cliKey.isSome)) : (d.stageCalls.take (n + 1)).flatten = [.init .entropy] := by
  match n with
  | 1 => rfl
  | 2 => simp [stageCalls, hca]
  | 3 => simp [stageCalls, hca, hown]
  | 4 => simp [stageCalls, hca, hown]
  | n + 5 => simp [stageCalls, hca, hown (Nat.le_add_left 3 (n + 2))]

/-- The frees of a verification that passes. -/
def releases (d : Dial) : List TlsCall :=
  (if d.rootCABuff.isSome then [.free .caCert] else []) ++
    ((if d.cliCert.isSome then [.free .clientCert] else []) ++ (if d.cliKey.isSome then [.free .clientKey] else []))

theorem verification_adds {ret' : Int}
    (h : (do
      let flags ← call p.watched.tls.sslGetVerifyResult
      if flags ≠ 0 then
        SslContext.stopSslSocket p.watched
        return ret'
      if d.rootCABuff.isSome then
        tell (p.watched.tls.free .caCert)
      if d.cliCert.isSome then
        tell (p.watched.tls.free .clientCert)
      if d.cliKey.isSome then
        tell (p.watched.tls.free .clientKey)
      return (← obj).socket : Prog (Live (σ × List TlsCall) SslContext) Int).Returns s ret s') :
    ((p.watched.tls.sslGetVerifyResult s.env).1 = 0 ∧ s'.env.2 = s.env.2 ++ d.releases) ∨
      ((p.watched.tls.sslGetVerifyResult s.env).1 ≠ 0 ∧ s'.env.2 = s.env.2 ++ stopCalls) := by
  rw [returns_call_bind, Prog.returns_ite] at h
  rcases h with ⟨hflags, h⟩ | ⟨hflags, h⟩
  · obtain ⟨_, t, hstop, h⟩ := Prog.returns_bind.mp h
    obtain ⟨_, rfl⟩ := Prog.returns_pure.mp h
    have hadds := stopSslSocket_adds _ _ _ hstop
    exact .inr ⟨hflags, hadds⟩
  · refine .inl ⟨Decidable.not_not.mp hflags, ?_⟩
    have hlast : Adds (obj >>= fun c => pure c.socket : Prog (Live (σ × List TlsCall) SslContext) Int) [] :=
      .of_unchanged (.bind guarantees_obj fun _ => .pure)
    have hadds := Adds.tellIf (c := d.rootCABuff.isSome) (g := p.tls.free .caCert) (k := .free .caCert) <|
      .tellIf (c := d.cliCert.isSome) (g := p.tls.free .clientCert) (k := .free .clientCert) <|
      .tellIf (c := d.cliKey.isSome) (g := p.tls.free .clientKey) (k := .free .clientKey) hlast
    rw [List.append_nil] at hadds
    have hend := hadds _ _ _ h
    exact hend

theorem verifyPeer_adds (h : (SslContext.verifyPeer p.watched d.rootCABuff d.cliCert d.cliKey).Returns s ret s') :
    (d.flags p.watched s.env = 0 ∧ s'.env.2 = s.env.2 ++ d.releases) ∨
      (d.flags p.watched s.env ≠ 0 ∧ s'.env.2 = s.env.2 ++ stopCalls) := by
  rw [SslContext.verifyPeer, Prog.returns_ite] at h
  unfold flags
  rcases h with ⟨hown, h⟩ | ⟨hown, h⟩
  · rw [returns_call_bind] at h
    rw [if_pos hown]
    exact verification_adds h
  · rw [if_neg hown]
    exact verification_adds h

end Dial

/-! ## Phases -/

/-- The phases between two operations: what the constructor initialises was
initialised, and no credential is. -/
structure Rested (phase : TlsContext → Phase) : Prop where
  ssl : phase .ssl ≠ .never
  sslConfig : phase .sslConfig ≠ .never
  ctrDrbg : phase .ctrDrbg ≠ .never
  credential : ∀ c : TlsContext, c.Credential → phase c ≠ .initialised

/-- Everything that `stop` frees was initialised. -/
structure Ready (phase : TlsContext → Phase) : Prop extends Rested phase where
  entropy : phase .entropy ≠ .never

theorem TlsContext.forall_credential {P : TlsContext → Prop} :
    (∀ c : TlsContext, c.Credential → P c) ↔ P .caCert ∧ P .clientCert ∧ P .clientKey := by
  refine ⟨fun h => ⟨h _ trivial, h _ trivial, h _ trivial⟩, fun ⟨hca, hcert, hkey⟩ c hc => ?_⟩
  cases c with
  | caCert => exact hca
  | clientCert => exact hcert
  | clientKey => exact hkey
  | ssl | sslConfig | ctrDrbg | entropy => exact hc.elim

section Phases

variable {phase : TlsContext → Phase} {log cs : List TlsCall}

theorem Rested.stop (h : Rested phase) (he : phase .entropy ≠ .never) :
    Lawful TlsContext.Credential phase (contextEvents stopCalls) ∧ Ready (after phase (contextEvents stopCalls)) := by
  have hstop : contextEvents stopCalls = [.free .ssl, .free .sslConfig, .free .ctrDrbg, .free .entropy] := rfl
  rw [hstop]
  refine ⟨by simp [next, h.ssl, h.sslConfig, h.ctrDrbg, he], ⟨by simp [next], by simp [next], by simp [next], ?_⟩, by simp [next]⟩
  simpa [next, TlsContext.forall_credential] using h.credential

theorem Rested.seeded (h : Rested phase) : Ready (next phase (.init .entropy)) := by
  refine ⟨⟨?_, ?_, ?_, ?_⟩, by simp [next]⟩
  · simpa [next] using h.ssl
  · simpa [next] using h.sslConfig
  · simpa [next] using h.ctrDrbg
  · simpa [next, TlsContext.forall_credential] using h.credential

/-- The calls of a `connect` whose peer is verified: of a credential that is
given alone, the free has no init before it. -/
theorem Rested.verified (h : Rested phase) {d : Dial}
    (hcert : d.cliCert.isSome → d.cliKey.isSome = false → phase .clientCert ≠ .never)
    (hkey : d.cliKey.isSome → d.cliCert.isSome = false → phase .clientKey ≠ .never) :
    Lawful TlsContext.Credential phase (contextEvents (d.stageCalls.flatten ++ d.releases)) ∧
      Ready (after phase (contextEvents (d.stageCalls.flatten ++ d.releases))) := by
  obtain ⟨hca, hown, hpk⟩ := TlsContext.forall_credential.mp h.credential
  have hssl := h.ssl
  have hconfig := h.sslConfig
  have hdrbg := h.ctrDrbg
  obtain ⟨_, _, _, ca, cert, key, _, _⟩ := d
  rw [and_comm]
  cases ca <;> cases cert <;> cases key <;>
  · refine ⟨⟨⟨?_, ?_, ?_, TlsContext.forall_credential.mpr ?_⟩, ?_⟩, ?_⟩ <;>
    simp_all [contextEvents, TlsCall.event, TlsContext.Credential, Dial.stageCalls, Dial.releases, next]

end Phases

/-! ## `connect` -/

namespace Dial

variable {p : Platform σ} {d : Dial} {s t : Live (σ × List TlsCall) SslContext} {ret : Int}

/-- What keeps a `connect` from breaking the order of the contexts: either an
earlier one initialised `entropy`, or this one gets that far; what is loaded of
a credential is followed by a verification that passes; and a credential that
is given alone, which only the verification frees, was loaded earlier. -/
structure Clean (p : Platform σ) (d : Dial) (s : Live (σ × List TlsCall) SslContext) : Prop where
  entropy : phases s.env.2 .entropy = .never → d.Reaches p.watched 1 s
  caCert : d.rootCABuff.isSome → d.Reaches p.watched 2 s → d.Verified p.watched s
  ownCert : d.cliCert.isSome ∧ d.cliKey.isSome → d.Reaches p.watched 3 s → d.Verified p.watched s
  certAlone : d.cliCert.isSome → d.cliKey.isSome = false → d.Verified p.watched s → phases s.env.2 .clientCert ≠ .never
  keyAlone : d.cliKey.isSome → d.cliCert.isSome = false → d.Verified p.watched s → phases s.env.2 .clientKey ≠ .never

/-- A clean `start_ssl_client` makes lawful calls, and everything `stop` frees
is initialised after it. -/
theorem Clean.start (hc : d.Clean p s) (hr : Rested (phases s.env.2)) (h : (d.start p.watched).Returns s ret t) :
    ∃ cs, t.env.2 = s.env.2 ++ cs ∧ Lawful TlsContext.Credential (phases s.env.2) (contextEvents cs) ∧
      Ready (phases t.env.2) := by
  rcases start_ran h with ⟨n, hstop⟩ | ⟨u, hpass, hverify⟩
  · have hadds := hstop.adds stages_add
    have hunverified : ¬ d.Verified p.watched s := fun ⟨u, hu, _⟩ =>
      absurd (hstop.passed_le (m := 6) hu (Nat.le_refl 6)) (Nat.not_le.mpr hstop.lt)
    by_cases hn : n = 0
    · subst hn
      have hadds : t.env.2 = s.env.2 := hadds.trans (List.append_nil _)
      refine ⟨[], by rw [hadds, List.append_nil], trivial, hadds ▸ ⟨hr, fun hnever => ?_⟩⟩
      obtain ⟨u, hu⟩ := hc.entropy hnever
      exact absurd (hstop.passed_le hu (show 1 ≤ 6 by decide)) (by decide)
    · rw [stageCalls_take (Nat.pos_of_ne_zero hn) (fun h2 => ?_) (fun h3 hown => ?_)] at hadds
      · exact ⟨_, hadds, ⟨nofun, trivial⟩, by rw [hadds, phases_append]; exact hr.seeded⟩
      · exact Bool.eq_false_iff.mpr fun hca => hunverified (hc.caCert hca (hstop.passed h2))
      · exact hunverified (hc.ownCert hown (hstop.passed h3))
  · have hadds : u.env.2 = s.env.2 ++ d.stageCalls.flatten := hpass.adds stages_add
    rcases verifyPeer_adds hverify with ⟨hflags, hend⟩ | ⟨hflags, hend⟩
    · have hv : d.Verified p.watched s := ⟨u, hpass, hflags⟩
      have hend : t.env.2 = s.env.2 ++ (d.stageCalls.flatten ++ d.releases) := by
        rw [← List.append_assoc, ← hadds]
        exact hend
      obtain ⟨hlawful, hready⟩ := hr.verified (d := d) (fun hs hn => hc.certAlone hs hn hv) fun hs hn => hc.keyAlone hs hn hv
      exact ⟨_, hend, hlawful, by rw [hend, phases_append]; exact hready⟩
    · have hunverified : ¬ d.Verified p.watched s := fun ⟨u', hu', h0⟩ => by
        obtain rfl := hpass.det hu'
        exact hflags h0
      have hcalls : d.stageCalls.flatten = [.init .entropy] := by
        refine stageCalls_take (n := 5) (by decide) (fun _ => ?_) fun _ hown => ?_
        · exact Bool.eq_false_iff.mpr fun hca => hunverified (hc.caCert hca hpass.take)
        · exact hunverified (hc.ownCert hown hpass.take)
      have hend : t.env.2 = s.env.2 ++ .init .entropy :: stopCalls := by
        have hu : u.env.2 ++ stopCalls = s.env.2 ++ .init .entropy :: stopCalls := by
          rw [hadds, hcalls, List.append_assoc, List.singleton_append]
        exact hend.trans hu
      have hseeded := hr.seeded
      obtain ⟨hlawful, hready⟩ := hseeded.toRested.stop hseeded.entropy
      exact ⟨_, hend, ⟨nofun, hlawful⟩, by rw [hend, phases_append]; exact hready⟩

end Dial

/-! ## Lives -/

/-- The operations on a `TCPClientSecure` between its constructor and its destructor. -/
inductive TlsOp where
  | connectCert (host : Bytes) (port : Nat) (rootCABuff cliCert cliKey : Option Bytes)
  | connectPsk (host : Bytes) (port : Nat) (pskIdent psKey : Option Bytes)
  | connectHost (host : Bytes) (port : Nat)
  | connect (host : Bytes) (port : Nat) (timeout : Int)
  | stop
  | setHandshakeTimeout (seconds : Nat)
  | setCACert (rootCA : Option Bytes)
  | setCertificate (clientCa : Option Bytes)
  | setPrivateKey (privateKey : Option Bytes)
  | setPreSharedKey (pskIdent psKey : Option Bytes)
  deriving DecidableEq, Repr

namespace TlsOp

open TCPClientSecure (starting connectWith)

/-- The operation as a program; one that returns nothing gives 0. -/
def run (p : Platform σ) : TlsOp → Prog (Live σ TCPClientSecure) Int
  | connectCert host port rootCABuff cliCert cliKey => TCPClientSecure.connectCert p host port rootCABuff cliCert cliKey
  | connectPsk host port pskIdent psKey => TCPClientSecure.connectPsk p host port pskIdent psKey
  | connectHost host port => TCPClientSecure.connectHost p host port
  | connect host port timeout => TCPClientSecure.connect p host port timeout
  | stop => do
    TCPClientSecure.stop p
    return 0
  | setHandshakeTimeout seconds => do
    TCPClientSecure.setHandshakeTimeout seconds
    return 0
  | setCACert rootCA => do
    TCPClientSecure.setCACert rootCA
    return 0
  | setCertificate clientCa => do
    TCPClientSecure.setCertificate clientCa
    return 0
  | setPrivateKey privateKey => do
    TCPClientSecure.setPrivateKey privateKey
    return 0
  | setPreSharedKey pskIdent psKey => do
    TCPClientSecure.setPreSharedKey pskIdent psKey
    return 0

/-- The object as `start_ssl_client` finds it: `connect` with a timeout stores it first. -/
def caller : TlsOp → TCPClientSecure → TCPClientSecure
  | connect _ _ timeout, c => { c with _timeout := timeout }
  | _, c => c

/-- What `connect(host, port)` makes of the fields. -/
def hostDial (c : TCPClientSecure) (host : Bytes) (port : Nat) : Dial :=
  if c._pskIdent.isSome ∧ c._psKey.isSome then
    { host, port, timeout := c._timeout, pskIdent := c._pskIdent, psKey := c._psKey }
  else
    { host, port, timeout := c._timeout, rootCABuff := c._CA_cert, cliCert := c._cert, cliKey := c._private_key }

/-- What `start_ssl_client` is called with, if it is. -/
def dial : TlsOp → TCPClientSecure → Option Dial
  | connectCert host port rootCABuff cliCert cliKey, c =>
    some { host, port, timeout := c._timeout, rootCABuff, cliCert, cliKey }
  | connectPsk host port _ _, c => some { host, port, timeout := c._timeout, pskIdent := c._pskIdent, psKey := c._psKey }
  | connectHost host port, c | connect host port _, c => some (hostDial c host port)
  | _, _ => none

/-- A `connect` is clean, and a `stop` comes after `entropy` was initialised. -/
structure Meets (p : Platform σ) (op : TlsOp) (s : Live (σ × List TlsCall) TCPClientSecure) : Prop where
  dial : ∀ d, op.dial (op.caller s.self) = some d → d.Clean p ⟨starting (op.caller s.self), s.env⟩
  stop : op = .stop → phases s.env.2 .entropy ≠ .never

variable {p : Platform σ} {op : TlsOp}

theorem hostDial_returns {host : Bytes} {port : Nat} {s : Live σ TCPClientSecure} {r s'}
    (h : (TCPClientSecure.connectHost p host port).Returns s r s') :
    (connectWith p ((hostDial s.self host port).start p)).Returns s r s' := by
  rw [TCPClientSecure.connectHost, returns_obj_bind, Prog.returns_ite] at h
  unfold hostDial
  rcases h with ⟨hpsk, h⟩ | ⟨hpsk, h⟩
  · rw [if_pos hpsk]
    rw [TCPClientSecure.connectPsk, returns_obj_bind] at h
    exact h
  · rw [if_neg hpsk]
    rw [TCPClientSecure.connectCert, returns_obj_bind] at h
    exact h

theorem dial_returns {s : Live σ TCPClientSecure} {r s'} (h : (op.run p).Returns s r s') {d : Dial}
    (hd : op.dial (op.caller s.self) = some d) : (connectWith p (d.start p)).Returns ⟨op.caller s.self, s.env⟩ r s' := by
  cases op with
  | connectCert host port rootCABuff cliCert cliKey =>
    cases hd
    rw [run, TCPClientSecure.connectCert, returns_obj_bind] at h
    exact h
  | connectPsk host port pskIdent psKey =>
    cases hd
    rw [run, TCPClientSecure.connectPsk, returns_obj_bind] at h
    exact h
  | connectHost host port =>
    cases hd
    exact hostDial_returns h
  | connect host port timeout =>
    cases hd
    rw [run, TCPClientSecure.connect, returns_set_bind] at h
    have hdial := hostDial_returns h
    exact hdial
  | _ => cases hd

/-- The record, as the life so far leaves it. -/
structure Kept (log : List TlsCall) : Prop where
  lawful : Lawful TlsContext.Credential fresh (contextEvents log)
  rested : Rested (phases log)

theorem Kept.append {log cs : List TlsCall} (h : Kept log) (hcs : Lawful TlsContext.Credential (phases log) (contextEvents cs))
    (hr : Rested (phases (log ++ cs))) : Kept (log ++ cs) := by
  refine ⟨?_, hr⟩
  rw [contextEvents, List.filterMap_append]
  exact lawful_append.mpr ⟨h.lawful, hcs⟩

theorem Kept.stop {log : List TlsCall} (h : Kept log) (he : phases log .entropy ≠ .never) : Kept (log ++ stopCalls) := by
  obtain ⟨hlawful, hready⟩ := h.rested.stop he
  exact h.append hlawful (phases_append ▸ hready.toRested)

/-- A clean `connect` keeps the order. -/
theorem Kept.connect {s s' : Live (σ × List TlsCall) TCPClientSecure} {r : Int} {d : Dial} (h : Kept s.env.2)
    (hc : d.Clean p ⟨starting s.self, s.env⟩) (hr : (connectWith p.watched (d.start p.watched)).Returns s r s') :
    Kept s'.env.2 := by
  obtain ⟨ret, t, hstart, hend⟩ := TCPClientSecure.connectWith_returns hr
  obtain ⟨cs, hcs, hlawful, hready⟩ := hc.start h.rested hstart
  have ht : Kept t.env.2 := by
    rw [hcs]
    exact h.append hlawful (hcs ▸ hready.toRested)
  rcases hend with ⟨_, _, _, _, henv⟩ | ⟨_, _, _, _, _, henv⟩ | ⟨_, _, _, _, _, henv⟩
  · rw [henv]
    exact ht
  · rw [henv, freed_adds]
    exact ht.stop hready.entropy
  · rw [henv, freed_adds]
    exact ht.stop hready.entropy

/-- The step: an operation that meets its condition keeps the order. -/
theorem Kept.step {s s' : Live (σ × List TlsCall) TCPClientSecure} {r : Int} (h : Kept s.env.2) (hm : op.Meets p s)
    (hr : (op.run p.watched).Returns s r s') : Kept s'.env.2 := by
  cases hd : op.dial (op.caller s.self) with
  | some d => exact Kept.connect (s := ⟨op.caller s.self, s.env⟩) h (hm.dial d hd) (dial_returns hr hd)
  | none =>
    cases op with
    | stop =>
      obtain ⟨_, t, hstop, hr⟩ := Prog.returns_bind.mp hr
      obtain ⟨_, rfl⟩ := Prog.returns_pure.mp hr
      rw [stop_adds _ _ _ hstop]
      exact h.stop (hm.stop rfl)
    | setHandshakeTimeout _ | setCACert _ | setCertificate _ | setPrivateKey _ | setPreSharedKey _ _ =>
      obtain ⟨_, t, hset, hr⟩ := Prog.returns_bind.mp hr
      obtain ⟨_, rfl⟩ := Prog.returns_pure.mp hr
      rw [returns_set.mp hset]
      exact h
    | _ => exact nomatch hd

end TlsOp

namespace TCPClientSecure

variable {p : Platform σ}

/-- The calls of `ssl_init`. -/
def initCalls : List TlsCall := [.init .ssl, .init .sslConfig, .init .ctrDrbg]

theorem construct_adds {sock : Int} : Adds (construct p.watched sock) initCalls := by
  intro s a s' h
  rw [construct, returns_set_bind] at h
  obtain ⟨_, t, hssl, h⟩ := Prog.returns_bind.mp h
  obtain ⟨u, hinit, rfl⟩ := returns_ssl.mp hssl
  simp only [SslContext.sslInit, returns_tell_bind, returns_tell] at hinit
  rw [returns_set.mp h, hinit]
  simp [Platform.watched, MbedTls.watched, noted, initCalls]

theorem destroy_adds : Adds (destroy p.watched) stopCalls := by
  intro s a s' h
  obtain ⟨_, t, hstop, h⟩ := Prog.returns_bind.mp h
  have hrest : (do
      let c ← obj
      if c.socketFd ≥ 0 then
        tell (p.watched.lwip.shutdown c.socketFd)
        tell (p.watched.lwip.close c.socketFd) : Prog (Live (σ × List TlsCall) TCPClientSecure) Unit).Guarantees unchanged :=
    .bind guarantees_obj fun c => .ite (.bind unchanged_tell fun _ => unchanged_tell) .pure
  rw [show s'.env.2 = t.env.2 from hrest _ _ _ h]
  exact stop_adds _ _ _ hstop

theorem initCalls_kept : TlsOp.Kept initCalls where
  lawful := ⟨nofun, nofun, nofun, trivial⟩
  rested := ⟨by decide, by decide, by decide, TlsContext.forall_credential.mpr (by decide)⟩

/-- **The contexts of a `TCPClientSecure` are initialised and freed in order**
in every life whose `connect`s are clean and where each `stop`, and the
destructor, comes after a `connect` that initialised `entropy`. -/
theorem contexts_sound {c : TCPClientSecure} {e : σ} {sock : Int} {s₁ s₂ s₃ : Live (σ × List TlsCall) TCPClientSecure}
    {cs : List (Prog.Call (Live (σ × List TlsCall) TCPClientSecure) TlsOp Int)}
    (hnew : (construct p.watched sock).Returns ⟨c, e, []⟩ () s₁) (h : Prog.Calls (TlsOp.run p.watched) s₁ cs s₂)
    (hm : ∀ c ∈ cs, c.op.Meets p c.before) (hdel : (destroy p.watched).Returns s₂ () s₃)
    (he : phases s₂.env.2 .entropy ≠ .never) : Sound TlsContext.Credential (contextEvents s₃.env.2) := by
  have hborn : TlsOp.Kept s₁.env.2 := by
    rw [construct_adds _ _ _ hnew]
    exact initCalls_kept
  obtain ⟨_, hlast⟩ := h.keeps (I := fun s => TlsOp.Kept s.env.2) (fun c hc hm hk => hk.step hm hc) hm hborn
  have hend : TlsOp.Kept s₃.env.2 := by
    rw [destroy_adds _ _ _ hdel]
    exact hlast.stop he
  exact hend.lawful.sound hend.rested.credential

end TCPClientSecure

namespace ContextsDemo

open TCPClientSecure

/-- A client that was just made. -/
def born : Live (Unit × List TlsCall) TCPClientSecure := ⟨{ sslclient := { handshakeTimeout := 120000 } }, (), initCalls⟩

theorem born_new (flags : Nat) : (construct (steady flags).watched (-1)).Returns ⟨{}, (), []⟩ () born := ⟨0, rfl⟩

/-- `connect` with a certificate of the authority, and with one of the client and its key, if they are given. -/
def dialled (rootCABuff cliCert cliKey : Option Bytes) : TlsOp := .connectCert (bytes "h") 443 rootCABuff cliCert cliKey

def full : TlsOp := dialled (some (bytes "CA")) (some (bytes "crt")) (some (bytes "key"))

/-- The client after `op`, where the peer is verified with `flags`. -/
def ran (flags : Nat) (op : TlsOp) (s : Live (Unit × List TlsCall) TCPClientSecure) : Live (Unit × List TlsCall) TCPClientSecure :=
  ((op.run (steady flags).watched).run 3 s).2

def fullDial : Dial :=
  { host := bytes "h", port := 443, timeout := 0, rootCABuff := some (bytes "CA"), cliCert := some (bytes "crt"),
    cliKey := some (bytes "key") }

theorem full_meets : full.Meets (steady 0) born := by
  have hpass : ∃ t, Passed (fullDial.stages (steady 0).watched) ⟨starting born.self, born.env⟩ t ∧
      fullDial.flags (steady 0).watched t.env = 0 := by
    refine ⟨_, .cons (.of_run 3 (by decide +kernel)) <| .cons (.of_run 3 (by decide +kernel)) <|
      .cons (.of_run 3 (by decide +kernel)) <| .cons (.of_run 3 (by decide +kernel)) <|
      .cons (.of_run 3 (by decide +kernel)) <| .cons (.of_run 3 (by decide +kernel)) .nil, ?_⟩
    decide +kernel
  refine ⟨fun d hd => ?_, nofun⟩
  obtain rfl : fullDial = d := Option.some.inj hd
  exact ⟨fun _ => hpass.elim fun _ h => h.1.take, fun _ _ => hpass, fun _ _ => hpass, nofun, nofun⟩

/-- Connected with all credentials, stopped, and destroyed. -/
theorem full_sound : ∃ s, (destroy (steady 0).watched).Returns (ran 0 .stop (ran 0 full born)) () s ∧
    Sound TlsContext.Credential (contextEvents s.env.2) := by
  have hfull : (full.run (steady 0).watched).Returns born 1 (ran 0 full born) := .of_run 3 (by decide +kernel)
  have hstop : (TlsOp.stop.run (steady 0).watched).Returns (ran 0 full born) 0 (ran 0 .stop (ran 0 full born)) :=
    .of_run 3 (by decide +kernel)
  have hdel : (destroy (steady 0).watched).Returns (ran 0 .stop (ran 0 full born)) () _ := .of_run 3 (by decide +kernel)
  refine ⟨_, hdel, contexts_sound (born_new 0) (.cons (c := ⟨full, born, 1, _⟩) hfull (.cons (c := ⟨.stop, _, 0, _⟩) hstop .nil))
    (fun c hc => ?_) hdel (by decide +kernel)⟩
  cases hc with
  | head => exact full_meets
  | tail _ hc =>
    cases hc with
    | head => exact ⟨nofun, fun _ => by decide +kernel⟩
    | tail _ hc => exact nomatch hc

/-- `entropy` is freed though nothing ever connected; the certificate of the
authority is never freed where the peer is refused; and a certificate of the
client that is given without its key is freed though it was never loaded. -/
theorem contexts_unsound :
    (∃ s, (destroy (steady 0).watched).Returns born () s ∧ ¬ Sound TlsContext.Credential (contextEvents s.env.2)) ∧
    (∃ t s, ((dialled (some (bytes "CA")) none none).run (steady 8).watched).Returns born 1 t ∧
      (destroy (steady 8).watched).Returns t () s ∧ ¬ Sound TlsContext.Credential (contextEvents s.env.2)) ∧
    ∃ t s, ((dialled none (some (bytes "crt")) none).run (steady 0).watched).Returns born 1 t ∧
      (destroy (steady 0).watched).Returns t () s ∧ ¬ Sound TlsContext.Credential (contextEvents s.env.2) := by
  refine ⟨⟨_, .of_run 3 (by decide +kernel), fun h => ?_⟩,
    ⟨_, _, .of_run 3 (by decide +kernel), .of_run 3 (by decide +kernel), fun h => ?_⟩,
    ⟨_, _, .of_run 3 (by decide +kernel), .of_run 3 (by decide +kernel), fun h => ?_⟩⟩
  · refine h.initialised [.init .ssl, .init .sslConfig, .init .ctrDrbg, .free .ssl, .free .sslConfig, .free .ctrDrbg]
      .entropy [] ?_ rfl
    decide +kernel
  · obtain ⟨mid, rest, hrest, _⟩ := h.released [.init .ssl, .init .sslConfig, .init .ctrDrbg, .init .entropy] .caCert
      [.free .ssl, .free .sslConfig, .free .ctrDrbg, .free .entropy, .free .ssl, .free .sslConfig, .free .ctrDrbg, .free .entropy]
      trivial (by decide +kernel)
    have hmem : Event.free TlsContext.caCert ∈ mid ++ .free .caCert :: rest := by simp
    rw [← hrest] at hmem
    exact absurd hmem (by decide)
  · refine h.initialised [.init .ssl, .init .sslConfig, .init .ctrDrbg, .init .entropy] .clientCert
      [.free .ssl, .free .sslConfig, .free .ctrDrbg, .free .entropy] ?_ rfl
    decide +kernel

end ContextsDemo

end FEmbed
