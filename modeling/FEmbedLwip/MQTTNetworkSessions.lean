/-
What the networks of `MQTTClient-C` hold of the outside.

`NetworkConnectSSL` gives back what it has taken wherever it fails, but returns
what the last call gave. That is 1 when the credentials were taken and there is
no socket, as for a connection: `disconnect` then frees the context once more.
`sessions_owned_iff` is that nothing else goes wrong.
-/
import FEmbedLwip.MQTTNetwork

namespace FEmbed

open Live

namespace Network

variable {σ : Type} {p : NetworkPlatform σ}

/-! ## What connecting leaves -/

/-- What `disconnect` gives back. -/
def handles (n : Network) : List NetworkHandle :=
  match n.transport with
  | .esp => [.socket n.mySocket]
  | .espSsl => n.ssl.toList.map .ssl ++ [.socket n.mySocket] ++ n.ctx.toList.map .ctx

/-- There is something to verify or to be verified with, so that `retVal` is 1
when the socket is asked for. -/
def material (sslCck : SslCaCrtKey) : Bool := sslCck.cacrt.isSome || (sslCck.cert.isSome && sslCck.key.isSome)

/-- What the documentation says that these calls return. -/
structure Documented (p : NetworkPlatform σ) : Prop where
  connect : ∀ fd sAddr e, (p.connect fd sAddr e).1 ≤ 0
  sslConnect : ∀ ssl e, (p.sslConnect ssl e).1 ≤ 1
  privateKey : ∀ ctx key e, (p.sslCtxUsePrivateKeyASN1 ctx key e).1 = 0 ∨ (p.sslCtxUsePrivateKeyASN1 ctx key e).1 = 1

theorem exit1_returns {s : Live (σ × List NetworkCall) Network} {retVal rc : Int} {s'}
    (h : (exit1 p.recording retVal).Returns s rc s') :
    rc = retVal ∧ s'.self = s.self ∧ s'.env.2 = s.env.2 ++ [.ctxFree s.self.ctx] := by
  rw [exit1, returns_obj_bind, returns_tell_bind, Prog.returns_pure] at h
  obtain ⟨rfl, rfl⟩ := h
  exact ⟨rfl, rfl, rfl⟩

theorem exit2_returns {s : Live (σ × List NetworkCall) Network} {retVal rc : Int} {s'}
    (h : (exit2 p.recording retVal).Returns s rc s') :
    rc = retVal ∧ s'.self = s.self ∧ s'.env.2 = s.env.2 ++ [.close s.self.mySocket, .ctxFree s.self.ctx] := by
  rw [exit2, returns_obj_bind, returns_tell_bind] at h
  obtain ⟨hrc, hself, hlog⟩ := exit1_returns h
  refine ⟨hrc, hself, hlog.trans ?_⟩
  simp [NetworkPlatform.recording, noted]

theorem exit3_returns {s : Live (σ × List NetworkCall) Network} {retVal rc : Int} {s'}
    (h : (exit3 p.recording retVal).Returns s rc s') : rc = retVal ∧ s'.self = s.self ∧
      s'.env.2 = s.env.2 ++ [.sslFree s.self.ssl, .close s.self.mySocket, .ctxFree s.self.ctx] := by
  rw [exit3, returns_obj_bind, returns_tell_bind] at h
  obtain ⟨hrc, hself, hlog⟩ := exit2_returns h
  refine ⟨hrc, hself, hlog.trans ?_⟩
  simp [NetworkPlatform.recording, noted]

/-- How connecting ends. -/
inductive Connects (transport : Transport) (sslCck : SslCaCrtKey) (n : Network) (rc : Int) (log : List NetworkCall) : Prop
  /-- The network holds what it says. -/
  | held : rc = transport.connected → denied log = false → 0 ≤ n.mySocket → n.transport = transport →
      ledger log = some n.handles → Connects transport sslCck n rc log
  /-- It says that it is not connected, and holds nothing. -/
  | nothing : rc ≠ transport.connected → (transport = .espSsl → material sslCck = true → denied log = false) →
      ledger log = some [] → Connects transport sslCck n rc log
  /-- It says that it is connected, and holds nothing: the context that it made is
  freed. -/
  | refused {ctx : Nat} : rc = transport.connected → transport = .espSsl → n.transport = .espSsl → material sslCck = true →
      denied log = true → n.ctx = some ctx → .ctxNew (some ctx) ∈ log → ledger log = some [] → Connects transport sslCck n rc log

theorem recorded_bind {α β : Type} {f : σ → β × σ} {c : β → NetworkCall} {g : β → Prog (Live (σ × List NetworkCall) Network) α}
    {s : Live (σ × List NetworkCall) Network} {a : α} {s'} (h : (call (recorded f c) >>= g).Returns s a s') :
    ∃ b e, (∃ e₀, b = (f e₀).1) ∧ (g b).Returns ⟨s.self, e, s.env.2 ++ [c b]⟩ a s' :=
  ⟨_, _, ⟨_, rfl⟩, returns_call_bind.mp h⟩

theorem unrecorded_bind {α β : Type} {f : σ → β × σ} {g : β → Prog (Live (σ × List NetworkCall) Network) α}
    {s : Live (σ × List NetworkCall) Network} {a : α} {s'} (h : (call (unrecorded f) >>= g).Returns s a s') :
    ∃ b e, (g b).Returns ⟨s.self, e, s.env.2⟩ a s' :=
  ⟨_, _, returns_call_bind.mp h⟩

theorem noted_bind {α : Type} {f : σ → σ} {c : NetworkCall} {g : Unit → Prog (Live (σ × List NetworkCall) Network) α}
    {s : Live (σ × List NetworkCall) Network} {a : α} {s'} (h : (tell (noted f c) >>= g).Returns s a s') :
    ∃ e, (g ()).Returns ⟨s.self, e, s.env.2 ++ [c]⟩ a s' :=
  ⟨_, returns_tell_bind.mp h⟩

theorem networkConnect_connects (hp : Documented p) {sslCck : SslCaCrtKey} {addr : Bytes} {port : Int}
    {s : Live (σ × List NetworkCall) Network} (hs : s.self.transport = .esp) {rc : Int} {s'}
    (h : (networkConnect p.recording addr port).Returns s rc s') :
    ∃ log, s'.env.2 = s.env.2 ++ log ∧ Connects .esp sslCck s'.self rc log := by
  obtain ⟨ip, e, h⟩ := unrecorded_bind h
  cases ip with
  | none =>
    obtain ⟨rfl, rfl⟩ := Prog.returns_pure.mp h
    exact ⟨[], by simp, .nothing (by decide) (by simp) rfl⟩
  | some ip =>
    obtain ⟨fd, e, -, h⟩ := recorded_bind h
    rw [returns_set_bind] at h
    rcases Prog.returns_ite.mp h with ⟨hfd, h⟩ | ⟨hfd, h⟩
    · obtain ⟨rfl, rfl⟩ := Prog.returns_pure.mp h
      refine ⟨[.socket fd], rfl, .nothing (by decide) (by simp) ?_⟩
      simp [ledger, NetworkCall.events, Int.not_le.mpr hfd]
    · have hopen : 0 ≤ fd := Int.not_lt.mp hfd
      obtain ⟨retVal, e, ⟨e₀, hretVal⟩, h⟩ := recorded_bind h
      have hle : retVal ≤ 0 := hretVal ▸ hp.connect fd _ e₀
      rcases Prog.returns_ite.mp h with ⟨hret, h⟩ | ⟨hret, h⟩
      · rw [returns_tell_bind] at h
        obtain ⟨rfl, rfl⟩ := Prog.returns_pure.mp h
        refine ⟨[.socket fd, .use [.socket fd], .close fd], by simp [NetworkPlatform.recording, noted], .nothing ?_ (by simp) ?_⟩
        · exact Int.ne_of_lt hret
        · simp [ledger, NetworkCall.events, hopen, Ledger.book]
      · obtain ⟨rfl, rfl⟩ := Prog.returns_pure.mp h
        refine ⟨[.socket fd, .use [.socket fd]], by simp, .held ?_ ?_ hopen hs ?_⟩
        · exact Int.le_antisymm hle (Int.not_lt.mp hret)
        · simp [denied, hopen]
        · simp [ledger, NetworkCall.events, hopen, Ledger.book, handles, hs]

theorem useCertificate_returns (hp : Documented p) {ctx : Nat} {sslCck : SslCaCrtKey} {retVal : Int}
    {s : Live (σ × List NetworkCall) Network} {r : Except Int Int} {s'}
    (h : (useCertificate p.recording ctx sslCck retVal).Returns s r s') : s'.self = s.self ∧
      (∃ n, s'.env.2 = s.env.2 ++ List.replicate n (.use [.ctx ctx])) ∧
      (r = .error 0 ∨ r = .ok (if sslCck.cert.isSome && sslCck.key.isSome then 1 else retVal)) := by
  have hnone (h : (pure (Except.ok retVal) : Prog (Live (σ × List NetworkCall) Network) (Except Int Int)).Returns s r s') :
      s'.self = s.self ∧ (∃ n, s'.env.2 = s.env.2 ++ List.replicate n (.use [.ctx ctx])) ∧ r = .ok retVal := by
    obtain ⟨rfl, rfl⟩ := Prog.returns_pure.mp h
    exact ⟨rfl, ⟨0, by simp⟩, rfl⟩
  rw [useCertificate] at h
  cases hcert : sslCck.cert with
  | none =>
    rw [hcert] at h
    obtain ⟨hself, hlog, hr⟩ := hnone h
    exact ⟨hself, hlog, .inr (by simpa using hr)⟩
  | some cert =>
    cases hkey : sslCck.key with
    | none =>
      rw [hcert, hkey] at h
      obtain ⟨hself, hlog, hr⟩ := hnone h
      exact ⟨hself, hlog, .inr (by simpa using hr)⟩
    | some key =>
      rw [hcert, hkey] at h
      obtain ⟨first, e, -, h⟩ := recorded_bind h
      rcases Prog.returns_ite.mp h with ⟨hfirst, h⟩ | ⟨-, h⟩
      · obtain ⟨rfl, rfl⟩ := Prog.returns_pure.mp h
        exact ⟨rfl, ⟨1, rfl⟩, .inl (by rw [hfirst])⟩
      · obtain ⟨second, e, ⟨e₀, hsecond⟩, h⟩ := recorded_bind h
        obtain ⟨rfl, rfl⟩ := Prog.returns_pure.mp h
        refine ⟨rfl, ⟨2, by simp [List.replicate]⟩, ?_⟩
        rcases hp.privateKey ctx key e₀ with hzero | hone
        · simp [hsecond, hzero]
        · simp [hsecond, hone]

theorem loadCredentials_returns (hp : Documented p) {ctx : Nat} {sslCck : SslCaCrtKey} {s : Live (σ × List NetworkCall) Network}
    {r : Except Int Int} {s'} (h : (loadCredentials p.recording ctx sslCck).Returns s r s') : s'.self = s.self ∧
      (∃ n, s'.env.2 = s.env.2 ++ List.replicate n (.use [.ctx ctx])) ∧
      ((∃ retVal, r = .error retVal ∧ retVal ≠ 1) ∨ r = .ok (if material sslCck then 1 else -1)) := by
  rw [loadCredentials] at h
  cases hca : sslCck.cacrt with
  | none =>
    rw [hca] at h
    obtain ⟨hself, hlog, hr⟩ := useCertificate_returns hp h
    refine ⟨hself, hlog, hr.imp (fun hr => ⟨0, hr, by decide⟩) fun hr => ?_⟩
    simpa [material, hca] using hr
  | some cacrt =>
    rw [hca] at h
    obtain ⟨retVal, e, -, h⟩ := recorded_bind h
    rcases Prog.returns_ite.mp h with ⟨hret, h⟩ | ⟨hret, h⟩
    · obtain ⟨rfl, rfl⟩ := Prog.returns_pure.mp h
      exact ⟨rfl, ⟨1, rfl⟩, .inl ⟨retVal, rfl, hret⟩⟩
    · obtain rfl := not_not.mp hret
      obtain ⟨hself, ⟨n, hlog⟩, hr⟩ := useCertificate_returns hp h
      refine ⟨hself, ⟨n + 1, ?_⟩, hr.imp (fun hr => ⟨0, hr, by decide⟩) fun hr => ?_⟩
      · simpa [List.replicate_succ] using hlog
      · simpa [material, hca] using hr

/-- What the calls do to a ledger that holds the context alone. -/
def afterContext (ctx : Nat) (log : List NetworkCall) : Option (List NetworkHandle) := Ledger.settle [.ctx ctx] (handleEvents log)

theorem establish_returns (hp : Documented p) {ctx : Nat} {sAddr : SockAddr} {before rc : Int}
    {s : Live (σ × List NetworkCall) Network} (hctx : s.self.ctx = some ctx) (hs : s.self.transport = .espSsl) {s'}
    (h : (establish p.recording ctx sAddr before).Returns s rc s') : ∃ log, s'.env.2 = s.env.2 ++ log ∧
      (denied log = true ∧ rc = before ∧ s'.self.ctx = some ctx ∧ s'.self.transport = .espSsl ∧ afterContext ctx log = some [] ∨
        denied log = false ∧ rc ≠ 1 ∧ afterContext ctx log = some [] ∨
        denied log = false ∧ rc = 1 ∧ 0 ≤ s'.self.mySocket ∧ s'.self.transport = .espSsl ∧
          afterContext ctx log = some s'.self.handles) := by
  obtain ⟨fd, e, -, h⟩ := recorded_bind h
  rw [returns_set_bind] at h
  rcases Prog.returns_ite.mp h with ⟨hfd, h⟩ | ⟨hfd, h⟩
  · obtain ⟨hrc, hself, hlog⟩ := exit1_returns h
    refine ⟨[.socket fd, .ctxFree (some ctx)], by simp [hlog, hctx], .inl ⟨by simp [denied, hfd], hrc, ?_, ?_, ?_⟩⟩
    · rw [hself, hctx]
    · rw [hself, hs]
    · simp [afterContext, NetworkCall.events, Int.not_le.mpr hfd, Ledger.book]
  · have hopen : 0 ≤ fd := Int.not_lt.mp hfd
    obtain ⟨retVal, e, ⟨e₀, hretVal⟩, h⟩ := recorded_bind h
    have hle : retVal ≤ 0 := hretVal ▸ hp.connect fd _ e₀
    rcases Prog.returns_ite.mp h with ⟨hret, h⟩ | ⟨-, h⟩
    · obtain ⟨hrc, hself, hlog⟩ := exit2_returns h
      refine ⟨[.socket fd, .use [.socket fd], .close fd, .ctxFree (some ctx)], by simp [hlog, hctx], .inr (.inl ⟨?_, ?_, ?_⟩)⟩
      · simp [denied, hopen]
      · omega
      · simp [afterContext, NetworkCall.events, hopen, Ledger.book]
    · obtain ⟨ssl, e, -, h⟩ := recorded_bind h
      rw [returns_set_bind] at h
      cases ssl with
      | none =>
        obtain ⟨hrc, hself, hlog⟩ := exit2_returns h
        refine ⟨[.socket fd, .use [.socket fd], .sslNew ctx none, .close fd, .ctxFree (some ctx)], by simp [hlog, hctx],
          .inr (.inl ⟨?_, ?_, ?_⟩)⟩
        · simp [denied, hopen]
        · omega
        · simp [afterContext, NetworkCall.events, hopen, Ledger.book]
      | some ssl =>
        rw [returns_tell_bind] at h
        obtain ⟨retVal', e, ⟨e₁, hretVal'⟩, h⟩ := recorded_bind h
        have hle' : retVal' ≤ 1 := hretVal' ▸ hp.sslConnect ssl e₁
        rcases Prog.returns_ite.mp h with ⟨hret, h⟩ | ⟨hret, h⟩
        · obtain ⟨hrc, hself, hlog⟩ := exit3_returns h
          refine ⟨[.socket fd, .use [.socket fd], .sslNew ctx (some ssl), .use [.ssl ssl, .socket fd], .use [.ssl ssl],
            .sslFree (some ssl), .close fd, .ctxFree (some ctx)], ?_, .inr (.inl ⟨?_, ?_, ?_⟩)⟩
          · simp [hlog, hctx, NetworkPlatform.recording, noted]
          · simp [denied, hopen]
          · omega
          · simp [afterContext, NetworkCall.events, hopen, Ledger.book]
        · obtain ⟨rfl, rfl⟩ := Prog.returns_pure.mp h
          refine ⟨[.socket fd, .use [.socket fd], .sslNew ctx (some ssl), .use [.ssl ssl, .socket fd], .use [.ssl ssl]],
            ?_, .inr (.inr ⟨?_, ?_, hopen, hs, ?_⟩)⟩
          · simp [NetworkPlatform.recording, noted]
          · simp [denied, hopen]
          · omega
          · simp [afterContext, NetworkCall.events, hopen, Ledger.book, handles, hs, hctx]

theorem settle_uses {ctx n : Nat} :
    Ledger.settle [.ctx ctx] (handleEvents (List.replicate n (.use [.ctx ctx]))) = some [.ctx ctx] := by
  induction n with
  | zero => rfl
  | succ n ih => simpa [List.replicate_succ, NetworkCall.events, Ledger.book] using ih

theorem denied_uses {n ctx : Nat} : denied (List.replicate n (.use [.ctx ctx])) = false := by
  simp [denied, List.any_replicate]

theorem networkConnectSSL_connects (hp : Documented p) {addr : Bytes} {port : Int} {sslCck : SslCaCrtKey} {method fragLen : Nat}
    {verifyMode : Int} {s : Live (σ × List NetworkCall) Network} (hs : s.self.transport = .espSsl) {rc : Int} {s'}
    (h : (networkConnectSSL p.recording addr port sslCck method verifyMode fragLen).Returns s rc s') :
    ∃ log, s'.env.2 = s.env.2 ++ log ∧ Connects .espSsl sslCck s'.self rc log := by
  obtain ⟨ip, e, h⟩ := unrecorded_bind h
  cases ip with
  | none =>
    obtain ⟨rfl, rfl⟩ := Prog.returns_pure.mp h
    exact ⟨[], by simp, .nothing (by decide) (by simp) rfl⟩
  | some ip =>
    obtain ⟨ctx, e, -, h⟩ := recorded_bind h
    rw [returns_set_bind] at h
    cases ctx with
    | none =>
      obtain ⟨rfl, rfl⟩ := Prog.returns_pure.mp h
      exact ⟨[.ctxNew none], rfl, .nothing (by decide) (by simp [denied]) rfl⟩
    | some ctx =>
      obtain ⟨r, t, hload, h⟩ := Prog.returns_bind.mp h
      obtain ⟨hself, ⟨n, hlog⟩, hr⟩ := loadCredentials_returns hp hload
      have hctx : t.self.ctx = some ctx := by rw [hself]
      have ht : t.self.transport = .espSsl := by rw [hself]; exact hs
      have hstart (log : List NetworkCall) : ledger (.ctxNew (some ctx) :: List.replicate n (.use [.ctx ctx]) ++ log) = afterContext ctx log := by
        simp [ledger, afterContext, NetworkCall.events, Ledger.settle_append, settle_uses]
      have hdenied (log : List NetworkCall) : denied (.ctxNew (some ctx) :: List.replicate n (.use [.ctx ctx]) ++ log) = denied log := by
        rw [denied_append, ← List.singleton_append, denied_append, denied_uses]
        rfl
      rcases hr with ⟨retVal, rfl, hret⟩ | rfl
      · obtain ⟨rfl, -, hfree⟩ := exit1_returns h
        refine ⟨.ctxNew (some ctx) :: List.replicate n (.use [.ctx ctx]) ++ [.ctxFree (some ctx)], ?_, .nothing hret ?_ ?_⟩
        · simp [hfree, hlog, hctx]
        · exact fun _ _ => hdenied _
        · rw [hstart]
          simp [afterContext, NetworkCall.events, Ledger.book]
      · obtain ⟨e, h⟩ := noted_bind h
        obtain ⟨log, hest, hcases⟩ := establish_returns (s := ⟨t.self, e, t.env.2 ++ [.use [.ctx ctx]]⟩) hp hctx ht h
        have hafter : afterContext ctx (.use [.ctx ctx] :: log) = afterContext ctx log := by
          simp [afterContext, NetworkCall.events, Ledger.book]
        have hsame : denied (.use [.ctx ctx] :: log) = denied log := rfl
        refine ⟨.ctxNew (some ctx) :: List.replicate n (.use [.ctx ctx]) ++ (.use [.ctx ctx] :: log), ?_, ?_⟩
        · simp [hest, hlog]
        · rcases hcases with ⟨hden, rfl, hctx', ht', hnone⟩ | ⟨hden, hrc, hnone⟩ | ⟨hden, hrc, hopen, ht', hheld⟩
          · have hledger := (hstart (.use [.ctx ctx] :: log)).trans (hafter.trans hnone)
            cases hmat : material sslCck with
            | false => exact .nothing (by decide) (by simp [hmat]) hledger
            | true => exact .refused rfl rfl ht' hmat ((hdenied _).trans (hsame.trans hden)) hctx' List.mem_cons_self hledger
          · exact .nothing hrc (fun _ _ => (hdenied _).trans (hsame.trans hden)) ((hstart _).trans (hafter.trans hnone))
          · exact .held hrc ((hdenied _).trans (hsame.trans hden)) hopen ht' ((hstart _).trans (hafter.trans hheld))

theorem Session.connect_connects (hp : Documented p) {u : Session} {s : Live (σ × List NetworkCall) Network} {rc : Int} {s'}
    (h : (u.connect p.recording s.self.transport).Returns s rc s') :
    ∃ log, s'.env.2 = s.env.2 ++ log ∧ Connects s.self.transport u.sslCck s'.self rc log := by
  cases hs : s.self.transport with
  | esp =>
    rw [hs] at h
    exact networkConnect_connects hp hs h
  | espSsl =>
    rw [hs] at h
    have h : (networkConnectSSL p.recording u.addr u.port u.sslCck u.method u.verifyMode u.fragLen).Returns s rc s' := h
    exact networkConnectSSL_connects hp hs h

/-! ## What writing and disconnecting do -/

/-- A call that uses handles of the network, as the writes do. -/
def Uses (n : Network) (c : NetworkCall) : Prop :=
  ∃ hs : List NetworkHandle, (c = .use hs ∨ ∃ bs, c = .wrote hs bs) ∧ ∀ h ∈ hs, h ∈ n.handles

/-- Handles of `n` are used, and its fields stay what they are. -/
def using_ (n : Network) : Prog.Guarantee (Live (σ × List NetworkCall) Network) where
  rel s s' := s'.self = s.self ∧ ∃ log, s'.env.2 = s.env.2 ++ log ∧ ∀ c ∈ log, Uses n c
  refl _ := ⟨rfl, [], (List.append_nil _).symm, by simp⟩
  trans := by
    rintro _ _ _ ⟨hself, log, hlog, huses⟩ ⟨hself', log', hlog', huses'⟩
    refine ⟨hself'.trans hself, log ++ log', by rw [hlog', hlog, List.append_assoc], fun c hc => ?_⟩
    exact (List.mem_append.mp hc).elim (huses c) (huses' c)

theorem guarantees_use {β : Type} {f : σ → β × σ} {c : β → NetworkCall} {n : Network} (hc : ∀ b, Uses n (c b)) :
    (call (recorded f c) : Prog (Live (σ × List NetworkCall) Network) β).Guarantees (using_ n) :=
  guarantees_call fun _ => ⟨rfl, [c _], rfl, fun _ hmem => List.mem_singleton.mp hmem ▸ hc _⟩

theorem guarantees_unrecorded {β : Type} {f : σ → β × σ} {n : Network} :
    (call (unrecorded f) : Prog (Live (σ × List NetworkCall) Network) β).Guarantees (using_ n) :=
  guarantees_call fun _ => ⟨rfl, [], (List.append_nil _).symm, by simp⟩

theorem guarantees_sendAll {send : Bytes → σ → Int × σ} {hs : List NetworkHandle} {n : Network} (hhs : ∀ h ∈ hs, h ∈ n.handles)
    {buffer : Bytes} : (sendAll p.recording (fun bs => recorded (send bs) fun rc => .wrote hs (bs.take rc.toNat)) buffer).Guarantees
      (using_ n) := by
  refine .loop (fun _ => .bind (guarantees_use fun _ => ⟨hs, .inr ⟨_, rfl⟩, hhs⟩) fun _ => .ite .pure (.ite ?_ .pure)) _
  exact .bind guarantees_unrecorded fun _ => .ite .pure .pure

theorem mem_handles_socket (n : Network) : .socket n.mySocket ∈ n.handles := by
  rw [handles]
  cases n.transport <;> simp

theorem guarantees_write {buffer : Bytes} {timeoutMs : Nat} {s : Live (σ × List NetworkCall) Network} {rc : Int} {s'}
    (h : (mqttwrite p.recording buffer timeoutMs).Returns s rc s') : (using_ s.self).rel s s' := by
  rw [mqttwrite, returns_obj_bind] at h
  have hsocket : ∀ h ∈ [NetworkHandle.socket s.self.mySocket], h ∈ s.self.handles := by
    simpa using mem_handles_socket s.self
  have hstart : (tell p.recording.setTimeOutState : Prog (Live (σ × List NetworkCall) Network) Unit).Guarantees (using_ s.self) :=
    guarantees_tell fun _ => ⟨rfl, [], (List.append_nil _).symm, by simp⟩
  have hawait : (awaitWritable p.recording s.self timeoutMs).Guarantees (using_ s.self) := by
    refine .loop (fun _ => .bind (guarantees_use fun _ => ⟨_, .inl rfl, hsocket⟩) fun _ => ?_) _
    exact .ite .pure .pure
  cases ht : s.self.transport with
  | esp =>
    rw [ht] at h
    have hwrite : (espWrite p.recording s.self buffer timeoutMs).Guarantees (using_ s.self) :=
      .bind hstart fun _ => .bind hawait fun _ => .ite (guarantees_sendAll hsocket) .pure
    exact hwrite s rc s' h
  | espSsl =>
    rw [ht] at h
    have hssl : ∀ h ∈ s.self.ssl.toList.map NetworkHandle.ssl, h ∈ s.self.handles := by
      intro h hmem
      rw [handles, ht]
      exact List.mem_append_left _ (List.mem_append_left _ hmem)
    have hwrite : (espSslWrite p.recording s.self buffer timeoutMs).Guarantees (using_ s.self) :=
      .bind hstart fun _ => .bind hawait fun _ => .ite .pure (.ite (guarantees_sendAll hssl) .pure)
    exact hwrite s rc s' h

theorem writeAll_uses {writes : List (Bytes × Nat)} {s : Live (σ × List NetworkCall) Network} {u : Unit} {s'}
    (h : (writeAll p.recording writes).Returns s u s') : (using_ s.self).rel s s' := by
  induction writes generalizing s with
  | nil =>
    obtain ⟨-, rfl⟩ := Prog.returns_pure.mp h
    exact (using_ _).refl _
  | cons x writes ih =>
    obtain ⟨buffer, timeoutMs⟩ := x
    obtain ⟨rc, t, hwrite, h⟩ := Prog.returns_bind.mp h
    have hfirst := guarantees_write hwrite
    have hrest := ih h
    rw [hfirst.1] at hrest
    exact (using_ s.self).trans hfirst hrest

/-- The calls of `disconnect`. -/
def giveBack (n : Network) : List NetworkCall :=
  match n.transport with
  | .esp => [.close n.mySocket]
  | .espSsl => [.close n.mySocket, .sslFree n.ssl, .ctxFree n.ctx]

theorem disconnect_returns {s : Live (σ × List NetworkCall) Network} {u : Unit} {s'}
    (h : (disconnect p.recording).Returns s u s') : s'.env.2 = s.env.2 ++ giveBack s.self := by
  rw [disconnect, returns_obj_bind] at h
  cases ht : s.self.transport with
  | esp =>
    rw [ht] at h
    obtain rfl := returns_tell.mp h
    simp [giveBack, ht, NetworkPlatform.recording, noted]
  | espSsl =>
    rw [ht] at h
    rw [returns_tell_bind, returns_tell_bind, returns_tell_bind] at h
    obtain rfl := returns_set.mp h
    simp [giveBack, ht, NetworkPlatform.recording, noted]

/-! ## Sessions, one after the other -/

theorem settle_use {held hs : List NetworkHandle} (h : ∀ x ∈ hs, x ∈ held) :
    Ledger.settle held (hs.map HandleEvent.used) = some held := by
  induction hs with
  | nil => rfl
  | cons x hs ih =>
    rw [List.map_cons, Ledger.settle_cons, Ledger.book_used (h x List.mem_cons_self)]
    exact ih fun y hy => h y (List.mem_cons_of_mem x hy)

theorem Uses.events {n : Network} {c : NetworkCall} (h : Uses n c) :
    ∃ hs : List NetworkHandle, c.events = hs.map .used ∧ ∀ x ∈ hs, x ∈ n.handles := by
  obtain ⟨hs, rfl | ⟨bs, rfl⟩, hheld⟩ := h
  · exact ⟨hs, rfl, hheld⟩
  · exact ⟨hs, rfl, hheld⟩

theorem settle_writes {n : Network} {log : List NetworkCall} (h : ∀ c ∈ log, Uses n c) :
    Ledger.settle n.handles (handleEvents log) = some n.handles := by
  induction log with
  | nil => rfl
  | cons c log ih =>
    obtain ⟨hs, hc, hheld⟩ := (h c List.mem_cons_self).events
    rw [handleEvents_cons, hc, Ledger.settle_append, settle_use hheld]
    exact ih fun d hd => h d (List.mem_cons_of_mem c hd)

theorem denied_writes {n : Network} {log : List NetworkCall} (h : ∀ c ∈ log, Uses n c) : denied log = false := by
  refine List.any_eq_false.mpr fun c hc => ?_
  obtain ⟨hs, rfl | ⟨bs, rfl⟩, -⟩ := h c hc
  · simp
  · simp

theorem denied_giveBack (n : Network) : denied n.giveBack = false := by
  rw [giveBack]
  cases n.transport <;> rfl

theorem settle_giveBack {n : Network} (h : 0 ≤ n.mySocket) : Ledger.settle n.handles (handleEvents n.giveBack) = some [] := by
  rw [handles, giveBack]
  cases n.transport with
  | esp => simp [NetworkCall.events, h, Ledger.book]
  | espSsl => cases n.ssl <;> cases n.ctx <;> simp [NetworkCall.events, h, Ledger.book]

/-- Nothing is held, so nothing can be used or given back. -/
theorem settle_none {es : List (HandleEvent NetworkHandle)} (hne : es ≠ []) (h : ∀ x, .opened x ∉ es) :
    Ledger.settle [] es = none := by
  cases es with
  | nil => exact absurd rfl hne
  | cons e es =>
    cases e with
    | opened x => exact absurd List.mem_cons_self (h x)
    | used x => rfl
    | closed x => rfl

theorem not_opened_writes {n : Network} {log : List NetworkCall} (h : ∀ c ∈ log, Uses n c) (x : NetworkHandle) :
    .opened x ∉ handleEvents log := by
  intro hx
  obtain ⟨c, hc, hx⟩ := List.mem_flatMap.mp hx
  obtain ⟨hs, hevents, -⟩ := (h c hc).events
  rw [hevents] at hx
  simp at hx

theorem settle_refused {n : Network} {log : List NetworkCall} {ctx : Nat} (h : ∀ c ∈ log, Uses n c) (ht : n.transport = .espSsl)
    (hctx : n.ctx = some ctx) : Ledger.settle [] (handleEvents log ++ handleEvents n.giveBack) = none := by
  refine settle_none ?_ fun x hx => ?_
  · simp [giveBack, ht, hctx, NetworkCall.events]
  · rcases List.mem_append.mp hx with hx | hx
    · exact not_opened_writes h x hx
    · rw [giveBack, ht, hctx] at hx
      cases n.ssl <;> by_cases hfd : 0 ≤ n.mySocket <;> simp [NetworkCall.events, hfd] at hx

/-- A session was to be over TLS and had credentials, and there was no socket. -/
def refused (transport : Transport) (u : Session) (log : List NetworkCall) : Bool :=
  transport = .espSsl && material u.sslCck && denied log

/-- Connecting reported success, with a context that it had made and freed, and
the session went on. -/
def Session.RunsOn (p : NetworkPlatform σ) (u : Session) (s : Live (σ × List NetworkCall) Network) (rc : Int) : Prop :=
  rc = 1 ∧ ∃ t log ctx, (u.connect p.recording .espSsl).Returns s 1 t ∧ t.env.2 = s.env.2 ++ log ∧ t.self.ctx = some ctx ∧
    .ctxNew (some ctx) ∈ log ∧ ledger log = some []

theorem Session.run_settles (hp : Documented p) {u : Session} {s : Live (σ × List NetworkCall) Network} {rc : Int} {s'}
    (h : (u.run p.recording).Returns s rc s') :
    ∃ log, s'.env.2 = s.env.2 ++ log ∧ (ledger log = if refused s.self.transport u log then none else some []) ∧
      (refused s.self.transport u log = true → u.RunsOn p s rc) := by
  rw [Session.run, returns_obj_bind] at h
  obtain ⟨rc, t, hconnect, h⟩ := Prog.returns_bind.mp h
  obtain ⟨log, hlog, hends⟩ := u.connect_connects hp hconnect
  rcases Prog.returns_ite.mp h with ⟨hrc, h⟩ | ⟨hrc, h⟩
  · obtain ⟨_, t', hwrites, h⟩ := Prog.returns_bind.mp h
    obtain ⟨_, t'', hdisconnect, h⟩ := Prog.returns_bind.mp h
    obtain ⟨rfl, rfl⟩ := Prog.returns_pure.mp h
    obtain ⟨hself, writes, hwrites, huses⟩ := writeAll_uses hwrites
    have hgive := disconnect_returns hdisconnect
    rw [hself] at hgive
    have hdenied : denied (log ++ (writes ++ t.self.giveBack)) = denied log := by
      simp [denied_writes huses, denied_giveBack]
    refine ⟨log ++ (writes ++ t.self.giveBack), by simp [hgive, hwrites, hlog], ?_⟩
    rw [ledger_append, handleEvents_append, refused, hdenied]
    cases hends with
    | held _ hden hopen _ hheld =>
      rw [hheld, hden, Bool.and_false, Option.bind_some, Ledger.settle_append, settle_writes huses]
      exact ⟨settle_giveBack hopen, fun htrue => absurd htrue (by decide)⟩
    | nothing hne => exact absurd hrc hne
    | refused heq hs ht hmat hden hctx hmade hheld =>
      rw [hheld, hden, hmat, hs]
      rw [hs] at hconnect heq
      obtain rfl : rc = 1 := heq
      exact ⟨settle_refused huses ht hctx, fun _ => ⟨rfl, t, log, _, hconnect, hlog, hctx, hmade, hheld⟩⟩
  · obtain ⟨-, rfl⟩ := Prog.returns_pure.mp h
    refine ⟨log, hlog, ?_⟩
    cases hends with
    | held heq => exact absurd heq hrc
    | nothing _ hden hheld =>
      have hnot : refused s.self.transport u log = false := by
        cases hmat : material u.sslCck <;> by_cases ht : s.self.transport = .espSsl <;> simp [refused, hmat, ht]
        exact hden ht hmat
      rw [hnot]
      exact ⟨hheld, fun htrue => absurd htrue (by decide)⟩
    | refused heq => exact absurd heq hrc

/-- The call was a session of that kind. -/
def NetworkOp.refused (c : Prog.Call (Live (σ × List NetworkCall) Network) NetworkOp Int) : Bool :=
  match c.op with
  | .session u => Network.refused c.before.self.transport u (c.after.env.2.drop c.before.env.2.length)
  | .init | .initSSL => false

theorem NetworkOp.run_grows (hp : Documented p) {op : NetworkOp} {s : Live (σ × List NetworkCall) Network} {rc : Int} {s'}
    (h : (op.run p.recording).Returns s rc s') : ∃ log, s'.env.2 = s.env.2 ++ log := by
  cases op with
  | init =>
    rw [NetworkOp.run, networkInit, returns_set_bind] at h
    obtain ⟨-, rfl⟩ := Prog.returns_pure.mp h
    exact ⟨[], (List.append_nil _).symm⟩
  | initSSL =>
    rw [NetworkOp.run, networkInitSSL, returns_set_bind] at h
    obtain ⟨-, rfl⟩ := Prog.returns_pure.mp h
    exact ⟨[], (List.append_nil _).symm⟩
  | session u =>
    obtain ⟨log, hlog, -⟩ := u.run_settles hp h
    exact ⟨log, hlog⟩

/-- The call was a session that went on with a freed context. -/
def NetworkOp.RunsOn (p : NetworkPlatform σ) (c : Prog.Call (Live (σ × List NetworkCall) Network) NetworkOp Int) : Prop :=
  ∃ u, c.op = .session u ∧ u.RunsOn p c.before c.out

theorem NetworkOp.run_refused (hp : Documented p) {c : Prog.Call (Live (σ × List NetworkCall) Network) NetworkOp Int}
    (h : (c.op.run p.recording).Returns c.before c.out c.after) (href : refused c = true) : RunsOn p c := by
  obtain ⟨op, s, rc, s'⟩ := c
  cases op with
  | init => cases href
  | initSSL => cases href
  | session u =>
    obtain ⟨log, hlog, -, hon⟩ := u.run_settles hp h
    have href : Network.refused s.self.transport u (s'.env.2.drop s.env.2.length) = true := href
    rw [hlog, List.drop_left] at href
    exact ⟨u, rfl, hon href⟩

theorem NetworkOp.run_settles (hp : Documented p) {c : Prog.Call (Live (σ × List NetworkCall) Network) NetworkOp Int}
    (h : (c.op.run p.recording).Returns c.before c.out c.after) (hbefore : ledger c.before.env.2 = some []) :
    ledger c.after.env.2 = if refused c then none else some [] := by
  obtain ⟨op, s, rc, s'⟩ := c
  dsimp only at h hbefore ⊢
  cases op with
  | init =>
    rw [NetworkOp.run, networkInit, returns_set_bind] at h
    obtain ⟨-, rfl⟩ := Prog.returns_pure.mp h
    exact hbefore
  | initSSL =>
    rw [NetworkOp.run, networkInitSSL, returns_set_bind] at h
    obtain ⟨-, rfl⟩ := Prog.returns_pure.mp h
    exact hbefore
  | session u =>
    obtain ⟨log, hlog, hledger, -⟩ := u.run_settles hp h
    rw [refused]
    dsimp only
    rw [hlog, List.drop_left, ledger_append, hbefore]
    exact hledger

/-- **Nothing is leaked, and nothing is used or given back that is not held**, in
any sessions over sockets and over TLS, if and only if no socket was refused to a
session over TLS that had credentials to load before it. Such a session went on
with a freed context. -/
theorem sessions_owned_iff (hp : Documented p) {s s' : Live (σ × List NetworkCall) Network} (hs : s.env.2 = [])
    {calls : List (Prog.Call (Live (σ × List NetworkCall) Network) NetworkOp Int)}
    (hrun : Prog.Calls (NetworkOp.run p.recording) s calls s') :
    (ledger s'.env.2 = some [] ↔ ∀ c ∈ calls, NetworkOp.refused c = false) ∧
      ∀ c ∈ calls, NetworkOp.refused c = true → NetworkOp.RunsOn p c := by
  refine ⟨?_, fun c hc href => NetworkOp.run_refused hp (hrun.mem hc) href⟩
  have hstart : ledger s.env.2 = some [] := by rw [hs]; rfl
  clear hs
  induction hrun with
  | nil => simpa using hstart
  | @cons c calls s' hc hrun ih =>
    have hafter := NetworkOp.run_settles hp hc hstart
    cases href : NetworkOp.refused c with
    | false =>
      rw [href] at hafter
      simpa [href] using ih hafter
    | true =>
      rw [href] at hafter
      -- what went wrong once stays on the record
      have hnone := (hrun.always (I := fun s => ledger s.env.2 = none) (fun d hd hbefore => by
        obtain ⟨log, hlog⟩ := NetworkOp.run_grows hp hd
        rw [hlog, ledger_append, hbefore]
        rfl) hafter).2
      simp [href, hnone]

/-! ## What is written -/

/-- A call takes no more bytes than it is offered. -/
structure TakesOffered (p : NetworkPlatform σ) : Prop where
  send : ∀ fd bs e, (p.send fd bs e).1 ≤ bs.length
  sslWrite : ∀ ssl bs e, (p.sslWrite ssl bs e).1 ≤ bs.length

@[simp] theorem taken_append {log log' : List NetworkCall} : taken (log ++ log') = taken log ++ taken log' := List.flatMap_append

theorem taken_wrote {log : List NetworkCall} {hs : List NetworkHandle} {bs : Bytes} :
    taken (log ++ [.wrote hs bs]) = taken log ++ bs := by
  rw [taken_append]
  exact congrArg _ (List.append_nil bs)

theorem sendAll_taken {send : Bytes → σ → Int × σ} (hsend : ∀ bs e, (send bs e).1 ≤ bs.length) {hs : List NetworkHandle}
    {buffer : Bytes} {s : Live (σ × List NetworkCall) Network} {rc : Int} {s'}
    (h : (sendAll p.recording (fun bs => recorded (send bs) fun rc => .wrote hs (bs.take rc.toNat)) buffer).Returns s rc s') :
    ∃ n ≤ buffer.length, taken s'.env.2 = taken s.env.2 ++ buffer.take n ∧ (0 ≤ rc → rc = n) := by
  rw [sendAll] at h
  refine h.loop_inv (fun (sentLen : Nat) (t : Live (σ × List NetworkCall) Network) =>
      sentLen ≤ buffer.length ∧ taken t.env.2 = taken s.env.2 ++ buffer.take sentLen)
    (fun (rc : Int) t => ∃ n ≤ buffer.length, taken t.env.2 = taken s.env.2 ++ buffer.take n ∧ (0 ≤ rc → rc = n)) ?_
    (And.intro (Nat.zero_le _) (List.append_nil _).symm)
  intro sentLen t turn t' hI h
  obtain ⟨hle, htaken⟩ := hI
  obtain ⟨rc, e, ⟨e₀, hrc⟩, h⟩ := recorded_bind h
  rcases Prog.returns_ite.mp h with ⟨hneg, h⟩ | ⟨hpos, h⟩
  · obtain ⟨rfl, rfl⟩ := Prog.returns_pure.mp h
    refine ⟨sentLen, hle, ?_, fun hnonneg => absurd hneg (Int.not_lt.mpr hnonneg)⟩
    rw [taken_wrote, htaken, Int.toNat_of_nonpos (Int.le_of_lt hneg)]
    simp
  · have hmore : rc.toNat ≤ buffer.length - sentLen := by
      have hoffered := hsend (buffer.drop sentLen) e₀
      rw [← hrc, List.length_drop] at hoffered
      omega
    have htaken' : taken (t.env.2 ++ [.wrote hs ((buffer.drop sentLen).take rc.toNat)]) =
        taken s.env.2 ++ buffer.take (sentLen + rc.toNat) := by
      rw [taken_wrote, htaken, List.take_add, List.append_assoc]
    have hle' : sentLen + rc.toNat ≤ buffer.length := by omega
    rcases Prog.returns_ite.mp h with ⟨-, h⟩ | ⟨-, h⟩
    · obtain ⟨timedOut, e, h⟩ := unrecorded_bind h
      rcases Prog.returns_ite.mp h with ⟨-, h⟩ | ⟨-, h⟩
      · obtain ⟨rfl, rfl⟩ := Prog.returns_pure.mp h
        exact ⟨_, hle', htaken', fun _ => rfl⟩
      · obtain ⟨rfl, rfl⟩ := Prog.returns_pure.mp h
        exact ⟨hle', htaken'⟩
    · obtain ⟨rfl, rfl⟩ := Prog.returns_pure.mp h
      exact ⟨_, hle', htaken', fun _ => rfl⟩

theorem awaitWritable_taken {n : Network} {timeoutMs : Nat} :
    (awaitWritable p.recording n timeoutMs).Guarantees (.same fun s => taken s.env.2) := by
  refine .loop (fun _ => .bind (guarantees_call fun s => ?_) fun _ => .ite .pure .pure) _
  exact (taken_append).trans (List.append_nil _)

/-- The bytes that were taken are the first of the buffer, in their order and
without a gap, and as many as are returned; an error does not say how many. -/
theorem mqttwrite_taken (hp : TakesOffered p) {buffer : Bytes} {timeoutMs : Nat} {s : Live (σ × List NetworkCall) Network}
    {rc : Int} {s'} (h : (mqttwrite p.recording buffer timeoutMs).Returns s rc s') :
    ∃ n ≤ buffer.length, taken s'.env.2 = taken s.env.2 ++ buffer.take n ∧ (0 ≤ rc → rc = n) := by
  have hzero {t : Live (σ × List NetworkCall) Network} (htaken : taken t.env.2 = taken s.env.2)
      (h : (pure 0 : Prog (Live (σ × List NetworkCall) Network) Int).Returns t rc s') :
      ∃ n ≤ buffer.length, taken s'.env.2 = taken s.env.2 ++ buffer.take n ∧ (0 ≤ rc → rc = n) := by
    obtain ⟨rfl, rfl⟩ := Prog.returns_pure.mp h
    exact ⟨0, Nat.zero_le _, by simp [htaken], fun _ => rfl⟩
  rw [mqttwrite, returns_obj_bind] at h
  cases ht : s.self.transport with
  | esp =>
    rw [ht] at h
    have h : (espWrite p.recording s.self buffer timeoutMs).Returns s rc s' := h
    rw [espWrite, returns_tell_bind] at h
    obtain ⟨readysock, t, hawait, h⟩ := Prog.returns_bind.mp h
    have htaken : taken t.env.2 = taken s.env.2 := awaitWritable_taken ⟨s.self, p.setTimeOutState s.env.1, s.env.2⟩ _ _ hawait
    rcases Prog.returns_ite.mp h with ⟨-, h⟩ | ⟨-, h⟩
    · rw [← htaken]
      exact sendAll_taken (hp.send _) h
    · exact hzero htaken h
  | espSsl =>
    rw [ht] at h
    have h : (espSslWrite p.recording s.self buffer timeoutMs).Returns s rc s' := h
    rw [espSslWrite, returns_tell_bind] at h
    obtain ⟨readysock, t, hawait, h⟩ := Prog.returns_bind.mp h
    have htaken : taken t.env.2 = taken s.env.2 := awaitWritable_taken ⟨s.self, p.setTimeOutState s.env.1, s.env.2⟩ _ _ hawait
    rcases Prog.returns_ite.mp h with ⟨-, h⟩ | ⟨-, h⟩
    · exact hzero htaken h
    · rcases Prog.returns_ite.mp h with ⟨-, h⟩ | ⟨-, h⟩
      · rw [← htaken]
        exact sendAll_taken (hp.sslWrite _) h
      · exact hzero htaken h

end Network

namespace NetworkDemo

open Network

/-- So many sockets are left, and two bytes are taken at once. -/
def platform : NetworkPlatform Nat where
  gethostbyname _ sockets := (some 1, sockets)
  socket
    | 0 => (-1, 0)
    | sockets + 1 => (3, sockets)
  connect _ _ sockets := (0, sockets)
  close _ sockets := sockets
  select _ _ sockets := ({ ready := 1, writeset := true, errset := false }, sockets)
  send _ bs sockets := (min 2 bs.length, sockets)
  sslCtxNew _ sockets := (some 7, sockets)
  sslCtxLoadVerifyBuffer _ _ sockets := (1, sockets)
  sslCtxUseCertificateASN1 _ _ sockets := (1, sockets)
  sslCtxUsePrivateKeyASN1 _ _ sockets := (1, sockets)
  sslCtxSetVerify _ _ sockets := sockets
  sslCtxFree _ sockets := sockets
  sslNew _ sockets := (some 9, sockets)
  sslSetFd _ _ sockets := sockets
  sslConnect _ sockets := (1, sockets)
  sslWrite _ bs sockets := (min 2 bs.length, sockets)
  sslFree _ sockets := sockets
  setTimeOutState sockets := sockets
  checkForTimeOut sockets := (false, sockets)

theorem documented : Documented platform where
  connect _ _ _ := Int.le_refl 0
  sslConnect _ _ := Int.le_refl 1
  privateKey _ _ _ := .inr rfl

def start : Live (Nat × List NetworkCall) Network := ⟨⟨0, .espSsl, 0, none, none⟩, 1, []⟩

/-- A session with a CA. -/
def session : Session := { addr := bytes "broker", port := 8883, sslCck := { cacrt := some [1] }, writes := [([1, 2, 3, 4, 5], 100)] }

def walked : Option (List (Prog.Call (Live (Nat × List NetworkCall) Network) NetworkOp Int) × Live (Nat × List NetworkCall) Network) :=
  Prog.walk (NetworkOp.run platform.recording) 10 start [.initSSL, .session session, .session { session with writes := [] }]

/-- There is one socket, and a session more: it goes on without. -/
theorem sessions_owned_refused : ∃ calls s, Prog.Calls (NetworkOp.run platform.recording) start calls s ∧ ledger s.env.2 ≠ some [] ∧
    ∃ c ∈ calls, NetworkOp.RunsOn platform c := by
  have hend : walked.map (fun x => x.1.map NetworkOp.refused) = some [false, false, true] := by decide +kernel
  obtain ⟨⟨calls, s⟩, hwalk, hrefused⟩ := Option.map_eq_some_iff.mp hend
  have hrun := Prog.Calls.of_walk hwalk
  obtain ⟨howned, hon⟩ := sessions_owned_iff documented rfl hrun
  have hmem : true ∈ calls.map NetworkOp.refused := by
    rw [hrefused]
    decide
  obtain ⟨c, hc, htrue⟩ := List.mem_map.mp hmem
  refine ⟨calls, s, hrun, fun hheld => ?_, c, hc, hon c hc htrue⟩
  exact absurd (howned.mp hheld c hc) (by simp [htrue])

end NetworkDemo

end FEmbed
