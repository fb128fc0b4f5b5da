/-
How setting up a TLS connection can end.

The calls that decide it are recorded (`Platform.logged`) around any platform
whose mbedTLS error codes are negative. `startSslClient_cases` lists the three
ways `start_ssl_client` returns: before the verification of the peer, with a
negative value; verified, with the open socket; or refused by the
verification, closed, with whatever `ret` held. The last is a success to the
caller unless the record expansion was asked for and is negative, and
`connect_failsClosed_iff` says so of both `connect`s as well.
-/
import FEmbedLwip.Records
import FEmbedLwip.TCPClientFacts
import FEmbedLwip.TCPClientSecure

namespace FEmbed

open Live

variable {σ : Type}

/-! ## The calls that decide -/

inductive SetupCall where
  | socket (fd : Int)
  | connect (fd rc : Int)
  | close (fd : Int)
  | handshake (rc : Int)
  | recordExpansion (rc : Int)
  | verifyResult (flags : Nat)
  deriving DecidableEq, Repr

/-- The platform `p`, recording each call that decides, with its answer. -/
def Platform.logged (p : Platform σ) : Platform (σ × List SetupCall) :=
  { p.beside with
    lwip :=
      { p.lwip.beside with
        socket := recorded p.lwip.socket .socket
        connect := fun fd a => recorded (p.lwip.connect fd a) (.connect fd)
        close := fun fd => noted (p.lwip.close fd) (.close fd) }
    tls :=
      { p.tls.beside with
        sslHandshake := recorded p.tls.sslHandshake .handshake
        sslGetRecordExpansion := recorded p.tls.sslGetRecordExpansion .recordExpansion
        sslGetVerifyResult := recorded p.tls.sslGetVerifyResult .verifyResult } }

/-- mbedTLS error codes are negative: the calls whose answer is compared with
0 give 0 or a negative code. -/
structure NegativeErrors (tls : MbedTls σ) : Prop where
  sslConfigDefaults : ∀ s, (tls.sslConfigDefaults s).1 ≤ 0
  sslConfPsk : ∀ k i s, (tls.sslConfPsk k i s).1 ≤ 0
  pkParseKey : ∀ k s, (tls.pkParseKey k s).1 ≤ 0
  sslSetHostname : ∀ h s, (tls.sslSetHostname h s).1 ≤ 0
  sslSetup : ∀ s, (tls.sslSetup s).1 ≤ 0
  sslHandshake : ∀ s, (tls.sslHandshake s).1 ≤ 0

/-! ## The stages -/

namespace SslContext

variable {p : Platform σ} {s : Live (σ × List SetupCall) SslContext}

/-- What a stage that makes none of the recorded calls leaves: object and
record as they were, and a negative value if it ends the whole function. -/
def Quiet (s : Live (σ × List SetupCall) SslContext) (r : Except Int Unit)
    (s' : Live (σ × List SetupCall) SslContext) : Prop :=
  s'.self = s.self ∧ s'.env.2 = s.env.2 ∧ ∀ e, r = .error e → e < 0

theorem Quiet.ok {c : SslContext} {e e' : σ × List SetupCall} (hlog : e'.2 = e.2) : Quiet ⟨c, e⟩ (.ok ()) ⟨c, e'⟩ :=
  ⟨rfl, hlog, fun e h => by cases h⟩

theorem Quiet.error {c : SslContext} {e e' : σ × List SetupCall} {code : Int} (hlog : e'.2 = e.2) (hneg : code < 0) :
    Quiet ⟨c, e⟩ (.error code) ⟨c, e'⟩ :=
  ⟨rfl, hlog, fun e h => by cases h; exact hneg⟩

/-- The socket is opened, and connected if the stage succeeds. -/
theorem openSocket_returns {host : Bytes} {port : Nat} {timeout : Int} {r s'}
    (h : (openSocket p.logged host port timeout).Returns s r s') :
    ∃ fd, s'.self = { s.self with socket := fd } ∧
      ((∃ e, r = .error e ∧ e < 0 ∧ ∃ rcs : List Int, s'.env.2 = s.env.2 ++ .socket fd :: rcs.map (.connect fd)) ∨
        (r = .ok () ∧ 0 ≤ fd ∧ s'.env.2 = s.env.2 ++ [.socket fd, .connect fd 0])) := by
  simp only [openSocket, returns_set_bind, returns_call_bind, Prog.returns_ite, Prog.returns_pure] at h
  rcases h with ⟨hfd, rfl, rfl⟩ | ⟨hfd, h⟩
  · exact ⟨_, rfl, .inl ⟨_, rfl, hfd, [], rfl⟩⟩
  · obtain ⟨srv, t, hsrv, h⟩ := Prog.returns_bind.mp h
    have ht : t.self = { s.self with socket := (p.lwip.socket s.env.1).1 } ∧
        t.env.2 = s.env.2 ++ [.socket (p.lwip.socket s.env.1).1] := by
      rcases TCPClient.hostByName_returns hsrv with rfl | rfl <;> exact ⟨rfl, rfl⟩
    cases srv with
    | none =>
      obtain ⟨rfl, rfl⟩ := Prog.returns_pure.mp h
      exact ⟨_, ht.1, .inl ⟨_, rfl, by decide, [], ht.2⟩⟩
    | some srv =>
      simp only [returns_call_bind, returns_tell_bind, Prog.returns_ite, Prog.returns_pure] at h
      rcases h with ⟨hrc, rfl, rfl⟩ | ⟨_, rfl, rfl⟩
      · refine ⟨_, ht.1, .inr ⟨rfl, Int.not_lt.mp hfd, ?_⟩⟩
        show t.env.2 ++ [SetupCall.connect _ (p.lwip.connect _ _ t.env.1).1] = _
        have hrc : (p.lwip.connect _ ⟨srv, port⟩ t.env.1).1 = 0 := hrc
        rw [hrc, ht.2, List.append_assoc]
        rfl
      · refine ⟨_, ht.1, .inl ⟨_, rfl, by decide, 
          [(p.lwip.connect (p.lwip.socket s.env.1).1 ⟨srv, port⟩ t.env.1).1], ?_⟩⟩
        show t.env.2 ++ _ = _
        rw [ht.2, List.append_assoc]
        rfl

theorem seedAndDefaults_quiet (hneg : NegativeErrors p.tls) {r s'}
    (h : (seedAndDefaults p.logged).Returns s r s') : Quiet s r s' := by
  simp only [seedAndDefaults, returns_call_bind, returns_tell_bind, Prog.returns_ite, Prog.returns_pure] at h
  rcases h with ⟨hlt, rfl, rfl⟩ | ⟨_, ⟨hne, rfl, rfl⟩ | ⟨_, rfl, rfl⟩⟩
  · exact .error rfl (hlt)
  · exact .error rfl (Int.lt_iff_le_and_ne.mpr ⟨hneg.sslConfigDefaults _, hne⟩)
  · exact .ok rfl

theorem setPeerAuth_quiet (hneg : NegativeErrors p.tls) {rootCABuff pskIdent psKey : Option Bytes} {r s'}
    (h : (setPeerAuth p.logged rootCABuff pskIdent psKey).Returns s r s') : Quiet s r s' := by
  cases rootCABuff with
  | some ca =>
    simp only [setPeerAuth, returns_call_bind, returns_tell_bind, Prog.returns_ite, Prog.returns_pure] at h
    rcases h with ⟨hlt, rfl, rfl⟩ | ⟨_, rfl, rfl⟩
    · exact .error rfl (hlt)
    · exact .ok rfl
  | none =>
    cases pskIdent with
    | none =>
      simp only [setPeerAuth, returns_tell_bind, Prog.returns_pure] at h
      obtain ⟨rfl, rfl⟩ := h
      exact .ok rfl
    | some ident =>
      cases psKey with
      | none =>
        simp only [setPeerAuth, returns_tell_bind, Prog.returns_pure] at h
        obtain ⟨rfl, rfl⟩ := h
        exact .ok rfl
      | some key =>
        simp only [setPeerAuth, Prog.returns_ite, Prog.returns_pure] at h
        rcases h with ⟨_, rfl, rfl⟩ | ⟨_, h⟩
        · exact .error rfl (by decide)
        · cases hk : decodePsk key with
          | none =>
            simp only [hk, Prog.returns_pure] at h
            obtain ⟨rfl, rfl⟩ := h
            exact .error rfl (by decide)
          | some psk =>
            simp only [hk, returns_call_bind, Prog.returns_ite, Prog.returns_pure] at h
            rcases h with ⟨hne, rfl, rfl⟩ | ⟨_, rfl, rfl⟩
            · exact .error rfl (Int.lt_iff_le_and_ne.mpr ⟨hneg.sslConfPsk _ _ _, hne⟩)
            · exact .ok rfl

theorem setOwnCert_quiet (hneg : NegativeErrors p.tls) {cliCert cliKey : Option Bytes} {r s'}
    (h : (setOwnCert p.logged cliCert cliKey).Returns s r s') : Quiet s r s' := by
  unfold setOwnCert at h
  split at h
  · simp only [returns_call_bind, returns_tell_bind, Prog.returns_ite, Prog.returns_pure] at h
    rcases h with ⟨hlt, rfl, rfl⟩ | ⟨_, ⟨hne, rfl, rfl⟩ | ⟨_, rfl, rfl⟩⟩
    · exact .error rfl (hlt)
    · exact .error rfl (Int.lt_iff_le_and_ne.mpr ⟨hneg.pkParseKey _ _, hne⟩)
    · exact .ok rfl
  · obtain ⟨rfl, rfl⟩ := Prog.returns_pure.mp h
    exact .ok rfl

theorem setup_quiet (hneg : NegativeErrors p.tls) {host : Bytes} {r s'}
    (h : (setup p.logged host).Returns s r s') : Quiet s r s' := by
  simp only [setup, returns_call_bind, returns_tell_bind, returns_obj_bind, Prog.returns_ite, Prog.returns_pure] at h
  rcases h with ⟨hne, rfl, rfl⟩ | ⟨_, ⟨hne, rfl, rfl⟩ | ⟨_, rfl, rfl⟩⟩
  · exact .error rfl (Int.lt_iff_le_and_ne.mpr ⟨hneg.sslSetHostname _ _, hne⟩)
  · exact .error rfl (Int.lt_iff_le_and_ne.mpr ⟨hneg.sslSetup _, hne⟩)
  · exact .ok rfl

/-- The handshake is called until it gives 0, or fails for good. -/
theorem handshake_returns (hneg : NegativeErrors p.tls) {r s'} (h : (handshake p.logged).Returns s r s') :
    s'.self = s.self ∧ ∃ rcs : List Int, s'.env.2 = s.env.2 ++ rcs.map .handshake ∧
      ((r = .ok () ∧ 0 ∈ rcs) ∨ ∃ e, r = .error e ∧ e < 0) := by
  rw [handshake, returns_call_bind] at h
  refine Prog.Returns.loop_inv
    (fun _ t => t.self = s.self ∧ ∃ rcs : List Int, t.env.2 = s.env.2 ++ rcs.map .handshake)
    (fun r t => t.self = s.self ∧ ∃ rcs : List Int, t.env.2 = s.env.2 ++ rcs.map .handshake ∧
      ((r = .ok () ∧ 0 ∈ rcs) ∨ ∃ e, r = .error e ∧ e < 0)) ?_ h ⟨rfl, [], (List.append_nil _).symm⟩
  rintro ⟨⟩ ⟨c, e, log⟩ r t ⟨rfl, rcs, hlog⟩ ht
  have hlog : log = s.env.2 ++ rcs.map .handshake := hlog
  subst hlog
  have hrcs : ∀ rc, (s.env.2 ++ rcs.map SetupCall.handshake) ++ [.handshake rc] =
      s.env.2 ++ (rcs ++ [rc]).map SetupCall.handshake := by
    simp
  simp only [returns_call_bind, returns_tell_bind, returns_obj_bind, Prog.returns_ite, Prog.returns_pure] at ht
  rcases ht with ⟨h0, rfl, rfl⟩ | ⟨h0, ⟨hne, rfl, rfl⟩ | ⟨_, ⟨_, rfl, rfl⟩ | ⟨_, rfl, rfl⟩⟩⟩
  · have h0 : (p.tls.sslHandshake e).1 = 0 := h0
    exact ⟨rfl, rcs ++ [0], by rw [← hrcs, ← h0]; rfl, .inl ⟨rfl, by simp⟩⟩
  · exact ⟨rfl, _, hrcs _, .inr ⟨_, rfl, Int.lt_iff_le_and_ne.mpr ⟨hneg.sslHandshake _, h0⟩⟩⟩
  · exact ⟨rfl, _, hrcs _, .inr ⟨_, rfl, by decide⟩⟩
  · exact ⟨rfl, _, hrcs _⟩

/-- The frees of `stop_ssl_socket`. -/
def freed (tls : MbedTls σ) (e : σ) : σ :=
  tls.free .entropy (tls.free .ctrDrbg (tls.free .sslConfig (tls.free .ssl e)))

theorem stopSslSocket_open {p : Platform σ} {s : Live σ SslContext} (hs : 0 ≤ s.self.socket) :
    (stopSslSocket p).Returns s ()
      ⟨{ s.self with socket := -1 }, freed p.tls (p.lwip.close s.self.socket s.env)⟩ := by
  simp only [stopSslSocket, returns_obj_bind, returns_tell_bind, returns_set_bind, Prog.returns_ite]
  exact .inl ⟨hs, by simp [freed]⟩

theorem stopSslSocket_closed {p : Platform σ} {s : Live σ SslContext} (hs : s.self.socket < 0) :
    (stopSslSocket p).Returns s () ⟨s.self, freed p.tls s.env⟩ := by
  simp only [stopSslSocket, returns_obj_bind, returns_tell_bind, returns_set_bind, Prog.returns_ite]
  exact .inr ⟨Int.not_le.mpr hs, by simp [freed]⟩

/-- The verification once the flags are known. -/
theorem verified_returns {rootCABuff cliCert cliKey : Option Bytes} {ret ret' : Int} {s'}
    (hs : 0 ≤ s.self.socket)
    (h : (do
      let flags ← call p.logged.tls.sslGetVerifyResult
      if flags ≠ 0 then
        stopSslSocket p.logged
        return ret'
      if rootCABuff.isSome then
        tell (p.logged.tls.free .caCert)
      if cliCert.isSome then
        tell (p.logged.tls.free .clientCert)
      if cliKey.isSome then
        tell (p.logged.tls.free .clientKey)
      return (← obj).socket : Prog (Live (σ × List SetupCall) SslContext) Int).Returns s ret s') :
    (ret = s.self.socket ∧ s'.self = s.self ∧ s'.env.2 = s.env.2 ++ [.verifyResult 0]) ∨
      (ret = ret' ∧ s'.self.socket = -1 ∧ ∃ flags ≠ 0,
        s'.env.2 = s.env.2 ++ [.verifyResult flags, .close s.self.socket]) := by
  rw [returns_call_bind, Prog.returns_ite] at h
  rcases h with ⟨hflags, h⟩ | ⟨hflags, h⟩
  · right
    rw [Prog.returns_bind_of (stopSslSocket_open (s := ⟨s.self, (p.logged.tls.sslGetVerifyResult s.env).2⟩) hs), Prog.returns_pure] at h
    obtain ⟨rfl, rfl⟩ := h
    refine ⟨rfl, rfl, _, hflags, ?_⟩
    show (s.env.2 ++ [_]) ++ [_] = _
    rw [List.append_assoc]
    rfl
  · left
    have hflags : (p.tls.sslGetVerifyResult s.env.1).1 = 0 := Decidable.not_not.mp hflags
    have hlog : (p.logged.tls.sslGetVerifyResult s.env).2.2 = s.env.2 ++ [.verifyResult 0] := by
      show s.env.2 ++ [SetupCall.verifyResult (p.tls.sslGetVerifyResult s.env.1).1] = _
      rw [hflags]
    rw [← hlog]
    cases rootCABuff <;> cases cliCert <;> cases cliKey <;>
    · simp only [Option.isSome_none, Option.isSome_some, if_true, if_false, returns_tell_bind, returns_obj_bind,
        Prog.returns_pure, Bool.false_eq_true] at h
      obtain ⟨rfl, rfl⟩ := h
      exact ⟨rfl, rfl, rfl⟩

/-- The verification: passed, with the socket, or refused, closed, with `ret`
as the record expansion left it. -/
theorem verifyPeer_returns {rootCABuff cliCert cliKey : Option Bytes} {ret s'} (hs : 0 ≤ s.self.socket)
    (h : (verifyPeer p.logged rootCABuff cliCert cliKey).Returns s ret s') :
    ∃ exps : List Int, exps.length ≤ 1 ∧
      ((ret = s.self.socket ∧ s'.self = s.self ∧
          s'.env.2 = s.env.2 ++ exps.map .recordExpansion ++ [.verifyResult 0]) ∨
        (ret = exps.headD 0 ∧ s'.self.socket = -1 ∧ ∃ flags ≠ 0,
          s'.env.2 = s.env.2 ++ exps.map .recordExpansion ++ [.verifyResult flags, .close s.self.socket])) := by
  rw [verifyPeer, Prog.returns_ite] at h
  rcases h with ⟨_, h⟩ | ⟨_, h⟩
  · rw [returns_call_bind] at h
    refine ⟨[(p.tls.sslGetRecordExpansion s.env.1).1], by simp, ?_⟩
    exact verified_returns (s := ⟨s.self, (p.logged.tls.sslGetRecordExpansion s.env).2⟩) hs h
  · refine ⟨[], by simp, ?_⟩
    have := verified_returns hs h
    simpa using this

/-! ## The whole function -/

/-- How `start_ssl_client` ends, by what it recorded: before the verification,
verified, or refused by it. -/
inductive Ended : List SetupCall → Int → Int → Prop where
  | early (fd ret : Int) (cs hs : List Int) : ret < 0 →
      Ended (.socket fd :: cs.map (.connect fd) ++ hs.map .handshake) ret fd
  | verified (fd : Int) (hs exps : List Int) : 0 ≤ fd → 0 ∈ hs →
      Ended (.socket fd :: .connect fd 0 :: hs.map .handshake ++ exps.map .recordExpansion ++ [.verifyResult 0]) fd fd
  | refused (fd : Int) (hs exps : List Int) (flags : Nat) : 0 ≤ fd → exps.length ≤ 1 → flags ≠ 0 →
      Ended (.socket fd :: .connect fd 0 :: hs.map .handshake ++ exps.map .recordExpansion ++
        [.verifyResult flags, .close fd]) (exps.headD 0) (-1)

/-- The socket is connected and the handshake has not begun. -/
def Opened (fd : Int) (s : Live (σ × List SetupCall) SslContext) : Prop :=
  s.self.socket = fd ∧ s.env.2 = [.socket fd, .connect fd 0]

theorem Quiet.opened {fd : Int} {r s'} (h : Quiet s r s') (hs : Opened fd s) : Opened fd s' :=
  ⟨by rw [h.1, hs.1], by rw [h.2.1, hs.2]⟩

theorem Quiet.ended {fd e : Int} {s'} (h : Quiet s (.error e) s') (hs : Opened fd s) :
    Ended s'.env.2 e s'.self.socket := by
  obtain ⟨hself, hlog⟩ := h.opened hs
  rw [hself, hlog]
  exact .early fd e [0] [] (h.2.2 e rfl)

theorem startSslClient_ended (hneg : NegativeErrors p.tls) {host : Bytes} {port : Nat} {timeout : Int}
    {rootCABuff cliCert cliKey pskIdent psKey : Option Bytes} {ret s'} (hlog : s.env.2 = [])
    (h : (startSslClient p.logged host port timeout rootCABuff cliCert cliKey pskIdent psKey).Returns s ret s') :
    Ended s'.env.2 ret s'.self.socket := by
  obtain ⟨r, t, hr, h⟩ := Prog.returns_bind.mp h
  obtain ⟨fd, hfd, ⟨e, rfl, he, cs, hcs⟩ | ⟨rfl, hpos, hcs⟩⟩ := openSocket_returns hr
  · obtain ⟨rfl, rfl⟩ := Prog.returns_pure.mp h
    rw [hcs, hlog, hfd]
    simpa using Ended.early fd ret cs [] he
  have ht : Opened fd t := ⟨by rw [hfd], by rw [hcs, hlog]; rfl⟩
  obtain ⟨r, u, hr, h⟩ := Prog.returns_bind.mp h
  have hq := seedAndDefaults_quiet hneg hr
  cases r with
  | error e => obtain ⟨rfl, rfl⟩ := Prog.returns_pure.mp h; exact hq.ended ht
  | ok _ =>
  replace ht := hq.opened ht
  obtain ⟨r, v, hr, h⟩ := Prog.returns_bind.mp h
  have hq := setPeerAuth_quiet hneg hr
  cases r with
  | error e => obtain ⟨rfl, rfl⟩ := Prog.returns_pure.mp h; exact hq.ended ht
  | ok _ =>
  replace ht := hq.opened ht
  obtain ⟨r, w, hr, h⟩ := Prog.returns_bind.mp h
  have hq := setOwnCert_quiet hneg hr
  cases r with
  | error e => obtain ⟨rfl, rfl⟩ := Prog.returns_pure.mp h; exact hq.ended ht
  | ok _ =>
  replace ht := hq.opened ht
  obtain ⟨r, x, hr, h⟩ := Prog.returns_bind.mp h
  have hq := setup_quiet hneg hr
  cases r with
  | error e => obtain ⟨rfl, rfl⟩ := Prog.returns_pure.mp h; exact hq.ended ht
  | ok _ =>
  obtain ⟨hfd, hlog⟩ := hq.opened ht
  obtain ⟨r, y, hr, h⟩ := Prog.returns_bind.mp h
  obtain ⟨hself, hs, hhs, ⟨rfl, hmem⟩ | ⟨e, rfl, he⟩⟩ := handshake_returns hneg hr
  · obtain ⟨⟨⟩, z, hz, h⟩ := Prog.returns_bind.mp h
    rw [returns_set] at hz
    subst hz
    obtain ⟨exps, hlen, ⟨rfl, hself', hlog'⟩ | ⟨rfl, hclosed, flags, hflags, hlog'⟩⟩ :=
      verifyPeer_returns (by simp only [hself, hfd, hpos]) h
    · rw [hlog', hself']
      simp only [hhs, hlog, hself, hfd]
      exact .verified fd hs exps hpos hmem
    · rw [hlog', hclosed]
      simp only [hhs, hlog, hself, hfd]
      exact .refused fd hs exps flags hpos hlen hflags
  · obtain ⟨rfl, rfl⟩ := Prog.returns_pure.mp h
    rw [hhs, hlog, hself, hfd]
    exact .early fd ret [0] hs he

end SslContext

/-! ## Failing closed -/

/-- The session on the socket `fd` is verified, and the socket is open. -/
def Verified (log : List SetupCall) (fd : Int) : Prop :=
  .socket fd ∈ log ∧ .connect fd 0 ∈ log ∧ .handshake 0 ∈ log ∧ .verifyResult 0 ∈ log ∧
    (∀ flags, .verifyResult flags ∈ log → flags = 0) ∧ .close fd ∉ log

/-- `connect` gives 1 and the flag for a verified session alone, and otherwise
0, no flag and no socket. -/
def FailsClosed (log : List SetupCall) (r : Int) (c : TCPClientSecure) : Prop :=
  (r = 1 ∧ c._connected = true ∧ 0 ≤ c.sslclient.socket ∧ Verified log c.sslclient.socket) ∨
    (r = 0 ∧ c._connected = false ∧ c.sslclient.socket < 0 ∧ ∀ fd, 0 ≤ fd → .socket fd ∈ log → .close fd ∈ log)

/-- The peer was not refused, or the record expansion was asked for before and
is a negative code. -/
def RefusalReported (log : List SetupCall) : Prop :=
  ∀ flags, .verifyResult flags ∈ log → flags = 0 ∨ ∃ e < 0, .recordExpansion e ∈ log

/-- A socket was made and the peer was not refused: `stop` then clears the flag. -/
def FlagCleared (log : List SetupCall) : Prop :=
  (∃ fd, 0 ≤ fd ∧ .socket fd ∈ log) ∧ ∀ flags, .verifyResult flags ∈ log → flags = 0

namespace SslContext

variable {log : List SetupCall} {ret fd : Int}

theorem Ended.refusalReported (h : Ended log ret fd) (hret : ret < 0) : RefusalReported log := by
  cases h with
  | early fd ret cs hs hneg => exact fun flags hf => by simp at hf
  | verified fd hs exps hpos hmem => exact fun flags hf => .inl (by simpa using hf)
  | refused fd hs exps flags hpos hlen hflags =>
    cases exps with
    | nil => exact absurd hret (by decide)
    | cons e exps => exact fun _ _ => .inr ⟨e, hret, by simp⟩

/-- A value that is taken for a socket: verified, or a refusal that nothing reports. -/
theorem Ended.accepted (h : Ended log ret fd) (hret : 0 ≤ ret) :
    (fd = ret ∧ Verified log fd ∧ RefusalReported log ∧ FlagCleared log) ∨
      (fd = -1 ∧ ¬ RefusalReported log ∧ ¬ Verified log ret) := by
  cases h with
  | early fd ret cs hs hneg => exact absurd hret (Int.not_le.mpr hneg)
  | verified fd hs exps hpos hmem =>
    refine .inl ⟨rfl, by simp [Verified, hmem], fun flags hf => .inl (by simpa using hf), ⟨_, hpos, by simp⟩, ?_⟩
    exact fun flags hf => by simpa using hf
  | refused fd hs exps flags hpos hlen hflags =>
    refine .inr ⟨rfl, fun h => ?_, fun h => hflags (h.2.2.2.2.1 flags (by simp))⟩
    obtain h | ⟨e, he, hmem⟩ := h flags (by simp)
    · exact hflags h
    · match exps with
      | [] => simp at hmem
      | [e'] =>
        have : e = e' := by simpa using hmem
        rw [this] at he
        exact absurd hret (Int.not_le.mpr he)

/-- The socket of a run that failed, once `stop` has closed it. -/
theorem Ended.stopped (h : Ended log ret fd) (hret : ret < 0) (hfd : 0 ≤ fd) :
    FlagCleared (log ++ [.close fd]) ∧
      ∀ fd', 0 ≤ fd' → .socket fd' ∈ log ++ [.close fd] → .close fd' ∈ log ++ [.close fd] := by
  cases h with
  | early fd ret cs hs hneg => exact ⟨⟨⟨fd, hfd, by simp⟩, by simp⟩, fun fd' _ hf => by simpa using hf⟩
  | verified fd hs exps hpos hmem => exact absurd hret (Int.not_lt.mpr hpos)
  | refused fd hs exps flags hpos hlen hflags => exact absurd hfd (by decide)

/-- A run that failed and left `stop` nothing to close. -/
theorem Ended.unstopped (h : Ended log ret fd) (hret : ret < 0) (hfd : fd < 0) :
    ¬ FlagCleared log ∧ ∀ fd', 0 ≤ fd' → .socket fd' ∈ log → .close fd' ∈ log := by
  cases h with
  | early fd ret cs hs hneg =>
    have only : ∀ fd', .socket fd' ∈ (SetupCall.socket fd :: cs.map (.connect fd) ++ hs.map .handshake) → fd' = fd :=
      fun fd' hf => by simpa using hf
    refine ⟨fun ⟨⟨fd', hpos, hf⟩, _⟩ => ?_, fun fd' hpos hf => ?_⟩ <;>
    · rw [only fd' hf] at hpos
      exact absurd hpos (Int.not_le.mpr hfd)
  | verified fd hs exps hpos hmem => exact absurd hret (Int.not_lt.mpr hpos)
  | refused fd hs exps flags hpos hlen hflags =>
    exact ⟨fun h => hflags (h.2 flags (by simp)), fun fd' _ hf => by simpa using hf⟩

theorem Ended.failsClosed_iff (h : Ended log ret fd) :
    (0 ≤ ret → fd = ret ∧ Verified log ret) ↔ RefusalReported log := by
  by_cases hret : 0 ≤ ret
  · obtain ⟨rfl, hv, hr, _⟩ | ⟨_, hr, hv⟩ := h.accepted hret
    · exact ⟨fun _ => hr, fun _ _ => ⟨rfl, hv⟩⟩
    · exact ⟨fun h => absurd (h hret).2 hv, fun h => absurd h hr⟩
  · exact ⟨fun _ => h.refusalReported (Int.not_le.mp hret), fun _ h => absurd h hret⟩

end SslContext

namespace TCPClientSecure

variable {p : Platform σ}

theorem stop_open {s : Live σ TCPClientSecure} (hs : 0 ≤ s.self.sslclient.socket) :
    (stop p).Returns s ()
      ⟨{ s.self with sslclient := { s.self.sslclient with socket := -1 }, _connected := false, _peek := -1 },
        SslContext.freed p.tls (p.lwip.close s.self.sslclient.socket s.env)⟩ := by
  simp only [stop, ssl, returns_obj_bind, returns_tell_bind, returns_set_bind, Prog.returns_ite, Prog.returns_zoom]
  exact .inl ⟨hs, _, SslContext.stopSslSocket_closed (show (-1 : Int) < 0 by decide), rfl⟩

theorem stop_closed {s : Live σ TCPClientSecure} (hs : s.self.sslclient.socket < 0) :
    (stop p).Returns s () ⟨s.self, SslContext.freed p.tls s.env⟩ := by
  simp only [stop, ssl, returns_obj_bind, returns_tell_bind, returns_set_bind, Prog.returns_ite, Prog.returns_zoom]
  exact .inr ⟨Int.not_le.mpr hs, _, SslContext.stopSslSocket_closed hs, rfl⟩

/-- The context `start_ssl_client` is called with. -/
def starting (c : TCPClientSecure) : SslContext :=
  if c._timeout > 0 then { c.sslclient with handshakeTimeout := c._timeout.toNat } else c.sslclient

/-- What `connect` makes of the value `start_ssl_client` returns. -/
theorem connectWith_returns {start : Prog (Live σ SslContext) Int} {s : Live σ TCPClientSecure} {r s'}
    (h : (connectWith p start).Returns s r s') :
    ∃ ret t, start.Returns ⟨starting s.self, s.env⟩ ret t ∧
      ((0 ≤ ret ∧ r = 1 ∧ s'.self._connected = true ∧ s'.self.sslclient = t.self ∧ s'.env = t.env) ∨
        (ret < 0 ∧ r = 0 ∧ 0 ≤ t.self.socket ∧ s'.self._connected = false ∧ s'.self.sslclient.socket = -1 ∧
          s'.env = SslContext.freed p.tls (p.lwip.close t.self.socket t.env)) ∨
        (ret < 0 ∧ r = 0 ∧ t.self.socket < 0 ∧ s'.self._connected = s.self._connected ∧
          s'.self.sslclient = t.self ∧ s'.env = SslContext.freed p.tls t.env)) := by
  obtain ⟨c, hc, hctx, h⟩ : ∃ c : TCPClientSecure, c._connected = s.self._connected ∧ c.sslclient = starting s.self ∧
      (do
        let ret ← ssl start
        set fun c => { c with _lastError := ret }
        if ret < 0 then
          stop p
          return 0
        set fun c => { c with _connected := true }
        return 1 : Prog (Live σ TCPClientSecure) Int).Returns ⟨c, s.env⟩ r s' := by
    rw [connectWith, returns_obj_bind, Prog.returns_ite] at h
    unfold starting
    rcases h with ⟨htimeout, h⟩ | ⟨htimeout, h⟩
    · rw [returns_set_bind] at h
      rw [if_pos htimeout]
      refine ⟨_, ?_, ?_, h⟩
      · rfl
      · rfl
    · rw [if_neg htimeout]
      exact ⟨_, rfl, rfl, h⟩
  obtain ⟨ret, t, hret, h⟩ := Prog.returns_bind.mp h
  obtain ⟨t, hstart, rfl⟩ := Prog.returns_zoom.mp hret
  refine ⟨ret, t, hctx ▸ hstart, ?_⟩
  rw [returns_set_bind, Prog.returns_ite] at h
  rcases h with ⟨hneg, h⟩ | ⟨hneg, h⟩
  · right
    by_cases hsock : 0 ≤ t.self.socket
    · rw [Prog.returns_bind_of (stop_open (by exact hsock)), Prog.returns_pure] at h
      obtain ⟨rfl, rfl⟩ := h
      exact .inl ⟨hneg, rfl, hsock, rfl, rfl, rfl⟩
    · have hsock := Int.not_le.mp hsock
      rw [Prog.returns_bind_of (stop_closed (by exact hsock)), Prog.returns_pure] at h
      obtain ⟨rfl, rfl⟩ := h
      exact .inr ⟨hneg, rfl, hsock, hc, rfl, rfl⟩
  · rw [returns_set_bind, Prog.returns_pure] at h
    obtain ⟨rfl, rfl⟩ := h
    exact .inl ⟨Int.not_lt.mp hneg, rfl, rfl, rfl, rfl⟩

variable {s : Live (σ × List SetupCall) TCPClientSecure}

theorem connectWith_failsClosed_iff {start : Prog (Live (σ × List SetupCall) SslContext) Int}
    (hstart : ∀ {u ret t}, u.env.2 = [] → start.Returns u ret t → SslContext.Ended t.env.2 ret t.self.socket)
    (hlog : s.env.2 = []) {r s'} (h : (connectWith p.logged start).Returns s r s') :
    FailsClosed s'.env.2 r s'.self ↔
      RefusalReported s'.env.2 ∧ (s.self._connected = true → FlagCleared s'.env.2) := by
  obtain ⟨ret, t, hret, h⟩ := connectWith_returns h
  have hend := hstart hlog hret
  rcases h with ⟨hret0, rfl, hc, hsock, henv⟩ | ⟨hneg, rfl, hpos, hc, hsock, henv⟩ | ⟨hneg, rfl, hclosed, hc, hsock, henv⟩
  · rw [henv]
    obtain ⟨rfl, hv, hr, hf⟩ | ⟨hfd, hr, _⟩ := hend.accepted hret0
    · refine ⟨fun _ => ⟨hr, fun _ => hf⟩, fun _ => .inl ⟨rfl, hc, ?_, ?_⟩⟩
      · rw [hsock]; exact hret0
      · rw [hsock]; exact hv
    · refine ⟨fun h => ?_, fun h => absurd h.1 hr⟩
      rcases h with ⟨_, _, hpos, _⟩ | ⟨h, _⟩
      · rw [hsock, hfd] at hpos
        exact absurd hpos (by decide)
      · exact absurd h (by decide)
  · have henv : s'.env.2 = t.env.2 ++ [.close t.self.socket] := by rw [henv]; rfl
    obtain ⟨hf, hclose⟩ := hend.stopped hneg hpos
    rw [henv]
    refine ⟨fun _ => ⟨fun flags hm => ?_, fun _ => hf⟩, fun _ => .inr ⟨rfl, hc, by rw [hsock]; decide, hclose⟩⟩
    exact .inl (hf.2 flags hm)
  · have henv : s'.env.2 = t.env.2 := by rw [henv]; rfl
    obtain ⟨hf, hclose⟩ := hend.unstopped hneg hclosed
    rw [henv]
    refine ⟨fun h => ⟨hend.refusalReported hneg, fun hb => ?_⟩, fun h => .inr ⟨rfl, ?_, by rw [hsock]; exact hclosed, hclose⟩⟩
    · rcases h with ⟨h, _⟩ | ⟨_, h, _⟩
      · exact absurd h (by decide)
      · rw [hc, hb] at h
        exact absurd h (by decide)
    · rw [hc]
      exact Bool.eq_false_iff.mpr fun hb => hf (h.2 hb)

/-- **Setting up a TLS connection fails closed exactly when** a refusal of the
peer is reported by a negative record expansion, and `connect` besides when it
was not connected before, or made a socket and was not refused. -/
theorem setUp_failsClosed_iff (hneg : NegativeErrors p.tls) (host : Bytes) (port : Nat) (timeout : Int)
    (rootCABuff cliCert cliKey pskIdent psKey : Option Bytes) (hlog : s.env.2 = []) :
    (∀ ret t, (SslContext.startSslClient p.logged host port timeout rootCABuff cliCert cliKey pskIdent psKey).Returns
        ⟨s.self.sslclient, s.env⟩ ret t →
      ((0 ≤ ret → t.self.socket = ret ∧ Verified t.env.2 ret) ↔ RefusalReported t.env.2)) ∧
    (∀ r t, (connectCert p.logged host port rootCABuff cliCert cliKey).Returns s r t →
      (FailsClosed t.env.2 r t.self ↔
        RefusalReported t.env.2 ∧ (s.self._connected = true → FlagCleared t.env.2))) ∧
    (∀ r t, (connectPsk p.logged host port pskIdent psKey).Returns s r t →
      (FailsClosed t.env.2 r t.self ↔
        RefusalReported t.env.2 ∧ (s.self._connected = true → FlagCleared t.env.2))) := by
  refine ⟨fun ret t h => (SslContext.startSslClient_ended hneg hlog h).failsClosed_iff, fun r t h => ?_, fun r t h => ?_⟩
  · rw [connectCert, returns_obj_bind] at h
    exact connectWith_failsClosed_iff (fun hu => SslContext.startSslClient_ended hneg hu) hlog h
  · rw [connectPsk, returns_obj_bind] at h
    exact connectWith_failsClosed_iff (fun hu => SslContext.startSslClient_ended hneg hu) hlog h

/-- A platform where every call succeeds and the peer is verified with `flags`. -/
def steady (flags : Nat) : Platform Unit where
  lwip :=
    { inetAddr := fun _ => 0x0100007F
      getaddrinfo := fun _ s => (none, s)
      socket := fun s => (3, s)
      setsockopt := fun _ _ s => (0, s)
      connect := fun _ _ s => (0, s)
      shutdown := fun _ s => s
      close := fun _ s => s
      ioctl := fun _ s => (some 0, s)
      select := fun _ s => (0, s)
      recv := fun _ _ s => (.err, s)
      write := fun _ bs s => (bs.length, s)
      fcntlNonblock := fun _ s => s }
  tls := .steady flags
  malloc := fun _ s => (true, s)
  millis := fun s => (0, s)
  delay := fun _ s => s

theorem steady_negativeErrors (flags : Nat) : NegativeErrors (steady flags).tls := by
  refine ⟨fun _ => ?_, fun _ _ _ => ?_, fun _ _ => ?_, fun _ _ => ?_, fun _ => ?_, fun _ => ?_⟩ <;> exact Int.le_refl 0

/-- The iff at a platform where the peer is verified: `connect` gives 1, and
rightly. -/
theorem setUp_failsClosed_verified :
    ∃ t, (connectCert (steady 0).logged (bytes "h") 443 (some (bytes "CA")) none none).Returns ⟨{}, (), []⟩ 1 t ∧
      FailsClosed t.env.2 1 t.self := by
  have h := setUp_failsClosed_iff (s := ⟨{}, (), []⟩) (steady_negativeErrors 0) (bytes "h") 443 0
    (some (bytes "CA")) none none none none rfl
  have run : (connectCert (steady 0).logged (bytes "h") 443 (some (bytes "CA")) none none).Returns ⟨{}, (), []⟩ 1
      ⟨{ sslclient := ⟨3, 120000, some (some (bytes "CA"))⟩, _connected := true, _lastError := 3 }, (),
        [.socket 3, .connect 3 0, .handshake 0, .verifyResult 0]⟩ := ⟨1, rfl⟩
  exact ⟨_, run, (h.2.1 _ _ run).mpr ⟨fun flags hf => .inl (by simpa using hf), nofun⟩⟩

/-- A peer that is refused while there is no client certificate: `ret` is the
0 of the handshake, and `connect` succeeds with the socket closed. -/
theorem refused_connects :
    ∃ t, (connectCert (steady 8).logged (bytes "h") 443 (some (bytes "CA")) none none).Returns ⟨{}, (), []⟩ 1 t ∧
      t.self._connected = true ∧ t.self.sslclient.socket = -1 ∧ ¬ FailsClosed t.env.2 1 t.self := by
  refine ⟨_, ⟨1, rfl⟩, rfl, rfl, ?_⟩
  rintro (⟨_, _, h, _⟩ | ⟨h, _⟩)
  · exact absurd h (by decide)
  · exact absurd h (by decide)

end TCPClientSecure

end FEmbed
