/-
What the calls of a `TCPClientSecure` do, one by one: each is described by all
the ways it returns.
-/
import FEmbedLwip.SslClientFacts

namespace FEmbed.TCPClientSecure

open Live

variable {σ : Type} {p : Platform σ}

theorem returns_ssl {α : Type} {x : Prog (Live σ SslContext) α} {s s' : Live σ TCPClientSecure} {a : α} :
    (ssl x).Returns s a s' ↔
      ∃ t, x.Returns ⟨s.self.sslclient, s.env⟩ a t ∧ s' = ⟨{ s.self with sslclient := t.self }, t.env⟩ :=
  Prog.returns_zoom

/-! ## `stop` -/

/-- The client after `stop`: one without a socket keeps its flag. -/
def stopped (p : Platform σ) (s : Live σ TCPClientSecure) : Live σ TCPClientSecure :=
  if 0 ≤ s.self.sslclient.socket then
    ⟨{ s.self with sslclient := { s.self.sslclient with socket := -1 }, _connected := false, _peek := -1 },
      SslContext.freed p.tls (p.lwip.close s.self.sslclient.socket s.env)⟩
  else ⟨s.self, SslContext.freed p.tls s.env⟩

theorem stop_returns {s s' : Live σ TCPClientSecure} : (stop p).Returns s () s' ↔ s' = stopped p s := by
  have h : (stop p).Returns s () (stopped p s) := by
    unfold stopped
    by_cases hs : 0 ≤ s.self.sslclient.socket
    · rw [if_pos hs]
      exact stop_open hs
    · rw [if_neg hs]
      exact stop_closed (Int.not_le.mp hs)
  exact ⟨fun h' => (h'.det h).2, fun h' => h' ▸ h⟩

/-! ## `available` -/

/-- The outside after `data_to_read`. -/
def asked (p : Platform σ) (e : σ) : σ := (p.tls.sslGetBytesAvail (p.tls.sslRead 0 e).2).2

/-- `mbedtls_ssl_read` reports an error, and not that it waits. -/
def IsError (rc : Int) : Prop := rc ≠ SslContext.errWantRead ∧ rc ≠ SslContext.errWantWrite ∧ rc < 0

instance (rc : Int) : Decidable (IsError rc) := inferInstanceAs (Decidable (_ ∧ _ ∧ _))

/-- What `data_to_read` returns. -/
def toRead (p : Platform σ) (e : σ) : Int :=
  if IsError (p.tls.sslRead 0 e).1.rc then (p.tls.sslRead 0 e).1.rc
  else int32 (p.tls.sslGetBytesAvail (p.tls.sslRead 0 e).2).1

theorem dataToRead_returns {s s' : Live σ SslContext} {r : Int} : (SslContext.dataToRead p).Returns s r s' ↔
    r = toRead p s.env ∧ s' = ⟨s.self, asked p s.env⟩ := by
  unfold SslContext.dataToRead toRead
  rw [returns_call_bind, returns_call_bind, Prog.returns_ite]
  by_cases h : IsError (p.tls.sslRead 0 s.env).1.rc
  · rw [if_pos h]
    exact ⟨fun h' => h'.elim (fun h' => Prog.returns_pure.mp h'.2) fun h' => absurd h h'.1,
      fun h' => .inl ⟨h, Prog.returns_pure.mpr h'⟩⟩
  · rw [if_neg h]
    exact ⟨fun h' => h'.elim (fun h' => absurd h'.1 h) fun h' => Prog.returns_pure.mp h'.2,
      fun h' => .inr ⟨h, Prog.returns_pure.mpr h'⟩⟩

/-- Whether a byte is looked ahead at, as a number. -/
def peeked (c : TCPClientSecure) : Int := if c._peek ≥ 0 then 1 else 0

theorem available_returns {s s' : Live σ TCPClientSecure} {r : Int} : (available p).Returns s r s' ↔
    (s.self._connected = false ∧ r = peeked s.self ∧ s' = s) ∨
      (s.self._connected = true ∧ toRead p s.env < 0 ∧ r = (if s.self._peek ≥ 0 then 1 else toRead p s.env) ∧
        s' = stopped p ⟨s.self, asked p s.env⟩) ∨
      (s.self._connected = true ∧ 0 ≤ toRead p s.env ∧ r = toRead p s.env + peeked s.self ∧
        s' = ⟨s.self, asked p s.env⟩) := by
  have hd : (ssl (SslContext.dataToRead p)).Returns s (toRead p s.env) ⟨s.self, asked p s.env⟩ :=
    returns_ssl.mpr ⟨_, dataToRead_returns.mpr ⟨rfl, rfl⟩, rfl⟩
  unfold available
  rw [returns_obj_bind]
  cases hc : s.self._connected with
  | false => simp [peeked]
  | true =>
    simp only [not_true, if_false, Prog.returns_bind_of hd]
    by_cases hr : toRead p s.env < 0
    · rw [if_pos hr, Prog.returns_bind_of (stop_returns.mpr rfl), Prog.returns_pure]
      by_cases hp : s.self._peek ≥ 0 <;> simp [hr, hp, Int.not_le.mpr hr]
    · rw [if_neg hr, Prog.returns_pure]
      simp [hr, peeked, Int.not_lt.mp hr]

/-! ## Reading -/

/-- What `get_ssl_receive` leads to: an error stops the client. `ahead` is the
byte that was looked ahead at. -/
def received (p : Platform σ) (ahead : Bytes) (n : Nat) (s : Live σ TCPClientSecure) :
    (Int × Bytes) × Live σ TCPClientSecure :=
  let a := p.tls.sslRead n s.env
  if a.1.rc < 0 then
    ((if ahead.isEmpty then a.1.rc else 1, ahead), stopped p ⟨s.self, a.2⟩)
  else ((a.1.rc + ahead.length, ahead ++ a.1.got), ⟨s.self, a.2⟩)

theorem received_error {a : Bytes} {n : Nat} {s : Live σ TCPClientSecure} (h : (p.tls.sslRead n s.env).1.rc < 0) :
    received p a n s =
      ((if a.isEmpty then (p.tls.sslRead n s.env).1.rc else 1, a), stopped p ⟨s.self, (p.tls.sslRead n s.env).2⟩) :=
  if_pos h

theorem received_data {a : Bytes} {n : Nat} {s : Live σ TCPClientSecure} {b : UInt8} {bs : Bytes}
    (h : (p.tls.sslRead n s.env).1 = .data b bs) :
    received p a n s = ((((a ++ b :: bs).length : Int), a ++ b :: bs), ⟨s.self, (p.tls.sslRead n s.env).2⟩) := by
  have hrc : ¬ (SslRecv.data b bs).rc < 0 := by
    simp only [SslRecv.rc]
    omega
  have hlen : (SslRecv.data b bs).rc + a.length = ((a ++ b :: bs).length : Int) := by
    simp only [SslRecv.rc, List.length_append, List.length_cons]
    omega
  simp only [received, h, if_neg hrc, hlen, SslRecv.got]

/-- `readBuf`, once `available` gave `avail`. -/
def taken (p : Platform σ) (n : Nat) (avail : Int) (s : Live σ TCPClientSecure) :
    (Int × Bytes) × Live σ TCPClientSecure :=
  if avail ≤ 0 then ((-1, []), s)
  else if n = 0 then ((0, []), s)
  else if s.self._peek ≥ 0 then
    let peeked : Bytes := [UInt8.ofNat s.self._peek.toNat]
    let t : Live σ TCPClientSecure := ⟨{ s.self with _peek := -1 }, s.env⟩
    if n - 1 = 0 ∨ avail - 1 = 0 then ((1, peeked), t) else received p peeked (n - 1) t
  else received p [] n s

theorem getSslReceive_returns {n : Nat} {s : Live σ TCPClientSecure} :
    (ssl (SslContext.getSslReceive p n)).Returns s ((p.tls.sslRead n s.env).1.rc, (p.tls.sslRead n s.env).1.got)
      ⟨s.self, (p.tls.sslRead n s.env).2⟩ := by
  refine returns_ssl.mpr ⟨⟨s.self.sslclient, (p.tls.sslRead n s.env).2⟩, ?_, rfl⟩
  unfold SslContext.getSslReceive
  rw [returns_call_bind]
  exact Prog.returns_pure.mpr ⟨rfl, rfl⟩

theorem returns_pure_iff {S α : Type} {a b : α} {s s' : S} :
    (pure a : Prog S α).Returns s b s' ↔ (b, s') = (a, s) := by
  rw [Prog.returns_pure, Prod.mk.injEq]

theorem readBuf_returns {n : Nat} {s s' : Live σ TCPClientSecure} {r : Int × Bytes} : (readBuf p n).Returns s r s' ↔
    ∃ avail t, (available p).Returns s avail t ∧ (r, s') = taken p n avail t := by
  unfold readBuf
  rw [Prog.returns_bind]
  refine exists_congr fun avail => exists_congr fun t => and_congr_right fun _ => ?_
  unfold taken
  by_cases ha : avail ≤ 0
  · rw [if_pos ha, if_pos ha, returns_pure_iff]
  rw [if_neg ha, if_neg ha]
  by_cases hn : n = 0
  · rw [if_pos hn, if_pos hn, returns_pure_iff]
  rw [if_neg hn, if_neg hn, returns_obj_bind]
  by_cases hp : t.self._peek ≥ 0
  · rw [if_pos hp, if_pos hp]
    simp only [returns_set_bind]
    by_cases hlast : n - 1 = 0 ∨ avail - 1 = 0
    · rw [if_pos hlast, if_pos hlast, returns_pure_iff]
    · rw [if_neg hlast, if_neg hlast, Prog.returns_bind_of getSslReceive_returns]
      unfold received
      by_cases hrc : (p.tls.sslRead (n - 1) t.env).1.rc < 0
      · simp [hrc, Prog.returns_bind_of (stop_returns.mpr rfl)]
      · simp [hrc]
  · rw [if_neg hp, if_neg hp, Prog.returns_bind_of getSslReceive_returns]
    unfold received
    by_cases hrc : (p.tls.sslRead n t.env).1.rc < 0
    · simp [hrc, Prog.returns_bind_of (stop_returns.mpr rfl)]
    · simp [hrc]

theorem read_returns {s s' : Live σ TCPClientSecure} {c : Int} : (read p).Returns s c s' ↔
    ∃ r, (readBuf p 1).Returns s r s' ∧ c = (if r.1 < 0 then r.1 else ((r.2.headD 255).toNat : Int)) := by
  unfold read
  rw [Prog.returns_bind]
  constructor
  · rintro ⟨⟨rc, got⟩, t, hr, h⟩
    dsimp only at h
    by_cases hrc : rc < 0
    · rw [if_pos hrc] at h
      obtain ⟨rfl, rfl⟩ := Prog.returns_pure.mp h
      exact ⟨_, hr, (if_pos hrc).symm⟩
    · rw [if_neg hrc] at h
      obtain ⟨rfl, rfl⟩ := Prog.returns_pure.mp h
      exact ⟨_, hr, (if_neg hrc).symm⟩
  · rintro ⟨⟨rc, got⟩, hr, rfl⟩
    refine ⟨_, _, hr, ?_⟩
    dsimp only
    by_cases hrc : rc < 0
    · rw [if_pos hrc, if_pos hrc]
      exact Prog.returns_pure.mpr ⟨rfl, rfl⟩
    · rw [if_neg hrc, if_neg hrc]
      exact Prog.returns_pure.mpr ⟨rfl, rfl⟩

theorem connected_returns {s s' : Live σ TCPClientSecure} {b : Bool} : (connected p).Returns s b s' ↔
    (∃ avail, (available p).Returns s avail s') ∧ b = s'.self._connected := by
  unfold connected
  rw [Prog.returns_bind]
  simp only [returns_obj_bind, Prog.returns_pure, readBuf_returns]
  constructor
  · rintro ⟨r, t, ⟨avail, u, ha, hr⟩, rfl, rfl⟩
    have hu : s' = u := by
      unfold taken at hr
      split at hr
      · exact (Prod.mk.inj hr).2
      · exact (Prod.mk.inj hr).2
    exact ⟨⟨avail, hu ▸ ha⟩, rfl⟩
  · rintro ⟨⟨avail, ha⟩, rfl⟩
    refine ⟨(taken p 0 avail s').1, s', ⟨avail, s', ha, ?_⟩, rfl, rfl⟩
    unfold taken
    split
    · rfl
    · rfl

end FEmbed.TCPClientSecure
