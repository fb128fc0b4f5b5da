/-
A `TCPClientSecure` as a stream of bytes with one byte of look-ahead.

What the peer's plaintext still holds for the caller is the byte that was looked
ahead at, then what the TLS layer has not handed out (`stream`). An operation on
an open client hands out the front of it, or the session fails and the client
stops (`Stepped`). What no operation recovers from is an error that is reported
while a byte waits, before that byte is taken: `Tame` excludes it.
-/
import FEmbedLwip.SecureFacts
import FEmbedLwip.TlsCalls

namespace FEmbed.TCPClientSecure

open Live

variable {σ : Type}

/-! ## The TLS layer -/

/-- What the library relies on of mbedTLS's reads. `unread` is the plaintext
that was not handed out; `ready` counts the bytes of it that are decrypted. A
read hands out the next bytes, no more than it was asked for. While some are
decrypted it does not wait: it gives bytes, or an error; and asked for none, it
leaves them. -/
structure TlsStream (p : Platform σ) (timedOut : σ → Bool × σ) (unread : σ → Bytes) (ready : σ → Nat) : Prop where
  read : ∀ n e, unread e = (p.tls.sslRead n e).1.got ++ unread (p.tls.sslRead n e).2
  readLength : ∀ n e, (p.tls.sslRead n e).1.got.length ≤ n
  readReady : ∀ n e, 0 < n → 0 < ready e → ¬ IsError (p.tls.sslRead n e).1.rc → ∃ b bs, (p.tls.sslRead n e).1 = .data b bs
  askReady : ∀ e, 0 < ready e → ¬ IsError (p.tls.sslRead 0 e).1.rc → ready (p.tls.sslRead 0 e).2 = ready e
  bytesAvail : ∀ e, (p.tls.sslGetBytesAvail e).1 = ready e
  availUnread : ∀ e, unread (p.tls.sslGetBytesAvail e).2 = unread e
  availReady : ∀ e, ready (p.tls.sslGetBytesAvail e).2 = ready e
  /-- A record holds at most `2 ^ 14` bytes. -/
  readyBound : ∀ e, ready e ≤ 2 ^ 14
  writeUnread : ∀ bs e, unread (p.tls.sslWrite bs e).2 = unread e
  writeReady : ∀ bs e, ready (p.tls.sslWrite bs e).2 = ready e
  clockUnread : ∀ e, unread (timedOut e).2 = unread e
  clockReady : ∀ e, ready (timedOut e).2 = ready e

/-! ## The calls on record -/

/-- A use of the session. -/
def Uses : TlsCall → Prop
  | .read _ _ | .bytesAvail | .write _ => True
  | .init _ | .free _ => False

/-- No use of the session comes after it was freed. -/
def Quiet (log : List TlsCall) : Prop := log.Pairwise fun k l => k = .free .ssl → ¬ Uses l

theorem Quiet.of_open {log : List TlsCall} (h : .free .ssl ∉ log) : Quiet log :=
  List.Pairwise.imp_of_mem (fun hk _ _ hfree => absurd (hfree ▸ hk) h) (List.pairwise_of_forall fun _ _ => trivial)

theorem Quiet.append {log cs : List TlsCall} (h : Quiet log) (hcs : ∀ k ∈ cs, ¬ Uses k) : Quiet (log ++ cs) := by
  refine List.pairwise_append.mpr ⟨h, ?_, fun _ _ k hk _ => hcs k hk⟩
  exact List.Pairwise.imp_of_mem (fun _ hk _ _ => hcs _ hk) (List.pairwise_of_forall fun _ _ => trivial)

/-- A call on `c` reports an error before what waits is taken: a read for more
than nothing comes after the byte that was looked ahead at. -/
def Fails (c : TCPClientSecure) : TlsCall → Prop
  | .read n rc => IsError rc ∧ (0 ≤ c._peek → n = 0)
  | .write rc => IsError rc
  | _ => False

section Grows

variable {p : Platform σ} {timedOut : σ → Bool × σ}

theorem ssl_grows {α : Type} {x : Prog (Live (σ × List TlsCall) SslContext) α} (h : x.Guarantees grows) :
    (ssl x).Guarantees grows := Prog.Guarantees.zoom h fun _ _ => id

theorem stop_grows : (stop p.watched).Guarantees grows := by
  have close {O : Type} {fd : Int} : (tell (p.watched.lwip.close fd)).Guarantees (grows (O := O)) :=
    guarantees_tell fun _ => List.prefix_refl _
  have hctx : (SslContext.stopSslSocket p.watched).Guarantees grows := by
    refine .bind guarantees_obj fun c => ?_
    have frees := Prog.Guarantees.bind (tell_grows (O := SslContext) (f := p.tls.free .ssl) (c := TlsCall.free .ssl)) fun _ =>
      .bind (tell_grows (f := p.tls.free .sslConfig) (c := TlsCall.free .sslConfig)) fun _ =>
      .bind (tell_grows (f := p.tls.free .ctrDrbg) (c := TlsCall.free .ctrDrbg)) fun _ =>
      tell_grows (f := p.tls.free .entropy) (c := TlsCall.free .entropy)
    exact .ite (.bind close fun _ => .bind set_grows fun _ => frees) frees
  refine .bind guarantees_obj fun c => .ite ?_ (ssl_grows hctx)
  exact .bind close fun _ => .bind set_grows fun _ => ssl_grows hctx

theorem available_grows : (available p.watched).Guarantees grows := by
  have hctx : (SslContext.dataToRead p.watched).Guarantees grows :=
    .bind call_grows fun _ => .bind call_grows fun _ => .ite .pure .pure
  exact .bind guarantees_obj fun _ => .ite .pure <|
    .bind (ssl_grows hctx) fun _ => .ite (.bind stop_grows fun _ => .pure) .pure

end Grows

/-! ## States -/

/-- An open client: its session was not freed, and what it looked ahead at is a byte. -/
structure Good (s : Live (σ × List TlsCall) TCPClientSecure) : Prop where
  connected : s.self._connected = true
  socket : 0 ≤ s.self.sslclient.socket
  peek : s.self._peek < 256
  opened : .free .ssl ∉ s.env.2

/-- A stopped client. -/
structure Dead (s : Live (σ × List TlsCall) TCPClientSecure) : Prop where
  connected : s.self._connected = false
  peek : s.self._peek < 0
  quiet : Quiet s.env.2

/-- The byte that was looked ahead at. -/
def ahead (c : TCPClientSecure) : Bytes := if 0 ≤ c._peek then [UInt8.ofNat c._peek.toNat] else []

/-- The calls made from `s` to `s'`. -/
def madeCalls (s s' : Live (σ × List TlsCall) TCPClientSecure) : List TlsCall := s'.env.2.drop s.env.2.length

section States

variable (unread : σ → Bytes) (ready : σ → Nat)

/-- What is left for the caller to read. -/
def stream (s : Live (σ × List TlsCall) TCPClientSecure) : Bytes := ahead s.self ++ unread s.env.1

/-- A byte is at hand. -/
def Waiting (s : Live (σ × List TlsCall) TCPClientSecure) : Prop :=
  s.self._connected = true ∧ (0 ≤ s.self._peek ∨ 0 < ready s.env.1)

/-- On the way from `s` to `s'`, no call fails while a byte waits. -/
def Tame (s s' : Live (σ × List TlsCall) TCPClientSecure) : Prop :=
  Waiting ready s → ∀ k ∈ madeCalls s s', ¬ Fails s.self k

/-- How an operation on an open client ends that hands out `got`: it stops the
client only if it took what was waiting, or nothing was. -/
inductive Stepped (s : Live (σ × List TlsCall) TCPClientSecure) (got : Bytes)
    (s' : Live (σ × List TlsCall) TCPClientSecure) : Prop
  | stopped : Dead s' → got <+: stream unread s → (Waiting ready s → got ≠ []) → Stepped s got s'
  | open : Good s' → stream unread s = got ++ stream unread s' → (Waiting ready s → got = [] → Waiting ready s') →
      Stepped s got s'

/-- How `readBuf` ends on an open client: a failure while nothing waits, nothing
to read, nothing asked for, bytes, or the byte that was looked ahead at and a
failure after it. -/
inductive Reading (n : Nat) (s : Live (σ × List TlsCall) TCPClientSecure) :
    Int × Bytes → Live (σ × List TlsCall) TCPClientSecure → Prop
  | failed {rc s'} : rc < 0 → ¬ Waiting ready s → Dead s' → Reading n s (rc, []) s'
  | nothing {s'} : ¬ Waiting ready s → Good s' → s'.self = s.self → unread s'.env.1 = unread s.env.1 →
      ¬ Waiting ready s' → Reading n s (-1, []) s'
  | unasked {s'} : n = 0 → Good s' → s'.self = s.self → unread s'.env.1 = unread s.env.1 → Waiting ready s' →
      Reading n s (0, []) s'
  | got {bs s'} : bs ≠ [] → bs.length ≤ n → Good s' → s'.self._peek < 0 →
      stream unread s = bs ++ stream unread s' → Reading n s (bs.length, bs) s'
  | last {b s'} : 1 < n → [b] <+: stream unread s → Dead s' → Reading n s (1, [b]) s'

/-- Nothing was read on the way from `s`: the client is stopped, or nothing is at hand. -/
def Idle (s s' : Live (σ × List TlsCall) TCPClientSecure) : Prop :=
  Dead s' ∨ (Good s' ∧ s'.self = s.self ∧ unread s'.env.1 = unread s.env.1 ∧ ¬ Waiting ready s')

/-- How `read` and `timedRead` end on an open client: without a byte, which
there was none of, or with the next one. -/
inductive ReadOne (s : Live (σ × List TlsCall) TCPClientSecure) : Int → Live (σ × List TlsCall) TCPClientSecure → Prop
  | idle {c s'} : c < 0 → ¬ Waiting ready s → Idle unread ready s s' → ReadOne s c s'
  | got {b : UInt8} {s'} : Good s' → s'.self._peek < 0 → stream unread s = b :: stream unread s' →
      ReadOne s b.toNat s'

end States

variable {p : Platform σ} {timedOut : σ → Bool × σ} {unread : σ → Bytes} {ready : σ → Nat}
variable {s s' t : Live (σ × List TlsCall) TCPClientSecure} {r : Int}

theorem Tame.of_not_waiting (h : ¬ Waiting ready s) : Tame ready s s' := fun hw => absurd hw h

/-- What is tame is so up to any point on the way. -/
theorem Tame.before (h : Tame ready s s') (hs : s.env.2 <+: t.env.2) (ht : t.env.2 <+: s'.env.2) : Tame ready s t := by
  obtain ⟨cs, hcs⟩ := hs
  obtain ⟨ds, hds⟩ := ht
  intro hw k hk
  refine h hw k ?_
  rw [madeCalls, ← hcs, List.drop_left] at hk
  rw [madeCalls, ← hds, ← hcs, List.append_assoc, List.drop_left]
  exact List.mem_append_left ds hk

/-- Nothing waits where a call of the way fails. -/
theorem Tame.not_waiting {k : TlsCall} {cs : List TlsCall} (h : Tame ready s s') (hlog : s.env.2 ++ cs <+: s'.env.2)
    (hk : k ∈ cs) (hf : Fails s.self k) : ¬ Waiting ready s := by
  obtain ⟨ds, hds⟩ := hlog
  intro hw
  refine h hw k ?_ hf
  rw [madeCalls, ← hds, List.append_assoc, List.drop_left]
  exact List.mem_append_left ds hk

/-! ## `available` -/

theorem asked_watched {e : σ × List TlsCall} : asked p.watched e =
    (asked p e.1, e.2 ++ [.read 0 (p.tls.sslRead 0 e.1).1.rc, .bytesAvail]) := by
  simp [asked, Platform.watched, MbedTls.watched, recorded]

theorem asked_log {e : σ × List TlsCall} :
    (asked p.watched e).2 = e.2 ++ [.read 0 (p.tls.sslRead 0 e.1).1.rc, .bytesAvail] := congrArg Prod.snd asked_watched

theorem stopped_grows : s.env.2 <+: (stopped p.watched s).env.2 := stop_grows _ _ _ (stop_returns.mpr rfl)

/-- `stop` with its session open ends it. -/
theorem dead_stopped {c : TCPClientSecure} {e : σ × List TlsCall} (hc : 0 ≤ c.sslclient.socket)
    (he : .free .ssl ∉ e.2) : Dead (stopped p.watched ⟨c, e⟩) := by
  have hlog : (stopped p.watched ⟨c, e⟩).env.2 =
      e.2 ++ [.free .ssl, .free .sslConfig, .free .ctrDrbg, .free .entropy] := by
    simp [stopped, hc, SslContext.freed, Platform.watched, Platform.beside, Lwip.beside, MbedTls.watched, noted, unnoted]
  refine ⟨by simp [stopped, hc], by simp [stopped, hc], ?_⟩
  rw [hlog]
  exact (Quiet.of_open he).append (by simp [Uses])

theorem TlsStream.ask (hT : TlsStream p timedOut unread ready) (e : σ) : unread (asked p e) = unread e := by
  have hgot : (p.tls.sslRead 0 e).1.got = [] := List.eq_nil_of_length_eq_zero (Nat.le_zero.mp (hT.readLength 0 e))
  have hread := hT.read 0 e
  rw [hgot, List.nil_append] at hread
  unfold asked
  rw [hT.availUnread, ← hread]

theorem TlsStream.toRead (hT : TlsStream p timedOut unread ready) (e : σ) :
    (IsError (p.tls.sslRead 0 e).1.rc ∧ toRead p e < 0) ∨
      (¬ IsError (p.tls.sslRead 0 e).1.rc ∧ toRead p e = ready (asked p e)) := by
  unfold TCPClientSecure.toRead asked
  by_cases h : IsError (p.tls.sslRead 0 e).1.rc
  · rw [if_pos h]
    exact .inl ⟨h, h.2.2⟩
  · rw [if_neg h, hT.availReady, hT.bytesAvail]
    have hb := hT.readyBound (p.tls.sslRead 0 e).2
    exact .inr ⟨h, int32_eq (by omega) (by omega)⟩

/-- The calls of `data_to_read` leave the session open. -/
theorem Good.asked (hg : Good s) : .free .ssl ∉ (TCPClientSecure.asked p.watched s.env).2 := by
  rw [asked_log]
  simp [hg.opened]

/-- How `available` ends: the client is stopped, or it gives the number of bytes at hand. -/
theorem available_steps (hT : TlsStream p timedOut unread ready) (hg : Good s) (ht : Tame ready s s')
    (h : (available p.watched).Returns s r s') :
    (¬ Waiting ready s ∧ Dead s' ∧ r < 0) ∨
      (Good s' ∧ s'.self = s.self ∧ unread s'.env.1 = unread s.env.1 ∧ r = ready s'.env.1 + peeked s.self ∧
        (Waiting ready s → Waiting ready s')) := by
  have henv : (TCPClientSecure.asked p.watched s.env).1 = TCPClientSecure.asked p s.env.1 := congrArg Prod.fst asked_watched
  rcases available_returns.mp h with ⟨hc, _⟩ | ⟨_, hto, rfl, rfl⟩ | ⟨_, hto, rfl, rfl⟩
  · rw [hg.connected] at hc
    exact absurd hc (by decide)
  · have hto : toRead p s.env.1 < 0 := hto
    have herr : IsError (p.tls.sslRead 0 s.env.1).1.rc := by
      rcases hT.toRead s.env.1 with ⟨herr, _⟩ | ⟨_, heq⟩
      · exact herr
      · omega
    have hlog : s.env.2 ++ [.read 0 (p.tls.sslRead 0 s.env.1).1.rc, .bytesAvail] <+:
        (stopped p.watched ⟨s.self, TCPClientSecure.asked p.watched s.env⟩).env.2 := by
      rw [← asked_log]
      exact stopped_grows (s := ⟨s.self, TCPClientSecure.asked p.watched s.env⟩)
    have hw : ¬ Waiting ready s := ht.not_waiting hlog List.mem_cons_self ⟨herr, fun _ => rfl⟩
    have hpeek : ¬ s.self._peek ≥ 0 := fun hp => hw ⟨hg.connected, .inl hp⟩
    rw [if_neg hpeek]
    exact .inl ⟨hw, dead_stopped hg.socket hg.asked, hto⟩
  · have hto : 0 ≤ toRead p s.env.1 := hto
    rcases hT.toRead s.env.1 with ⟨_, hneg⟩ | ⟨herr, heq⟩
    · omega
    refine .inr ⟨⟨hg.connected, hg.socket, hg.peek, hg.asked⟩, rfl, ?_, ?_, fun hw => ⟨hg.connected, ?_⟩⟩
    · show unread (TCPClientSecure.asked p.watched s.env).1 = _
      rw [henv, hT.ask]
    · show toRead p s.env.1 + _ = (ready (TCPClientSecure.asked p.watched s.env).1 : Int) + _
      rw [henv, heq]
    · refine hw.2.imp id fun hr => ?_
      show 0 < ready (TCPClientSecure.asked p.watched s.env).1
      rw [henv]
      unfold TCPClientSecure.asked
      rw [hT.availReady, hT.askReady _ hr herr]
      exact hr

/-! ## Reading -/

theorem received_grows {n : Nat} {a : Bytes} : s.env.2 <+: (received p.watched a n s).2.env.2 := by
  have hread : s.env.2 <+: (p.watched.tls.sslRead n s.env).2.2 := List.prefix_append _ _
  unfold received
  dsimp only
  split
  · exact hread.trans (stopped_grows (s := ⟨s.self, (p.watched.tls.sslRead n s.env).2⟩))
  · exact hread

theorem taken_grows {n : Nat} {avail : Int} : s.env.2 <+: (taken p.watched n avail s).2.env.2 := by
  unfold taken
  split
  · exact List.prefix_refl _
  split
  · exact List.prefix_refl _
  split
  · dsimp only
    split
    · exact List.prefix_refl _
    · exact received_grows (s := ⟨{ s.self with _peek := -1 }, s.env⟩)
  · exact received_grows

theorem readBuf_grows {n : Nat} : (readBuf p.watched n).Guarantees grows := by
  intro s r s' h
  obtain ⟨avail, t, havail, htaken⟩ := readBuf_returns.mp h
  rw [(Prod.mk.inj htaken).2]
  exact (available_grows _ _ _ havail).trans taken_grows

/-- `get_ssl_receive` with bytes at hand: they are given after what was looked
ahead at, or an error stops the client. -/
theorem received_steps {n : Nat} {a : Bytes} (hT : TlsStream p timedOut unread ready) (hg : Good s) (hn : 0 < n)
    (hr : 0 < ready s.env.1) :
    (IsError (p.tls.sslRead n s.env.1).1.rc ∧ Dead (received p.watched a n s).2 ∧
      (received p.watched a n s).1 = (if a.isEmpty then (p.tls.sslRead n s.env.1).1.rc else 1, a) ∧
      s.env.2 ++ [.read n (p.tls.sslRead n s.env.1).1.rc] <+: (received p.watched a n s).2.env.2) ∨
      (∃ b bs, (received p.watched a n s).1 = ((a ++ b :: bs).length, a ++ b :: bs) ∧ bs.length < n ∧
        Good (received p.watched a n s).2 ∧ (received p.watched a n s).2.self = s.self ∧
        unread s.env.1 = b :: bs ++ unread (received p.watched a n s).2.env.1) := by
  have hopened : .free .ssl ∉ (p.watched.tls.sslRead n s.env).2.2 := by
    simp [Platform.watched, MbedTls.watched, recorded, hg.opened]
  by_cases herr : IsError (p.tls.sslRead n s.env.1).1.rc
  · rw [received_error (p := p.watched) herr.2.2]
    refine .inl ⟨herr, dead_stopped hg.socket hopened, rfl, ?_⟩
    exact stopped_grows (s := ⟨s.self, (p.watched.tls.sslRead n s.env).2⟩)
  · obtain ⟨b, bs, hdata⟩ := hT.readReady n s.env.1 hn hr herr
    have hlength := hT.readLength n s.env.1
    have hread := hT.read n s.env.1
    rw [hdata] at hlength hread
    rw [received_data (p := p.watched) hdata]
    exact .inr ⟨b, bs, rfl, hlength, ⟨hg.connected, hg.socket, hg.peek, hopened⟩, rfl, hread⟩

theorem stream_of_peek (h : s.self._peek < 0) : stream unread s = unread s.env.1 := by
  rw [stream, ahead, if_neg (by omega), List.nil_append]

theorem stream_of_ahead (h : 0 ≤ s.self._peek) :
    stream unread s = UInt8.ofNat s.self._peek.toNat :: unread s.env.1 := by
  rw [stream, ahead, if_pos h, List.singleton_append]

/-- `readBuf` on an open client. -/
theorem readBuf_steps {n : Nat} {r : Int × Bytes} (hT : TlsStream p timedOut unread ready) (hg : Good s)
    (ht : Tame ready s s') (h : (readBuf p.watched n).Returns s r s') : Reading unread ready n s r s' := by
  obtain ⟨avail, t, havail, htaken⟩ := readBuf_returns.mp h
  have hgrow₁ : s.env.2 <+: t.env.2 := available_grows _ _ _ havail
  have hgrow₂ : t.env.2 <+: s'.env.2 := (Prod.mk.inj htaken).2 ▸ taken_grows
  rcases available_steps hT hg (ht.before hgrow₁ hgrow₂) havail with ⟨hw, hdead, hneg⟩ | ⟨hgood, hself, hunread, havl, hkeep⟩
  · rw [taken, if_pos (Int.le_of_lt hneg)] at htaken
    obtain ⟨rfl, rfl⟩ := Prod.mk.inj htaken
    exact .failed (by decide) hw hdead
  unfold taken at htaken
  by_cases hle : avail ≤ 0
  · have hnot : ¬ Waiting ready t := by
      intro hw
      rcases hw.2 with hp | hr
      · rw [hself] at hp
        rw [peeked, if_pos hp] at havl
        omega
      · unfold peeked at havl
        split at havl <;> omega
    rw [if_pos hle] at htaken
    obtain ⟨rfl, rfl⟩ := Prod.mk.inj htaken
    exact .nothing (fun hw => hnot (hkeep hw)) hgood hself hunread hnot
  rw [if_neg hle] at htaken
  have hwt : Waiting ready t := by
    refine ⟨hgood.connected, ?_⟩
    by_cases hp : 0 ≤ t.self._peek
    · exact .inl hp
    · rw [peeked, ← hself, if_neg hp] at havl
      exact .inr (by omega)
  by_cases hn : n = 0
  · rw [if_pos hn] at htaken
    obtain ⟨rfl, rfl⟩ := Prod.mk.inj htaken
    exact .unasked hn hgood hself hunread hwt
  rw [if_neg hn] at htaken
  by_cases hp : t.self._peek ≥ 0
  · have hs : stream unread s = [UInt8.ofNat t.self._peek.toNat] ++ unread t.env.1 := by
      rw [stream_of_ahead (hself ▸ hp), hself, hunread, List.singleton_append]
    have hgood' : Good (σ := σ) ⟨{ t.self with _peek := -1 }, t.env⟩ :=
      ⟨hgood.connected, hgood.socket, show (-1 : Int) < 256 by decide, hgood.opened⟩
    rw [if_pos hp] at htaken
    by_cases hlast : n - 1 = 0 ∨ avail - 1 = 0
    · rw [if_pos hlast] at htaken
      obtain ⟨rfl, rfl⟩ := Prod.mk.inj htaken
      have hsplit : stream unread s = [UInt8.ofNat t.self._peek.toNat] ++
          stream unread (⟨{ t.self with _peek := -1 }, t.env⟩ : Live (σ × List TlsCall) TCPClientSecure) := by
        rw [hs, stream_of_peek (show (-1 : Int) < 0 by decide)]
      exact .got (List.cons_ne_nil _ _) (show 1 ≤ n by omega) hgood' (show (-1 : Int) < 0 by decide) hsplit
    · rw [if_neg hlast] at htaken
      rw [peeked, ← hself, if_pos hp] at havl
      have hr : r = (received p.watched [UInt8.ofNat t.self._peek.toNat] (n - 1) ⟨{ t.self with _peek := -1 }, t.env⟩).1 :=
        congrArg Prod.fst htaken
      have hs' : s' = (received p.watched [UInt8.ofNat t.self._peek.toNat] (n - 1) ⟨{ t.self with _peek := -1 }, t.env⟩).2 :=
        congrArg Prod.snd htaken
      rcases received_steps (n := n - 1) (a := [UInt8.ofNat t.self._peek.toNat]) hT hgood' (by omega)
        (show 0 < ready t.env.1 by omega) with ⟨_, hdead, hx, _⟩ | ⟨b, bs, hx, hlength, hgood'', hself'', hread⟩
      · rw [← hr] at hx
        rw [← hs'] at hdead
        rw [hx]
        exact .last (by omega) (hs ▸ List.prefix_append _ _) hdead
      · rw [← hr] at hx
        rw [← hs'] at hgood'' hself'' hread
        have hp'' : s'.self._peek < 0 := by
          rw [hself'']
          exact show (-1 : Int) < 0 by decide
        rw [hx]
        refine .got (List.cons_ne_nil _ _) ?_ hgood'' hp'' ?_
        · simp only [List.singleton_append, List.length_cons]
          omega
        · rw [hs, stream_of_peek hp'', List.append_assoc, ← hread]
  · rw [if_neg hp] at htaken
    rw [peeked, ← hself, if_neg hp, Int.add_zero] at havl
    have hr : r = (received p.watched [] n t).1 := congrArg Prod.fst htaken
    have hs' : s' = (received p.watched [] n t).2 := congrArg Prod.snd htaken
    rcases received_steps (a := []) hT hgood (Nat.pos_of_ne_zero hn) (by omega) with
      ⟨herr, hdead, hx, hlog⟩ | ⟨b, bs, hx, hlength, hgood', hself', hread⟩
    · rw [← hr] at hx
      rw [← hs'] at hdead hlog
      rw [hx]
      refine .failed herr.2.2 (fun hw => ?_) hdead
      obtain ⟨cs, hcs⟩ := hgrow₁
      rw [← hcs, List.append_assoc] at hlog
      refine ht.not_waiting hlog (List.mem_append_right cs List.mem_cons_self) ?_ hw
      exact ⟨herr, fun hp' => absurd (hself ▸ hp') hp⟩
    · rw [← hr] at hx
      rw [← hs'] at hgood' hself' hread
      have hp' : s'.self._peek < 0 := by
        rw [hself']
        omega
      rw [hx]
      refine .got (List.cons_ne_nil _ _) hlength hgood' hp' ?_
      rw [stream_of_peek (hself ▸ Int.not_le.mp hp), stream_of_peek hp', ← hunread, hread, List.nil_append]

theorem dead_available (hd : Dead s) (h : (available p.watched).Returns s r s') : r = 0 ∧ s' = s := by
  rcases available_returns.mp h with ⟨_, rfl, rfl⟩ | ⟨hc, _⟩ | ⟨hc, _⟩
  · refine ⟨?_, rfl⟩
    rw [peeked, if_neg (Int.not_le.mpr hd.peek)]
  · rw [hd.connected] at hc
    exact absurd hc (by decide)
  · rw [hd.connected] at hc
    exact absurd hc (by decide)

theorem dead_readBuf {n : Nat} {r : Int × Bytes} (hd : Dead s) (h : (readBuf p.watched n).Returns s r s') :
    r = (-1, []) ∧ s' = s := by
  obtain ⟨avail, t, havail, htaken⟩ := readBuf_returns.mp h
  obtain ⟨rfl, rfl⟩ := dead_available hd havail
  exact Prod.mk.inj htaken

theorem dead_read (hd : Dead s) (h : (read p.watched).Returns s r s') : r = -1 ∧ s' = s := by
  obtain ⟨x, hx, rfl⟩ := read_returns.mp h
  obtain ⟨rfl, rfl⟩ := dead_readBuf hd hx
  exact ⟨rfl, rfl⟩

theorem read_steps {c : Int} (hT : TlsStream p timedOut unread ready) (hg : Good s) (ht : Tame ready s s')
    (h : (read p.watched).Returns s c s') : ReadOne unread ready s c s' := by
  obtain ⟨x, hx, rfl⟩ := read_returns.mp h
  cases readBuf_steps hT hg ht hx with
  | failed hrc hw hdead =>
    rw [if_pos hrc]
    exact .idle hrc hw (.inl hdead)
  | nothing hw hgood hself hunread hw' => exact .idle (by decide) hw (.inr ⟨hgood, hself, hunread, hw'⟩)
  | unasked hn => exact absurd hn (by decide)
  | @got bs _ hne hlen hgood hp hs =>
    obtain ⟨b, rfl⟩ : ∃ b, bs = [b] := List.length_eq_one_iff.mp (by
      have := List.length_pos_iff.mpr hne
      omega)
    exact .got hgood hp hs
  | last hn => exact absurd hn (by decide)

theorem read_grows : (read p.watched).Guarantees grows := .bind readBuf_grows fun _ => .ite .pure .pure

theorem timedRead_grows : (timedRead p.watched (unrecorded timedOut)).Guarantees grows := by
  have clock : (call (unrecorded timedOut)).Guarantees (grows (C := TlsCall) (O := TCPClientSecure)) :=
    guarantees_call fun _ => List.prefix_refl _
  exact .loop (fun _ => .bind read_grows fun _ => .ite .pure (.bind clock fun _ => .ite .pure .pure)) ()

/-- A turn of `timedRead`: it leaves with a byte, or when the time is over. -/
theorem timedRead_turn {x : Turn Unit Int}
    (h : (do
      let c ← read p.watched
      if c ≥ 0 then
        return .exit c
      if ← call (unrecorded timedOut) then
        return .exit (-1)
      return .next () : Prog (Live (σ × List TlsCall) TCPClientSecure) (Turn Unit Int)).Returns s x s') :
    ∃ c t, (read p.watched).Returns s c t ∧ ((0 ≤ c ∧ x = .exit c ∧ s' = t) ∨
      (c < 0 ∧ (x = .exit (-1) ∨ x = .next ()) ∧ s' = ⟨t.self, ((timedOut t.env.1).2, t.env.2)⟩)) := by
  obtain ⟨c, t, hread, h⟩ := Prog.returns_bind.mp h
  refine ⟨c, t, hread, ?_⟩
  rcases Prog.returns_ite.mp h with ⟨hc, h⟩ | ⟨hc, h⟩
  · exact .inl ⟨hc, Prog.returns_pure.mp h⟩
  · rw [returns_call_bind] at h
    rcases Prog.returns_ite.mp h with ⟨_, h⟩ | ⟨_, h⟩
    · exact .inr ⟨Int.not_le.mp hc, .inl (Prog.returns_pure.mp h).1, (Prog.returns_pure.mp h).2⟩
    · exact .inr ⟨Int.not_le.mp hc, .inr (Prog.returns_pure.mp h).1, (Prog.returns_pure.mp h).2⟩

theorem Idle.clock (hT : TlsStream p timedOut unread ready) (h : Idle unread ready s t) :
    Idle unread ready s ⟨t.self, ((timedOut t.env.1).2, t.env.2)⟩ := by
  rcases h with hdead | ⟨hgood, hself, hunread, hw⟩
  · exact .inl ⟨hdead.connected, hdead.peek, hdead.quiet⟩
  · refine .inr ⟨⟨hgood.connected, hgood.socket, hgood.peek, hgood.opened⟩, hself, ?_, fun hw' => hw ?_⟩
    · rw [← hunread]
      exact hT.clockUnread t.env.1
    · refine ⟨hw'.1, hw'.2.imp id fun hr => ?_⟩
      have hr : 0 < ready (timedOut t.env.1).2 := hr
      rwa [hT.clockReady] at hr

/-- Another `read` where nothing was at hand. -/
theorem Idle.read {c : Int} (hT : TlsStream p timedOut unread ready) (hw : ¬ Waiting ready s) (hi : Idle unread ready s t)
    (h : (TCPClientSecure.read p.watched).Returns t c s') : ReadOne unread ready s c s' := by
  rcases hi with hdead | ⟨hgood, hself, hunread, hwt⟩
  · obtain ⟨rfl, rfl⟩ := dead_read hdead h
    exact .idle (by decide) hw (.inl hdead)
  have hst : stream unread s = stream unread t := by
    unfold stream
    rw [hself, hunread]
  cases read_steps hT hgood (.of_not_waiting hwt) h with
  | idle hc _ hi' =>
    refine .idle hc hw (hi'.imp id ?_)
    rintro ⟨hgood', hself', hunread', hw'⟩
    exact ⟨hgood', hself'.trans hself, hunread'.trans hunread, hw'⟩
  | got hgood' hp' hs' => exact .got hgood' hp' (hst.trans hs')

/-- `timedRead` waits for a byte only while none is at hand. -/
theorem timedRead_steps {c : Int} (hT : TlsStream p timedOut unread ready) (hg : Good s) (ht : Tame ready s s')
    (h : (timedRead p.watched (unrecorded timedOut)).Returns s c s') : ReadOne unread ready s c s' := by
  by_cases hw : Waiting ready s
  · -- What is at hand is read in the first turn.
    have first {x : Turn Unit Int} {u t : Live (σ × List TlsCall) TCPClientSecure} {d : Int}
        (hread : (read p.watched).Returns s d t) (hend : t.env.2 <+: s'.env.2)
        (hx : (0 ≤ d ∧ x = .exit d ∧ u = t) ∨ (d < 0 ∧ (x = .exit (-1) ∨ x = .next ()) ∧
          u = ⟨t.self, ((timedOut t.env.1).2, t.env.2)⟩)) : x = .exit d ∧ u = t ∧ ReadOne unread ready s d t := by
      have hone := read_steps hT hg (ht.before (read_grows _ _ _ hread) hend) hread
      rcases hx with ⟨_, hx, hu⟩ | ⟨hd, _⟩
      · exact ⟨hx, hu, hone⟩
      · cases hone with
        | idle _ hnot => exact absurd hw hnot
        | got => omega
    rcases Prog.returns_loop.mp h with h | ⟨_, u, hnext, h⟩
    · obtain ⟨d, t, hread, hx⟩ := timedRead_turn h
      have hend : t.env.2 <+: s'.env.2 := by
        rcases hx with ⟨_, _, rfl⟩ | ⟨_, _, rfl⟩
        · exact List.prefix_refl _
        · exact List.prefix_refl _
      obtain ⟨hexit, rfl, hone⟩ := first hread hend hx
      obtain rfl := Turn.exit.inj hexit
      exact hone
    · obtain ⟨d, t, hread, hx⟩ := timedRead_turn hnext
      have hend : t.env.2 <+: s'.env.2 := by
        have hgrow := timedRead_grows _ _ _ h
        rcases hx with ⟨_, _, rfl⟩ | ⟨_, _, rfl⟩
        · exact hgrow
        · exact hgrow
      exact nomatch (first hread hend hx).1
  · refine Prog.Returns.loop_inv (fun _ t => Idle unread ready s t) (ReadOne unread ready s) ?_ h
      (.inr ⟨hg, rfl, rfl, hw⟩)
    intro _ t x u hi hturn
    obtain ⟨d, t', hread, hx⟩ := timedRead_turn hturn
    have hone := hi.read hT hw hread
    rcases hx with ⟨_, rfl, rfl⟩ | ⟨hd, hx, rfl⟩
    · exact hone
    have hi' : Idle unread ready s t' := by
      cases hone with
      | idle _ _ hi' => exact hi'
      | got => omega
    rcases hx with rfl | rfl
    · exact .idle (by decide) hw (hi'.clock hT)
    · exact hi'.clock hT

/-! ## The operations -/

theorem ReadOne.stepped {c : Int} (h : ReadOne unread ready s c s') :
    Stepped unread ready s (if c ≥ 0 then [UInt8.ofNat c.toNat] else []) s' := by
  cases h with
  | idle hc hw hi =>
    rw [if_neg (Int.not_le.mpr hc)]
    rcases hi with hdead | ⟨hgood, hself, hunread, _⟩
    · exact .stopped hdead (List.nil_prefix) fun hw' => absurd hw' hw
    · refine .open hgood ?_ fun hw' => absurd hw' hw
      rw [stream, stream, hself, hunread, List.nil_append]
  | @got b _ hgood _ hs =>
    rw [if_pos (Int.natCast_nonneg _), Int.toNat_natCast, UInt8.ofNat_toNat]
    exact .open hgood hs fun _ hnil => absurd hnil (List.cons_ne_nil _ _)

theorem Reading.stepped {n : Nat} {r : Int × Bytes} (h : Reading unread ready n s r s') :
    Stepped unread ready s r.2 s' := by
  have same {t : Live (σ × List TlsCall) TCPClientSecure} (hself : t.self = s.self)
      (hunread : unread t.env.1 = unread s.env.1) : stream unread s = [] ++ stream unread t := by
    rw [stream, stream, hself, hunread, List.nil_append]
  cases h with
  | failed _ hw hdead => exact .stopped hdead List.nil_prefix fun hw' => absurd hw' hw
  | nothing hw hgood hself hunread _ => exact .open hgood (same hself hunread) fun hw' => absurd hw' hw
  | unasked _ hgood hself hunread hw => exact .open hgood (same hself hunread) fun _ _ => hw
  | got hne _ hgood _ hs => exact .open hgood hs fun _ hnil => absurd hnil hne
  | last _ hs hdead => exact .stopped hdead hs fun _ => List.cons_ne_nil _ _

/-- `available` on an open client hands out nothing, and a byte it counts is at hand. -/
theorem available_stepped (hT : TlsStream p timedOut unread ready) (hg : Good s) (ht : Tame ready s s')
    (h : (available p.watched).Returns s r s') : Stepped unread ready s [] s' ∧ (0 < r → Good s' ∧ Waiting ready s') := by
  rcases available_steps hT hg ht h with ⟨hw, hdead, hneg⟩ | ⟨hgood, hself, hunread, havl, hkeep⟩
  · exact ⟨.stopped hdead List.nil_prefix fun hw' => absurd hw' hw, fun hpos => by omega⟩
  · refine ⟨.open hgood ?_ fun hw _ => hkeep hw, fun hpos => ⟨hgood, hgood.connected, ?_⟩⟩
    · rw [stream, stream, hself, hunread, List.nil_append]
    · by_cases hp : 0 ≤ s'.self._peek
      · exact .inl hp
      · rw [peeked, ← hself, if_neg hp] at havl
        exact .inr (by omega)

/-- `peek` on an open client hands out nothing, and what it gives is at hand. -/
theorem peek_stepped {c : Int} (hT : TlsStream p timedOut unread ready) (hg : Good s) (ht : Tame ready s s')
    (h : (peek p.watched (unrecorded timedOut)).Returns s c s') :
    Stepped unread ready s [] s' ∧ (0 ≤ c → Good s' ∧ s'.self._peek = c) := by
  unfold peek at h
  rw [returns_obj_bind] at h
  rcases Prog.returns_ite.mp h with ⟨hp, h⟩ | ⟨hp, h⟩
  · obtain ⟨rfl, rfl⟩ := Prog.returns_pure.mp h
    exact ⟨.open hg rfl fun hw _ => hw, fun _ => ⟨hg, rfl⟩⟩
  obtain ⟨b, t, hread, h⟩ := Prog.returns_bind.mp h
  rw [returns_set_bind] at h
  obtain ⟨rfl, rfl⟩ := Prog.returns_pure.mp h
  have hsteps : ReadOne unread ready s c t := timedRead_steps hT hg ht hread
  cases hsteps with
  | idle hc hw hi =>
    refine ⟨?_, fun hpos => by omega⟩
    rcases hi with hdead | ⟨hgood, hself, hunread, _⟩
    · exact .stopped ⟨hdead.connected, hc, hdead.quiet⟩ List.nil_prefix fun hw' => absurd hw' hw
    · refine .open ⟨hgood.connected, hgood.socket, Int.lt_trans hc (by decide), hgood.opened⟩ ?_ fun hw' => absurd hw' hw
      rw [stream_of_peek (Int.not_le.mp hp), stream_of_peek (s := ⟨{ t.self with _peek := c }, t.env⟩) hc]
      exact hunread.symm
  | @got b _ hgood hp' hs =>
    have hb : (b.toNat : Int) < 256 := Int.ofNat_lt.mpr b.toNat_lt
    have hgood' : Good (σ := σ) ⟨{ t.self with _peek := b.toNat }, t.env⟩ := ⟨hgood.connected, hgood.socket, hb, hgood.opened⟩
    refine ⟨.open hgood' ?_ fun _ _ => ⟨hgood.connected, .inl (Int.natCast_nonneg _)⟩, fun _ => ⟨hgood', rfl⟩⟩
    rw [hs, stream_of_peek hp', stream_of_ahead (s := ⟨{ t.self with _peek := (b.toNat : Int) }, t.env⟩)
      (Int.natCast_nonneg _), Int.toNat_natCast, UInt8.ofNat_toNat, List.nil_append]

theorem connected_stepped {b : Bool} (hT : TlsStream p timedOut unread ready) (hg : Good s) (ht : Tame ready s s')
    (h : (connected p.watched).Returns s b s') : Stepped unread ready s [] s' := by
  obtain ⟨⟨avail, havail⟩, _⟩ := connected_returns.mp h
  exact (available_stepped hT hg ht havail).1

/-- `send_ssl_data` reads nothing, and what it returns is the answer of its last write. -/
theorem sendSslData_steps {bs : Bytes} {n : Nat} {u u' : Live (σ × List TlsCall) SslContext}
    (hT : TlsStream p timedOut unread ready) (h : (SslContext.sendSslData p.watched bs n).Returns u r u') :
    u'.self = u.self ∧ unread u'.env.1 = unread u.env.1 ∧ ready u'.env.1 = ready u.env.1 ∧
      ∃ cs, u'.env.2 = u.env.2 ++ cs ∧ (∀ k ∈ cs, ∃ rc, k = .write rc) ∧ (r < 0 → IsError r ∧ .write r ∈ cs) := by
  refine Prog.Returns.loop_inv
    (fun _ t => t.self = u.self ∧ unread t.env.1 = unread u.env.1 ∧ ready t.env.1 = ready u.env.1 ∧
      ∃ cs, t.env.2 = u.env.2 ++ cs ∧ ∀ k ∈ cs, ∃ rc, k = .write rc)
    (fun r t => t.self = u.self ∧ unread t.env.1 = unread u.env.1 ∧ ready t.env.1 = ready u.env.1 ∧
      ∃ cs, t.env.2 = u.env.2 ++ cs ∧ (∀ k ∈ cs, ∃ rc, k = .write rc) ∧ (r < 0 → IsError r ∧ .write r ∈ cs))
    ?_ h ⟨rfl, rfl, rfl, [], (List.append_nil _).symm, fun k hk => nomatch hk⟩
  rintro _ t x t' ⟨hself, hunread, hready, cs, hlog, hcs⟩ hturn
  rw [returns_call_bind] at hturn
  have hw : (p.watched.tls.sslWrite (bs.take (n % 2 ^ 16)) t.env) =
      ((p.tls.sslWrite (bs.take (n % 2 ^ 16)) t.env.1).1, (p.tls.sslWrite (bs.take (n % 2 ^ 16)) t.env.1).2,
        t.env.2 ++ [.write (p.tls.sslWrite (bs.take (n % 2 ^ 16)) t.env.1).1]) := rfl
  rw [hw] at hturn
  dsimp only at hturn
  generalize hrc : (p.tls.sslWrite (bs.take (n % 2 ^ 16)) t.env.1).1 = rc at hturn
  have hunread' : unread (p.tls.sslWrite (bs.take (n % 2 ^ 16)) t.env.1).2 = unread u.env.1 :=
    (hT.writeUnread _ _).trans hunread
  have hready' : ready (p.tls.sslWrite (bs.take (n % 2 ^ 16)) t.env.1).2 = ready u.env.1 :=
    (hT.writeReady _ _).trans hready
  have hlog' : t.env.2 ++ [.write rc] = u.env.2 ++ (cs ++ [.write rc]) := by rw [hlog, List.append_assoc]
  have hcs' : ∀ k ∈ cs ++ [.write rc], ∃ rc, k = .write rc := by
    intro k hk
    rcases List.mem_append.mp hk with hk | hk
    · exact hcs k hk
    · exact ⟨rc, List.mem_singleton.mp hk⟩
  have hmem : TlsCall.write rc ∈ cs ++ [.write rc] := List.mem_append_right cs List.mem_cons_self
  rcases Prog.returns_ite.mp hturn with ⟨hle, hturn⟩ | ⟨hpos, hturn⟩
  · rcases Prog.returns_ite.mp hturn with ⟨hne, hturn⟩ | ⟨_, hturn⟩
    · obtain ⟨rfl, rfl⟩ := Prog.returns_pure.mp hturn
      exact ⟨hself, hunread', hready', _, hlog', hcs', fun hneg => ⟨⟨hne.1, hne.2, hneg⟩, hmem⟩⟩
    · obtain ⟨rfl, rfl⟩ := Prog.returns_pure.mp hturn
      exact ⟨hself, hunread', hready', _, hlog', hcs'⟩
  · obtain ⟨rfl, rfl⟩ := Prog.returns_pure.mp hturn
    exact ⟨hself, hunread', hready', _, hlog', hcs', fun hneg => absurd hneg (by omega)⟩

theorem write_stepped {bs : Bytes} {n : Nat} (hT : TlsStream p timedOut unread ready) (hg : Good s) (ht : Tame ready s s')
    (h : (write p.watched bs).Returns s n s') : Stepped unread ready s [] s' := by
  unfold write at h
  rw [returns_obj_bind, hg.connected, if_neg (by decide)] at h
  obtain ⟨res, t, hssl, h⟩ := Prog.returns_bind.mp h
  obtain ⟨u, hsend, rfl⟩ := returns_ssl.mp hssl
  obtain ⟨hself, hunread, hready, cs, hlog, hcs, herr⟩ := sendSslData_steps hT hsend
  have hopened : .free .ssl ∉ u.env.2 := by
    rw [hlog, List.mem_append]
    rintro (hmem | hmem)
    · exact hg.opened hmem
    · obtain ⟨_, hk⟩ := hcs _ hmem
      exact nomatch hk
  have hsocket : 0 ≤ u.self.socket := hself ▸ hg.socket
  rcases Prog.returns_ite.mp h with ⟨hneg, h⟩ | ⟨_, h⟩
  · rw [Prog.returns_bind_of (stop_returns.mpr rfl)] at h
    obtain ⟨rfl, rfl⟩ := Prog.returns_pure.mp h
    obtain ⟨hiserr, hmem⟩ := herr hneg
    have hgrow : s.env.2 ++ cs <+: (stopped p.watched ⟨{ s.self with sslclient := u.self }, u.env⟩).env.2 := by
      have hstop := stopped_grows (p := p) (s := ⟨{ s.self with sslclient := u.self }, u.env⟩)
      rwa [hlog] at hstop
    refine .stopped (dead_stopped hsocket hopened) List.nil_prefix fun hw => ?_
    exact absurd hw (ht.not_waiting hgrow hmem hiserr)
  · obtain ⟨rfl, rfl⟩ := Prog.returns_pure.mp h
    refine .open ⟨hg.connected, hsocket, hg.peek, hopened⟩ ?_ fun hw _ => ⟨hw.1, hw.2.imp id fun hr => ?_⟩
    · exact congrArg (ahead s.self ++ ·) hunread.symm
    · exact hready.symm ▸ hr

end FEmbed.TCPClientSecure
