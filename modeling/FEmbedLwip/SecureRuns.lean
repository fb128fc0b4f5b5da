/-
A `TCPClientSecure` through any calls of its stream operations: what the reads
hand out is a prefix of the plaintext, `peek` gives the byte that is read next,
and a stopped client leaves its session alone.

This holds of the calls that are `Tame`. Of others it does not: an error that is
reported while a byte waits stops the client in the middle of `read`, which then
goes on as if the byte were still there (`LookAheadDemo.forgets`).
-/
import FEmbedLwip.SecureStream

namespace FEmbed.TCPClientSecure

open Live

variable {σ : Type}

/-- The operations of the stream. -/
inductive StreamOp where
  | peek
  | available
  | read
  | readBuf (n : Nat)
  | connected
  | write (bs : Bytes)
  | stop
  deriving DecidableEq, Repr

/-- They look at the stream, and take nothing of it. -/
def StreamOp.Looks : StreamOp → Prop
  | .peek | .available | .connected | .write _ => True
  | .read | .readBuf _ | .stop => False

/-- An operation: the number it returns, and the bytes it leaves with its caller. -/
def StreamOp.run (p : Platform σ) (timedOut : σ → Bool × σ) : StreamOp → Prog (Live σ TCPClientSecure) (Int × Bytes)
  | .peek => do return (← TCPClientSecure.peek p timedOut, [])
  | .available => do return (← TCPClientSecure.available p, [])
  | .read => do
    let c ← TCPClientSecure.read p
    return (c, if c ≥ 0 then [UInt8.ofNat c.toNat] else [])
  | .readBuf n => TCPClientSecure.readBuf p n
  | .connected => do return (if ← TCPClientSecure.connected p then 1 else 0, [])
  | .write bs => do return (← TCPClientSecure.write p bs, [])
  | .stop => do
    TCPClientSecure.stop p
    return (0, [])

abbrev StreamCall (σ : Type) := Prog.Call (Live (σ × List TlsCall) TCPClientSecure) StreamOp (Int × Bytes)

/-- The bytes that a call hands out: `read()` a number that is not negative,
`read(buf, n)` as many of those in `buf` as it counts. -/
def handedBy (c : StreamCall σ) : Bytes :=
  match c.op with
  | .read => if c.out.1 ≥ 0 then [UInt8.ofNat c.out.1.toNat] else []
  | .readBuf _ => c.out.2.take c.out.1.toNat
  | .peek | .available | .connected | .write _ | .stop => []

/-- The bytes that were handed out. -/
def handed (cs : List (StreamCall σ)) : Bytes := cs.flatMap handedBy

/-- What the calls `cs`, made from `s`, make of the client as a stream. -/
structure FaithfulStream (unread : σ → Bytes) (s : Live (σ × List TlsCall) TCPClientSecure) (cs : List (StreamCall σ)) :
    Prop where
  /-- The reads hand out the stream from its front. -/
  front : handed cs <+: stream unread s
  /-- The byte that `peek` gives is the next one to be read. -/
  peeked : ∀ as c ds e es, cs = as ++ c :: (ds ++ e :: es) → c.op = .peek → 0 ≤ c.out.1 → handed ds = [] →
    ∀ b bs, handedBy e = b :: bs → (b.toNat : Int) = c.out.1
  /-- What `read(buf, n)` returns is the number of bytes in `buf`, or counts none. -/
  counted : ∀ c ∈ cs, ∀ n, c.op = .readBuf n →
    (c.out.2 ≠ [] ∧ c.out.1 = c.out.2.length) ∨ (c.out.2 = [] ∧ c.out.1 ≤ 0)
  /-- What `available` counts can be read. -/
  available : ∀ as c ds e es, cs = as ++ c :: (ds ++ e :: es) → c.op = .available → 0 < c.out.1 →
    (∀ d ∈ ds, d.op.Looks) → e.op = .readBuf 1 → e.out.1 = 1
  /-- Nothing uses the session after it was freed. -/
  quiet : ∀ c ∈ cs, Quiet c.after.env.2
  /-- Once it is freed, only `stop` makes calls on it. -/
  silent : ∀ c ∈ cs, .free .ssl ∈ c.before.env.2 → c.op ≠ .stop → c.after.env.2 = c.before.env.2

section Runs

variable {p : Platform σ} {timedOut : σ → Bool × σ} {unread : σ → Bytes} {ready : σ → Nat}
variable {s s' t : Live (σ × List TlsCall) TCPClientSecure} {op : StreamOp} {o : Int × Bytes} {cs : List (StreamCall σ)}

/-! ## One operation -/

/-- An operation on an open client, `stop` apart. -/
theorem run_stepped (hT : TlsStream p timedOut unread ready) (hg : Good s) (ht : Tame ready s s') (hop : op ≠ .stop)
    (h : (op.run p.watched (unrecorded timedOut)).Returns s o s') : Stepped unread ready s o.2 s' := by
  cases op with
  | peek =>
    obtain ⟨c, t, hpeek, h⟩ := Prog.returns_bind.mp h
    obtain ⟨rfl, rfl⟩ := Prog.returns_pure.mp h
    exact (peek_stepped hT hg ht hpeek).1
  | available =>
    obtain ⟨n, t, havail, h⟩ := Prog.returns_bind.mp h
    obtain ⟨rfl, rfl⟩ := Prog.returns_pure.mp h
    exact (available_stepped hT hg ht havail).1
  | read =>
    obtain ⟨c, t, hread, h⟩ := Prog.returns_bind.mp h
    obtain ⟨rfl, rfl⟩ := Prog.returns_pure.mp h
    exact (read_steps hT hg ht hread).stepped
  | readBuf n => exact (readBuf_steps hT hg ht h).stepped
  | connected =>
    obtain ⟨b, t, hconn, h⟩ := Prog.returns_bind.mp h
    obtain ⟨rfl, rfl⟩ := Prog.returns_pure.mp h
    exact connected_stepped hT hg ht hconn
  | write bs =>
    obtain ⟨n, t, hwrite, h⟩ := Prog.returns_bind.mp h
    obtain ⟨rfl, rfl⟩ := Prog.returns_pure.mp h
    exact write_stepped hT hg ht hwrite
  | stop => exact absurd rfl hop

/-- `timedRead` on a stopped client waits until its time is over. -/
theorem dead_timedRead {c : Int} (hd : Dead s) (h : (timedRead p.watched (unrecorded timedOut)).Returns s c s') :
    c = -1 ∧ s'.self = s.self ∧ s'.env.2 = s.env.2 := by
  refine Prog.Returns.loop_inv (fun _ t => t.self = s.self ∧ t.env.2 = s.env.2)
    (fun c t => c = -1 ∧ t.self = s.self ∧ t.env.2 = s.env.2) ?_ h ⟨rfl, rfl⟩
  rintro _ t x u ⟨hself, hlog⟩ hturn
  have hdead : Dead t := ⟨hself ▸ hd.connected, hself ▸ hd.peek, hlog ▸ hd.quiet⟩
  obtain ⟨d, t', hread, hx⟩ := timedRead_turn hturn
  obtain ⟨rfl, rfl⟩ := dead_read hdead hread
  rcases hx with ⟨hpos, _⟩ | ⟨_, rfl | rfl, rfl⟩
  · exact absurd hpos (by decide)
  · exact ⟨rfl, hself, hlog⟩
  · exact ⟨hself, hlog⟩

/-- `stop` stops: a client whose session was freed may be stopped again. -/
theorem stopped_dead (h : Good s ∨ Dead s) : Dead (stopped p.watched s) := by
  rcases h with hgood | hdead
  · exact dead_stopped hgood.socket hgood.opened
  have hlog : (stopped p.watched s).env.2 = s.env.2 ++ [.free .ssl, .free .sslConfig, .free .ctrDrbg, .free .entropy] := by
    unfold stopped
    split <;> simp [SslContext.freed, Platform.watched, Platform.beside, Lwip.beside, MbedTls.watched, noted, unnoted]
  have hquiet : Quiet (stopped p.watched s).env.2 := hlog ▸ hdead.quiet.append (by simp [Uses])
  unfold stopped at hquiet ⊢
  split
  · rw [if_pos ‹_›] at hquiet
    exact ⟨rfl, show (-1 : Int) < 0 by decide, hquiet⟩
  · rw [if_neg ‹_›] at hquiet
    exact ⟨hdead.connected, hdead.peek, hquiet⟩

/-- An operation on a stopped client. -/
theorem run_dead (hd : Dead s) (h : (op.run p.watched (unrecorded timedOut)).Returns s o s') :
    o.1 ≤ 0 ∧ o.2 = [] ∧ (op = .peek → o.1 < 0) ∧ Dead s' ∧ (op ≠ .stop → s'.env.2 = s.env.2) := by
  cases op with
  | peek =>
    obtain ⟨c, t, hpeek, h⟩ := Prog.returns_bind.mp h
    obtain ⟨rfl, rfl⟩ := Prog.returns_pure.mp h
    unfold TCPClientSecure.peek at hpeek
    rw [returns_obj_bind, if_neg (Int.not_le.mpr hd.peek)] at hpeek
    obtain ⟨b, u, hread, hpeek⟩ := Prog.returns_bind.mp hpeek
    obtain ⟨rfl, hself, hlog⟩ := dead_timedRead hd hread
    rw [returns_set_bind] at hpeek
    obtain ⟨rfl, rfl⟩ := Prog.returns_pure.mp hpeek
    refine ⟨by decide, rfl, fun _ => by decide, ⟨hself ▸ hd.connected, show (-1 : Int) < 0 by decide, ?_⟩, fun _ => hlog⟩
    exact hlog ▸ hd.quiet
  | available =>
    obtain ⟨n, t, havail, h⟩ := Prog.returns_bind.mp h
    obtain ⟨rfl, rfl⟩ := Prog.returns_pure.mp h
    obtain ⟨rfl, rfl⟩ := dead_available hd havail
    exact ⟨Int.le_refl 0, rfl, nofun, hd, fun _ => rfl⟩
  | read =>
    obtain ⟨c, t, hread, h⟩ := Prog.returns_bind.mp h
    obtain ⟨rfl, rfl⟩ := Prog.returns_pure.mp h
    obtain ⟨rfl, rfl⟩ := dead_read hd hread
    exact ⟨by decide, rfl, nofun, hd, fun _ => rfl⟩
  | readBuf n =>
    obtain ⟨rfl, rfl⟩ := dead_readBuf hd h
    exact ⟨by decide, rfl, nofun, hd, fun _ => rfl⟩
  | connected =>
    obtain ⟨b, t, hconn, h⟩ := Prog.returns_bind.mp h
    obtain ⟨rfl, rfl⟩ := Prog.returns_pure.mp h
    obtain ⟨⟨avail, havail⟩, rfl⟩ := connected_returns.mp hconn
    obtain ⟨rfl, rfl⟩ := dead_available hd havail
    rw [hd.connected]
    exact ⟨by decide, rfl, nofun, hd, fun _ => rfl⟩
  | write bs =>
    obtain ⟨n, t, hwrite, h⟩ := Prog.returns_bind.mp h
    obtain ⟨rfl, rfl⟩ := Prog.returns_pure.mp h
    unfold TCPClientSecure.write at hwrite
    rw [returns_obj_bind, hd.connected, if_pos (by decide)] at hwrite
    obtain ⟨rfl, rfl⟩ := Prog.returns_pure.mp hwrite
    exact ⟨Int.le_refl 0, rfl, nofun, hd, fun _ => rfl⟩
  | stop =>
    obtain ⟨_, t, hstop, h⟩ := Prog.returns_bind.mp h
    obtain ⟨rfl, rfl⟩ := Prog.returns_pure.mp h
    obtain rfl := stop_returns.mp hstop
    exact ⟨Int.le_refl 0, rfl, nofun, stopped_dead (.inr hd), fun hne => absurd rfl hne⟩

/-! ## Calls -/

/-- An open client stays one, or is stopped. -/
theorem run_alive (hT : TlsStream p timedOut unread ready) (h : (op.run p.watched (unrecorded timedOut)).Returns s o s')
    (ht : Tame ready s s') (hs : Good s ∨ Dead s) : Good s' ∨ Dead s' := by
  rcases hs with hgood | hdead
  · by_cases hop : op = .stop
    · subst hop
      obtain ⟨_, t, hstop, h⟩ := Prog.returns_bind.mp h
      obtain ⟨rfl, rfl⟩ := Prog.returns_pure.mp h
      obtain rfl := stop_returns.mp hstop
      exact .inr (stopped_dead (.inl hgood))
    · cases run_stepped hT hgood ht hop h with
      | stopped hdead => exact .inr hdead
      | «open» hgood' => exact .inl hgood'
  · exact .inr (run_dead hdead h).2.2.2.1

/-- `read(buf, n)` counts what it stores. -/
theorem readBuf_counts {n : Nat} (hT : TlsStream p timedOut unread ready)
    (h : ((StreamOp.readBuf n).run p.watched (unrecorded timedOut)).Returns s o s') (ht : Tame ready s s')
    (hs : Good s ∨ Dead s) : (o.2 ≠ [] ∧ o.1 = o.2.length) ∨ (o.2 = [] ∧ o.1 ≤ 0) := by
  rcases hs with hgood | hdead
  · cases readBuf_steps hT hgood ht h with
    | failed hrc => exact .inr ⟨rfl, Int.le_of_lt hrc⟩
    | nothing => exact .inr ⟨rfl, by decide⟩
    | unasked => exact .inr ⟨rfl, Int.le_refl 0⟩
    | got hne => exact .inl ⟨hne, rfl⟩
    | last => exact .inl ⟨List.cons_ne_nil _ _, rfl⟩
  · obtain ⟨rfl, -⟩ := dead_readBuf hdead h
    exact .inr ⟨rfl, by decide⟩

/-- A call hands out what it leaves with its caller. -/
theorem handedBy_eq {c : StreamCall σ} (hT : TlsStream p timedOut unread ready)
    (hc : (c.op.run p.watched (unrecorded timedOut)).Returns c.before c.out c.after) (ht : Tame ready c.before c.after)
    (hs : Good c.before ∨ Dead c.before) : handedBy c = c.out.2 := by
  obtain ⟨op, before, out, after⟩ := c
  cases op with
  | peek | available | connected | write | stop =>
    obtain ⟨_, _, _, h⟩ := Prog.returns_bind.mp hc
    obtain ⟨rfl, -⟩ := Prog.returns_pure.mp h
    rfl
  | read =>
    obtain ⟨_, _, _, h⟩ := Prog.returns_bind.mp hc
    obtain ⟨rfl, -⟩ := Prog.returns_pure.mp h
    rfl
  | readBuf n =>
    show out.2.take out.1.toNat = out.2
    rcases readBuf_counts hT hc ht hs with ⟨_, hcount⟩ | ⟨hnil, _⟩
    · rw [hcount, Int.toNat_natCast, List.take_length]
    · rw [hnil, List.take_nil]

/-- The bytes that the calls leave with their caller. -/
def stored (cs : List (StreamCall σ)) : Bytes := cs.flatMap (·.out.2)

/-- A stopped client leaves nothing with its caller. -/
theorem stored_dead (h : Prog.Calls (StreamOp.run p.watched (unrecorded timedOut)) s cs s') (hd : Dead s) :
    stored cs = [] := by
  induction h with
  | nil => rfl
  | cons hc _ ih =>
    obtain ⟨_, hnil, _, hdead, _⟩ := run_dead hd hc
    rw [stored, List.flatMap_cons, hnil, List.nil_append]
    exact ih hdead

/-- The calls take the front of the stream. -/
theorem stored_front (hT : TlsStream p timedOut unread ready)
    (h : Prog.Calls (StreamOp.run p.watched (unrecorded timedOut)) s cs s') (ht : ∀ c ∈ cs, Tame ready c.before c.after)
    (hg : Good s) : stored cs <+: stream unread s := by
  induction h with
  | nil => exact List.nil_prefix
  | @cons c cs s' hc hcs ih =>
    have ih := ih fun d hd => ht d (List.mem_cons_of_mem c hd)
    have hstored : stored (c :: cs) = c.out.2 ++ stored cs := List.flatMap_cons
    rw [hstored]
    by_cases hop : c.op = .stop
    · rw [hop] at hc
      obtain ⟨_, t, hstop, h⟩ := Prog.returns_bind.mp hc
      obtain ⟨hout, hafter⟩ := Prog.returns_pure.mp h
      have hdead : Dead c.after := by
        rw [hafter, stop_returns.mp hstop]
        exact stopped_dead (.inl hg)
      rw [hout, stored_dead hcs hdead]
      exact List.nil_prefix
    · cases run_stepped hT hg (ht c List.mem_cons_self) hop hc with
      | stopped hdead hfront =>
        rw [stored_dead hcs hdead, List.append_nil]
        exact hfront
      | «open» hgood hs =>
        rw [hs]
        exact (List.prefix_append_right_inj _).mpr (ih hgood)

/-- What is at hand stays so while it is only looked at. -/
theorem looks_waiting (hT : TlsStream p timedOut unread ready)
    (h : Prog.Calls (StreamOp.run p.watched (unrecorded timedOut)) s cs s') (ht : ∀ c ∈ cs, Tame ready c.before c.after)
    (hl : ∀ c ∈ cs, c.op.Looks) (hg : Good s) (hw : Waiting ready s) : Good s' ∧ Waiting ready s' := by
  induction h with
  | nil => exact ⟨hg, hw⟩
  | @cons c cs s' hc hcs ih =>
    have hlook := hl c List.mem_cons_self
    have hop : c.op ≠ .stop := fun h => by simp [h, StreamOp.Looks] at hlook
    have hnil : c.out.2 = [] := by
      generalize c.op = op at hc hlook
      cases op with
      | peek | available | connected | write =>
        obtain ⟨_, t, _, h⟩ := Prog.returns_bind.mp hc
        rw [(Prog.returns_pure.mp h).1]
      | read | readBuf | stop => exact absurd hlook id
    cases run_stepped hT hg (ht c List.mem_cons_self) hop hc with
    | stopped _ _ hgot => exact absurd hnil (hgot hw)
    | «open» hgood _ hkeep =>
      exact ih (fun d hd => ht d (List.mem_cons_of_mem c hd)) (fun d hd => hl d (List.mem_cons_of_mem c hd)) hgood
        (hkeep hw hnil)

/-- After a `peek` that gave a byte, the next byte that is taken is that one. -/
theorem peek_then {c e : StreamCall σ} {ds : List (StreamCall σ)} {b : UInt8} {bs : Bytes}
    (hT : TlsStream p timedOut unread ready) (hb : Good c.before ∨ Dead c.before) (ht : Tame ready c.before c.after)
    (hc : (StreamOp.peek.run p.watched (unrecorded timedOut)).Returns c.before c.out c.after) (hpos : 0 ≤ c.out.1)
    (h : Prog.Calls (StreamOp.run p.watched (unrecorded timedOut)) c.after (ds ++ [e]) s')
    (hts : ∀ d ∈ ds ++ [e], Tame ready d.before d.after) (hnil : stored ds = []) (he : e.out.2 = b :: bs) :
    (b.toNat : Int) = c.out.1 := by
  rcases hb with hgood | hdead
  · obtain ⟨d, t, hpeek, hret⟩ := Prog.returns_bind.mp hc
    obtain ⟨hout, rfl⟩ := Prog.returns_pure.mp hret
    have hd : c.out.1 = d := congrArg Prod.fst hout
    obtain ⟨hgood', hahead⟩ := (peek_stepped hT hgood ht hpeek).2 (hd ▸ hpos)
    have hfront := stored_front hT h hts hgood'
    have hstored : stored (ds ++ [e]) = b :: bs := by
      rw [stored, List.flatMap_append, ← stored, hnil, List.flatMap_singleton, he, List.nil_append]
    have hpos' : 0 ≤ c.after.self._peek := by omega
    rw [hstored, stream_of_ahead hpos', List.cons_prefix_cons] at hfront
    have hlt : c.after.self._peek.toNat < 256 := by
      have := hgood'.peek
      omega
    rw [hfront.1, UInt8.toNat_ofNat', Nat.mod_eq_of_lt hlt]
    omega
  · have := (run_dead hdead hc).2.2.1 rfl
    omega

/-- After an `available` that counted a byte, one can be read, whatever is looked at before. -/
theorem available_then {c e : StreamCall σ} {ds : List (StreamCall σ)} (hT : TlsStream p timedOut unread ready)
    (hb : Good c.before ∨ Dead c.before) (ht : Tame ready c.before c.after)
    (hc : (StreamOp.available.run p.watched (unrecorded timedOut)).Returns c.before c.out c.after) (hpos : 0 < c.out.1)
    (h : Prog.Calls (StreamOp.run p.watched (unrecorded timedOut)) c.after (ds ++ [e]) s')
    (hts : ∀ d ∈ ds ++ [e], Tame ready d.before d.after) (hl : ∀ d ∈ ds, d.op.Looks) (he : e.op = .readBuf 1) :
    e.out.1 = 1 := by
  rcases hb with hgood | hdead
  · obtain ⟨d, t, havail, hret⟩ := Prog.returns_bind.mp hc
    obtain ⟨hout, rfl⟩ := Prog.returns_pure.mp hret
    have hd : c.out.1 = d := congrArg Prod.fst hout
    obtain ⟨hgood', hw⟩ := (available_stepped hT hgood ht havail).2 (hd ▸ hpos)
    obtain ⟨u, hds, hlast⟩ := h.split
    obtain ⟨hgood'', hw'⟩ := looks_waiting hT hds (fun d hd => hts d (List.mem_append_left [e] hd)) hl hgood' hw
    cases hlast with
    | cons hread _ =>
      rw [he] at hread
      have hreading := readBuf_steps hT hgood'' (hts e (List.mem_append_right ds List.mem_cons_self)) hread
      generalize e.out = r at hreading
      cases hreading with
      | failed _ hnot => exact absurd hw' hnot
      | nothing hnot => exact absurd hw' hnot
      | unasked hn => exact absurd hn (by decide)
      | got hne hlen =>
        have := List.length_pos_iff.mpr hne
        dsimp only
        omega
      | last hn => exact absurd hn (by decide)
  · have := (run_dead hdead hc).1
    omega

/-- **A `TCPClientSecure` is a faithful stream** as long as no call of an
operation fails while a byte waits that was not taken. -/
theorem stream_faithful (hT : TlsStream p timedOut unread ready) (hg : Good s)
    (h : Prog.Calls (StreamOp.run p.watched (unrecorded timedOut)) s cs s')
    (ht : ∀ c ∈ cs, Tame ready c.before c.after) : FaithfulStream unread s cs := by
  have halive : ∀ c ∈ cs, (Good c.before ∨ Dead c.before) ∧ (Good c.after ∨ Dead c.after) :=
    (h.keeps (I := fun t => Good t ∨ Dead t) (fun _ hr htame => run_alive hT hr htame) ht (.inl hg)).1
  -- A call in the middle, and the calls up to a later one.
  have middle {as c ds e es} (hcs : cs = as ++ c :: (ds ++ e :: es)) : c ∈ cs ∧ (∀ d ∈ ds ++ [e], d ∈ cs) ∧
      ∃ u, Prog.Calls (StreamOp.run p.watched (unrecorded timedOut)) c.after (ds ++ [e]) u := by
    rw [List.append_cons ds e es] at hcs
    subst hcs
    obtain ⟨_, _, hrest⟩ := h.split
    cases hrest with
    | cons _ hrest =>
      obtain ⟨u, hds, _⟩ := hrest.split
      refine ⟨List.mem_append_right as List.mem_cons_self, fun d hd => ?_, u, hds⟩
      exact List.mem_append_right as (List.mem_cons_of_mem c (List.mem_append_left es hd))
  have hby : ∀ c ∈ cs, handedBy c = c.out.2 := fun c hc => handedBy_eq hT (h.mem hc) (ht c hc) (halive c hc).1
  have hhanded {ds : List (StreamCall σ)} (hds : ∀ d ∈ ds, d ∈ cs) : handed ds = stored ds :=
    List.flatMap_congr fun d hd => hby d (hds d hd)
  refine ⟨?_, ?_, ?_, ?_, ?_, ?_⟩
  · rw [hhanded fun _ => id]
    exact stored_front hT h ht hg
  · intro as c ds e es hcs hop hpos hnil b bs hb
    obtain ⟨hc, hds, u, hrun⟩ := middle hcs
    rw [hhanded fun d hd => hds d (List.mem_append_left [e] hd)] at hnil
    rw [hby e (hds e (List.mem_append_right ds List.mem_cons_self))] at hb
    exact peek_then hT (halive c hc).1 (ht c hc) (hop ▸ h.mem hc) hpos hrun (fun d hd => ht d (hds d hd)) hnil hb
  · intro c hc n hop
    exact readBuf_counts hT (hop ▸ h.mem hc) (ht c hc) (halive c hc).1
  · intro as c ds e es hcs hop hpos hl he
    obtain ⟨hc, hds, u, hrun⟩ := middle hcs
    exact available_then hT (halive c hc).1 (ht c hc) (hop ▸ h.mem hc) hpos hrun (fun d hd => ht d (hds d hd)) hl he
  · exact fun c hc => ((halive c hc).2).elim (fun hgood => .of_open hgood.opened) Dead.quiet
  · intro c hc hfree hop
    rcases (halive c hc).1 with hgood | hdead
    · exact absurd hfree hgood.opened
    · exact (run_dead hdead (h.mem hc)).2.2.2.2 hop

end Runs

/-! ## Runs that are faithful, and one that is not -/

namespace LookAheadDemo

/-- A peer with some plaintext left, and the number of reads that are still answered. -/
def tls : MbedTls (Bytes × Nat) :=
  { MbedTls.steady 0 with
    sslRead := fun n e =>
      match e with
      | (bs, 0) => (.error (-1), bs, 0)
      | ([], k + 1) => (.error SslContext.errWantRead, [], k)
      | (b :: bs, k + 1) => if n = 0 then (.eof, b :: bs, k) else (.data b (bs.take (n - 1)), bs.drop (n - 1), k)
    sslGetBytesAvail := fun e => (min e.1.length (2 ^ 14), e) }

def platform : Platform (Bytes × Nat) where
  lwip :=
    { inetAddr := fun _ => 0
      getaddrinfo := fun _ e => (none, e)
      socket := fun e => (3, e)
      setsockopt := fun _ _ e => (0, e)
      connect := fun _ _ e => (0, e)
      shutdown := fun _ e => e
      close := fun _ e => e
      ioctl := fun _ e => (some 0, e)
      select := fun _ e => (1, e)
      recv := fun _ _ e => (.eof, e)
      write := fun _ bs e => (bs.length, e)
      fcntlNonblock := fun _ e => e }
  tls := tls
  malloc _ e := (true, e)
  millis e := (0, e)
  delay _ e := e

/-- The time of the stream is over at once. -/
def timedOut (e : Bytes × Nat) : Bool × Bytes × Nat := (true, e)

theorem tls_stream : TlsStream platform timedOut (·.1) fun e => min e.1.length (2 ^ 14) where
  read := by
    rintro n ⟨_ | ⟨b, bs⟩, _ | k⟩
    · rfl
    · rfl
    · rfl
    · by_cases hn : n = 0
      · simp [platform, tls, hn, SslRecv.got]
      · simp [platform, tls, hn, SslRecv.got]
  readLength := by
    rintro n ⟨_ | ⟨b, bs⟩, _ | k⟩
    · exact Nat.zero_le n
    · exact Nat.zero_le n
    · exact Nat.zero_le n
    · by_cases hn : n = 0
      · simp [platform, tls, hn, SslRecv.got]
      · simp only [platform, tls, hn, if_false, SslRecv.got, List.length_cons, List.length_take]
        omega
  readReady := by
    rintro n ⟨_ | ⟨b, bs⟩, _ | k⟩ hn hr herr
    · exact absurd hr (Nat.lt_irrefl 0)
    · exact absurd hr (Nat.lt_irrefl 0)
    · exact absurd (show IsError (-1) by decide) herr
    · exact ⟨b, bs.take (n - 1), by simp [platform, tls, Nat.pos_iff_ne_zero.mp hn]⟩
  askReady := by
    rintro ⟨_ | ⟨b, bs⟩, _ | k⟩ hr herr
    · rfl
    · rfl
    · rfl
    · rfl
  bytesAvail _ := rfl
  availUnread _ := rfl
  availReady _ := rfl
  readyBound e := Nat.min_le_right ..
  writeUnread _ _ := rfl
  writeReady _ _ := rfl
  clockUnread _ := rfl
  clockReady _ := rfl

/-- A connected client whose peer sent "hi", and answers `k` reads. -/
def start (k : Nat) : Live ((Bytes × Nat) × List TlsCall) TCPClientSecure :=
  ⟨{ sslclient := { socket := 3 }, _connected := true }, (([104, 105], k), [])⟩

theorem start_good (k : Nat) : Good (start k) := ⟨rfl, show (0 : Int) ≤ 3 by decide, show (-1 : Int) < 256 by decide, List.not_mem_nil⟩

/-- The calls `ops`, made from `start k`, and the client after them. -/
def calls (k : Nat) (ops : List StreamOp) :
    List (StreamCall (Bytes × Nat)) × Live ((Bytes × Nat) × List TlsCall) TCPClientSecure :=
  Prog.walked (StreamOp.run platform.watched (unrecorded timedOut)) 3 (start k) ops

theorem calls_run {k : Nat} {ops : List StreamOp}
    (h : (Prog.walk (StreamOp.run platform.watched (unrecorded timedOut)) 3 (start k) ops).isSome) :
    Prog.Calls (StreamOp.run platform.watched (unrecorded timedOut)) (start k) (calls k ops).1 (calls k ops).2 :=
  .of_walked h

instance (c : TCPClientSecure) : (k : TlsCall) → Decidable (Fails c k)
  | .read n rc => inferInstanceAs (Decidable (IsError rc ∧ (0 ≤ c._peek → n = 0)))
  | .write rc => inferInstanceAs (Decidable (IsError rc))
  | .init _ | .free _ | .bytesAvail => .isFalse id

instance (ready : Bytes × Nat → Nat) (s s' : Live ((Bytes × Nat) × List TlsCall) TCPClientSecure) :
    Decidable (Tame ready s s') :=
  inferInstanceAs (Decidable ((_ = true ∧ (0 ≤ _ ∨ 0 < _)) → ∀ k ∈ madeCalls s s', ¬ Fails s.self k))

instance : (k : TlsCall) → Decidable (Uses k)
  | .read _ _ | .bytesAvail | .write _ => .isTrue trivial
  | .init _ | .free _ => .isFalse id

instance (log : List TlsCall) : Decidable (Quiet log) :=
  inferInstanceAs (Decidable (log.Pairwise fun k l => k = .free .ssl → ¬ Uses l))

/-- Looked at, read to its end, and stopped. -/
theorem remembers : FaithfulStream (·.1) (start 9)
    (calls 9 [.peek, .available, .readBuf 1, .peek, .connected, .read, .read, .stop]).1 := by
  refine stream_faithful tls_stream (start_good 9) (calls_run (by decide)) ?_
  decide

/-- The TLS layer fails after a `peek`: `available` still counts the byte, which
is gone, and `readBuf` reads on from the session that was freed. -/
theorem forgets :
    (Prog.Calls (StreamOp.run platform.watched (unrecorded timedOut)) (start 2)
        (calls 2 [.peek, .available, .readBuf 1]).1 (calls 2 [.peek, .available, .readBuf 1]).2 ∧
      ¬ FaithfulStream (·.1) (start 2) (calls 2 [.peek, .available, .readBuf 1]).1) ∧
      Prog.Calls (StreamOp.run platform.watched (unrecorded timedOut)) (start 2)
        (calls 2 [.peek, .readBuf 1]).1 (calls 2 [.peek, .readBuf 1]).2 ∧
      ¬ FaithfulStream (·.1) (start 2) (calls 2 [.peek, .readBuf 1]).1 := by
  refine ⟨⟨calls_run (by decide), fun h => ?_⟩, calls_run (by decide), fun h => ?_⟩
  · have hone := h.available [(calls 2 [.peek, .available, .readBuf 1]).1.get ⟨0, by decide⟩] _ [] _ [] rfl rfl
    exact absurd (hone (by decide) (fun d hd => nomatch hd) rfl) (by decide)
  · have hquiet := h.quiet ((calls 2 [.peek, .readBuf 1]).1.get ⟨1, by decide⟩) (List.get_mem _ _)
    exact absurd hquiet (by decide)

end LookAheadDemo

end FEmbed.TCPClientSecure
