/-
Lines that `readLine` takes from a stream.

A call takes the line up to its LF, however the reads cut the stream. Before a
pass of its loop the client is `Copying`; one lemma for each way a pass can go
says what is copied then, and the calls are put together from them.
-/
import FEmbedLwip.FTPReply

namespace FEmbed

open Live

/-! ## Lines -/

/-- The lines of a stream, each with its LF; the last may have none. -/
def textLines : Bytes → List Bytes
  | [] => []
  | b :: bs =>
    if b = 10 then [b] :: textLines bs
    else
      match textLines bs with
      | [] => [[b]]
      | line :: rest => (b :: line) :: rest

theorem textLines_lf {t : Bytes} (ht : 10 ∉ t) (rest : Bytes) : textLines (t ++ 10 :: rest) = (t ++ [10]) :: textLines rest := by
  induction t with
  | nil => simp [textLines]
  | cons b t ih =>
    rw [List.mem_cons, not_or] at ht
    rw [List.cons_append, textLines, if_neg (Ne.symm ht.1), ih ht.2]
    rfl

theorem textLines_last {t : Bytes} (ht : 10 ∉ t) (hne : t ≠ []) : textLines t = [t] := by
  induction t with
  | nil => exact absurd rfl hne
  | cons b t ih =>
    rw [List.mem_cons, not_or] at ht
    rw [textLines, if_neg (Ne.symm ht.1)]
    by_cases h : t = []
    · rw [h]
      rfl
    · rw [ih ht.2 h]

theorem textLines_flatten (u : Bytes) : (textLines u).flatten = u := by
  induction u with
  | nil => rfl
  | cons b u ih =>
    rw [textLines]
    split
    · rw [List.flatten_cons, ih]
      rfl
    · cases hu : textLines u with
      | nil =>
        rw [hu] at ih
        rw [← ih]
        rfl
      | cons line rest =>
        rw [hu] at ih
        exact congrArg (List.cons b) ih

theorem not_mem_of_mem_textLines {u : Bytes} {b : UInt8} (hb : b ∉ u) : ∀ line ∈ textLines u, b ∉ line := by
  rintro line hline hmem
  refine hb ?_
  rw [← textLines_flatten u]
  exact List.mem_flatten.mpr ⟨line, hline, hmem⟩

/-- A stream is empty, is all one line without LF, or begins with a line. -/
theorem stream_cases (u : Bytes) : u = [] ∨ (u ≠ [] ∧ 10 ∉ u) ∨ ∃ t rest, 10 ∉ t ∧ u = t ++ 10 :: rest := by
  by_cases hu : u = []
  · exact .inl hu
  · by_cases hmem : 10 ∈ u
    · obtain ⟨t, rest, hsplit, ht⟩ := List.eq_append_cons_of_mem hmem
      exact .inr (.inr ⟨t, rest, ht, hsplit⟩)
    · exact .inr (.inl ⟨hu, hmem⟩)

namespace FTPClientBase

variable {σ : Type}

/-! ## Reading -/

/-- `lwip_recv` gives a stream in pieces that do not fill the buffer, and then
tells its end. -/
structure Feeds (net : Lwip σ) (fd : Int) (unread : σ → Bytes) : Prop where
  fd_nonneg : 0 ≤ fd
  select : ∀ e, 0 < (net.select fd e).1 ∧ unread (net.select fd e).2 = unread e
  setsockopt : ∀ o e, unread (net.setsockopt fd o e).2 = unread e
  recv : ∀ n e, 0 < n → ∃ k, k ≤ n ∧ k < ftplibBufsiz ∧ k ≤ (unread e).length ∧ (k = 0 ↔ unread e = []) ∧
    (net.recv fd n e).1.rc = k ∧ (net.recv fd n e).1.got = (unread e).take k ∧ unread (net.recv fd n e).2 = (unread e).drop k

/-- The reader is at the start of `stream`. -/
structure Reader (fd : Int) (unread : σ → Bytes) (stream : Bytes) (s : Live σ FTPClientBase) : Prop where
  socketFd : s.self.socketFd = fd
  dir : s.self.dir ≠ .write
  cursor : Cursor s.self
  response : s.self.response.length = ftplibResponseBufsiz
  stream : s.self.pending ++ unread s.env = stream

variable {p : Platform σ} {fd : Int} {unread : σ → Bytes}

theorem Feeds.readBuf (hp : Feeds p.lwip fd unread) {n : Nat} {c : FTPClientBase} {e : σ} (hn : 0 < n) (hfd : c.socketFd = fd) :
    ∃ k e', k < ftplibBufsiz ∧ k ≤ (unread e).length ∧ (k = 0 ↔ unread e = []) ∧ unread e' = (unread e).drop k ∧
      (tcp (TCPClient.readBuf p.lwip n)).Returns ⟨c, e⟩ ((k : Int), (unread e).take k) ⟨c, e'⟩ := by
  subst hfd
  obtain ⟨hready, hsel⟩ := hp.select e
  obtain ⟨k, hkn, hk, hlen, hzero, hrc, hgot, hrest⟩ := hp.recv n (p.lwip.setsockopt c.socketFd
    (.rcvTimeo c.soTimeout.1 c.soTimeout.2) (p.lwip.select c.socketFd e).2).2 hn
  rw [hp.setsockopt, hsel] at hlen hzero hgot hrest
  refine ⟨k, _, hk, hlen, hzero, hrest, Prog.returns_zoom.mpr ⟨⟨c.toTCPClient, _⟩, TCPClient.readBuf_returns.mpr
    (.inr (.inl ⟨?_, hready, ?_, rfl⟩)), rfl⟩⟩
  · have := hp.fd_nonneg
    show ¬ c.socketFd < 0
    omega
  · exact Prod.ext hrc.symm hgot.symm

/-- What a read stores in an empty buffer is what is pending then. -/
theorem stored_cursor {c : FTPClientBase} (hc : Cursor c) (got : Bytes) (hgot : got.length < ftplibBufsiz) :
    ∃ buf, stored { c with cput := 0, cget := 0, cavail := 0, cleft := ftplibBufsiz } got =
        some { c with buf := buf, cput := got.length, cget := 0, cavail := got.length, cleft := ftplibBufsiz - got.length } ∧
      buf.length = ftplibBufsiz ∧ buf.take got.length = got := by
  have hbuf := hc.buf
  obtain ⟨buf, hpoke⟩ : ∃ buf, poke c.buf 0 got = some buf := ⟨_, poke_eq_some (by omega)⟩
  have hsize := poke_length hpoke
  obtain ⟨buf', hpoke'⟩ : ∃ buf', poke buf got.length [0] = some buf' := ⟨_, poke_eq_some (by
    rw [List.length_singleton]
    omega)⟩
  have htake := congrArg (List.take got.length) (poke_take hpoke')
  have htake' := poke_take hpoke
  rw [Nat.zero_add] at htake'
  rw [List.take_take, Nat.min_eq_left (Nat.le_add_right ..), htake', List.take_zero, List.nil_append,
    List.take_left] at htake
  refine ⟨buf', ?_, (poke_length hpoke').trans (hsize.trans hbuf), htake⟩
  simp only [stored, hpoke, hpoke', bind, Option.bind, pure, Nat.zero_add]

/-- The buffer is empty, and is read into. -/
theorem fill_reads (hp : Feeds p.lwip fd unread) {stream : Bytes} {l : LineState} {c : FTPClientBase} {e : σ}
    (hs : Reader fd unread stream ⟨c, e⟩) (hempty : c.cavail = 0) (hroom : 1 < l.max) (heof : l.eof = false) :
    ∃ s', (fill p l).Returns ⟨c, e⟩ (.next { l with eof := decide (stream = []) }) s' ∧ Reader fd unread stream s' ∧
      (stream ≠ [] → (unread s'.env).length < (unread e).length) := by
  have hc : Cursor c := hs.cursor
  have hcput := hc.cput
  have hstream : unread e = stream := by
    have := hs.stream
    rwa [pending_empty hempty, List.nil_append] at this
  obtain ⟨k, e', hk, hlen, hzero, hrest, hread⟩ := hp.readBuf (n := ftplibBufsiz) (e := e)
    (c := { c with cput := 0, cget := 0, cavail := 0, cleft := ftplibBufsiz }) (by decide) hs.socketFd
  have hgot : ((unread e).take k).length = k := by
    rw [List.length_take]
    omega
  obtain ⟨buf, hstored, hsize, htake⟩ := stored_cursor hc ((unread e).take k) (by omega)
  rw [hgot] at hstored htake
  have hend : decide ((k : Int) = 0) = decide (stream = []) := by
    rw [← hstream, decide_eq_decide, ← hzero]
    omega
  have hrefill : (refill p l).Returns ⟨{ c with cput := 0, cget := 0, cavail := 0, cleft := ftplibBufsiz }, e⟩
      (.next { l with eof := decide (stream = []) })
      ⟨{ c with buf := buf, cput := k, cget := 0, cavail := k, cleft := ftplibBufsiz - k }, e'⟩ := by
    rw [refill, returns_obj_bind, Prog.returns_bind_of hread]
    dsimp only
    rw [if_neg (by omega), returns_obj_bind, hstored]
    dsimp only
    rw [returns_set_bind, hend]
    exact Prog.returns_pure.mpr ⟨rfl, rfl⟩
  refine ⟨⟨{ c with buf := buf, cput := k, cget := 0, cavail := k, cleft := ftplibBufsiz - k }, e'⟩, ?_,
    ⟨hs.socketFd, hs.dir, ⟨hsize, (Nat.zero_add k).symm, Nat.le_of_lt hk⟩, hs.response, ?_⟩, ?_⟩
  · rw [fill, if_neg (by omega), returns_obj_bind, returns_obj_bind, if_pos (show c.cput = c.cget by omega), returns_set_bind]
    dsimp only
    rw [heof, if_neg (by decide)]
    exact hrefill
  · show ((buf.drop 0).take k) ++ unread e' = stream
    rw [List.drop_zero, htake, hrest, List.take_append_drop, hstream]
  · rintro hne
    have : k ≠ 0 := fun h => hne (hstream ▸ hzero.mp h)
    show (unread e').length < _
    rw [hrest, List.length_drop]
    omega

/-- The buffer is empty at the end of the stream. -/
theorem fill_ends {l : LineState} {s : Live σ FTPClientBase} (hs : Reader fd unread [] s) (hroom : 1 < l.max) (heof : l.eof = true) :
    ∃ s', (fill p l).Returns s (.exit (if l.retval = 0 then -1 else l.retval, l.out)) s' ∧ Reader fd unread [] s' := by
  obtain ⟨hempty, hunread⟩ := List.append_eq_nil_iff.mp hs.stream
  have hcavail : s.self.cavail = 0 := by
    rw [← hs.cursor.pending_length, hempty]
    rfl
  have hcput := hs.cursor.cput
  refine ⟨⟨{ s.self with cput := 0, cget := 0, cavail := 0, cleft := ftplibBufsiz }, s.env⟩, ?_,
    ⟨hs.socketFd, hs.dir, ⟨hs.cursor.buf, rfl, Nat.zero_le _⟩, hs.response, ?_⟩⟩
  · rw [fill, if_neg (by omega), returns_obj_bind, returns_obj_bind, if_pos (show s.self.cput = s.self.cget by omega),
      returns_set_bind]
    dsimp only
    rw [if_pos heof]
    exact Prog.returns_pure.mpr ⟨rfl, rfl⟩
  · rw [pending_empty rfl, List.nil_append]
    exact hunread

/-- There is no more room in the caller's buffer. -/
theorem fill_full {l : LineState} {s : Live σ FTPClientBase} {r s'} (hmax : l.max = 1) (h : (fill p l).Returns s r s') :
    ∃ out, poke l.out 0 [0] = some out ∧ r = .exit (l.retval, out) ∧ s' = s := by
  rw [fill, if_pos hmax] at h
  cases hout : poke l.out 0 [0] with
  | none =>
    rw [hout] at h
    exact absurd h Prog.returns_undefined
  | some out =>
    rw [hout] at h
    obtain ⟨rfl, rfl⟩ := Prog.returns_pure.mp h
    exact ⟨out, rfl, rfl, rfl⟩

/-! ## Passes -/

/-- Before a pass of the loop: `got` was taken from the stream, and there is room for more. -/
structure Copying (fd : Int) (unread : σ → Bytes) (max : Nat) (stream : Bytes) (l : LineState) (s : Live σ FTPClientBase)
    (got rest : Bytes) : Prop where
  filling : Filling max got l
  reader : Reader fd unread rest s
  split : got ++ rest = stream
  room : 1 < l.max
  eof : l.eof = true → rest = []

/-- What the passes still have to do: to read the stream, and its end. -/
def passesLeft (unread : σ → Bytes) (l : LineState) (s : Live σ FTPClientBase) : Nat :=
  2 * (unread s.env).length + if l.eof = true then 0 else 1

theorem passesLeft_lt {stream : Bytes} {l l' : LineState} {s s' : Live σ FTPClientBase} (heof : l.eof = false)
    (hunread : unread s.env = stream) (hend : l'.eof = decide (stream = []))
    (hless : stream ≠ [] → (unread s'.env).length < (unread s.env).length) (hall : stream = [] → unread s'.env = []) :
    passesLeft unread l' s' < passesLeft unread l s := by
  rw [passesLeft, passesLeft, heof, hend]
  by_cases h : stream = []
  · rw [hall h, hunread, h]
    decide
  · have := hless h
    simp only [h, decide_false, Bool.false_eq_true, if_false]
    omega

/-- The buffer has no LF: all of it is copied, and more is read. -/
theorem readLineTurn_more (hp : Feeds p.lwip fd unread) {max : Nat} {stream got rest : Bytes} {l : LineState}
    {s : Live σ FTPClientBase} (h : Copying fd unread max stream l s got rest) (hno : 10 ∉ s.self.pending)
    (hroom : s.self.cavail + 1 < l.max) (heof : l.eof = false) :
    ∃ l' s', (readLineTurn p l).Returns s (.next l') s' ∧
      Copying fd unread max stream l' s' (got ++ s.self.pending) (unread s.env) ∧ passesLeft unread l' s' < passesLeft unread l s := by
  obtain ⟨c, e⟩ := s
  have hroom : c.cavail + 1 < l.max := hroom
  have hstream : c.pending ++ unread e = rest := h.reader.stream
  have hsplit : (got ++ c.pending) ++ unread e = stream := by
    rw [List.append_assoc, hstream, h.split]
  have hreads {l₁ : LineState} {c₁ : FTPClientBase} (hl₁ : Filling max (got ++ c.pending) l₁)
      (hs₁ : Reader fd unread (unread e) ⟨c₁, e⟩) (hempty : c₁.cavail = 0) (hroom₁ : 1 < l₁.max) (heof₁ : l₁.eof = false) :
      ∃ l' s', (fill p l₁).Returns ⟨c₁, e⟩ (.next l') s' ∧ Copying fd unread max stream l' s' (got ++ c.pending) (unread e) ∧
        passesLeft unread l' s' < passesLeft unread l ⟨c, e⟩ := by
    obtain ⟨s', hfill, hs', hless⟩ := fill_reads hp hs₁ hempty hroom₁ heof₁
    refine ⟨_, s', hfill, ⟨⟨hl₁.out, hl₁.max, hl₁.retval, hl₁.copied, hl₁.nul, hl₁.noLF⟩, hs', hsplit, hroom₁, of_decide_eq_true⟩, ?_⟩
    refine passesLeft_lt heof rfl rfl hless fun hnil => ?_
    have := hs'.stream
    rw [hnil] at this
    exact (List.append_eq_nil_iff.mp this).2
  have hc : Cursor c := h.reader.cursor
  by_cases hpos : c.cavail > 0
  · obtain ⟨l₁, htake, hl₁, hmax, heof₁⟩ := takeLine_all hc h.filling hno (show c.cavail < l.max by omega)
    have hs₁ : Reader fd unread (unread e) ⟨{ c with cget := c.cput, cavail := 0 }, e⟩ :=
      ⟨h.reader.socketFd, h.reader.dir, ⟨hc.buf, rfl, hc.bound⟩, h.reader.response, by rw [pending_empty rfl]; rfl⟩
    obtain ⟨l', s', hfill, hcopying, hless⟩ := hreads hl₁ hs₁ rfl (by omega) (heof₁.trans heof)
    refine ⟨l', s', ?_, hcopying, hless⟩
    rw [readLineTurn, returns_obj_bind, if_pos hpos, htake]
    dsimp only
    rw [returns_set_bind, if_neg (by decide)]
    exact hfill
  · have hempty : c.cavail = 0 := by omega
    have hpend : c.pending = [] := pending_empty hempty
    have hs₁ : Reader fd unread (unread e) ⟨c, e⟩ := by
      have hr := h.reader
      rwa [← hstream, hpend, List.nil_append] at hr
    obtain ⟨l', s', hfill, hcopying, hless⟩ := hreads (by rw [hpend, List.append_nil]; exact h.filling) hs₁ hempty h.room heof
    refine ⟨l', s', ?_, hcopying, hless⟩
    rw [readLineTurn, returns_obj_bind, if_neg hpos]
    exact hfill

/-- The buffer has the LF, and there is room. -/
theorem readLineTurn_lf {max : Nat} {stream got t more rest : Bytes} {l : LineState} {s : Live σ FTPClientBase}
    (h : Copying fd unread max stream l s got (t ++ 10 :: rest)) (ht : 10 ∉ t) (hpend : s.self.pending = t ++ 10 :: more)
    (hlone : got ++ t ≠ []) (hroom : t.length + 1 < l.max) :
    ∃ out s', (readLineTurn p l).Returns s (.exit ((shown (got ++ t ++ [10])).length, out)) s' ∧ Reader fd unread rest s' ∧
      out.length = max ∧ out.take ((shown (got ++ t ++ [10])).length + 1) = shown (got ++ t ++ [10]) ++ [0] := by
  obtain ⟨c, e⟩ := s
  have hc : Cursor c := h.reader.cursor
  have hpend : c.pending = t ++ 10 :: more := hpend
  obtain ⟨l', htake, hret, hout, htaken⟩ := takeLine_lf hc h.filling hpend ht hlone hroom
  have hline : (t ++ [10]).length = t.length + 1 := by simp
  obtain ⟨hc', hmore⟩ := hc.consumed (t ++ [10]) (hpend.trans (List.append_cons t 10 more))
  rw [hline] at hc' hmore
  have hlen := hc.pending_length
  rw [hpend, List.length_append, List.length_cons] at hlen
  refine ⟨l'.out, ⟨{ c with cget := c.cget + (t.length + 1), cavail := c.cavail - (t.length + 1) }, e⟩, ?_,
    ⟨h.reader.socketFd, h.reader.dir, hc', h.reader.response, ?_⟩, hout, htaken⟩
  · rw [readLineTurn, returns_obj_bind, if_pos (show c.cavail > 0 by omega), htake]
    dsimp only
    rw [returns_set_bind, if_pos rfl, hret]
    exact Prog.returns_pure.mpr ⟨rfl, rfl⟩
  · have hstream : c.pending ++ unread e = t ++ 10 :: rest := h.reader.stream
    rw [hpend, List.append_assoc, List.append_cancel_left_eq] at hstream
    dsimp only
    rw [hmore]
    exact (List.cons.inj hstream).2

/-! ## Calls -/

theorem readLine_loops {max : Nat} {out : Bytes} {s : Live σ FTPClientBase} (hdir : s.self.dir ≠ .write) (hmax : 0 < max) {r s'} :
    (readLine p out max).Returns s r s' ↔ (Prog.loop (readLineTurn p) { out := out, max := max }).Returns s r s' := by
  rw [readLine, returns_obj_bind, if_neg hdir, if_neg (by omega)]

theorem copying_start {max : Nat} {stream out : Bytes} {s : Live σ FTPClientBase} (hs : Reader fd unread stream s) (hmax : 2 ≤ max)
    (hout : out.length = max) : Copying fd unread max stream { out := out, max := max } s [] stream :=
  ⟨⟨hout, rfl, rfl, rfl, fun h => absurd rfl h, List.not_mem_nil⟩, hs, rfl, hmax, nofun⟩

/-- **`readLine` takes a line** up to its LF, however the stream is cut. -/
theorem readLine_lf (hp : Feeds p.lwip fd unread) {max : Nat} {t rest out : Bytes} {s : Live σ FTPClientBase}
    (hs : Reader fd unread (t ++ 10 :: rest) s) (ht : 10 ∉ t) (hne : t ≠ []) (hroom : t.length + 1 < max) (hout : out.length = max) :
    ∃ out' s', (readLine p out max).Returns s ((shown (t ++ [10])).length, out') s' ∧ Reader fd unread rest s' ∧ out'.length = max ∧
      out'.take ((shown (t ++ [10])).length + 1) = shown (t ++ [10]) ++ [0] := by
  let I (l : LineState) (u : Live σ FTPClientBase) : Prop := ∃ got more, Copying fd unread max (t ++ 10 :: rest) l u got more
  let Q (r : Int × Bytes) (u : Live σ FTPClientBase) : Prop := r.1 = (shown (t ++ [10])).length ∧ Reader fd unread rest u ∧
    r.2.length = max ∧ r.2.take ((shown (t ++ [10])).length + 1) = shown (t ++ [10]) ++ [0]
  have hloop : ∃ r s', (Prog.loop (readLineTurn p) { out := out, max := max }).Returns s r s' ∧ Q r s' := by
    refine Prog.loop_returns Nat.lt_wfRel.wf I Q (passesLeft unread) ?_ ⟨[], _, copying_start hs (by omega) hout⟩
    rintro l u ⟨got, more, h⟩
    obtain ⟨t', rfl, rfl⟩ := lf_split h.filling.noLF h.split
    rw [List.mem_append, not_or] at ht
    have hmax := h.filling.max
    have hstream := h.reader.stream
    rw [List.length_append] at hroom
    by_cases hlf : 10 ∈ u.self.pending
    · obtain ⟨t₁, after, hpend, ht₁⟩ := List.eq_append_cons_of_mem hlf
      obtain ⟨rfl, hrest⟩ : t₁ = t' ∧ after ++ unread u.env = rest := by
        rw [hpend, List.append_assoc, List.cons_append] at hstream
        exact cut_inj ht₁ ht.2 hstream
      obtain ⟨out', u', hturn, hu', hsize, htaken⟩ := readLineTurn_lf h ht₁ hpend hne (by omega)
      exact ⟨_, u', hturn, rfl, hu', hsize, htaken⟩
    · obtain ⟨t₁, ht', _⟩ := lf_split hlf hstream
      have hlast : u.self.cavail + 1 < l.max := by
        rw [← h.reader.cursor.pending_length]
        rw [ht', List.length_append] at hroom
        omega
      have heof : l.eof = false := by
        by_contra heof
        exact absurd (h.eof (by simpa using heof)) (by simp)
      obtain ⟨l', u', hturn, hcopying, hless⟩ := readLineTurn_more hp h hlf hlast heof
      exact ⟨_, u', hturn, ⟨_, _, hcopying⟩, hless⟩
  obtain ⟨⟨n, out'⟩, s', hreturns, rfl, hs', hsize, htaken⟩ := hloop
  exact ⟨out', s', (readLine_loops hs.dir (by omega)).mpr hreturns, hs', hsize, htaken⟩

/-- The last line without LF is taken, and then there is none. -/
theorem readLine_last (hp : Feeds p.lwip fd unread) {max : Nat} {t out : Bytes} {s : Live σ FTPClientBase}
    (hs : Reader fd unread t s) (ht : 10 ∉ t) (hroom : t.length + 2 ≤ max) (hout : out.length = max) :
    ∃ out' s', (readLine p out max).Returns s (if t = [] then -1 else t.length, out') s' ∧ Reader fd unread [] s' ∧ out'.length = max ∧
      (t ≠ [] → out'.take (t.length + 1) = t ++ [0]) := by
  let I (l : LineState) (u : Live σ FTPClientBase) : Prop := ∃ got more, Copying fd unread max t l u got more
  let Q (r : Int × Bytes) (u : Live σ FTPClientBase) : Prop := r.1 = (if t = [] then -1 else (t.length : Int)) ∧ Reader fd unread [] u ∧
    r.2.length = max ∧ (t ≠ [] → r.2.take (t.length + 1) = t ++ [0])
  have hloop : ∃ r s', (Prog.loop (readLineTurn p) { out := out, max := max }).Returns s r s' ∧ Q r s' := by
    refine Prog.loop_returns Nat.lt_wfRel.wf I Q (passesLeft unread) ?_ ⟨[], _, copying_start hs (by omega) hout⟩
    rintro l u ⟨got, more, h⟩
    have hmax := h.filling.max
    have hlen := congrArg List.length h.split
    have hpend := congrArg List.length h.reader.stream
    have hcavail := h.reader.cursor.pending_length
    rw [List.length_append] at hlen hpend
    cases heof : l.eof with
    | true =>
      obtain rfl := h.eof heof
      have hgot : got = t := by rw [← h.split, List.append_nil]
      have hempty : ¬ u.self.cavail > 0 := by
        rw [List.length_nil] at hpend
        omega
      obtain ⟨u', hfill, hu'⟩ := fill_ends (p := p) h.reader h.room heof
      refine ⟨.exit (if l.retval = 0 then -1 else l.retval, l.out), u', ?_, ?_, hu', h.filling.out, ?_⟩
      · rw [readLineTurn, returns_obj_bind, if_neg hempty]
        exact hfill
      · rw [h.filling.retval, hgot]
        simp only [List.length_eq_zero_iff]
      · rw [← hgot]
        exact h.filling.nul
    | false =>
      have hno : 10 ∉ u.self.pending := by
        rintro hmem
        refine ht ?_
        rw [← h.split, ← h.reader.stream]
        simp [hmem]
      obtain ⟨l', u', hturn, hcopying, hless⟩ := readLineTurn_more hp h hno (by omega) heof
      exact ⟨_, u', hturn, ⟨_, _, hcopying⟩, hless⟩
  obtain ⟨⟨n, out'⟩, s', hreturns, rfl, hs', hsize, htaken⟩ := hloop
  exact ⟨out', s', (readLine_loops hs.dir (by omega)).mpr hreturns, hs', hsize, htaken⟩

/-- A pass that fills the caller's buffer ends the call, with an empty string. -/
theorem readLineTurn_full {max : Nat} {stream got more : Bytes} {l : LineState} {s : Live σ FTPClientBase} {r s'}
    (h : Copying fd unread max stream l s got more) (hno : 10 ∉ s.self.pending.take (l.max - 1)) (hroom : l.max ≤ s.self.cavail + 1)
    (hturn : (readLineTurn p l).Returns s r s') : ∃ out, r = .exit ((max : Int) - 1, out) ∧ out.head? = some 0 := by
  have hc := h.reader.cursor
  have hlen := hc.pending_length
  have hmax := h.filling.max
  have hl := h.room
  have hfull {l₁ : LineState} {c₁ : FTPClientBase} (hmax₁ : l₁.max = 1) (hret : l₁.retval + 1 = max)
      (hfill : (fill p l₁).Returns ⟨c₁, s.env⟩ r s') : ∃ out, r = .exit ((max : Int) - 1, out) ∧ out.head? = some 0 := by
    obtain ⟨out, hpoke, rfl, _⟩ := fill_full hmax₁ hfill
    refine ⟨out, by rw [← hret]; simp, ?_⟩
    rw [(poke_some hpoke).2]
    rfl
  rw [readLineTurn, returns_obj_bind, if_pos (by omega)] at hturn
  rcases Nat.lt_trichotomy l.max s.self.cavail with hlt | heq | hgt
  · obtain ⟨l₁, htake, hmax₁, _, hret⟩ := takeLine_part hc h.filling (by omega) hno hlt
    rw [htake] at hturn
    dsimp only at hturn
    rw [returns_set_bind, if_neg (by decide)] at hturn
    exact hfull hmax₁ hret hturn
  · rw [takeLine_full hc h.filling (by omega) heq (by rw [List.dropLast_eq_take, hlen, ← heq]; exact hno)] at hturn
    exact absurd hturn Prog.returns_undefined
  · rw [List.take_of_length_le (by omega)] at hno
    obtain ⟨l₁, htake, hl₁, hmax₁, _⟩ := takeLine_all hc h.filling hno hgt
    rw [htake] at hturn
    dsimp only at hturn
    rw [returns_set_bind, if_neg (by decide)] at hturn
    refine hfull (by omega) ?_ hturn
    have := hl₁.max
    rw [hl₁.retval]
    omega

/-- A line that does not fit is lost. -/
theorem readLine_long (hp : Feeds p.lwip fd unread) {max : Nat} {stream out : Bytes} {s : Live σ FTPClientBase}
    (hs : Reader fd unread stream s) (hmax : 2 ≤ max) (hout : out.length = max) (hno : 10 ∉ stream.take (max - 1))
    (hlong : max ≤ stream.length + 1) {n : Int} {out' s'} (h : (readLine p out max).Returns s (n, out') s') :
    n = (max : Int) - 1 ∧ out'.head? = some 0 := by
  rw [readLine_loops hs.dir (by omega)] at h
  refine Prog.Returns.loop_inv (fun l u => ∃ got more, Copying fd unread max stream l u got more)
    (fun r _ => r.1 = (max : Int) - 1 ∧ r.2.head? = some 0) ?_ h ⟨[], _, copying_start hs hmax hout⟩
  rintro l u r t ⟨got, more, h⟩ hturn
  have hroom := h.filling.max
  have hl := h.room
  have hlen := congrArg List.length h.split
  have hpend := h.reader.cursor.pending_length
  rw [List.length_append] at hlen
  have hfirst {k : Nat} (hk : got.length + k + 1 ≤ max) : 10 ∉ u.self.pending.take k := by
    rintro hmem
    have hmem' : 10 ∈ stream.take (got.length + k) := by
      rw [← h.split, List.take_length_add_append, ← h.reader.stream, List.take_append]
      exact List.mem_append_right got (List.mem_append_left _ hmem)
    exact hno (List.take_subset_take_left stream (by omega) hmem')
  by_cases hmore : u.self.cavail + 1 < l.max
  · have heof : l.eof = false := by
      by_contra heof
      have hnil := h.eof (by simpa using heof)
      rw [hnil, List.length_nil] at hlen
      omega
    have hno' := hfirst (k := u.self.cavail) (by omega)
    rw [List.take_of_length_le (by omega)] at hno'
    obtain ⟨l', u', hturn', hcopying, _⟩ := readLineTurn_more hp h hno' hmore heof
    obtain ⟨rfl, rfl⟩ := hturn.det hturn'
    exact ⟨_, _, hcopying⟩
  · obtain ⟨out, rfl, hhead⟩ := readLineTurn_full h (hfirst (by omega)) (by omega) hturn
    exact ⟨rfl, hhead⟩

/-- A line that is only LF is looked for before the caller's buffer. -/
theorem not_returns_readLine_lone (hp : Feeds p.lwip fd unread) {max : Nat} {rest out : Bytes} {s : Live σ FTPClientBase}
    (hs : Reader fd unread (10 :: rest) s) (hmax : 2 ≤ max) (hout : out.length = max) {r s'} : ¬ (readLine p out max).Returns s r s' := by
  rw [readLine_loops hs.dir (by omega)]
  rintro h
  refine Prog.Returns.loop_inv (fun l u => ∃ got more, Copying fd unread max (10 :: rest) l u got more) (fun _ _ => False) ?_ h
    ⟨[], _, copying_start hs hmax hout⟩
  rintro l u r t ⟨got, more, h⟩ hturn
  obtain ⟨t', hnil, rfl⟩ := lf_split (t := []) h.filling.noLF h.split
  obtain ⟨rfl, rfl⟩ := List.append_eq_nil_iff.mp hnil.symm
  cases hpend : u.self.pending with
  | nil =>
    have hempty : u.self.cavail = 0 := by
      rw [← h.reader.cursor.pending_length, hpend]
      rfl
    have heof : l.eof = false := by
      by_contra heof
      exact nomatch h.eof (by simpa using heof)
    obtain ⟨l', u', hturn', hcopying, _⟩ := readLineTurn_more hp h (by simp [hpend]) (by have := h.room; omega) heof
    obtain ⟨rfl, rfl⟩ := hturn.det hturn'
    exact ⟨_, _, hcopying⟩
  | cons b more =>
    have hstream := h.reader.stream
    rw [hpend] at hstream
    obtain ⟨rfl, _⟩ := List.cons.inj hstream
    have hpos : u.self.cavail > 0 := by
      rw [← h.reader.cursor.pending_length, hpend]
      exact Nat.succ_pos _
    rw [readLineTurn, returns_obj_bind, if_pos hpos, takeLine_lone h.reader.cursor h.filling hpend h.room] at hturn
    exact absurd hturn Prog.returns_undefined

/-! ## Successive calls -/

/-- `n` calls with one buffer: what each returns, and leaves there. -/
def readLines (p : Platform σ) (max : Nat) : Nat → Bytes → Prog (Live σ FTPClientBase) (List (Int × Bytes))
  | 0, _ => return []
  | n + 1, out => do
    let (r, out) ← readLine p out max
    return (r, out) :: (← readLines p max n out)

theorem returns_readLines_succ {max n : Nat} {out : Bytes} {s rs t} :
    (readLines p max (n + 1) out).Returns s rs t ↔ ∃ r u rest, (readLine p out max).Returns s r u ∧
      (readLines p max n r.2).Returns u rest t ∧ rs = r :: rest := by
  rw [readLines, Prog.returns_bind]
  constructor
  · rintro ⟨r, u, hcall, h⟩
    obtain ⟨rest, v, hcalls, h⟩ := Prog.returns_bind.mp h
    obtain ⟨rfl, rfl⟩ := Prog.returns_pure.mp h
    exact ⟨r, u, rest, hcall, hcalls, rfl⟩
  · rintro ⟨r, u, rest, hcall, hcalls, rfl⟩
    refine ⟨r, u, hcall, Prog.returns_bind.mpr ⟨rest, t, hcalls, ?_⟩⟩
    exact Prog.returns_pure.mpr ⟨rfl, rfl⟩

/-- A call gave the line. -/
def Gives (r : Int × Bytes) (line : Bytes) : Prop :=
  r.1 = (shown line).length ∧ r.2.take ((shown line).length + 1) = shown line ++ [0]

theorem gives_nonneg {rs : List (Int × Bytes)} {lines : List Bytes} (h : List.Forall₂ Gives rs lines) : ∀ x ∈ rs, 0 ≤ x.1 := by
  induction h with
  | nil => exact nofun
  | cons hx _ ih => exact List.forall_mem_cons.mpr ⟨by rw [hx.1]; omega, ih⟩

theorem map_of_gives {rs : List (Int × Bytes)} {lines : List Bytes} {f : Int × Bytes → Bytes} (h : List.Forall₂ Gives rs lines)
    (hf : ∀ x line, line ∈ lines → Gives x line → f x = shown line) : rs.map f = lines.map shown := by
  induction h with
  | nil => rfl
  | cons hx _ ih =>
    rw [List.map_cons, List.map_cons, hf _ _ List.mem_cons_self hx,
      ih fun x line hline => hf x line (List.mem_cons_of_mem _ hline)]

/-- The call for the `i`-th line of a stream gave it, and one after the last line gave -1. -/
def GivesAt (stream : Bytes) (i : Nat) (r : Int × Bytes) : Prop :=
  match (textLines stream)[i]? with
  | some line => Gives r line
  | none => r.1 = -1

/-- A line for which `readLine` has room. The LF of a line that is only LF is
looked for in the wrong place. -/
def LineFits (max : Nat) (line : Bytes) : Prop := if 10 ∈ line then 2 ≤ line.length ∧ line.length < max else line.length + 2 ≤ max

instance {max : Nat} {line : Bytes} : Decidable (LineFits max line) := inferInstanceAs (Decidable (ite ..))

theorem lineFits_lf {max : Nat} {t : Bytes} : LineFits max (t ++ [10]) ↔ t ≠ [] ∧ t.length + 1 < max := by
  rw [LineFits, if_pos (by simp), List.length_append, List.length_singleton, ← List.length_pos_iff]
  omega

theorem lineFits_last {max : Nat} {t : Bytes} (ht : 10 ∉ t) : LineFits max t ↔ t.length + 2 ≤ max := by
  rw [LineFits, if_neg ht]

/-- A call gives the first line, if there is one, and leaves the others. -/
theorem readLine_fit (hp : Feeds p.lwip fd unread) {max : Nat} {stream out : Bytes} {s : Live σ FTPClientBase}
    (hs : Reader fd unread stream s) (hmax : 2 ≤ max) (hout : out.length = max) (hfit : ∀ line ∈ (textLines stream).head?, LineFits max line) :
    ∃ r s' rest, (readLine p out max).Returns s r s' ∧ Reader fd unread rest s' ∧ r.2.length = max ∧ GivesAt stream 0 r ∧
      textLines rest = (textLines stream).tail := by
  rcases stream_cases stream with rfl | ⟨hne, hno⟩ | ⟨t, rest, ht, rfl⟩
  · obtain ⟨out', s', hcall, hs', hsize, _⟩ := readLine_last hp hs List.not_mem_nil hmax hout
    exact ⟨_, s', [], hcall, hs', hsize, rfl, rfl⟩
  · have hlines := textLines_last hno hne
    have hroom := (lineFits_last hno).mp (hfit stream (by rw [hlines]; rfl))
    obtain ⟨out', s', hcall, hs', hsize, htaken⟩ := readLine_last hp hs hno hroom hout
    refine ⟨_, s', [], hcall, hs', hsize, ?_, by rw [hlines]; rfl⟩
    rw [GivesAt, hlines]
    refine ⟨?_, ?_⟩
    · rw [shown_of_not_mem hno, if_neg hne]
    · rw [shown_of_not_mem hno]
      exact htaken hne
  · have hlines := textLines_lf ht rest
    obtain ⟨hne, hroom⟩ := lineFits_lf.mp (hfit _ (by rw [hlines]; rfl))
    obtain ⟨out', s', hcall, hs', hsize, htaken⟩ := readLine_lf hp hs ht hne hroom hout
    refine ⟨_, s', rest, hcall, hs', hsize, ?_, by rw [hlines]; rfl⟩
    rw [GivesAt, hlines]
    exact ⟨rfl, htaken⟩

/-- **The calls give the lines**, and -1 after the last. -/
theorem readLines_fit (hp : Feeds p.lwip fd unread) {max n : Nat} {stream out : Bytes} {s : Live σ FTPClientBase}
    (hs : Reader fd unread stream s) (hmax : 2 ≤ max) (hout : out.length = max) (hfit : ∀ line ∈ textLines stream, LineFits max line) :
    ∃ rs t, (readLines p max n out).Returns s rs t ∧ rs.length = n ∧ ∀ i r, rs[i]? = some r → GivesAt stream i r := by
  induction n generalizing stream out s with
  | zero => exact ⟨[], s, Prog.returns_pure.mpr ⟨rfl, rfl⟩, rfl, nofun⟩
  | succ n ih =>
    obtain ⟨r, s', rest, hcall, hs', hsize, hgives, hrest⟩ := readLine_fit hp hs hmax hout fun line hline =>
      hfit line (List.mem_of_mem_head? hline)
    obtain ⟨rs, t, hcalls, hlen, hall⟩ := ih hs' hsize fun line hline => by
      rw [hrest] at hline
      exact hfit line (List.mem_of_mem_tail hline)
    refine ⟨r :: rs, t, returns_readLines_succ.mpr ⟨r, s', rs, hcall, hcalls, rfl⟩, by rw [List.length_cons, hlen], ?_⟩
    rintro i x hx
    cases i with
    | zero =>
      obtain rfl := Option.some.inj hx
      exact hgives
    | succ i =>
      have := hall i x hx
      rwa [GivesAt, hrest, List.getElem?_tail] at this

/-- Until a call returns -1, the calls give the lines. -/
theorem readLines_until (hp : Feeds p.lwip fd unread) {max : Nat} {stream out : Bytes} {s : Live σ FTPClientBase}
    (hs : Reader fd unread stream s) (hmax : 2 ≤ max) (hout : out.length = max) (hfit : ∀ line ∈ textLines stream, LineFits max line) :
    ∃ rs r t, (readLines p max ((textLines stream).length + 1) out).Returns s (rs ++ [r]) t ∧ r.1 = -1 ∧
      List.Forall₂ Gives rs (textLines stream) := by
  induction hlines : textLines stream generalizing stream out s with
  | nil =>
    obtain ⟨r, s', rest, hcall, _, _, hgives, _⟩ := readLine_fit hp hs hmax hout (by rw [hlines]; exact nofun)
    rw [GivesAt, hlines] at hgives
    exact ⟨[], r, s', returns_readLines_succ.mpr ⟨r, s', [], hcall, Prog.returns_pure.mpr ⟨rfl, rfl⟩, rfl⟩, hgives, .nil⟩
  | cons line lines ih =>
    rw [hlines] at hfit
    obtain ⟨r, s', rest, hcall, hs', hsize, hgives, hrest⟩ := readLine_fit hp hs hmax hout (by
      rw [hlines]
      rintro _ ⟨⟩
      exact hfit line List.mem_cons_self)
    rw [hlines, List.tail_cons] at hrest
    rw [GivesAt, hlines] at hgives
    obtain ⟨rs, r', t, hcalls, hlast, hall⟩ := ih hs' hsize
      (by rw [hrest]; exact fun line hline => hfit line (List.mem_cons_of_mem _ hline)) hrest
    exact ⟨r :: rs, r', t, returns_readLines_succ.mpr ⟨r, s', rs ++ [r'], hcall, hcalls, rfl⟩, hlast, .cons hgives hall⟩

/-- A `CONTROL` or a `READ` object on a connection, and nothing read yet. -/
def fresh (conn : TCPClient) (dir : FTPDir) : FTPClientBase := { toTCPClient := conn, dir := dir }

theorem reader_fresh {conn : TCPClient} {dir : FTPDir} {e : σ} (hfd : conn.socketFd = fd) (hdir : dir ≠ .write) :
    Reader fd unread (unread e) ⟨fresh conn dir, e⟩ :=
  ⟨hfd, hdir, ⟨List.length_replicate, rfl, Nat.zero_le _⟩, List.length_replicate, by rw [pending_empty rfl, List.nil_append]⟩

/-- Successive calls give the lines of a stream, however it is cut, with room
for two more bytes in the caller's buffer. -/
theorem readLines_textLines (hp : Feeds p.lwip fd unread) {conn : TCPClient} {dir : FTPDir} {e : σ} (hfd : conn.socketFd = fd)
    (hdir : dir ≠ .write) {max : Nat} {out : Bytes} (hmax : 2 ≤ max) (hout : out.length = max)
    (hfit : ∀ line ∈ textLines (unread e), line.length ≤ max - 2) (hlone : [10] ∉ textLines (unread e)) (n : Nat) :
    ∃ rs t, (readLines p max n out).Returns ⟨fresh conn dir, e⟩ rs t ∧ rs.length = n ∧
      ∀ i r, rs[i]? = some r → GivesAt (unread e) i r := by
  refine readLines_fit hp (reader_fresh hfd hdir) hmax hout fun line hline => ?_
  have hlen := hfit line hline
  rw [LineFits]
  split
  · rename_i hmem
    have hpos := List.length_pos_of_mem hmem
    refine ⟨?_, by omega⟩
    by_contra hone
    obtain ⟨b, rfl⟩ := List.length_eq_one_iff.mp (show line.length = 1 by omega)
    rw [List.mem_singleton.mp hmem] at hlone
    exact hlone hline
  · omega

/-! ## Long lines -/

/-- CRLF becomes LF. -/
def crlfToLf : Bytes → Bytes
  | [] => []
  | 13 :: 10 :: bs => 10 :: crlfToLf bs
  | b :: bs => b :: crlfToLf bs

theorem crlfToLf_cons {b : UInt8} {bs : Bytes} (h : b ≠ 13 ∨ bs.head? ≠ some 10) : crlfToLf (b :: bs) = b :: crlfToLf bs := by
  rw [crlfToLf]
  rintro rest rfl rfl
  simp at h

theorem crlfToLf_append {t bs : Bytes} (ht : 10 ∉ t) (h : t.getLast? ≠ some 13 ∨ bs.head? ≠ some 10) :
    crlfToLf (t ++ bs) = t ++ crlfToLf bs := by
  induction t with
  | nil => rfl
  | cons b t ih =>
    rw [List.mem_cons, not_or] at ht
    cases t with
    | nil => exact crlfToLf_cons (h.imp_left fun hlast hb => hlast (by rw [hb]; rfl))
    | cons b' t =>
      rw [List.getLast?_cons_cons] at h
      have hb' : (b' :: t ++ bs).head? ≠ some 10 := fun h => ht.2 (by rw [Option.some.inj h]; exact List.mem_cons_self)
      rw [List.cons_append, crlfToLf_cons (.inr hb'), ih ht.2 h]
      rfl

theorem crlfToLf_of_not_mem {t : Bytes} (ht : 10 ∉ t) : crlfToLf t = t := by
  have := @crlfToLf_append t [] ht (.inr nofun)
  rwa [List.append_nil, crlfToLf, List.append_nil] at this

/-- The text of a stream is what is shown of its lines. -/
theorem crlfToLf_lf {t : Bytes} (ht : 10 ∉ t) (rest : Bytes) : crlfToLf (t ++ 10 :: rest) = shown (t ++ [10]) ++ crlfToLf rest := by
  have hlf : crlfToLf (10 :: rest) = 10 :: crlfToLf rest := crlfToLf_cons (.inl (by decide))
  by_cases hcr : t.getLast? = some 13
  · obtain ⟨u, rfl⟩ := List.getLast?_eq_some_iff.mp hcr
    have hu : 10 ∉ u := fun h => ht (List.mem_append_left _ h)
    have hcrlf : crlfToLf (13 :: 10 :: rest) = 10 :: crlfToLf rest := by rw [crlfToLf]
    rw [List.append_assoc, List.singleton_append, crlfToLf_append hu (.inr (by simp)), hcrlf, List.append_assoc, List.singleton_append,
      shown_crlf, List.append_assoc]
    rfl
  · have hsuffix : ¬ [13, 10] <:+ t ++ [10] := by
      rintro ⟨u, hu⟩
      have hu : (u ++ [13]) ++ [10] = t ++ [10] := by rw [← hu, List.append_assoc]; rfl
      rw [← List.append_cancel_right hu, List.getLast?_concat] at hcr
      exact hcr rfl
    rw [crlfToLf_append ht (.inl hcr), hlf, shown, if_neg hsuffix, List.append_assoc]
    rfl

theorem crlfToLf_textLines (u : Bytes) : ((textLines u).map shown).flatten = crlfToLf u := by
  induction hlines : textLines u generalizing u with
  | nil =>
    rw [← textLines_flatten u, hlines]
    rfl
  | cons line lines ih =>
    rcases stream_cases u with rfl | ⟨hne, hno⟩ | ⟨t, rest, ht, rfl⟩
    · exact nomatch hlines
    · rw [textLines_last hno hne] at hlines
      obtain ⟨rfl, rfl⟩ := List.cons.inj hlines
      rw [crlfToLf_of_not_mem hno, List.map_singleton, shown_of_not_mem hno, List.flatten_singleton]
    · rw [textLines_lf ht] at hlines
      obtain ⟨rfl, hrest⟩ := List.cons.inj hlines
      rw [crlfToLf_lf ht, List.map_cons, List.flatten_cons, ih rest hrest]

/-- What the calls return is the length of what they leave, and what they leave
until one returns -1 is the text of the stream. -/
def Lossless (p : Platform σ) (max : Nat) (out stream : Bytes) (s : Live σ FTPClientBase) : Prop :=
  (∀ n, ∃ rs t, (readLines p max n out).Returns s rs t ∧ ∀ r ∈ rs, 0 ≤ r.1 → r.1 = (cString r.2).length) ∧
    ∃ n rs r t, (readLines p max (n + 1) out).Returns s (rs ++ [r]) t ∧ r.1 = -1 ∧ (∀ x ∈ rs, x.1 ≠ -1) ∧
      (rs.map fun x => cString x.2).flatten = crlfToLf stream

theorem cString_of_gives {r : Int × Bytes} {line : Bytes} (h : Gives r line) (hnul : 0 ∉ line) : cString r.2 = shown line := by
  have hshown : 0 ∉ shown line := by
    rw [shown]
    split
    · rintro hmem
      rw [List.mem_append, List.mem_singleton] at hmem
      exact hmem.elim (fun h => hnul (List.mem_of_mem_take h)) (by decide)
    · exact hnul
  rw [cString, ← List.take_append_drop ((shown line).length + 1) r.2, h.2, List.append_assoc,
    List.takeWhile_append_of_pos fun b hb => by simpa using ne_of_mem_of_not_mem hb hshown]
  simp

/-- A call that returns the length of what it leaves had room for the line. -/
theorem lineFits_of_returns (hp : Feeds p.lwip fd unread) {max : Nat} {stream out : Bytes} {s : Live σ FTPClientBase}
    (hs : Reader fd unread stream s) (hmax : 3 ≤ max) (hout : out.length = max) {r u} (h : (readLine p out max).Returns s r u)
    (hr : 0 ≤ r.1 → r.1 = (cString r.2).length) : ∀ line ∈ (textLines stream).head?, LineFits max line := by
  have hlong (hno : 10 ∉ stream.take (max - 1)) (hlen : max ≤ stream.length + 1) : False := by
    obtain ⟨hret, hhead⟩ := readLine_long hp hs (by omega) hout hno hlen h
    have hempty : cString r.2 = [] := by
      cases hbuf : r.2 with
      | nil => rfl
      | cons b bs =>
        rw [hbuf] at hhead
        obtain rfl := Option.some.inj hhead
        rfl
    have := hr (by omega)
    rw [hempty, List.length_nil] at this
    omega
  rintro line hline
  rcases stream_cases stream with rfl | ⟨hne, hno⟩ | ⟨t, rest, ht, rfl⟩
  · exact nomatch hline
  · rw [textLines_last hno hne] at hline
    obtain rfl := Option.some.inj hline
    rw [lineFits_last hno]
    by_contra hroom
    exact hlong (fun hmem => hno (List.mem_of_mem_take hmem)) (by omega)
  · rw [textLines_lf ht] at hline
    obtain rfl := Option.some.inj hline
    rw [lineFits_lf]
    refine ⟨?_, ?_⟩
    · rintro rfl
      exact not_returns_readLine_lone hp hs (by omega) hout h
    · by_contra hroom
      refine hlong (fun hmem => ht ?_) (by rw [List.length_append, List.length_cons]; omega)
      rw [List.take_append_of_le_length (by omega)] at hmem
      exact List.mem_of_mem_take hmem

theorem textLines_fit_of_calls (hp : Feeds p.lwip fd unread) {max : Nat} {stream out : Bytes} {s : Live σ FTPClientBase}
    (hs : Reader fd unread stream s) (hmax : 3 ≤ max) (hout : out.length = max)
    (h : ∀ n, ∃ rs t, (readLines p max n out).Returns s rs t ∧ ∀ r ∈ rs, 0 ≤ r.1 → r.1 = (cString r.2).length) :
    ∀ line ∈ textLines stream, LineFits max line := by
  induction hlines : textLines stream generalizing stream out s with
  | nil => exact nofun
  | cons line lines ih =>
    obtain ⟨_, _, hcalls, hgood⟩ := h 1
    obtain ⟨r, u, _, hcall, _, rfl⟩ := returns_readLines_succ.mp hcalls
    have hfirst := lineFits_of_returns hp hs hmax hout hcall (hgood r List.mem_cons_self)
    obtain ⟨r', s', rest, hcall', hs', hsize, _, hrest⟩ := readLine_fit hp hs (by omega) hout hfirst
    obtain ⟨rfl, rfl⟩ := hcall.det hcall'
    rw [hlines, List.tail_cons] at hrest
    rw [hlines] at hfirst
    refine List.forall_mem_cons.mpr ⟨hfirst line rfl, ih hs' hsize (fun n => ?_) hrest⟩
    obtain ⟨_, t, hcalls, hgood⟩ := h (n + 1)
    obtain ⟨r', u', rs, hcall', hcalls, rfl⟩ := returns_readLines_succ.mp hcalls
    obtain ⟨rfl, rfl⟩ := hcall.det hcall'
    exact ⟨rs, t, hcalls, fun x hx => hgood x (List.mem_cons_of_mem _ hx)⟩

/-- `readLine` loses nothing exactly when it has room for every line. -/
theorem lossless_iff (hp : Feeds p.lwip fd unread) {max : Nat} {stream out : Bytes} {s : Live σ FTPClientBase}
    (hs : Reader fd unread stream s) (hmax : 3 ≤ max) (hout : out.length = max) (hnul : 0 ∉ stream) :
    Lossless p max out stream s ↔ ∀ line ∈ textLines stream, LineFits max line := by
  refine ⟨fun h => textLines_fit_of_calls hp hs hmax hout h.1, fun hfit => ⟨fun n => ?_, ?_⟩⟩
  · obtain ⟨rs, t, hcalls, _, hall⟩ := readLines_fit hp (n := n) hs (by omega) hout hfit
    refine ⟨rs, t, hcalls, fun r hr hpos => ?_⟩
    obtain ⟨i, hi⟩ := List.getElem?_of_mem hr
    have hgives := hall i r hi
    rw [GivesAt] at hgives
    split at hgives
    · rename_i line hline
      rw [cString_of_gives hgives (not_mem_of_mem_textLines hnul line (List.mem_of_getElem? hline)), hgives.1]
    · omega
  · obtain ⟨rs, r, t, hcalls, hlast, hgives⟩ := readLines_until hp hs (by omega) hout hfit
    refine ⟨_, rs, r, t, hcalls, hlast, fun x hx => ?_, ?_⟩
    · have := gives_nonneg hgives x hx
      omega
    · rw [← crlfToLf_textLines]
      exact congrArg List.flatten (map_of_gives hgives fun x line hline hx =>
        cString_of_gives hx (not_mem_of_mem_textLines hnul line hline))

/-! ## On the wire -/

namespace Wire

/-- What the peer has still to send, and the blocks that were sent to it. -/
structure Peer where
  unread : Bytes
  sent : List Bytes := []
  deriving DecidableEq, Repr

/-- A peer that is read in pieces of at most `k + 1` bytes. -/
def peer (k : Nat) : Platform Peer where
  lwip :=
    { inetAddr := fun _ => 0
      getaddrinfo := fun _ e => (none, e)
      socket := fun e => (3, e)
      setsockopt := fun _ _ e => (0, e)
      connect := fun _ _ e => (0, e)
      shutdown := fun _ e => e
      close := fun _ e => e
      ioctl := fun _ e => (some 0, e)
      select := fun _ e => (1, e)
      recv := fun _ n e =>
        match e.unread with
        | [] => (.eof, e)
        | b :: bs => (.data b (bs.take (min (n - 1) k)), { e with unread := bs.drop (min (n - 1) k) })
      write := fun _ bs e => (bs.length, { e with sent := e.sent ++ [bs] })
      fcntlNonblock := fun _ e => e }
  tls := .steady 0
  malloc _ e := (true, e)
  millis e := (0, e)
  delay _ e := e

theorem peer_feeds {k : Nat} (hk : k + 1 < ftplibBufsiz) : Feeds (peer k).lwip 3 Peer.unread where
  fd_nonneg := by decide
  select _ := ⟨Int.one_pos, rfl⟩
  setsockopt _ _ := rfl
  recv n e hn := by
    obtain ⟨unread, sent⟩ := e
    cases unread with
    | nil => exact ⟨0, Nat.zero_le n, by decide, Nat.le_refl 0, by simp, rfl, rfl, rfl⟩
    | cons b bs =>
      refine ⟨min (min (n - 1) k) bs.length + 1, by omega, by omega, ?_, by simp, ?_, ?_, ?_⟩
      · rw [List.length_cons]
        omega
      · show (((bs.take (min (n - 1) k)).length : Int) + 1) = _
        rw [List.length_take]
        rfl
      · exact congrArg (List.cons b) List.take_eq_take_min
      · exact List.drop_eq_drop_min (l := bs)

/-- A control connection that is socket 3. -/
def control (unread : Bytes) : Live Peer FTPClientBase := ⟨fresh { socketFd := 3 } .control, { unread }⟩

theorem control_reader (stream : Bytes) : Reader 3 Peer.unread stream (control stream) :=
  show Reader 3 Peer.unread (Peer.unread { unread := stream }) ⟨fresh { socketFd := 3 } .control, { unread := stream }⟩ from
    reader_fresh rfl (by decide)

/-- Two lines, a CR apart from its LF, and what comes after them. -/
theorem readLines_two : ∃ rs t, (readLines (peer 2) 16 4 (List.replicate 16 1)).Returns (control (bytes "ab\r\nc\r\nd")) rs t ∧ rs.length = 4 ∧
    ∀ i r, rs[i]? = some r → GivesAt (bytes "ab\r\nc\r\nd") i r :=
  readLines_textLines (peer_feeds (by decide)) rfl (by decide) (by decide) rfl (by decide) (by decide) 4

/-- A line of a text file that fits, and one that does not. -/
theorem lossless_short : Lossless (peer 2) 8 (List.replicate 8 1) (bytes "abc\r\nd") (control (bytes "abc\r\nd")) :=
  (lossless_iff (peer_feeds (k := 2) (by decide)) (control_reader (bytes "abc\r\nd")) (show 3 ≤ 8 by decide)
    (show (List.replicate 8 1).length = 8 from rfl) (by decide)).mpr (by decide)

theorem not_lossless_long : ¬ Lossless (peer 2) 4 (List.replicate 4 1) (bytes "abcde\n") (control (bytes "abcde\n")) := by
  rintro ⟨hcalls, _⟩
  obtain ⟨rs, t, hcall, hgood⟩ := hcalls 1
  have hrun : (readLines (peer 2) 4 1 (List.replicate 4 1)).Returns (control (bytes "abcde\n")) [(3, [0, 98, 99, 0])] _ :=
    .of_run 9 (by decide +kernel)
  obtain ⟨rfl, _⟩ := hcall.det hrun
  exact absurd (hgood _ List.mem_cons_self (by decide)) (by decide)

end Wire

end FTPClientBase

end FEmbed
