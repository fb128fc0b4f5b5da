/-
Replies of a server (RFC 959), and that `readResp` consumes exactly one.

What the reader has not consumed yet is what is left in its buffer and what
the server has still to deliver. `readLine` moves one line from there into the
caller's buffer, however the bytes are cut by the reads (`readLine_line`), and
`readResp` one reply (`readResp_reply`); the invariant of the loop of
`readLine` is `Reading`.
-/
import FEmbedLwip.FTPTakeLine
import FEmbedLwip.TCPClientFacts

namespace FEmbed

open Live

/-! ## Replies -/

/-- A reply of RFC 959: a code, and a last line `ddd text`. In a reply of
several lines `more` is what follows `ddd-` in the first, and the lines in
between. -/
structure Reply where
  d₁ : UInt8
  d₂ : UInt8
  d₃ : UInt8
  more : List Bytes
  text : Bytes
  digits : isDigit 10 d₁ ∧ isDigit 10 d₂ ∧ isDigit 10 d₃
  noLF : ∀ t ∈ text :: more, 10 ∉ t
  inner : ∀ t ∈ more.tail, ¬ [d₁, d₂, d₃, 32] <+: t
  deriving DecidableEq

namespace Reply

def code (r : Reply) : Bytes := [r.d₁, r.d₂, r.d₃]

/-- The last line. -/
def last (r : Reply) : Bytes := r.code ++ 32 :: r.text

def lines (r : Reply) : List Bytes :=
  match r.more with
  | [] => [r.last]
  | t :: ts => (r.code ++ 45 :: t) :: ts ++ [r.last]

def renderLine (line : Bytes) : Bytes := line ++ [13, 10]

def render (r : Reply) : Bytes := (r.lines.map renderLine).flatten

/-- Every line, its CRLF included, fits into `response` with a NUL. -/
def Fits (r : Reply) : Prop := ∀ line ∈ r.lines, (renderLine line).length < ftplibResponseBufsiz

end Reply

def renderAll (rs : List Reply) : Bytes := (rs.map Reply.render).flatten

theorem Reply.render_ne_nil (r : Reply) : r.render ≠ [] := by
  intro h
  have hlast : r.last ∈ r.lines := by
    unfold Reply.lines
    split <;> simp
  have hnil := List.flatten_eq_nil_iff.mp h _ (List.mem_map_of_mem hlast)
  simp [Reply.renderLine] at hnil

theorem renderAll_eq_nil {rs : List Reply} (h : renderAll rs = []) : rs = [] := by
  cases rs with
  | nil => rfl
  | cons r rs => exact absurd (List.append_eq_nil_iff.mp h).1 r.render_ne_nil

namespace FTPClientBase

/-! ## The reader -/

structure ReaderOk (c : FTPClientBase) : Prop where
  buf : c.buf.length = ftplibBufsiz
  response : c.response.length = ftplibResponseBufsiz
  cput : c.cput = c.cget + c.cavail
  bound : c.cput ≤ ftplibBufsiz
  dir : c.dir = .control

theorem ReaderOk.cursor {c : FTPClientBase} (h : ReaderOk c) : Cursor c := ⟨h.buf, h.cput, h.bound⟩

theorem ReaderOk.pending_length {c : FTPClientBase} (h : ReaderOk c) : c.pending.length = c.cavail := h.cursor.pending_length

end FTPClientBase

/-! ## The server -/

/-- The command of a line. -/
theorem dropLast_crlf (cmd : Bytes) : (cmd ++ [13, 10]).dropLast.dropLast = cmd := by
  rw [show cmd ++ [13, 10] = (cmd ++ [13]) ++ [10] by simp, List.dropLast_concat, List.dropLast_concat]

/-- The commands that are answered by a reply 1yz and a final one. -/
def IsTransfer (cmd : Bytes) : Prop := ∃ typ, FTPClient.verb typ <+: cmd

/-- The replies RFC 959 has for a command. -/
def Answers (cmd : Bytes) (rs : List Reply) : Prop :=
  (∃ r, rs = [r] ∧ r.d₁ ≠ 49) ∨ (IsTransfer cmd ∧ ∃ r r', rs = [r, r'] ∧ r.d₁ = 49 ∧ r'.d₁ ≠ 49)

variable {σ : Type}

/-- What can be seen of the control connection from outside the client. The
connection is `alive` until a read, a `select` or a write on it fails; `line`
is the part of a command the server has, and `unread` what it owes: what it
has sent or will send for the commands it has, and the client has not received. -/
structure ControlView (σ : Type) where
  alive : σ → Prop
  line : σ → Bytes
  unread : σ → Bytes

/-- From `e` to `e'` the control connection stays as it is, or ends. -/
def ControlView.Same (v : ControlView σ) (e e' : σ) : Prop :=
  v.alive e' → v.alive e ∧ v.line e' = v.line e ∧ v.unread e' = v.unread e

/-- A server that answers each command on the control connection `fd`, and
calls that leave the control connection alone. -/
structure ControlServer (p : Platform σ) (fs : FTPClientDataCallback σ) (fd : Int) extends ControlView σ where
  answer : Bytes → σ → List Reply
  fd_nonneg : 0 ≤ fd
  answers : ∀ cmd e, Answers cmd (answer cmd e)
  recv : ∀ n e, alive (p.lwip.recv fd n e).2 → alive e ∧ 0 < (p.lwip.recv fd n e).1.got.length ∧
    (p.lwip.recv fd n e).1.got.length ≤ n ∧ line (p.lwip.recv fd n e).2 = line e ∧
    unread e = (p.lwip.recv fd n e).1.got ++ unread (p.lwip.recv fd n e).2
  write : ∀ bs e, alive (p.lwip.write fd bs e).2 → alive e
  writeMore : ∀ bs e, 10 ∉ line e ++ bs → alive (p.lwip.write fd bs e).2 →
    line (p.lwip.write fd bs e).2 = line e ++ bs ∧ unread (p.lwip.write fd bs e).2 = unread e
  writeLine : ∀ cmd bs e, 10 ∉ cmd → line e ++ bs = cmd ++ [13, 10] → alive (p.lwip.write fd bs e).2 →
    line (p.lwip.write fd bs e).2 = [] ∧ unread (p.lwip.write fd bs e).2 = unread e ++ renderAll (answer cmd e)
  selected : ∀ e, alive (p.lwip.select fd e).2 → 0 < (p.lwip.select fd e).1
  fresh : ∀ e, alive (p.lwip.socket e).2 → (p.lwip.socket e).1 ≠ fd
  socket : ∀ e, toControlView.Same e (p.lwip.socket e).2
  setsockopt : ∀ fd' o e, toControlView.Same e (p.lwip.setsockopt fd' o e).2
  connect : ∀ fd' a e, toControlView.Same e (p.lwip.connect fd' a e).2
  shutdown : ∀ fd' e, toControlView.Same e (p.lwip.shutdown fd' e)
  close : ∀ fd' e, toControlView.Same e (p.lwip.close fd' e)
  select : ∀ fd' e, toControlView.Same e (p.lwip.select fd' e).2
  recvData : ∀ fd' n e, fd' ≠ fd → toControlView.Same e (p.lwip.recv fd' n e).2
  writeData : ∀ fd' bs e, fd' ≠ fd → toControlView.Same e (p.lwip.write fd' bs e).2
  malloc : ∀ n e, toControlView.Same e (p.malloc n e).2
  openFile : ∀ f m e, toControlView.Same e (fs.openFile f m e)
  readFile : ∀ n e, toControlView.Same e (fs.read n e).2
  writeFile : ∀ bs e, toControlView.Same e (fs.write bs e).2
  closeFile : ∀ e, toControlView.Same e (fs.close e)

theorem ControlView.Same.trans {v : ControlView σ} {e e' e'' : σ} (h : v.Same e e') (h' : v.Same e' e'') :
    v.Same e e'' := by
  intro ha
  obtain ⟨ha', hl', hu'⟩ := h' ha
  obtain ⟨ha, hl, hu⟩ := h ha'
  exact ⟨ha, hl'.trans hl, hu'.trans hu⟩

namespace FTPClientBase

variable {p : Platform σ} {fs : FTPClientDataCallback σ} {fd : Int} (srv : ControlServer p fs fd)

/-- The client has still to consume `stream`, and the server has the part `ln`
of a command. -/
structure Ahead (ln stream : Bytes) (s : Live σ FTPClientBase) : Prop where
  socketFd : s.self.socketFd = fd
  reader : ReaderOk s.self
  line : srv.line s.env = ln
  stream : s.self.pending ++ srv.unread s.env = stream

/-- A read of the control connection, as long as it lives. -/
theorem readBuf_alive {n : Nat} {s : Live σ FTPClientBase} {x : Int} {got : Bytes} {s'}
    (hfd : srv.alive s.env → s.self.socketFd = fd)
    (h : (tcp (TCPClient.readBuf p.lwip n)).Returns s (x, got) s') (ha : srv.alive s'.env) :
    s'.self = s.self ∧ srv.alive s.env ∧ x = got.length ∧ 0 < got.length ∧ got.length ≤ n ∧
      srv.line s'.env = srv.line s.env ∧ srv.unread s.env = got ++ srv.unread s'.env := by
  obtain ⟨t, ht, rfl⟩ := Prog.returns_zoom.mp h
  rcases TCPClient.readBuf_returns.mp ht with ⟨hneg, _, rfl⟩ | ⟨_, _, hr, rfl⟩ | ⟨_, hsel, _, rfl⟩
  · exact absurd (hfd ha ▸ srv.fd_nonneg) (Int.not_le.mpr hneg)
  · have before := (srv.select s.self.socketFd s.env).trans (srv.setsockopt s.self.socketFd
      (.rcvTimeo s.self.soTimeout.1 s.self.soTimeout.2) _)
    by_cases hsock : s.self.socketFd = fd
    · simp only [TCPClient.recvAt, TCPClient.atRecv, hsock] at hr ha before ⊢
      obtain ⟨ha', hpos, hle, hline, hunread⟩ := srv.recv _ _ ha
      obtain ⟨ha', hline', hunread'⟩ := before ha'
      obtain ⟨rfl, rfl⟩ := Prod.mk.inj hr
      refine ⟨trivial, ha', ?_, hpos, hle, hline.trans hline', by rw [← hunread', hunread]⟩
      cases hrc : (p.lwip.recv fd n (p.lwip.setsockopt fd (.rcvTimeo s.self.soTimeout.1 s.self.soTimeout.2)
        (p.lwip.select fd s.env).2).2).1 with
      | data b bs => simp [Recv.rc, Recv.got]
      | eof => rw [hrc] at hpos; exact absurd hpos (by decide)
      | err => rw [hrc] at hpos; exact absurd hpos (by decide)
    · exact absurd (hfd ((before.trans (srv.recvData _ n _ hsock)) ha).1) hsock
  · have ha' := (srv.select _ _ ha).1
    have hsock : s.self.socketFd = fd := hfd ha'
    simp only [TCPClient.dropped, hsock] at ha hsel
    exact absurd (srv.selected s.env ha) hsel

/-- What a read stores in an empty buffer is what is pending then. -/
theorem stored_empty {c c' : FTPClientBase} {got : Bytes} (hc : ReaderOk c)
    (h : stored { c with cput := 0, cget := 0, cavail := 0, cleft := ftplibBufsiz } got = some c') :
    c'.pending = got ∧ ReaderOk c' ∧ c'.toTCPClient = c.toTCPClient := by
  simp only [stored, Option.bind_eq_bind, Option.bind_eq_some_iff, pure, Option.some.injEq, Nat.zero_add] at h
  obtain ⟨buf, hbuf, buf', hbuf', rfl⟩ := h
  have hlen := (poke_length hbuf').trans ((poke_length hbuf).trans hc.buf)
  obtain ⟨hle, rfl⟩ := poke_some hbuf
  obtain ⟨hle', rfl⟩ := poke_some hbuf'
  simp only [Nat.zero_add, hc.buf] at hle
  refine ⟨?_, ⟨hlen, hc.response, (Nat.zero_add _).symm, hle, hc.dir⟩, rfl⟩
  simp [pending]

theorem refill_alive {l : LineState} {s : Live σ FTPClientBase} {r s'} (hfd : srv.alive s.env → s.self.socketFd = fd)
    (h : (refill p l).Returns s r s') (ha : srv.alive s'.env) :
    srv.alive s.env ∧ r = .next { l with eof := false } ∧ ∃ got, stored s.self got = some s'.self ∧
      srv.line s'.env = srv.line s.env ∧ srv.unread s.env = got ++ srv.unread s'.env := by
  rw [refill, returns_obj_bind] at h
  obtain ⟨⟨x, got⟩, t, hread, h⟩ := Prog.returns_bind.mp h
  rw [Prog.returns_ite] at h
  rcases h with ⟨hx, h⟩ | ⟨_, h⟩
  · obtain ⟨rfl, rfl⟩ := Prog.returns_pure.mp h
    obtain ⟨_, _, hlen, hpos, _⟩ := readBuf_alive srv hfd hread ha
    omega
  · rw [returns_obj_bind] at h
    cases hst : stored t.self got with
    | none => rw [hst] at h; exact absurd h Prog.returns_undefined
    | some c =>
      simp only [hst, returns_set_bind, Prog.returns_pure] at h
      obtain ⟨rfl, rfl⟩ := h
      obtain ⟨hself, ha, hlen, hpos, _, hline, hunread⟩ := readBuf_alive srv hfd hread ha
      refine ⟨ha, ?_, got, by rw [← hself, hst], hline, hunread⟩
      have hx : ¬ x = 0 := by omega
      rw [decide_eq_false hx]

/-- A line that fits is ahead, with its CRLF: `got` of it was copied, and `more`
is to come before the LF. -/
structure LineAhead (size : Nat) (text ln rest : Bytes) (l : LineState) (s : Live σ FTPClientBase) (got more : Bytes) : Prop where
  noLF : 10 ∉ text
  fits : text.length + 2 < size
  filling : Filling size got l
  eof : l.eof = false
  split : text ++ [13] = got ++ more
  ahead : Ahead srv ln (more ++ 10 :: rest) s

variable {srv} in
theorem LineAhead.room {size : Nat} {text ln rest : Bytes} {l : LineState} {s : Live σ FTPClientBase} {got more : Bytes}
    (h : LineAhead srv size text ln rest l s got more) : more.length + 1 < l.max := by
  have hmax := h.filling.max
  have hfits := h.fits
  have hlen := congrArg List.length h.split
  rw [List.length_append, List.length_append, List.length_singleton] at hlen
  omega

/-- More of the line arrives in an empty buffer. -/
theorem fill_alive {l : LineState} {size : Nat} {text ln rest : Bytes} {s : Live σ FTPClientBase} {r s'}
    (h : (fill p l).Returns s r s') (ha : srv.alive s'.env)
    (hs : srv.alive s.env → s.self.cavail = 0 ∧ ∃ got more, LineAhead srv size text ln rest l s got more) :
    r = .next l ∧ ∃ got more, LineAhead srv size text ln rest l s' got more := by
  have hne : srv.alive s.env → l.max ≠ 1 ∧ l.eof = false ∧ s.self.cput = s.self.cget := by
    intro ha
    obtain ⟨hempty, got, more, hline⟩ := hs ha
    have := hline.room
    have := hline.ahead.reader.cput
    exact ⟨by omega, hline.eof, by omega⟩
  have hfd (ha : srv.alive s.env) : s.self.socketFd = fd := (hs ha).2.elim fun _ h => h.elim fun _ h => h.ahead.socketFd
  rw [fill, Prog.returns_ite] at h
  rcases h with ⟨hmax, h⟩ | ⟨_, h⟩
  · cases hout : poke l.out 0 [0] with
    | none => rw [hout] at h; exact absurd h Prog.returns_undefined
    | some out =>
      rw [hout] at h
      obtain ⟨rfl, rfl⟩ := Prog.returns_pure.mp h
      exact absurd hmax (hne ha).1
  simp only [returns_obj_bind, returns_set_bind, Prog.returns_ite, Prog.returns_pure] at h
  rcases h with ⟨_, ⟨heof, rfl, rfl⟩ | ⟨_, h⟩⟩ | ⟨hput, ⟨heof, rfl, rfl⟩ | ⟨_, h⟩⟩
  · exact absurd ((hne ha).2.1 ▸ heof) (by decide)
  · obtain ⟨ha, rfl, bs, hst, hln, hunread⟩ := refill_alive srv (by exact hfd) h ha
    obtain ⟨hempty, got, more, hline⟩ := hs ha
    obtain ⟨hpend, hok, htcp⟩ := stored_empty hline.ahead.reader hst
    refine ⟨by rw [← hline.eof], got, more, hline.noLF, hline.fits, hline.filling, hline.eof, hline.split,
      by rw [htcp, hline.ahead.socketFd], hok, hln.trans hline.ahead.line, ?_⟩
    rw [hpend, ← hunread, ← hline.ahead.stream, pending_empty hempty, List.nil_append]
  · exact absurd (hne ha).2.2 hput
  · exact absurd (hne (refill_alive srv hfd h ha).1).2.2 hput

/-- The branch `cavail > 0`: the line is complete, or the buffer is empty. -/
theorem takeLine_ahead {l l' : LineState} {size : Nat} {text ln rest got more : Bytes} {c : FTPClientBase} {done : Bool}
    {s : Live σ FTPClientBase} (hs : LineAhead srv size text ln rest l s got more) (h : takeLine s.self l = some (c, l', done)) :
    (done = true ∧ l'.retval = text.length + 1 ∧ l'.out.length = size ∧
        l'.out.take (text.length + 2) = text ++ [10, 0] ∧ Ahead srv ln rest ⟨c, s.env⟩) ∨
      (done = false ∧ c.cavail = 0 ∧ ∃ got' more', LineAhead srv size text ln rest l' ⟨c, s.env⟩ got' more') := by
  have hc := hs.ahead.reader
  have hroom := hs.room
  have hstream := hs.ahead.stream
  have hno : 10 ∉ got ++ more := by
    rw [← hs.split]
    simp [hs.noLF]
  rw [List.mem_append, not_or] at hno
  by_cases hlf : 10 ∈ s.self.pending
  · obtain ⟨t, after, hpend, ht⟩ := List.eq_append_cons_of_mem hlf
    rw [hpend, List.append_assoc, List.cons_append] at hstream
    obtain ⟨rfl, hrest⟩ := cut_inj ht hno.2 hstream
    obtain ⟨l₁, htake, hret, hout, htaken⟩ := takeLine_lf hc.cursor hs.filling hpend ht
      (by rw [← hs.split]; exact List.concat_ne_nil 13 text) hroom
    obtain ⟨hc', hmore⟩ := hc.cursor.consumed (t ++ [10]) (hpend.trans (List.append_cons t 10 after))
    rw [List.length_append, List.length_singleton] at hc' hmore
    have hline : shown (got ++ t ++ [10]) = text ++ [10] := by
      rw [← hs.split, List.append_assoc]
      exact shown_crlf text
    rw [hline, List.length_append, List.length_singleton] at hret htaken
    rw [h] at htake
    obtain ⟨rfl, rfl, rfl⟩ := by simpa only [Option.some.injEq, Prod.mk.injEq] using htake
    refine .inl ⟨rfl, hret, hout, by rw [htaken, List.append_assoc]; rfl, hs.ahead.socketFd,
      ⟨hc'.buf, hc.response, hc'.cput, hc'.bound, hc.dir⟩, hs.ahead.line, ?_⟩
    dsimp only
    rw [hmore, hrest]
  · obtain ⟨t, rfl, hunread⟩ := lf_split hlf hstream
    rw [List.length_append, hc.pending_length] at hroom
    obtain ⟨l₁, htake, hl₁, hmax, heof⟩ := takeLine_all hc.cursor hs.filling hlf (by omega)
    rw [h] at htake
    obtain ⟨rfl, rfl, rfl⟩ := by simpa only [Option.some.injEq, Prod.mk.injEq] using htake
    refine .inr ⟨rfl, rfl, _, t, hs.noLF, hs.fits, hl₁, heof.trans hs.eof, ?_, hs.ahead.socketFd,
      ⟨hc.buf, hc.response, rfl, hc.bound, hc.dir⟩, hs.ahead.line, ?_⟩
    · rw [hs.split, List.append_assoc]
    · rw [pending_empty rfl]
      exact hunread

/-- One turn of `readLine`: more of the line in the caller's buffer, or all of it. -/
theorem readLineTurn_alive {l : LineState} {size : Nat} {text ln rest : Bytes} {s : Live σ FTPClientBase} {r s'}
    (h : (readLineTurn p l).Returns s r s') (hs : srv.alive s.env → ∃ got more, LineAhead srv size text ln rest l s got more)
    (ha : srv.alive s'.env) :
    match r with
    | .next l' => ∃ got more, LineAhead srv size text ln rest l' s' got more
    | .exit (n, out) => n = text.length + 1 ∧ out.length = size ∧ out.take (text.length + 2) = text ++ [10, 0] ∧
      Ahead srv ln rest s' := by
  rw [readLineTurn, returns_obj_bind, Prog.returns_ite] at h
  rcases h with ⟨hpos, h⟩ | ⟨hzero, h⟩
  · cases htake : takeLine s.self l with
    | none => rw [htake] at h; exact absurd h Prog.returns_undefined
    | some t =>
      obtain ⟨c, l', done⟩ := t
      simp only [htake, returns_set_bind, Prog.returns_ite, Prog.returns_pure] at h
      have htaken (ha : srv.alive s.env) := (hs ha).elim fun _ hs => hs.elim fun _ hs => takeLine_ahead srv hs htake
      rcases h with ⟨hdone, rfl, rfl⟩ | ⟨hdone, h⟩
      · rcases htaken ha with ⟨-, hret, hout, hline, hs'⟩ | ⟨hf, _⟩
        · exact ⟨by rw [hret]; rfl, hout, hline, hs'⟩
        · exact absurd (hf ▸ hdone) (by decide)
      · obtain ⟨rfl, hline⟩ := fill_alive srv h ha fun ha => by
          rcases htaken ha with ⟨ht, _⟩ | ⟨-, hempty, hline⟩
          · exact absurd ht hdone
          · exact ⟨hempty, hline⟩
        exact hline
  · obtain ⟨rfl, hline⟩ := fill_alive srv h ha fun ha => ⟨Nat.eq_zero_of_not_pos hzero, hs ha⟩
    exact hline

/-- **`readLine` moves one line** into the caller's buffer, its CRLF made LF,
however the bytes are cut. -/
theorem readLine_line {size : Nat} {out text ln rest : Bytes} {s : Live σ FTPClientBase} {n : Int} {out' s'}
    (htext : 10 ∉ text) (hfits : text.length + 2 < size) (hout : out.length = size)
    (h : (readLine p out size).Returns s (n, out') s') (hs : srv.alive s.env → Ahead srv ln (text ++ 13 :: 10 :: rest) s)
    (ha : srv.alive s'.env) :
    n = text.length + 1 ∧ out'.length = size ∧ out'.take (text.length + 2) = text ++ [10, 0] ∧ Ahead srv ln rest s' := by
  rw [readLine, returns_obj_bind, Prog.returns_ite] at h
  rcases h with ⟨hdir, h⟩ | ⟨_, h⟩
  · obtain ⟨-, rfl⟩ := Prog.returns_pure.mp h
    rw [(hs ha).reader.dir] at hdir
    exact absurd hdir (by decide)
  rw [if_neg (by omega)] at h
  refine Prog.Returns.loop_inv
    (fun l t => srv.alive t.env → ∃ got more, LineAhead srv size text ln rest l t got more)
    (fun r t => srv.alive t.env → r.1 = (text.length : Int) + 1 ∧ r.2.length = size ∧
      r.2.take (text.length + 2) = text ++ [10, 0] ∧ Ahead srv ln rest t) ?_ h ?_ ha
  · intro l t r t' hI ht
    have hturn := readLineTurn_alive srv ht hI
    cases r with
    | next l' => exact hturn
    | exit x => exact hturn
  · intro ha
    have hs := hs ha
    refine ⟨[], text ++ [13], htext, hfits, ⟨hout, rfl, rfl, rfl, fun h => absurd rfl h, List.not_mem_nil⟩, rfl, rfl,
      hs.socketFd, hs.reader, hs.line, ?_⟩
    rw [hs.stream, List.append_assoc]
    rfl

/-! ## What reading leaves alone -/

/-- The calls that read a connection keep `G`. -/
structure Heard (p : Platform σ) (G : Prog.Guarantee σ) : Prop where
  setsockopt : ∀ fd o e, G.rel e (p.lwip.setsockopt fd o e).2
  select : ∀ fd e, G.rel e (p.lwip.select fd e).2
  recv : ∀ fd n e, G.rel e (p.lwip.recv fd n e).2

section Outside

variable {G : Prog.Guarantee σ} (hG : Heard p G)

include hG

theorem tcp_readBuf_outside {n : Nat} : (TCPClient.readBuf p.lwip n).Guarantees (outside G TCPClient) := by
  intro s r s' h
  rcases TCPClient.readBuf_returns.mp h with ⟨_, _, rfl⟩ | ⟨_, _, _, rfl⟩ | ⟨_, _, _, rfl⟩
  · exact G.refl _
  · exact G.trans (G.trans (hG.select _ _) (hG.setsockopt _ _ _)) (hG.recv _ _ _)
  · exact hG.select _ _

theorem readLine_outside {out : Bytes} {max : Nat} : (readLine p out max).Guarantees (outside G FTPClientBase) := by
  have read {n : Nat} : (tcp (TCPClient.readBuf p.lwip n)).Guarantees (outside G FTPClientBase) :=
    Prog.Guarantees.zoom (tcp_readBuf_outside hG) fun _ _ => id
  have refill (l : LineState) : (refill p l).Guarantees (outside G FTPClientBase) := by
    refine .bind guarantees_obj fun c => .bind read fun x => .ite .pure ?_
    refine .bind guarantees_obj fun c => ?_
    split
    · exact .undefined
    · exact .bind set_outside fun _ => .pure
  have fill (l : LineState) : (fill p l).Guarantees (outside G FTPClientBase) := by
    refine .ite ?_ (.bind guarantees_obj fun c => .bind guarantees_obj fun c => .ite ?_ (.ite .pure (refill l)))
    · split
      · exact .undefined
      · exact .pure
    · exact .bind set_outside fun _ => .ite .pure (refill l)
  have turn (l : LineState) : (readLineTurn p l).Guarantees (outside G FTPClientBase) := by
    refine .bind guarantees_obj fun c => .ite ?_ (fill l)
    split
    · exact .undefined
    · exact .bind set_outside fun _ => .ite .pure (fill _)
  exact .bind guarantees_obj fun c => .ite .pure (.ite .pure (.loop turn _))

theorem readLineResponse_outside : (readLineResponse p).Guarantees (outside G FTPClientBase) :=
  .bind guarantees_obj fun _ => .bind (readLine_outside hG) fun _ => .bind set_outside fun _ => .pure

theorem readRest_outside {code : Bytes} : (readRest p code).Guarantees (outside G FTPClientBase) :=
  .loop (fun _ => .bind (readLineResponse_outside hG) fun _ => .ite .pure (.bind guarantees_obj fun _ =>
    .ite .pure .pure)) _

theorem readResp_outside {c : UInt8} : (readResp p c).Guarantees (outside G FTPClientBase) :=
  .bind (readLineResponse_outside hG) fun _ => .ite .pure (.bind guarantees_obj fun _ => .ite
    (.bind guarantees_obj fun _ => .bind (readRest_outside hG) fun _ => .ite .pure (.bind guarantees_obj fun _ => .pure))
    (.bind guarantees_obj fun _ => .pure))

end Outside

/-! ## A connection that ended stays ended -/

/-- The control connection is alive afterwards only if it was before. -/
def life : Prog.Guarantee σ where
  rel e e' := srv.alive e' → srv.alive e
  refl _ := id
  trans h h' := h ∘ h'

abbrev lasting (O : Type) : Prog.Guarantee (Live σ O) := outside (life srv) O

theorem heard_life : Heard p (life srv) where
  setsockopt _ _ _ ha := (srv.setsockopt _ _ _ ha).1
  select _ _ ha := (srv.select _ _ ha).1
  recv fd' n e := by
    by_cases hfd : fd' = fd
    · subst hfd
      exact fun ha => (srv.recv n e ha).1
    · exact fun ha => (srv.recvData fd' n e hfd ha).1

theorem tcp_write_lasting {bs : Bytes} : (TCPClient.write p.lwip bs).Guarantees (lasting srv TCPClient) := by
  intro s r s' h ha
  rcases TCPClient.write_returns.mp h with ⟨_, _, rfl⟩ | ⟨_, _, rfl⟩
  · exact ha
  · refine (srv.setsockopt s.self.socketFd (.sndTimeo s.self.soTimeout.1 s.self.soTimeout.2) s.env ?_).1
    by_cases hsock : s.self.socketFd = fd
    · simp only [hsock, TCPClient.atWrite] at ha ⊢
      exact srv.write _ _ ha
    · exact (srv.writeData _ bs _ hsock ha).1

theorem readResp_lasting {c : UInt8} : (readResp p c).Guarantees (lasting srv FTPClientBase) :=
  readResp_outside (heard_life srv)

theorem printf_lasting {text : Bytes} : (printf p text).Guarantees (lasting srv FTPClientBase) :=
  .bind (Prog.Guarantees.zoom (tcp_write_lasting srv) fun _ _ => id) fun _ => .pure

/-! ## One reply -/

theorem readLineResponse_line {text ln rest : Bytes} {s : Live σ FTPClientBase} {n : Int} {s'} (htext : 10 ∉ text)
    (hfits : text.length + 2 < ftplibResponseBufsiz) (h : (readLineResponse p).Returns s n s')
    (hs : Ahead srv ln (text ++ 13 :: 10 :: rest) s) (ha : srv.alive s'.env) :
    n ≠ -1 ∧ s'.self.response.take (text.length + 2) = text ++ [10, 0] ∧ Ahead srv ln rest s' := by
  rw [readLineResponse, returns_obj_bind] at h
  obtain ⟨⟨r, out⟩, t, hr, h⟩ := Prog.returns_bind.mp h
  rw [returns_set_bind, Prog.returns_pure] at h
  obtain ⟨rfl, rfl⟩ := h
  obtain ⟨rfl, hlen, hout, ht⟩ := readLine_line srv htext hfits hs.reader.response hr (fun _ => hs) ha
  have hok := ht.reader
  exact ⟨by omega, hout, ht.socketFd, ⟨hok.buf, hlen, hok.cput, hok.bound, hok.dir⟩, ht.line, ht.stream⟩

section Codes

variable {d₁ d₂ d₃ : UInt8} {a t : Bytes}

theorem ne_zero_of_isDigit {d : UInt8} (h : isDigit 10 d) : d ≠ 0 ∧ d ≠ 10 ∧ d ≠ 32 := by
  refine ⟨?_, ?_, ?_⟩ <;>
  · rintro rfl
    exact absurd h (by decide)

variable (hd : isDigit 10 d₁ ∧ isDigit 10 d₂ ∧ isDigit 10 d₃)

include hd

/-- A line in `response` starts with a code and a space when the text does. -/
theorem code_prefix_iff (ha : a.take (t.length + 2) = t ++ [10, 0]) :
    [d₁, d₂, d₃, 32] <+: a ↔ [d₁, d₂, d₃, 32] <+: t := by
  rw [← List.take_append_drop (t.length + 2) a, ha]
  generalize a.drop (t.length + 2) = tail
  have h₁ := ne_zero_of_isDigit hd.1
  have h₂ := ne_zero_of_isDigit hd.2.1
  have h₃ := ne_zero_of_isDigit hd.2.2
  match t with
  | [] => simp [h₁]
  | [_] => simp [h₂]
  | [_, _] => simp [h₃]
  | [_, _, _] => simp
  | _ :: _ :: _ :: _ :: _ => simp

theorem strncmpEq_code : strncmpEq 4 a [d₁, d₂, d₃, 32] = true ↔ [d₁, d₂, d₃, 32] <+: a := by
  have h₁ := ne_zero_of_isDigit hd.1
  have h₂ := ne_zero_of_isDigit hd.2.1
  have h₃ := ne_zero_of_isDigit hd.2.2
  match a with
  | [] => simp [strncmpEq]
  | [x] => simp [strncmpEq]; grind
  | [x, y] => simp [strncmpEq]; grind
  | [x, y, z] => simp [strncmpEq]; grind
  | x :: y :: z :: w :: _ => simp [strncmpEq]; grind

theorem strncpy_code (ha : [d₁, d₂, d₃] <+: a) : strncpy a 3 ++ [32] = [d₁, d₂, d₃, 32] := by
  obtain ⟨tail, rfl⟩ := ha
  simp [strncpy, ne_zero_of_isDigit hd.1, ne_zero_of_isDigit hd.2.1, ne_zero_of_isDigit hd.2.2]

end Codes

/-- A line that fits, as `readLineResponse` wants it. -/
def FitLine (t : Bytes) : Prop := 10 ∉ t ∧ t.length + 2 < ftplibResponseBufsiz

theorem renderLines_cons (t : Bytes) (ts : List Bytes) (rest : Bytes) :
    ((t :: ts).map Reply.renderLine).flatten ++ rest = t ++ 13 :: 10 :: ((ts.map Reply.renderLine).flatten ++ rest) := by
  simp [Reply.renderLine]

/-- The lines after the first of a reply, up to its last. -/
theorem readRest_lines {d₁ d₂ d₃ : UInt8} {last ln rest : Bytes} {ts : List Bytes} {s : Live σ FTPClientBase} {b : Bool}
    {s'} (hd : isDigit 10 d₁ ∧ isDigit 10 d₂ ∧ isDigit 10 d₃) (hlast : [d₁, d₂, d₃, 32] <+: last)
    (hinner : ∀ t ∈ ts, ¬ [d₁, d₂, d₃, 32] <+: t) (hlines : ∀ t ∈ ts ++ [last], FitLine t)
    (h : (readRest p [d₁, d₂, d₃, 32]).Returns s b s')
    (hs : Ahead srv ln (((ts ++ [last]).map Reply.renderLine).flatten ++ rest) s) (ha : srv.alive s'.env) :
    b = true ∧ s'.self.response.take (last.length + 2) = last ++ [10, 0] ∧ Ahead srv ln rest s' := by
  refine Prog.Returns.loop_inv
    (fun _ t => srv.alive t.env → ∃ ts : List Bytes, (∀ t ∈ ts, ¬ [d₁, d₂, d₃, 32] <+: t) ∧
      (∀ t ∈ ts ++ [last], FitLine t) ∧ Ahead srv ln (((ts ++ [last]).map Reply.renderLine).flatten ++ rest) t)
    (fun b t => srv.alive t.env → b = true ∧ t.self.response.take (last.length + 2) = last ++ [10, 0] ∧
      Ahead srv ln rest t)
    ?_ h (fun _ => ⟨ts, hinner, hlines, hs⟩) ha
  intro _ u r v hI ht
  obtain ⟨n, w, hn, ht⟩ := Prog.returns_bind.mp ht
  -- While the connection lives the line read is an inner one or the last.
  have key : srv.alive w.env → n ≠ -1 ∧
      ((strncmpEq 4 w.self.response [d₁, d₂, d₃, 32] = true ∧
          w.self.response.take (last.length + 2) = last ++ [10, 0] ∧ Ahead srv ln rest w) ∨
        (¬ strncmpEq 4 w.self.response [d₁, d₂, d₃, 32] = true ∧ ∃ ts : List Bytes,
          (∀ t ∈ ts, ¬ [d₁, d₂, d₃, 32] <+: t) ∧ (∀ t ∈ ts ++ [last], FitLine t) ∧
          Ahead srv ln (((ts ++ [last]).map Reply.renderLine).flatten ++ rest) w)) := by
    intro ha
    obtain ⟨ts, hinner, hlines, hu⟩ := hI (readLineResponse_outside (heard_life srv) _ _ _ hn ha)
    cases ts with
    | nil =>
      rw [List.nil_append, renderLines_cons] at hu
      obtain ⟨hno, hfit⟩ := hlines last (by simp)
      obtain ⟨hn, hresp, hw⟩ := readLineResponse_line srv hno hfit hn hu ha
      exact ⟨hn, .inl ⟨(strncmpEq_code hd).mpr ((code_prefix_iff hd hresp).mpr hlast), hresp, by simpa using hw⟩⟩
    | cons t ts =>
      rw [List.cons_append, renderLines_cons] at hu
      obtain ⟨hno, hfit⟩ := hlines t (by simp)
      obtain ⟨hn, hresp, hw⟩ := readLineResponse_line srv hno hfit hn hu ha
      refine ⟨hn, .inr ⟨fun hcmp => ?_, ts, fun t ht => hinner t (by simp [ht]), fun t ht => hlines t ?_, hw⟩⟩
      · exact hinner t (by simp) ((code_prefix_iff hd hresp).mp ((strncmpEq_code hd).mp hcmp))
      · rw [List.cons_append]
        exact List.mem_cons_of_mem _ ht
  simp only [returns_obj_bind, Prog.returns_ite, Prog.returns_pure] at ht
  rcases ht with ⟨hneg, rfl, rfl⟩ | ⟨_, ⟨hcmp, rfl, rfl⟩ | ⟨hcmp, rfl, rfl⟩⟩
  · exact fun ha => absurd hneg (key ha).1
  · intro ha
    rcases (key ha).2 with ⟨_, hresp, hw⟩ | ⟨hne, _⟩
    · exact ⟨rfl, hresp, hw⟩
    · exact absurd hcmp hne
  · intro ha
    rcases (key ha).2 with ⟨heq, _⟩ | ⟨_, h⟩
    · exact absurd heq hcmp
    · exact h

theorem fitLine_of_fits {r : Reply} (h : r.Fits) : ∀ t ∈ r.lines, FitLine t := by
  have hcode : ∀ {c : UInt8} {t : Bytes}, c ≠ 10 → 10 ∉ t → 10 ∉ r.code ++ c :: t := by
    intro c t hc ht hmem
    have h₁ := (ne_zero_of_isDigit r.digits.1).2.1
    have h₂ := (ne_zero_of_isDigit r.digits.2.1).2.1
    have h₃ := (ne_zero_of_isDigit r.digits.2.2).2.1
    simp only [Reply.code, List.cons_append, List.nil_append, List.mem_cons] at hmem
    grind
  intro line hline
  have hfit := h line hline
  refine ⟨?_, by simpa [Reply.renderLine] using hfit⟩
  have hlast : 10 ∉ r.last := hcode (by decide) (r.noLF r.text (by simp))
  unfold Reply.lines at hline
  split at hline
  · rw [List.mem_singleton.mp hline]
    exact hlast
  · rename_i t ts hmore
    simp only [List.cons_append, List.mem_cons, List.mem_append, List.not_mem_nil, or_false] at hline
    rcases hline with rfl | hline | rfl
    · exact hcode (by decide) (r.noLF t (by simp [hmore]))
    · exact r.noLF line (by simp [hmore, hline])
    · exact hlast

/-- What `readResp` looks at in the line it has read. -/
theorem response_start {a u : Bytes} {d₁ d₂ d₃ x : UInt8}
    (h : a.take (([d₁, d₂, d₃] ++ x :: u).length + 2) = [d₁, d₂, d₃] ++ x :: u ++ [10, 0]) :
    a.getD 0 0 = d₁ ∧ a.getD 3 0 = x ∧ [d₁, d₂, d₃] <+: a := by
  rw [← List.take_append_drop (([d₁, d₂, d₃] ++ x :: u).length + 2) a, h]
  simp

/-- What `readResp` returns once it has a last line. -/
def answerOf (c : UInt8) (s : Live σ FTPClientBase) : Int := if s.self.response.getD 0 0 = c then 1 else 0

theorem readResp_returns {c : UInt8} {s : Live σ FTPClientBase} {v : Int} {s'} (h : (readResp p c).Returns s v s') :
    ∃ n t, (readLineResponse p).Returns s n t ∧
      ((n = -1 ∧ s' = t) ∨ (n ≠ -1 ∧ t.self.response.getD 3 0 ≠ 45 ∧ v = answerOf c t ∧ s' = t) ∨
        (n ≠ -1 ∧ t.self.response.getD 3 0 = 45 ∧
          ∃ b, (readRest p (strncpy t.self.response 3 ++ [32])).Returns t b s' ∧ (b = true → v = answerOf c s'))) := by
  obtain ⟨n, t, hread, h⟩ := Prog.returns_bind.mp h
  refine ⟨n, t, hread, ?_⟩
  simp only [returns_obj_bind, Prog.returns_ite, Prog.returns_pure] at h
  rcases h with ⟨hn, _, rfl⟩ | ⟨hn, ⟨hdash, h⟩ | ⟨hdash, rfl, rfl⟩⟩
  · exact .inl ⟨hn, rfl⟩
  · obtain ⟨b, u, hb, h⟩ := Prog.returns_bind.mp h
    simp only [returns_obj_bind, Prog.returns_ite, Prog.returns_pure] at h
    rcases h with ⟨hf, _, rfl⟩ | ⟨_, rfl, rfl⟩
    · exact .inr (.inr ⟨hn, hdash, b, hb, fun ht => absurd ht hf⟩)
    · exact .inr (.inr ⟨hn, hdash, b, hb, fun _ => rfl⟩)
  · exact .inr (.inl ⟨hn, hdash, rfl, rfl⟩)

/-- **`readResp` consumes one reply**, and tells whether it starts with `c`. -/
theorem readResp_reply {r : Reply} {c : UInt8} {ln rest : Bytes} {s : Live σ FTPClientBase} {v : Int} {s'}
    (hfits : r.Fits) (h : (readResp p c).Returns s v s') (hs : Ahead srv ln (r.render ++ rest) s)
    (ha : srv.alive s'.env) :
    v = (if r.d₁ = c then 1 else 0) ∧ s'.self.response.take (r.last.length + 2) = r.last ++ [10, 0] ∧
      Ahead srv ln rest s' := by
  have hfit := fitLine_of_fits hfits
  have hdone : ∀ {w : Live σ FTPClientBase}, w.self.response.take (r.last.length + 2) = r.last ++ [10, 0] →
      answerOf c w = if r.d₁ = c then 1 else 0 := by
    intro w hw
    rw [answerOf, (response_start hw).1]
  obtain ⟨n, t, hn, h⟩ := readResp_returns h
  have hat : srv.alive t.env := by
    rcases h with ⟨_, rfl⟩ | ⟨_, _, _, rfl⟩ | ⟨_, _, b, hb, _⟩
    · exact ha
    · exact ha
    · exact readRest_outside (heard_life srv) _ _ _ hb ha
  cases hmore : r.more with
  | nil =>
    have hlines : r.lines = [r.last] := by simp [Reply.lines, hmore]
    rw [Reply.render, hlines, renderLines_cons] at hs
    obtain ⟨hno, hfit⟩ := hfit r.last (by simp [hlines])
    obtain ⟨hn, hresp, ht⟩ := readLineResponse_line srv hno hfit hn hs hat
    rcases h with ⟨hneg, _⟩ | ⟨_, _, rfl, rfl⟩ | ⟨_, hdash, _⟩
    · exact absurd hneg hn
    · exact ⟨hdone hresp, hresp, by simpa using ht⟩
    · rw [(response_start hresp).2.1] at hdash
      exact absurd hdash (by decide)
  | cons first ts =>
    have hlines : r.lines = (r.code ++ 45 :: first) :: (ts ++ [r.last]) := by simp [Reply.lines, hmore]
    rw [Reply.render, hlines, renderLines_cons] at hs
    rw [hlines] at hfit
    obtain ⟨hno, hfit₁⟩ := hfit (r.code ++ 45 :: first) (by simp)
    obtain ⟨hn, hresp, ht⟩ := readLineResponse_line srv hno hfit₁ hn hs hat
    obtain ⟨_, hdash, hcode⟩ := response_start hresp
    rcases h with ⟨hneg, _⟩ | ⟨_, hndash, _⟩ | ⟨_, _, b, hb, hv⟩
    · exact absurd hneg hn
    · exact absurd hdash hndash
    · rw [strncpy_code r.digits hcode] at hb
      obtain ⟨rfl, hlast, hs'⟩ := readRest_lines srv r.digits ⟨r.text, by simp [Reply.last, Reply.code]⟩
        (fun t ht => r.inner t (by simp [hmore, ht])) (fun t ht => hfit t (List.mem_cons_of_mem _ ht)) hb ht ha
      exact ⟨(hv rfl).trans (hdone hlast), hlast, hs'⟩

end FTPClientBase

end FEmbed
