/-
The result of a transfer, and what the server made of it.

The commands that reach the server are put on record with its answers, beside
the state of any platform (`ControlServer.attended`), so that a reply is what
the server gave and not what the client took it for. `Complete` is what a
result of 1 promises: a data connection, the answer 1xx and 2xx to the
command, both replies received, and the bytes copied up to an orderly end. An
accepted transfer leaves as many replies owed as there were
(`transfer_owed`), so a client in lockstep hears its own two, and one that was
behind does not. `xfer` keeps the promise when it notices a failure that stops
the copy, or there is none of those that it does not look at, and else not
(`xfer_truthful_iff`).
-/
import FEmbedLwip.FTPTransfer
import FEmbedLwip.Records

namespace FEmbed

open Live

variable {σ C : Type} {p : Platform σ} {fs : FTPClientDataCallback σ} {fd : Int}

/-! ## The record of the server -/

/-- A command that the server got, and the replies it gave. -/
structure Asked where
  cmd : Bytes
  answer : List Reply
  deriving DecidableEq

def FTPClientDataCallback.beside (fs : FTPClientDataCallback σ) : FTPClientDataCallback (σ × List C) where
  openFile f m := unnoted (fs.openFile f m)
  read n := unrecorded (fs.read n)
  write bs := unrecorded (fs.write bs)
  close := unnoted fs.close

namespace ControlServer

variable (srv : ControlServer p fs fd)

/-- The command whose line a write of `bs` completes. -/
def completed (bs : Bytes) (e : σ) : List Asked :=
  let line := srv.line e ++ bs
  let cmd := line.dropLast.dropLast
  if 10 ∉ cmd ∧ line = cmd ++ [13, 10] then [⟨cmd, srv.answer cmd e⟩] else []

theorem completed_more {bs : Bytes} {e : σ} (h : 10 ∉ srv.line e ++ bs) : srv.completed bs e = [] := by
  refine if_neg fun hline => h ?_
  rw [hline.2]
  simp

theorem completed_line {cmd bs : Bytes} {e : σ} (hno : 10 ∉ cmd) (h : srv.line e ++ bs = cmd ++ [13, 10]) :
    srv.completed bs e = [⟨cmd, srv.answer cmd e⟩] := by
  have hdrop : (srv.line e ++ bs).dropLast.dropLast = cmd := by rw [h, dropLast_crlf]
  unfold completed
  simp only [hdrop]
  exact if_pos ⟨hno, h⟩

/-- A line with a LF inside is no command. -/
theorem completed_broken {bs : Bytes} {e : σ} (h : 10 ∈ (srv.line e ++ bs).dropLast.dropLast) : srv.completed bs e = [] :=
  if_neg fun hline => hline.1 h

/-- The platform, with what the server gets and answers on record. -/
def attended : Platform (σ × List Asked) :=
  { p.beside with
    lwip :=
      { p.lwip.beside with
        write := fun fd' bs s => ((p.lwip.write fd' bs s.1).1, (p.lwip.write fd' bs s.1).2,
          s.2 ++ if fd' = fd then srv.completed bs s.1 else []) } }

theorem attended_write (bs : Bytes) (s : σ × List Asked) :
    (srv.attended.lwip.write fd bs s).2 = ((p.lwip.write fd bs s.1).2, s.2 ++ srv.completed bs s.1) :=
  Prod.ext rfl (congrArg (s.2 ++ ·) (if_pos rfl))

/-- The server, there: what it answered so far fits into `response`. -/
def attending : ControlServer srv.attended fs.beside fd where
  alive s := srv.alive s.1 ∧ ∀ x ∈ s.2, ∀ r ∈ x.answer, r.Fits
  line s := srv.line s.1
  unread s := srv.unread s.1
  answer cmd s := srv.answer cmd s.1
  fd_nonneg := srv.fd_nonneg
  answers cmd s := srv.answers cmd s.1
  recv n s h :=
    have ⟨ha, hrest⟩ := srv.recv n s.1 h.1
    ⟨⟨ha, h.2⟩, hrest⟩
  write bs s h := ⟨srv.write bs s.1 h.1, fun x hx => h.2 x (List.mem_append_left _ hx)⟩
  writeMore bs s hno h := srv.writeMore bs s.1 hno h.1
  writeLine cmd bs s hno hcmd h := srv.writeLine cmd bs s.1 hno hcmd h.1
  selected s h := srv.selected s.1 h.1
  fresh s h := srv.fresh s.1 h.1
  socket s h := have ⟨ha, hsame⟩ := srv.socket s.1 h.1; ⟨⟨ha, h.2⟩, hsame⟩
  setsockopt fd' o s h := have ⟨ha, hsame⟩ := srv.setsockopt fd' o s.1 h.1; ⟨⟨ha, h.2⟩, hsame⟩
  connect fd' a s h := have ⟨ha, hsame⟩ := srv.connect fd' a s.1 h.1; ⟨⟨ha, h.2⟩, hsame⟩
  shutdown fd' s h := have ⟨ha, hsame⟩ := srv.shutdown fd' s.1 h.1; ⟨⟨ha, h.2⟩, hsame⟩
  close fd' s h := have ⟨ha, hsame⟩ := srv.close fd' s.1 h.1; ⟨⟨ha, h.2⟩, hsame⟩
  select fd' s h := have ⟨ha, hsame⟩ := srv.select fd' s.1 h.1; ⟨⟨ha, h.2⟩, hsame⟩
  recvData fd' n s hne h := have ⟨ha, hsame⟩ := srv.recvData fd' n s.1 hne h.1; ⟨⟨ha, h.2⟩, hsame⟩
  writeData fd' bs s hne h :=
    have ⟨ha, hsame⟩ := srv.writeData fd' bs s.1 hne h.1
    ⟨⟨ha, fun x hx => h.2 x (List.mem_append_left _ hx)⟩, hsame⟩
  malloc n s h := have ⟨ha, hsame⟩ := srv.malloc n s.1 h.1; ⟨⟨ha, h.2⟩, hsame⟩
  openFile f m s h := have ⟨ha, hsame⟩ := srv.openFile f m s.1 h.1; ⟨⟨ha, h.2⟩, hsame⟩
  readFile n s h := have ⟨ha, hsame⟩ := srv.readFile n s.1 h.1; ⟨⟨ha, h.2⟩, hsame⟩
  writeFile bs s h := have ⟨ha, hsame⟩ := srv.writeFile bs s.1 h.1; ⟨⟨ha, h.2⟩, hsame⟩
  closeFile s h := have ⟨ha, hsame⟩ := srv.closeFile s.1 h.1; ⟨⟨ha, h.2⟩, hsame⟩

/-- The record stays as it is. -/
def unasked : Prog.Guarantee (σ × List Asked) := .same Prod.snd

theorem heard_unasked : FTPClientBase.Heard srv.attended unasked where
  setsockopt _ _ _ := rfl
  select _ _ := rfl
  recv _ _ _ := rfl

theorem elsewhere_unasked : FTPClient.Elsewhere srv.attended (fs.beside (C := Asked)) fd unasked where
  socket _ := rfl
  setsockopt _ _ _ := rfl
  connect _ _ _ := rfl
  shutdown _ _ := rfl
  close _ _ := rfl
  select _ _ := rfl
  recv _ _ _ _ := rfl
  write fd' bs s hne := by
    show s.2 ++ (if fd' = fd then srv.completed bs s.1 else []) = s.2
    rw [if_neg hne, List.append_nil]
  readFile _ _ := rfl
  writeFile _ _ := rfl

end ControlServer

/-! ## Commands on record -/

namespace FTPClient

open FTPClientBase (Ahead lasting)

variable {srv : ControlServer p fs fd} {rs : List Reply} {s s' : Live (σ × List Asked) FTPClient}

/-- The outside when a command is written. -/
abbrev writing (srv : ControlServer p fs fd) (s : Live (σ × List Asked) FTPClient) : σ × List Asked :=
  TCPClient.atWrite srv.attended.lwip ⟨s.self.toTCPClient, s.env⟩

/-- A write on the control connection puts on record what it completes. -/
theorem printf_asked {text ln stream : Bytes} {u} (h : (ctrl (FTPClientBase.printf srv.attended text)).Returns s u s')
    (hs : Ahead srv.attending ln stream (control s)) (ha : srv.attending.alive s'.env) :
    s'.env.2 = s.env.2 ++ srv.completed text (writing srv s).1 ∧ srv.line (writing srv s).1 = ln := by
  have hs' := printf_returns srv.attending h hs
  subst hs'
  obtain ⟨_, hline, _⟩ := atWrite_same srv.attending ⟨s.self.toTCPClient, s.env⟩ (srv.attending.write _ _ ha)
  exact ⟨congrArg Prod.snd (srv.attended_write text _), hline.trans hs.line⟩

/-- A command is answered on record, and the first reply that was owed is read. -/
theorem exchange_asked {text ln cmd : Bytes} {c : UInt8} {v : Int} (hno : 10 ∉ cmd) (hcmd : ln ++ text = cmd ++ [13, 10])
    (h : (exchange srv.attended text c).Returns s v s') (hrs : ∀ r ∈ rs, r.Fits)
    (hs : Ahead srv.attending ln (renderAll rs) (control s)) (ha : srv.attending.alive s'.env) :
    ∃ answer r rest, Answers cmd answer ∧ s'.env.2 = s.env.2 ++ [⟨cmd, answer⟩] ∧ rs ++ answer = r :: rest ∧
      (∀ r ∈ rest, r.Fits) ∧ v = (if r.d₁ = c then 1 else 0) ∧ Owes srv.attending rest s' := by
  obtain ⟨_, t, ht, h⟩ := Prog.returns_bind.mp h
  have hat := ctrl_lasting srv.attending (FTPClientBase.readResp_lasting srv.attending) _ _ _ h ha
  obtain ⟨hlog, hline⟩ := printf_asked ht hs hat
  rw [srv.completed_line hno (by rw [hline]; exact hcmd)] at hlog
  obtain ⟨-, ht⟩ := printf_line srv.attending ht hs hat hno hcmd
  have hans := srv.answers cmd (writing srv s).1
  generalize hanswer : srv.answer cmd (writing srv s).1 = answer at hlog hans
  replace ht : Owes srv.attending (rs ++ answer) t := by
    rw [← hanswer, Owes, renderAll, List.map_append, List.flatten_append]
    exact ht
  have hfits : ∀ r ∈ rs ++ answer, r.Fits := by
    intro r hr
    rcases List.mem_append.mp hr with hr | hr
    · exact hrs r hr
    · exact hat.2 ⟨cmd, answer⟩ (by rw [hlog]; simp) r hr
  have hlog' : s'.env.2 = t.env.2 := by
    obtain ⟨w, hw, rfl⟩ := Prog.returns_zoom.mp h
    exact FTPClientBase.readResp_outside srv.heard_unasked _ _ _ hw
  cases hq : rs ++ answer with
  | nil => rcases hans with ⟨r, rfl, _⟩ | ⟨_, r, r', rfl, _⟩ <;> simp at hq
  | cons r rest =>
    rw [hq] at ht hfits
    obtain ⟨hv, howes, _⟩ := readResp_owed srv.attending (hfits r (by simp)) h ht ha
    exact ⟨answer, r, rest, hans, by rw [hlog', hlog], hq, fun r hr => hfits r (by simp [hr]), hv, howes⟩

/-- From `s` to `s'` commands that are no transfers were answered: `rs'` are
owed then, as many as before. -/
structure Plain (srv : ControlServer p fs fd) (rs rs' : List Reply) (s s' : Live (σ × List Asked) FTPClient) : Prop where
  asked : ∃ asked, s'.env.2 = s.env.2 ++ asked ∧ ∀ x ∈ asked, ¬ IsTransfer x.cmd
  length : rs'.length = rs.length
  fits : ∀ r ∈ rs', r.Fits
  owes : Owes srv.attending rs' s'

theorem Plain.refl (hrs : ∀ r ∈ rs, r.Fits) (hs : Owes srv.attending rs s) : Plain srv rs rs s s :=
  ⟨⟨[], (List.append_nil _).symm, fun _ hx => absurd hx List.not_mem_nil⟩, rfl, hrs, hs⟩

theorem Plain.trans {rs' rs'' : List Reply} {s'' : Live (σ × List Asked) FTPClient} (h : Plain srv rs rs' s s')
    (h' : Plain srv rs' rs'' s' s'') : Plain srv rs rs'' s s'' := by
  obtain ⟨asked, hlog, hno⟩ := h.asked
  obtain ⟨asked', hlog', hno'⟩ := h'.asked
  refine ⟨⟨asked ++ asked', by rw [hlog', hlog, List.append_assoc], fun x hx => ?_⟩, h'.length.trans h.length, h'.fits, h'.owes⟩
  rcases List.mem_append.mp hx with hx | hx
  · exact hno x hx
  · exact hno' x hx

theorem exchange_plainly {cmd : Bytes} {c : UInt8} {v : Int} (hno : 10 ∉ cmd) (hcmd : ¬ IsTransfer cmd)
    (h : (exchange srv.attended (cmd ++ [13, 10]) c).Returns s v s') (hrs : ∀ r ∈ rs, r.Fits)
    (hs : Owes srv.attending rs s) (ha : srv.attending.alive s'.env) : ∃ rs', Plain srv rs rs' s s' := by
  obtain ⟨answer, r, rest, hans, hlog, hq, hfits, -, howes⟩ :=
    exchange_asked hno (List.nil_append (cmd ++ [13, 10])) h hrs hs ha
  refine ⟨rest, ⟨⟨_, hlog, by simpa using hcmd⟩, ?_, hfits, howes⟩⟩
  rcases hans with ⟨_, rfl, _⟩ | ⟨htr, _⟩
  · have := congrArg List.length hq
    simp only [List.length_append, List.length_cons, List.length_nil] at this
    omega
  · exact absurd htr hcmd

theorem openDataConn_plainly {dir : FTPDir} {v : Int} (h : (openDataConn srv.attended dir).Returns s v s')
    (hrs : ∀ r ∈ rs, r.Fits) (hs : Owes srv.attending rs s) (ha : srv.attending.alive s'.env) :
    (∃ rs', Plain srv rs rs' s s') ∧ (v ≠ -1 → s'.self.nData.socketFd ≠ fd) := by
  have asked {v t} (h : (exchange srv.attended (bytes "PASV" ++ [13, 10]) 50).Returns s v t) (hat : srv.attending.alive t.env) :
      ∃ rs', Plain srv rs rs' s t :=
    exchange_plainly (by decide) (not_transfer rfl (by decide)) h hrs hs hat
  cases openDataConn_opening h with
  | busy => exact ⟨⟨rs, .refl hrs hs⟩, fun hne => absurd rfl hne⟩
  | refused hpasv => exact ⟨asked hpasv ha, fun hne => absurd rfl hne⟩
  | dialed hpasv hdial =>
    obtain ⟨hb, _, hsame⟩ := data_keeps (connectV4_elsewhere (elsewhere_same srv.attending)) hdial
    obtain ⟨_, _, hunasked⟩ := data_keeps (connectV4_elsewhere srv.elsewhere_unasked) hdial
    obtain ⟨rs', ⟨asked, hlog, hno⟩, hlen, hfits, howes⟩ := asked hpasv (hsame ha).1
    refine ⟨⟨rs', ⟨asked, Eq.trans hunasked hlog, hno⟩, hlen, hfits, Owes.same srv.attending howes hb hsame ha⟩, fun _ => ?_⟩
    obtain ⟨w, hw, rfl⟩ := Prog.returns_zoom.mp hdial
    exact connectV4_fresh srv.attending hw ha

/-- The transfer's command was answered on record, and the first reply that was
owed was taken for the answer. -/
structure Answered (srv : ControlServer p fs fd) (cmd : Bytes) (rs : List Reply) (s s' : Live (σ × List Asked) FTPClient)
    (answer rest : List Reply) (ok : Int) : Prop where
  asked : ∃ asked, s'.env.2 = s.env.2 ++ asked ++ [⟨cmd, answer⟩] ∧ ∀ x ∈ asked, ¬ IsTransfer x.cmd
  queue : ∃ queue r, queue.length = rs.length ∧ queue ++ answer = r :: rest ∧ ok = if r.d₁ = 49 then 1 else 0
  fits : ∀ r ∈ rest, r.Fits
  owes : Owes srv.attending rest s'

theorem transferCommand_asked {path : Bytes} {typ : FTPType} {t : Live (σ × List Asked) FTPClient} {u ok}
    (hu : (ctrl (FTPClientBase.printf srv.attended (verb typ))).Returns s u t)
    (h : (exchange srv.attended (path ++ [13, 10]) 49).Returns t ok s') (hrs : ∀ r ∈ rs, r.Fits)
    (hs : Owes srv.attending rs s) (ha : srv.attending.alive s'.env) :
    s'.env.2 = s.env.2 ∨ ∃ answer rest, Answered srv (verb typ ++ path) rs s s' answer rest ok := by
  have hat := exchange_lasting srv.attending _ _ _ h ha
  have hverb : 10 ∉ [] ++ verb typ := by cases typ <;> decide
  obtain ⟨hlog, hline⟩ := printf_asked hu hs hat
  rw [srv.completed_more (by rw [hline]; exact hverb), List.append_nil] at hlog
  obtain ⟨-, ht⟩ := printf_more srv.attending hu hs hat hverb
  rw [List.nil_append] at ht
  by_cases hpath : 10 ∈ path
  · -- A LF in the path cuts the command: the server gets no such line.
    obtain ⟨_, w, hw, h⟩ := Prog.returns_bind.mp h
    have haw := ctrl_lasting srv.attending (FTPClientBase.readResp_lasting srv.attending) _ _ _ h ha
    obtain ⟨hlog', hline'⟩ := printf_asked hw ht haw
    have hcut : 10 ∈ (verb typ ++ (path ++ [13, 10])).dropLast.dropLast := by
      rw [← List.append_assoc, dropLast_crlf]
      exact List.mem_append_right _ hpath
    rw [srv.completed_broken (by rw [hline']; exact hcut), List.append_nil] at hlog'
    obtain ⟨x, hx, rfl⟩ := Prog.returns_zoom.mp h
    exact .inl ((FTPClientBase.readResp_outside srv.heard_unasked _ _ _ hx).trans (hlog'.trans hlog))
  · have hno : 10 ∉ verb typ ++ path := not_mem_command hverb hpath
    obtain ⟨answer, r, rest, -, hlog', hq, hfits, hok, howes⟩ :=
      exchange_asked hno (List.append_assoc (verb typ) path [13, 10]).symm h hrs ht ha
    exact .inr ⟨answer, rest, ⟨[], by rw [hlog', hlog, List.append_nil], by simp⟩, ⟨rs, r, rfl, hq, hok⟩, hfits, howes⟩

theorem Plain.answered {rs' answer rest : List Reply} {cmd : Bytes} {t : Live (σ × List Asked) FTPClient} {ok : Int}
    (h : Plain srv rs rs' s t) (h' : Answered srv cmd rs' t s' answer rest ok) : Answered srv cmd rs s s' answer rest ok := by
  obtain ⟨asked, hlog, hno⟩ := h.asked
  obtain ⟨asked', hlog', hno'⟩ := h'.asked
  obtain ⟨queue, r, hlen, hq⟩ := h'.queue
  refine ⟨⟨asked ++ asked', by simp [hlog', hlog], fun x hx => ?_⟩, ⟨queue, r, hlen.trans h.length, hq⟩, h'.fits, h'.owes⟩
  rcases List.mem_append.mp hx with hx | hx
  · exact hno x hx
  · exact hno' x hx

theorem Answered.settled {cmd : Bytes} {answer rest : List Reply} {ok : Int} {y : Live (σ × List Asked) FTPClient}
    (h : Answered srv cmd rs s y answer rest ok) (hend : Settled srv.attended ok y s') (ha : srv.attending.alive s'.env) :
    Answered srv cmd rs s s' answer rest ok := by
  obtain ⟨hb, hsame⟩ := hend.keeps (elsewhere_same srv.attending)
  obtain ⟨_, hunasked⟩ := hend.keeps srv.elsewhere_unasked
  have hunasked : s'.env.2 = y.env.2 := hunasked
  exact ⟨by rw [hunasked]; exact h.asked, h.queue, h.fits, Owes.same srv.attending h.owes hb hsame ha⟩

/-- The constructor asks nothing but commands that are no transfers, or last the
transfer, whose answer it takes for what it then does. -/
theorem openTransfer_asked {path : Option Bytes} {typ : FTPType} {mode : FTPTransferMode} {u}
    (h : (openTransfer srv.attended path typ mode).Returns s u s') (hrs : ∀ r ∈ rs, r.Fits)
    (hs : Owes srv.attending rs s) (ha : srv.attending.alive s'.env) :
    s'.self.nData.socketFd ≠ fd ∧
      ((∃ asked, s'.env.2 = s.env.2 ++ asked ∧ ∀ x ∈ asked, ¬ IsTransfer x.cmd) ∨
        ∃ answer rest ok rc dataFd, Answered srv (verb typ ++ formatted path) rs s s' answer rest ok ∧
          s'.self.hist = s.self.hist ++ [.dataConn rc, .answered ok dataFd]) := by
  have hnone : (-1 : Int) ≠ fd := by have := srv.fd_nonneg; omega
  replace h := openTransfer_opening h
  generalize hs₀ : (⟨{ s.self with nData := {} }, s.env⟩ : Live (σ × List Asked) FTPClient) = s₀ at h
  have hlog₀ : s.env.2 = s₀.env.2 := by rw [← hs₀]
  have hhist₀ : s₀.self.hist = s.self.hist := by rw [← hs₀]
  have hdata₀ : s₀.self.nData.socketFd ≠ fd := by rw [← hs₀]; exact hnone
  replace hs : Owes srv.attending rs s₀ := by rw [← hs₀]; exact hs
  have typed {v t} (h : (exchange srv.attended (commandLine "TYPE " (some (modeChar mode))) 50).Returns s₀ v t)
      (hat : srv.attending.alive t.env) : ∃ rs', Plain srv rs rs' s t := by
    have hmode : 10 ∉ bytes "TYPE " ++ formatted (some (modeChar mode)) := by cases mode <;> decide
    obtain ⟨rs', hp⟩ := exchange_plainly hmode (not_transfer rfl (by decide)) h hrs hs hat
    exact ⟨rs', by rw [hlog₀]; exact hp.asked, hp.length, hp.fits, hp.owes⟩
  have opened {v v' t w} (htype : (exchange srv.attended (commandLine "TYPE " (some (modeChar mode))) 50).Returns s₀ v t)
      (hopen : (openDataConn srv.attended (if typ = .fileWrite then .write else .read)).Returns t v' w)
      (haw : srv.attending.alive w.env) : (∃ rs', Plain srv rs rs' s w) ∧ (v' ≠ -1 → w.self.nData.socketFd ≠ fd) := by
    obtain ⟨rs', hp⟩ := typed htype (openDataConn_lasting srv.attending _ _ _ hopen haw)
    obtain ⟨⟨rs'', hp'⟩, hfresh⟩ := openDataConn_plainly hopen hp.fits hp.owes haw
    exact ⟨⟨rs'', hp.trans hp'⟩, hfresh⟩
  cases h with
  | unnamed h =>
    rw [setResponse, returns_obj_bind] at h
    split at h
    · exact absurd h Prog.returns_undefined
    · obtain rfl := returns_set.mp h
      exact ⟨hdata₀, .inl ⟨[], by simp [hlog₀], by simp⟩⟩
  | untyped htype =>
    obtain ⟨_, hp⟩ := typed htype ha
    exact ⟨by rw [(exchange_keeps htype).1]; exact hdata₀, .inl hp.asked⟩
  | unconnected htype hopen =>
    obtain ⟨⟨_, hp⟩, _⟩ := opened htype hopen ha
    rcases openDataConn_records hopen with ⟨_, hkept, _⟩ | ⟨hone, _⟩
    · exact ⟨by rw [hkept, (exchange_keeps htype).1]; exact hdata₀, .inl hp.asked⟩
    · exact absurd hone (by decide)
  | @answered _ t v' w x ok y htype hopen hne hverb hpath hend =>
    obtain ⟨_, rc, hhist, _⟩ := (openDataConn_records hopen).resolve_left fun h => hne h.1
    obtain ⟨hdata', hhist'⟩ := exchange_keeps hpath
    have hx : x.self.nData = w.self.nData ∧ x.self.hist = w.self.hist := by
      obtain ⟨_, _, rfl⟩ := Prog.returns_zoom.mp hverb
      exact ⟨rfl, rfl⟩
    have hay := ((hend.keeps (elsewhere_same srv.attending)).2 ha).1
    have haw := ctrl_lasting srv.attending (FTPClientBase.printf_lasting srv.attending) _ _ _ hverb
      (exchange_lasting srv.attending _ _ _ hpath hay)
    obtain ⟨⟨rs', hp⟩, hfresh⟩ := opened htype hopen haw
    have hfd : s'.self.nData.socketFd ≠ fd := by
      rcases hend.socket with ⟨_, hclosed⟩ | ⟨_, hkept⟩
      · rw [hclosed]; exact hnone
      · rw [hkept, hdata', hx.1]; exact hfresh hne
    refine ⟨hfd, ?_⟩
    rcases transferCommand_asked hverb hpath hp.fits hp.owes hay with hsame | ⟨answer, rest, hans⟩
    · have hunasked : s'.env.2 = y.env.2 := (hend.keeps srv.elsewhere_unasked).2
      exact .inl (by rw [hunasked, hsame]; exact hp.asked)
    · refine .inr ⟨answer, rest, ok, rc, y.self.nData.socketFd, (hp.answered hans).settled hend ha, ?_⟩
      rw [hend.recorded, hhist', hx.2, hhist, (exchange_keeps htype).2, hhist₀, List.append_assoc]
      rfl

theorem closeTransfer_unasked {u} (h : (closeTransfer srv.attended (fs.beside (C := Asked))).Returns s u s') :
    s'.env.2 = s.env.2 := by
  have kept : (closeTransfer srv.attended (fs.beside (C := Asked))).Guarantees (outside ControlServer.unasked FTPClient) := by
    have gone {x : Prog (Live (σ × List Asked) TCPClient) Unit} (hx : x.Guarantees (outside ControlServer.unasked TCPClient)) :
        (data x).Guarantees (outside ControlServer.unasked FTPClient) := Prog.Guarantees.zoom hx fun _ _ => id
    have read : (ctrl (FTPClientBase.readResp srv.attended 50)).Guarantees (outside ControlServer.unasked FTPClient) :=
      Prog.Guarantees.zoom (FTPClientBase.readResp_outside srv.heard_unasked) fun _ _ => id
    refine .bind (guarantees_tell fun _ => rfl) fun _ => .bind guarantees_obj fun _ => .ite ?_ ?_
    · refine .bind (gone (stop_elsewhere srv.elsewhere_unasked)) fun _ => .bind read fun _ => ?_
      exact .bind set_outside fun _ => gone (destroy_elsewhere srv.elsewhere_unasked)
    · exact gone (destroy_elsewhere srv.elsewhere_unasked)
  exact kept _ _ _ h

/-- **An accepted transfer** over a data connection **leaves as many replies owed
as there were**, if there were none; and if there are none afterwards, there
were none before. -/
theorem transfer_owed {path : Option Bytes} {typ : FTPType} {mode : FTPTransferMode} {rv : Int} {es : List FTPEvent}
    {asked : List Asked} {r r' : Reply} (h : (transfer srv.attended fs.beside path typ mode).Returns s rv s')
    (hrs : ∀ r ∈ rs, r.Fits) (hs : Owes srv.attending rs s) (ha : srv.attending.alive s'.env)
    (hes : s'.self.hist = s.self.hist ++ es) (hconn : ∃ rc, .dataConn rc ∈ es ∧ 0 ≤ rc)
    (hlog : s'.env.2 = s.env.2 ++ asked) (hmem : ⟨verb typ ++ formatted path, [r, r']⟩ ∈ asked) (hr : r.d₁ = 49) :
    ∃ rs', Owes srv.attending rs' s' ∧ (rs' = [] ↔ rs = []) := by
  obtain ⟨t, v, ht, hv, hw⟩ := transfer_parts h
  have hav := closeTransfer_lasting srv.attending _ _ _ hw ha
  have hat := (srv.attending.malloc ftplibBufsiz _ (loop_lasting srv.attending _ _ _ hv hav)).1
  obtain ⟨hfresh, hasked⟩ := openTransfer_asked ht hrs hs hat
  obtain ⟨hb, hfd, hsame⟩ := loop_aside (elsewhere_same srv.attending) _ _ _ hv
  have hunasked : v.env.2 = t.env.2 := (loop_aside srv.elsewhere_unasked _ _ _ hv).2.2 hfresh
  have hlog' : s.env.2 ++ asked = t.env.2 := hlog.symm.trans ((closeTransfer_unasked hw).trans hunasked)
  have hIs : IsTransfer (verb typ ++ formatted path) := ⟨typ, List.prefix_append _ _⟩
  obtain ⟨answer, rest, ok, rc, dataFd, hans, hhist⟩ := hasked.resolve_left fun ⟨plain, hplain, hno⟩ => by
    rw [hplain, List.append_cancel_left_eq] at hlog'
    exact hno _ (hlog' ▸ hmem) hIs
  obtain rfl : answer = [r, r'] := by
    obtain ⟨plain, hplain, hno⟩ := hans.asked
    rw [hplain, List.append_assoc, List.append_cancel_left_eq] at hlog'
    rw [hlog'] at hmem
    rcases List.mem_append.mp hmem with hmem | hmem
    · exact absurd hIs (hno _ hmem)
    · exact (Asked.mk.inj (List.mem_singleton.mp hmem)).2.symm
  -- What the data connection was, and the socket.
  obtain ⟨-, copy, hcopied, hcopy⟩ := loop_records hv
  have hcopying : ∀ e ∈ copy, e.copying = true := hcopy.elim (·.2.copying) (·.2.copying)
  obtain ⟨close, hclosed, hclose⟩ := closeTransfer_records hw
  obtain ⟨start, hstarted, hstart⟩ := openTransfer_records ht
  have hstart' : start = [.dataConn rc, .answered ok dataFd] := List.append_cancel_left (hstarted.symm.trans hhist)
  have hes' : es = start ++ copy ++ close := by
    refine List.append_cancel_left (hes.symm.trans ?_)
    rw [hclosed, hcopied, hstarted]
    simp
  have hrc : 0 ≤ rc := by
    obtain ⟨rc', hmem, hpos⟩ := hconn
    rw [hes', mem_dataConn hcopying hclose, hstart'] at hmem
    simp only [List.mem_cons, FTPEvent.dataConn.injEq, reduceCtorEq, List.not_mem_nil, or_false] at hmem
    exact hmem ▸ hpos
  have howes : Owes srv.attending rest v := by
    refine Owes.same srv.attending hans.owes hb (fun ha => ?_) hav
    exact ((srv.attending.malloc ftplibBufsiz _).trans (hsame hfresh)) ha
  obtain ⟨queue, x, hlen, hq, hok⟩ := hans.queue
  have hcount := congrArg List.length hq
  simp only [List.length_append, List.length_cons, List.length_nil] at hcount
  cases queue with
  | nil =>
    -- In lockstep the client takes the server's answer, and then the final reply.
    obtain ⟨rfl, rfl⟩ := List.cons.inj hq
    rw [if_pos hr] at hok
    have hpos : 0 ≤ v.self.nData.socketFd := by
      rw [hfd]
      exact hstart.socketFd hstart' (by rw [hok]; decide) hrc
    obtain rfl : rs = [] := List.eq_nil_of_length_eq_zero hlen.symm
    exact ⟨[], closeTransfer_final srv.attending (hans.fits r' (by simp)) hw howes hpos ha, Iff.rfl⟩
  | cons y queue =>
    -- One that is behind reads at most one more reply.
    have hne : rs ≠ [] := fun h => by rw [h] at hlen; exact absurd hlen (by simp)
    simp only [List.length_cons] at hcount
    cases rest with
    | nil => simp at hcount
    | cons z rest =>
      by_cases hpos : 0 ≤ v.self.nData.socketFd
      · refine ⟨rest, closeTransfer_final srv.attending (hans.fits z (by simp)) hw howes hpos ha, fun h => ?_, fun h => absurd h hne⟩
        rw [h] at hcount
        simp at hcount
      · exact ⟨z :: rest, closeTransfer_none srv.attending hw howes (Int.not_le.mp hpos) ha, by simp [hne]⟩

theorem Owes.nil_iff (hs : Owes srv.attending rs s) :
    (control s).self.pending ++ srv.unread s.env.1 = [] ↔ rs = [] := by
  have hstream : (control s).self.pending ++ srv.unread s.env.1 = renderAll rs := hs.stream
  rw [hstream]
  exact ⟨renderAll_eq_nil, fun h => by rw [h]; rfl⟩

end FTPClient

/-! ## Truthful results -/

section Truthful

variable (srv : ControlServer p fs fd) (path : Option Bytes) (typ : FTPType) (es : List FTPEvent)
  (s s' : Live (σ × List Asked) FTPClient)

/-- The server answered the transfer's command 1xx, and 2xx at its end. -/
def Accepted : Prop :=
  ∃ r r', ⟨FTPClient.verb typ ++ formatted path, [r, r']⟩ ∈ s'.env.2 ∧ r.d₁ = 49 ∧ r'.d₁ = 50

/-- What a result of 1 promises, of the events `es` and the state after: the
server accepted the command, on a data connection that was made, all that it
sent was received, the final reply with it, and the copy took all there was. -/
structure Complete : Prop where
  connected : ∃ rc, .dataConn rc ∈ es ∧ 0 ≤ rc
  accepted : Accepted path typ s'
  received : srv.alive s'.env.1 ∧ s'.self.toFTPClientBase.pending ++ srv.unread s'.env.1 = []
  copied : Copied typ es

/-- The result is 1 only for a transfer that is complete, and else 0. -/
def Truthful (rv : Int) : Prop := (rv = 1 → Complete srv path typ es s') ∧ (rv ≠ 1 → rv = 0)

/-- What the client has still to hear of earlier commands are whole replies, which
fit into `response`. -/
def Whole : Prop := srv.alive s.env.1 → ∃ rs, (∀ r ∈ rs, r.Fits) ∧ FTPClient.Owes srv.attending rs s

/-- Nothing goes wrong that `xfer` does not look at: nothing of an earlier
command is still to come, the control connection lives through the call, each
reply fits into `response`, the data connection is made, the command is
accepted, and the copy is smooth. -/
structure Flawless : Prop where
  lockstep : FTPClient.Owes srv.attending [] s
  alive : srv.alive s'.env.1
  fits : ∀ x ∈ s'.env.2, ∀ r ∈ x.answer, r.Fits
  connected : ∃ rc, .dataConn rc ∈ es ∧ 0 ≤ rc
  accepted : Accepted path typ s'
  smooth : Smooth es

end Truthful

namespace FTPClient

open FTPClientBase (lasting)

variable {srv : ControlServer p fs fd} {s s' : Live (σ × List Asked) FTPClient} {localfile path : Option Bytes}
  {typ : FTPType} {mode : FTPTransferMode} {es : List FTPEvent} {rv : Int}

theorem transfer_lasting : (transfer p fs path typ mode).Guarantees (lasting srv FTPClient) := by
  intro s rv s' h ha
  obtain ⟨t, v, ht, hv, hw⟩ := transfer_parts h
  have hav := loop_lasting srv _ _ _ hv (closeTransfer_lasting srv _ _ _ hw ha)
  exact openTransfer_lasting srv _ _ _ ht (srv.malloc _ _ hav).1

/-- Of an accepted transfer over a data connection, all is received by a client
that was in lockstep, and by no other. -/
theorem xfer_received {rs : List Reply} (hcb : s.self.m_fs_cb = true) (hlog : s.env.2 = [])
    (h : (xfer srv.attended fs.beside localfile path typ mode).Returns s rv s') (hes : s'.self.hist = s.self.hist ++ es)
    (hrs : ∀ r ∈ rs, r.Fits) (hs : Owes srv.attending rs s) (ha : srv.attending.alive s'.env)
    (hconn : ∃ rc, .dataConn rc ∈ es ∧ 0 ≤ rc) (hacc : Accepted path typ s') :
    s'.self.toFTPClientBase.pending ++ srv.unread s'.env.1 = [] ↔ rs = [] := by
  obtain ⟨e, he, h⟩ := xfer_transfer hcb h
  have hopen : e.2 = s.env.2 ∧ srv.attending.Same s.env e := by
    rcases he with rfl | ⟨f, m, rfl⟩
    · exact ⟨rfl, fun ha => ⟨ha, rfl, rfl⟩⟩
    · exact ⟨rfl, srv.attending.openFile f m s.env⟩
  have hs : Owes srv.attending rs ⟨s.self, e⟩ := Owes.same srv.attending hs rfl hopen.2 (transfer_lasting _ _ _ h ha)
  obtain ⟨r, r', hmem, hr, _⟩ := hacc
  obtain ⟨rs', hs', hiff⟩ := transfer_owed h hrs hs ha hes hconn (by rw [hopen.1, hlog]; rfl) hmem hr
  exact (Owes.nil_iff hs').trans hiff

/-- With a file callback, **the result of a transfer is truthful** if a failure
that stops the copy is noticed, or none of the others occurs. Between whole
replies that fit it is so **only then**. -/
theorem xfer_truthful_iff (hcb : s.self.m_fs_cb = true) (hlog : s.env.2 = [])
    (h : (xfer srv.attended fs.beside localfile path typ mode).Returns s rv s') (hes : s'.self.hist = s.self.hist ++ es) :
    (Noticed es ∨ Flawless srv path typ es s s' → Truthful srv path typ es s' rv) ∧
      (Whole srv s → (∀ x ∈ s'.env.2, ∀ r ∈ x.answer, r.Fits) → Truthful srv path typ es s' rv →
        Noticed es ∨ Flawless srv path typ es s s') := by
  obtain ⟨es', hes', ht⟩ := xfer_records hcb h
  obtain rfl := List.append_cancel_left (hes.symm.trans hes')
  rcases ht.result with ⟨rfl, hn⟩ | ⟨rfl, hn⟩
  · exact ⟨fun _ => ⟨fun h => absurd h (by decide), fun _ => rfl⟩, fun _ _ _ => .inl hn⟩
  · constructor
    · rintro (hn' | hf)
      · exact absurd hn' hn
      · refine ⟨fun _ => ⟨hf.connected, hf.accepted, ⟨hf.alive, ?_⟩, ht.copied_iff.mpr hf.smooth⟩, fun hne => absurd rfl hne⟩
        have hnil : ∀ r ∈ ([] : List Reply), r.Fits := fun _ hr => absurd hr List.not_mem_nil
        exact (xfer_received hcb hlog h hes hnil hf.lockstep ⟨hf.alive, hf.fits⟩ hf.connected hf.accepted).mpr rfl
    · intro hwhole hfits htruth
      have hc := htruth.1 rfl
      have ha : srv.attending.alive s'.env := ⟨hc.received.1, hfits⟩
      have has : srv.alive s.env.1 := by
        obtain ⟨e, he, h⟩ := xfer_transfer hcb h
        have hae := (transfer_lasting _ _ _ h ha).1
        rcases he with rfl | ⟨f, m, rfl⟩
        · exact hae
        · exact (srv.openFile f m s.env.1 hae).1
      obtain ⟨rs, hrs, hs⟩ := hwhole has
      have hnil := (xfer_received hcb hlog h hes hrs hs ha hc.connected hc.accepted).mp hc.received.2
      rw [hnil] at hs
      exact .inr ⟨hs, hc.received.1, hfits, hc.connected, hc.accepted, ht.copied_iff.mp hc.copied⟩

end FTPClient

namespace FTPDemo

/-- A client in lockstep; a file is to come over a data connection. -/
def waiting (missing : Bool) (file : Bytes) : Live (Host × List Asked) FTPClient :=
  ⟨{ socketFd := 3, m_fs_cb := true }, { missing, file }, []⟩

theorem waiting_owes (missing : Bool) (file : Bytes) : FTPClient.Owes (server 0).attending [] (waiting missing file) :=
  ⟨rfl, ⟨List.length_replicate, List.length_replicate, rfl, Nat.zero_le _, rfl⟩, rfl,
    congrArg (· ++ []) (FTPClientBase.pending_empty rfl)⟩

/-- The download of a file. -/
def download : Prog (Live (Host × List Asked) FTPClient) Int :=
  FTPClient.get (server 0).attended files.beside none (some (bytes "f")) .binary

def downloaded (missing : Bool) (file : Bytes) : Live (Host × List Asked) FTPClient :=
  (download.run 10 (waiting missing file)).2

/-- The file is there, and is copied: the result 1 is the truth. -/
theorem download_truthful :
    download.Returns (waiting false (bytes "hi")) 1 (downloaded false (bytes "hi")) ∧
      (downloaded false (bytes "hi")).self.hist = [.dataConn 4, .answered 1 4, .dataRead 2 (bytes "hi"),
        .fileWrite (bytes "hi") 2, .dataRead 0 [], .final 1] ∧
      Truthful (server 0) (some (bytes "f")) .fileRead (downloaded false (bytes "hi")).self.hist
        (downloaded false (bytes "hi")) 1 := by
  have returns : download.Returns (waiting false (bytes "hi")) 1 (downloaded false (bytes "hi")) :=
    .of_run 10 (by decide +kernel)
  have hist : (downloaded false (bytes "hi")).self.hist = [.dataConn 4, .answered 1 4, .dataRead 2 (bytes "hi"),
      .fileWrite (bytes "hi") 2, .dataRead 0 [], .final 1] := by decide +kernel
  have asked : (downloaded false (bytes "hi")).env.2 = [⟨bytes "TYPE I", [ok]⟩, ⟨bytes "PASV", [passive]⟩,
      ⟨bytes "RETR f", [opening, complete]⟩] := by decide +kernel
  have alive : (downloaded false (bytes "hi")).env.1.alive = true := by decide +kernel
  have xfer : (FTPClient.xfer (server 0).attended files.beside none (some (bytes "f")) .fileRead .binary).Returns
      (waiting false (bytes "hi")) 1 (downloaded false (bytes "hi")) := returns
  refine ⟨returns, hist, (FTPClient.xfer_truthful_iff rfl rfl xfer (List.nil_append _).symm).1 (.inr ?_)⟩
  refine ⟨waiting_owes false (bytes "hi"), alive, ?_, ?_, ?_, ?_, ?_⟩
  · have known : ∀ x ∈ (downloaded false (bytes "hi")).env.2, ∀ r ∈ x.answer, r ∈ [ok, passive, opening, complete, notFound] := by
      rw [asked]
      decide
    exact fun x hx r hr => replies_fit r (known x hx r hr)
  · rw [hist]
    exact ⟨4, by simp, by decide⟩
  · rw [Accepted, asked]
    exact ⟨opening, complete, by simp; decide, rfl, rfl⟩
  · intro l got hmem
    rw [hist] at hmem
    simp only [List.mem_cons, FTPEvent.dataRead.injEq, reduceCtorEq, List.not_mem_nil, false_or, or_false] at hmem
    rcases hmem with ⟨rfl, -⟩ | ⟨rfl, -⟩ <;> decide
  · intro bs n hmem
    rw [hist] at hmem
    simp only [List.mem_cons, FTPEvent.fileWrite.injEq, reduceCtorEq, List.not_mem_nil, false_or, or_false] at hmem
    obtain ⟨rfl, rfl⟩ := hmem
    decide

/-- A file that is not there is fetched with the result 1. -/
theorem download_missing :
    download.Returns (waiting true []) 1 (downloaded true []) ∧
      ¬ Truthful (server 0) (some (bytes "f")) .fileRead (downloaded true []).self.hist (downloaded true []) 1 := by
  refine ⟨.of_run 10 (by decide +kernel), fun h => ?_⟩
  have asked : (downloaded true []).env.2 = [⟨bytes "TYPE I", [ok]⟩, ⟨bytes "PASV", [passive]⟩,
      ⟨bytes "RETR f", [notFound]⟩] := by decide +kernel
  obtain ⟨r, r', hmem, _⟩ := (h.1 rfl).accepted
  rw [asked] at hmem
  simp at hmem

end FTPDemo

end FEmbed
