/-
The client and the server of an FTP control connection in lockstep.

After every operation the client has consumed exactly the replies owed for the
commands it sent (`InSync`), as long as no transfer was accepted by the server
while the client had no data connection: then `closeTransfer` leaves the final
reply unread, and the next command gets it (`run_inSync`, `get_out_of_sync`).
What the data connection does is kept apart from the control connection by two
guarantees, `apart` for its socket and `aside` for the copy loops.
-/
import FEmbedLwip.FTPReply

namespace FEmbed

open Live

variable {σ : Type} {p : Platform σ} {fs : FTPClientDataCallback σ} {fd : Int} (srv : ControlServer p fs fd)

namespace FTPClient

open FTPClientBase (Ahead lasting)

/-- The control connection. -/
def control (s : Live σ FTPClient) : Live σ FTPClientBase := ⟨s.self.toFTPClientBase, s.env⟩

/-- The replies that the client has still to consume, between two commands. -/
def Owes (rs : List Reply) (s : Live σ FTPClient) : Prop := Ahead srv [] (renderAll rs) (control s)

/-- While the connection lives, every reply owed has been consumed. -/
def InSync (s : Live σ FTPClient) : Prop := srv.alive s.env → Owes srv [] s

/-! ## Commands -/

theorem ctrl_lasting {α : Type} {x : Prog (Live σ FTPClientBase) α} (h : x.Guarantees (lasting srv FTPClientBase)) :
    (ctrl x).Guarantees (lasting srv FTPClient) := Prog.Guarantees.zoom h fun _ _ => id

/-- What a write on the control connection does to it. -/
theorem printf_returns {text ln stream : Bytes} {s : Live σ FTPClient} {u s'}
    (h : (ctrl (FTPClientBase.printf p text)).Returns s u s') (hs : Ahead srv ln stream (control s)) :
    s' = ⟨s.self, (p.lwip.write fd text (TCPClient.atWrite p.lwip ⟨s.self.toTCPClient, s.env⟩)).2⟩ := by
  obtain ⟨t, ht, rfl⟩ := Prog.returns_zoom.mp h
  obtain ⟨_, v, hv, ht⟩ := Prog.returns_bind.mp ht
  obtain ⟨-, rfl⟩ := Prog.returns_pure.mp ht
  obtain ⟨w, hw, rfl⟩ := Prog.returns_zoom.mp hv
  have hfd : s.self.socketFd = fd := hs.socketFd
  rcases TCPClient.write_returns.mp hw with ⟨hneg, _⟩ | ⟨_, _, rfl⟩
  · exact absurd (hfd ▸ srv.fd_nonneg) (Int.not_le.mpr hneg)
  · simp only [hfd]

/-- The outside when the command is written is as it was before. -/
theorem atWrite_same (s : Live σ TCPClient) : srv.Same s.env (TCPClient.atWrite p.lwip s) :=
  srv.setsockopt _ _ _

theorem printf_more {text ln stream : Bytes} {s : Live σ FTPClient} {u s'}
    (h : (ctrl (FTPClientBase.printf p text)).Returns s u s') (hs : Ahead srv ln stream (control s))
    (ha : srv.alive s'.env) (hno : 10 ∉ ln ++ text) : s'.self = s.self ∧ Ahead srv (ln ++ text) stream (control s') := by
  have := printf_returns srv h hs
  subst this
  obtain ⟨_, hline, hunread⟩ := atWrite_same srv ⟨s.self.toTCPClient, s.env⟩ (srv.write _ _ ha)
  rw [← hs.line] at hno ⊢
  obtain ⟨hline', hunread'⟩ := srv.writeMore text _ (by rw [hline]; exact hno) ha
  refine ⟨rfl, hs.socketFd, hs.reader, hline'.trans (by rw [hline]; rfl), ?_⟩
  rw [← hs.stream]
  exact congrArg _ (hunread'.trans hunread)

theorem printf_line {text ln stream cmd : Bytes} {s : Live σ FTPClient} {u s'}
    (h : (ctrl (FTPClientBase.printf p text)).Returns s u s') (hs : Ahead srv ln stream (control s))
    (ha : srv.alive s'.env) (hno : 10 ∉ cmd) (hcmd : ln ++ text = cmd ++ [13, 10]) :
    s'.self = s.self ∧ Ahead srv [] (stream ++ renderAll (srv.answer cmd (TCPClient.atWrite p.lwip
      ⟨s.self.toTCPClient, s.env⟩))) (control s') := by
  have := printf_returns srv h hs
  subst this
  obtain ⟨_, hline, hunread⟩ := atWrite_same srv ⟨s.self.toTCPClient, s.env⟩ (srv.write _ _ ha)
  rw [← hs.line] at hcmd
  obtain ⟨hline', hunread'⟩ := srv.writeLine cmd text _ hno (by rw [hline]; exact hcmd) ha
  refine ⟨rfl, hs.socketFd, hs.reader, hline', ?_⟩
  rw [← hs.stream, List.append_assoc]
  exact congrArg _ (hunread'.trans (congrArg (· ++ _) hunread))

/-- A reply is read on the control connection. -/
theorem readResp_owed {r : Reply} {rs : List Reply} {c : UInt8} {s : Live σ FTPClient} {v : Int} {s'} (hfits : r.Fits)
    (h : (ctrl (FTPClientBase.readResp p c)).Returns s v s') (hs : Owes srv (r :: rs) s) (ha : srv.alive s'.env) :
    v = (if r.d₁ = c then 1 else 0) ∧ Owes srv rs s' ∧ s'.self.nData = s.self.nData ∧ s'.self.hist = s.self.hist := by
  obtain ⟨t, ht, rfl⟩ := Prog.returns_zoom.mp h
  obtain ⟨hv, _, ht⟩ := FTPClientBase.readResp_reply srv hfits ht hs ha
  exact ⟨hv, ht, rfl, rfl⟩

/-- A command that is not a transfer: one reply, which is consumed. -/
theorem exchange_plain {cmd : Bytes} {c : UInt8} {s : Live σ FTPClient} {v : Int} {s'}
    (hfits : ∀ cmd e, ∀ r ∈ srv.answer cmd e, r.Fits) (hno : 10 ∉ cmd) (hcmd : ¬ IsTransfer cmd)
    (h : (exchange p (cmd ++ [13, 10]) c).Returns s v s') (hs : Owes srv [] s) (ha : srv.alive s'.env) :
    Owes srv [] s' ∧ s'.self.nData = s.self.nData ∧ s'.self.hist = s.self.hist := by
  obtain ⟨_, t, ht, h⟩ := Prog.returns_bind.mp h
  have hat := ctrl_lasting srv (FTPClientBase.readResp_lasting srv) _ _ _ h ha
  obtain ⟨hself, ht⟩ := printf_line srv ht hs hat hno rfl
  generalize TCPClient.atWrite p.lwip _ = e at ht
  rcases srv.answers cmd e with ⟨r, hr, _⟩ | ⟨htr, _⟩
  · have ht : Owes srv [r] t := by rw [hr] at ht; exact ht
    obtain ⟨_, hs', hdata, hhist⟩ := readResp_owed srv (hfits cmd e r (by simp [hr])) h ht ha
    exact ⟨hs', by rw [hdata, hself], by rw [hhist, hself]⟩
  · exact absurd htr hcmd

/-! ## The data connection -/

/-- The calls that are not on the control connection keep `G`. -/
structure Elsewhere (p : Platform σ) (fs : FTPClientDataCallback σ) (fd : Int) (G : Prog.Guarantee σ) : Prop where
  socket : ∀ e, G.rel e (p.lwip.socket e).2
  setsockopt : ∀ fd' o e, G.rel e (p.lwip.setsockopt fd' o e).2
  connect : ∀ fd' a e, G.rel e (p.lwip.connect fd' a e).2
  shutdown : ∀ fd' e, G.rel e (p.lwip.shutdown fd' e)
  close : ∀ fd' e, G.rel e (p.lwip.close fd' e)
  select : ∀ fd' e, G.rel e (p.lwip.select fd' e).2
  recv : ∀ fd' n e, fd' ≠ fd → G.rel e (p.lwip.recv fd' n e).2
  write : ∀ fd' bs e, fd' ≠ fd → G.rel e (p.lwip.write fd' bs e).2
  readFile : ∀ n e, G.rel e (fs.read n e).2
  writeFile : ∀ bs e, G.rel e (fs.write bs e).2

/-- The control connection stays as it is, or ends. -/
def same : Prog.Guarantee σ where
  rel := srv.Same
  refl _ := fun ha => ⟨ha, rfl, rfl⟩
  trans := ControlView.Same.trans

theorem elsewhere_same : Elsewhere p fs fd (same srv) where
  socket := srv.socket
  setsockopt := srv.setsockopt
  connect := srv.connect
  shutdown := srv.shutdown
  close := srv.close
  select := srv.select
  recv := srv.recvData
  write := srv.writeData
  readFile := srv.readFile
  writeFile := srv.writeFile

section Elsewhere

variable {G : Prog.Guarantee σ} (hG : Elsewhere p fs fd G)

include hG

theorem stop_elsewhere : (TCPClient.stop p.lwip).Guarantees (outside G TCPClient) := by
  refine .bind guarantees_obj fun c => .ite ?_ set_outside
  refine .bind (guarantees_tell fun s => hG.shutdown _ _) fun _ => ?_
  exact .bind (guarantees_tell fun s => hG.close _ _) fun _ => set_outside

theorem destroy_elsewhere : (TCPClient.destroy p.lwip).Guarantees (outside G TCPClient) :=
  .bind guarantees_obj fun _ => .ite
    (.bind (guarantees_tell fun _ => hG.shutdown _ _) fun _ => guarantees_tell fun _ => hG.close _ _) .pure

theorem connectV4_elsewhere {ip port : Nat} {timeout : Int} :
    (TCPClient.connectV4 p.lwip ip port timeout).Guarantees (outside G TCPClient) := by
  have close {e : Int} : (tell (p.lwip.close e)).Guarantees (outside G TCPClient) :=
    guarantees_tell fun _ => hG.close _ _
  have opened : (TCPClient.openV4 p.lwip ip port timeout).Guarantees (outside G TCPClient) := by
    refine .bind (guarantees_call fun _ => hG.socket _) fun e => .bind set_outside fun _ => .ite .pure ?_
    refine .bind (guarantees_call fun _ => hG.setsockopt _ _ _) fun _ => .ite (.bind close fun _ => .pure) ?_
    refine .bind (guarantees_call fun _ => hG.setsockopt _ _ _) fun _ => .ite (.bind close fun _ => .pure) ?_
    refine .bind set_outside fun _ => .bind (guarantees_call fun _ => hG.connect _ _ _) fun rc => .ite ?_ ?_
    · exact .bind close fun _ => .bind set_outside fun _ => .bind set_outside fun _ => .bind guarantees_obj fun _ => .pure
    · exact .bind set_outside fun _ => .bind guarantees_obj fun _ => .pure
  exact .bind guarantees_obj fun _ => .ite (.bind (stop_elsewhere hG) fun _ => opened) opened

end Elsewhere

theorem stop_returns {s : Live σ TCPClient} {u s'} (h : (TCPClient.stop p.lwip).Returns s u s') :
    s'.self.socketFd = -1 := by
  simp only [TCPClient.stop, returns_obj_bind, returns_tell_bind, Prog.returns_ite, returns_set] at h
  rcases h with ⟨_, rfl⟩ | ⟨_, rfl⟩ <;> rfl

/-- A data connection has a socket of its own. -/
theorem connectV4_fresh {ip port : Nat} {timeout : Int} {s : Live σ TCPClient} {r s'}
    (h : (TCPClient.connectV4 p.lwip ip port timeout).Returns s r s') (ha : srv.alive s'.env) :
    s'.self.socketFd ≠ fd := by
  have hneg : (-2 : Int) ≠ fd := by have := srv.fd_nonneg; omega
  obtain ⟨t, h⟩ : ∃ t, (TCPClient.openV4 p.lwip ip port timeout).Returns t r s' := by
    rw [TCPClient.connectV4, returns_obj_bind, Prog.returns_ite] at h
    rcases h with ⟨_, h⟩ | ⟨_, h⟩
    · obtain ⟨_, t, _, h⟩ := Prog.returns_bind.mp h
      exact ⟨t, h⟩
    · exact ⟨s, h⟩
  simp only [TCPClient.openV4, returns_call_bind, returns_set_bind, returns_obj_bind, returns_tell_bind,
    Prog.returns_ite, Prog.returns_pure] at h
  rcases h with ⟨_, _, rfl⟩ | ⟨_, ⟨_, _, rfl⟩ | ⟨_, ⟨_, _, rfl⟩ | ⟨_, ⟨_, _, rfl⟩ | ⟨_, _, rfl⟩⟩⟩⟩
  · exact srv.fresh _ ha
  · exact srv.fresh _ ((srv.setsockopt _ _ _).trans (srv.close _ _) ha).1
  · exact srv.fresh _ (((srv.setsockopt _ _ _).trans (srv.setsockopt _ _ _)).trans (srv.close _ _) ha).1
  · exact hneg
  · exact srv.fresh _ (((srv.setsockopt _ _ _).trans (srv.setsockopt _ _ _)).trans (srv.connect _ _ _) ha).1

/-! ## Transfers -/

/-- A transfer in its three parts. -/
theorem transfer_parts {path : Option Bytes} {typ : FTPType} {mode : FTPTransferMode} {s : Live σ FTPClient} {rv : Int} {s'}
    (h : (transfer p fs path typ mode).Returns s rv s') :
    ∃ t v, (openTransfer p path typ mode).Returns s () t ∧
      (if typ = .fileWrite then upload p fs else download p fs).Returns ⟨t.self, (p.malloc ftplibBufsiz t.env).2⟩ rv v ∧
      (closeTransfer p fs).Returns v () s' := by
  obtain ⟨_, t, ht, h⟩ := Prog.returns_bind.mp h
  rw [returns_call_bind, returns_obj_bind, Prog.returns_ite] at h
  obtain ⟨_, h⟩ := h.resolve_left fun h => absurd h.2 Prog.returns_undefined
  refine ⟨t, ?_⟩
  split at h
  · obtain ⟨_, v, hv, h⟩ := Prog.returns_bind.mp h
    obtain ⟨_, w, hw, h⟩ := Prog.returns_bind.mp h
    obtain ⟨rfl, rfl⟩ := Prog.returns_pure.mp h
    exact ⟨v, ht, by rw [if_pos ‹_›]; exact hv, hw⟩
  · obtain ⟨_, v, hv, h⟩ := Prog.returns_bind.mp h
    obtain ⟨_, w, hw, h⟩ := Prog.returns_bind.mp h
    obtain ⟨rfl, rfl⟩ := Prog.returns_pure.mp h
    exact ⟨v, ht, by rw [if_neg ‹_›]; exact hv, hw⟩

/-- The ways `openDataConn` goes: it opens nothing, or the `connect` is on record. -/
inductive DataOpening (p : Platform σ) (dir : FTPDir) (s : Live σ FTPClient) : Int → Live σ FTPClient → Prop
  | busy : DataOpening p dir s (-1) s
  | refused {v t} (hpasv : (exchange p (bytes "PASV" ++ [13, 10]) 50).Returns s v t) : DataOpening p dir s (-1) t
  | dialed {v t ip port rc u} (hpasv : (exchange p (bytes "PASV" ++ [13, 10]) 50).Returns s v t)
      (hdial : (data (TCPClient.connectV4 p.lwip ip port 5000)).Returns t rc u) :
      DataOpening p dir s 1
        ⟨{ u.self with hist := u.self.hist ++ [.dataConn rc], nData := { u.self.nData with dir := dir } }, u.env⟩

theorem openDataConn_opening {dir : FTPDir} {s : Live σ FTPClient} {v s'} (h : (openDataConn p dir).Returns s v s') :
    DataOpening p dir s v s' := by
  rw [openDataConn, returns_obj_bind, Prog.returns_ite] at h
  rcases h with ⟨_, h⟩ | ⟨_, h⟩
  · obtain ⟨rfl, rfl⟩ := Prog.returns_pure.mp h
    exact .busy
  obtain ⟨_, t, ht, h⟩ := Prog.returns_bind.mp h
  replace ht : (exchange p (bytes "PASV" ++ [13, 10]) 50).Returns s _ t := ht
  simp only [returns_obj_bind, Prog.returns_ite, Prog.returns_pure] at h
  rcases h with ⟨_, rfl, rfl⟩ | ⟨_, ⟨_, rfl, rfl⟩ | ⟨_, h⟩⟩
  · exact .refused ht
  · exact .refused ht
  · split at h
    · exact absurd h Prog.returns_undefined
    · obtain ⟨rc, u, hu, h⟩ := Prog.returns_bind.mp h
      simp only [record, returns_set_bind, Prog.returns_pure] at h
      obtain ⟨rfl, rfl⟩ := h
      exact .dialed ht hu

/-- The client with the answer to a transfer's command on record. -/
def withAnswer (ok : Int) (s : Live σ FTPClient) : Live σ FTPClient :=
  ⟨{ s.self with hist := s.self.hist ++ [.answered ok s.self.nData.socketFd] }, s.env⟩

/-- What the answer is taken for: the socket is closed, or kept. -/
def Settled (p : Platform σ) (ok : Int) (s s' : Live σ FTPClient) : Prop :=
  ok = 0 ∧ (data (TCPClient.stop p.lwip)).Returns (withAnswer ok s) () s' ∨ ok ≠ 0 ∧ s' = withAnswer ok s

/-- The ways the constructor goes, once the object is made anew. -/
inductive Opening (p : Platform σ) (path : Option Bytes) (typ : FTPType) (mode : FTPTransferMode) (s s' : Live σ FTPClient) : Prop
  | unnamed {text} (h : (setResponse text).Returns s () s')
  | untyped {v} (htype : (exchange p (commandLine "TYPE " (some (modeChar mode))) 50).Returns s v s')
  | unconnected {v t} (htype : (exchange p (commandLine "TYPE " (some (modeChar mode))) 50).Returns s v t)
      (hdata : (openDataConn p (if typ = .fileWrite then .write else .read)).Returns t (-1) s')
  | answered {v t v' w x ok y} (htype : (exchange p (commandLine "TYPE " (some (modeChar mode))) 50).Returns s v t)
      (hdata : (openDataConn p (if typ = .fileWrite then .write else .read)).Returns t v' w) (hne : v' ≠ -1)
      (hverb : (ctrl (FTPClientBase.printf p (verb typ))).Returns w () x)
      (hpath : (exchange p (formatted path ++ [13, 10]) 49).Returns x ok y) (hend : Settled p ok y s')

theorem openTransfer_opening {path : Option Bytes} {typ : FTPType} {mode : FTPTransferMode} {s : Live σ FTPClient} {u s'}
    (h : (openTransfer p path typ mode).Returns s u s') : Opening p path typ mode ⟨{ s.self with nData := {} }, s.env⟩ s' := by
  rw [openTransfer, returns_set_bind, Prog.returns_ite] at h
  rcases h with ⟨_, h⟩ | ⟨_, h⟩
  · obtain ⟨_, t, ht, h⟩ := Prog.returns_bind.mp h
    obtain ⟨-, rfl⟩ := Prog.returns_pure.mp h
    exact .unnamed ht
  obtain ⟨v, t, ht, h⟩ := Prog.returns_bind.mp h
  rw [Prog.returns_ite] at h
  rcases h with ⟨_, h⟩ | ⟨_, h⟩
  · obtain ⟨-, rfl⟩ := Prog.returns_pure.mp h
    exact .untyped ht
  obtain ⟨v', w, hw, h⟩ := Prog.returns_bind.mp h
  rw [Prog.returns_ite] at h
  rcases h with ⟨rfl, h⟩ | ⟨hne, h⟩
  · obtain ⟨-, rfl⟩ := Prog.returns_pure.mp h
    exact .unconnected ht hw
  obtain ⟨_, x, hx, h⟩ := Prog.returns_bind.mp h
  obtain ⟨ok, y, hy, h⟩ := Prog.returns_bind.mp h
  simp only [record, returns_obj_bind, returns_set_bind, Prog.returns_ite, Prog.returns_pure] at h
  refine .answered ht hw hne hx hy ?_
  rcases h with ⟨hok, h⟩ | ⟨hok, -, h⟩
  · exact .inl ⟨hok, h⟩
  · exact .inr ⟨hok, h⟩

/-- A copy loop keeps the client's side of the control connection and the socket
of the data connection, and `G` if that socket is not `fd`. -/
def aside (fd : Int) (G : Prog.Guarantee σ) : Prog.Guarantee (Live σ FTPClient) where
  rel s s' := s'.self.toFTPClientBase = s.self.toFTPClientBase ∧
    s'.self.nData.socketFd = s.self.nData.socketFd ∧ (s.self.nData.socketFd ≠ fd → G.rel s.env s'.env)
  refl s := ⟨rfl, rfl, fun _ => G.refl s.env⟩
  trans := by
    rintro s t u ⟨hb, hd, hG⟩ ⟨hb', hd', hG'⟩
    exact ⟨hb'.trans hb, hd'.trans hd, fun hne => G.trans (hG hne) (hG' (by rw [hd]; exact hne))⟩

section Aside

variable {G : Prog.Guarantee σ} (hG : Elsewhere p fs fd G)

theorem record_aside {e : FTPEvent} : (record e : Prog (Live σ FTPClient) Unit).Guarantees (aside fd G) :=
  guarantees_set fun s => ⟨rfl, rfl, fun _ => G.refl s.env⟩

include hG

theorem write_aside {bs : Bytes} : (data (TCPClient.write p.lwip bs)).Guarantees (aside fd G) := by
  intro s r s' h
  obtain ⟨t, ht, rfl⟩ := Prog.returns_zoom.mp h
  rcases TCPClient.write_returns.mp ht with ⟨_, _, rfl⟩ | ⟨_, _, rfl⟩
  · exact ⟨rfl, rfl, fun _ => G.refl _⟩
  · exact ⟨rfl, rfl, fun hne => G.trans (hG.setsockopt _ _ _) (hG.write _ _ _ hne)⟩

theorem readBuf_aside {n : Nat} : (data (TCPClient.readBuf p.lwip n)).Guarantees (aside fd G) := by
  intro s r s' h
  obtain ⟨t, ht, rfl⟩ := Prog.returns_zoom.mp h
  rcases TCPClient.readBuf_returns.mp ht with ⟨_, _, rfl⟩ | ⟨_, _, _, rfl⟩ | ⟨_, _, _, rfl⟩
  · exact ⟨rfl, rfl, fun _ => G.refl _⟩
  · exact ⟨rfl, rfl, fun hne => G.trans (G.trans (hG.select _ _) (hG.setsockopt _ _ _)) (hG.recv _ _ _ hne)⟩
  · exact ⟨rfl, rfl, fun _ => hG.select _ _⟩

theorem upload_aside : (upload p fs).Guarantees (aside fd G) := by
  have read : (call (fs.read ftplibBufsiz) : Prog (Live σ FTPClient) _).Guarantees (aside fd G) :=
    guarantees_call fun _ => ⟨rfl, rfl, fun _ => hG.readFile _ _⟩
  refine .loop (fun _ => .bind read fun l => ?_) _
  refine .bind record_aside fun _ => .ite .pure (.ite .undefined ?_)
  exact .bind (write_aside hG) fun _ => .bind record_aside fun _ => .ite .pure .pure

theorem download_aside : (download p fs).Guarantees (aside fd G) := by
  refine .loop (fun _ => .bind (readBuf_aside hG) fun x => .bind record_aside fun _ => .ite ?_ .pure) _
  refine .bind (guarantees_call fun _ => ⟨rfl, rfl, fun _ => hG.writeFile _ _⟩) fun n => ?_
  exact .bind record_aside fun _ => .ite .pure .pure

end Aside

theorem loop_aside {typ : FTPType} {G : Prog.Guarantee σ} (hG : Elsewhere p fs fd G) :
    (if typ = .fileWrite then upload p fs else download p fs).Guarantees (aside fd G) := .ite (upload_aside hG) (download_aside hG)

theorem data_lasting {α : Type} {x : Prog (Live σ TCPClient) α} (hx : x.Guarantees (lasting srv TCPClient)) :
    (data x).Guarantees (lasting srv FTPClient) := Prog.Guarantees.zoom hx fun _ _ => id

theorem upload_lasting : (upload p fs).Guarantees (lasting srv FTPClient) := by
  refine .loop (fun _ => .bind (guarantees_call fun _ ha => (srv.readFile _ _ ha).1) fun l => ?_) _
  refine .bind set_outside fun _ => .ite .pure (.ite .undefined ?_)
  exact .bind (data_lasting srv (FTPClientBase.tcp_write_lasting srv)) fun _ => .bind set_outside fun _ => .ite .pure .pure

theorem download_lasting : (download p fs).Guarantees (lasting srv FTPClient) := by
  have read {n : Nat} : (data (TCPClient.readBuf p.lwip n)).Guarantees (lasting srv FTPClient) :=
    data_lasting srv (FTPClientBase.tcp_readBuf_outside (FTPClientBase.heard_life srv))
  refine .loop (fun _ => .bind read fun x => .bind set_outside fun _ => .ite ?_ .pure) _
  refine .bind (guarantees_call fun _ ha => (srv.writeFile _ _ ha).1) fun n => ?_
  exact .bind set_outside fun _ => .ite .pure .pure

theorem loop_lasting {typ : FTPType} :
    (if typ = .fileWrite then upload p fs else download p fs).Guarantees (lasting srv FTPClient) :=
  .ite (upload_lasting srv) (download_lasting srv)

/-- A step that leaves the control connection alone leaves what is owed. -/
theorem Owes.same {rs : List Reply} {s s' : Live σ FTPClient} (hs : Owes srv rs s)
    (hb : s'.self.toFTPClientBase = s.self.toFTPClientBase) (h : srv.Same s.env s'.env) (ha : srv.alive s'.env) :
    Owes srv rs s' := by
  obtain ⟨_, hline, hunread⟩ := h ha
  refine ⟨?_, ?_, hline.trans hs.line, ?_⟩
  · exact (congrArg (·.socketFd) hb).trans hs.socketFd
  · show FTPClientBase.ReaderOk s'.self.toFTPClientBase
    rw [hb]
    exact hs.reader
  · rw [← hs.stream]
    exact congr (congrArg _ (congrArg FTPClientBase.pending hb)) hunread

theorem data_keeps {α : Type} {G : Prog.Guarantee σ} {x : Prog (Live σ TCPClient) α} {s : Live σ FTPClient} {r s'}
    (hx : x.Guarantees (outside G TCPClient)) (h : (data x).Returns s r s') :
    s'.self.toFTPClientBase = s.self.toFTPClientBase ∧ s'.self.hist = s.self.hist ∧ G.rel s.env s'.env := by
  obtain ⟨t, ht, rfl⟩ := Prog.returns_zoom.mp h
  exact ⟨rfl, rfl, hx _ _ _ ht⟩

namespace Settled

variable {ok : Int} {s s' : Live σ FTPClient}

theorem keeps {G : Prog.Guarantee σ} (hG : Elsewhere p fs fd G) (h : Settled p ok s s') :
    s'.self.toFTPClientBase = s.self.toFTPClientBase ∧ G.rel s.env s'.env := by
  rcases h with ⟨_, h⟩ | ⟨_, rfl⟩
  · obtain ⟨hb, _, hkept⟩ := data_keeps (stop_elsewhere hG) h
    exact ⟨hb, hkept⟩
  · exact ⟨rfl, G.refl _⟩

theorem recorded (h : Settled p ok s s') : s'.self.hist = s.self.hist ++ [.answered ok s.self.nData.socketFd] := by
  rcases h with ⟨_, h⟩ | ⟨_, rfl⟩
  · obtain ⟨_, _, rfl⟩ := Prog.returns_zoom.mp h
    rfl
  · rfl

theorem socket (h : Settled p ok s s') : ok = 0 ∧ s'.self.nData.socketFd = -1 ∨ ok ≠ 0 ∧ s'.self.nData = s.self.nData := by
  rcases h with ⟨hok, h⟩ | ⟨hok, rfl⟩
  · obtain ⟨t, ht, rfl⟩ := Prog.returns_zoom.mp h
    exact .inl ⟨hok, stop_returns ht⟩
  · exact .inr ⟨hok, rfl⟩

end Settled

/-- The commands of transfers start with NL, LI, RE or ST. -/
theorem not_transfer {cmd : Bytes} {a b : UInt8} (h : cmd.take 2 = [a, b])
    (hab : [a, b] ∉ [bytes "NL", bytes "LI", bytes "RE", bytes "ST"]) : ¬ IsTransfer cmd := by
  rintro ⟨typ, rest, rfl⟩
  refine hab ?_
  rw [← h, List.take_append_of_le_length (by cases typ <;> decide)]
  cases typ <;> decide

theorem exchange_lasting {line : Bytes} {c : UInt8} : (exchange p line c).Guarantees (lasting srv FTPClient) :=
  .bind (ctrl_lasting srv (FTPClientBase.printf_lasting srv)) fun _ =>
    ctrl_lasting srv (FTPClientBase.readResp_lasting srv)

theorem openDataConn_lasting {dir : FTPDir} : (openDataConn p dir).Guarantees (lasting srv FTPClient) := by
  refine .bind guarantees_obj fun _ => .ite .pure (.bind (exchange_lasting srv) fun _ => .ite .pure ?_)
  refine .bind guarantees_obj fun _ => .ite .pure ?_
  split
  · exact .undefined
  · refine .bind (fun _ _ _ h ha => ((data_keeps (connectV4_elsewhere (elsewhere_same srv)) h).2.2 ha).1) fun _ => ?_
    exact .bind (guarantees_set fun _ => id) fun _ => .bind (guarantees_set fun _ => id) fun _ => .pure

variable (hfits : ∀ cmd e, ∀ r ∈ srv.answer cmd e, r.Fits)

include hfits

theorem openDataConn_owes {dir : FTPDir} {s : Live σ FTPClient} {v : Int} {s'}
    (h : (openDataConn p dir).Returns s v s') (hs : Owes srv [] s) (ha : srv.alive s'.env) :
    Owes srv [] s' ∧ ((v = -1 ∧ s'.self.nData = s.self.nData) ∨ (v = 1 ∧ s'.self.nData.socketFd ≠ fd)) := by
  have asked {v t} (h : (exchange p (bytes "PASV" ++ [13, 10]) 50).Returns s v t) (hat : srv.alive t.env) :
      Owes srv [] t ∧ t.self.nData = s.self.nData :=
    have ⟨howes, hdata, _⟩ := exchange_plain srv hfits (by decide) (not_transfer rfl (by decide)) h hs hat
    ⟨howes, hdata⟩
  cases openDataConn_opening h with
  | busy => exact ⟨hs, .inl ⟨rfl, rfl⟩⟩
  | refused hpasv => exact ⟨(asked hpasv ha).1, .inl ⟨rfl, (asked hpasv ha).2⟩⟩
  | dialed hpasv hdial =>
    obtain ⟨hb, _, hsame⟩ := data_keeps (connectV4_elsewhere (elsewhere_same srv)) hdial
    refine ⟨Owes.same srv (asked hpasv (hsame ha).1).1 hb hsame ha, .inr ⟨rfl, ?_⟩⟩
    obtain ⟨w, hw, rfl⟩ := Prog.returns_zoom.mp hdial
    exact connectV4_fresh srv hw ha

/-- How the constructor leaves things: nothing owed and no data connection, or
the final reply owed for a transfer that was accepted. -/
def Opened (s : Live σ FTPClient) : Prop :=
  (Owes srv [] s ∧ s.self.nData.socketFd < 0) ∨
    ∃ r ok, r.Fits ∧ Owes srv [r] s ∧ s.self.nData.socketFd ≠ fd ∧ ok ≠ 0 ∧
      .answered ok s.self.nData.socketFd ∈ s.self.hist

omit hfits in
theorem setResponse_owes {text : Bytes} {rs : List Reply} {s : Live σ FTPClient} {u s'}
    (h : (setResponse text).Returns s u s') (hs : Owes srv rs s) :
    Owes srv rs s' ∧ s'.self.nData = s.self.nData := by
  rw [setResponse, returns_obj_bind] at h
  split at h
  · exact absurd h Prog.returns_undefined
  · rename_i response hpoke
    rw [returns_set] at h
    subst h
    have hok := hs.reader
    exact ⟨⟨hs.socketFd, ⟨hok.buf, (poke_length hpoke).trans hok.response, hok.cput, hok.bound, hok.dir⟩, hs.line,
      hs.stream⟩, rfl⟩

/-- The command of a transfer, in two writes, and the reply to it. -/
theorem transferCommand_owes {path : Bytes} {typ : FTPType} {s : Live σ FTPClient} {u t ok s'}
    (hno : 10 ∉ path) (hu : (ctrl (FTPClientBase.printf p (verb typ))).Returns s u t)
    (h : (exchange p (path ++ [13, 10]) 49).Returns t ok s') (hs : Owes srv [] s) (ha : srv.alive s'.env) :
    s'.self.nData = s.self.nData ∧ s'.self.hist = s.self.hist ∧
      ((ok = 0 ∧ Owes srv [] s') ∨ (ok = 1 ∧ ∃ r, r.Fits ∧ Owes srv [r] s')) := by
  obtain ⟨_, w, hw, h⟩ := Prog.returns_bind.mp h
  have haw := ctrl_lasting srv (FTPClientBase.readResp_lasting srv) _ _ _ h ha
  have hat := ctrl_lasting srv (FTPClientBase.printf_lasting srv) _ _ _ hw haw
  have hverb : 10 ∉ [] ++ verb typ := by cases typ <;> decide
  obtain ⟨hself, ht⟩ := printf_more srv hu hs hat hverb
  have hcmd : 10 ∉ verb typ ++ path := by
    rw [List.mem_append]
    exact fun hmem => hmem.elim hverb hno
  obtain ⟨hself', hw⟩ := printf_line srv hw ht haw hcmd (by rw [List.nil_append, List.append_assoc])
  generalize TCPClient.atWrite p.lwip _ = e at hw
  have hself : w.self = s.self := hself'.trans hself
  rcases srv.answers (verb typ ++ path) e with ⟨r, hr, hd⟩ | ⟨_, r, r', hr, hd, _⟩
  · have hw : Owes srv [r] w := by rw [hr] at hw; exact hw
    obtain ⟨hok, hs', hdata, hhist⟩ := readResp_owed srv (hfits (verb typ ++ path) e r (by simp [hr])) h hw ha
    rw [if_neg hd] at hok
    exact ⟨by rw [hdata, hself], by rw [hhist, hself], .inl ⟨hok, hs'⟩⟩
  · have hw : Owes srv [r, r'] w := by rw [hr] at hw; exact hw
    obtain ⟨hok, hs', hdata, hhist⟩ := readResp_owed srv (hfits (verb typ ++ path) e r (by simp [hr])) h hw ha
    rw [if_pos hd] at hok
    exact ⟨by rw [hdata, hself], by rw [hhist, hself], .inr ⟨hok, r', hfits (verb typ ++ path) e r' (by simp [hr]), hs'⟩⟩

theorem openTransfer_opened {path : Option Bytes} {typ : FTPType} {mode : FTPTransferMode} {s : Live σ FTPClient} {u s'}
    (hno : 10 ∉ formatted path) (h : (openTransfer p path typ mode).Returns s u s') (hs : Owes srv [] s)
    (ha : srv.alive s'.env) : Opened srv s' := by
  replace h := openTransfer_opening h
  -- The object is made anew: it has no socket.
  generalize hs₀ : (⟨{ s.self with nData := {} }, s.env⟩ : Live σ FTPClient) = s₀ at h
  have hnone : s₀.self.nData.socketFd < 0 := by rw [← hs₀]; exact (by decide : (-1 : Int) < 0)
  replace hs : Owes srv [] s₀ := by rw [← hs₀]; exact hs
  have typed {v t} (h : (exchange p (commandLine "TYPE " (some (modeChar mode))) 50).Returns s₀ v t) (hat : srv.alive t.env) :
      Owes srv [] t ∧ t.self.nData.socketFd < 0 := by
    have hmode : 10 ∉ bytes "TYPE " ++ formatted (some (modeChar mode)) := by cases mode <;> decide
    obtain ⟨howes, hdata, _⟩ := exchange_plain srv hfits hmode (not_transfer rfl (by decide)) h hs hat
    exact ⟨howes, by rw [hdata]; exact hnone⟩
  cases h with
  | unnamed h =>
    obtain ⟨howes, hdata⟩ := setResponse_owes srv h hs
    exact .inl ⟨howes, by rw [hdata]; exact hnone⟩
  | untyped htype => exact .inl (typed htype ha)
  | unconnected htype hdata =>
    obtain ⟨howes, hneg⟩ := typed htype (openDataConn_lasting srv _ _ _ hdata ha)
    obtain ⟨howes, ⟨_, hkept⟩ | ⟨hone, _⟩⟩ := openDataConn_owes srv hfits hdata howes ha
    · exact .inl ⟨howes, by rw [hkept]; exact hneg⟩
    · exact absurd hone (by decide)
  | @answered _ t v' w x ok y htype hdata hne hverb hpath hend =>
    obtain ⟨hb, hsame⟩ := hend.keeps (elsewhere_same srv)
    have hay := (hsame ha).1
    have haw := ctrl_lasting srv (FTPClientBase.printf_lasting srv) _ _ _ hverb (exchange_lasting srv _ _ _ hpath hay)
    obtain ⟨howes, _⟩ := typed htype (openDataConn_lasting srv _ _ _ hdata haw)
    obtain ⟨howes, ⟨hneg, _⟩ | ⟨_, hfresh⟩⟩ := openDataConn_owes srv hfits hdata howes haw
    · exact absurd hneg hne
    obtain ⟨hkept, _, hreply⟩ := transferCommand_owes srv hfits hno hverb hpath howes hay
    rcases hend.socket with ⟨hok, hclosed⟩ | ⟨hok, hdata'⟩
    · obtain ⟨_, howes⟩ | ⟨hone, _⟩ := hreply
      · exact .inl ⟨Owes.same srv howes hb hsame ha, by rw [hclosed]; decide⟩
      · rw [hone] at hok
        exact absurd hok (by decide)
    · obtain ⟨hzero, _⟩ | ⟨_, r, hr, howes⟩ := hreply
      · exact absurd hzero hok
      · refine .inr ⟨r, ok, hr, Owes.same srv howes hb hsame ha, by rw [hdata', hkept]; exact hfresh, hok, ?_⟩
        rw [hend.recorded, hdata']
        simp

omit hfits in
/-- The end of `xfer` with no data connection. -/
theorem closeTransfer_none {rs : List Reply} {s : Live σ FTPClient} {u s'} (h : (closeTransfer p fs).Returns s u s')
    (hs : Owes srv rs s) (hneg : s.self.nData.socketFd < 0) (ha : srv.alive s'.env) : Owes srv rs s' := by
  rw [closeTransfer, returns_tell_bind, returns_obj_bind, Prog.returns_ite] at h
  rcases h with ⟨hpos, _⟩ | ⟨_, h⟩
  · exact absurd hpos (Int.not_le.mpr hneg)
  · obtain ⟨hb, _, hsame⟩ := data_keeps (destroy_elsewhere (elsewhere_same srv)) h
    exact Owes.same srv hs hb ((srv.closeFile _).trans hsame) ha

omit hfits in
/-- The end of `xfer` with a data connection: the final reply is read. -/
theorem closeTransfer_final {r : Reply} {rs : List Reply} {s : Live σ FTPClient} {u s'} (hr : r.Fits)
    (h : (closeTransfer p fs).Returns s u s') (hs : Owes srv (r :: rs) s) (hpos : 0 ≤ s.self.nData.socketFd)
    (ha : srv.alive s'.env) : Owes srv rs s' := by
  rw [closeTransfer, returns_tell_bind, returns_obj_bind, Prog.returns_ite] at h
  rcases h with ⟨_, h⟩ | ⟨hneg, _⟩
  · obtain ⟨_, t, ht, h⟩ := Prog.returns_bind.mp h
    obtain ⟨ok, w, hw, h⟩ := Prog.returns_bind.mp h
    rw [record, returns_set_bind] at h
    obtain ⟨hb, _, hsame⟩ := data_keeps (destroy_elsewhere (elsewhere_same srv)) h
    have haw := (hsame ha).1
    have hat := ctrl_lasting srv (FTPClientBase.readResp_lasting srv) _ _ _ hw haw
    obtain ⟨hb', _, hsame'⟩ := data_keeps (stop_elsewhere (elsewhere_same srv)) ht
    have ht := Owes.same srv hs hb' ((srv.closeFile _).trans hsame') hat
    obtain ⟨_, hw, _⟩ := readResp_owed srv hr hw ht haw
    exact Owes.same srv hw hb hsame ha
  · exact absurd hpos hneg

/-! ## What is recorded -/

omit hfits

/-- The record of events only grows. -/
def growing : Prog.Guarantee (Live σ FTPClient) where
  rel s s' := s.self.hist <+: s'.self.hist
  refl _ := List.prefix_refl _
  trans := List.IsPrefix.trans

theorem set_growing {f : FTPClient → FTPClient} (h : ∀ c, (f c).hist = c.hist) :
    (set f : Prog (Live σ FTPClient) Unit).Guarantees growing :=
  guarantees_set fun s => show s.self.hist <+: (f s.self).hist from h s.self ▸ List.prefix_refl _

theorem ctrl_growing {α : Type} {x : Prog (Live σ FTPClientBase) α} : (ctrl x).Guarantees growing := by
  intro s r s' h
  obtain ⟨t, _, rfl⟩ := Prog.returns_zoom.mp h
  exact List.prefix_refl _

theorem data_growing {α : Type} {x : Prog (Live σ TCPClient) α} : (data x).Guarantees growing := by
  intro s r s' h
  obtain ⟨t, _, rfl⟩ := Prog.returns_zoom.mp h
  exact List.prefix_refl _

theorem record_growing {e : FTPEvent} : (record e : Prog (Live σ FTPClient) Unit).Guarantees growing :=
  guarantees_set fun _ => ⟨[e], rfl⟩

theorem exchange_growing {line : Bytes} {c : UInt8} : (exchange p line c).Guarantees growing :=
  .bind ctrl_growing fun _ => ctrl_growing

theorem openDataConn_growing {dir : FTPDir} : (openDataConn p dir).Guarantees growing := by
  refine .bind guarantees_obj fun _ => .ite .pure (.bind exchange_growing fun _ => .ite .pure ?_)
  refine .bind guarantees_obj fun _ => .ite .pure ?_
  split
  · exact .undefined
  · exact .bind data_growing fun _ => .bind record_growing fun _ => .bind (set_growing fun _ => rfl) fun _ => .pure

theorem openTransfer_growing {path : Option Bytes} {typ : FTPType} {mode : FTPTransferMode} :
    (openTransfer p path typ mode).Guarantees growing := by
  refine .bind (set_growing fun _ => rfl) fun _ => .ite (.bind (.bind guarantees_obj fun _ => ?_) fun _ => .pure) ?_
  · split
    · exact .undefined
    · exact set_growing fun _ => rfl
  · refine .bind exchange_growing fun _ => .ite .pure (.bind openDataConn_growing fun _ => .ite .pure ?_)
    refine .bind ctrl_growing fun _ => .bind exchange_growing fun _ => .bind guarantees_obj fun _ => ?_
    exact .bind record_growing fun _ => .ite data_growing .pure

theorem upload_growing : (upload p fs).Guarantees growing := by
  refine .loop (fun _ => .bind (guarantees_call fun _ => List.prefix_refl _) fun l => ?_) _
  refine .bind record_growing fun _ => .ite .pure (.ite .undefined ?_)
  exact .bind data_growing fun _ => .bind record_growing fun _ => .ite .pure .pure

theorem download_growing : (download p fs).Guarantees growing := by
  refine .loop (fun _ => .bind data_growing fun x => .bind record_growing fun _ => .ite ?_ .pure) _
  refine .bind (guarantees_call fun _ => List.prefix_refl _) fun n => ?_
  exact .bind record_growing fun _ => .ite .pure .pure

theorem closeTransfer_growing : (closeTransfer p fs).Guarantees growing := by
  refine .bind (guarantees_tell fun _ => List.prefix_refl _) fun _ => .bind guarantees_obj fun _ => .ite ?_ data_growing
  exact .bind data_growing fun _ => .bind ctrl_growing fun _ => .bind record_growing fun _ => data_growing

theorem transfer_growing {path : Option Bytes} {typ : FTPType} {mode : FTPTransferMode} :
    (transfer p fs path typ mode).Guarantees growing := by
  refine .bind openTransfer_growing fun _ => .bind (guarantees_call fun _ => List.prefix_refl _) fun _ => ?_
  refine .bind guarantees_obj fun _ => .ite .undefined ?_
  split
  · exact .bind upload_growing fun _ => .bind closeTransfer_growing fun _ => .pure
  · exact .bind download_growing fun _ => .bind closeTransfer_growing fun _ => .pure

theorem xfer_growing {localfile path : Option Bytes} {typ : FTPType} {mode : FTPTransferMode} :
    (xfer p fs localfile path typ mode).Guarantees growing := by
  unfold xfer
  split
  · refine .bind guarantees_obj fun _ => .ite .pure ?_
    exact .bind (guarantees_tell fun _ => List.prefix_refl _) fun _ => transfer_growing
  · exact transfer_growing

/-! ## Operations and runs -/

/-- No transfer that the server accepted was without a data connection. -/
def DataConnected (s : Live σ FTPClient) : Prop := ∀ ok dataFd, .answered ok dataFd ∈ s.self.hist → ok ≠ 0 → 0 ≤ dataFd

theorem closeTransfer_lasting : (closeTransfer p fs).Guarantees (lasting srv FTPClient) := by
  have gone {x : Prog (Live σ TCPClient) Unit} (hx : x.Guarantees (outside (same srv) TCPClient)) :
      (data x).Guarantees (lasting srv FTPClient) := fun _ _ _ h ha => ((data_keeps hx h).2.2 ha).1
  refine .bind (guarantees_tell fun _ ha => (srv.closeFile _ ha).1) fun _ => .bind guarantees_obj fun _ => .ite ?_ ?_
  · refine .bind (gone (stop_elsewhere (elsewhere_same srv))) fun _ => ?_
    refine .bind (ctrl_lasting srv (FTPClientBase.readResp_lasting srv)) fun _ => ?_
    exact .bind (guarantees_set fun _ => id) fun _ => gone (destroy_elsewhere (elsewhere_same srv))
  · exact gone (destroy_elsewhere (elsewhere_same srv))

/-- The copy loop and the end of a transfer. -/
theorem finish_owes {loop : Prog (Live σ FTPClient) Int} {s t s' : Live σ FTPClient} {rv : Int} {u}
    (hloop : loop.Guarantees (aside fd (same srv))) (hlast : loop.Guarantees (lasting srv FTPClient)) (hs : srv.alive s.env → Opened srv s) (ht : loop.Returns s rv t)
    (h : (closeTransfer p fs).Returns t u s') (ha : srv.alive s'.env) (hhist : s.self.hist <+: s'.self.hist)
    (hdc : DataConnected s') : Owes srv [] s' := by
  have hat := closeTransfer_lasting srv _ _ _ h ha
  obtain ⟨hb, hd, hsame⟩ := hloop _ _ _ ht
  rcases hs (hlast _ _ _ ht hat) with ⟨howes, hneg⟩ | ⟨r, ok, hr, howes, hne, hok, hans⟩
  · have hne : s.self.nData.socketFd ≠ fd := by have := srv.fd_nonneg; omega
    exact closeTransfer_none srv h (Owes.same srv howes hb (hsame hne) hat) (by rw [hd]; exact hneg) ha
  · have hpos := hdc ok _ (hhist.subset hans) hok
    exact closeTransfer_final srv hr h (Owes.same srv howes hb (hsame hne) hat) (by rw [hd]; exact hpos) ha

theorem openTransfer_lasting {path : Option Bytes} {typ : FTPType} {mode : FTPTransferMode} :
    (openTransfer p path typ mode).Guarantees (lasting srv FTPClient) := by
  refine .bind (guarantees_set fun _ => id) fun _ => .ite (.bind (.bind guarantees_obj fun _ => ?_) fun _ => .pure) ?_
  · split
    · exact .undefined
    · exact guarantees_set fun _ => id
  · refine .bind (exchange_lasting srv) fun _ => .ite .pure (.bind (openDataConn_lasting srv) fun _ => .ite .pure ?_)
    refine .bind (ctrl_lasting srv (FTPClientBase.printf_lasting srv)) fun _ => .bind (exchange_lasting srv) fun _ => ?_
    refine .bind guarantees_obj fun _ => .bind (guarantees_set fun _ => id) fun _ => .ite ?_ .pure
    exact fun _ _ _ h ha => ((data_keeps (stop_elsewhere (elsewhere_same srv)) h).2.2 ha).1

include hfits

theorem transfer_owes {path : Option Bytes} {typ : FTPType} {mode : FTPTransferMode} {s : Live σ FTPClient} {v : Int} {s'}
    (hno : 10 ∉ formatted path) (h : (transfer p fs path typ mode).Returns s v s')
    (hs : srv.alive s.env → Owes srv [] s) (ha : srv.alive s'.env) (hdc : DataConnected s') : Owes srv [] s' := by
  obtain ⟨t, u, ht, hu, hw⟩ := transfer_parts h
  -- The allocation of the buffer changes nothing.
  generalize ht' : (⟨t.self, (p.malloc ftplibBufsiz t.env).2⟩ : Live σ FTPClient) = t' at hu
  have hopened : srv.alive t'.env → Opened srv t' := by
    subst ht'
    intro ha
    have hat := (srv.malloc _ _ ha).1
    rcases openTransfer_opened srv hfits hno ht (hs (openTransfer_lasting srv _ _ _ ht hat)) hat with
      ⟨howes, hneg⟩ | ⟨r, ok, hr, howes, hrest⟩
    · exact .inl ⟨Owes.same srv howes rfl (srv.malloc _ _) ha, hneg⟩
    · exact .inr ⟨r, ok, hr, Owes.same srv howes rfl (srv.malloc _ _) ha, hrest⟩
  have hgrow : t'.self.hist <+: u.self.hist := Prog.Guarantees.ite upload_growing download_growing _ _ _ hu
  exact finish_owes srv (loop_aside (elsewhere_same srv)) (loop_lasting srv) hopened hu hw ha
    (hgrow.trans (closeTransfer_growing _ _ _ hw)) hdc

theorem xfer_owes {localfile path : Option Bytes} {typ : FTPType} {mode : FTPTransferMode} {s : Live σ FTPClient}
    {v : Int} {s'} (hno : 10 ∉ formatted path) (h : (xfer p fs localfile path typ mode).Returns s v s')
    (hs : InSync srv s) (hdc : DataConnected s') : InSync srv s' := by
  intro ha
  cases localfile with
  | none => exact transfer_owes srv hfits hno h hs ha hdc
  | some file =>
    rw [xfer, returns_obj_bind, Prog.returns_ite] at h
    rcases h with ⟨_, h⟩ | ⟨_, h⟩
    · obtain ⟨rfl, rfl⟩ := Prog.returns_pure.mp h
      exact hs ha
    · rw [returns_tell_bind] at h
      exact transfer_owes srv hfits hno h
        (fun ha => Owes.same srv (hs (srv.openFile _ _ _ ha).1) rfl (srv.openFile _ _ _) ha) ha hdc

theorem exchange_inSync {cmd : Bytes} {c : UInt8} {s : Live σ FTPClient} {v : Int} {s'}
    (h : (exchange p (cmd ++ [13, 10]) c).Returns s v s') (hcmd : ¬ IsTransfer cmd) (hno : 10 ∉ cmd)
    (hs : InSync srv s) : InSync srv s' :=
  fun ha => (exchange_plain srv hfits hno hcmd h (hs (exchange_lasting srv _ _ _ h ha)) ha).1

omit hfits in
theorem not_mem_command {verb arg : Bytes} (hverb : 10 ∉ verb) (harg : 10 ∉ arg) : 10 ∉ verb ++ arg := by
  rw [List.mem_append]
  exact fun h => h.elim hverb harg

theorem login_inSync {user password : Option Bytes} {s : Live σ FTPClient} {v : Int} {s'}
    (hu : 10 ∉ formatted user) (hp : 10 ∉ formatted password) (h : (login p user password).Returns s v s')
    (hs : InSync srv s) : InSync srv s' := by
  obtain ⟨v', t, ht, h⟩ := Prog.returns_bind.mp h
  have ht := exchange_inSync srv hfits ht (not_transfer rfl (by decide)) (not_mem_command (by decide) hu) hs
  rw [Prog.returns_ite] at h
  rcases h with ⟨_, h⟩ | ⟨_, h⟩
  · rw [returns_obj_bind] at h
    obtain ⟨-, rfl⟩ := Prog.returns_pure.mp h
    exact ht
  · exact exchange_inSync srv hfits h (not_transfer rfl (by decide)) (not_mem_command (by decide) hp) ht

theorem rename_inSync {oldName newName : Option Bytes} {s : Live σ FTPClient} {v : Int} {s'}
    (ho : 10 ∉ formatted oldName) (hn : 10 ∉ formatted newName) (h : (rename p oldName newName).Returns s v s')
    (hs : InSync srv s) : InSync srv s' := by
  obtain ⟨v', t, ht, h⟩ := Prog.returns_bind.mp h
  have ht := exchange_inSync srv hfits ht (not_transfer rfl (by decide)) (not_mem_command (by decide) ho) hs
  rw [Prog.returns_ite] at h
  rcases h with ⟨_, h⟩ | ⟨_, h⟩
  · obtain ⟨-, rfl⟩ := Prog.returns_pure.mp h
    exact ht
  · exact exchange_inSync srv hfits h (not_transfer rfl (by decide)) (not_mem_command (by decide) hn) ht

theorem size_inSync {path : Option Bytes} {mode : FTPTransferMode} {s : Live σ FTPClient} {v : Nat} {s'}
    (hp : 10 ∉ formatted path) (h : (size p path mode).Returns s v s') (hs : InSync srv s) : InSync srv s' := by
  obtain ⟨v', t, ht, h⟩ := Prog.returns_bind.mp h
  have hmode : 10 ∉ formatted (some (modeChar mode)) := by cases mode <;> decide
  have ht := exchange_inSync srv hfits ht (not_transfer rfl (by decide)) (not_mem_command (by decide) hmode) hs
  rw [Prog.returns_ite] at h
  rcases h with ⟨_, h⟩ | ⟨_, h⟩
  · obtain ⟨-, rfl⟩ := Prog.returns_pure.mp h
    exact ht
  obtain ⟨v'', u, hu, h⟩ := Prog.returns_bind.mp h
  have hu := exchange_inSync srv hfits hu (not_transfer rfl (by decide)) (not_mem_command (by decide) hp) ht
  have : s' = u := by
    rw [Prog.returns_ite, returns_obj_bind] at h
    rcases h with ⟨_, h⟩ | ⟨_, h⟩
    · exact (Prog.returns_pure.mp h).2
    · split at h
      · exact (Prog.returns_pure.mp h).2
      · split at h <;> exact (Prog.returns_pure.mp h).2
  rw [this]
  exact hu

theorem modDate_inSync {path : Option Bytes} {s : Live σ FTPClient} {v : Bytes} {s'} (hp : 10 ∉ formatted path)
    (h : (modDate p path).Returns s v s') (hs : InSync srv s) : InSync srv s' := by
  obtain ⟨v', t, ht, h⟩ := Prog.returns_bind.mp h
  have ht := exchange_inSync srv hfits ht (not_transfer rfl (by decide)) (not_mem_command (by decide) hp) hs
  rw [Prog.returns_ite] at h
  rcases h with ⟨_, h⟩ | ⟨_, h⟩
  · exact absurd h Prog.returns_undefined
  · rw [returns_obj_bind] at h
    obtain ⟨-, rfl⟩ := Prog.returns_pure.mp h
    exact ht

end FTPClient

/-! ## Runs -/

/-- The operations of a session. -/
inductive FTPOp where
  | login (user password : Option Bytes)
  | cd (directory : Option Bytes)
  | cdup
  | mkdir (directory : Option Bytes)
  | rmdir (directory : Option Bytes)
  | rename (oldName newName : Option Bytes)
  | unlink (filename : Option Bytes)
  | size (path : Option Bytes) (mode : FTPTransferMode)
  | modDate (path : Option Bytes)
  | site (command : Option Bytes)
  | get (localfile remote : Option Bytes) (mode : FTPTransferMode)
  | put (localfile remote : Option Bytes) (mode : FTPTransferMode)
  | getList (filename path : Option Bytes)
  | getFullList (filename path : Option Bytes)

namespace FTPOp

/-- The arguments that are sent. -/
def args : FTPOp → List (Option Bytes)
  | login user password => [user, password]
  | cd a | mkdir a | rmdir a | unlink a | size a _ | modDate a | site a => [a]
  | rename a b => [a, b]
  | cdup => []
  | get _ a _ | put _ a _ | getList _ a | getFullList _ a => [a]

open FTPClient in
/-- The call, without its result. -/
def call (p : Platform σ) (fs : FTPClientDataCallback σ) : FTPOp → Prog (Live σ FTPClient) Unit
  | login user password => do let _ ← FTPClient.login p user password
  | cd a => do let _ ← FTPClient.cd p a
  | cdup => do let _ ← FTPClient.cdup p
  | mkdir a => do let _ ← FTPClient.mkdir p a
  | rmdir a => do let _ ← FTPClient.rmdir p a
  | rename a b => do let _ ← FTPClient.rename p a b
  | unlink a => do let _ ← FTPClient.unlink p a
  | size a mode => do let _ ← FTPClient.size p a mode
  | modDate a => do let _ ← FTPClient.modDate p a
  | site a => do let _ ← FTPClient.site p a
  | get f a mode => do let _ ← FTPClient.get p fs f a mode
  | put f a mode => do let _ ← FTPClient.put p fs f a mode
  | getList f a => do let _ ← FTPClient.getList p fs f a
  | getFullList f a => do let _ ← FTPClient.getFullList p fs f a

end FTPOp

/-- A run: operations one after the other, each of which returns. -/
inductive FTPRun (p : Platform σ) (fs : FTPClientDataCallback σ) :
    List FTPOp → Live σ FTPClient → Live σ FTPClient → Prop
  | nil {s} : FTPRun p fs [] s s
  | cons {op ops s t s'} : (op.call p fs).Returns s () t → FTPRun p fs ops t s' → FTPRun p fs (op :: ops) s s'

section Runs

variable (hfits : ∀ cmd e, ∀ r ∈ srv.answer cmd e, r.Fits)

theorem FTPOp.call_growing {op : FTPOp} : (op.call p fs).Guarantees FTPClient.growing := by
  have once {α : Type} {x : Prog (Live σ FTPClient) α} (hx : x.Guarantees FTPClient.growing) :
      (do let _ ← x : Prog (Live σ FTPClient) Unit).Guarantees FTPClient.growing := .bind hx fun _ => .pure
  cases op with
  | login user password =>
    exact once (.bind FTPClient.exchange_growing fun _ => .ite (.bind guarantees_obj fun _ => .pure)
      FTPClient.exchange_growing)
  | rename a b => exact once (.bind FTPClient.exchange_growing fun _ => .ite .pure FTPClient.exchange_growing)
  | size a mode =>
    refine once (.bind FTPClient.exchange_growing fun _ => .ite .pure ?_)
    refine .bind FTPClient.exchange_growing fun _ => .ite .pure (.bind guarantees_obj fun _ => ?_)
    split
    · exact .pure
    · split <;> exact .pure
  | modDate a =>
    exact once (.bind FTPClient.exchange_growing fun _ => .ite .undefined (.bind guarantees_obj fun _ => .pure))
  | cd a => exact once FTPClient.exchange_growing
  | cdup => exact once FTPClient.exchange_growing
  | mkdir a => exact once FTPClient.exchange_growing
  | rmdir a => exact once FTPClient.exchange_growing
  | unlink a => exact once FTPClient.exchange_growing
  | site a => exact once FTPClient.exchange_growing
  | get f a mode => exact once FTPClient.xfer_growing
  | put f a mode => exact once FTPClient.xfer_growing
  | getList f a => exact once FTPClient.xfer_growing
  | getFullList f a => exact once FTPClient.xfer_growing

include hfits

/-- One operation keeps the lockstep. -/
theorem FTPOp.call_inSync {op : FTPOp} {s : Live σ FTPClient} {u s'} (hargs : ∀ a ∈ op.args, 10 ∉ formatted a)
    (h : (op.call p fs).Returns s u s') (hs : FTPClient.InSync srv s) (hdc : FTPClient.DataConnected s') :
    FTPClient.InSync srv s' := by
  have once {α : Type} {x : Prog (Live σ FTPClient) α} (h : (do let _ ← x : Prog (Live σ FTPClient) Unit).Returns s u s') :
      ∃ a, x.Returns s a s' := by
    obtain ⟨a, t, hx, h⟩ := Prog.returns_bind.mp h
    obtain ⟨-, rfl⟩ := Prog.returns_pure.mp h
    exact ⟨a, hx⟩
  cases op with
  | login user password =>
    obtain ⟨_, h⟩ := once h
    exact FTPClient.login_inSync srv hfits (hargs user (by simp [args])) (hargs password (by simp [args])) h hs
  | rename a b =>
    obtain ⟨_, h⟩ := once h
    exact FTPClient.rename_inSync srv hfits (hargs a (by simp [args])) (hargs b (by simp [args])) h hs
  | size a mode =>
    obtain ⟨_, h⟩ := once h
    exact FTPClient.size_inSync srv hfits (hargs a (by simp [args])) h hs
  | modDate a =>
    obtain ⟨_, h⟩ := once h
    exact FTPClient.modDate_inSync srv hfits (hargs a (by simp [args])) h hs
  | cdup =>
    obtain ⟨v, h⟩ := once h
    have h : (FTPClient.exchange p (bytes "CDUP" ++ [13, 10]) 50).Returns s v s' := h
    exact FTPClient.exchange_inSync srv hfits h (FTPClient.not_transfer rfl (by decide)) (by decide) hs
  | cd a =>
    obtain ⟨_, h⟩ := once h
    exact FTPClient.exchange_inSync srv hfits h (FTPClient.not_transfer rfl (by decide))
      (FTPClient.not_mem_command (by decide) (hargs a (by simp [args]))) hs
  | mkdir a =>
    obtain ⟨_, h⟩ := once h
    exact FTPClient.exchange_inSync srv hfits h (FTPClient.not_transfer rfl (by decide))
      (FTPClient.not_mem_command (by decide) (hargs a (by simp [args]))) hs
  | rmdir a =>
    obtain ⟨_, h⟩ := once h
    exact FTPClient.exchange_inSync srv hfits h (FTPClient.not_transfer rfl (by decide))
      (FTPClient.not_mem_command (by decide) (hargs a (by simp [args]))) hs
  | unlink a =>
    obtain ⟨_, h⟩ := once h
    exact FTPClient.exchange_inSync srv hfits h (FTPClient.not_transfer rfl (by decide))
      (FTPClient.not_mem_command (by decide) (hargs a (by simp [args]))) hs
  | site a =>
    obtain ⟨_, h⟩ := once h
    exact FTPClient.exchange_inSync srv hfits h (FTPClient.not_transfer rfl (by decide))
      (FTPClient.not_mem_command (by decide) (hargs a (by simp [args]))) hs
  | get f a mode =>
    obtain ⟨_, h⟩ := once h
    exact FTPClient.xfer_owes srv hfits (hargs a (by simp [args])) h hs hdc
  | put f a mode =>
    obtain ⟨_, h⟩ := once h
    exact FTPClient.xfer_owes srv hfits (hargs a (by simp [args])) h hs hdc
  | getList f a =>
    obtain ⟨_, h⟩ := once h
    exact FTPClient.xfer_owes srv hfits (hargs a (by simp [args])) h hs hdc
  | getFullList f a =>
    obtain ⟨_, h⟩ := once h
    exact FTPClient.xfer_owes srv hfits (hargs a (by simp [args])) h hs hdc

omit hfits in
theorem FTPRun.growing {ops : List FTPOp} {s s' : Live σ FTPClient} (h : FTPRun p fs ops s s') :
    s.self.hist <+: s'.self.hist := by
  induction h with
  | nil => exact List.prefix_refl _
  | cons hop _ ih => exact (FTPOp.call_growing _ _ _ hop).trans ih

/-- **In every run** whose replies fit into `response` and where no transfer is
accepted without a data connection, **the client stays in lockstep** with the
server: after each operation it has consumed exactly the replies owed. -/
theorem FTPRun.inSync {ops : List FTPOp} {s s' : Live σ FTPClient} (hargs : ∀ op ∈ ops, ∀ a ∈ op.args, 10 ∉ formatted a)
    (h : FTPRun p fs ops s s') (hs : FTPClient.InSync srv s) (hdc : FTPClient.DataConnected s') :
    FTPClient.InSync srv s' := by
  induction h with
  | nil => exact hs
  | cons hop hrun ih =>
    refine ih (fun op hmem => hargs op (by simp [hmem])) ?_ hdc
    refine FTPOp.call_inSync srv hfits (hargs _ (by simp)) hop hs fun ok dataFd hmem hok => ?_
    exact hdc ok dataFd (hrun.growing.subset hmem) hok

end Runs

/-! ## A server -/

namespace FTPDemo

/-- The outside of the example: the control connection, whether the server has
no such file, and what is still to come over the data connection. -/
structure Host where
  alive : Bool := true
  line : Bytes := []
  unread : Bytes := []
  missing : Bool := false
  file : Bytes := []
  deriving DecidableEq, Repr

def ok : Reply := ⟨50, 48, 48, [], bytes "Ok", by decide, by decide, by decide⟩

def passive : Reply := ⟨50, 50, 55, [], bytes "(10,0,0,1,4,1)", by decide, by decide, by decide⟩

def opening : Reply := ⟨49, 53, 48, [], bytes "Opening", by decide, by decide, by decide⟩

def complete : Reply := ⟨50, 50, 54, [], bytes "Done", by decide, by decide, by decide⟩

def notFound : Reply := ⟨53, 53, 48, [], bytes "Not found", by decide, by decide, by decide⟩

def isTransfer (cmd : Bytes) : Bool :=
  [FTPType.dir, .dirVerbose, .fileRead, .fileWrite].any fun typ => (FTPClient.verb typ).isPrefixOf cmd

/-- Every command succeeds, but the transfer of a file that is missing. -/
def answer (cmd : Bytes) (e : Host) : List Reply :=
  if isTransfer cmd then if e.missing then [notFound] else [opening, complete]
  else if cmd = bytes "PASV" then [passive] else [ok]

def receive (e : Host) (l : Bytes) : Host :=
  if l.getLast? = some 10 then
    { e with line := [], unread := e.unread ++ renderAll (answer l.dropLast.dropLast e) }
  else { e with line := l }

/-- Socket 3 is the control connection; data connections are made with the
answer `rc`, and end with the file. -/
def lwip (rc : Int) : Lwip Host where
  inetAddr _ := 0x0100000A
  getaddrinfo _ e := (none, e)
  socket e := (4, e)
  setsockopt _ _ e := (0, e)
  connect _ _ e := (rc, e)
  shutdown _ e := e
  close _ e := e
  ioctl _ e := (some 0, e)
  select _ e := (1, e)
  recv fd n e :=
    if fd = 3 then
      match e.unread, n with
      | b :: bs, n + 1 => (.data b (bs.take n), { e with unread := bs.drop n })
      | _, _ => (.err, { e with alive := false })
    else
      match e.file, n with
      | b :: bs, n + 1 => (.data b (bs.take n), { e with file := bs.drop n })
      | _, _ => (.eof, e)
  write fd bs e := if fd = 3 then (bs.length, receive e (e.line ++ bs)) else (bs.length, e)
  fcntlNonblock _ e := e

def platform (rc : Int) : Platform Host where
  lwip := lwip rc
  tls := .steady 0
  malloc _ e := (true, e)
  millis e := (0, e)
  delay _ e := e

def files : FTPClientDataCallback Host where
  openFile _ _ e := e
  read _ e := (some [], e)
  write bs e := (bs.length, e)
  close e := e

theorem answers (cmd : Bytes) (e : Host) : Answers cmd (answer cmd e) := by
  unfold answer
  split
  · rename_i h
    obtain ⟨typ, _, htyp⟩ := List.any_eq_true.mp h
    split
    · exact .inl ⟨notFound, rfl, by decide⟩
    · exact .inr ⟨⟨typ, List.isPrefixOf_iff_prefix.mp htyp⟩, opening, complete, rfl, by decide, by decide⟩
  · split
    · exact .inl ⟨passive, rfl, by decide⟩
    · exact .inl ⟨ok, rfl, by decide⟩

theorem replies_fit : ∀ r ∈ [ok, passive, opening, complete, notFound], r.Fits := by
  intro r hr
  simp only [List.mem_cons, List.not_mem_nil, or_false] at hr
  rcases hr with rfl | rfl | rfl | rfl | rfl <;> exact fun line hline => by
    simp only [Reply.lines, ok, passive, opening, complete, notFound, List.mem_singleton] at hline
    subst hline
    decide

theorem answer_fits (cmd : Bytes) (e : Host) : ∀ r ∈ answer cmd e, r.Fits := by
  intro r hr
  refine replies_fit r ?_
  unfold answer at hr
  split at hr
  · split at hr
    · simp only [List.mem_singleton] at hr
      subst hr
      simp
    · simp only [List.mem_cons, List.not_mem_nil, or_false] at hr
      rcases hr with rfl | rfl <;> simp
  · split at hr <;> simp only [List.mem_singleton] at hr <;> subst hr <;> simp

theorem recv_alive {rc : Int} {n : Nat} {e : Host} (h : ((lwip rc).recv 3 n e).2.alive = true) :
    e.alive = true ∧ 0 < ((lwip rc).recv 3 n e).1.got.length ∧ ((lwip rc).recv 3 n e).1.got.length ≤ n ∧
      ((lwip rc).recv 3 n e).2.line = e.line ∧
      e.unread = ((lwip rc).recv 3 n e).1.got ++ ((lwip rc).recv 3 n e).2.unread := by
  obtain ⟨alive, line, unread, missing, file⟩ := e
  cases unread with
  | nil => exact absurd h (by simp [lwip])
  | cons b bs =>
    cases n with
    | zero => exact absurd h (by simp [lwip])
    | succ n => exact ⟨h, by simp [lwip, Recv.got], List.length_take_le (n + 1) (b :: bs), rfl, by simp [lwip, Recv.got]⟩

def server (rc : Int) : ControlServer (platform rc) files 3 where
  alive e := e.alive = true
  line := Host.line
  unread := Host.unread
  answer := answer
  fd_nonneg := by decide
  answers := answers
  recv _ _ h := recv_alive h
  write bs e h := by
    revert h
    simp only [platform, lwip, receive, if_true]
    split <;> exact id
  writeMore bs e hno _ := by
    have : (e.line ++ bs).getLast? ≠ some 10 := fun h => hno (List.mem_of_getLast? h)
    simp only [platform, lwip, receive, if_true, if_neg this, and_self]
  writeLine cmd bs e _ hcmd _ := by
    have hlast : (cmd ++ [13, 10]).getLast? = some 10 := by simp
    simp only [platform, lwip, receive, if_true, hcmd, hlast, dropLast_crlf, and_self]
  selected _ _ := Int.one_pos
  fresh _ _ := (by decide : (4 : Int) ≠ 3)
  socket _ ha := ⟨ha, rfl, rfl⟩
  setsockopt _ _ _ ha := ⟨ha, rfl, rfl⟩
  connect _ _ _ ha := ⟨ha, rfl, rfl⟩
  shutdown _ _ ha := ⟨ha, rfl, rfl⟩
  close _ _ ha := ⟨ha, rfl, rfl⟩
  select _ _ ha := ⟨ha, rfl, rfl⟩
  recvData fd' n e hne := by
    simp only [platform, lwip, if_neg hne]
    split <;> exact fun ha => ⟨ha, rfl, rfl⟩
  writeData fd' bs e hne := by
    simp only [platform, lwip, if_neg hne]
    exact fun ha => ⟨ha, rfl, rfl⟩
  malloc _ _ ha := ⟨ha, rfl, rfl⟩
  openFile _ _ _ ha := ⟨ha, rfl, rfl⟩
  readFile _ _ ha := ⟨ha, rfl, rfl⟩
  writeFile _ _ ha := ⟨ha, rfl, rfl⟩
  closeFile _ ha := ⟨ha, rfl, rfl⟩

/-- A client that is connected, with nothing under way. -/
def start : Live Host FTPClient := ⟨{ socketFd := 3, m_fs_cb := true }, {}⟩

theorem start_inSync (rc : Int) : FTPClient.InSync (server rc) start :=
  fun _ => ⟨rfl, ⟨List.length_replicate, List.length_replicate, rfl, Nat.zero_le _, rfl⟩, rfl,
    congrArg (· ++ []) (FTPClientBase.pending_empty rfl)⟩

def fetch : FTPOp := .get none (some (bytes "f")) .binary

/-- What `fetch` leaves. -/
def fetched (rc : Int) : Live Host FTPClient := ((fetch.call (platform rc) files).run 10 start).2

theorem fetch_returns (rc : Int) (h : ((fetch.call (platform rc) files).run 10 start).1 = .done ()) :
    FTPRun (platform rc) files [fetch] start (fetched rc) := .cons (.of_run 10 h) .nil

/-- A file is fetched over a data connection, and the two stay in lockstep. -/
theorem fetch_inSync :
    FTPRun (platform 0) files [fetch] start (fetched 0) ∧ FTPClient.InSync (server 0) (fetched 0) := by
  have run := fetch_returns 0 (by decide +kernel)
  refine ⟨run, FTPRun.inSync (server 0) answer_fits ?_ run (start_inSync 0) ?_⟩
  · decide
  · have hist : (fetched 0).self.hist = [.dataConn 4, .answered 1 4, .dataRead 0 [], .final 1] := by decide +kernel
    intro ok dataFd hmem _
    rw [hist] at hmem
    have : dataFd = 4 := by simp at hmem; exact hmem.2
    omega

/-- Without a data connection the final reply is left for the next command. -/
theorem fetch_out_of_sync :
    FTPRun (platform (-1)) files [fetch] start (fetched (-1)) ∧ ¬ FTPClient.InSync (server (-1)) (fetched (-1)) := by
  refine ⟨fetch_returns (-1) (by decide +kernel), fun h => ?_⟩
  have alive : (fetched (-1)).env.alive = true := by decide +kernel
  have owed := (h alive).stream
  revert owed
  decide +kernel

end FTPDemo

end FEmbed
