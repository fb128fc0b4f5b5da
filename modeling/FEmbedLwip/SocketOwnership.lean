/-
Which of the classes that wrap a socket own it.

Every operation that makes calls on the object's own socket keeps it
(`UsesOwn`); what remains are the operations that open and close, each of which
is described by how it can end.
-/
import FEmbedLwip.Servers
import FEmbedLwip.SocketLives
import FEmbedLwip.TCPClientFacts
import FEmbedLwip.UDPClient

namespace FEmbed

open Live
open Prog (Hoare)

variable {σ O α β : Type}

/-- A refused option of a new socket. -/
def SocketCall.Refused : SocketCall → Prop
  | .setsockopt _ (.keepAlive _) rc | .setsockopt _ (.reuseAddr _) rc => rc = -1
  | _ => False

instance : DecidablePred SocketCall.Refused
  | .setsockopt _ (.keepAlive _) rc => inferInstanceAs (Decidable (rc = -1))
  | .setsockopt _ (.reuseAddr _) rc => inferInstanceAs (Decidable (rc = -1))
  | .setsockopt _ (.sndTimeo _ _) _ | .setsockopt _ (.rcvTimeo _ _) _ | .setsockopt _ (.noDelay _) _ =>
    inferInstanceAs (Decidable False)
  | .socket _ | .adopted _ | .connect _ _ | .use _ | .close _ => inferInstanceAs (Decidable False)

/-! ## `TCPClient` -/

namespace TCPClient

inductive Ctor where
  | default
  | adopt (sockId : Int) (sa : SockAddr)
  deriving DecidableEq, Repr

inductive Op where
  | connectIp (ip port : Nat)
  | connectV4 (ip port : Nat) (timeout : Int)
  | connectHost (host : Bytes) (port : Nat)
  | connect (host : Bytes) (port : Nat) (timeout : Int)
  | setKeepAlive (time : Int)
  | write (buf : Bytes)
  | available
  | read
  | readBuf (size : Nat)
  | peek
  | flush
  | stop
  | connected
  | toBool
  | hostByName (host : Bytes)
  deriving DecidableEq, Repr

variable (net : Stack σ) (charSigned : Bool)

def construct : Ctor → Prog (Live (σ × List SocketCall) TCPClient) Unit
  | .default => set fun _ => {}
  | .adopt sockId sa => do
    tell (noted id (.adopted sockId))
    set fun _ => TCPClient.adopt sockId sa

def run : Op → Prog (Live (σ × List SocketCall) TCPClient) Unit
  | .connectIp ip port => void (TCPClient.connectIp net.recording.toLwip ip port)
  | .connectV4 ip port timeout => void (TCPClient.connectV4 net.recording.toLwip ip port timeout)
  | .connectHost host port => void (TCPClient.connectHost net.recording.toLwip host port)
  | .connect host port timeout => void (TCPClient.connect net.recording.toLwip host port timeout)
  | .setKeepAlive time => TCPClient.setKeepAlive net.recording.toLwip time
  | .write buf => void (TCPClient.write net.recording.toLwip buf)
  | .available => void (TCPClient.available net.recording.toLwip)
  | .read => void (TCPClient.read net.recording.toLwip charSigned)
  | .readBuf size => void (TCPClient.readBuf net.recording.toLwip size)
  | .peek => void TCPClient.peek
  | .flush => TCPClient.flush
  | .stop => TCPClient.stop net.recording.toLwip
  | .connected => void (TCPClient.connected net.recording.toLwip)
  | .toBool => void (obj (σ := σ × List SocketCall))
  | .hostByName host => void (TCPClient.hostByName net.recording.toLwip host)

abbrev wrapper : Wrapper σ where
  Obj := TCPClient
  Ctor := Ctor
  Op := Op
  socketFd c := c.socketFd
  construct := construct
  run := run net charSigned
  destroy := TCPClient.destroy net.recording.toLwip

variable {net : Stack σ} {charSigned : Bool} {fd : Int}

/-- The operations that connect. -/
def Op.Connects : Op → Prop
  | .connectIp _ _ | .connectV4 _ _ _ | .connectHost _ _ | .connect _ _ _ => True
  | _ => False

abbrev Uses {α : Type} (fd : Int) (x : Prog (Live (σ × List SocketCall) TCPClient) α) : Prop :=
  UsesOwn (·.socketFd) fd x

theorem uses_available : Uses fd (available net.recording.toLwip) := by
  unfold available
  refine .obj fun c hc => ?_
  subst hc
  exact .ite (.bind (.call fun _ => rfl) fun _ => .ite (.bind (.set fun _ => rfl) fun _ => .pure) .pure) .pure

theorem uses_setKeepAlive {time : Int} : Uses fd (setKeepAlive net.recording.toLwip time) := by
  unfold setKeepAlive
  refine .obj fun c hc => ?_
  subst hc
  exact .ite (.bind (.call fun _ => rfl) fun _ => .pure) .pure

theorem uses_write {buf : Bytes} : Uses fd (write net.recording.toLwip buf) := by
  unfold write
  refine .obj fun c hc => ?_
  subst hc
  refine .ite .pure (.bind (.call fun _ => rfl) fun _ => .bind (.call fun _ => rfl) fun _ => .pure)

theorem uses_read : Uses fd (TCPClient.read net.recording.toLwip charSigned) := by
  unfold TCPClient.read
  refine .obj fun c hc => ?_
  subst hc
  refine .ite .pure (.bind (.call fun _ => rfl) fun _ => .ite ?_ (.bind (.set fun _ => rfl) fun _ => .pure))
  exact .bind (.call fun _ => rfl) fun _ => .bind (.call fun _ => rfl) fun _ => .ite .pure .pure

theorem uses_readBuf {size : Nat} : Uses fd (readBuf net.recording.toLwip size) := by
  unfold readBuf
  refine .obj fun c hc => ?_
  subst hc
  refine .ite .pure (.bind (.call fun _ => rfl) fun _ => .ite ?_ (.bind (.set fun _ => rfl) fun _ => .pure))
  exact .bind (.call fun _ => rfl) fun _ => .bind (.call fun _ => rfl) fun _ => .pure

theorem uses_connected : Uses fd (connected net.recording.toLwip) := by
  unfold connected
  refine .obj fun c _ => .ite .pure (.bind uses_available fun _ => .obj fun _ _ => .pure)

variable {s s' : Live (σ × List SocketCall) TCPClient} {r timeout : Int} {ip port : Nat} {host : Bytes}

/-- How connecting ends, once an earlier socket is closed: the value, the object and the calls. -/
inductive Opened (c : TCPClient) : Int → TCPClient → List SocketCall → Prop
  | noHost {c' : TCPClient} : c'.socketFd < 0 → Opened c (-1) c' []
  | noSocket {fd : Int} : fd < 0 → Opened c (-1) { c with socketFd := fd } [.socket fd]
  /-- The socket is closed, and stays in the object. -/
  | refused {fd : Int} {k : SocketCall} {cs : List SocketCall} : 0 ≤ fd → k ∈ cs → k.Refused →
      Opened c (-1) { c with socketFd := fd } (.socket fd :: cs)
  | failed {fd : Int} {o₁ o₂ : SockOpt} {rc₁ rc₂ rc : Int} {c' : TCPClient} : 0 ≤ fd → rc₁ ≠ -1 → rc₂ ≠ -1 → rc < 0 → c'.socketFd = -2 →
      Opened c (-2) c'
        [.socket fd, .setsockopt fd o₁ rc₁, .setsockopt fd o₂ rc₂, .connect fd rc, .close fd]
  | connected {fd : Int} {o₁ o₂ : SockOpt} {rc₁ rc₂ rc : Int} {c' : TCPClient} : 0 ≤ fd → rc₁ ≠ -1 → rc₂ ≠ -1 → 0 ≤ rc → c'.socketFd = fd →
      c'._connected = true →
      Opened c fd c' [.socket fd, .setsockopt fd o₁ rc₁, .setsockopt fd o₂ rc₂, .connect fd rc]

/-- `stop`, and the destructor but for the object. -/
def stopped (net : Stack σ) (s : Live (σ × List SocketCall) TCPClient) : σ × List SocketCall :=
  if s.self.socketFd ≥ 0 then
    net.recording.close s.self.socketFd (net.recording.shutdown s.self.socketFd s.env)
  else s.env

theorem stop_returns : (stop net.recording.toLwip).Returns s () s' ↔
    s' = ⟨{ s.self with _connected := false, socketFd := -1 }, stopped net s⟩ := by
  unfold stop stopped
  rw [returns_obj_bind]
  by_cases h : s.self.socketFd ≥ 0 <;> simp [h]

theorem destroy_returns : (TCPClient.destroy net.recording.toLwip).Returns s () s' ↔ s' = ⟨s.self, stopped net s⟩ := by
  unfold TCPClient.destroy stopped
  rw [returns_obj_bind]
  by_cases h : s.self.socketFd ≥ 0 <;> simp [h]

/-- The calls that close an earlier socket. -/
def stopCalls (fd : Int) : List SocketCall := if fd ≥ 0 then [.use fd, .close fd] else []

theorem stopped_log : (stopped net s).2 = s.env.2 ++ stopCalls s.self.socketFd := by
  unfold stopped stopCalls
  by_cases hfd : s.self.socketFd ≥ 0 <;> simp [hfd, Stack.recording, Lwip.recording, noted]

theorem ledger_stopped (net : Stack σ) (h : Owns (·.socketFd) fd s) : ledger (stopped net s).2 = some [] := by
  obtain ⟨rfl, hl⟩ := h
  unfold stopped
  by_cases hfd : s.self.socketFd ≥ 0
  · rw [if_pos hfd]
    exact ledger_closed (ledger_used (c := .use s.self.socketFd) rfl hl)
  · rw [if_neg hfd, hl, own_none (Int.not_le.mp hfd)]

theorem openV4_opened (h : (openV4 net.recording.toLwip ip port timeout).Returns s r s') :
    ∃ cs, s'.env.2 = s.env.2 ++ cs ∧ Opened s.self r s'.self cs := by
  unfold openV4 at h
  obtain ⟨fd, e, h⟩ := recorded_bind h
  rw [returns_set_bind, Prog.returns_ite] at h
  rcases h with ⟨hfd, h⟩ | ⟨hfd, h⟩
  · obtain ⟨rfl, rfl⟩ := Prog.returns_pure.mp h
    exact ⟨[.socket fd], rfl, .noSocket hfd⟩
  have hfd := Int.not_lt.mp hfd
  obtain ⟨rc₁, e, h⟩ := recorded_bind h
  rw [Prog.returns_ite] at h
  rcases h with ⟨hrc₁, h⟩ | ⟨hrc₁, h⟩
  · rw [returns_tell_bind] at h
    obtain ⟨rfl, rfl⟩ := Prog.returns_pure.mp h
    refine ⟨.socket fd :: [.setsockopt fd (.keepAlive timeout) rc₁, .close fd], ?_, ?_⟩
    · simp [Stack.recording, Lwip.recording, noted]
    · exact .refused hfd List.mem_cons_self hrc₁
  obtain ⟨rc₂, e, h⟩ := recorded_bind h
  rw [Prog.returns_ite] at h
  rcases h with ⟨hrc₂, h⟩ | ⟨hrc₂, h⟩
  · rw [returns_tell_bind] at h
    obtain ⟨rfl, rfl⟩ := Prog.returns_pure.mp h
    refine ⟨.socket fd :: [.setsockopt fd (.keepAlive timeout) rc₁, .setsockopt fd (.reuseAddr 1) rc₂, .close fd], ?_, ?_⟩
    · simp [Stack.recording, Lwip.recording, noted]
    · exact .refused hfd (List.mem_cons_of_mem _ List.mem_cons_self) hrc₂
  rw [returns_set_bind] at h
  obtain ⟨rc, e, h⟩ := recorded_bind h
  rw [Prog.returns_ite] at h
  rcases h with ⟨hrc, h⟩ | ⟨hrc, h⟩
  · rw [returns_tell_bind, returns_set_bind, returns_set_bind, returns_obj_bind] at h
    obtain ⟨rfl, rfl⟩ := Prog.returns_pure.mp h
    refine ⟨[.socket fd, .setsockopt fd (.keepAlive timeout) rc₁, .setsockopt fd (.reuseAddr 1) rc₂, .connect fd rc,
      .close fd], ?_, .failed hfd hrc₁ hrc₂ hrc rfl⟩
    simp [Stack.recording, Lwip.recording, noted]
  · rw [returns_set_bind, returns_obj_bind] at h
    obtain ⟨hr, rfl⟩ := Prog.returns_pure.mp h
    have hr : r = fd := hr
    subst hr
    refine ⟨[.socket r, .setsockopt r (.keepAlive timeout) rc₁, .setsockopt r (.reuseAddr 1) rc₂, .connect r rc],
      ?_, .connected hfd hrc₁ hrc₂ (Int.not_lt.mp hrc) rfl rfl⟩
    simp

/-- What a connection that no option was refused for leaves is the object's own. -/
theorem Opened.ledger {c c' : TCPClient} {cs log : List SocketCall} (h : Opened c r c' cs)
    (hr : ∀ k ∈ cs, ¬ k.Refused) (hl : FEmbed.ledger log = some []) :
    FEmbed.ledger (log ++ cs) = some (own c'.socketFd) := by
  cases h with
  | noHost hfd => rw [List.append_nil, hl, own_none hfd]
  | noSocket hfd => simpa using ledger_opened (.inl rfl) hl
  | refused hfd hk href => exact absurd href (hr _ (List.mem_cons_of_mem _ hk))
  | @failed fd o₁ o₂ rc₁ rc₂ rc _ hfd _ _ _ hc' =>
    have h₁ : FEmbed.ledger (log ++ [.socket fd]) = some (own fd) := by simpa using ledger_opened (.inl rfl) hl
    have h₂ := ledger_used (c := .setsockopt fd o₁ rc₁) rfl h₁
    have h₃ := ledger_used (c := .setsockopt fd o₂ rc₂) rfl h₂
    have h₄ := ledger_closed (ledger_used (c := .connect fd rc) rfl h₃)
    rw [hc', own_none (by decide), ← h₄]
    simp
  | @connected _ o₁ o₂ rc₁ rc₂ rc _ hfd _ _ _ hc' =>
    have h₁ : FEmbed.ledger (log ++ [.socket r]) = some (own r) := by simpa using ledger_opened (.inl rfl) hl
    have h₂ := ledger_used (c := .setsockopt r o₁ rc₁) rfl h₁
    have h₃ := ledger_used (c := .setsockopt r o₂ rc₂) rfl h₂
    have h₄ := ledger_used (c := .connect r rc) rfl h₃
    rw [hc', ← h₄]
    simp

theorem connectV4_opened (h : (connectV4 net.recording.toLwip ip port timeout).Returns s r s') :
    ∃ c cs, s'.env.2 = s.env.2 ++ stopCalls s.self.socketFd ++ cs ∧ Opened c r s'.self cs := by
  unfold connectV4 at h
  rw [returns_obj_bind, Prog.returns_ite] at h
  rcases h with ⟨hfd, h⟩ | ⟨hfd, h⟩
  · rw [Prog.returns_bind_of (stop_returns.mpr rfl)] at h
    obtain ⟨cs, hcs, ho⟩ := openV4_opened h
    exact ⟨_, cs, by rw [hcs, stopped_log], ho⟩
  · obtain ⟨cs, hcs, ho⟩ := openV4_opened h
    exact ⟨_, cs, by simpa [stopCalls, hfd] using hcs, ho⟩

/-- From a client without a socket to what connecting makes of it. -/
theorem resolved_opened (hfd : s.self.socketFd < 0)
    (h : (do
      match ← hostByName net.recording.toLwip host with
      | none => return -1
      | some ip => connectV4 net.recording.toLwip ip port timeout :
      Prog (Live (σ × List SocketCall) TCPClient) Int).Returns s r s') :
    ∃ c cs, s'.env.2 = s.env.2 ++ cs ∧ Opened c r s'.self cs := by
  obtain ⟨ip, u, hip, h⟩ := Prog.returns_bind.mp h
  have hu : u.self = s.self ∧ u.env.2 = s.env.2 := by
    rcases hostByName_returns hip with rfl | rfl
    · exact ⟨rfl, rfl⟩
    · exact ⟨rfl, rfl⟩
  cases ip with
  | none =>
    obtain ⟨rfl, rfl⟩ := Prog.returns_pure.mp h
    refine ⟨s'.self, [], by rw [hu.2, List.append_nil], .noHost ?_⟩
    rw [hu.1]
    exact hfd
  | some ip =>
    have h : (connectV4 net.recording.toLwip ip port timeout).Returns u r s' := h
    unfold connectV4 at h
    rw [returns_obj_bind, if_neg (by rw [hu.1]; omega)] at h
    obtain ⟨cs, hcs, ho⟩ := openV4_opened h
    exact ⟨u.self, cs, by rw [hcs, hu.2], ho⟩

theorem connect_opened (h : (connect net.recording.toLwip host port timeout).Returns s r s') :
    ∃ c cs, s'.env.2 = s.env.2 ++ stopCalls s.self.socketFd ++ cs ∧ Opened c r s'.self cs := by
  unfold connect at h
  rw [returns_obj_bind, Prog.returns_ite] at h
  rcases h with ⟨hfd, h⟩ | ⟨hfd, h⟩
  · rw [Prog.returns_bind_of (stop_returns.mpr rfl), returns_set_bind] at h
    obtain ⟨c, cs, hcs, ho⟩ := resolved_opened (show (-1 : Int) < 0 by decide) h
    have hcs : s'.env.2 = (stopped net s).2 ++ cs := hcs
    exact ⟨c, cs, by rw [hcs, stopped_log], ho⟩
  · obtain ⟨c, cs, hcs, ho⟩ := resolved_opened (Int.not_le.mp hfd) h
    exact ⟨c, cs, by simpa [stopCalls, hfd] using hcs, ho⟩

/-- The operation does not connect, or no option of its new socket is refused. -/
def Tame (c : (wrapper net charSigned).Step) : Prop := Op.Connects c.op → ∀ k ∈ Wrapper.made c, ¬ k.Refused

theorem Opened.owns (net : Stack σ) {cs : List SocketCall} {c : TCPClient} (ho : Opened c r s'.self cs)
    (hlog : s'.env.2 = s.env.2 ++ stopCalls s.self.socketFd ++ cs)
    (hr : ∀ k ∈ s'.env.2.drop s.env.2.length, ¬ k.Refused) (hI : Owns (·.socketFd) s.self.socketFd s) :
    Owns (·.socketFd) s'.self.socketFd s' := by
  have hl := ledger_stopped net hI
  rw [stopped_log] at hl
  refine ⟨rfl, ?_⟩
  rw [hlog]
  refine ho.ledger (fun k hk => hr k ?_) hl
  rw [hlog, List.append_assoc, List.drop_left]
  exact List.mem_append_right _ hk

theorem construct_owns {ctor : Ctor} (h : (construct ctor).Returns s () s') (hlog : s.env.2 = []) :
    Owns (·.socketFd) s'.self.socketFd s' := by
  cases ctor with
  | default =>
    unfold construct at h
    rw [returns_set.mp h]
    refine ⟨rfl, ?_⟩
    rw [hlog]
    rfl
  | adopt sockId sa =>
    unfold construct at h
    rw [returns_tell_bind] at h
    rw [returns_set.mp h]
    refine ⟨rfl, ?_⟩
    show ledger (s.env.2 ++ [.adopted sockId]) = some (own sockId)
    rw [hlog]
    exact ledger_first (.inr rfl)

theorem run_owns {op : Op} (h : (run net charSigned op).Returns s () s')
    (ht : op.Connects → ∀ k ∈ s'.env.2.drop s.env.2.length, ¬ k.Refused)
    (hI : Owns (·.socketFd) s.self.socketFd s) : Owns (·.socketFd) s'.self.socketFd s' := by
  cases op with
  | connectIp ip port =>
    obtain ⟨r, h⟩ := returns_void.mp h
    obtain ⟨c, cs, hlog, ho⟩ := connectV4_opened h
    exact ho.owns net hlog (ht trivial) hI
  | connectV4 ip port timeout =>
    obtain ⟨r, h⟩ := returns_void.mp h
    obtain ⟨c, cs, hlog, ho⟩ := connectV4_opened h
    exact ho.owns net hlog (ht trivial) hI
  | connectHost host port =>
    obtain ⟨r, h⟩ := returns_void.mp h
    obtain ⟨c, cs, hlog, ho⟩ := connect_opened h
    exact ho.owns net hlog (ht trivial) hI
  | connect host port timeout =>
    obtain ⟨r, h⟩ := returns_void.mp h
    obtain ⟨c, cs, hlog, ho⟩ := connect_opened h
    exact ho.owns net hlog (ht trivial) hI
  | setKeepAlive time => exact UsesOwn.owns uses_setKeepAlive hI h
  | write buf => obtain ⟨_, h⟩ := returns_void.mp h; exact UsesOwn.owns uses_write hI h
  | available => obtain ⟨_, h⟩ := returns_void.mp h; exact UsesOwn.owns uses_available hI h
  | read => obtain ⟨_, h⟩ := returns_void.mp h; exact UsesOwn.owns uses_read hI h
  | readBuf size => obtain ⟨_, h⟩ := returns_void.mp h; exact UsesOwn.owns uses_readBuf hI h
  | peek => obtain ⟨_, h⟩ := returns_void.mp h; exact UsesOwn.owns .pure hI h
  | flush => exact UsesOwn.owns .pure hI h
  | stop =>
    have h := stop_returns.mp h
    rw [h]
    exact ⟨rfl, ledger_stopped net hI⟩
  | connected => obtain ⟨_, h⟩ := returns_void.mp h; exact UsesOwn.owns uses_connected hI h
  | toBool =>
    obtain ⟨_, h⟩ := returns_void.mp h
    obtain ⟨_, rfl⟩ := returns_obj.mp h
    exact hI
  | hostByName host =>
    obtain ⟨_, h⟩ := returns_void.mp h
    rcases hostByName_returns h with rfl | rfl
    · exact hI
    · exact hI

end TCPClient

/-! ## `UDPClient` -/

namespace UDPClient

inductive Op where
  | connectIp (ip port : Nat)
  | connectHost (host : Bytes) (port : Nat)
  | connect (host : Bytes) (port : Nat) (timeout : Int)
  | write (buf : Bytes)
  | available
  | read
  | readBuf (size : Nat)
  | peek
  | flush
  | stop
  | connected
  | toBool
  deriving DecidableEq, Repr

variable (net : Stack σ) (charSigned : Bool)

def run : Op → Prog (Live (σ × List SocketCall) UDPClient) Unit
  | .connectIp ip port => void (UDPClient.connectIp net.recording ip port)
  | .connectHost host port => void (UDPClient.connectHost host port)
  | .connect host port timeout => void (UDPClient.connect net.recording host port timeout)
  | .write buf => void (UDPClient.write net.recording buf)
  | .available => void (UDPClient.available net.recording)
  | .read => void (UDPClient.read net.recording charSigned)
  | .readBuf size => void (UDPClient.readBuf net.recording size)
  | .peek => void UDPClient.peek
  | .flush => UDPClient.flush
  | .stop => UDPClient.stop net.recording
  | .connected => void (UDPClient.connected net.recording)
  | .toBool => void (obj (σ := σ × List SocketCall))

abbrev wrapper : Wrapper σ where
  Obj := UDPClient
  Ctor := Unit
  Op := Op
  socketFd c := c.socketFd
  construct _ := set fun _ => {}
  run := run net charSigned
  destroy := UDPClient.destroy net.recording

variable {net : Stack σ} {charSigned : Bool} {fd : Int}
variable {s s' : Live (σ × List SocketCall) UDPClient} {r timeout : Int} {ip port : Nat} {host : Bytes}

abbrev Uses {α : Type} (fd : Int) (x : Prog (Live (σ × List SocketCall) UDPClient) α) : Prop :=
  UsesOwn (·.socketFd) fd x

theorem uses_write {buf : Bytes} : Uses fd (write net.recording buf) := by
  unfold write
  refine .obj fun c hc => ?_
  subst hc
  exact .ite .pure (.bind (.call fun _ => rfl) fun _ => .pure)

theorem uses_available : Uses fd (available net.recording) := by
  unfold available
  refine .obj fun c hc => ?_
  subst hc
  exact .ite (.bind (.call fun _ => rfl) fun _ => .pure) .pure

theorem uses_read : Uses fd (UDPClient.read net.recording charSigned) := by
  unfold UDPClient.read
  refine .obj fun c hc => ?_
  subst hc
  exact .ite .pure (.bind (.call fun _ => rfl) fun _ => .pure)

theorem uses_readBuf {size : Nat} : Uses fd (readBuf net.recording size) := by
  unfold readBuf
  refine .obj fun c hc => ?_
  subst hc
  exact .ite .pure (.bind (.call fun _ => rfl) fun _ => .pure)

theorem uses_connected : Uses fd (connected net.recording) := by
  unfold connected
  refine .obj fun c hc => ?_
  subst hc
  refine .ite .pure (.bind (.call fun _ => rfl) fun b => ?_)
  cases b with
  | none => exact .undefined
  | some errorCode => exact .pure

theorem stop_returns : (stop net.recording).Returns s () s' ↔
    s' = ⟨{ s.self with socketFd := -1 }, closedBy net.recording.close s.self.socketFd s.env⟩ := by
  unfold stop closedBy
  rw [returns_obj_bind]
  by_cases h : s.self.socketFd ≥ 0 <;> simp [h]

theorem destroy_returns : (UDPClient.destroy net.recording).Returns s () s' ↔
    s' = ⟨s.self, closedBy net.recording.close s.self.socketFd s.env⟩ := by
  unfold UDPClient.destroy closedBy
  rw [returns_obj_bind]
  by_cases h : s.self.socketFd ≥ 0 <;> simp [h]

/-- How making a socket ends: the value, the object and the calls. -/
inductive Opened (c : UDPClient) : Int → UDPClient → List SocketCall → Prop
  | noSocket {fd : Int} : fd < 0 → Opened c (-1) { c with socketFd := fd } [.socket fd]
  /-- The socket is closed, and stays in the object. -/
  | refused {fd rc : Int} : 0 ≤ fd → rc = -1 →
      Opened c (-1) { c with socketFd := fd } [.socket fd, .setsockopt fd (.keepAlive 5000) rc, .close fd]
  | made {fd rc : Int} {sa : SockAddr} : 0 ≤ fd → rc ≠ -1 →
      Opened c fd { socketFd := fd, sa := sa } [.socket fd, .setsockopt fd (.keepAlive 5000) rc]

theorem connectIp_opened (h : (connectIp net.recording ip port).Returns s r s') :
    ∃ cs, s'.env.2 = s.env.2 ++ cs ∧ Opened s.self r s'.self cs := by
  unfold connectIp connectV4 at h
  obtain ⟨fd, e, h⟩ := recorded_bind h
  rw [returns_set_bind, Prog.returns_ite] at h
  rcases h with ⟨hfd, h⟩ | ⟨hfd, h⟩
  · obtain ⟨rfl, rfl⟩ := Prog.returns_pure.mp h
    exact ⟨[.socket fd], rfl, .noSocket hfd⟩
  have hfd := Int.not_lt.mp hfd
  obtain ⟨rc, e, h⟩ := recorded_bind h
  rw [Prog.returns_ite] at h
  rcases h with ⟨hrc, h⟩ | ⟨hrc, h⟩
  · rw [returns_tell_bind] at h
    obtain ⟨rfl, rfl⟩ := Prog.returns_pure.mp h
    refine ⟨[.socket fd, .setsockopt fd (.keepAlive 5000) rc, .close fd], ?_, .refused hfd hrc⟩
    simp [Stack.recording, Lwip.recording, noted]
  · rw [returns_set_bind, returns_obj_bind] at h
    obtain ⟨hr, rfl⟩ := Prog.returns_pure.mp h
    have hr : r = fd := hr
    subst hr
    refine ⟨[.socket r, .setsockopt r (.keepAlive 5000) rc], ?_, .made hfd hrc⟩
    simp

/-- `connect(host, port)` calls itself for ever. -/
theorem connectHost_never {s s' : Live α UDPClient} : ¬ (connectHost host port).Returns s r s' := by
  intro h
  unfold connectHost at h
  refine h.loop_induct (fun _ _ => False) ?_ ?_
  · intro b t ht
    cases (Prog.returns_pure.mp ht).1
  · intro b t b' u _ _ ih
    exact ih

/-- `connect` gives the socket there is, finds no host, or makes a socket. -/
theorem connect_opened (h : (connect net.recording host port timeout).Returns s r s') :
    (0 ≤ s.self.socketFd ∧ r = s.self.socketFd ∧ s' = s) ∨
      (s.self.socketFd < 0 ∧ r = -1 ∧ s'.self = s.self ∧ s'.env.2 = s.env.2) ∨
      (s.self.socketFd < 0 ∧ ∃ cs, s'.env.2 = s.env.2 ++ cs ∧ Opened s.self r s'.self cs) := by
  unfold connect at h
  rw [returns_obj_bind, Prog.returns_ite] at h
  rcases h with ⟨hfd, h⟩ | ⟨hfd, h⟩
  · exact .inl ⟨hfd, Prog.returns_pure.mp h⟩
  have hfd := Int.not_le.mp hfd
  obtain ⟨ip, u, hip, h⟩ := Prog.returns_bind.mp h
  have hu : u.self = s.self ∧ u.env.2 = s.env.2 := by
    rcases TCPClient.hostByName_returns hip with rfl | rfl
    · exact ⟨rfl, rfl⟩
    · exact ⟨rfl, rfl⟩
  cases ip with
  | none =>
    obtain ⟨rfl, rfl⟩ := Prog.returns_pure.mp h
    exact .inr (.inl ⟨hfd, rfl, hu⟩)
  | some ip =>
    obtain ⟨cs, hcs, ho⟩ := connectIp_opened (show (connectIp net.recording ip port).Returns u r s' from h)
    rw [hu.1] at ho
    rw [hu.2] at hcs
    exact .inr (.inr ⟨hfd, cs, hcs, ho⟩)

/-- What a socket that no option was refused for leaves is the object's own. -/
theorem Opened.ledger {c c' : UDPClient} {cs log : List SocketCall} (h : Opened c r c' cs)
    (hr : ∀ k ∈ cs, ¬ k.Refused) (hl : FEmbed.ledger log = some []) :
    FEmbed.ledger (log ++ cs) = some (own c'.socketFd) := by
  cases h with
  | noSocket hfd => simpa using ledger_opened (.inl rfl) hl
  | refused hfd href => exact absurd href (hr _ (List.mem_cons_of_mem _ List.mem_cons_self))
  | @made _ rc _ hfd _ =>
    have h₁ : FEmbed.ledger (log ++ [.socket r]) = some (own r) := by simpa using ledger_opened (.inl rfl) hl
    have h₂ := ledger_used (c := .setsockopt r (.keepAlive 5000) rc) rfl h₁
    rw [← h₂]
    simp

theorem Opened.owns {cs : List SocketCall} (h : Opened s.self r s'.self cs) (hlog : s'.env.2 = s.env.2 ++ cs)
    (hr : ∀ k ∈ s'.env.2.drop s.env.2.length, ¬ k.Refused) (hfd : s.self.socketFd < 0)
    (hI : Owns (·.socketFd) s.self.socketFd s) : Owns (·.socketFd) s'.self.socketFd s' := by
  have hl : FEmbed.ledger s.env.2 = some [] := by rw [hI.2, own_none hfd]
  rw [hlog, List.drop_left] at hr
  refine ⟨rfl, ?_⟩
  rw [hlog]
  exact h.ledger hr hl

theorem run_owns {op : Op} (h : (run net charSigned op).Returns s () s')
    (ht : ∀ k ∈ s'.env.2.drop s.env.2.length, ¬ k.Refused)
    (hip : ∀ ip port, op = .connectIp ip port → s.self.socketFd < 0)
    (hI : Owns (·.socketFd) s.self.socketFd s) : Owns (·.socketFd) s'.self.socketFd s' := by
  cases op with
  | connectIp ip port =>
    obtain ⟨r, h⟩ := returns_void.mp h
    obtain ⟨cs, hlog, ho⟩ := connectIp_opened h
    exact ho.owns hlog ht (hip ip port rfl) hI
  | connectHost host port =>
    obtain ⟨r, h⟩ := returns_void.mp h
    exact absurd h connectHost_never
  | connect host port timeout =>
    obtain ⟨r, h⟩ := returns_void.mp h
    rcases connect_opened h with ⟨_, _, rfl⟩ | ⟨_, _, hself, hlog⟩ | ⟨hfd, cs, hlog, ho⟩
    · exact hI
    · refine ⟨rfl, ?_⟩
      rw [hself, hlog]
      exact hI.2
    · exact ho.owns hlog ht hfd hI
  | write buf => obtain ⟨_, h⟩ := returns_void.mp h; exact UsesOwn.owns uses_write hI h
  | available => obtain ⟨_, h⟩ := returns_void.mp h; exact UsesOwn.owns uses_available hI h
  | read => obtain ⟨_, h⟩ := returns_void.mp h; exact UsesOwn.owns uses_read hI h
  | readBuf size => obtain ⟨_, h⟩ := returns_void.mp h; exact UsesOwn.owns uses_readBuf hI h
  | peek => obtain ⟨_, h⟩ := returns_void.mp h; exact UsesOwn.owns .pure hI h
  | flush => exact UsesOwn.owns .pure hI h
  | stop =>
    rw [stop_returns.mp h]
    exact ⟨rfl, ledger_closedBy hI.2⟩
  | connected => obtain ⟨_, h⟩ := returns_void.mp h; exact UsesOwn.owns uses_connected hI h
  | toBool =>
    obtain ⟨_, h⟩ := returns_void.mp h
    obtain ⟨_, rfl⟩ := returns_obj.mp h
    exact hI

end UDPClient

/-! ## `UDPServer` -/

namespace UDPServer

inductive Op where
  | begin
  | finish
  | establish (port bindAddr : Nat)
  | write (buf : Bytes)
  | read
  | readBuf (size : Nat)
  | available
  | clientAddress
  deriving DecidableEq, Repr

variable (net : Stack σ)

def run : Op → Prog (Live (σ × List SocketCall) UDPServer) Unit
  | .begin => UDPServer.begin net.recording
  | .finish => UDPServer.finish net.recording
  | .establish port bindAddr => void (UDPServer.establish net.recording port bindAddr)
  | .write buf => void (UDPServer.write net.recording buf)
  | .read => void (UDPServer.read net.recording)
  | .readBuf size => void (UDPServer.readBuf net.recording size)
  | .available => void (UDPServer.available net.recording)
  | .clientAddress => void (obj (σ := σ × List SocketCall))

abbrev wrapper : Wrapper σ where
  Obj := UDPServer
  Ctor := Unit
  Op := Op
  socketFd c := c.socketFd
  construct _ := set fun _ => {}
  run := run net
  destroy := UDPServer.destroy net.recording

variable {net : Stack σ} {fd : Int} {s s' : Live (σ × List SocketCall) UDPServer}

abbrev Uses {α : Type} (fd : Int) (x : Prog (Live (σ × List SocketCall) UDPServer) α) : Prop :=
  UsesOwn (·.socketFd) fd x

theorem uses_establish {port bindAddr : Nat} : Uses fd (establish net.recording port bindAddr) := by
  unfold establish
  refine .bind (.set fun _ => rfl) fun _ => .obj fun c hc => ?_
  subst hc
  refine .ite .pure (.bind (.call fun _ => rfl) fun _ => .bind (.call fun _ => rfl) fun _ => .ite .pure ?_)
  exact .bind (.call fun _ => rfl) fun _ => .bind (.set fun _ => rfl) fun _ => .pure

theorem uses_write {buf : Bytes} : Uses fd (write net.recording buf) := by
  unfold write
  refine .obj fun c hc => ?_
  subst hc
  exact .bind (.call fun _ => rfl) fun _ => .pure

theorem uses_readBuf {size : Nat} : Uses fd (readBuf net.recording size) := by
  unfold readBuf
  refine .obj fun c hc => ?_
  subst hc
  exact .bind (.call fun _ => rfl) fun _ => .bind (.set fun _ => rfl) fun _ => .pure

theorem uses_read : Uses fd (UDPServer.read net.recording) := .bind uses_readBuf fun _ => .pure

theorem uses_available : Uses fd (available net.recording) := by
  unfold available
  refine .obj fun c hc => ?_
  subst hc
  exact .ite (.bind (.call fun _ => rfl) fun _ => .pure) .pure

theorem finish_returns : (finish net.recording).Returns s () s' ↔
    s' = ⟨{ s.self with socketFd := -1 }, closedBy net.recording.close s.self.socketFd s.env⟩ := by
  unfold finish closedBy
  rw [returns_obj_bind]
  by_cases h : s.self.socketFd ≥ 0 <;> simp [h]

theorem destroy_returns : (UDPServer.destroy net.recording).Returns s () s' ↔
    s' = ⟨s.self, closedBy net.recording.close s.self.socketFd s.env⟩ := by
  unfold UDPServer.destroy closedBy
  rw [returns_obj_bind]
  by_cases h : s.self.socketFd ≥ 0 <;> simp [h]

theorem begin_opened (h : (begin net.recording).Returns s () s') :
    s'.env.2 = s.env.2 ++ [.socket s'.self.socketFd] := by
  unfold begin at h
  obtain ⟨fd, e, h⟩ := recorded_bind h
  rw [returns_set] at h
  rw [h]

theorem run_owns {op : Op} (h : (run net op).Returns s () s') (ht : op = .begin → s.self.socketFd < 0)
    (hI : Owns (·.socketFd) s.self.socketFd s) : Owns (·.socketFd) s'.self.socketFd s' := by
  cases op with
  | begin =>
    have hl : ledger s.env.2 = some [] := by rw [hI.2, own_none (ht rfl)]
    refine ⟨rfl, ?_⟩
    rw [begin_opened h]
    simpa using ledger_opened (.inl rfl) hl
  | finish =>
    rw [finish_returns.mp h]
    exact ⟨rfl, ledger_closedBy hI.2⟩
  | establish port bindAddr => obtain ⟨_, h⟩ := returns_void.mp h; exact UsesOwn.owns uses_establish hI h
  | write buf => obtain ⟨_, h⟩ := returns_void.mp h; exact UsesOwn.owns uses_write hI h
  | read => obtain ⟨_, h⟩ := returns_void.mp h; exact UsesOwn.owns uses_read hI h
  | readBuf size => obtain ⟨_, h⟩ := returns_void.mp h; exact UsesOwn.owns uses_readBuf hI h
  | available => obtain ⟨_, h⟩ := returns_void.mp h; exact UsesOwn.owns uses_available hI h
  | clientAddress =>
    obtain ⟨_, h⟩ := returns_void.mp h
    obtain ⟨_, rfl⟩ := returns_obj.mp h
    exact hI

end UDPServer

/-! ## `TCPServer` -/

namespace TCPServer

inductive Ctor where
  | default
  | port (port : Nat)
  deriving DecidableEq, Repr

inductive Op where
  | begin
  | finish
  | establish (port bindAddr : Nat)
  | accept
  | available
  deriving DecidableEq, Repr

variable (net : Stack σ)

def construct : Ctor → Prog (Live (σ × List SocketCall) TCPServer) Unit
  | .default => set fun _ => {}
  | .port port => TCPServer.constructPort net.recording port

def run : Op → Prog (Live (σ × List SocketCall) TCPServer) Unit
  | .begin => TCPServer.begin net.recording
  | .finish => TCPServer.finish net.recording
  | .establish port bindAddr => void (TCPServer.establish net.recording port bindAddr)
  | .accept => void (TCPServer.accept net.recording)
  | .available => void (TCPServer.available net.recording)

abbrev wrapper : Wrapper σ where
  Obj := TCPServer
  Ctor := Ctor
  Op := Op
  socketFd c := c.socketFd
  construct := construct net
  run := run net
  destroy := TCPServer.destroy

variable {net : Stack σ} {fd : Int} {s s' : Live (σ × List SocketCall) TCPServer}

abbrev Uses {α : Type} (fd : Int) (x : Prog (Live (σ × List SocketCall) TCPServer) α) : Prop :=
  UsesOwn (·.socketFd) fd x

theorem uses_establish {port bindAddr : Nat} : Uses fd (establish net.recording port bindAddr) := by
  unfold establish
  refine .bind (.set fun _ => rfl) fun _ => .obj fun c hc => ?_
  subst hc
  refine .ite .pure (.bind (.call fun _ => rfl) fun _ => .bind (.call fun _ => rfl) fun _ => ?_)
  exact .bind (.call fun _ => rfl) fun _ => .ite .pure (.bind (.call fun _ => rfl) fun _ => .ite .pure .pure)

theorem uses_accept : Uses fd (accept net.recording) := by
  unfold accept
  refine .obj fun c hc => ?_
  subst hc
  refine .ite (.bind (.call fun _ => rfl) fun r => .bind (.set fun _ => rfl) fun _ => ?_) .pure
  exact .ite (.obj fun _ _ => .pure) .pure

theorem uses_serverAvailable : Uses fd (TCPServer.available net.recording) := .bind uses_accept fun _ => .pure

theorem begin_opened (h : (begin net.recording).Returns s () s') :
    s'.env.2 = s.env.2 ++ [.socket s'.self.socketFd] := by
  unfold begin at h
  obtain ⟨fd, e, h⟩ := recorded_bind h
  rw [returns_set] at h
  rw [h]

theorem finish_returns : (finish net.recording).Returns s () s' ↔
    s' = ⟨s.self, closedBy net.recording.close s.self.socketFd s.env⟩ := by
  unfold finish closedBy
  rw [returns_obj_bind]
  by_cases h : s.self.socketFd ≥ 0 <;> simp [h]

theorem establish_grows {port bindAddr : Nat} : Prog.Guarantees grows (establish net.recording port bindAddr) := by
  unfold establish
  refine .bind set_grows fun _ => .bind guarantees_obj fun _ => .ite .pure ?_
  refine .bind call_grows fun _ => .bind call_grows fun _ => .bind call_grows fun _ => .ite .pure ?_
  exact .bind call_grows fun _ => .ite .pure .pure

/-- The constructor with a port leaves the descriptor it got, which is on record. -/
theorem constructPort_opened {port : Nat} (h : (constructPort net.recording port).Returns s () s')
    (hlog : s.env.2 = []) : .socket s'.self.socketFd ∈ s'.env.2 ∧ Owns (·.socketFd) s'.self.socketFd s' := by
  unfold constructPort at h
  rw [returns_set_bind] at h
  obtain ⟨⟨⟩, t, ht, h⟩ := Prog.returns_bind.mp h
  have hopened := begin_opened ht
  have hl : ledger t.env.2 = some (own t.self.socketFd) := by
    rw [hopened, hlog]
    exact ledger_first (.inl rfl)
  obtain ⟨_, h⟩ := returns_void.mp (show (void (establish net.recording port 0)).Returns t () s' from h)
  have hs : s'.self.socketFd = t.self.socketFd := (uses_establish.returns ⟨rfl, hl⟩ h).1
  refine ⟨?_, UsesOwn.owns uses_establish ⟨rfl, hl⟩ h⟩
  rw [hs]
  refine (establish_grows t _ s' h).subset ?_
  rw [hopened]
  exact List.mem_append_right _ (List.mem_singleton_self _)

/-- Without a descriptor, the server owns it and nothing. -/
def Idle (s : Live (σ × List SocketCall) TCPServer) : Prop :=
  s.self.socketFd < 0 ∧ Owns (·.socketFd) s.self.socketFd s

theorem construct_idle {ctor : Ctor} (h : (construct net ctor).Returns s () s') (hlog : s.env.2 = [])
    (hborn : ∀ fd, .socket fd ∈ s'.env.2 → fd < 0) : Idle s' := by
  cases ctor with
  | default =>
    unfold construct at h
    rw [returns_set.mp h]
    refine ⟨show (-1 : Int) < 0 by decide, rfl, ?_⟩
    rw [hlog]
    rfl
  | port port =>
    obtain ⟨hmem, ho⟩ := constructPort_opened h hlog
    exact ⟨hborn _ hmem, ho⟩

/-- While no call gives a descriptor, there is none. -/
theorem run_idle {op : Op} (h : (run net op).Returns s () s')
    (ht : ∀ fd, .socket fd ∈ s'.env.2.drop s.env.2.length → fd < 0) (hI : Idle s) : Idle s' := by
  obtain ⟨hfd, ho⟩ := hI
  have hkeep : ∀ {α : Type} {x : Prog (Live (σ × List SocketCall) TCPServer) α} {a : α},
      Uses s.self.socketFd x → x.Returns s a s' → Idle s' := by
    intro α x a hx hr
    have hs := (hx.returns ho hr).1
    refine ⟨?_, UsesOwn.owns hx ho hr⟩
    have hs : s'.self.socketFd = s.self.socketFd := hs
    omega
  cases op with
  | begin =>
    have hlog := begin_opened h
    have hneg : s'.self.socketFd < 0 := by
      refine ht _ ?_
      rw [hlog, List.drop_left]
      exact List.mem_singleton_self _
    have hl : ledger s.env.2 = some [] := by rw [ho.2, own_none hfd]
    refine ⟨hneg, rfl, ?_⟩
    rw [hlog]
    simpa using ledger_opened (.inl rfl) hl
  | finish =>
    have hs := finish_returns.mp h
    unfold closedBy at hs
    rw [if_neg (Int.not_le.mpr hfd)] at hs
    rw [hs]
    exact ⟨hfd, ho⟩
  | establish port bindAddr => obtain ⟨_, h⟩ := returns_void.mp h; exact hkeep uses_establish h
  | accept => obtain ⟨_, h⟩ := returns_void.mp h; exact hkeep uses_accept h
  | available => obtain ⟨_, h⟩ := returns_void.mp h; exact hkeep uses_serverAvailable h

/-- The order a listening server is meant to be used in: whether it is open
before the operation and after. -/
def Op.next : Bool → Op → Option Bool
  | false, .begin => some true
  | true, .finish => some false
  | true, .establish _ _ | true, .accept | true, .available => some true
  | _, _ => none

/-- What is open, for a server that is open or not. -/
def Kept (isOpen : Bool) (s : Live (σ × List SocketCall) TCPServer) : Prop :=
  ledger s.env.2 = some (if isOpen then own s.self.socketFd else [])

/-- The constructor with a port begins. -/
def Ctor.begins : Ctor → Bool
  | .default => false
  | .port _ => true

theorem construct_kept {ctor : Ctor} (h : (construct net ctor).Returns s () s') (hlog : s.env.2 = []) :
    Kept ctor.begins s' := by
  cases ctor with
  | default =>
    unfold construct at h
    rw [returns_set.mp h]
    show ledger s.env.2 = some []
    rw [hlog]
    rfl
  | port port => exact (constructPort_opened h hlog).2.2

theorem run_kept {op : Op} {o o' : Bool} (h : (run net op).Returns s () s') (hn : op.next o = some o')
    (hI : Kept o s) : Kept o' s' := by
  have hkeep : ∀ {α : Type} {x : Prog (Live (σ × List SocketCall) TCPServer) α} {a : α},
      Uses s.self.socketFd x → x.Returns s a s' → Kept true s → Kept true s' := by
    intro α x a hx hr hs
    exact (UsesOwn.owns hx ⟨rfl, hs⟩ hr).2
  cases op with
  | begin =>
    cases o with
    | true => cases hn
    | false =>
      cases hn
      have hlog := begin_opened h
      have hl : ledger s.env.2 = some [] := hI
      show ledger s'.env.2 = some (own s'.self.socketFd)
      rw [hlog]
      simpa using ledger_opened (.inl rfl) hl
  | finish =>
    cases o with
    | false => cases hn
    | true =>
      cases hn
      rw [finish_returns.mp h]
      exact ledger_closedBy hI
  | establish port bindAddr =>
    obtain ⟨_, h⟩ := returns_void.mp h
    cases o with
    | false => cases hn
    | true => cases hn; exact hkeep uses_establish h hI
  | accept =>
    obtain ⟨_, h⟩ := returns_void.mp h
    cases o with
    | false => cases hn
    | true => cases hn; exact hkeep uses_accept h hI
  | available =>
    obtain ⟨_, h⟩ := returns_void.mp h
    cases o with
    | false => cases hn
    | true => cases hn; exact hkeep uses_serverAvailable h hI

end TCPServer

/-! ## Lives -/

section Lives

variable {net : Stack σ} {charSigned : Bool}

/-- No option of a new socket is refused, and `connect(ip, port)` is not called
on a client that has a socket. -/
def UDPClient.Tame (c : (UDPClient.wrapper net charSigned).Step) : Prop :=
  (∀ k ∈ Wrapper.made c, ¬ k.Refused) ∧
    ∀ ip port, c.op = .connectIp ip port → c.before.self.socketFd < 0

/-- `begin` is not called on a server that has a socket. -/
def UDPServer.Tame (c : (UDPServer.wrapper net).Step) : Prop :=
  c.op = .begin → c.before.self.socketFd < 0

/-- No descriptor is given. -/
def TCPServer.Tame (c : (TCPServer.wrapper net).Step) : Prop := ∀ fd, .socket fd ∈ Wrapper.made c → fd < 0

theorem TCPClient.life_owned (l : (TCPClient.wrapper net charSigned).Life) (ht : ∀ c ∈ l.steps, TCPClient.Tame c) :
    Wrapper.Owned l := by
  refine l.owned TCPClient.Tame _ (fun _ h => h) ?_ (fun c hr ht hI => TCPClient.run_owns hr ht hI) ?_ ht
  · exact TCPClient.construct_owns l.constructs l.unrecorded
  · intro h
    rw [TCPClient.destroy_returns.mp l.destroys]
    exact TCPClient.ledger_stopped net h

theorem UDPClient.life_owned (l : (UDPClient.wrapper net charSigned).Life) (ht : ∀ c ∈ l.steps, UDPClient.Tame c) :
    Wrapper.Owned l := by
  refine l.owned UDPClient.Tame _ (fun _ h => h) ?_ (fun c hr ht hI => UDPClient.run_owns hr ht.1 ht.2 hI) ?_ ht
  · have h : (set fun _ => ({} : UDPClient)).Returns l.raw () l.born := l.constructs
    rw [returns_set.mp h]
    refine ⟨rfl, ?_⟩
    rw [l.unrecorded]
    rfl
  · intro h
    rw [UDPClient.destroy_returns.mp l.destroys]
    exact ledger_closedBy h.2

theorem UDPServer.life_owned (l : (UDPServer.wrapper net).Life) (ht : ∀ c ∈ l.steps, UDPServer.Tame c) :
    Wrapper.Owned l := by
  refine l.owned UDPServer.Tame _ (fun _ h => h) ?_ (fun c hr ht hI => UDPServer.run_owns hr ht hI) ?_ ht
  · have h : (set fun _ => ({} : UDPServer)).Returns l.raw () l.born := l.constructs
    rw [returns_set.mp h]
    refine ⟨rfl, ?_⟩
    rw [l.unrecorded]
    rfl
  · intro h
    rw [UDPServer.destroy_returns.mp l.destroys]
    exact ledger_closedBy h.2

theorem TCPServer.life_owned (l : (TCPServer.wrapper net).Life) (hborn : ∀ fd, .socket fd ∈ l.born.env.2 → fd < 0)
    (ht : ∀ c ∈ l.steps, TCPServer.Tame c) : Wrapper.Owned l := by
  refine l.owned TCPServer.Tame TCPServer.Idle (fun _ h => h.2) ?_ (fun c hr ht hI => TCPServer.run_idle hr ht hI) ?_ ht
  · exact TCPServer.construct_idle l.constructs l.unrecorded hborn
  · intro h
    rw [(Prog.returns_pure.mp l.destroys).2, h.2.2, own_none h.1]

/-- A server that is used in order, and closed in the end, closes what it opened. -/
theorem TCPServer.life_settled (l : (TCPServer.wrapper net).Life)
    (hops : (l.steps.map (·.op)).foldlM TCPServer.Op.next l.ctor.begins = some false) :
    Wrapper.Settled l := by
  have run : ∀ {s s' : Live (σ × List SocketCall) TCPServer} {cs : List (TCPServer.wrapper net).Step} {o o' : Bool},
      Prog.Calls (TCPServer.wrapper net).run s cs s' → (cs.map (·.op)).foldlM TCPServer.Op.next o = some o' →
      TCPServer.Kept o s → TCPServer.Kept o' s' := by
    intro s s' cs o o' h
    induction h generalizing o with
    | nil =>
      intro ho hI
      cases ho
      exact hI
    | @cons c cs s' hc _ ih =>
      intro ho hI
      rw [List.map_cons, List.foldlM_cons, Option.bind_eq_bind, Option.bind_eq_some_iff] at ho
      obtain ⟨o₁, h₁, ho⟩ := ho
      exact ih ho (TCPServer.run_kept hc h₁ hI)
  refine l.settled ?_
  rw [(Prog.returns_pure.mp l.destroys).2]
  exact run l.runs hops (TCPServer.construct_kept l.constructs l.unrecorded)

/-- **The classes own their sockets** as long as: of a `TCPClient` and a
`UDPClient`, no option of a new socket is refused, and a `UDPClient` is not
connected to an address while it has a socket; a `UDPServer` does not begin
while it has one; a `TCPServer` is never given one. A `TCPServer` that is used in
order at least closes each once. -/
theorem sockets_owned (net : Stack σ) (charSigned : Bool) :
    (∀ l : (TCPClient.wrapper net charSigned).Life, (∀ c ∈ l.steps, TCPClient.Tame c) → Wrapper.Owned l) ∧
    (∀ l : (UDPClient.wrapper net charSigned).Life, (∀ c ∈ l.steps, UDPClient.Tame c) → Wrapper.Owned l) ∧
    (∀ l : (UDPServer.wrapper net).Life, (∀ c ∈ l.steps, UDPServer.Tame c) → Wrapper.Owned l) ∧
    (∀ l : (TCPServer.wrapper net).Life, (∀ fd, .socket fd ∈ l.born.env.2 → fd < 0) →
      (∀ c ∈ l.steps, TCPServer.Tame c) → Wrapper.Owned l) ∧
    ∀ l : (TCPServer.wrapper net).Life,
      (l.steps.map (·.op)).foldlM TCPServer.Op.next l.ctor.begins = some false → Wrapper.Settled l :=
  ⟨TCPClient.life_owned, UDPClient.life_owned, UDPServer.life_owned, TCPServer.life_owned, TCPServer.life_settled⟩

end Lives

/-! ## Lives that own, and lives that do not -/

namespace SocketDemo

/-- A stack that numbers its sockets, where every call succeeds but
`setsockopt`, which gives `rc`. -/
def stack (rc : Int) : Stack Nat where
  inetAddr _ := 0x0100007F
  getaddrinfo _ n := (none, n)
  socket n := (n, n + 1)
  setsockopt _ _ n := (rc, n)
  connect _ _ n := (0, n)
  shutdown _ n := n
  close _ n := n
  ioctl _ n := (some 0, n)
  select _ n := (1, n)
  recv _ _ n := (.eof, n)
  write _ bs n := (bs.length, n)
  fcntlNonblock _ n := n
  sendto _ bs _ n := (bs.length, n)
  recvfrom _ _ n := (⟨.eof, none⟩, n)
  bind _ _ n := (0, n)
  listen _ _ n := (0, n)
  accept _ n := ((-1, none), n)
  getsockname _ n := ((0, none), n)
  soError _ n := (some 0, n)

/-- Connected, stopped and connected again. -/
def tcpClient (rc : Int) (h : rc = 0 ∨ rc = -1) : (TCPClient.wrapper (stack rc) true).Life :=
  Wrapper.lifeOf _ 1 .default {} 3 [.connectV4 1 80 5000, .stop, .connectV4 1 80 5000]
    rfl (by rcases h with rfl | rfl <;> rfl) (by rcases h with rfl | rfl <;> rfl)

/-- Connected by name and asked, and stopped, or connected to an address instead. -/
def udpClient (again : Bool) : (UDPClient.wrapper (stack 0) true).Life :=
  Wrapper.lifeOf _ 1 () {} 3 [.connect [] 80 5000, .connected, if again then .connectIp 1 80 else .stop]
    rfl (by cases again <;> rfl) (by cases again <;> rfl)

/-- Begun, bound and ended, or begun again instead. -/
def udpServer (again : Bool) : (UDPServer.wrapper (stack 0)).Life :=
  Wrapper.lifeOf _ 1 () {} 3 [.begin, .establish 80 0, if again then .begin else .finish]
    rfl (by cases again <;> rfl) (by cases again <;> rfl)

/-- Made for a port and asked for clients, and ended or not. -/
def tcpServer (ended : Bool) : (TCPServer.wrapper (stack 0)).Life :=
  Wrapper.lifeOf _ 1 (.port 80) {} 3 [.accept, if ended then .finish else .accept]
    rfl (by cases ended <;> rfl) (by cases ended <;> rfl)

/-- Made and destroyed. -/
def idleServer : (TCPServer.wrapper (stack 0)).Life := Wrapper.lifeOf _ 1 .default {} 3 [] rfl rfl rfl

/-- Lives of every class that meet the conditions. -/
theorem lives_owned :
    Wrapper.Owned (tcpClient 0 (.inl rfl)) ∧ Wrapper.Owned (udpClient false) ∧ Wrapper.Owned (udpServer false) ∧
      Wrapper.Owned idleServer ∧ Wrapper.Settled (tcpServer true) := by
  obtain ⟨tcp, udp, server, idle, settled⟩ := sockets_owned (stack 0) true
  have htcp : ∀ c ∈ (tcpClient 0 (.inl rfl)).steps, ∀ k ∈ Wrapper.made c, ¬ k.Refused := by decide
  have hudp : ∀ c ∈ (udpClient false).steps, ∀ k ∈ Wrapper.made c, ¬ k.Refused := by decide
  refine ⟨tcp _ fun c hc _ => htcp c hc, udp _ fun c hc => ⟨hudp c hc, ?_⟩, server _ ?_, idle _ ?_ ?_, settled _ rfl⟩
  · intro ip port hop
    rcases List.mem_cons.mp hc with rfl | hc
    · cases hop
    rcases List.mem_cons.mp hc with rfl | hc
    · cases hop
    rcases List.mem_cons.mp hc with rfl | hc
    · cases hop
    · cases hc
  · intro c hc hop
    rcases List.mem_cons.mp hc with rfl | hc
    · exact show (-1 : Int) < 0 by decide
    rcases List.mem_cons.mp hc with rfl | hc
    · cases hop
    rcases List.mem_cons.mp hc with rfl | hc
    · cases hop
    · cases hc
  · intro fd hfd
    cases hfd
  · intro c hc
    cases hc

/-- A refused option leaves the closed socket in a `TCPClient`, which closes it
again; a `UDPClient` and a `UDPServer` forget the socket they have; a `TCPServer`
never closes its own. -/
theorem not_owned :
    ¬ Wrapper.Owned (tcpClient (-1) (.inr rfl)) ∧ ¬ Wrapper.Owned (udpClient true) ∧
      ¬ Wrapper.Owned (udpServer true) ∧ ¬ Wrapper.Owned (tcpServer false) := by
  refine ⟨fun h => ?_, fun h => ?_, fun h => ?_, fun h => ?_⟩
  · exact absurd (h.closedOnce 3) (by decide)
  · exact absurd (h.closedOnce 3) (by decide)
  · exact absurd (h.closedOnce 3) (by decide)
  · exact absurd (h.closedOnce 3) (by decide)

end SocketDemo

end FEmbed
