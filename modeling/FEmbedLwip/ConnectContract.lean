/-
The contract of `connect` that `TCPClient.h` documents, "<0 indicate error, else
connected OK", and what the three clients make of it.

Each client has its list of ways a `connect` can end; the contract is held
against every one of them. A `TCPClient` meets it unless an option of the new
socket is refused, a `UDPClient` only from a closed socket and never through
`connect(host, port)`, a `TCPClientSecure` only when it succeeds.
-/
import FEmbedLwip.SocketOwnership
import FEmbedLwip.SecureFacts

namespace FEmbed

open Live

variable {σ : Type}

/-- `connect` returned `r` and left `s`: `r` is negative exactly when no
connection was established, and both ways to ask the object say the same. -/
structure Contract {O : Type} (toBool connected : Prog (Live σ O) Bool) (established : Prop) (r : Int)
    (s : Live σ O) : Prop where
  negative : r < 0 ↔ ¬ established
  toBool : ∃ t, toBool.Returns s (decide (0 ≤ r)) t
  connected : ∃ t, connected.Returns s (decide (0 ≤ r)) t

/-- The calls on sockets between two states. -/
def callsBetween {O : Type} (s s' : Live (σ × List SocketCall) O) : List SocketCall := s'.env.2.drop s.env.2.length

/-! ## `TCPClient` -/

namespace TCPClient

variable {net : Stack σ} {s s' : Live (σ × List SocketCall) TCPClient} {r timeout : Int} {host : Bytes} {port : Nat}

/-- `lwip_connect` succeeded. -/
def Established (calls : List SocketCall) : Prop := ∃ fd rc, .connect fd rc ∈ calls ∧ 0 ≤ rc

/-- `operator bool`, as a program. -/
def asBool : Prog (Live σ TCPClient) Bool := return toBool (← obj)

theorem asBool_returns {s t : Live σ TCPClient} {b : Bool} : asBool.Returns s b t ↔ b = toBool s.self ∧ t = s := by
  unfold asBool
  rw [returns_obj_bind, Prog.returns_pure]

theorem connected_closed (net : Stack σ) (hfd : s.self.socketFd < 0) : (connected net.recording.toLwip).Returns s false s := by
  unfold connected
  rw [returns_obj_bind, if_pos hfd]
  exact Prog.returns_pure.mpr ⟨rfl, rfl⟩

/-- With a socket, the flag says it, unless `FIONREAD` gives a negative number. -/
theorem connected_open (net : Stack σ) (hfd : 0 ≤ s.self.socketFd) (hc : s.self._connected = true) :
    ∃ t, (connected net.recording.toLwip).Returns s
      (decide (0 ≤ (net.ioctl s.self.socketFd s.env.1).1.getD 0)) t := by
  have hneg : ¬ s.self.socketFd < 0 := Int.not_lt.mpr hfd
  by_cases hrc : (net.ioctl s.self.socketFd s.env.1).1.getD 0 < 0
  · have hav : (available net.recording.toLwip).Returns s 0
        ⟨{ s.self with _connected := false }, (net.recording.ioctl s.self.socketFd s.env).2⟩ :=
      available_returns.mpr (.inl ⟨hfd, hrc, rfl, rfl⟩)
    refine ⟨⟨{ s.self with _connected := false }, (net.recording.ioctl s.self.socketFd s.env).2⟩, ?_⟩
    unfold connected
    rw [returns_obj_bind, if_neg hneg, Prog.returns_bind_of hav, returns_obj_bind]
    refine Prog.returns_pure.mpr ⟨?_, rfl⟩
    simp [Int.not_le.mpr hrc]
  · have hav : (available net.recording.toLwip).Returns s ((net.ioctl s.self.socketFd s.env.1).1.getD 0)
        ⟨s.self, (net.recording.ioctl s.self.socketFd s.env).2⟩ :=
      available_returns.mpr (.inr (.inl ⟨hfd, hrc, rfl, rfl⟩))
    refine ⟨⟨s.self, (net.recording.ioctl s.self.socketFd s.env).2⟩, ?_⟩
    unfold connected
    rw [returns_obj_bind, if_neg hneg, Prog.returns_bind_of hav, returns_obj_bind]
    refine Prog.returns_pure.mpr ⟨?_, rfl⟩
    simp [Int.not_lt.mp hrc, hc]

theorem not_refused_stopCalls {fd : Int} {k : SocketCall} (hk : k ∈ stopCalls fd) :
    ¬ k.Refused ∧ ∀ fd' rc, k ≠ .connect fd' rc := by
  unfold stopCalls at hk
  split at hk
  · simp only [List.mem_cons, List.not_mem_nil, or_false] at hk
    rcases hk with rfl | rfl
    · exact ⟨id, nofun⟩
    · exact ⟨id, nofun⟩
  · cases hk

theorem not_refused_of_ne {fd rc : Int} {o : SockOpt} (h : rc ≠ -1) : ¬ (SocketCall.setsockopt fd o rc).Refused := by
  cases o <;> simp [SocketCall.Refused, h]

/-- The ends of a `connect`, by what its caller sees. -/
theorem opened_cases {c c' : TCPClient} {cs : List SocketCall} (h : Opened c r c' cs) :
    (r < 0 ∧ c'.socketFd < 0 ∧ (∀ k ∈ cs, ¬ k.Refused) ∧ ∀ fd rc, .connect fd rc ∈ cs → rc < 0) ∨
      (r < 0 ∧ 0 ≤ c'.socketFd ∧ ∃ k ∈ cs, k.Refused) ∨
      (0 ≤ r ∧ c'.socketFd = r ∧ c'._connected = true ∧ (∀ k ∈ cs, ¬ k.Refused) ∧
        ∃ rc, 0 ≤ rc ∧ ∀ fd rc', .connect fd rc' ∈ cs ↔ fd = r ∧ rc' = rc) := by
  cases h with
  | noHost hfd =>
    refine .inl ⟨by decide, hfd, fun k hk => ?_, fun fd rc hk => ?_⟩
    · cases hk
    · cases hk
  | noSocket hfd =>
    refine .inl ⟨by decide, hfd, fun k hk => ?_, fun fd rc hk => ?_⟩
    · rw [List.mem_singleton.mp hk]
      exact id
    · cases List.mem_singleton.mp hk
  | refused hfd hk href => exact .inr (.inl ⟨by decide, hfd, _, List.mem_cons_of_mem _ hk, href⟩)
  | failed hfd hrc₁ hrc₂ hrc hc' =>
    refine .inl ⟨by decide, by rw [hc']; decide, fun k hk => ?_, fun fd rc hk => ?_⟩
    · simp only [List.mem_cons, List.not_mem_nil, or_false] at hk
      rcases hk with rfl | rfl | rfl | rfl | rfl
      · exact id
      · exact not_refused_of_ne hrc₁
      · exact not_refused_of_ne hrc₂
      · exact id
      · exact id
    · simp only [List.mem_cons, List.not_mem_nil, reduceCtorEq, false_or, or_false, SocketCall.connect.injEq] at hk
      rw [hk.2]
      exact hrc
  | @connected _ o₁ o₂ rc₁ rc₂ rc _ hfd hrc₁ hrc₂ hrc hc' hflag =>
    refine .inr (.inr ⟨hfd, hc', hflag, fun k hk => ?_, rc, hrc, fun fd rc' => ?_⟩)
    · simp only [List.mem_cons, List.not_mem_nil, or_false] at hk
      rcases hk with rfl | rfl | rfl | rfl
      · exact id
      · exact not_refused_of_ne hrc₁
      · exact not_refused_of_ne hrc₂
      · exact id
    · simp

/-- What the contract asks of a `connect`: no option of the new socket is
refused, and the socket that was connected does not have a negative number of bytes. -/
def Fit (net : Stack σ) (s s' : Live (σ × List SocketCall) TCPClient) : Prop :=
  (∀ k ∈ callsBetween s s', ¬ k.Refused) ∧
    ∀ fd rc, .connect fd rc ∈ callsBetween s s' → 0 ≤ rc → 0 ≤ (net.ioctl fd s'.env.1).1.getD 0

theorem contract_of_opened {c : TCPClient} {cs : List SocketCall} (h : Opened c r s'.self cs)
    (hcalls : callsBetween s s' = stopCalls s.self.socketFd ++ cs) :
    Contract asBool (connected net.recording.toLwip) (Established (callsBetween s s')) r s' ↔ Fit net s s' := by
  have hmem : ∀ k, k ∈ callsBetween s s' ↔ k ∈ stopCalls s.self.socketFd ∨ k ∈ cs := by
    intro k
    rw [hcalls, List.mem_append]
  have hconn : ∀ fd rc, .connect fd rc ∈ callsBetween s s' ↔ .connect fd rc ∈ cs := by
    intro fd rc
    rw [hmem]
    exact ⟨fun h => h.resolve_left fun hk => (not_refused_stopCalls hk).2 fd rc rfl, .inr⟩
  have href : (∀ k ∈ callsBetween s s', ¬ k.Refused) ↔ ∀ k ∈ cs, ¬ k.Refused := by
    refine ⟨fun h k hk => h k ((hmem k).mpr (.inr hk)), fun h k hk => ?_⟩
    rcases (hmem k).mp hk with hk | hk
    · exact (not_refused_stopCalls hk).1
    · exact h k hk
  simp only [Fit, Established, hconn, href]
  rcases opened_cases h with ⟨hr, hfd, hs, hrc⟩ | ⟨hr, hfd, k, hk, href⟩ | ⟨hr, hfd, hflag, hs, rc, hrc, hcs⟩
  · have hest : ¬ ∃ fd rc, .connect fd rc ∈ cs ∧ 0 ≤ rc := fun ⟨fd, rc, hk, h⟩ => absurd (hrc fd rc hk) (Int.not_lt.mpr h)
    refine ⟨fun _ => ⟨hs, fun fd rc hk h => absurd (hrc fd rc hk) (Int.not_lt.mpr h)⟩, fun _ => ⟨?_, ?_, ?_⟩⟩
    · exact ⟨fun _ => hest, fun _ => hr⟩
    · exact ⟨s', asBool_returns.mpr ⟨by simp [toBool, Int.not_le.mpr hr, Int.not_le.mpr hfd], rfl⟩⟩
    · have hc := connected_closed net hfd
      rw [← show decide (0 ≤ r) = false from decide_eq_false (Int.not_le.mpr hr)] at hc
      exact ⟨s', hc⟩
  · refine ⟨fun h => ?_, fun h => absurd href (h.1 k hk)⟩
    obtain ⟨t, ht⟩ := h.toBool
    have hb := (asBool_returns.mp ht).1
    rw [decide_eq_false (Int.not_le.mpr hr), toBool, decide_eq_true hfd] at hb
    exact absurd hb (by decide)
  · have hest : ∃ fd rc, .connect fd rc ∈ cs ∧ 0 ≤ rc := ⟨r, rc, (hcs r rc).mpr ⟨rfl, rfl⟩, hrc⟩
    obtain ⟨t, ht⟩ := connected_open net (by rw [hfd]; exact hr) hflag
    rw [hfd] at ht
    constructor
    · intro h
      obtain ⟨u, hu⟩ := h.connected
      have hb := (hu.det ht).1
      rw [decide_eq_true hr] at hb
      refine ⟨hs, fun fd rc' hk _ => ?_⟩
      rw [((hcs fd rc').mp hk).1]
      exact of_decide_eq_true hb.symm
    · intro h
      have hav := h.2 r rc ((hcs r rc).mpr ⟨rfl, rfl⟩) hrc
      rw [decide_eq_true hav] at ht
      refine ⟨⟨fun hneg => absurd hneg (Int.not_lt.mpr hr), fun hn => absurd hest hn⟩, ?_, ?_⟩
      · exact ⟨s', asBool_returns.mpr ⟨by rw [toBool, hfd], rfl⟩⟩
      · rw [decide_eq_true hr]
        exact ⟨t, ht⟩

theorem stop_ends {net : Lwip σ} : (stop net).Ends := by
  unfold stop
  exact .bind .gets fun _ => .ite (.bind .modify fun _ => .bind .modify fun _ => .modify) .modify

theorem openV4_ends {net : Lwip σ} {ip : Nat} : (openV4 net ip port timeout).Ends := by
  unfold openV4
  refine .bind .step fun _ => .bind .modify fun _ => .ite .pure (.bind .step fun _ => ?_)
  refine .ite (.bind .modify fun _ => .pure) (.bind .step fun _ => ?_)
  refine .ite (.bind .modify fun _ => .pure) (.bind .modify fun _ => .bind .step fun _ => ?_)
  refine .ite (.bind .modify fun _ => .bind .modify fun _ => ?_) ?_
  · exact .bind .modify fun _ => .bind .gets fun _ => .pure
  · exact .bind .modify fun _ => .bind .gets fun _ => .pure

theorem connectV4_ends {net : Lwip σ} {ip : Nat} : (connectV4 net ip port timeout).Ends := by
  unfold connectV4
  exact .bind .gets fun _ => .ite (.bind stop_ends fun _ => openV4_ends) openV4_ends

theorem hostByName_ends {O : Type} {net : Lwip σ} : (hostByName net host : Prog (Live σ O) (Option Nat)).Ends := by
  unfold hostByName
  refine .ite (.bind .step fun r => ?_) (.ite .pure .pure)
  cases r with
  | none => exact .ite .pure .pure
  | some result =>
    cases hf : result.find? (·.inet) with
    | none => simp only [hf]; exact .ite .pure .pure
    | some res => simp only [hf]; exact .ite .pure .pure

/-- `connect`, once the socket it had is closed. -/
theorem resolve_ends {net : Lwip σ} : (do
    match ← hostByName net host with
    | none => return -1
    | some ip => connectV4 net ip port timeout : Prog (Live σ TCPClient) Int).Ends := by
  refine .bind hostByName_ends fun ip => ?_
  cases ip with
  | none => exact .pure
  | some ip => exact connectV4_ends

theorem connect_ends {net : Lwip σ} : (connect net host port timeout).Ends := by
  unfold connect
  exact .bind .gets fun _ => .ite (.bind stop_ends fun _ => .bind .modify fun _ => resolve_ends) resolve_ends

/-- `connect` returns, and meets the contract exactly if it is fit. -/
theorem connect_contract_iff (net : Stack σ) (s : Live (σ × List SocketCall) TCPClient) (host : Bytes) (port : Nat)
    (timeout : Int) :
    (∃ r s', (connect net.recording.toLwip host port timeout).Returns s r s') ∧
      ∀ r s', (connect net.recording.toLwip host port timeout).Returns s r s' →
        (Contract asBool (connected net.recording.toLwip) (Established (callsBetween s s')) r s' ↔ Fit net s s') := by
  refine ⟨connect_ends s, fun r s' h => ?_⟩
  obtain ⟨c, cs, hlog, ho⟩ := connect_opened h
  refine contract_of_opened ho ?_
  rw [callsBetween, hlog, List.append_assoc, List.drop_left]

end TCPClient

/-! ## `UDPClient` -/

namespace UDPClient

variable {net : Stack σ} {s s' : Live (σ × List SocketCall) UDPClient} {r timeout : Int} {host : Bytes} {port : Nat}

/-- A socket was made for the host, and kept. -/
def Established (calls : List SocketCall) : Prop := ∃ fd, 0 ≤ fd ∧ .socket fd ∈ calls ∧ .close fd ∉ calls

/-- `operator bool`, as a program. -/
def asBool : Prog (Live σ UDPClient) Bool := return toBool (← obj)

theorem asBool_returns {s t : Live σ UDPClient} {b : Bool} : asBool.Returns s b t ↔ b = toBool s.self ∧ t = s := by
  unfold asBool
  rw [returns_obj_bind, Prog.returns_pure]

theorem connected_closed (net : Stack σ) (hfd : s.self.socketFd < 0) : (connected net.recording).Returns s false s := by
  unfold connected
  rw [returns_obj_bind, if_pos hfd]
  exact Prog.returns_pure.mpr ⟨rfl, rfl⟩

theorem connected_returns (net : Stack σ) (hfd : 0 ≤ s.self.socketFd) {t : Live (σ × List SocketCall) UDPClient} :
    (connected net.recording).Returns s true t ↔
      (match (net.soError s.self.socketFd s.env.1).1 with
        | none => Prog.undefined
        | some errorCode => return errorCode = 0 : Prog (Live (σ × List SocketCall) UDPClient) Bool).Returns
        ⟨s.self, (net.recording.soError s.self.socketFd s.env).2⟩ true t := by
  unfold connected
  rw [returns_obj_bind, if_neg (Int.not_lt.mpr hfd), returns_call_bind]
  rfl

theorem connected_open (net : Stack σ) (hfd : 0 ≤ s.self.socketFd) :
    (∃ t, (connected net.recording).Returns s true t) ↔ (net.soError s.self.socketFd s.env.1).1 = some 0 := by
  constructor
  · rintro ⟨t, ht⟩
    rw [connected_returns net hfd] at ht
    cases hso : (net.soError s.self.socketFd s.env.1).1 with
    | none =>
      rw [hso] at ht
      exact absurd ht Prog.returns_undefined
    | some errorCode =>
      rw [hso] at ht
      have hb := (Prog.returns_pure.mp ht).1
      rw [of_decide_eq_true hb.symm]
  · intro hso
    refine ⟨⟨s.self, (net.recording.soError s.self.socketFd s.env).2⟩, ?_⟩
    rw [connected_returns net hfd, hso]
    exact Prog.returns_pure.mpr ⟨rfl, rfl⟩

/-- What the contract asks of a `connect`: the client had no socket, no option
of the new one is refused, and it has no error pending. -/
def Fit (net : Stack σ) (s s' : Live (σ × List SocketCall) UDPClient) : Prop :=
  s.self.socketFd < 0 ∧ (∀ k ∈ callsBetween s s', ¬ k.Refused) ∧
    ∀ fd, 0 ≤ fd → .socket fd ∈ callsBetween s s' → (net.soError fd s'.env.1).1 = some 0

/-- No connection, and nothing that says there is one. -/
theorem contract_of_none (hr : r < 0) (hfd : s'.self.socketFd < 0) (hest : ¬ Established (callsBetween s s')) :
    Contract asBool (connected net.recording) (Established (callsBetween s s')) r s' := by
  have hc := connected_closed net hfd
  have hb : decide (0 ≤ r) = false := decide_eq_false (Int.not_le.mpr hr)
  refine ⟨⟨fun _ => hest, fun _ => hr⟩, ?_, ?_⟩
  · exact ⟨s', asBool_returns.mpr ⟨by simp [toBool, Int.not_le.mpr hr, Int.not_le.mpr hfd], rfl⟩⟩
  · rw [hb]
    exact ⟨s', hc⟩

theorem contract_of_opened {cs : List SocketCall} (h : Opened s.self r s'.self cs) (hcalls : callsBetween s s' = cs)
    (hs : s.self.socketFd < 0) :
    Contract asBool (connected net.recording) (Established (callsBetween s s')) r s' ↔ Fit net s s' := by
  generalize hself : s'.self = c' at h
  cases h with
  | @noSocket fd hfd =>
    have hmem : ∀ k ∈ callsBetween s s', k = .socket fd := fun k hk => by
      rw [hcalls] at hk
      exact List.mem_singleton.mp hk
    have hest : ¬ Established (callsBetween s s') := by
      rintro ⟨fd', hpos, hk, _⟩
      cases hmem _ hk
      exact absurd hfd (Int.not_lt.mpr hpos)
    refine ⟨fun _ => ⟨hs, fun k hk => ?_, fun fd' hpos hk => ?_⟩, fun _ => ?_⟩
    · rw [hmem k hk]
      exact id
    · cases hmem _ hk
      exact absurd hfd (Int.not_lt.mpr hpos)
    · exact contract_of_none (by decide) (by rw [hself]; exact hfd) hest
  | @refused fd rc hfd hrc =>
    refine ⟨fun h => ?_, fun h => ?_⟩
    · obtain ⟨t, ht⟩ := h.toBool
      have hb := (asBool_returns.mp ht).1
      rw [hself] at hb
      have hb' : toBool { s.self with socketFd := fd } = true := decide_eq_true hfd
      rw [hb'] at hb
      exact absurd hb (by decide)
    · refine absurd hrc (h.2.1 (.setsockopt fd (.keepAlive 5000) rc) ?_)
      rw [hcalls]
      exact List.mem_cons_of_mem _ List.mem_cons_self
  | @made _ rc sa hfd hrc =>
    have hsfd : s'.self.socketFd = r := by rw [hself]
    have hb : decide (0 ≤ r) = true := decide_eq_true hfd
    have hest : Established (callsBetween s s') := by
      rw [hcalls]
      exact ⟨r, hfd, List.mem_cons_self, by simp⟩
    have hconn := connected_open (s := s') net (by rw [hsfd]; exact hfd)
    rw [hsfd] at hconn
    constructor
    · intro h
      have hso := h.connected
      rw [hb] at hso
      refine ⟨hs, fun k hk => ?_, fun fd' _ hk => ?_⟩
      · rw [hcalls] at hk
        simp only [List.mem_cons, List.not_mem_nil, or_false] at hk
        rcases hk with rfl | rfl
        · exact id
        · exact TCPClient.not_refused_of_ne hrc
      · rw [hcalls] at hk
        simp only [List.mem_cons, List.not_mem_nil, reduceCtorEq, or_false, SocketCall.socket.injEq] at hk
        rw [hk]
        exact hconn.mp hso
    · intro h
      have hso := h.2.2 r hfd (by rw [hcalls]; exact List.mem_cons_self)
      refine ⟨⟨fun hneg => absurd hneg (Int.not_lt.mpr hfd), fun hn => absurd hest hn⟩, ?_, ?_⟩
      · exact ⟨s', asBool_returns.mpr ⟨by rw [toBool, hsfd], rfl⟩⟩
      · rw [hb]
        exact hconn.mpr hso

theorem connect_ends {net : Stack σ} : (connect net host port timeout).Ends := by
  have connectV4 : ∀ ip, (connectV4 net ip port 5000).Ends := by
    intro ip
    unfold UDPClient.connectV4
    refine .bind .step fun _ => .bind .modify fun _ => .ite .pure (.bind .step fun _ => ?_)
    exact .ite (.bind .modify fun _ => .pure) (.bind .modify fun _ => .bind .gets fun _ => .pure)
  unfold connect
  refine .bind .gets fun _ => .ite .pure (.bind TCPClient.hostByName_ends fun ip => ?_)
  cases ip with
  | none => exact .pure
  | some ip => exact connectV4 ip

/-- `connect(host, port, timeout)` returns, and meets the contract exactly if it is fit. -/
theorem connect_contract_iff (net : Stack σ) (s : Live (σ × List SocketCall) UDPClient) (host : Bytes) (port : Nat)
    (timeout : Int) :
    (∃ r s', (connect net.recording host port timeout).Returns s r s') ∧
      ∀ r s', (connect net.recording host port timeout).Returns s r s' →
        (Contract asBool (connected net.recording) (Established (callsBetween s s')) r s' ↔ Fit net s s') := by
  refine ⟨connect_ends s, fun r s' h => ?_⟩
  rcases connect_opened h with ⟨hfd, rfl, rfl⟩ | ⟨hfd, rfl, hself, hlog⟩ | ⟨hfd, cs, hlog, ho⟩
  · refine ⟨fun h => ?_, fun h => absurd h.1 (Int.not_lt.mpr hfd)⟩
    have hest : ¬ Established (callsBetween s' s') := by
      rintro ⟨_, _, hk, _⟩
      rw [callsBetween, List.drop_length] at hk
      cases hk
    exact absurd (h.negative.mpr hest) (Int.not_lt.mpr hfd)
  · have hcalls : callsBetween s s' = [] := by rw [callsBetween, hlog, List.drop_length]
    have hest : ¬ Established (callsBetween s s') := by
      rintro ⟨_, _, hk, _⟩
      rw [hcalls] at hk
      cases hk
    refine ⟨fun _ => ⟨hfd, fun k hk => ?_, fun fd _ hk => ?_⟩, fun _ => ?_⟩
    · rw [hcalls] at hk
      cases hk
    · rw [hcalls] at hk
      cases hk
    · exact contract_of_none (by decide) (by rw [hself]; exact hfd) hest
  · refine contract_of_opened ho ?_ hfd
    rw [callsBetween, hlog, List.drop_left]

end UDPClient

/-! ## `TCPClientSecure` -/

/-- What the library relies on of the clock: it does not run backwards, moves
on in `delay`, and no call takes more than six days of its milliseconds. -/
structure Ticking (p : Platform σ) (time : σ → Nat) : Prop where
  millis : ∀ e, (p.millis e).1 = time e % 2 ^ 32
  asked : ∀ e, time e ≤ time (p.millis e).2 ∧ time (p.millis e).2 < time e + 2 ^ 29
  handshake : ∀ e, time e ≤ time (p.tls.sslHandshake e).2 ∧ time (p.tls.sslHandshake e).2 < time e + 2 ^ 29
  delay : ∀ e, time e < time (p.delay 10 e) ∧ time (p.delay 10 e) < time e + 2 ^ 29

namespace SslContext

variable {p : Platform σ} {time : σ → Nat} {s : Live (σ × List SetupCall) SslContext}

theorem sizeT_elapsed {t₀ t : Nat} (h₀ : t₀ ≤ t) (h : t < t₀ + 2 ^ 32) :
    sizeT (((t % 2 ^ 32 : Nat) : Int) - ((t₀ % 2 ^ 32 : Nat) : Int)) = t - t₀ := by
  unfold sizeT
  omega

/-- The handshake ends: it is done, it fails, or its time is over. -/
theorem handshake_ends (ht : Ticking p time) (hb : s.self.handshakeTimeout < 2 ^ 31) :
    ∃ r s', (handshake p.logged).Returns s r s' := by
  simp only [handshake, returns_call_bind]
  -- What is left of the time it is given, and of the turn that notices.
  refine (Prog.loop_returns Nat.lt_wfRel.wf
    (fun _ t => t.self.handshakeTimeout = s.self.handshakeTimeout ∧ time s.env.1 ≤ time t.env.1 ∧
      time t.env.1 ≤ time s.env.1 + s.self.handshakeTimeout + 2 ^ 30)
    (fun _ _ => True)
    (fun _ t => time s.env.1 + s.self.handshakeTimeout + 2 ^ 30 - time t.env.1) ?_ ?_).imp
      fun r h => h.imp fun s' h => h.1
  · intro b t hI
    obtain ⟨hto, hge, hle⟩ := hI
    have hshake := ht.handshake t.env.1
    have hmillis := ht.asked (p.tls.sslHandshake t.env.1).2
    have hdelay := ht.delay (p.millis (p.tls.sslHandshake t.env.1).2).2
    simp only [returns_call_bind, returns_obj_bind, returns_tell_bind, Prog.returns_ite, Prog.returns_pure]
    by_cases hdone : (p.logged.tls.sslHandshake t.env).1 = 0
    · exact ⟨_, _, .inl ⟨hdone, rfl, rfl⟩, trivial⟩
    by_cases hwant : (p.logged.tls.sslHandshake t.env).1 ≠ errWantRead ∧ (p.logged.tls.sslHandshake t.env).1 ≠ errWantWrite
    · exact ⟨_, _, .inr ⟨hdone, .inl ⟨hwant, rfl, rfl⟩⟩, trivial⟩
    have helapsed : sizeT ((p.logged.millis (p.logged.tls.sslHandshake t.env).2).1 - (p.logged.millis s.env).1) =
        time (p.tls.sslHandshake t.env.1).2 - time s.env.1 := by
      have h₁ : (p.logged.millis (p.logged.tls.sslHandshake t.env).2).1 =
          time (p.tls.sslHandshake t.env.1).2 % 2 ^ 32 := ht.millis _
      have h₀ : (p.logged.millis s.env).1 = time s.env.1 % 2 ^ 32 := ht.millis _
      rw [h₁, h₀]
      exact sizeT_elapsed (by omega) (by omega)
    by_cases hlate : sizeT ((p.logged.millis (p.logged.tls.sslHandshake t.env).2).1 - (p.logged.millis s.env).1) >
        t.self.handshakeTimeout
    · exact ⟨_, _, .inr ⟨hdone, .inr ⟨hwant, .inl ⟨hlate, rfl, rfl⟩⟩⟩, trivial⟩
    · refine ⟨_, _, .inr ⟨hdone, .inr ⟨hwant, .inr ⟨hlate, rfl, rfl⟩⟩⟩, ?_⟩
      rw [helapsed, hto] at hlate
      have henv : time (p.logged.delay 10 (p.logged.millis (p.logged.tls.sslHandshake t.env).2).2).1 =
        time (p.delay 10 (p.millis (p.tls.sslHandshake t.env.1).2).2) := rfl
      refine ⟨⟨hto, ?_, ?_⟩, ?_⟩
      · show _ ≤ time (p.logged.delay 10 _).1
        rw [henv]
        omega
      · show time (p.logged.delay 10 _).1 ≤ _
        rw [henv]
        omega
      · show _ - time (p.logged.delay 10 _).1 < _
        rw [henv]
        omega
  · refine ⟨rfl, (ht.asked s.env.1).1, ?_⟩
    have := (ht.asked s.env.1).2
    show time (p.millis s.env.1).2 ≤ _
    omega

theorem stopSslSocket_ends {p : Platform σ} : (stopSslSocket p).Ends := by
  unfold stopSslSocket
  have frees : (do
      tell (p.tls.free .ssl)
      tell (p.tls.free .sslConfig)
      tell (p.tls.free .ctrDrbg)
      tell (p.tls.free .entropy) : Prog (Live σ SslContext) Unit).Ends :=
    .bind .modify fun _ => .bind .modify fun _ => .bind .modify fun _ => .modify
  exact .bind .gets fun _ => .ite (.bind .modify fun _ => .bind .modify fun _ => frees) frees

theorem openSocket_ends (p : Platform σ) (host : Bytes) (port : Nat) (timeout : Int) :
    (openSocket p host port timeout).Ends := by
  unfold openSocket
  refine .bind .modify fun _ => .bind .step fun _ => .bind .modify fun _ => .ite .pure ?_
  refine .bind TCPClient.hostByName_ends fun srv => ?_
  cases srv with
  | none => exact .pure
  | some srv =>
    refine .bind .step fun _ => .ite (.bind .step fun _ => .bind .step fun _ => ?_) .pure
    exact .bind .step fun _ => .bind .step fun _ => .bind .modify fun _ => .pure

theorem seedAndDefaults_ends {p : Platform σ} : (seedAndDefaults p).Ends := by
  unfold seedAndDefaults
  exact .bind .modify fun _ => .bind .step fun _ => .ite .pure (.bind .step fun _ => .ite .pure .pure)

theorem setPeerAuth_ends {p : Platform σ} {rootCABuff pskIdent psKey : Option Bytes} :
    (setPeerAuth p rootCABuff pskIdent psKey).Ends := by
  unfold setPeerAuth
  cases rootCABuff with
  | some ca =>
    refine .bind .modify fun _ => .bind .modify fun _ => .bind .step fun _ => .bind .modify fun _ => ?_
    exact .ite .pure .pure
  | none =>
    cases pskIdent with
    | none => exact .bind .modify fun _ => .pure
    | some ident =>
      cases psKey with
      | none => exact .bind .modify fun _ => .pure
      | some key =>
        refine .ite .pure ?_
        cases decodePsk key with
        | none => exact .pure
        | some psk => exact .bind .step fun _ => .ite .pure .pure

theorem setOwnCert_ends {p : Platform σ} {cliCert cliKey : Option Bytes} : (setOwnCert p cliCert cliKey).Ends := by
  unfold setOwnCert
  cases cliCert with
  | none => exact .pure
  | some cert =>
    cases cliKey with
    | none => exact .pure
    | some key =>
      refine .bind .modify fun _ => .bind .modify fun _ => .bind .step fun _ => .ite .pure ?_
      exact .bind .step fun _ => .ite .pure (.bind .modify fun _ => .pure)

theorem setup_ends (p : Platform σ) (host : Bytes) : (setup p host).Ends := by
  unfold setup
  refine .bind .step fun _ => .ite .pure (.bind .modify fun _ => .bind .step fun _ => .ite .pure ?_)
  exact .bind .gets fun _ => .bind .modify fun _ => .pure

theorem verifyPeer_ends {p : Platform σ} {rootCABuff cliCert cliKey : Option Bytes} :
    (verifyPeer p rootCABuff cliCert cliKey).Ends := by
  unfold verifyPeer
  have verified : ∀ ret : Int, (do
      let flags ← call p.tls.sslGetVerifyResult
      if flags ≠ 0 then
        stopSslSocket p
        return ret
      if rootCABuff.isSome then
        tell (p.tls.free .caCert)
      if cliCert.isSome then
        tell (p.tls.free .clientCert)
      if cliKey.isSome then
        tell (p.tls.free .clientKey)
      return (← obj).socket : Prog (Live σ SslContext) Int).Ends := by
    intro ret
    refine .bind .step fun _ => .ite (.bind stopSslSocket_ends fun _ => .pure) ?_
    have last : (do return (← obj).socket : Prog (Live σ SslContext) Int).Ends := .bind .gets fun _ => .pure
    have key : (do
        if cliKey.isSome then
          tell (p.tls.free .clientKey)
        return (← obj).socket : Prog (Live σ SslContext) Int).Ends := .ite (.bind .modify fun _ => last) last
    have cert : (do
        if cliCert.isSome then
          tell (p.tls.free .clientCert)
        if cliKey.isSome then
          tell (p.tls.free .clientKey)
        return (← obj).socket : Prog (Live σ SslContext) Int).Ends := .ite (.bind .modify fun _ => key) key
    exact .ite (.bind .modify fun _ => cert) cert
  exact .ite (.bind .step fun ret => verified ret) (verified 0)

/-- A stage of `start_ssl_client`, and the rest after it succeeds. -/
theorem stage_ends {x : Prog (Live (σ × List SetupCall) SslContext) (Except Int Unit)}
    {k : Prog (Live (σ × List SetupCall) SslContext) Int} {t : Live (σ × List SetupCall) SslContext}
    (h : ∃ r u, x.Returns t r u ∧ (r = .ok () → ∃ ret s', k.Returns u ret s')) :
    ∃ ret s', (do
      if let .error e ← x then
        return e
      k : Prog (Live (σ × List SetupCall) SslContext) Int).Returns t ret s' := by
  obtain ⟨r, u, hr, hk⟩ := h
  cases r with
  | error e => exact ⟨e, u, (Prog.returns_bind_of hr).mpr (Prog.returns_pure.mpr ⟨rfl, rfl⟩)⟩
  | ok _ =>
    obtain ⟨ret, s', h⟩ := hk rfl
    exact ⟨ret, s', (Prog.returns_bind_of hr).mpr h⟩

/-- `start_ssl_client` returns: its one loop is the handshake. -/
theorem startSslClient_returns (hneg : NegativeErrors p.tls) (ht : Ticking p time)
    (hb : s.self.handshakeTimeout < 2 ^ 31) (host : Bytes) (port : Nat) (timeout : Int)
    (rootCABuff cliCert cliKey pskIdent psKey : Option Bytes) :
    ∃ ret s', (startSslClient p.logged host port timeout rootCABuff cliCert cliKey pskIdent psKey).Returns s ret s' := by
  unfold startSslClient
  obtain ⟨r₁, t₁, h₁⟩ := openSocket_ends p.logged host port timeout s
  refine stage_ends ⟨r₁, t₁, h₁, fun _ => ?_⟩
  obtain ⟨fd, hfd, _⟩ := openSocket_returns h₁
  have hb : t₁.self.handshakeTimeout < 2 ^ 31 := by rw [hfd]; exact hb
  obtain ⟨r₂, t₂, h₂⟩ := seedAndDefaults_ends (p := p.logged) t₁
  refine stage_ends ⟨r₂, t₂, h₂, fun _ => ?_⟩
  rw [← (seedAndDefaults_quiet hneg h₂).1] at hb
  obtain ⟨r₃, t₃, h₃⟩ := setPeerAuth_ends (p := p.logged) t₂
  refine stage_ends ⟨r₃, t₃, h₃, fun _ => ?_⟩
  rw [← (setPeerAuth_quiet hneg h₃).1] at hb
  obtain ⟨r₄, t₄, h₄⟩ := setOwnCert_ends (p := p.logged) t₃
  refine stage_ends ⟨r₄, t₄, h₄, fun _ => ?_⟩
  rw [← (setOwnCert_quiet hneg h₄).1] at hb
  obtain ⟨r₅, t₅, h₅⟩ := setup_ends p.logged host t₄
  refine stage_ends ⟨r₅, t₅, h₅, fun _ => ?_⟩
  rw [← (setup_quiet hneg h₅).1] at hb
  obtain ⟨r₆, t₆, h₆⟩ := handshake_ends ht hb
  refine stage_ends ⟨r₆, t₆, h₆, fun _ => ?_⟩
  exact Prog.Ends.bind .modify (fun _ => verifyPeer_ends) t₆

end SslContext

namespace TCPClientSecure

variable {p : Platform σ} {time : σ → Nat} {s s' : Live (σ × List SetupCall) TCPClientSecure} {r : Int}

/-- A verified session. -/
def Established (log : List SetupCall) : Prop := ∃ fd, Verified log fd

theorem stop_ends {p : Platform σ} : (stop p).Ends := fun _ => ⟨(), _, stop_returns.mpr rfl⟩

theorem connectWith_ends {p : Platform σ} {start : Prog (Live σ SslContext) Int} {s : Live σ TCPClientSecure}
    (h : ∀ limit, (limit = s.self.sslclient.handshakeTimeout ∨ limit = s.self._timeout.toNat) →
      ∃ ret t, start.Returns ⟨{ s.self.sslclient with handshakeTimeout := limit }, s.env⟩ ret t) :
    ∃ r s', (connectWith p start).Returns s r s' := by
  have rest : ∀ {t : Live σ TCPClientSecure}, (∃ ret u, start.Returns ⟨t.self.sslclient, t.env⟩ ret u) →
      ∃ r s', (do
        let ret ← ssl start
        set fun c => { c with _lastError := ret }
        if ret < 0 then
          stop p
          return 0
        set fun c => { c with _connected := true }
        return 1 : Prog (Live σ TCPClientSecure) Int).Returns t r s' := by
    rintro t ⟨ret, u, hret⟩
    have hx := returns_ssl.mpr ⟨u, hret, rfl⟩
    obtain ⟨r, s', hr⟩ := (show Prog.Ends (do
        set fun c => { c with _lastError := ret }
        if ret < 0 then
          stop p
          return 0
        set fun c => { c with _connected := true }
        return 1 : Prog (Live σ TCPClientSecure) Int) from
      .bind .modify fun _ => .ite (.bind stop_ends fun _ => .pure) (.bind .modify fun _ => .pure))
      ⟨{ t.self with sslclient := u.self }, u.env⟩
    exact ⟨r, s', (Prog.returns_bind_of hx).mpr hr⟩
  unfold connectWith
  by_cases hto : s.self._timeout > 0
  · simp only [returns_obj_bind, hto, if_true, returns_set_bind]
    exact rest (h _ (.inr rfl))
  · simp only [returns_obj_bind, hto, if_false]
    exact rest (h _ (.inl rfl))

/-- A session is verified, or none is. -/
theorem established_of_ended {log : List SetupCall} {ret fd : Int} (h : SslContext.Ended log ret fd) :
    (0 ≤ ret ∧ fd = ret ∧ Established log) ∨ ¬ Established log := by
  cases h with
  | early fd ret cs hs hneg =>
    refine .inr ?_
    rintro ⟨fd', h⟩
    simpa using h.2.2.2.1
  | verified _ hs exps hpos hmem =>
    refine .inl ⟨hpos, rfl, ret, ?_⟩
    simp [Verified, hmem]
  | refused fd hs exps flags hpos hlen hflags =>
    refine .inr ?_
    rintro ⟨fd', h⟩
    exact hflags (h.2.2.2.2.1 flags (by simp))

/-- An open client says it is connected unless asking for data fails. -/
theorem connected_open {p : Platform σ} {s : Live σ TCPClientSecure} (hc : s.self._connected = true)
    (hfd : 0 ≤ s.self.sslclient.socket) : ∃ t, (connected p).Returns s (decide (0 ≤ toRead p s.env)) t := by
  by_cases hr : toRead p s.env < 0
  · refine ⟨stopped p ⟨s.self, asked p s.env⟩,
      connected_returns.mpr ⟨⟨if s.self._peek ≥ 0 then 1 else toRead p s.env, ?_⟩, ?_⟩⟩
    · exact available_returns.mpr (.inr (.inl ⟨hc, hr, rfl, rfl⟩))
    · rw [decide_eq_false (Int.not_le.mpr hr), stopped, if_pos hfd]
  · refine ⟨⟨s.self, asked p s.env⟩, 
      connected_returns.mpr ⟨⟨toRead p s.env + peeked s.self, ?_⟩, ?_⟩⟩
    · exact available_returns.mpr (.inr (.inr ⟨hc, Int.not_lt.mp hr, rfl, rfl⟩))
    · rw [decide_eq_true (Int.not_lt.mp hr)]
      exact hc.symm

theorem toRead_nonneg {p : Platform σ} {e : σ} : 0 ≤ toRead p e ↔
    ¬ IsError (p.tls.sslRead 0 e).1.rc ∧ 0 ≤ int32 (p.tls.sslGetBytesAvail (p.tls.sslRead 0 e).2).1 := by
  unfold toRead
  by_cases h : IsError (p.tls.sslRead 0 e).1.rc
  · rw [if_pos h]
    exact ⟨fun h' => absurd h.2.2 (Int.not_lt.mpr h'), fun h' => absurd h h'.1⟩
  · rw [if_neg h]
    exact ⟨fun h' => ⟨h, h'⟩, fun h' => h'.2⟩

/-- What the contract asks of a `connect`: the session is verified, and the
first `mbedtls_ssl_read` of it reports no error, nor more bytes than an `int` counts. -/
def Fit (p : Platform σ) (s' : Live (σ × List SetupCall) TCPClientSecure) : Prop :=
  Established s'.env.2 ∧ ¬ IsError (p.tls.sslRead 0 s'.env.1).1.rc ∧
    0 ≤ int32 (p.tls.sslGetBytesAvail (p.tls.sslRead 0 s'.env.1).2).1

/-- A value that is 0 or more without a session is against the contract. -/
theorem not_contract {asBool isConnected : Prog (Live (σ × List SetupCall) TCPClientSecure) Bool}
    (hr : 0 ≤ r) (he : ¬ Established s'.env.2) : ¬ Contract asBool isConnected (Established s'.env.2) r s' :=
  fun h => absurd (h.negative.mpr he) (Int.not_lt.mpr hr)

theorem connectWith_contract_iff {start : Prog (Live (σ × List SetupCall) SslContext) Int}
    (hstart : ∀ {u ret t}, u.env.2 = [] → start.Returns u ret t → SslContext.Ended t.env.2 ret t.self.socket)
    (hlog : s.env.2 = []) (h : (connectWith p.logged start).Returns s r s') :
    Contract (connected p.logged) (connected p.logged) (Established s'.env.2) r s' ↔ Fit p s' := by
  obtain ⟨ret, t, hret, h⟩ := connectWith_returns h
  have hend := hstart hlog hret
  rcases h with ⟨hret0, rfl, hc, hsock, henv⟩ | ⟨hneg, rfl, hpos, _, _, henv⟩ | ⟨hneg, rfl, hclosed, _, _, henv⟩
  · rcases established_of_ended hend with ⟨_, hfd, he⟩ | he
    · rw [← henv] at he
      have hopen : 0 ≤ s'.self.sslclient.socket := by rw [hsock, hfd]; exact hret0
      obtain ⟨v, hv⟩ := connected_open (p := p.logged) hc hopen
      have hto : toRead p.logged s'.env = toRead p s'.env.1 := rfl
      rw [hto] at hv
      constructor
      · intro hct
        obtain ⟨w, hw⟩ := hct.connected
        have hb : decide (0 ≤ toRead p s'.env.1) = true := (hv.det hw).1
        exact ⟨he, toRead_nonneg.mp (of_decide_eq_true hb)⟩
      · intro hf
        rw [decide_eq_true (toRead_nonneg.mpr hf.2)] at hv
        exact ⟨⟨fun h => absurd h (by decide), fun h => absurd he h⟩, ⟨v, hv⟩, ⟨v, hv⟩⟩
    · rw [← henv] at he
      exact ⟨fun hct => absurd hct (not_contract (by decide) he), fun hf => absurd hf.1 he⟩
  · have he : ¬ Established s'.env.2 := by
      rcases established_of_ended hend with ⟨hret0, _⟩ | he
      · exact absurd hneg (Int.not_lt.mpr hret0)
      · have hlog' : s'.env.2 = t.env.2 ++ [.close t.self.socket] := by rw [henv]; rfl
        rintro ⟨fd, hv⟩
        rw [hlog'] at hv
        simp only [Verified, List.mem_append, List.mem_singleton, reduceCtorEq, or_false, not_or] at hv
        obtain ⟨hs, hconn, hshake, hres, hflags, hclose, _⟩ := hv
        exact he ⟨fd, hs, hconn, hshake, hres, hflags, hclose⟩
    exact ⟨fun hct => absurd hct (not_contract (by decide) he), fun hf => absurd hf.1 he⟩
  · have he : ¬ Established s'.env.2 := by
      rcases established_of_ended hend with ⟨hret0, _⟩ | he
      · exact absurd hneg (Int.not_lt.mpr hret0)
      · have hlog' : s'.env.2 = t.env.2 := by rw [henv]; rfl
        rw [hlog']
        exact he
    exact ⟨fun hct => absurd hct (not_contract (by decide) he), fun hf => absurd hf.1 he⟩

/-- `connect(host, port)` starts a session with what the client is set up for. -/
theorem connectHost_starts (p : Platform σ) (host : Bytes) (port : Nat) (s : Live σ TCPClientSecure) :
    ∃ rootCABuff cliCert cliKey pskIdent psKey : Option Bytes, ∀ r s', (connectHost p host port).Returns s r s' ↔
      (connectWith p (SslContext.startSslClient p host port s.self._timeout rootCABuff cliCert cliKey pskIdent
        psKey)).Returns s r s' := by
  unfold connectHost connectPsk connectCert
  by_cases hpsk : s.self._pskIdent.isSome ∧ s.self._psKey.isSome
  · refine ⟨none, none, none, s.self._pskIdent, s.self._psKey, fun r s' => ?_⟩
    simp only [returns_obj_bind, hpsk, and_self, if_true]
  · refine ⟨s.self._CA_cert, s.self._cert, s.self._private_key, none, none, fun r s' => ?_⟩
    simp only [returns_obj_bind, hpsk, if_false]

/-- `connect(host, port)` returns, and meets the contract exactly if it is fit. -/
theorem connectHost_contract_iff (hneg : NegativeErrors p.tls) (ht : Ticking p time) (hlog : s.env.2 = [])
    (hlimit : s.self.sslclient.handshakeTimeout < 2 ^ 31) (htimeout : s.self._timeout < 2 ^ 31)
    (host : Bytes) (port : Nat) :
    (∃ r s', (connectHost p.logged host port).Returns s r s') ∧
      ∀ r s', (connectHost p.logged host port).Returns s r s' →
        (Contract (connected p.logged) (connected p.logged) (Established s'.env.2) r s' ↔ Fit p s') := by
  obtain ⟨ca, cert, key, ident, psk, hs⟩ := connectHost_starts p.logged host port s
  constructor
  · obtain ⟨r, s', h⟩ := connectWith_ends (s := s) fun limit hl =>
      SslContext.startSslClient_returns (s := ⟨{ s.self.sslclient with handshakeTimeout := limit }, s.env⟩) hneg ht
        (by rcases hl with rfl | rfl
            · exact hlimit
            · show s.self._timeout.toNat < 2 ^ 31
              omega) host port s.self._timeout ca cert key ident psk
    exact ⟨r, s', (hs r s').mpr h⟩
  · intro r s' h
    exact connectWith_contract_iff (fun hu => SslContext.startSslClient_ended hneg hu) hlog ((hs r s').mp h)

theorem connect_contract_iff (hneg : NegativeErrors p.tls) (ht : Ticking p time) (hlog : s.env.2 = [])
    (hlimit : s.self.sslclient.handshakeTimeout < 2 ^ 31) (host : Bytes) (port : Nat) {timeout : Int}
    (htimeout : timeout < 2 ^ 31) :
    (∃ r s', (connect p.logged host port timeout).Returns s r s') ∧
      ∀ r s', (connect p.logged host port timeout).Returns s r s' →
        (Contract (connected p.logged) (connected p.logged) (Established s'.env.2) r s' ↔ Fit p s') := by
  have hrun : ∀ r s', (connect p.logged host port timeout).Returns s r s' ↔
      (connectHost p.logged host port).Returns ⟨{ s.self with _timeout := timeout }, s.env⟩ r s' := by
    intro r s'
    unfold connect
    rw [returns_set_bind]
  simp only [hrun]
  exact connectHost_contract_iff (s := ⟨{ s.self with _timeout := timeout }, s.env⟩) hneg ht hlog hlimit htimeout host port

end TCPClientSecure

/-! ## The contract -/

/-- **Who meets the contract of `connect`.** A `TCPClient` unless an option of
its new socket is refused (and `FIONREAD` of the connected socket is not
negative); a `UDPClient` that had no socket, through the `connect` with a
timeout, likewise (and no error is pending), through the other never, for it does
not return; a `TCPClientSecure` when the session is verified, and its first read
is not an error. -/
theorem connect_contracts (net : Stack σ) (p : Platform σ) (hneg : NegativeErrors p.tls) {time : σ → Nat}
    (ht : Ticking p time) (host : Bytes) (port : Nat) (timeout : Int) (htimeout : timeout < 2 ^ 31) :
    (∀ s : Live (σ × List SocketCall) TCPClient,
      ∀ x ∈ [TCPClient.connectHost net.recording.toLwip host port, TCPClient.connect net.recording.toLwip host port timeout],
        (∃ r s', x.Returns s r s') ∧ ∀ r s', x.Returns s r s' →
          (Contract TCPClient.asBool (TCPClient.connected net.recording.toLwip)
            (TCPClient.Established (callsBetween s s')) r s' ↔ TCPClient.Fit net s s')) ∧
    (∀ s : Live (σ × List SocketCall) UDPClient,
      (¬ ∃ r s', (UDPClient.connectHost host port).Returns s r s') ∧
      (∃ r s', (UDPClient.connect net.recording host port timeout).Returns s r s') ∧
        ∀ r s', (UDPClient.connect net.recording host port timeout).Returns s r s' →
          (Contract UDPClient.asBool (UDPClient.connected net.recording)
            (UDPClient.Established (callsBetween s s')) r s' ↔ UDPClient.Fit net s s')) ∧
    ∀ s : Live (σ × List SetupCall) TCPClientSecure, s.env.2 = [] → s.self.sslclient.handshakeTimeout < 2 ^ 31 →
      s.self._timeout < 2 ^ 31 →
      ∀ x ∈ [TCPClientSecure.connectHost p.logged host port, TCPClientSecure.connect p.logged host port timeout],
        (∃ r s', x.Returns s r s') ∧ ∀ r s', x.Returns s r s' →
          (Contract (TCPClientSecure.connected p.logged) (TCPClientSecure.connected p.logged)
            (TCPClientSecure.Established s'.env.2) r s' ↔ TCPClientSecure.Fit p s') := by
  refine ⟨fun s x hx => ?_, fun s => ⟨?_, ?_⟩, fun s hlog hlimit hto x hx => ?_⟩
  · rcases List.mem_cons.mp hx with rfl | hx
    · exact TCPClient.connect_contract_iff net s host port 5000
    · rw [List.mem_singleton.mp hx]
      exact TCPClient.connect_contract_iff net s host port timeout
  · rintro ⟨r, s', h⟩
    exact UDPClient.connectHost_never h
  · exact UDPClient.connect_contract_iff net s host port timeout
  · rcases List.mem_cons.mp hx with rfl | hx
    · exact TCPClientSecure.connectHost_contract_iff hneg ht hlog hlimit hto host port
    · rw [List.mem_singleton.mp hx]
      exact TCPClientSecure.connect_contract_iff hneg ht hlog hlimit host port htimeout

namespace ContractDemo

/-- A platform whose clock is its state, with `tls` for mbedTLS. -/
def platform (tls : MbedTls Nat) : Platform Nat where
  lwip := (SocketDemo.stack 0).toLwip
  tls := tls
  malloc _ n := (true, n)
  millis n := (n % 2 ^ 32, n)
  delay k n := n + k

theorem ticking : Ticking (platform (.steady 0)) fun n => n := by
  refine ⟨fun n => rfl, fun n => ?_, fun n => ?_, fun n => ?_⟩
  · exact ⟨Nat.le_refl n, Nat.lt_add_of_pos_right (by decide)⟩
  · exact ⟨Nat.le_refl n, Nat.lt_add_of_pos_right (by decide)⟩
  · show n < n + 10 ∧ n + 10 < n + 2 ^ 29
    omega

theorem negativeErrors : NegativeErrors (platform (.steady 0)).tls := by
  refine ⟨fun _ => ?_, fun _ _ _ => ?_, fun _ _ => ?_, fun _ _ => ?_, fun _ => ?_, fun _ => ?_⟩ <;> exact Int.le_refl 0

/-- The clients after `connect("h", 80)` where everything succeeds. -/
def tcpClient : Live (Nat × List SocketCall) TCPClient :=
  ((TCPClient.connectHost (SocketDemo.stack 0).recording.toLwip (bytes "h") 80).run 1 ⟨{}, 3, []⟩).2

def udpClient : Live (Nat × List SocketCall) UDPClient :=
  ((UDPClient.connect (SocketDemo.stack 0).recording (bytes "h") 80 5000).run 1 ⟨{}, 3, []⟩).2

def secureClient : Live (Nat × List SetupCall) TCPClientSecure :=
  ((TCPClientSecure.connectHost (platform (.steady 0)).logged (bytes "h") 80).run 1 ⟨{}, 3, []⟩).2

/-- They meet the contract. -/
theorem contracts_met :
    Contract TCPClient.asBool (TCPClient.connected (SocketDemo.stack 0).recording.toLwip)
      (TCPClient.Established (callsBetween ⟨{}, 3, []⟩ tcpClient)) 3 tcpClient ∧
    Contract UDPClient.asBool (UDPClient.connected (SocketDemo.stack 0).recording)
      (UDPClient.Established (callsBetween ⟨{}, 3, []⟩ udpClient)) 3 udpClient ∧
    Contract (TCPClientSecure.connected (platform (.steady 0)).logged)
      (TCPClientSecure.connected (platform (.steady 0)).logged) (TCPClientSecure.Established secureClient.env.2) 1
      secureClient := by
  obtain ⟨tcp, udp, tls⟩ := connect_contracts (SocketDemo.stack 0) (platform (.steady 0)) negativeErrors ticking
    (bytes "h") 80 5000 (by decide)
  refine ⟨?_, ?_, ?_⟩
  · refine ((tcp ⟨{}, 3, []⟩ _ List.mem_cons_self).2 3 _ (.of_run 1 rfl)).mpr ⟨?_, fun fd rc _ _ => ?_⟩
    · decide
    · exact Int.le_refl 0
  · refine ((udp ⟨{}, 3, []⟩).2.2 3 _ (.of_run 1 rfl)).mpr ⟨?_, ?_, fun fd _ _ => rfl⟩
    · decide
    · decide
  · refine ((tls ⟨{}, 3, []⟩ rfl (by decide) (by decide) _ List.mem_cons_self).2 1 _ (.of_run 1 rfl)).mpr ⟨⟨3, ?_⟩, ?_, ?_⟩
    · show Verified [.socket 3, .connect 3 0, .handshake 0, .verifyResult 0] 3
      simp [Verified]
    · decide
    · decide

/-- mbedTLS with a handshake that fails. -/
def refusing : MbedTls Nat := { MbedTls.steady 0 with sslHandshake := fun n => (-0x2700, n) }

/-- The client that an option was refused for, and the one whose handshake failed. -/
def refusedClient : Live (Nat × List SocketCall) TCPClient :=
  ((TCPClient.connect (SocketDemo.stack (-1)).recording.toLwip (bytes "h") 80 5000).run 1 ⟨{}, 3, []⟩).2

def failedClient : Live (Nat × List SetupCall) TCPClientSecure :=
  ((TCPClientSecure.connectHost (platform refusing).logged (bytes "h") 443).run 1 ⟨{}, 3, []⟩).2

/-- A refused option leaves a `TCPClient` that takes itself for connected; a
`UDPClient` does not return from `connect(host, port)`; a `TCPClientSecure` gives 0
for a handshake that failed. -/
theorem contracts_broken :
    ((TCPClient.connect (SocketDemo.stack (-1)).recording.toLwip (bytes "h") 80 5000).Returns ⟨{}, 3, []⟩ (-1) refusedClient ∧
      ¬ Contract TCPClient.asBool (TCPClient.connected (SocketDemo.stack (-1)).recording.toLwip)
        (TCPClient.Established (callsBetween ⟨{}, 3, []⟩ refusedClient)) (-1) refusedClient) ∧
    (¬ ∃ r s', (UDPClient.connectHost (bytes "h") 80).Returns (⟨{}, 3, []⟩ : Live (Nat × List SocketCall) UDPClient) r s') ∧
    (TCPClientSecure.connectHost (platform refusing).logged (bytes "h") 443).Returns ⟨{}, 3, []⟩ 0 failedClient ∧
      ¬ Contract (TCPClientSecure.connected (platform refusing).logged) (TCPClientSecure.connected (platform refusing).logged)
        (TCPClientSecure.Established failedClient.env.2) 0 failedClient := by
  refine ⟨⟨.of_run 1 rfl, fun h => ?_⟩, fun ⟨r, s', h⟩ => UDPClient.connectHost_never h, .of_run 1 rfl, ?_⟩
  · obtain ⟨t, ht⟩ := h.toBool
    exact absurd (TCPClient.asBool_returns.mp ht).1 (by decide)
  · refine TCPClientSecure.not_contract (by decide) ?_
    rintro ⟨fd, h⟩
    exact absurd h.2.2.1 (by decide)

end ContractDemo

end FEmbed
