/-
What `openDataConn` connects to, against the reply to `PASV`.

A reply without `(` is refused. Behind the first `(` the code takes what `%u`
makes of the text, and does not look at how the scan or the connection went: a
number that is not there is indeterminate, one above 255 goes into the address
modulo 256, and a connection that failed is a success to the caller.
-/
import FEmbedLwip.FTPLines

namespace FEmbed

open Live

variable {σ : Type} {p : Platform σ}

/-! ## Numbers in a text -/

/-- A decimal number is written `ds`. -/
structure Numeral (h : Nat) (ds : Bytes) : Prop where
  nonempty : ds ≠ []
  digits : ∀ b ∈ ds, isDigit 10 b = true
  value : ofDigits 10 ds = h

/-- A text begins with numbers, with commas between them. -/
inductive Numbers : List Nat → Bytes → Prop
  | last {h rest} (ds) : Numeral h ds → (∀ b ∈ rest.head?, isDigit 10 b = false) → Numbers [h] (ds ++ rest)
  | cons {h hs rest} (ds) : Numeral h ds → Numbers hs rest → Numbers (h :: hs) (ds ++ 44 :: rest)

theorem scanUnsigned_numeral {h : Nat} {ds rest : Bytes} (hd : Numeral h ds) (hh : h < 2 ^ 32)
    (hrest : ∀ b ∈ rest.head?, isDigit 10 b = false) : scanUnsigned (ds ++ rest) = some (h, rest) := by
  obtain ⟨hne, hdigits, hvalue⟩ := hd
  obtain ⟨b, ds', rfl⟩ := List.exists_cons_of_ne_nil hne
  have hb := hdigits b List.mem_cons_self
  have htaken := digits_append hdigits hrest
  have hstart : (b :: ds' ++ rest).dropWhile isSpace = b :: ds' ++ rest := by
    rw [List.cons_append, List.dropWhile_cons_of_neg (by simp [isDigit_not_space hb])]
  rw [scanUnsigned, hstart]
  simp only [List.cons_append]
  split
  · rename_i heq
    exact absurd (List.cons.inj heq).1 (isDigit_ne hb (by decide))
  · rename_i heq
    exact absurd (List.cons.inj heq).1 (isDigit_ne hb (by decide))
  · rw [← List.cons_append, htaken, if_neg hne, hvalue, Nat.min_eq_left (by omega), List.drop_left]
    rfl

/-- Six bytes: an address and a port. -/
structure Endpoint where
  h₁ : UInt8
  h₂ : UInt8
  h₃ : UInt8
  h₄ : UInt8
  p₁ : UInt8
  p₂ : UInt8
  deriving DecidableEq, Repr

namespace Endpoint

def numbers (a : Endpoint) : List Nat := [a.h₁, a.h₂, a.h₃, a.h₄, a.p₁, a.p₂].map UInt8.toNat

/-- The address `h₁.h₂.h₃.h₄` as it is in memory. -/
def ip (a : Endpoint) : Nat := a.h₁.toNat + 256 * a.h₂.toNat + 256 ^ 2 * a.h₃.toNat + 256 ^ 3 * a.h₄.toNat

def port (a : Endpoint) : Nat := 256 * a.p₁.toNat + a.p₂.toNat

theorem lt (_ : Endpoint) (b : UInt8) : b.toNat < 256 := b.toNat_lt

/-- Behind the first `(` of a reply are the numbers of the endpoint. -/
def Given (reply : Bytes) (a : Endpoint) : Prop :=
  ∃ before text, reply = before ++ 40 :: text ∧ 40 ∉ before ∧ Numbers a.numbers text

end Endpoint

theorem scanList_numbers {hs : List Nat} {text : Bytes} (h : Numbers hs text) (hbound : ∀ h ∈ hs, h < 256) :
    scanList hs.length text = hs := by
  induction h with
  | last _ hd hrest =>
    have hnum := scanUnsigned_numeral hd (Nat.lt_trans (hbound _ List.mem_cons_self) (by decide)) hrest
    rw [List.length_singleton, scanList, hnum]
    split
    · contradiction
    · rename_i heq
      obtain ⟨rfl, rfl⟩ := Prod.mk.inj (Option.some.inj heq)
      rfl
    · rename_i heq
      obtain ⟨rfl, rfl⟩ := Prod.mk.inj (Option.some.inj heq)
      rfl
  | @cons h hs rest _ hd _ ih =>
    have hcomma : ∀ b ∈ (44 :: rest).head?, isDigit 10 b = false := by
      rintro _ ⟨⟩
      decide
    have hnum := scanUnsigned_numeral hd (Nat.lt_trans (hbound _ List.mem_cons_self) (by decide)) hcomma
    rw [List.length_cons, scanList, hnum]
    show h :: scanList hs.length rest = h :: hs
    rw [ih fun h hh => hbound h (List.mem_cons_of_mem _ hh)]

namespace FTPClient

/-- The scan finds the numbers of the endpoint. -/
theorem scanList_given {reply : Bytes} {a : Endpoint} (h : a.Given reply) :
    scanList 6 (reply.drop (reply.takeWhile (· != 40)).length.succ) = a.numbers := by
  obtain ⟨before, text, rfl, hbefore, hnumbers⟩ := h
  have hfront : (before ++ 40 :: text).takeWhile (· != 40) = before := by
    rw [List.takeWhile_append_of_pos fun b hb => bne_iff_ne.mpr (ne_of_mem_of_not_mem hb hbefore)]
    simp
  have htext : (before ++ 40 :: text).drop before.length.succ = text := by
    rw [List.append_cons]
    exact List.drop_left' (by simp)
  rw [hfront, htext]
  exact scanList_numbers hnumbers (by simp [Endpoint.numbers, a.lt])

theorem pasvAddr_numbers (a : Endpoint) : pasvAddr a.numbers = some (a.ip, a.port) := by
  have hport := a.lt a.p₁
  have hport' := a.lt a.p₂
  simp only [Endpoint.numbers, List.map_cons, List.map_nil, pasvAddr, Nat.mod_eq_of_lt (a.lt _)]
  rw [Nat.mod_eq_of_lt (by omega)]
  rfl

end FTPClient

/-! ## A connection -/

namespace TCPClient

/-- The outside when `connectV4` asks for a socket: one that was open is closed. -/
def atOpen (net : Lwip σ) (s : Live σ TCPClient) : σ :=
  if s.self.socketFd ≥ 0 then net.close s.self.socketFd (net.shutdown s.self.socketFd s.env) else s.env

/-- lwIP has a socket, takes its options and makes the connection. -/
def Opens (net : Lwip σ) (ip port : Nat) (timeout : Int) (e : σ) : Prop :=
  let opened := net.socket e
  let kept := net.setsockopt opened.1 (.keepAlive timeout) opened.2
  let reused := net.setsockopt opened.1 (.reuseAddr 1) kept.2
  0 ≤ opened.1 ∧ kept.1 ≠ -1 ∧ reused.1 ≠ -1 ∧ 0 ≤ (net.connect opened.1 ⟨ip, port⟩ reused.2).1

variable (net : Lwip σ) (ip port : Nat) (timeout : Int)

theorem openV4_returns (s : Live σ TCPClient) :
    ∃ rc t, (openV4 net ip port timeout).Returns s rc t ∧ (0 ≤ rc ↔ Opens net ip port timeout s.env) := by
  simp only [openV4, Opens, returns_call_bind, returns_set_bind, returns_obj_bind, returns_tell_bind, Prog.returns_ite, Prog.returns_pure]
  generalize net.socket s.env = opened
  generalize net.setsockopt opened.1 (.keepAlive timeout) opened.2 = kept
  generalize net.setsockopt opened.1 (.reuseAddr 1) kept.2 = reused
  by_cases hfd : opened.1 < 0
  · exact ⟨-1, _, .inl ⟨hfd, rfl, rfl⟩, fun h => absurd h (by decide), fun h => absurd hfd (Int.not_lt.mpr h.1)⟩
  by_cases hk : kept.1 = -1
  · exact ⟨-1, _, .inr ⟨hfd, .inl ⟨hk, rfl, rfl⟩⟩, fun h => absurd h (by decide), fun h => absurd hk h.2.1⟩
  by_cases hr : reused.1 = -1
  · exact ⟨-1, _, .inr ⟨hfd, .inr ⟨hk, .inl ⟨hr, rfl, rfl⟩⟩⟩, fun h => absurd h (by decide), fun h => absurd hr h.2.2.1⟩
  by_cases hc : (net.connect opened.1 ⟨ip, port⟩ reused.2).1 < 0
  · exact ⟨-2, _, .inr ⟨hfd, .inr ⟨hk, .inr ⟨hr, .inl ⟨hc, rfl, rfl⟩⟩⟩⟩, fun h => absurd h (by decide),
      fun h => absurd hc (Int.not_lt.mpr h.2.2.2)⟩
  · exact ⟨opened.1, _, .inr ⟨hfd, .inr ⟨hk, .inr ⟨hr, .inr ⟨hc, rfl, rfl⟩⟩⟩⟩, fun h => ⟨h, hk, hr, Int.not_lt.mp hc⟩, fun h => h.1⟩

theorem connectV4_returns (s : Live σ TCPClient) :
    ∃ rc t, (connectV4 net ip port timeout).Returns s rc t ∧ (0 ≤ rc ↔ Opens net ip port timeout (atOpen net s)) := by
  by_cases hfd : s.self.socketFd ≥ 0
  · obtain ⟨rc, t, hopen, hrc⟩ := openV4_returns net ip port timeout ⟨{ s.self with _connected := false, socketFd := -1 }, atOpen net s⟩
    have hstop : (stop net).Returns s () ⟨{ s.self with _connected := false, socketFd := -1 }, atOpen net s⟩ := by
      rw [stop, returns_obj_bind, if_pos hfd, atOpen, if_pos hfd]
      simp only [returns_tell_bind, returns_set]
    refine ⟨rc, t, ?_, hrc⟩
    rw [connectV4, returns_obj_bind, if_pos hfd, Prog.returns_bind_of hstop]
    exact hopen
  · obtain ⟨rc, t, hopen, hrc⟩ := openV4_returns net ip port timeout s
    refine ⟨rc, t, ?_, by rwa [atOpen, if_neg hfd]⟩
    rw [connectV4, returns_obj_bind, if_neg hfd]
    exact hopen

end TCPClient

namespace FTPClient

/-- The last line of the last reply. -/
def replyText (s : Live σ FTPClient) : Bytes := cString s.self.response

/-- A call of `openDataConn` that was answered, in the state `s₁` then: it fails
and connects to nothing, or it connects to an endpoint that the reply gives, and
fails unless the connection is made. -/
def Obeys (p : Platform σ) (dir : FTPDir) (s s₁ : Live σ FTPClient) : Prop :=
  ∃ r t, (openDataConn p dir).Returns s r t ∧
    ((r = -1 ∧ t = s₁) ∨ ∃ (a : Endpoint) (rc : Int) (u : Live σ FTPClient), a.Given (replyText s₁) ∧
      (data (TCPClient.connectV4 p.lwip a.ip a.port 5000)).Returns s₁ rc u ∧ t.env = u.env ∧
      t.self.nData.toTCPClient = u.self.nData.toTCPClient ∧ (r = 1 → 0 ≤ rc))

section Answered

variable {dir : FTPDir} {s s₁ : Live σ FTPClient} {c : Int} (hdir : s.self.dir = .control)
  (hreply : (exchange p (bytes "PASV\r\n") 50).Returns s c s₁) (hc : c ≠ 0)

include hdir hreply hc

theorem openDataConn_answered {r t} : (openDataConn p dir).Returns s r t ↔ (if 40 ∉ replyText s₁ then return -1 else
      match pasvAddr (scanList 6 ((replyText s₁).drop ((replyText s₁).takeWhile (· != 40)).length.succ)) with
      | none => Prog.undefined
      | some (ip, port) => do
        let rc ← data (TCPClient.connectV4 p.lwip ip port 5000)
        record (.dataConn rc)
        set fun c => { c with nData := { c.nData with dir := dir } }
        return 1 : Prog (Live σ FTPClient) Int).Returns s₁ r t := by
  rw [openDataConn, returns_obj_bind, if_neg (not_not.mpr hdir), Prog.returns_bind_of hreply, if_neg hc, returns_obj_bind]
  rfl

/-- An endpoint that the reply gives is connected to, and the call says 1 however that went. -/
theorem openDataConn_given {a : Endpoint} {rc : Int} {u : Live σ FTPClient} (hparen : 40 ∈ replyText s₁) (hgiven : a.Given (replyText s₁))
    (hu : (data (TCPClient.connectV4 p.lwip a.ip a.port 5000)).Returns s₁ rc u) :
    ∃ t, (openDataConn p dir).Returns s 1 t ∧ t.env = u.env ∧ t.self.nData.toTCPClient = u.self.nData.toTCPClient := by
  refine ⟨⟨{ u.self with nData := { u.self.nData with dir := dir }, hist := u.self.hist ++ [.dataConn rc] }, u.env⟩,
    (openDataConn_answered hdir hreply hc).mpr ?_, rfl, rfl⟩
  rw [if_neg (not_not.mpr hparen), scanList_given hgiven, pasvAddr_numbers]
  refine (Prog.returns_bind_of hu).mpr ?_
  rw [record, returns_set_bind, returns_set_bind]
  exact Prog.returns_pure.mpr ⟨rfl, rfl⟩

theorem opens_of_obeys (hparen : 40 ∈ replyText s₁) (h : Obeys p dir s s₁) : ∃ a : Endpoint, a.Given (replyText s₁) ∧
    TCPClient.Opens p.lwip a.ip a.port 5000 (TCPClient.atOpen p.lwip ⟨s₁.self.nData.toTCPClient, s₁.env⟩) := by
  obtain ⟨r, t, hcall, ⟨rfl, _⟩ | ⟨a, rc, u, hgiven, hu, _, _, hmade⟩⟩ := h
  · rw [openDataConn_answered hdir hreply hc, if_neg (not_not.mpr hparen)] at hcall
    split at hcall
    · exact absurd hcall Prog.returns_undefined
    · obtain ⟨_, _, _, hcall⟩ := Prog.returns_bind.mp hcall
      rw [record, returns_set_bind, returns_set_bind] at hcall
      exact absurd (Prog.returns_pure.mp hcall).1 (by decide)
  · obtain ⟨_, hone, _⟩ := openDataConn_given hdir hreply hc hparen hgiven hu
    obtain ⟨rfl, _⟩ := hcall.det hone
    obtain ⟨rc', w, hw, hiff⟩ := TCPClient.connectV4_returns p.lwip a.ip a.port 5000 ⟨s₁.self.nData.toTCPClient, s₁.env⟩
    obtain ⟨w', hw', _⟩ := Prog.returns_zoom.mp hu
    obtain ⟨rfl, _⟩ := hw'.det hw
    exact ⟨a, hgiven, hiff.mp (hmade rfl)⟩

/-- **A data connection goes where the reply says** exactly when the reply has no
`(`, or gives an endpoint to which lwIP connects. -/
theorem obeys_iff : Obeys p dir s s₁ ↔ 40 ∉ replyText s₁ ∨ ∃ a : Endpoint, a.Given (replyText s₁) ∧
    TCPClient.Opens p.lwip a.ip a.port 5000 (TCPClient.atOpen p.lwip ⟨s₁.self.nData.toTCPClient, s₁.env⟩) := by
  by_cases hparen : 40 ∉ replyText s₁
  · refine ⟨fun _ => .inl hparen, fun _ => ⟨-1, s₁, (openDataConn_answered hdir hreply hc).mpr ?_, .inl ⟨rfl, rfl⟩⟩⟩
    rw [if_pos hparen]
    exact Prog.returns_pure.mpr ⟨rfl, rfl⟩
  · rw [not_not] at hparen
    refine ⟨fun h => .inr (opens_of_obeys hdir hreply hc hparen h), ?_⟩
    rintro (h | ⟨a, hgiven, hmade⟩)
    · exact absurd hparen h
    · obtain ⟨rc, w, hw, hiff⟩ := TCPClient.connectV4_returns p.lwip a.ip a.port 5000 ⟨s₁.self.nData.toTCPClient, s₁.env⟩
      have hu : (data (TCPClient.connectV4 p.lwip a.ip a.port 5000)).Returns s₁ rc _ := Prog.returns_zoom.mpr ⟨w, hw, rfl⟩
      obtain ⟨t, hcall, henv, hdata⟩ := openDataConn_given hdir hreply hc hparen hgiven hu
      exact ⟨1, t, hcall, .inr ⟨a, rc, _, hgiven, hu, henv, hdata, fun _ => hiff.mpr hmade⟩⟩

end Answered

/-! ## On the wire -/

namespace Wire

open FTPClientBase.Wire

/-- A client on socket 3, to which `reply` comes. -/
def caller (reply : Bytes) : Live Peer FTPClient := ⟨{ toFTPClientBase := (FTPClientBase.Wire.control []).self }, { unread := reply }⟩

/-- Once the reply to `PASV` is read. -/
def answered (reply : Bytes) : Live Peer FTPClient := ((exchange (peer 63) (bytes "PASV\r\n") 50).run 3 (caller reply)).2

theorem peer_opens (ip port : Nat) (e : Peer) : TCPClient.Opens (peer 63).lwip ip port 5000 e :=
  have made : (0 : Int) ≤ 3 ∧ (0 : Int) ≠ -1 ∧ (0 : Int) ≠ -1 ∧ (0 : Int) ≤ 0 := by decide
  made

/-- An address and a port. -/
theorem obeys_passive : Obeys (peer 63) .read (caller (bytes "227 Passive (10,0,0,1,4,1)\r\n")) (answered (bytes "227 Passive (10,0,0,1,4,1)\r\n")) := by
  have hreply : (exchange (peer 63) (bytes "PASV\r\n") 50).Returns (caller (bytes "227 Passive (10,0,0,1,4,1)\r\n")) 1
      (answered (bytes "227 Passive (10,0,0,1,4,1)\r\n")) := .of_run 3 (by decide +kernel)
  have htext : replyText (answered (bytes "227 Passive (10,0,0,1,4,1)\r\n")) = bytes "227 Passive (10,0,0,1,4,1)\n" := by decide +kernel
  refine (obeys_iff rfl hreply (by decide)).mpr (.inr ⟨⟨10, 0, 0, 1, 4, 1⟩, ?_, peer_opens _ _ _⟩)
  rw [htext]
  refine ⟨bytes "227 Passive ", bytes "10,0,0,1,4,1)\n", by decide, by decide, ?_⟩
  exact .cons (bytes "10") ⟨by decide +kernel, by decide +kernel, rfl⟩ <|
    .cons (bytes "0") ⟨by decide +kernel, by decide +kernel, rfl⟩ <|
    .cons (bytes "0") ⟨by decide +kernel, by decide +kernel, rfl⟩ <|
    .cons (bytes "1") ⟨by decide +kernel, by decide +kernel, rfl⟩ <|
    .cons (bytes "4") ⟨by decide +kernel, by decide +kernel, rfl⟩ <|
    .last (bytes "1") ⟨by decide +kernel, by decide +kernel, rfl⟩ (by decide +kernel)

/-- A number that is not a byte. -/
theorem not_obeys_wide : ¬ Obeys (peer 63) .read (caller (bytes "227 (256,0,0,1,0,21)\r\n")) (answered (bytes "227 (256,0,0,1,0,21)\r\n")) := by
  intro h
  have hreply : (exchange (peer 63) (bytes "PASV\r\n") 50).Returns (caller (bytes "227 (256,0,0,1,0,21)\r\n")) 1
      (answered (bytes "227 (256,0,0,1,0,21)\r\n")) := .of_run 3 (by decide +kernel)
  have htext : replyText (answered (bytes "227 (256,0,0,1,0,21)\r\n")) = bytes "227 (256,0,0,1,0,21)\n" := by decide +kernel
  obtain ⟨a, hgiven, _⟩ := opens_of_obeys rfl hreply (by decide) (by rw [htext]; decide) h
  have hscan := scanList_given hgiven
  have hnumbers : scanList 6 ((bytes "227 (256,0,0,1,0,21)\n").drop ((bytes "227 (256,0,0,1,0,21)\n").takeWhile (· != 40)).length.succ) =
      [256, 0, 0, 1, 0, 21] := by decide
  rw [htext, hnumbers] at hscan
  have hfirst := (List.cons.inj hscan).1
  have := a.lt a.h₁
  omega

end Wire

end FTPClient

end FEmbed
