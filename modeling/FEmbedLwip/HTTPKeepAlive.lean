/-
Several requests over a connection that is kept: what one response leaves for
the next.

The server answers each request head that it is sent with the next of its
responses. A body with a `Content-Length` is read to its last byte, so nothing
of it is left. Of a chunked body two bytes are left, the end of its trailer:
where they are there when the connection is drained, the next response is read
from its start (`exchanges_separate`), and where they come later they are taken
for a response of their own (`handleHeaderResponse_late`).
-/
import FEmbedLwip.ChunkedBody
import FEmbedLwip.HTTPResponse

namespace FEmbed

open Live

/-! ## A connection to a server -/

/-- What is looked at: whether the connection is up, the bytes of the server
that are still to be read, those the application's stream has taken, the
responses the server still has, and when the next bytes are there. -/
structure SessionView (C : Type) where
  up : C → Prop
  unread : C → Bytes
  accepted : C → Bytes
  responses : C → List Bytes
  wait : C → Nat
  clock : C → Nat
  due : C → Nat

/-- Nothing is read or written; time may pass. -/
structure SessionView.Still {C : Type} (v : SessionView C) (e e' : C) : Prop where
  up : v.up e'
  unread : v.unread e' = v.unread e
  accepted : v.accepted e' = v.accepted e
  responses : v.responses e' = v.responses e
  wait : v.wait e' ≤ v.wait e
  clock : v.clock e ≤ v.clock e'
  due : v.due e' = v.due e

/-- Something is read, and `unread` is left. -/
structure SessionView.Reads {C : Type} (v : SessionView C) (unread : Bytes) (e e' : C) : Prop where
  up : v.up e'
  unread : v.unread e' = unread
  accepted : v.accepted e' = v.accepted e
  responses : v.responses e' = v.responses e
  clock : v.clock e ≤ v.clock e'

/-- The connection `r` stays up. A request that is written is answered with the
next response, whose bytes become available in any pieces and after any waits,
but for the lines of its head, each of which is there within the timeout. -/
structure Session {C : Type} (net : Connection C) (r : Ref) (stream : AppStream C) (timeout : Nat) extends SessionView C where
  available : ∀ e, up e → ∃ a e', (net.available r).Returns e a e' ∧ toSessionView.Still e e' ∧ 0 ≤ a ∧ a < 2 ^ 31 ∧
    a.toNat ≤ (unread e).length ∧ (a = 0 → unread e ≠ [] → wait e' < wait e ∧ clock e' < due e')
  connected : ∀ e, up e → ∃ e', (net.connected r).Returns e true e' ∧ toSessionView.Still e e'
  read : ∀ e, up e → unread e ≠ [] → ∃ b e', (net.read r).Returns e b e' ∧ toSessionView.Reads (unread e).tail e e'
  readBytes : ∀ n e, up e → ∃ e', (net.readBytes r n).Returns e ((unread e).take n) e' ∧
    toSessionView.Reads ((unread e).drop n) e e'
  readLine : ∀ e, up e → ∃ e', (net.readStringUntil r 10).Returns e (firstLine (unread e)) e' ∧
    toSessionView.Reads (afterLine (unread e)) e e' ∧ (Str.trim (firstLine (unread e)) ≠ [] → due e' ≤ clock e' + timeout)
  write : ∀ text e response rest, up e → responses e = response :: rest → ∃ e', (net.write r text).Returns e text.length e' ∧
    up e' ∧ unread e' = unread e ++ response ∧ accepted e' = accepted e ∧ responses e' = rest ∧ due e' ≤ clock e' + timeout
  malloc : ∀ n e, up e → ∃ block e', (net.malloc n).Returns e (some block) e' ∧ block.length = n ∧ toSessionView.Still e e'
  millis : ∀ e, up e → ∃ e', net.millis.Returns e (clock e % 2 ^ 32) e' ∧ toSessionView.Still e e'
  delay : ∀ n e, up e → ∃ e', (net.delay n).Returns e () e' ∧ toSessionView.Still e e' ∧ clock e + n ≤ clock e'
  stop : ∀ e, up e → ∃ e', (net.stop r).Returns e () e' ∧ accepted e' = accepted e
  release : ∀ r' e, ∃ e', (net.release r').Returns e () e' ∧ accepted e' = accepted e
  pass : ∀ bs e, up e → ∃ e', (stream.write bs).Returns e bs.length e' ∧ up e' ∧ unread e' = unread e ∧
    accepted e' = accepted e ++ bs ∧ responses e' = responses e
  getWriteError : ∀ e, up e → ∃ e', stream.getWriteError.Returns e 0 e' ∧ toSessionView.Still e e'

namespace Session

variable {C : Type} {net : Connection C} {r : Ref} {stream : AppStream C} {timeout : Nat} (S : Session net r stream timeout)

omit S in
theorem eq_zero_of_sizeT {a : Int} (hpos : 0 ≤ a) (hlt : a < 2 ^ 31) (h : sizeT a = 0) : a = 0 := by
  rw [sizeT] at h
  omega

/-- It delivers heads, while the stream and the server have what they have. -/
def head (accepted : Bytes) (responses : List Bytes) : HeadDelivery net r timeout where
  up e := S.up e ∧ S.accepted e = accepted ∧ S.responses e = responses
  unread := S.unread
  clock := S.clock
  due := S.due
  available e hup := by
    obtain ⟨a, e', ha, hs, hpos, hlt, -, hwait⟩ := S.available e hup.1
    refine ⟨a, e', ha, ⟨⟨hs.up, hs.accepted.trans hup.2.1, hs.responses.trans hup.2.2⟩, hs.unread, hs.due, hs.clock⟩, ?_⟩
    intro hzero hne
    exact (hwait (eq_zero_of_sizeT hpos hlt hzero) hne).2
  connected e hup := by
    obtain ⟨e', hcon, hs⟩ := S.connected e hup.1
    exact ⟨e', hcon, ⟨hs.up, hs.accepted.trans hup.2.1, hs.responses.trans hup.2.2⟩, hs.unread, hs.due, hs.clock⟩
  readLine e line rest hup hun hline := by
    obtain ⟨e', hread, hs, hdue⟩ := S.readLine e hup.1
    have hsplit : S.unread e = line ++ [10] ++ rest := by rw [hun, List.append_assoc]; rfl
    rw [hsplit, firstLine_line hline] at hread hdue
    rw [hsplit, afterLine_line hline] at hs
    exact ⟨e', hread, ⟨hs.up, hs.accepted.trans hup.2.1, hs.responses.trans hup.2.2⟩, hs.unread, hs.clock, hdue⟩
  millis e hup := by
    obtain ⟨e', hmillis, hs⟩ := S.millis e hup.1
    exact ⟨e', hmillis, ⟨hs.up, hs.accepted.trans hup.2.1, hs.responses.trans hup.2.2⟩, hs.unread, hs.due, hs.clock⟩
  delay n e hup := by
    obtain ⟨e', hdelay, hs, hpassed⟩ := S.delay n e hup.1
    exact ⟨e', hdelay, ⟨⟨hs.up, hs.accepted.trans hup.2.1, hs.responses.trans hup.2.2⟩, hs.unread, hs.due, hs.clock⟩, hpassed⟩

/-- It delivers bodies, while the server has the responses it has. -/
def body (responses : List Bytes) : Delivery net r stream where
  up e := S.up e ∧ S.responses e = responses
  unread := S.unread
  accepted := S.accepted
  wait := S.wait
  available e hup := by
    obtain ⟨a, e', ha, hs, hpos, hlt, hle, hwait⟩ := S.available e hup.1
    exact ⟨a, e', ha, ⟨⟨hs.up, hs.responses.trans hup.2⟩, hs.unread, hs.accepted, hs.wait⟩, hpos, hlt, hle,
      fun hzero hne => (hwait hzero hne).1⟩
  connected e hup := by
    obtain ⟨e', hcon, hs⟩ := S.connected e hup.1
    exact ⟨e', hcon, ⟨hs.up, hs.responses.trans hup.2⟩, hs.unread, hs.accepted, hs.wait⟩
  read e hup hne := by
    obtain ⟨b, e', hread, hs⟩ := S.read e hup.1 hne
    exact ⟨b, e', hread, ⟨hs.up, hs.responses.trans hup.2⟩, hs.unread, hs.accepted⟩
  readBytes n e hup := by
    obtain ⟨e', hread, hs⟩ := S.readBytes n e hup.1
    exact ⟨e', hread, ⟨hs.up, hs.responses.trans hup.2⟩, hs.unread, hs.accepted⟩
  readLine e hup := by
    obtain ⟨e', hread, hs, -⟩ := S.readLine e hup.1
    exact ⟨e', hread, ⟨hs.up, hs.responses.trans hup.2⟩, hs.unread, hs.accepted⟩
  stop e hup := S.stop e hup.1
  release := S.release
  malloc n e hup := by
    obtain ⟨block, e', hmalloc, hlen, hs⟩ := S.malloc n e hup.1
    exact ⟨block, e', hmalloc, hlen, ⟨hs.up, hs.responses.trans hup.2⟩, hs.unread, hs.accepted, hs.wait⟩
  delay n e hup := by
    obtain ⟨e', hdelay, hs, -⟩ := S.delay n e hup.1
    exact ⟨e', hdelay, ⟨hs.up, hs.responses.trans hup.2⟩, hs.unread, hs.accepted, hs.wait⟩
  write bs e hup := by
    obtain ⟨e', hwrite, hup', hun, hacc, hres⟩ := S.pass bs e hup.1
    exact ⟨e', hwrite, ⟨hup', hres.trans hup.2⟩, hun, hacc⟩
  getWriteError e hup := by
    obtain ⟨e', herr, hs⟩ := S.getWriteError e hup.1
    exact ⟨e', herr, ⟨hs.up, hs.responses.trans hup.2⟩, hs.unread, hs.accepted, hs.wait⟩

end Session

/-! ## Responses -/

/-- A body as it is sent: as it is, or in chunks. -/
inductive Body where
  | plain (content : Bytes)
  | chunks (b : ChunkList)

namespace Body

def render : Body → Bytes
  | plain content => content
  | chunks b => b.render ++ [13, 10]

def content : Body → Bytes
  | plain content => content
  | chunks b => b.content

/-- The head says how the body is sent. -/
def FramedBy (h : ResponseHead) : Body → Prop
  | plain content => h.encoding.getD [] = [] ∧ h.size = content.length
  | chunks _ => h.chunked = true ∧ h.size ≤ 0

end Body

/-- A response after which the connection is kept. -/
structure Response where
  head : ResponseHead
  body : Body
  keeps : head.keeps = true
  framed : body.FramedBy head
  short : body.content.length < 2 ^ 31

namespace Response

def render (x : Response) : Bytes := x.head.render ++ x.body.render

def code (x : Response) : Int := ofDigits 10 x.head.code

theorem result_head (x : Response) : x.head.result = x.code := by
  rw [ResponseHead.result, code]
  refine if_pos ?_
  have hframed := x.framed
  cases hbody : x.body with
  | plain => exact .inl (hbody ▸ hframed).1
  | chunks => exact .inr (hbody ▸ hframed).1

theorem chunked_plain {h : ResponseHead} (hempty : h.encoding.getD [] = []) : ¬ h.chunked = true := by
  rw [ResponseHead.chunked]
  cases henc : h.encoding with
  | none => decide
  | some value =>
    rw [henc] at hempty
    obtain rfl : value = [] := hempty
    decide

end Response

/-- The end of the trailer is there when only that is left. -/
def Session.Prompt {C : Type} {net : Connection C} {r : Ref} {stream : AppStream C} {timeout : Nat}
    (S : Session net r stream timeout) : Prop :=
  ∀ e, S.up e → S.unread e <:+ [13, 10] → S.unread e ≠ [] → ∃ a e', (net.available r).Returns e a e' ∧ 0 < a

/-- Nothing of a body but the end of its trailer has to be there in time. -/
def Session.Timely {C : Type} {net : Connection C} {r : Ref} {stream : AppStream C} {timeout : Nat}
    (S : Session net r stream timeout) : Body → Prop
  | .plain _ => True
  | .chunks _ => S.Prompt

namespace HTTPClient

variable {C : Type} {net : Connection C} {r : Ref} {stream : AppStream C} {timeout : Nat} (S : Session net r stream timeout)
  {c : HTTPClient C}

/-- A client with the connection, which it may keep. -/
structure Ready (r : Ref) (timeout : Nat) (c : HTTPClient C) : Prop where
  client : c._client = some r
  reuse : c._reuse = true
  tcpTimeout : c._tcpTimeout = timeout
  keys : DistinctKeys c._currentHeaders

/-- Nothing is left of a response, or the end of its trailer. -/
structure Rest (accepted : Bytes) (responses : List Bytes) (e : C) : Prop where
  up : S.up e
  suffix : S.unread e <:+ [13, 10]
  prompt : S.unread e = [] ∨ S.Prompt
  accepted : S.accepted e = accepted
  responses : S.responses e = responses

variable {S} {accepted : Bytes} {responses : List Bytes} {e : C}

theorem Rest.still {e' : C} (h : Rest S accepted responses e) (hs : S.Still e e') : Rest S accepted responses e' :=
  ⟨hs.up, hs.unread ▸ h.suffix, hs.unread ▸ h.prompt, hs.accepted.trans h.accepted, hs.responses.trans h.responses⟩

/-- What is left is there to be read. -/
theorem Rest.available (h : Rest S accepted responses e) : ∃ a e', (net.available r).Returns e a e' ∧ S.Still e e' ∧
    (a > 0 ↔ S.unread e ≠ []) := by
  obtain ⟨a, e', ha, hs, hpos, -, hle, -⟩ := S.available e h.up
  refine ⟨a, e', ha, hs, fun hgt hnil => ?_, fun hne => ?_⟩
  · rw [hnil, List.length_nil] at hle
    omega
  · obtain ⟨a', e'', ha', hgt⟩ := h.prompt.resolve_left hne e h.up h.suffix hne
    obtain ⟨rfl, -⟩ := Prog.Returns.det ha ha'
    exact hgt

/-- The connection is drained of it. -/
theorem drain_empties (hc : c._client = some r) (h : Rest S accepted responses e) :
    ∃ e', (drain net).Returns ⟨c, e⟩ () ⟨c, e'⟩ ∧ Rest S accepted responses e' ∧ S.unread e' = [] := by
  have loop : ∃ u s', (drain net).Returns ⟨c, e⟩ u s' ∧ s'.self = c ∧ Rest S accepted responses s'.env ∧ S.unread s'.env = [] := by
    let I (_ : Unit) (s : Live C (HTTPClient C)) : Prop := s.self = c ∧ Rest S accepted responses s.env
    let Q (_ : Unit) (s : Live C (HTTPClient C)) : Prop := s.self = c ∧ Rest S accepted responses s.env ∧ S.unread s.env = []
    refine Prog.loop_returns Nat.lt_wfRel.wf I Q (fun _ s => (S.unread s.env).length) ?_ ⟨rfl, h⟩
    rintro _ ⟨_, e₁⟩ ⟨rfl, h₁⟩
    obtain ⟨a, e₂, ha, hs₂, hiff⟩ := h₁.available
    by_cases hpos : a > 0
    · have hne := hs₂.unread ▸ hiff.mp hpos
      obtain ⟨b, e₃, hread, hs₃⟩ := S.read e₂ hs₂.up hne
      have hrest : Rest S accepted responses e₃ := by
        refine ⟨hs₃.up, ?_, ?_, hs₃.accepted.trans (h₁.still hs₂).accepted, hs₃.responses.trans (h₁.still hs₂).responses⟩
        · rw [hs₃.unread]
          exact (List.tail_suffix _).trans (h₁.still hs₂).suffix
        · exact .inr ((h₁.still hs₂).prompt.resolve_left hne)
      refine ⟨.next (), ⟨_, e₃⟩, ?_, ⟨rfl, hrest⟩, ?_⟩
      · rw [returns_onClient_bind hc ha, if_pos hpos, returns_onClient_bind hc hread]
        exact Prog.returns_pure.mpr ⟨rfl, rfl⟩
      · have := List.length_pos_of_ne_nil hne
        show (S.unread e₃).length < (S.unread e₁).length
        rw [hs₃.unread, ← hs₂.unread, List.length_tail]
        omega
    · refine ⟨.exit (), ⟨_, e₂⟩, ?_, rfl, h₁.still hs₂, ?_⟩
      · rw [returns_onClient_bind hc ha, if_neg hpos]
        exact Prog.returns_pure.mpr ⟨rfl, rfl⟩
      · exact hs₂.unread.trans (by_contra fun hne => hpos (hiff.mpr hne))
  obtain ⟨_, ⟨_, e'⟩, hloop, rfl, hrest, hempty⟩ := loop
  exact ⟨e', hloop, hrest, hempty⟩

theorem cleanUp_empties (hc : c._client = some r) (h : Rest S accepted responses e) :
    ∃ e', (cleanUp net).Returns ⟨c, e⟩ () ⟨c, e'⟩ ∧ Rest S accepted responses e' ∧ S.unread e' = [] := by
  obtain ⟨a, e₁, ha, hs, hiff⟩ := h.available
  rw [cleanUp]
  simp only [returns_onClient_bind hc ha]
  by_cases hpos : a > 0
  · rw [if_pos hpos]
    exact drain_empties hc (h.still hs)
  · rw [if_neg hpos]
    exact ⟨e₁, Prog.returns_pure.mpr ⟨rfl, rfl⟩, h.still hs, hs.unread.trans (by_contra fun hne => hpos (hiff.mpr hne))⟩

theorem connected_rest (hc : c._client = some r) (h : Rest S accepted responses e) :
    ∃ e', (connected net).Returns ⟨c, e⟩ true ⟨c, e'⟩ ∧ Rest S accepted responses e' := by
  obtain ⟨a, e₁, ha, hs, -⟩ := h.available
  rw [connected]
  simp only [returns_obj_bind, hc]
  by_cases hpos : a > 0
  · refine ⟨e₁, ?_, h.still hs⟩
    rw [returns_outside_bind ha, if_pos hpos]
    exact Prog.returns_pure.mpr ⟨rfl, rfl⟩
  · obtain ⟨e₂, hcon, hs'⟩ := S.connected e₁ hs.up
    refine ⟨e₂, ?_, (h.still hs).still hs'⟩
    rw [returns_outside_bind ha, if_neg hpos, returns_outside]
    exact ⟨e₂, hcon, rfl⟩

/-- The connection is kept. -/
theorem disconnect_keeps (hc : c._client = some r) (hreuse : c._reuse = true) (hcan : c._canReuse = true)
    (h : Rest S accepted responses e) :
    ∃ e', (disconnect net true).Returns ⟨c, e⟩ () ⟨c, e'⟩ ∧ Rest S accepted responses e' ∧ S.unread e' = [] := by
  obtain ⟨e₁, hcon, h₁⟩ := connected_rest hc h
  obtain ⟨e₂, hclean, h₂, hempty⟩ := cleanUp_empties hc h₁
  refine ⟨e₂, ?_, h₂, hempty⟩
  rw [disconnect, Prog.returns_bind_of hcon, if_pos rfl, Prog.returns_bind_of hclean, returns_obj_bind, if_pos ⟨hreuse, hcan⟩]
  exact Prog.returns_pure.mpr ⟨rfl, rfl⟩

/-- The connection is used again. -/
theorem connect_keeps (hc : c._client = some r) (h : Rest S accepted responses e) :
    ∃ e', (connect net).Returns ⟨c, e⟩ true ⟨c, e'⟩ ∧ Rest S accepted responses e' ∧ S.unread e' = [] := by
  obtain ⟨e₁, hcon, h₁⟩ := connected_rest hc h
  obtain ⟨e₂, hdrain, h₂, hempty⟩ := drain_empties hc h₁
  refine ⟨e₂, ?_, h₂, hempty⟩
  rw [connect, Prog.returns_bind_of hcon, if_pos rfl, Prog.returns_bind_of hdrain]
  exact Prog.returns_pure.mpr ⟨rfl, rfl⟩

end HTTPClient

namespace HTTPClient

variable {C : Type} {net : Connection C} {r : Ref} {stream : AppStream C} {timeout : Nat} {S : Session net r stream timeout}
  {c : HTTPClient C} {accepted : Bytes} {responses : List Bytes} {e : C}

/-! ## A request -/

theorem writeHead_returns {header : Bytes} {n : Nat} {e' : C} (hc : c._client = some r) (h : (net.write r header).Returns e n e') :
    (writeHead net header).Returns ⟨c, e⟩ n
      ⟨{ c with heads := c.heads ++ c._client.toList.map fun r => ⟨r, header, e⟩ }, e'⟩ := by
  rw [writeHead, Prog.returns_gets_bind, returns_set_bind]
  exact (returns_onClient (r := r) hc).mpr ⟨e', h, rfl⟩

/-- The head is written, and the server answers. -/
theorem sendHeader_answered (hc : c._client = some r) (type : Bytes) {response : Bytes}
    (h : Rest S accepted (response :: responses) e) (hun : S.unread e = []) :
    ∃ authorization heads e', (sendHeader net type).Returns ⟨c, e⟩ true
        ⟨{ c with _base64Authorization := authorization, heads := heads }, e'⟩ ∧
      S.up e' ∧ S.unread e' = response ∧ S.accepted e' = accepted ∧ S.responses e' = responses ∧ S.due e' ≤ S.clock e' + timeout := by
  obtain ⟨a, e₁, ha, hs₁, hiff⟩ := h.available
  obtain ⟨e₂, hcon, hs₂⟩ := S.connected e₁ hs₁.up
  have hconnected : (connected net).Returns ⟨c, e⟩ true ⟨c, e₂⟩ := by
    rw [connected]
    simp only [returns_obj_bind, hc]
    rw [returns_outside_bind ha, if_neg (fun hpos => hiff.mp hpos hun), returns_outside]
    exact ⟨e₂, hcon, rfl⟩
  have h₂ := (h.still hs₁).still hs₂
  obtain ⟨e₃, hwrite, hup₃, hun₃, hacc₃, hres₃, hdue₃⟩ := S.write (headText c type) e₂ response responses hs₂.up h₂.responses
  refine ⟨c._base64Authorization.filter (· != 10), c.heads ++ c._client.toList.map fun r => ⟨r, headText c type, e₂⟩, e₃, ?_, hup₃, ?_,
    hacc₃.trans h₂.accepted, hres₃, hdue₃⟩
  · have hhead := writeHead_returns (c := { c with _base64Authorization := c._base64Authorization.filter (· != 10) }) hc hwrite
    rw [sendHeader, Prog.returns_bind_of hconnected, if_neg (fun hne => hne rfl), returns_obj_bind, returns_set_bind]
    exact Prog.returns_bind.mpr ⟨_, _, hhead, Prog.returns_pure.mpr ⟨(decide_eq_true rfl).symm, rfl⟩⟩
  · rw [hun₃, hs₂.unread, hs₁.unread, hun]
    rfl

theorem keys_collected {fields : List HeaderField} {as as' : List RequestArgument} (h : List.Forall₂ (Collected fields) as as') :
    as'.map (·.key) = as.map (·.key) := by
  induction h with
  | nil => rfl
  | cons hkey _ ih => rw [List.map_cons, List.map_cons, hkey.key, ih]

theorem distinctKeys_congr {as as' : List RequestArgument} (h : as'.map (·.key) = as.map (·.key)) (hkeys : DistinctKeys as) :
    DistinctKeys as' := by
  have hmap (bs : List RequestArgument) : bs.map (fun a => a.key.map Str.toLower) = (bs.map (·.key)).map (List.map Str.toLower) := by
    rw [List.map_map]
    rfl
  rw [DistinctKeys, hmap, h, ← hmap]
  exact hkeys

/-- The client after the head of a response, of which the body is unread. -/
structure Awaits (S : Session net r stream timeout) (x : Response) (accepted : Bytes) (responses : List Bytes) (c : HTTPClient C)
    (e : C) : Prop where
  ready : Ready r timeout c
  canReuse : c._canReuse = true
  size : c._size = x.head.size
  transferEncoding : c._transferEncoding = .chunked ↔ x.head.chunked
  up : S.up e
  unread : S.unread e = x.body.render
  accepted : S.accepted e = accepted
  responses : S.responses e = responses

/-- **A request returns the code of its response.** -/
theorem sendRequest_answered (hready : Ready r timeout c) (type : Bytes) {x : Response}
    (h : Rest S accepted (x.render :: responses) e) :
    ∃ c' e', (sendRequest net type []).Returns ⟨c, e⟩ x.code ⟨c', e'⟩ ∧ Awaits S x accepted responses c' e' := by
  obtain ⟨e₁, hconnect, h₁, hun₁⟩ := connect_keeps hready.client h
  obtain ⟨authorization, heads, e₂, hsend, hup₂, hun₂, hacc₂, hres₂, hdue₂⟩ := sendHeader_answered hready.client type h₁ hun₁
  obtain ⟨c', e', hhead, hanswered, ⟨hup', hacc', hres'⟩, hun'⟩ := handleHeaderResponse_answers (S.head accepted responses) x.head
    x.body.render (c := { c with _base64Authorization := authorization, heads := heads }) hready.client hready.tcpTimeout
    hready.keys ⟨hup₂, hacc₂, hres₂⟩ hun₂ hdue₂
  rw [x.result_head] at hhead
  have hcode : ¬ x.code < 0 := Int.not_lt.mpr (Int.natCast_nonneg _)
  refine ⟨c', e', ?_, ⟨hanswered.client.trans hready.client, hanswered.reuse.trans hready.reuse,
    hanswered.tcpTimeout.trans hready.tcpTimeout, distinctKeys_congr (keys_collected hanswered.taken.currentHeaders) hready.keys⟩,
    ?_, hanswered.taken.size, hanswered.taken.transferEncoding, hup', hun', hacc', hres'⟩
  · rw [sendRequest, Prog.returns_bind_of hconnect, if_neg (fun hne => hne rfl), if_neg (fun hne => hne rfl)]
    dsimp only
    rw [Prog.returns_bind_of hsend, if_neg (fun hne => hne rfl), if_neg (fun hne => hne rfl)]
    rw [Prog.returns_bind_of hhead, returnError, if_neg hcode]
    exact Prog.returns_pure.mpr ⟨rfl, rfl⟩
  · rw [hanswered.canReuse, x.keeps, Bool.and_true]
    exact hready.reuse

/-! ## Its body -/

/-- The whole body is written to the stream, and its length is the result. -/
theorem readBody_whole {x : Response} (h : Awaits S x accepted responses c e) :
    ∃ c' e', (readBody net stream).Returns ⟨c, e⟩ (.ok x.body.content.length) ⟨c', e'⟩ ∧ (∃ size, c' = { c with _size := size }) ∧
      S.up e' ∧ S.unread e' = (match x.body with | .plain _ => [] | .chunks _ => [13, 10]) ∧
      S.accepted e' = accepted ++ x.body.content ∧ S.responses e' = responses := by
  have hframed := x.framed
  have hshort := x.short
  have hun := h.unread
  cases hbody : x.body with
  | plain content =>
    rw [hbody] at hframed hshort hun
    have hencoding : c._transferEncoding = .identity := by
      cases hte : c._transferEncoding with
      | identity => rfl
      | chunked => exact absurd (h.transferEncoding.mp hte) (Response.chunked_plain hframed.1)
    obtain ⟨e', hcopy, ⟨hup', hres'⟩, hun', hacc'⟩ := writeToStreamDataBlock_delivers (S.body responses)
      h.ready.client ⟨h.up, h.responses⟩ (show content.length < 2 ^ 31 from hshort) (Nat.le_of_eq (congrArg List.length hun).symm)
    have hun' : S.unread e' = (S.unread e).drop content.length := hun'
    have hacc' : S.accepted e' = S.accepted e ++ (S.unread e).take content.length := hacc'
    rw [hun, Body.render] at hun' hacc'
    have hcopy' : (writeToStreamDataBlock net stream c._size).Returns ⟨c, e⟩ content.length ⟨c, e'⟩ := by
      rw [h.size, hframed.2]
      exact hcopy
    refine ⟨c, e', ?_, ⟨c._size, rfl⟩, hup', hun'.trans List.drop_length, ?_, hres'⟩
    · rw [readBody, returns_obj_bind, hencoding]
      dsimp only
      rw [Prog.returns_bind_of hcopy', if_neg (Int.not_lt.mpr (Int.natCast_nonneg _))]
      exact Prog.returns_pure.mpr ⟨rfl, rfl⟩
    · rw [hacc', h.accepted, List.take_length]
      rfl
  | chunks b =>
    rw [hbody] at hframed hshort hun
    have hencoding : c._transferEncoding = .chunked := h.transferEncoding.mpr hframed.1
    obtain ⟨ls, htaken⟩ := b.taken [13, 10] hshort
    obtain ⟨e', hloop, ⟨hup', hres'⟩, hun', hacc'⟩ := chunks_decoded (S.body responses) (n := 0) h.ready.client
      (h.size.trans_le hframed.2) htaken ⟨h.up, h.responses⟩ hun
    have hlen : int32 (0 + b.content.length : Nat) = b.content.length := by
      rw [Nat.zero_add]
      exact int32_eq (by omega) (by have : b.content.length < 2 ^ 31 := hshort; omega)
    rw [hlen] at hloop
    exact ⟨_, e', readBody_chunked hencoding hloop, ⟨_, rfl⟩, hup', hun', hacc'.trans (by rw [show (S.body responses).accepted e = S.accepted e from rfl, h.accepted]; rfl), hres'⟩

/-- **The body of a response is written to the stream**, and the connection is kept. -/
theorem writeToStream_whole {x : Response} (h : Awaits S x accepted responses c e) (hprompt : S.Timely x.body) :
    ∃ c' e', (writeToStream net (some stream)).Returns ⟨c, e⟩ x.body.content.length ⟨c', e'⟩ ∧ Ready r timeout c' ∧
      Rest S (accepted ++ x.body.content) responses e' := by
  obtain ⟨e₁, hcon, hq⟩ := connected_up (S.body responses) h.ready.client ⟨h.up, h.responses⟩
  have h₁ : Awaits S x accepted responses c e₁ := ⟨h.ready, h.canReuse, h.size, h.transferEncoding, hq.up.1, hq.unread.trans h.unread,
    hq.accepted.trans h.accepted, hq.up.2⟩
  obtain ⟨_, e₂, hbody, ⟨size, rfl⟩, hup₂, hun₂, hacc₂, hres₂⟩ := readBody_whole h₁
  have hrest : Rest S (accepted ++ x.body.content) responses e₂ := by
    refine ⟨hup₂, ?_, ?_, hacc₂, hres₂⟩
    · rw [hun₂]
      cases x.body with
      | plain => exact List.nil_suffix
      | chunks => exact List.suffix_rfl
    · cases hx : x.body with
      | plain =>
        rw [hx] at hun₂
        exact .inl hun₂
      | chunks =>
        rw [hx] at hprompt
        exact .inr hprompt
  obtain ⟨e₃, hkept, hrest₃, -⟩ := disconnect_keeps (c := { c with _size := size }) h.ready.client h.ready.reuse h.canReuse hrest
  refine ⟨{ c with _size := size }, e₃, ?_, ⟨h.ready.client, h.ready.reuse, h.ready.tcpTimeout, h.ready.keys⟩, hrest₃⟩
  rw [writeToStream, Prog.returns_bind_of hcon, if_neg (fun hne => hne rfl), Prog.returns_bind_of hbody, Prog.returns_bind_of hkept]
  exact Prog.returns_pure.mpr ⟨rfl, rfl⟩

/-! ## Several requests -/

/-- A request without a payload, with what is set before it: a uri, headers to
send or to collect. -/
structure Request (C : Type) (r : Ref) (timeout : Nat) where
  type : Bytes
  settings : HTTPClient C → HTTPClient C
  ready : ∀ c, Ready r timeout c → Ready r timeout (settings c)

/-- A request, and its response read into the stream: what the calls return. -/
def exchange (net : Connection C) (stream : AppStream C) (request : Request C r timeout) : Prog (Live C (HTTPClient C)) (Int × Int) := do
  set request.settings
  let code ← sendRequest net request.type []
  let length ← writeToStream net (some stream)
  return (code, length)

def exchanges (net : Connection C) (stream : AppStream C) : List (Request C r timeout) → Prog (Live C (HTTPClient C)) (List (Int × Int))
  | [] => return []
  | request :: requests => do
    let x ← exchange net stream request
    return x :: (← exchanges net stream requests)

theorem exchange_separate (hready : Ready r timeout c) (request : Request C r timeout) {x : Response} (hprompt : S.Timely x.body)
    (h : Rest S accepted (x.render :: responses) e) :
    ∃ c' e', (exchange net stream request).Returns ⟨c, e⟩ (x.code, x.body.content.length) ⟨c', e'⟩ ∧ Ready r timeout c' ∧
      Rest S (accepted ++ x.body.content) responses e' := by
  obtain ⟨c₁, e₁, hsend, hawaits⟩ := sendRequest_answered (request.ready c hready) request.type h
  obtain ⟨c₂, e₂, hwrite, hready₂, hrest₂⟩ := writeToStream_whole hawaits hprompt
  refine ⟨c₂, e₂, ?_, hready₂, hrest₂⟩
  rw [exchange, returns_set_bind, Prog.returns_bind_of hsend, Prog.returns_bind_of hwrite]
  exact Prog.returns_pure.mpr ⟨rfl, rfl⟩

/-- **Responses over one connection do not run into each other.** Each request
returns the code of its response, and each body is read as it was sent. -/
theorem exchanges_separate (hready : Ready r timeout c) {requests : List (Request C r timeout)} {xs : List Response}
    (hlen : requests.length = xs.length) (hprompt : ∀ x ∈ xs, S.Timely x.body)
    (h : Rest S accepted (xs.map Response.render) e) :
    ∃ s', (exchanges net stream requests).Returns ⟨c, e⟩ (xs.map fun x => (x.code, (x.body.content.length : Int))) s' ∧
      S.accepted s'.env = accepted ++ xs.flatMap fun x => x.body.content := by
  induction requests generalizing xs c e accepted with
  | nil =>
    obtain rfl := List.length_eq_zero_iff.mp hlen.symm
    refine ⟨⟨c, e⟩, Prog.returns_pure.mpr ⟨rfl, rfl⟩, ?_⟩
    rw [List.flatMap_nil, List.append_nil]
    exact h.accepted
  | cons request requests ih =>
    cases xs with
    | nil => cases hlen
    | cons x xs =>
      obtain ⟨c₁, e₁, hfirst, hready₁, h₁⟩ := exchange_separate hready request (hprompt x (List.mem_cons_self ..)) h
      obtain ⟨s', hrest, hacc⟩ := ih hready₁ (Nat.succ.inj hlen) (fun y hy => hprompt y (List.mem_cons_of_mem x hy)) h₁
      refine ⟨s', ?_, ?_⟩
      · rw [exchanges, Prog.returns_bind_of hfirst, Prog.returns_bind_of hrest]
        exact Prog.returns_pure.mpr ⟨rfl, rfl⟩
      · rw [hacc, List.flatMap_cons, List.append_assoc]

end HTTPClient

namespace HTTPClient

variable {C : Type} {net : Connection C} {r : Ref} {stream : AppStream C} {timeout : Nat} {S : Session net r stream timeout}
  {c : HTTPClient C} {accepted : Bytes} {responses : List Bytes} {e : C}

/-! ## The end of a trailer that comes late -/

/-- An empty line is taken for a response without a status line. -/
theorem handleHeaderResponse_late (D : HeadDelivery net r timeout) {rest : Bytes} (hc : c._client = some r)
    (htimeout : c._tcpTimeout = timeout) (hup : D.up e) (hun : D.unread e = [13, 10] ++ rest) (hdue : D.due e ≤ D.clock e + timeout) :
    ∃ c' e', (handleHeaderResponse net).Returns ⟨c, e⟩ errorNoHttpServer ⟨c', e'⟩ ∧ c'._client = some r ∧ D.up e' ∧ D.unread e' = rest := by
  obtain ⟨e₁, hcon, hs₁⟩ := connected_still D hc hup
  obtain ⟨e₂, hmillis, hs₂⟩ := D.millis e₁ hs₁.up
  let c₁ : HTTPClient C := { c with
    _returnCode := 0, _size := -1, _headers := [], _canReuse := c._reuse, _transferEncoding := .identity }
  have hclock := hs₁.clock
  have hclock₂ := hs₂.clock
  have hdue₂ : D.due e₂ = D.due e := (hs₁.trans hs₂).due
  have hin : InTime D e₂ { lastDataTime := D.clock e₁ % 2 ^ 32 } := ⟨hs₂.up, D.clock e₁, rfl, hclock₂, by omega⟩
  obtain ⟨_, e₃, hup₃, hun₃, -, hgo⟩ := headLoop_reads D [13] (c := c₁) hc htimeout hin ((hs₁.trans hs₂).unread.trans hun) (by decide)
  have hempty : Str.trim [13] = [] := rfl
  rw [hempty, headerLine_empty] at hgo
  refine ⟨{ c₁ with _currentHeaders := collect [] [] c._currentHeaders }, e₃, ?_, hc, hup₃, hun₃⟩
  rw [handleHeaderResponse, Prog.returns_bind_of hcon, if_neg (fun h => h rfl), clear, returns_set_bind, returns_set_bind,
    returns_outside_bind hmillis]
  refine hgo _ _ ?_
  rw [if_pos rfl, endOfHead, if_neg (fun hne => hne rfl), returns_set_bind, returns_obj_bind, if_neg (fun hne => hne rfl)]
  exact Prog.returns_pure.mpr ⟨rfl, rfl⟩

/-- **A line end that comes after the connection was drained fails the next
request**, whatever the server answers to it. -/
theorem sendRequest_late (hready : Ready r timeout c) (type : Bytes) {response : Bytes}
    (h : Rest S accepted (([13, 10] ++ response) :: responses) e) :
    ∃ s', (sendRequest net type []).Returns ⟨c, e⟩ errorNoHttpServer s' := by
  obtain ⟨e₁, hconnect, h₁, hun₁⟩ := connect_keeps hready.client h
  obtain ⟨authorization, heads, e₂, hsend, hup₂, hun₂, hacc₂, hres₂, hdue₂⟩ := sendHeader_answered hready.client type h₁ hun₁
  obtain ⟨c', e', hhead, hc', ⟨hup', -, hres'⟩, -⟩ := handleHeaderResponse_late (S.head accepted responses)
    (c := { c with _base64Authorization := authorization, heads := heads }) hready.client hready.tcpTimeout ⟨hup₂, hacc₂, hres₂⟩
    hun₂ hdue₂
  obtain ⟨e₃, hcon, hq⟩ := connected_up (S.body responses) hc' ⟨hup', hres'⟩
  obtain ⟨e₄, hstop, -⟩ := S.stop e₃ hq.up.1
  refine ⟨⟨c', e₄⟩, ?_⟩
  rw [sendRequest, Prog.returns_bind_of hconnect, if_neg (fun hne => hne rfl), if_neg (fun hne => hne rfl)]
  dsimp only
  rw [Prog.returns_bind_of hsend, if_neg (fun hne => hne rfl), if_neg (fun hne => hne rfl)]
  rw [Prog.returns_bind_of hhead, returnError, if_pos (by decide), Prog.returns_bind_of hcon, if_pos rfl,
    returns_onClient_bind hc' hstop]
  exact Prog.returns_pure.mpr ⟨rfl, rfl⟩

end HTTPClient

/-! ## A server -/

namespace KeepDemo

open Prog (step)

/-- The outside of the example. Bytes come 15 ms after those before them were
read, but for the end of a trailer. -/
structure Host where
  unread : Bytes := []
  accepted : Bytes := []
  responses : List Bytes
  clock : Nat := 0
  due : Nat := 0
  deriving DecidableEq, Repr

def poll (e : Host) : Int × Host :=
  if e.clock + 1 < e.due ∧ e.unread ≠ [13, 10] ∧ e.unread ≠ [10] then (0, { e with clock := e.clock + 1 })
  else ((min 3 e.unread.length : Nat), e)

def connection : Connection Host where
  create _ := pure 0
  release _ := pure ()
  setCACert _ _ := pure ()
  setCertificate _ _ := pure ()
  setPrivateKey _ _ := pure ()
  connect _ _ _ _ := pure 0
  setTimeout _ _ := pure ()
  write _ bs := step fun e =>
    (bs.length, { e with unread := e.unread ++ e.responses.headD [], responses := e.responses.tail, due := e.clock + 15 })
  getWriteError _ := pure 0
  clearWriteError _ := pure ()
  available _ := step poll
  read _ := step fun e => ((e.unread.headD 0).toNat, { e with unread := e.unread.tail })
  readBytes _ n := step fun e => (e.unread.take n, { e with unread := e.unread.drop n, due := e.clock + 15 })
  readStringUntil _ c := step fun e =>
    (e.unread.takeWhile (· != c), { e with unread := (e.unread.dropWhile (· != c)).tail, due := e.clock + 15 })
  connected _ := pure true
  stop _ := pure ()
  malloc n := pure (some (List.replicate n 0))
  millis := step fun e => (e.clock % 2 ^ 32, e)
  delay n := step fun e => ((), { e with clock := e.clock + n })
  base64Encode bs := bs

def stream : AppStream Host where
  write bs := step fun e => (bs.length, { e with accepted := e.accepted ++ bs })
  getWriteError := pure 0
  clearWriteError := pure ()
  available := pure 0
  readBytes _ := pure []

def session : Session connection 0 stream 60000 where
  up _ := True
  unread := Host.unread
  accepted := Host.accepted
  responses := Host.responses
  wait e := e.due - e.clock
  clock := Host.clock
  due := Host.due
  available e _ := by
    refine ⟨(poll e).1, (poll e).2, Prog.returns_step.mpr rfl, ?_⟩
    by_cases h : e.clock + 1 < e.due ∧ e.unread ≠ [13, 10] ∧ e.unread ≠ [10]
    · rw [show poll e = (0, { e with clock := e.clock + 1 }) from if_pos h]
      refine ⟨⟨trivial, rfl, rfl, rfl, Nat.sub_le_sub_left (Nat.le_succ _) _, Nat.le_succ _, rfl⟩, Int.le_refl 0,
        (by decide : (0 : Int) < 2 ^ 31), Nat.zero_le _, fun _ _ => ⟨?_, h.1⟩⟩
      show e.due - (e.clock + 1) < e.due - e.clock
      omega
    · rw [show poll e = (((min 3 e.unread.length : Nat) : Int), e) from if_neg h]
      refine ⟨⟨trivial, rfl, rfl, rfl, Nat.le_refl _, Nat.le_refl _, rfl⟩, Int.natCast_nonneg _, ?_, ?_, fun hz hne => ?_⟩
      · show ((min 3 e.unread.length : Nat) : Int) < 2 ^ 31
        omega
      · show (((min 3 e.unread.length : Nat) : Int)).toNat ≤ e.unread.length
        omega
      · have := List.length_pos_of_ne_nil hne
        have hz : ((min 3 e.unread.length : Nat) : Int) = 0 := hz
        omega
  connected e _ := ⟨e, Prog.returns_pure.mpr ⟨rfl, rfl⟩, trivial, rfl, rfl, rfl, Nat.le_refl _, Nat.le_refl _, rfl⟩
  read e _ _ := ⟨_, _, Prog.returns_step.mpr rfl, trivial, rfl, rfl, rfl, Nat.le_refl _⟩
  readBytes n e _ := ⟨_, Prog.returns_step.mpr rfl, trivial, rfl, rfl, rfl, Nat.le_refl _⟩
  readLine e _ := ⟨_, Prog.returns_step.mpr rfl, ⟨trivial, rfl, rfl, rfl, Nat.le_refl _⟩, fun _ => Nat.add_le_add_left (by decide) _⟩
  write text e response rest _ hres := by
    refine ⟨_, Prog.returns_step.mpr rfl, trivial, ?_, rfl, ?_, Nat.add_le_add_left (by decide) _⟩
    · rw [hres]
      rfl
    · rw [hres]
      rfl
  malloc n e _ := ⟨_, e, Prog.returns_pure.mpr ⟨rfl, rfl⟩, List.length_replicate, trivial, rfl, rfl, rfl, Nat.le_refl _, Nat.le_refl _, rfl⟩
  millis e _ := ⟨e, Prog.returns_step.mpr rfl, trivial, rfl, rfl, rfl, Nat.le_refl _, Nat.le_refl _, rfl⟩
  delay n e _ := ⟨_, Prog.returns_step.mpr rfl, ⟨trivial, rfl, rfl, rfl, Nat.sub_le_sub_left (Nat.le_add_right _ _) _,
    Nat.le_add_right _ _, rfl⟩, Nat.le_refl _⟩
  stop e _ := ⟨e, Prog.returns_pure.mpr ⟨rfl, rfl⟩, rfl⟩
  release _ e := ⟨e, Prog.returns_pure.mpr ⟨rfl, rfl⟩, rfl⟩
  pass bs e _ := ⟨_, Prog.returns_step.mpr rfl, trivial, rfl, rfl, rfl⟩
  getWriteError e _ := ⟨e, Prog.returns_pure.mpr ⟨rfl, rfl⟩, trivial, rfl, rfl, rfl, Nat.le_refl _, Nat.le_refl _, rfl⟩

theorem prompt : session.Prompt := by
  intro e _ hsuffix hne
  refine ⟨(poll e).1, (poll e).2, Prog.returns_step.mpr rfl, ?_⟩
  have hend : e.unread = [13, 10] ∨ e.unread = [10] := by
    have hsuffix : e.unread <:+ [13, 10] := hsuffix
    have hne : e.unread ≠ [] := hne
    rcases List.suffix_cons_iff.mp hsuffix with h | h
    · exact .inl h
    · rcases List.suffix_cons_iff.mp h with h | h
      · exact .inr h
      · exact absurd (List.suffix_nil.mp h) hne
  have hready : ¬ (e.clock + 1 < e.due ∧ e.unread ≠ [13, 10] ∧ e.unread ≠ [10]) := by
    rintro ⟨-, hboth, hone⟩
    exact hend.elim hboth hone
  rw [poll, if_neg hready]
  have hlen : 0 < e.unread.length := by
    rcases hend with h | h <;> rw [h] <;> decide
  exact Int.natCast_pos.mpr (Nat.lt_min.mpr ⟨by decide, hlen⟩)

def client : HTTPClient Host := { _client := some 0 }

theorem ready : HTTPClient.Ready 0 60000 client := ⟨rfl, rfl, rfl, List.nodup_nil⟩

/-- A request for "/a", and one for "/b". -/
def get (uri : Bytes) : HTTPClient.Request Host 0 60000 where
  type := bytes "GET"
  settings c := { c with _uri := uri }
  ready _ h := ⟨h.client, h.reuse, h.tcpTimeout, h.keys⟩

def plain : Response where
  head := HeadDemo.head [HeadDemo.field (bytes "Content-Length") (bytes " 3")]
  body := .plain (bytes "one")
  keeps := by decide +kernel
  framed := ⟨by decide +kernel, by decide +kernel⟩
  short := by decide +kernel

def chunked : Response where
  head := HeadDemo.head [HeadDemo.field (bytes "Transfer-encoding") (bytes " chunked")]
  body := .chunks BodyDemo.hello
  keeps := by decide +kernel
  framed := ⟨by decide +kernel, by decide +kernel⟩
  short := by decide +kernel

theorem exchanges_separate_chunked : ∃ s', (HTTPClient.exchanges connection stream [get (bytes "/a"), get (bytes "/b"), get (bytes "/a")]).Returns
    ⟨client, { responses := [chunked.render, plain.render, chunked.render] }⟩ [(200, 8), (200, 3), (200, 8)] s' ∧
    s'.env.accepted = bytes "helloworonehellowor" := by
  have hprompt : ∀ x ∈ [chunked, plain, chunked], session.Timely x.body := by
    intro x hx
    rcases List.mem_cons.mp hx with rfl | hx
    · exact prompt
    · rcases List.mem_pair.mp hx with rfl | rfl
      · trivial
      · exact prompt
  have hresult : ([chunked, plain, chunked].map fun x => (x.code, (x.body.content.length : Int))) = [(200, 8), (200, 3), (200, 8)] := by
    decide +kernel
  have hbody : ([chunked, plain, chunked].flatMap fun x => x.body.content) = bytes "helloworonehellowor" := by decide +kernel
  have hrest : HTTPClient.Rest session [] ([chunked, plain, chunked].map Response.render)
      { responses := [chunked.render, plain.render, chunked.render] } := ⟨trivial, List.nil_suffix, .inl rfl, rfl, rfl⟩
  have hlen : [get (bytes "/a"), get (bytes "/b"), get (bytes "/a")].length = [chunked, plain, chunked].length := rfl
  obtain ⟨s', hrun, hacc⟩ := HTTPClient.exchanges_separate ready hlen hprompt hrest
  exact ⟨s', hresult ▸ hrun, hacc.trans hbody⟩

theorem sendRequest_late_plain : ∃ s', (HTTPClient.sendRequest connection (bytes "GET") []).Returns
    ⟨client, { responses := [[13, 10] ++ plain.render] }⟩ (-7) s' := by
  have hrest : HTTPClient.Rest session [] [[13, 10] ++ plain.render] { responses := [[13, 10] ++ plain.render] } :=
    ⟨trivial, List.nil_suffix, .inl rfl, rfl, rfl⟩
  exact HTTPClient.sendRequest_late ready (bytes "GET") hrest

end KeepDemo

end FEmbed
