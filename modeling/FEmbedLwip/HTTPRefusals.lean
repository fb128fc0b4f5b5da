/-
What a `begin` that failed leaves behind.

Without a client object and without traits to make one with, requests are
refused and nothing happens outside (`Refused`); every operation but a `begin`
keeps that. A `begin` that fails leaves a client so under a condition on the
state before (`Meets`): it has put its client in place, or not taken the old
one and the traits away, and some overloads have changed the port.
-/
import FEmbedLwip.HTTPCollected

namespace FEmbed

open Live
open Prog (Guarantee Guarantees)
open Relation (ReflTransGen)

namespace HTTPClient

variable {C : Type} {net : Connection C}

/-! ## No client -/

/-- There is no client object, and none will be made. -/
structure Refused (c : HTTPClient C) : Prop where
  client : c._client = none
  traits : c._transportTraits = none

theorem connected_none {s : Live C (HTTPClient C)} (h : s.self._client = none) : (connected net).Returns s false s := by
  rw [connected, returns_obj_bind, h]
  exact Prog.returns_pure.mpr ⟨rfl, rfl⟩

theorem returnError_none {error : Int} {s : Live C (HTTPClient C)} (h : s.self._client = none) :
    (returnError net error).Returns s error s := by
  rw [returnError, Prog.returns_ite]
  by_cases herror : error < 0
  · refine .inl ⟨herror, ?_⟩
    rw [Prog.returns_bind_of (connected_none h), if_neg (by decide)]
    exact Prog.returns_pure.mpr ⟨rfl, rfl⟩
  · exact .inr ⟨herror, Prog.returns_pure.mpr ⟨rfl, rfl⟩⟩

theorem Refused.connect {s : Live C (HTTPClient C)} (h : Refused s.self) : (connect net).Returns s false s := by
  have hcreate : (createClient net).Returns s () s := by
    rw [createClient, returns_obj_bind, h.traits]
    exact Prog.returns_pure.mpr ⟨rfl, rfl⟩
  rw [HTTPClient.connect, Prog.returns_bind_of (connected_none h.client), if_neg (by decide), connectAnew,
    Prog.returns_bind_of hcreate, returns_obj_bind, if_pos h.client]
  exact Prog.returns_pure.mpr ⟨rfl, rfl⟩

/-- A request, with a stream if it is one of a stream. -/
def Op.asks : Op C → Bool
  | .sendRequest .. | .sendRequestStream _ (some _) _ => true
  | _ => false

/-- It returns the error of a refused connection, and changes nothing, inside
or outside. -/
theorem Refused.request {op : Op C} (hop : op.asks) {s : Live C (HTTPClient C)} (h : Refused s.self) :
    (op.run net).Returns s errorConnectionRefused s := by
  cases op with
  | sendRequest type payload =>
    show (HTTPClient.sendRequest net type payload).Returns s errorConnectionRefused s
    rw [HTTPClient.sendRequest, Prog.returns_bind_of h.connect, if_pos (by decide)]
    exact returnError_none h.client
  | sendRequestStream type stream size =>
    cases stream with
    | none => exact nomatch hop
    | some stream =>
      show (HTTPClient.sendRequestStream net type (some stream) size).Returns s errorConnectionRefused s
      rw [HTTPClient.sendRequestStream, Prog.returns_bind_of h.connect, if_pos (by decide)]
      exact returnError_none h.client
  | beginClient | beginClientHost | beginUrl | beginUrlCert | beginHost | beginHostCert | end_ | setReuse | useHTTP10
  | setAuthorization | setTimeout | writeToStream | getString | addHeader | collectHeaders => exact nomatch hop

/-! ## Between two `begin`s -/

def Op.begins : Op C → Bool
  | .beginClient .. | .beginClientHost .. | .beginUrl .. | .beginUrlCert .. | .beginHost .. | .beginHostCert .. => true
  | _ => false

/-- What is refused stays refused. -/
def refused : Guarantee (Live C (HTTPClient C)) where
  rel s s' := Refused s.self → Refused s'.self
  refl _ h := h
  trans h h' := h' ∘ h

theorem refused_set {f : HTTPClient C → HTTPClient C} (hf : ∀ c, (f c)._client = c._client ∧ (f c)._transportTraits = c._transportTraits) :
    (set f : Prog (Live C (HTTPClient C)) Unit).Guarantees refused :=
  guarantees_set fun s h => ⟨(hf s.self).1.trans h.client, (hf s.self).2.trans h.traits⟩

theorem refused_out {α : Type} {x : Prog C α} : (outside x : Prog (Live C (HTTPClient C)) α).Guarantees refused :=
  guarantees_out fun _ _ h => h

/-- What comes to one end if there is no client. -/
theorem refused_of {α : Type} {x : Prog (Live C (HTTPClient C)) α} {a : α}
    (hx : ∀ s : Live C (HTTPClient C), Refused s.self → x.Returns s a s) : x.Guarantees refused := by
  intro s b s' hret h
  rwa [(hret.det (hx s h)).2]

theorem refused_writeToStream {stream : Option (AppStream C)} : (writeToStream net stream).Guarantees refused := by
  cases stream with
  | none => exact refused_of fun s h => (returnError_none h.client : (returnError net errorNoStream).Returns s _ s)
  | some stream =>
    refine refused_of (a := errorNotConnected) fun s h => ?_
    rw [writeToStream, Prog.returns_bind_of (connected_none h.client), if_pos (by decide)]
    exact returnError_none h.client

theorem Op.refused {op : Op C} (hop : op.begins = false) : (op.run net).Guarantees refused := by
  have clear : (clear : Prog (Live C (HTTPClient C)) Unit).Guarantees HTTPClient.refused := refused_set fun _ => ⟨rfl, rfl⟩
  cases op with
  | beginClient | beginClientHost | beginUrl | beginUrlCert | beginHost | beginHostCert => exact nomatch hop
  | end_ =>
    refine .bind (.bind (refused_of (a := ()) fun s h => ?_) fun _ => clear) fun _ => .pure
    rw [disconnect, Prog.returns_bind_of (connected_none h.client), if_neg (by decide)]
    exact Prog.returns_pure.mpr ⟨rfl, rfl⟩
  | setReuse => exact .bind (refused_set fun _ => ⟨rfl, rfl⟩) fun _ => .pure
  | useHTTP10 => exact .bind (refused_set fun _ => ⟨rfl, rfl⟩) fun _ => .pure
  | setAuthorization user password =>
    refine .bind ?_ fun _ => .pure
    cases user with
    | none => exact .pure
    | some user => cases password with
      | none => exact .pure
      | some password =>
        exact refused_set (f := fun c => { c with _base64Authorization := net.base64Encode (user ++ bytes ":" ++ password) })
          fun _ => ⟨rfl, rfl⟩
  | setTimeout t =>
    refine .bind (.bind (refused_set fun _ => ⟨rfl, rfl⟩) fun _ => refused_of (a := ()) fun s h => ?_) fun _ => .pure
    rw [Prog.returns_bind_of (connected_none h.client), if_neg (by decide)]
    exact Prog.returns_pure.mpr ⟨rfl, rfl⟩
  | collectHeaders => exact .bind (refused_set fun _ => ⟨rfl, rfl⟩) fun _ => .pure
  | addHeader name value first replace =>
    refine .bind (fun s _ s' hret h => ?_) fun _ => .pure
    rcases addHeader_returns hret with ⟨_, rfl⟩ | ⟨_, rfl⟩
    · exact h
    · exact ⟨h.client, h.traits⟩
  | sendRequest => exact refused_of fun s h => h.request rfl
  | sendRequestStream type stream size =>
    cases stream with
    | none => exact refused_of fun s h => (returnError_none h.client : (returnError net errorNoStream).Returns s _ s)
    | some stream => exact refused_of fun s h => h.request rfl
  | writeToStream => exact refused_writeToStream
  | getString string =>
    refine .bind (.bind refused_out fun _ => .bind guarantees_obj fun _ => .ite (.bind refused_out fun _ => .ite .pure ?_) ?_)
      fun _ => .pure
    · exact .bind refused_writeToStream fun _ => refused_out
    · exact .bind refused_writeToStream fun _ => refused_out

/-! ## Letting a connection go -/

variable (net) in
/-- The connection is up when it is asked. -/
def Up (s : Live C (HTTPClient C)) : Prop := ∃ t, (connected net).Returns s true t

variable (net) in
/-- An overload without a client finds none, or one of the caller's, which it
lets go because it is connected. -/
def LetsGo (s : Live C (HTTPClient C)) : Prop := s.self._client = none ∨ s.self._tcpDeprecated = none ∧ Up net s

/-- What is connected depends on the client object only. -/
theorem connected_of_client {c c' : HTTPClient C} {e : C} {b : Bool} {t : Live C (HTTPClient C)}
    (h : (connected net).Returns ⟨c, e⟩ b t) (hc : c'._client = c._client) : (connected net).Returns ⟨c', e⟩ b ⟨c', t.env⟩ := by
  rw [connected, returns_obj_bind] at h ⊢
  dsimp only at h ⊢
  rw [hc]
  cases hclient : c._client with
  | none =>
    rw [hclient] at h
    obtain ⟨rfl, rfl⟩ := Prog.returns_pure.mp h
    exact Prog.returns_pure.mpr ⟨rfl, rfl⟩
  | some r =>
    rw [hclient] at h
    obtain ⟨a, u, havail, h⟩ := Prog.returns_bind.mp h
    obtain ⟨e', he', rfl⟩ := returns_outside.mp havail
    refine Prog.returns_bind.mpr ⟨a, ⟨c', e'⟩, returns_outside.mpr ⟨e', he', rfl⟩, ?_⟩
    rcases Prog.returns_ite.mp h with ⟨ha, h⟩ | ⟨ha, h⟩
    · obtain ⟨rfl, rfl⟩ := Prog.returns_pure.mp h
      exact Prog.returns_ite.mpr (.inl ⟨ha, Prog.returns_pure.mpr ⟨rfl, rfl⟩⟩)
    · obtain ⟨e'', he'', rfl⟩ := returns_outside.mp h
      exact Prog.returns_ite.mpr (.inr ⟨ha, returns_outside.mpr ⟨e'', he'', rfl⟩⟩)

theorem outside_self {α : Type} {x : Prog C α} {s : Live C (HTTPClient C)} {a s'} (h : (outside x).Returns s a s') : s'.self = s.self :=
  guarantees_out (G := .same (·.self)) (fun _ _ => rfl) s a s' h

theorem assignClient_self {client : Option Ref} {s : Live C (HTTPClient C)} {u s'} (h : (assignClient net client).Returns s u s') :
    s'.self = { s.self with _client := client } := by
  rw [assignClient, returns_obj_bind, returns_set_bind] at h
  split at h
  · exact congrArg Live.self (Prog.returns_pure.mp h).2
  · rcases Prog.returns_ite.mp h with ⟨_, h⟩ | ⟨_, h⟩
    · exact outside_self h
    · exact congrArg Live.self (Prog.returns_pure.mp h).2

theorem assignDeprecated_self {client : Option Ref} {s : Live C (HTTPClient C)} {u s'}
    (h : (assignDeprecated net client).Returns s u s') : s'.self = { s.self with _tcpDeprecated := client } := by
  rw [assignDeprecated, returns_obj_bind, returns_set_bind] at h
  split at h
  · exact congrArg Live.self (Prog.returns_pure.mp h).2
  · rcases Prog.returns_ite.mp h with ⟨_, h⟩ | ⟨_, h⟩
    · exact outside_self h
    · exact congrArg Live.self (Prog.returns_pure.mp h).2

/-- A client without its connection, and without the traits of its own one. -/
def closed (c : HTTPClient C) : HTTPClient C :=
  { c with
    _client := none
    _transportTraits := if c._tcpDeprecated.isSome then none else c._transportTraits
    _tcpDeprecated := none }

theorem close_self {s : Live C (HTTPClient C)} {u s'} (h : (close net false).Returns s u s') : s'.self = closed s.self := by
  obtain ⟨_, t, hstop, h⟩ := Prog.returns_bind.mp h
  have ht := onClient_self hstop
  rw [if_pos (by decide)] at h
  obtain ⟨_, v, hassign, h⟩ := Prog.returns_bind.mp h
  have hv := assignClient_self hassign
  rw [ht] at hv
  rw [returns_obj_bind, hv] at h
  dsimp only at h
  rcases Prog.returns_ite.mp h with ⟨hown, h⟩ | ⟨hown, h⟩
  · rw [returns_set_bind] at h
    rw [assignDeprecated_self h, hv, closed, if_pos hown]
  · obtain ⟨_, rfl⟩ := Prog.returns_pure.mp h
    have hnone : s.self._tcpDeprecated = none := by simpa using hown
    rw [hv, closed, if_neg hown, ← hnone]

/-- `end`, where the connection may not be used again: it is closed, or found
closed. -/
theorem end_self {s : Live C (HTTPClient C)} {u s'} (hreuse : s.self._canReuse = false) (h : (end_ net).Returns s u s') :
    (Up net s ∧ s'.self = { closed s.self with _returnCode := 0, _size := -1, _headers := [] }) ∨
    (∃ t, (connected net).Returns s false t ∧ s' = ⟨{ s.self with _returnCode := 0, _size := -1, _headers := [] }, t.env⟩) := by
  obtain ⟨_, v, hdisconnect, hclear⟩ := Prog.returns_bind.mp h
  rw [returns_set.mp hclear]
  obtain ⟨b, t, hconn, h⟩ := Prog.returns_bind.mp hdisconnect
  have ht := connected_self hconn
  rcases Prog.returns_ite.mp h with ⟨hb, h⟩ | ⟨hb, h⟩
  · subst hb
    refine .inl ⟨⟨t, hconn⟩, ?_⟩
    obtain ⟨_, w, hclean, h⟩ := Prog.returns_bind.mp h
    have hw : w.self = s.self := (guarantees_cleanUp (G := .same (·.self)) (fun _ _ => rfl) t _ w hclean).trans ht
    rw [returns_obj_bind, hw, if_neg (by simp [hreuse])] at h
    rw [close_self h, hw]
  · obtain ⟨_, rfl⟩ := Prog.returns_pure.mp h
    obtain rfl : b = false := by simpa using hb
    refine .inr ⟨v, hconn, ?_⟩
    rw [ht]

theorem LetsGo.congr {c c' : HTTPClient C} {e : C} (h : LetsGo net ⟨c, e⟩) (hclient : c'._client = c._client)
    (hown : c'._tcpDeprecated = c._tcpDeprecated) : LetsGo net ⟨c', e⟩ := by
  obtain hnone | ⟨hdep, t, hup⟩ := h
  · exact .inl (hclient.trans hnone)
  · exact .inr ⟨hown.trans hdep, ⟨c', t.env⟩, connected_of_client hup hclient⟩

/-- What an overload without a client makes of one of the caller's. -/
theorem leaveClient_cases {s : Live C (HTTPClient C)} {u s'} (h : (leaveClient net).Returns s u s') :
    (s' = s ∧ (s.self._client = none ∨ s.self._tcpDeprecated.isSome)) ∨
    (s'.self._client = none ∧ s'.self._transportTraits = s.self._transportTraits) ∨
    ∃ t, (connected net).Returns s false t ∧
      s' = ⟨{ s.self with _canReuse := false, _returnCode := 0, _size := -1, _headers := [] }, t.env⟩ := by
  rw [leaveClient, returns_obj_bind] at h
  rcases Prog.returns_ite.mp h with ⟨⟨hclient, hown⟩, h⟩ | ⟨hif, h⟩
  · rw [returns_set_bind] at h
    obtain ⟨-, hs'⟩ | ⟨t, hconn, rfl⟩ := end_self rfl h
    · exact .inr (.inl ⟨by rw [hs']; rfl, by rw [hs', closed]; simp [hown]⟩)
    · exact .inr (.inr ⟨⟨s.self, t.env⟩, connected_of_client hconn rfl, rfl⟩)
  · obtain ⟨_, rfl⟩ := Prog.returns_pure.mp h
    refine .inl ⟨rfl, ?_⟩
    cases hc : s'.self._client with
    | none => exact .inl rfl
    | some r =>
      refine .inr ?_
      cases hd : s'.self._tcpDeprecated with
      | none => exact absurd ⟨by rw [hc]; rfl, hd⟩ hif
      | some r => rfl

theorem LetsGo.leaveClient {s : Live C (HTTPClient C)} {u s'} (h : LetsGo net s) (htraits : s.self._transportTraits = none)
    (hret : (leaveClient net).Returns s u s') : Refused s'.self := by
  obtain ⟨rfl, hcase⟩ | ⟨hclient, hsame⟩ | ⟨t, hdown, rfl⟩ := leaveClient_cases hret
  · obtain hnone | ⟨hown, -⟩ := h
    · exact ⟨hnone, htraits⟩
    · rw [hown] at hcase
      exact ⟨hcase.resolve_right (by decide), htraits⟩
  · exact ⟨hclient, hsame.trans htraits⟩
  · obtain hnone | ⟨-, v, hup⟩ := h
    · exact ⟨hnone, htraits⟩
    · exact absurd (hup.det hdown).1 (by decide)

/-- A client of its own goes with its traits, if it is connected. -/
theorem leaveDeprecated_traits {s : Live C (HTTPClient C)} {u s'}
    (h : s.self._transportTraits = none ∨ s.self._tcpDeprecated.isSome ∧ Up net s)
    (hret : (leaveDeprecated net).Returns s u s') : s'.self._transportTraits = none := by
  rw [leaveDeprecated, returns_obj_bind] at hret
  rcases Prog.returns_ite.mp hret with ⟨hown, hret⟩ | ⟨hown, hret⟩
  · rw [returns_set_bind] at hret
    obtain ⟨-, hs'⟩ | ⟨t, hdown, rfl⟩ := end_self rfl hret
    · rw [hs', closed, if_pos hown]
    · refine h.resolve_right fun ⟨_, v, hup⟩ => ?_
      exact absurd (hup.det (connected_of_client hdown rfl)).1 (by decide)
  · obtain ⟨_, rfl⟩ := Prog.returns_pure.mp hret
    exact h.resolve_right fun h => hown h.1

/-! ## A `begin` that fails -/

/-- Host, port and uri, where requests go. -/
def aim (c : HTTPClient C) : Bytes × Nat × Bytes := (c._host, c._port, c._uri)

/-- The target that an overload is given as such. -/
def Op.aim : Op C → Option (Bytes × Nat × Bytes)
  | .beginClientHost _ host port uri _ | .beginHost host port uri | .beginHostCert host port uri .. => some (host, port, uri)
  | _ => none

/-- The target is the old one or the rejected one. -/
def Unmixed (op : Op C) (c c' : HTTPClient C) : Prop := aim c' = aim c ∨ op.aim = some (aim c')

variable (net) in
/-- What a `begin` that fails needs: no client of its own, no traits that stay,
an old client that goes, and for a url the port that it sets anyway. The other
overloads do not fail. -/
def Meets : Op C → Live C (HTTPClient C) → Prop
  | .beginClient client _, s =>
    client = none ∧ (s.self._transportTraits = none ∨ s.self._tcpDeprecated.isSome ∧ Up net s)
  | .beginUrl _, s => s.self._transportTraits = none ∧ s.self._port = 443 ∧
    (LetsGo net s ∨ ∃ t, (connected net).Returns s false t ∧ LetsGo net t)
  | .beginUrlCert _ _, s => s.self._transportTraits = none ∧ s.self._port = 443 ∧ LetsGo net s
  | .beginHostCert .., s => s.self._transportTraits = none ∧ LetsGo net s
  | _, _ => True

theorem targets_settles : Settles (.same (aim ·.self) : Guarantee (Live C (HTTPClient C))) where
  outside _ _ := rfl
  client _ _ := rfl
  deprecated _ _ := rfl
  traits _ _ := rfl
  cleared _ := rfl
  answer _ _ _ _ _ := rfl

theorem leaveClient_target {s : Live C (HTTPClient C)} {u s'} (h : (leaveClient net).Returns s u s') :
    aim s'.self = aim s.self := targets_settles.leaveClient s u s' h

/-- A url that is refused leaves its protocol, at most. -/
theorem beginInternal_false {url expected : Bytes} {s s' : Live C (HTTPClient C)}
    (h : (beginInternal net url expected).Returns s false s') :
    ∃ protocol, s' = ⟨{ s.self with _returnCode := 0, _size := -1, _headers := [], _protocol := protocol }, s.env⟩ := by
  rw [beginInternal, clear, returns_set_bind] at h
  rcases Prog.returns_ite.mp h with ⟨_, h⟩ | ⟨_, h⟩
  · exact ⟨s.self._protocol, (Prog.returns_pure.mp h).2⟩
  rw [returns_set_bind] at h
  rcases Prog.returns_ite.mp h with ⟨_, h⟩ | ⟨_, h⟩
  · exact ⟨_, (Prog.returns_pure.mp h).2⟩
  · rw [returns_set_bind] at h
    cases (Prog.returns_pure.mp h).1

/-- With the protocol that it has itself a url is accepted. -/
theorem beginInternal_own {url : Bytes} {s s' : Live C (HTTPClient C)} (hcolon : ¬ Str.indexOf url 58 < 0) :
    ¬ (beginInternal net url (Str.substring url 0 (Str.indexOf url 58).toNat)).Returns s false s' := by
  intro h
  rw [beginInternal, clear, returns_set_bind] at h
  rcases Prog.returns_ite.mp h with ⟨hneg, _⟩ | ⟨_, h⟩
  · exact hcolon hneg
  rw [returns_set_bind] at h
  rcases Prog.returns_ite.mp h with ⟨hne, _⟩ | ⟨_, h⟩
  · exact hne rfl
  · rw [returns_set_bind] at h
    cases (Prog.returns_pure.mp h).1

theorem beginUrlCert_false {url : Bytes} {CAcert : Option Bytes} {s s' : Live C (HTTPClient C)}
    (h : (beginUrlCert net url CAcert).Returns s false s') :
    ∃ t, (leaveClient net).Returns s () t ∧ s'.self._client = t.self._client ∧
      s'.self._transportTraits = t.self._transportTraits ∧ aim s'.self = (s.self._host, 443, s.self._uri) := by
  obtain ⟨_, t, hleave, h⟩ := Prog.returns_bind.mp h
  rw [returns_set_bind] at h
  obtain ⟨b, u, hint, h⟩ := Prog.returns_bind.mp h
  rcases Prog.returns_ite.mp h with ⟨hb, h⟩ | ⟨_, h⟩
  · obtain ⟨_, rfl⟩ := Prog.returns_pure.mp h
    obtain rfl : b = false := by simpa using hb
    obtain ⟨protocol, rfl⟩ := beginInternal_false hint
    have htarget := leaveClient_target hleave
    simp only [aim, Prod.mk.injEq] at htarget
    exact ⟨t, hleave, rfl, rfl, by simp only [aim, htarget]⟩
  · rw [returns_set_bind] at h
    exact nomatch (Prog.returns_pure.mp h).1

/-- The url is tried with the other protocol, and so the client let go twice. -/
theorem beginUrl_false {url : Bytes} {s s' : Live C (HTTPClient C)} (h : (beginUrl net url).Returns s false s') :
    ∃ t protocol, (leaveClient net).Returns s () t ∧
      (beginUrlCert net url none).Returns ⟨{ t.self with
        _port := 80, _returnCode := 0, _size := -1, _headers := [], _protocol := protocol }, t.env⟩ false s' := by
  obtain ⟨_, t, hleave, h⟩ := Prog.returns_bind.mp h
  rw [returns_set_bind] at h
  obtain ⟨b, u, hint, h⟩ := Prog.returns_bind.mp h
  rcases Prog.returns_ite.mp h with ⟨hb, h⟩ | ⟨_, h⟩
  · obtain rfl : b = false := by simpa using hb
    obtain ⟨protocol, rfl⟩ := beginInternal_false hint
    exact ⟨t, protocol, hleave, h⟩
  · rw [returns_set_bind] at h
    exact nomatch (Prog.returns_pure.mp h).1

theorem beginUrl_refused {url : Bytes} {s s' : Live C (HTTPClient C)} (htraits : s.self._transportTraits = none)
    (hgo : LetsGo net s ∨ ∃ t, (connected net).Returns s false t ∧ LetsGo net t)
    (h : (beginUrl net url).Returns s false s') : Refused s'.self := by
  obtain ⟨t, protocol, hleave, h⟩ := beginUrl_false h
  obtain ⟨u, hagain, hclient, htraits', -⟩ := beginUrlCert_false h
  suffices hu : Refused u.self from ⟨hclient.trans hu.client, htraits'.trans hu.traits⟩
  have second (ht : LetsGo net t) (htraits : t.self._transportTraits = none) : Refused u.self := by
    refine LetsGo.leaveClient ?_ ?_ hagain
    · exact LetsGo.congr (c := t.self) ht rfl rfl
    · exact htraits
  -- The first time it is let go, or it is not connected and let go the second time.
  obtain ⟨rfl, hcase⟩ | ⟨hnone, hsame⟩ | ⟨v, hdown, rfl⟩ := leaveClient_cases hleave
  · refine second ?_ htraits
    obtain hgo | ⟨v, hdown, hgo⟩ := hgo
    · exact hgo
    · rw [LetsGo, connected_self hdown] at hgo
      refine .inl (hgo.elim id fun hown => ?_)
      rw [hown.1] at hcase
      exact hcase.resolve_right (by decide)
  · exact second (.inl hnone) (hsame.trans htraits)
  · refine second ?_ htraits
    obtain (hnone | ⟨-, w, hup⟩) | ⟨w, hdown', hgo⟩ := hgo
    · exact .inl hnone
    · exact absurd (hup.det hdown).1 (by decide)
    · obtain ⟨-, rfl⟩ := hdown.det hdown'
      refine LetsGo.congr (c := v.self) hgo ?_ ?_
      · rw [connected_self hdown]
      · rw [connected_self hdown]

theorem setHost_returns {host : Bytes} {port : Nat} {uri : Bytes} {s : Live C (HTTPClient C)} {u s'}
    (h : (setHost host port uri).Returns s u s') : s' = ⟨{ s.self with
      _returnCode := 0, _size := -1, _headers := [], _host := host, _port := port, _uri := uri }, s.env⟩ := by
  rw [setHost, clear, returns_set_bind] at h
  exact returns_set.mp h

theorem returns_flag {x : Prog (Live C (HTTPClient C)) Bool} {s s' : Live C (HTTPClient C)}
    (h : (do return if ← x then (1 : Int) else 0).Returns s 0 s') : x.Returns s false s' := by
  obtain ⟨b, t, hx, h⟩ := Prog.returns_bind.mp h
  obtain ⟨hb, rfl⟩ := Prog.returns_pure.mp h
  cases b with
  | true => exact absurd hb (by decide)
  | false => exact hx

/-- A `begin` that fails, and meets its condition, leaves no client and no
mixture: by cases on the overload. -/
theorem Op.failed {op : Op C} (hop : op.begins) {s s' : Live C (HTTPClient C)} (hmeets : Meets net op s)
    (h : (op.run net).Returns s 0 s') : Refused s'.self ∧ Unmixed op s.self s'.self := by
  cases op with
  | beginClient client url =>
    have h := returns_flag h
    obtain ⟨hclient, htraits⟩ := hmeets
    obtain ⟨_, t, hleave, h⟩ := Prog.returns_bind.mp h
    have ht := targets_settles.leaveDeprecated s _ t hleave
    have htraits' := leaveDeprecated_traits htraits hleave
    obtain ⟨_, u, hassign, h⟩ := Prog.returns_bind.mp h
    have hu := assignClient_self hassign
    have hend : s' = u := by
      rcases Prog.returns_ite.mp h with ⟨_, h⟩ | ⟨hcolon, h⟩
      · exact (Prog.returns_pure.mp h).2
      rcases Prog.returns_ite.mp h with ⟨_, h⟩ | ⟨_, h⟩
      · exact (Prog.returns_pure.mp h).2
      · rw [returns_set_bind] at h
        exact absurd h (beginInternal_own hcolon)
    subst hend
    rw [hu]
    exact ⟨⟨hclient, htraits'⟩, .inl ht⟩
  | beginUrl url =>
    have h := returns_flag h
    obtain ⟨htraits, hport, hgo⟩ := hmeets
    refine ⟨beginUrl_refused htraits hgo h, .inl ?_⟩
    obtain ⟨t, protocol, hleave, h⟩ := beginUrl_false h
    obtain ⟨-, -, -, -, haim⟩ := beginUrlCert_false h
    have ht := leaveClient_target hleave
    simp only [HTTPClient.aim, Prod.mk.injEq] at ht
    rw [haim, ← hport]
    simp only [HTTPClient.aim, ht]
  | beginUrlCert url CAcert =>
    have h := returns_flag h
    obtain ⟨htraits, hport, hgo⟩ := hmeets
    obtain ⟨t, hleave, hclient, htraits', haim⟩ := beginUrlCert_false h
    have ht := hgo.leaveClient htraits hleave
    exact ⟨⟨hclient.trans ht.client, htraits'.trans ht.traits⟩, .inl (by rw [haim, ← hport]; rfl)⟩
  | beginHostCert host port uri CAcert cliCert cliKey =>
    have h := returns_flag h
    obtain ⟨htraits, hgo⟩ := hmeets
    obtain ⟨_, t, hleave, h⟩ := Prog.returns_bind.mp h
    have ht := hgo.leaveClient htraits hleave
    obtain ⟨_, u, hset, h⟩ := Prog.returns_bind.mp h
    obtain rfl := setHost_returns hset
    cases CAcert with
    | none => exact absurd h Prog.returns_undefined
    | some ca =>
      rcases Prog.returns_ite.mp h with ⟨_, h⟩ | ⟨_, h⟩
      · obtain ⟨_, rfl⟩ := Prog.returns_pure.mp h
        exact ⟨⟨ht.client, ht.traits⟩, .inr rfl⟩
      · rw [returns_set_bind] at h
        exact nomatch (Prog.returns_pure.mp h).1
  | beginClientHost client host port uri https =>
    obtain ⟨_, t, -, h⟩ := Prog.returns_bind.mp (returns_flag h)
    obtain ⟨_, u, -, h⟩ := Prog.returns_bind.mp h
    obtain ⟨_, v, -, h⟩ := Prog.returns_bind.mp h
    rw [returns_set_bind] at h
    exact nomatch (Prog.returns_pure.mp h).1
  | beginHost host port uri =>
    obtain ⟨_, t, -, h⟩ := Prog.returns_bind.mp (returns_flag h)
    obtain ⟨_, u, -, h⟩ := Prog.returns_bind.mp h
    rw [returns_set_bind] at h
    exact nomatch (Prog.returns_pure.mp h).1
  | end_ | setReuse | useHTTP10 | setAuthorization | setTimeout | writeToStream | getString | addHeader | collectHeaders
  | sendRequest | sendRequestStream => exact nomatch hop

/-! ## Runs -/

variable (net) in
/-- A step of the application's after a `begin` that failed: any operation, but of
the `begin`s one that fails, and meets its condition. -/
def Since (s s' : Live C (HTTPClient C)) : Prop :=
  ∃ op : Op C, ∃ rc, (op.begins → rc = 0 ∧ Meets net op s) ∧ (op.run net).Returns s rc s'

theorem Since.refused {s s' : Live C (HTTPClient C)} (h : Since net s s') (hs : Refused s.self) : Refused s'.self := by
  obtain ⟨op, rc, hbegins, h⟩ := h
  by_cases hop : op.begins
  · obtain ⟨rfl, hmeets⟩ := hbegins hop
    exact (Op.failed hop hmeets h).1
  · exact Op.refused (Bool.eq_false_iff.mpr hop) s rc s' h hs

/-- **After a `begin` that fails and meets its condition**, whatever came before
it: the target is the old one or the rejected one, and in every run from there,
up to the next `begin` that succeeds, each request returns the error of a refused
connection, and changes nothing inside or outside. -/
theorem failed_begin_refuses {op : Op C} (hop : op.begins) {s s' : Live C (HTTPClient C)} (hmeets : Meets net op s)
    (h : (op.run net).Returns s 0 s') :
    Unmixed op s.self s'.self ∧
      ∀ t, ReflTransGen (Since net) s' t → ∀ request : Op C, request.asks → (request.run net).Returns t errorConnectionRefused t := by
  obtain ⟨hrefused, haim⟩ := Op.failed hop hmeets h
  refine ⟨haim, fun t hrun request hasks => Refused.request hasks ?_⟩
  induction hrun with
  | refl => exact hrefused
  | tail _ hstep ih => exact hstep.refused ih

end HTTPClient

namespace RefusalDemo

open HTTPClient CollectedDemo

/-- A target of the client's own, for which a GET makes a client object and connects it. -/
def own : Op Peer := .beginHost (bytes "a") 80 (bytes "/")

def aimed : Live Peer (HTTPClient Peer) := ((own.run connection).run 1 ⟨{}, anew⟩).2

def served : Live Peer (HTTPClient Peer) := ((GET.run connection).run 4 aimed).2

/-- A url without a protocol, and no client. -/
def noClient : Op Peer := .beginClient none (bytes "b/")

def unaimed : Live Peer (HTTPClient Peer) := ((noClient.run connection).run 2 served).2

def ended : Live Peer (HTTPClient Peer) := (((Op.end_ : Op Peer).run connection).run 1 unaimed).2

/-- The `begin` that fails takes away the client object and the traits with
which the GET before it was answered: a GET after `end` is refused, and writes
nothing to the connection that was open. -/
theorem noClient_refuses :
    ((own.run connection).Returns ⟨{}, anew⟩ 1 aimed ∧ (GET.run connection).Returns aimed 200 served ∧
      served.self._client = some 0 ∧ served.self._transportTraits = some .plain) ∧
    (noClient.run connection).Returns served 0 unaimed ∧ Unmixed noClient served.self unaimed.self ∧
    ((Op.end_ : Op Peer).run connection).Returns unaimed 0 ended ∧
    (GET.run connection).Returns ended errorConnectionRefused ended := by
  have hruns : ((own.run connection).run 1 ⟨{}, anew⟩).1 = .done 1 ∧ ((GET.run connection).run 4 aimed).1 = .done 200 ∧
      served.self._client = some 0 ∧ served.self._transportTraits = some .plain ∧ served.self._tcpDeprecated = some 0 ∧
      ((connected connection).run 1 served).1 = .done true ∧ ((noClient.run connection).run 2 served).1 = .done 0 ∧
      (((Op.end_ : Op Peer).run connection).run 1 unaimed).1 = .done 0 := by decide +kernel
  obtain ⟨hown, hget, hclient, htraits, hdeprecated, hup, hfailed, hend⟩ := hruns
  have hmeets : Meets connection noClient served := ⟨rfl, .inr ⟨by rw [hdeprecated]; rfl, _, .of_run 1 hup⟩⟩
  have hunaimed : (noClient.run connection).Returns served 0 unaimed := .of_run 2 hfailed
  have hrefuses := failed_begin_refuses rfl hmeets hunaimed
  have hended : ((Op.end_ : Op Peer).run connection).Returns unaimed 0 ended := .of_run 1 hend
  exact ⟨⟨.of_run 1 hown, .of_run 4 hget, hclient, htraits⟩, hunaimed, hrefuses.1, hended,
    hrefuses.2 ended (.single ⟨.end_, 0, nofun, hended⟩) GET rfl⟩

/-- A url without a protocol. -/
def badUrl : Op Peer := .beginClient (some 0) (bytes "b/")

/-- The client keeps its connection, and the GET goes where it was to go before. -/
theorem badUrl_sends : ¬ ∀ hist s s' (op : Op Peer), Run connection (fun _ _ => True) hist s → op.begins →
    (op.run connection).Returns s 0 s' → Unmixed op s.self s'.self ∧
      ∀ request : Op Peer, request.asks → (request.run connection).Returns s' errorConnectionRefused s' := by
  intro h
  have hrun : Run connection (fun _ _ => True) [(begin, 1)] (begun anew) := .step (.construct anew) trivial (.of_run 1 (by decide +kernel))
  have hfailed : (badUrl.run connection).Returns (begun anew) 0 _ := .of_run 1 (by decide +kernel)
  have hsent : (GET.run connection).Returns ((badUrl.run connection).run 1 (begun anew)).2 200 _ := .of_run 4 (by decide +kernel)
  have hrefused := (h _ (begun anew) _ badUrl hrun rfl hfailed).2 GET rfl
  exact absurd (hrefused.det hsent).1 (by decide)

end RefusalDemo

end FEmbed
