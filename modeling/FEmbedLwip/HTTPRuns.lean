/-
Runs of one `HTTPClient`: its operations, in any order, on any objects and
platform. What an operation may change is said once for all of them: a
guarantee that admits the assignments of connections and responses
(`Allows`, and without the collected headers `Settles`) is respected by
everything but the settings and the request heads; one that admits those of
`begin` and the settings, too, by every operation that sends no request
(`Governs`).
-/
import FEmbedLwip.HTTPClient

namespace FEmbed

open Live
open Prog (Guarantee Guarantees)

namespace HTTPClient

variable {C : Type} {net : Connection C}

/-! ## What connections and responses change -/

theorem guarantees_out {G : Guarantee (Live C (HTTPClient C))} (h : ∀ s e, G.rel s ⟨s.self, e⟩) {α : Type} {x : Prog C α} :
    (HTTPClient.outside x).Guarantees G :=
  .zoom (H := ⟨fun _ _ => True, fun _ => trivial, fun _ _ => trivial⟩) (fun _ _ _ _ => trivial) fun s e _ => h s e

theorem guarantees_onClient {G : Guarantee (Live C (HTTPClient C))} (h : ∀ s e, G.rel s ⟨s.self, e⟩) {α : Type}
    {f : Ref → Prog C α} : (onClient f).Guarantees G := by
  refine .bind guarantees_obj fun _ => ?_
  split
  · exact .undefined
  · exact guarantees_out h

theorem guarantees_connected {G : Guarantee (Live C (HTTPClient C))} (h : ∀ s e, G.rel s ⟨s.self, e⟩) :
    (connected net).Guarantees G := by
  refine .bind guarantees_obj fun _ => ?_
  split
  · exact .pure
  · exact .bind (guarantees_out h) fun _ => .ite .pure (guarantees_out h)

theorem guarantees_drain {G : Guarantee (Live C (HTTPClient C))} (h : ∀ s e, G.rel s ⟨s.self, e⟩) : (drain net).Guarantees G :=
  .loop (fun _ => .bind (guarantees_onClient h) fun _ => .ite (.bind (guarantees_onClient h) fun _ => .pure) .pure) ()

theorem guarantees_cleanUp {G : Guarantee (Live C (HTTPClient C))} (h : ∀ s e, G.rel s ⟨s.self, e⟩) : (cleanUp net).Guarantees G :=
  .bind (guarantees_onClient h) fun _ => .ite (guarantees_drain h) .pure

theorem guarantees_passOn {G : Guarantee (Live C (HTTPClient C))} {write : Bytes → Prog C Nat} {getWriteError : Prog C Int}
    {clearWriteError : Prog C Unit} {buff got : Bytes} {n : Int} (hwrite : ∀ bs, (HTTPClient.outside (write bs)).Guarantees G)
    (herror : (HTTPClient.outside getWriteError).Guarantees G) (hclear : (HTTPClient.outside clearWriteError).Guarantees G)
    (hdelay : ∀ n, (HTTPClient.outside (net.delay n)).Guarantees G) :
    (passOn net write getWriteError clearWriteError buff got n).Guarantees G := by
  have writeLeft (w l : Int) : (writeLeft net write getWriteError buff w l).Guarantees G := by
    refine .bind (hdelay 1) fun _ => ?_
    split
    · exact .undefined
    · exact .bind (hwrite _) fun _ => .ite .pure (.bind herror fun _ => .ite .pure .pure)
  refine .bind (hwrite _) fun _ => .ite ?_ (.bind herror fun _ => .ite .pure .pure)
  exact .bind herror fun _ => .ite (.bind hclear fun _ => writeLeft _ _) (writeLeft _ _)

/-- A guarantee that admits calls out, and the assignments that are made for a
connection. -/
structure AllowsConnect (G : Guarantee (Live C (HTTPClient C))) : Prop where
  outside : ∀ s e, G.rel s ⟨s.self, e⟩
  client : ∀ s r, G.rel s ⟨{ s.self with _client := r }, s.env⟩
  deprecated : ∀ s r, G.rel s ⟨{ s.self with _tcpDeprecated := r }, s.env⟩

section Connect

variable {G : Guarantee (Live C (HTTPClient C))} (A : AllowsConnect G)

include A

theorem AllowsConnect.out {α : Type} {x : Prog C α} : (HTTPClient.outside x).Guarantees G := guarantees_out A.outside

theorem AllowsConnect.onClient {α : Type} {f : Ref → Prog C α} : (onClient f).Guarantees G := guarantees_onClient A.outside

theorem AllowsConnect.connected : (connected net).Guarantees G := guarantees_connected A.outside

theorem AllowsConnect.assignClient {client : Option Ref} : (assignClient net client).Guarantees G := by
  refine .bind guarantees_obj fun _ => .bind (guarantees_set fun s => A.client s _) fun _ => ?_
  split
  · exact .pure
  · exact .ite A.out .pure

theorem AllowsConnect.assignDeprecated {client : Option Ref} : (assignDeprecated net client).Guarantees G := by
  refine .bind guarantees_obj fun _ => .bind (guarantees_set fun s => A.deprecated s _) fun _ => ?_
  split
  · exact .pure
  · exact .ite A.out .pure

theorem AllowsConnect.drain : (drain net).Guarantees G := guarantees_drain A.outside

theorem AllowsConnect.verify : (verify net).Guarantees G := by
  refine .bind guarantees_obj fun _ => ?_
  split
  · exact .undefined
  · exact .pure
  · exact .bind A.onClient fun _ => .bind A.onClient fun _ => .bind A.onClient fun _ => .pure

theorem AllowsConnect.createClient : (createClient net).Guarantees G := by
  refine .bind guarantees_obj fun _ => ?_
  split
  · exact .bind A.out fun _ => .bind A.assignDeprecated fun _ => guarantees_set fun s => A.client s _
  · exact .pure

theorem AllowsConnect.connect : (connect net).Guarantees G := by
  have anew : (connectAnew net).Guarantees G := by
    refine .bind A.createClient fun _ => .bind guarantees_obj fun _ => .ite .pure (.bind A.onClient fun _ => .ite .pure ?_)
    refine .bind A.onClient fun _ => .bind guarantees_obj fun _ => .ite (.bind A.verify fun _ => ?_) A.connected
    exact .ite (.bind A.onClient fun _ => .pure) A.connected
  exact .bind A.connected fun _ => .ite (.bind A.drain fun _ => .pure) anew

end Connect

/-- One that admits the assignments that end a connection, too, and those for
a response, but for the headers collected from it. -/
structure Settles (G : Guarantee (Live C (HTTPClient C))) : Prop extends AllowsConnect G where
  traits : ∀ s t, G.rel s ⟨{ s.self with _transportTraits := t }, s.env⟩
  cleared : ∀ s, G.rel s ⟨{ s.self with _returnCode := 0, _size := -1, _headers := [] }, s.env⟩
  answer : ∀ s returnCode size canReuse transferEncoding, G.rel s ⟨{ s.self with
    _returnCode := returnCode, _size := size, _canReuse := canReuse, _transferEncoding := transferEncoding }, s.env⟩

section Settled

variable {G : Guarantee (Live C (HTTPClient C))} (A : Settles G)

include A

theorem Settles.clear : (clear : Prog (Live C (HTTPClient C)) Unit).Guarantees G := guarantees_set A.cleared

theorem Settles.disconnect {preserveClient : Bool} : (disconnect net preserveClient).Guarantees G := by
  have cleanUp : (cleanUp net).Guarantees G := guarantees_cleanUp A.outside
  have close : (close net preserveClient).Guarantees G := by
    have deprecated : (do
        if (← obj)._tcpDeprecated.isSome then
          set fun c => { c with _transportTraits := none }
          HTTPClient.assignDeprecated net none : Prog (Live C (HTTPClient C)) Unit).Guarantees G :=
      .bind guarantees_obj fun _ => .ite (.bind (guarantees_set fun s => A.traits s _) fun _ => A.assignDeprecated) .pure
    exact .bind A.onClient fun _ => .ite (.bind A.assignClient fun _ => deprecated) deprecated
  exact .bind A.connected fun _ => .ite (.bind cleanUp fun _ => .bind guarantees_obj fun _ => .ite .pure close) .pure

theorem Settles.end_ : (end_ net).Guarantees G := .bind A.disconnect fun _ => A.clear

theorem Settles.returnError {error : Int} : (returnError net error).Guarantees G :=
  .ite (.bind A.connected fun _ => .ite (.bind A.onClient fun _ => .pure) .pure) .pure

theorem Settles.canReuse {b : Bool} :
    (set fun c => { c with _canReuse := b } : Prog (Live C (HTTPClient C)) Unit).Guarantees G :=
  guarantees_set fun s => A.answer s s.self._returnCode s.self._size b s.self._transferEncoding

theorem Settles.leaveDeprecated : (leaveDeprecated net).Guarantees G :=
  .bind guarantees_obj fun _ => .ite (.bind A.canReuse fun _ => A.end_) .pure

theorem Settles.leaveClient : (leaveClient net).Guarantees G :=
  .bind guarantees_obj fun _ => .ite (.bind A.canReuse fun _ => A.end_) .pure

/-- A response head, if its lines may be taken in. -/
theorem Settles.handleHeaderResponse (hline : ∀ s l te, G.rel s ⟨(headerLine l te s.self).1, s.env⟩) :
    (handleHeaderResponse net).Guarantees G := by
  have endOfHead (te : Bytes) : (endOfHead te : Prog (Live C (HTTPClient C)) Int).Guarantees G := by
    have encoding (t : TransferEncoding) :
        (set fun c => { c with _transferEncoding := t } : Prog (Live C (HTTPClient C)) Unit).Guarantees G :=
      guarantees_set fun s => A.answer s s.self._returnCode s.self._size s.self._canReuse t
    refine .ite (.ite (.bind (encoding _) fun _ => ?_) .pure) (.bind (encoding _) fun _ => ?_)
    · exact .bind guarantees_obj fun _ => .pure
    · exact .bind guarantees_obj fun _ => .pure
  have turn (l : HeadState) : (headTurn net l).Guarantees G := by
    refine .bind A.connected fun _ => .ite .pure (.bind A.onClient fun _ => .ite ?_ ?_)
    · refine .bind A.onClient fun _ => .bind A.out fun _ => .bind guarantees_obj fun _ => .bind (guarantees_set fun s => hline s _ _) fun _ => ?_
      exact .ite (.bind (endOfHead _) fun _ => .pure) .pure
    · exact .bind A.out fun _ => .bind guarantees_obj fun _ => .ite .pure (.bind A.out fun _ => .pure)
  refine .bind A.connected fun _ => .ite .pure (.bind A.clear fun _ => .bind (guarantees_set fun s => ?_) fun _ => ?_)
  · exact A.answer s s.self._returnCode s.self._size s.self._reuse .identity
  · exact .bind A.out fun _ => .loop turn _

theorem Settles.passOn {write : Bytes → Prog C Nat} {getWriteError : Prog C Int} {clearWriteError : Prog C Unit}
    {buff got : Bytes} {n : Int} : (passOn net write getWriteError clearWriteError buff got n).Guarantees G :=
  guarantees_passOn (fun _ => A.out) A.out A.out fun _ => A.out

theorem Settles.writeToStreamDataBlock {stream : AppStream C} {size : Int} :
    (writeToStreamDataBlock net stream size).Guarantees G := by
  have copy (l : CopyState) (n : Int) : (copyTurn net stream l n).Guarantees G := by
    refine .bind A.onClient fun _ => ?_
    split
    · exact .undefined
    · refine .bind A.passOn fun r => ?_
      cases r with
      | none => exact .pure
      | some n => exact .bind A.out fun _ => .pure
  have turn (l : CopyState) : (blockTurn net stream size (blockSize size) l).Guarantees G := by
    refine .bind A.connected fun _ => .ite .pure (.bind A.onClient fun _ => ?_)
    exact .ite (.bind A.out fun _ => .pure) (.ite .pure (copy _ _))
  refine .bind A.out fun r => ?_
  cases r with
  | none => exact .pure
  | some buff => exact .loop turn _

theorem Settles.writeToStream {stream : Option (AppStream C)} : (writeToStream net stream).Guarantees G := by
  have size (b : Int) : (set fun c => { c with _size := b } : Prog (Live C (HTTPClient C)) Unit).Guarantees G :=
    guarantees_set fun s => A.answer s s.self._returnCode b s.self._canReuse s.self._transferEncoding
  have chunk (stream : AppStream C) (l : ChunkState) : (chunkTurn net stream l).Guarantees G := by
    refine .bind A.connected fun _ => .ite .pure (.bind A.onClient fun _ => .ite .pure (.ite ?_ ?_))
    · refine .bind A.writeToStreamDataBlock fun _ => .ite .pure (.bind A.onClient fun _ => .ite .undefined (.ite .pure ?_))
      exact .bind A.out fun _ => .pure
    · refine .bind guarantees_obj fun _ => .ite (.bind (size _) fun _ => ?_) ?_
      · exact .bind guarantees_obj fun _ => .ite .pure .pure
      · exact .bind guarantees_obj fun _ => .ite .pure .pure
  have body (stream : AppStream C) : (readBody net stream).Guarantees G := by
    refine .bind guarantees_obj fun _ => ?_
    split
    · exact .bind A.writeToStreamDataBlock fun _ => .pure
    · exact .loop (chunk stream) _
  cases stream with
  | none => exact (A.returnError : (HTTPClient.returnError net errorNoStream).Guarantees G)
  | some stream =>
    refine .bind A.connected fun _ => .ite A.returnError (.bind (body stream) fun r => ?_)
    cases r with
    | error => exact A.returnError
    | ok => exact .bind A.disconnect fun _ => .pure

theorem Settles.getString {string : StreamString C} : (getString net string).Guarantees G := by
  refine .bind A.out fun _ => .bind guarantees_obj fun _ => .ite (.bind A.out fun _ => .ite .pure ?_) ?_
  · exact .bind A.writeToStream fun _ => A.out
  · exact .bind A.writeToStream fun _ => A.out

theorem Settles.sendStream {stream : AppStream C} {size : Nat} : (sendStream net stream size).Guarantees G := by
  have turn (b : Int) (l : CopyState) : (uploadTurn net stream b l).Guarantees G := by
    refine .bind A.connected fun _ => .ite .pure (.bind A.out fun _ => .ite .pure (.bind A.out fun _ => .ite ?_ ?_))
    · exact .bind A.out fun _ => .pure
    · refine .bind A.out fun _ => ?_
      split
      · exact .undefined
      · refine .bind guarantees_obj fun _ => ?_
        split
        · exact .undefined
        · refine .bind A.passOn fun r => ?_
          cases r with
          | none => exact .pure
          | some n => exact .bind A.out fun _ => .pure
  refine .bind A.out fun r => ?_
  cases r with
  | none => exact .pure
  | some buff =>
    refine .bind (.loop (turn _) _) fun r => ?_
    cases r with
    | none => exact .pure
    | some n => exact .pure

theorem Settles.setTimeout (hset : ∀ s t, G.rel s ⟨{ s.self with _tcpTimeout := t }, s.env⟩) {t : Nat} :
    (setTimeout net t).Guarantees G :=
  .bind (guarantees_set fun s => hset s t) fun _ => .bind A.connected fun _ => .ite A.onClient .pure

end Settled

/-- One that admits the assignments for a response, too, and those that end a
connection. -/
structure Allows (G : Guarantee (Live C (HTTPClient C))) : Prop extends AllowsConnect G where
  traits : ∀ s t, G.rel s ⟨{ s.self with _transportTraits := t }, s.env⟩
  cleared : ∀ s, G.rel s ⟨{ s.self with _returnCode := 0, _size := -1, _headers := [] }, s.env⟩
  response : ∀ s returnCode size canReuse transferEncoding currentHeaders, G.rel s ⟨{ s.self with
    _returnCode := returnCode, _size := size, _canReuse := canReuse, _transferEncoding := transferEncoding
    _currentHeaders := currentHeaders }, s.env⟩

section Allowed

variable {G : Guarantee (Live C (HTTPClient C))} (A : Allows G)

include A

theorem Allows.settles : Settles G :=
  ⟨A.toAllowsConnect, A.traits, A.cleared, fun s returnCode size canReuse transferEncoding =>
    A.response s returnCode size canReuse transferEncoding s.self._currentHeaders⟩

theorem Allows.clear : (clear : Prog (Live C (HTTPClient C)) Unit).Guarantees G := A.settles.clear

theorem Allows.returnError {error : Int} : (returnError net error).Guarantees G := A.settles.returnError

theorem Allows.leaveDeprecated : (leaveDeprecated net).Guarantees G := A.settles.leaveDeprecated

theorem Allows.leaveClient : (leaveClient net).Guarantees G := A.settles.leaveClient

theorem Allows.handleHeaderResponse : (handleHeaderResponse net).Guarantees G := by
  refine A.settles.handleHeaderResponse fun s l te => ?_
  rw [headerLine]
  split
  · exact A.response s _ s.self._size _ s.self._transferEncoding s.self._currentHeaders
  · split
    · exact A.response s s.self._returnCode _ _ s.self._transferEncoding _
    · exact A.outside s s.env

theorem Allows.sendStream {stream : AppStream C} {size : Nat} : (sendStream net stream size).Guarantees G :=
  A.settles.sendStream

end Allowed

/-- One that admits, too, the assignments of `begin` and of the settings. -/
structure Governs (G : Guarantee (Live C (HTTPClient C))) : Prop extends Settles G where
  target : ∀ s host port uri protocol authorization, G.rel s ⟨{ s.self with
    _host := host, _port := port, _uri := uri, _protocol := protocol, _base64Authorization := authorization }, s.env⟩
  secured : ∀ s secure traits, G.rel s ⟨{ s.self with _secure := secure, _transportTraits := some traits }, s.env⟩
  settings : ∀ s reuse useHTTP10 tcpTimeout, G.rel s ⟨{ s.self with
    _reuse := reuse, _useHTTP10 := useHTTP10, _tcpTimeout := tcpTimeout }, s.env⟩

section Governed

variable {G : Guarantee (Live C (HTTPClient C))} (A : Governs G)

include A

theorem Governs.setPort {port : Nat} :
    (set fun c => { c with _port := port } : Prog (Live C (HTTPClient C)) Unit).Guarantees G :=
  guarantees_set fun s => A.target s s.self._host port s.self._uri s.self._protocol s.self._base64Authorization

theorem Governs.setProtocol {protocol : Bytes} :
    (set fun c => { c with _protocol := protocol } : Prog (Live C (HTTPClient C)) Unit).Guarantees G :=
  guarantees_set fun s => A.target s s.self._host s.self._port s.self._uri protocol s.self._base64Authorization

theorem Governs.setTraits {traits : TransportTraits} :
    (set fun c => { c with _transportTraits := some traits } : Prog (Live C (HTTPClient C)) Unit).Guarantees G :=
  guarantees_set fun s => A.secured s s.self._secure traits

theorem Governs.setTLSTraits {traits : TransportTraits} :
    (set fun c => { c with _secure := true, _transportTraits := some traits } : Prog (Live C (HTTPClient C)) Unit).Guarantees G :=
  guarantees_set fun s => A.secured s true traits

theorem Governs.setHost {host : Bytes} {port : Nat} {uri : Bytes} :
    (setHost host port uri : Prog (Live C (HTTPClient C)) Unit).Guarantees G :=
  .bind A.clear fun _ => guarantees_set fun s => A.target s host port uri s.self._protocol s.self._base64Authorization

theorem Governs.beginInternal {url protocol : Bytes} : (beginInternal net url protocol).Guarantees G := by
  refine .bind A.clear fun _ => .ite .pure (.bind A.setProtocol fun _ => .ite .pure ?_)
  exact .bind (guarantees_set fun s => A.target s _ _ _ s.self._protocol _) fun _ => .pure

theorem Governs.beginClient {client : Option Ref} {url : Bytes} : (beginClient net client url).Guarantees G := by
  refine .bind A.leaveDeprecated fun _ => .bind A.assignClient fun _ => .ite .pure (.ite .pure ?_)
  exact .bind A.setPort fun _ => A.beginInternal

theorem Governs.beginClientHost {client : Option Ref} {host : Bytes} {port : Nat} {uri : Bytes} {https : Bool} :
    (beginClientHost net client host port uri https).Guarantees G := by
  refine .bind A.leaveDeprecated fun _ => .bind A.assignClient fun _ => .bind A.setHost fun _ => ?_
  exact .bind A.setProtocol fun _ => .pure

theorem Governs.beginUrlCert {url : Bytes} {CAcert : Option Bytes} : (beginUrlCert net url CAcert).Guarantees G := by
  refine .bind A.leaveClient fun _ => .bind A.setPort fun _ => .bind A.beginInternal fun _ => .ite .pure ?_
  exact .bind A.setTLSTraits fun _ => .pure

theorem Governs.beginUrl {url : Bytes} : (beginUrl net url).Guarantees G := by
  refine .bind A.leaveClient fun _ => .bind A.setPort fun _ => .bind A.beginInternal fun _ => ?_
  exact .ite A.beginUrlCert (.bind A.setTraits fun _ => .pure)

theorem Governs.beginHost {host : Bytes} {port : Nat} {uri : Bytes} : (beginHost net host port uri).Guarantees G :=
  .bind A.leaveClient fun _ => .bind A.setHost fun _ => .bind A.setTraits fun _ => .pure

theorem Governs.beginHostCert {host : Bytes} {port : Nat} {uri : Bytes} {CAcert cliCert cliKey : Option Bytes} :
    (beginHostCert net host port uri CAcert cliCert cliKey).Guarantees G := by
  refine .bind A.leaveClient fun _ => .bind A.setHost fun _ => ?_
  cases CAcert with
  | none => exact .undefined
  | some ca => exact .ite .pure (.bind A.setTLSTraits fun _ => .pure)

theorem Governs.setAuthorization {user password : Option Bytes} : (setAuthorization net user password).Guarantees G := by
  have assign (authorization : Bytes) :
      (set fun c => { c with _base64Authorization := authorization } : Prog (Live C (HTTPClient C)) Unit).Guarantees G :=
    guarantees_set fun s => A.target s s.self._host s.self._port s.self._uri s.self._protocol authorization
  cases user with
  | none => exact .pure
  | some user =>
    cases password with
    | none => exact .pure
    | some password => exact assign (net.base64Encode (user ++ bytes ":" ++ password))

end Governed

/-! ## Operations and runs -/

/-- A call of the application's. -/
inductive Op (C : Type) where
  | beginClient (client : Option Ref) (url : Bytes)
  | beginClientHost (client : Option Ref) (host : Bytes) (port : Nat) (uri : Bytes) (https : Bool)
  | beginUrl (url : Bytes)
  | beginUrlCert (url : Bytes) (CAcert : Option Bytes)
  | beginHost (host : Bytes) (port : Nat) (uri : Bytes)
  | beginHostCert (host : Bytes) (port : Nat) (uri : Bytes) (CAcert cliCert cliKey : Option Bytes)
  | end_
  | setReuse (reuse : Bool)
  | useHTTP10 (use : Bool)
  | setAuthorization (user password : Option Bytes)
  | setTimeout (timeout : Nat)
  | collectHeaders (headerKeys : List Bytes)
  | addHeader (name value : Bytes) (first replace : Bool)
  | sendRequest (type payload : Bytes)
  | sendRequestStream (type : Bytes) (stream : Option (AppStream C)) (size : Nat)
  | writeToStream (stream : Option (AppStream C))
  | getString (string : StreamString C)

variable (net)

/-- What it does, with 1 for true. -/
def Op.run : Op C → Prog (Live C (HTTPClient C)) Int
  | .beginClient client url => do return if ← HTTPClient.beginClient net client url then 1 else 0
  | .beginClientHost client host port uri https => do
    return if ← HTTPClient.beginClientHost net client host port uri https then 1 else 0
  | .beginUrl url => do return if ← HTTPClient.beginUrl net url then 1 else 0
  | .beginUrlCert url CAcert => do return if ← HTTPClient.beginUrlCert net url CAcert then 1 else 0
  | .beginHost host port uri => do return if ← HTTPClient.beginHost net host port uri then 1 else 0
  | .beginHostCert host port uri CAcert cliCert cliKey => do
    return if ← HTTPClient.beginHostCert net host port uri CAcert cliCert cliKey then 1 else 0
  | .end_ => do HTTPClient.end_ net; return 0
  | .setReuse reuse => do HTTPClient.setReuse reuse; return 0
  | .useHTTP10 use => do HTTPClient.useHTTP10 use; return 0
  | .setAuthorization user password => do HTTPClient.setAuthorization net user password; return 0
  | .setTimeout timeout => do HTTPClient.setTimeout net timeout; return 0
  | .collectHeaders headerKeys => do HTTPClient.collectHeaders headerKeys; return 0
  | .addHeader name value first replace => do HTTPClient.addHeader name value first replace; return 0
  | .sendRequest type payload => HTTPClient.sendRequest net type payload
  | .sendRequestStream type stream size => HTTPClient.sendRequestStream net type stream size
  | .writeToStream stream => HTTPClient.writeToStream net stream
  | .getString string => do let _ ← HTTPClient.getString net string; return 0

/-- An operation that neither adds a header nor sends a request. -/
def Op.settles : Op C → Bool
  | .addHeader .. | .sendRequest .. | .sendRequestStream .. => false
  | _ => true

variable {net} in
theorem Op.guarantees {G : Guarantee (Live C (HTTPClient C))} (A : Governs G) {op : Op C} (h : op.settles)
    (hcollect : ∀ headerKeys, op = .collectHeaders headerKeys → (HTTPClient.collectHeaders headerKeys).Guarantees G) :
    (op.run net).Guarantees G := by
  cases op with
  | beginClient => exact .bind A.beginClient fun _ => .pure
  | beginClientHost => exact .bind A.beginClientHost fun _ => .pure
  | beginUrl => exact .bind A.beginUrl fun _ => .pure
  | beginUrlCert => exact .bind A.beginUrlCert fun _ => .pure
  | beginHost => exact .bind A.beginHost fun _ => .pure
  | beginHostCert => exact .bind A.beginHostCert fun _ => .pure
  | end_ => exact .bind A.end_ fun _ => .pure
  | setReuse reuse =>
    exact .bind (guarantees_set fun s => A.settings s reuse s.self._useHTTP10 s.self._tcpTimeout) fun _ => .pure
  | useHTTP10 use => exact .bind (guarantees_set fun s => A.settings s (!use) use s.self._tcpTimeout) fun _ => .pure
  | setAuthorization => exact .bind A.setAuthorization fun _ => .pure
  | setTimeout =>
    exact .bind (A.setTimeout fun s t => A.settings s s.self._reuse s.self._useHTTP10 t) fun _ => .pure
  | collectHeaders headerKeys => exact .bind (hcollect headerKeys rfl) fun _ => .pure
  | writeToStream => exact A.writeToStream
  | getString => exact .bind A.getString fun _ => .pure
  | addHeader => exact nomatch h
  | sendRequest => exact nomatch h
  | sendRequestStream => exact nomatch h

/-- The life of a client, each operation as `ok` allows it; the last one is first. -/
inductive Run (ok : HTTPClient C → Op C → Prop) : List (Op C × Int) → Live C (HTTPClient C) → Prop
  | construct (e : C) : Run ok [] ⟨{}, e⟩
  | step {hist s op rc s'} (before : Run ok hist s) (hok : ok s.self op) (h : (op.run net).Returns s rc s') :
      Run ok ((op, rc) :: hist) s'

end HTTPClient

end FEmbed
