/-
`HTTPClient.cpp`: an HTTP/1.1 client.

What it calls is a record of programs over a state `C` of everything outside
of it: the objects behind its `shared_ptr`s (`Connection`) and the streams of
the application (`AppStream`). The sources call the clients through the
virtual functions of `TCPClient`, so the model does not say which class they
are; an object is named by a reference. Log messages are left out. The build
is the one with `HTTPCLIENT_1_1_COMPATIBLE` and without `FEMBED_PLATFORM`.

`heads` is history: the request heads written, each with the state outside
before the write. Nothing reads it.
-/
import FEmbedLwip.FTPClient

namespace FEmbed

/-- An object behind a `shared_ptr`. -/
abbrev Ref := Nat

/-! ## What is called -/

/-- The operations of the client objects, and of the platform. -/
structure Connection (C : Type) where
  /-- A new object: a `TCPClientSecure`, or a `TCPClient`. -/
  create : Bool → Prog C Ref
  /-- The last reference of the `HTTPClient` to the object goes. -/
  release : Ref → Prog C Unit
  setCACert : Ref → Option Bytes → Prog C Unit
  setCertificate : Ref → Option Bytes → Prog C Unit
  setPrivateKey : Ref → Option Bytes → Prog C Unit
  connect : Ref → Bytes → Nat → Int → Prog C Int
  setTimeout : Ref → Nat → Prog C Unit
  write : Ref → Bytes → Prog C Nat
  getWriteError : Ref → Prog C Int
  clearWriteError : Ref → Prog C Unit
  available : Ref → Prog C Int
  read : Ref → Prog C Int
  readBytes : Ref → Nat → Prog C Bytes
  readStringUntil : Ref → UInt8 → Prog C Bytes
  connected : Ref → Prog C Bool
  stop : Ref → Prog C Unit
  /-- The block, with what happens to be in it. -/
  malloc : Nat → Prog C (Option Bytes)
  millis : Prog C Nat
  delay : Nat → Prog C Unit
  base64Encode : Bytes → Bytes

/-- A `Stream` of the application. -/
structure AppStream (C : Type) where
  write : Bytes → Prog C Nat
  getWriteError : Prog C Int
  clearWriteError : Prog C Unit
  available : Prog C Int
  readBytes : Nat → Prog C Bytes

/-- A local `StreamString`. -/
structure StreamString (C : Type) extends AppStream C where
  construct : Prog C Unit
  reserve : Nat → Prog C Bool
  toString : Prog C Bytes

/-! ## The state -/

/-- `TransportTraits`, and `TLSTraits` with what it is made with. -/
inductive TransportTraits where
  | plain
  | tls (CAcert clicert clikey : Option Bytes)
  deriving DecidableEq, Repr

inductive TransferEncoding where
  | identity
  | chunked
  deriving DecidableEq, Repr

structure RequestArgument where
  key : Bytes
  value : Bytes := []
  deriving DecidableEq, Repr

/-- A request head that was written. -/
structure Head (C : Type) where
  client : Ref
  text : Bytes
  outside : C
  deriving DecidableEq

structure HTTPClient (C : Type) where
  _transportTraits : Option TransportTraits := none
  _tcpDeprecated : Option Ref := none
  _client : Option Ref := none
  _host : Bytes := []
  _port : Nat := 0
  _connectTimeout : Int := -1
  _reuse : Bool := true
  _tcpTimeout : Nat := 60000
  _useHTTP10 : Bool := false
  _secure : Bool := false
  _uri : Bytes := []
  _protocol : Bytes := []
  _headers : Bytes := []
  _userAgent : Bytes := bytes "CustomHTTPClient"
  _base64Authorization : Bytes := []
  _currentHeaders : List RequestArgument := []
  _returnCode : Int := 0
  _size : Int := -1
  _canReuse : Bool := false
  _transferEncoding : TransferEncoding := .identity
  heads : List (Head C) := []
  deriving DecidableEq

namespace HTTPClient

open Live

variable {C : Type} (net : Connection C)

/-! ## Errors and sizes -/

def errorConnectionRefused : Int := -1
def errorSendHeaderFailed : Int := -2
def errorSendPayloadFailed : Int := -3
def errorNotConnected : Int := -4
def errorConnectionLost : Int := -5
def errorNoStream : Int := -6
def errorNoHttpServer : Int := -7
def errorTooLessRam : Int := -8
def errorEncoding : Int := -9
def errorStreamWrite : Int := -10
def errorReadTimeout : Int := -11

/-- `HTTP_TCP_BUFFER_SIZE`. -/
def httpTcpBufferSize : Int := 1460

/-! ## The client object -/

/-- A call out. -/
def outside {α : Type} (x : Prog C α) : Prog (Live C (HTTPClient C)) α :=
  Prog.zoom (·.env) (fun e s => ⟨s.self, e⟩) x

/-- A call through `_client`, which must not be null. -/
def onClient {α : Type} (f : Ref → Prog C α) : Prog (Live C (HTTPClient C)) α := do
  match (← obj)._client with
  | none => Prog.undefined
  | some r => outside (f r)

/-- `_client = client`: the object referred to goes if nothing else refers to it. -/
def assignClient (client : Option Ref) : Prog (Live C (HTTPClient C)) Unit := do
  let c ← obj
  set fun c => { c with _client := client }
  match c._client with
  | none => return ()
  | some r =>
    if client ≠ some r ∧ c._tcpDeprecated ≠ some r then
      outside (net.release r)

/-- `_tcpDeprecated = client`. -/
def assignDeprecated (client : Option Ref) : Prog (Live C (HTTPClient C)) Unit := do
  let c ← obj
  set fun c => { c with _tcpDeprecated := client }
  match c._tcpDeprecated with
  | none => return ()
  | some r =>
    if client ≠ some r ∧ c._client ≠ some r then
      outside (net.release r)

def connected : Prog (Live C (HTTPClient C)) Bool := do
  match (← obj)._client with
  | none => return false
  | some r =>
    if (← outside (net.available r)) > 0 then
      return true
    outside (net.connected r)

/-- `while(_client->available() > 0) _client->read();`. -/
def drain : Prog (Live C (HTTPClient C)) Unit :=
  Prog.loop (fun _ => do
    if (← onClient net.available) > 0 then
      let _ ← onClient net.read
      return .next ()
    return .exit ()) ()

def clear : Prog (Live C (HTTPClient C)) Unit :=
  set fun c => { c with _returnCode := 0, _size := -1, _headers := [] }

/-- The bytes of a response that was not read to its end. -/
def cleanUp : Prog (Live C (HTTPClient C)) Unit := do
  if (← onClient net.available) > 0 then
    drain net

/-- `disconnect`, where the connection is not kept for reuse. -/
def close (preserveClient : Bool) : Prog (Live C (HTTPClient C)) Unit := do
  onClient net.stop
  if ¬ preserveClient then
    assignClient net none
  if (← obj)._tcpDeprecated.isSome then
    set fun c => { c with _transportTraits := none }
    assignDeprecated net none

def disconnect (preserveClient : Bool) : Prog (Live C (HTTPClient C)) Unit := do
  if ← connected net then
    cleanUp net
    let c ← obj
    if c._reuse ∧ c._canReuse then
      return ()
    close net preserveClient

/-- `end`. -/
def end_ : Prog (Live C (HTTPClient C)) Unit := do
  disconnect net false
  clear

def returnError (error : Int) : Prog (Live C (HTTPClient C)) Int := do
  if error < 0 then
    if ← connected net then
      onClient net.stop
  return error

/-! ## Settings -/

def setReuse (reuse : Bool) : Prog (Live C (HTTPClient C)) Unit := set fun c => { c with _reuse := reuse }

def useHTTP10 (use : Bool) : Prog (Live C (HTTPClient C)) Unit :=
  set fun c => { c with _useHTTP10 := use, _reuse := !use }

/-- `setAuthorization(user, password)`. -/
def setAuthorization (user password : Option Bytes) : Prog (Live C (HTTPClient C)) Unit := do
  match user, password with
  | some user, some password =>
    set fun c => { c with _base64Authorization := net.base64Encode (user ++ bytes ":" ++ password) }
  | _, _ => return ()

def setTimeout (timeout : Nat) : Prog (Live C (HTTPClient C)) Unit := do
  set fun c => { c with _tcpTimeout := timeout }
  if ← connected net then
    onClient fun r => net.setTimeout r ((timeout + 500) / 1000)

def collectHeaders (headerKeys : List Bytes) : Prog (Live C (HTTPClient C)) Unit :=
  set fun c => { c with _currentHeaders := headerKeys.map fun key => { key := key } }

/-- The value of the first entry with the key. -/
def stored (key : Bytes) (as : List RequestArgument) : Bytes :=
  match as.find? (·.key = key) with
  | some a => a.value
  | none => []

/-- `header(name)`. -/
def header (c : HTTPClient C) (name : Bytes) : Bytes := stored name c._currentHeaders

/-- `hasHeader(name)`. -/
def hasHeader (c : HTTPClient C) (name : Bytes) : Bool := c._currentHeaders.any fun a => a.key = name ∧ a.value ≠ []

/-! ## `begin` -/

/-- A url in its parts, as `beginInternal` cuts it. -/
structure UrlParts where
  host : Bytes
  uri : Bytes
  auth : Option Bytes
  port : Option Nat
  deriving DecidableEq, Repr

/-- The part before the first `c`, and what follows it. -/
def cutAt (s : Bytes) (c : UInt8) : Option (Bytes × Bytes) :=
  let index := Str.indexOf s c
  if index ≥ 0 then some (Str.substring s 0 index.toNat, Str.remove s 0 (index.toNat + 1)) else none

/-- What `beginInternal` makes of the text after `http://`. -/
def parseUrl (url : Bytes) : UrlParts :=
  let index := Str.indexOf url 47
  let host := Str.substring url 0 (sizeT index)
  let uri := Str.remove url 0 (sizeT index)
  let (auth, host) := match cutAt host 64 with
    | some (auth, host) => (some auth, host)
    | none => (none, host)
  match cutAt host 58 with
  | some (name, port) => { host := name, uri := uri, auth := auth, port := some (sizeT (Str.toInt port) % 2 ^ 16) }
  | none => { host := host, uri := uri, auth := auth, port := none }

/-- The assignments of `beginInternal` for a url in its parts. -/
def setTarget (u : UrlParts) (c : HTTPClient C) : HTTPClient C :=
  { c with
    _host := u.host
    _uri := u.uri
    _port := u.port.getD c._port
    _base64Authorization := match u.auth with
      | some auth => net.base64Encode auth
      | none => c._base64Authorization }

def beginInternal (url expectedProtocol : Bytes) : Prog (Live C (HTTPClient C)) Bool := do
  clear
  let index := Str.indexOf url 58
  if index < 0 then
    return false
  let protocol := Str.substring url 0 index.toNat
  set fun c => { c with _protocol := protocol }
  if protocol ≠ expectedProtocol then
    return false
  set (setTarget net (parseUrl (Str.remove url 0 (index.toNat + 3))))
  return true

/-- What the overloads for a client of the caller's do with one of their own. -/
def leaveDeprecated : Prog (Live C (HTTPClient C)) Unit := do
  if (← obj)._tcpDeprecated.isSome then
    set fun c => { c with _canReuse := false }
    end_ net

/-- What the overloads without a client do with one of the caller's. -/
def leaveClient : Prog (Live C (HTTPClient C)) Unit := do
  let c ← obj
  if c._client.isSome ∧ c._tcpDeprecated = none then
    set fun c => { c with _canReuse := false }
    end_ net

/-- `begin(client, url)`. -/
def beginClient (client : Option Ref) (url : Bytes) : Prog (Live C (HTTPClient C)) Bool := do
  leaveDeprecated net
  assignClient net client
  let index := Str.indexOf url 58
  if index < 0 then
    return false
  let protocol := Str.substring url 0 index.toNat
  if protocol ≠ bytes "http" ∧ protocol ≠ bytes "https" then
    return false
  set fun c => { c with _port := if protocol = bytes "https" then 443 else 80 }
  beginInternal net url protocol

def setHost (host : Bytes) (port : Nat) (uri : Bytes) : Prog (Live C (HTTPClient C)) Unit := do
  clear
  set fun c => { c with _host := host, _port := port, _uri := uri }

/-- `begin(client, host, port, uri, https)`. -/
def beginClientHost (client : Option Ref) (host : Bytes) (port : Nat) (uri : Bytes) (https : Bool) :
    Prog (Live C (HTTPClient C)) Bool := do
  leaveDeprecated net
  assignClient net client
  setHost host port uri
  set fun c => { c with _protocol := if https then bytes "https" else bytes "http" }
  return true

/-- `begin(url, CAcert)`. -/
def beginUrlCert (url : Bytes) (CAcert : Option Bytes) : Prog (Live C (HTTPClient C)) Bool := do
  leaveClient net
  set fun c => { c with _port := 443 }
  if ¬ (← beginInternal net url (bytes "https")) then
    return false
  set fun c => { c with _secure := true, _transportTraits := some (.tls CAcert none none) }
  return true

/-- `begin(url)`. -/
def beginUrl (url : Bytes) : Prog (Live C (HTTPClient C)) Bool := do
  leaveClient net
  set fun c => { c with _port := 80 }
  if ¬ (← beginInternal net url (bytes "http")) then
    beginUrlCert net url none
  else
    set fun c => { c with _transportTraits := some .plain }
    return true

/-- `begin(host, port, uri)`. -/
def beginHost (host : Bytes) (port : Nat) (uri : Bytes) : Prog (Live C (HTTPClient C)) Bool := do
  leaveClient net
  setHost host port uri
  set fun c => { c with _transportTraits := some .plain }
  return true

/-- `begin(host, port, uri, CAcert, cli_cert, cli_key)`, and without the last
two; `strlen` of a null pointer is undefined. -/
def beginHostCert (host : Bytes) (port : Nat) (uri : Bytes) (CAcert cliCert cliKey : Option Bytes) :
    Prog (Live C (HTTPClient C)) Bool := do
  leaveClient net
  setHost host port uri
  match CAcert with
  | none => Prog.undefined
  | some ca =>
    if cString ca = [] then
      return false
    set fun c => { c with _secure := true, _transportTraits := some (.tls CAcert cliCert cliKey) }
    return true

/-! ## Requests -/

/-- `_transportTraits->verify(_client, host)`. -/
def verify : Prog (Live C (HTTPClient C)) Bool := do
  match (← obj)._transportTraits with
  | none => Prog.undefined
  | some .plain => return true
  | some (.tls CAcert clicert clikey) =>
    onClient fun r => net.setCACert r CAcert
    onClient fun r => net.setCertificate r clicert
    onClient fun r => net.setPrivateKey r clikey
    return true

/-- The client object of the traits, if there is none yet. -/
def createClient : Prog (Live C (HTTPClient C)) Unit := do
  let c ← obj
  match c._transportTraits, c._client with
  | some traits, none =>
    let r ← outside (net.create (decide (traits ≠ .plain)))
    assignDeprecated net (some r)
    set fun c => { c with _client := some r }
  | _, _ => return ()

/-- `connect`, when there is no connection to use again. -/
def connectAnew : Prog (Live C (HTTPClient C)) Bool := do
  createClient net
  let c ← obj
  if c._client = none then
    return false
  if (← onClient fun r => net.connect r (cString c._host) c._port c._connectTimeout) < 0 then
    return false
  onClient fun r => net.setTimeout r ((c._tcpTimeout + 500) / 1000)
  if (← obj)._tcpDeprecated.isSome then
    if ¬ (← verify net) then
      onClient net.stop
      return false
  connected net

def connect : Prog (Live C (HTTPClient C)) Bool := do
  if ← connected net then
    drain net
    return true
  connectAnew net

/-- `addHeader(name, value, first, replace)`. -/
def addHeader (name value : Bytes) (first replace : Bool) : Prog (Live C (HTTPClient C)) Unit := do
  let c ← obj
  if Str.equalsIgnoreCase name (bytes "Connection") ∨ Str.equalsIgnoreCase name (bytes "User-Agent") ∨
      Str.equalsIgnoreCase name (bytes "Host") ∨
      (Str.equalsIgnoreCase name (bytes "Authorization") ∧ c._base64Authorization ≠ []) then
    return ()
  let headerLine := name ++ bytes ": "
  if replace then
    let headerStart := Str.indexOfStr c._headers headerLine
    if headerStart ≠ -1 then
      let headerEnd := Str.indexOfFrom c._headers 10 headerStart.toNat
      set fun c => { c with
        _headers := Str.substring c._headers 0 headerStart.toNat ++ Str.substringFrom c._headers (sizeT (headerEnd + 1)) }
  let headerLine := headerLine ++ value ++ bytes "\r\n"
  set fun c => { c with _headers := if first then headerLine ++ c._headers else c._headers ++ headerLine }

/-- The text of the request head. -/
def headText (c : HTTPClient C) (type : Bytes) : Bytes :=
  type ++ bytes " " ++ c._uri ++ bytes " HTTP/1." ++ bytes (if c._useHTTP10 then "0" else "1") ++
    bytes "\r\nHost: " ++ c._host ++
    (if c._port ≠ 80 ∧ c._port ≠ 443 then bytes ":" ++ Str.ofNat c._port else []) ++
    bytes "\r\nUser-Agent: " ++ c._userAgent ++
    bytes "\r\nConnection: " ++ bytes (if c._reuse then "keep-alive" else "close") ++ bytes "\r\n" ++
    (if c._useHTTP10 then [] else bytes "Accept-Encoding: identity;q=1,chunked;q=0.1,*;q=0\r\n") ++
    (if c._base64Authorization ≠ [] then
      bytes "Authorization: Basic " ++ c._base64Authorization.filter (· != 10) ++ bytes "\r\n"
    else []) ++
    c._headers ++ bytes "\r\n"

/-- The write of a request head, which is recorded. -/
def writeHead (header : Bytes) : Prog (Live C (HTTPClient C)) Nat := do
  let e ← Prog.gets (·.env)
  set fun c => { c with heads := c.heads ++ c._client.toList.map fun r => ⟨r, header, e⟩ }
  onClient fun r => net.write r header

def sendHeader (type : Bytes) : Prog (Live C (HTTPClient C)) Bool := do
  if ¬ (← connected net) then
    return false
  let header := headText (← obj) type
  set fun c => { c with _base64Authorization := c._base64Authorization.filter (· != 10) }
  return decide ((← writeHead net header) = header.length)

/-! ## The response head -/

/-- A status line: the code, and whether the version admits reuse. -/
def statusLine (headerLine : Bytes) (c : HTTPClient C) : HTTPClient C :=
  { c with
    _canReuse := c._canReuse && Str.charAt headerLine 7 != 48
    _returnCode := Str.toInt (Str.substring headerLine 9 (sizeT (Str.indexOfFrom headerLine 32 9))) }

/-- The first collected header with the name gets the value. -/
def collect (headerName headerValue : Bytes) : List RequestArgument → List RequestArgument
  | [] => []
  | a :: rest =>
    if Str.equalsIgnoreCase a.key headerName then { a with value := headerValue } :: rest
    else a :: collect headerName headerValue rest

/-- A header line: what it changes, and `transferEncoding` after it. -/
def headerField (headerLine transferEncoding : Bytes) (c : HTTPClient C) : HTTPClient C × Bytes :=
  let colon := Str.indexOf headerLine 58
  let headerName := Str.substring headerLine 0 (sizeT colon)
  let headerValue := Str.trim (Str.substringFrom headerLine (sizeT (colon + 1)))
  ({ c with
      _size := if Str.equalsIgnoreCase headerName (bytes "Content-Length") then Str.toInt headerValue else c._size
      _canReuse := c._canReuse &&
        !(Str.equalsIgnoreCase headerName (bytes "Connection") &&
          decide (Str.indexOfStr headerValue (bytes "close") ≥ 0) &&
          decide (Str.indexOfStr headerValue (bytes "keep-alive") < 0))
      _currentHeaders := collect headerName headerValue c._currentHeaders },
    if Str.equalsIgnoreCase headerName (bytes "Transfer-Encoding") then headerValue else transferEncoding)

/-- A line of the response head. -/
def headerLine (line transferEncoding : Bytes) (c : HTTPClient C) : HTTPClient C × Bytes :=
  if Str.startsWith line (bytes "HTTP/1.") then (statusLine line c, transferEncoding)
  else if Str.indexOf line 58 ≠ 0 then headerField line transferEncoding c
  else (c, transferEncoding)

/-- What the empty line makes of it all. -/
def endOfHead (transferEncoding : Bytes) : Prog (Live C (HTTPClient C)) Int := do
  if transferEncoding ≠ [] then
    if Str.equalsIgnoreCase transferEncoding (bytes "chunked") then
      set fun c => { c with _transferEncoding := .chunked }
    else
      return errorEncoding
  else
    set fun c => { c with _transferEncoding := .identity }
  let c ← obj
  return if c._returnCode ≠ 0 then c._returnCode else errorNoHttpServer

/-- The locals of `handleHeaderResponse`. -/
structure HeadState where
  transferEncoding : Bytes := []
  lastDataTime : Nat
  deriving DecidableEq, Repr

def headTurn (l : HeadState) : Prog (Live C (HTTPClient C)) (Turn HeadState Int) := do
  if ¬ (← connected net) then
    return .exit errorConnectionLost
  if sizeT (← onClient net.available) > 0 then
    let line := Str.trim (← onClient fun r => net.readStringUntil r 10)
    let now ← outside net.millis
    let te := (headerLine line l.transferEncoding (← obj)).2
    set fun c => (headerLine line l.transferEncoding c).1
    if line = [] then
      return .exit (← endOfHead te)
    return .next { transferEncoding := te, lastDataTime := now }
  else
    if sizeT ((← outside net.millis) - l.lastDataTime) > (← obj)._tcpTimeout then
      return .exit errorReadTimeout
    outside (net.delay 10)
    return .next l

def handleHeaderResponse : Prog (Live C (HTTPClient C)) Int := do
  if ¬ (← connected net) then
    return errorNotConnected
  clear
  set fun c => { c with _canReuse := c._reuse, _transferEncoding := .identity }
  let lastDataTime ← outside net.millis
  Prog.loop (headTurn net) { lastDataTime := lastDataTime }

/-! ## The response body -/

/-- The `n` bytes of a block from the index `i`; `none` out of bounds. -/
def slice (a : Bytes) (i n : Int) : Option Bytes :=
  if 0 ≤ i ∧ 0 ≤ n ∧ i + n ≤ a.length then some ((a.drop i.toNat).take n.toNat) else none

/-- The second try of a write, of what the first one left. -/
def writeLeft (write : Bytes → Prog C Nat) (getWriteError : Prog C Int) (buff : Bytes) (bytesWrite leftBytes : Int) :
    Prog (Live C (HTTPClient C)) (Option Int) := do
  outside (net.delay 1)
  match slice buff bytesWrite leftBytes with
  | none => Prog.undefined
  | some left =>
    let bytesWrite' := int32 (← outside (write left))
    if bytesWrite' ≠ leftBytes then
      return none
    if (← outside getWriteError) ≠ 0 then
      return none
    return some (bytesWrite + bytesWrite')

/-- How both copy loops write what they have read. The bytes written, or
`none` for an error. -/
def passOn (write : Bytes → Prog C Nat) (getWriteError : Prog C Int) (clearWriteError : Prog C Unit)
    (buff got : Bytes) (readBytes : Int) : Prog (Live C (HTTPClient C)) (Option Int) := do
  let bytesWrite := int32 (← outside (write got))
  if bytesWrite ≠ got.length then
    if (← outside getWriteError) ≠ 0 then
      outside clearWriteError
    writeLeft net write getWriteError buff bytesWrite (readBytes - bytesWrite)
  else
    if (← outside getWriteError) ≠ 0 then
      return none
    return some bytesWrite

/-- The locals of the copy loops. -/
structure CopyState where
  len : Int
  bytesWritten : Int := 0
  buff : Bytes
  deriving DecidableEq, Repr

/-- How much is read at once: what is there, what is wanted, what fits. -/
def readCount (sizeAvailable len buffSize : Int) : Int :=
  let readBytes := if len > 0 ∧ sizeAvailable > len then len else sizeAvailable
  if readBytes > buffSize then buffSize else readBytes

/-- The count after the loop of `writeToStreamDataBlock`. -/
def blockResult (size bytesWritten : Int) : Int :=
  if size > 0 ∧ size ≠ bytesWritten then errorStreamWrite else bytesWritten

/-- One turn of `writeToStreamDataBlock`, when there is something to read. -/
def copyTurn (stream : AppStream C) (l : CopyState) (readBytes : Int) :
    Prog (Live C (HTTPClient C)) (Turn CopyState Int) := do
  let got ← onClient fun r => net.readBytes r (sizeT readBytes)
  match poke l.buff 0 got with
  | none => Prog.undefined
  | some buff =>
    match ← passOn net stream.write stream.getWriteError stream.clearWriteError buff got readBytes with
    | none => return .exit errorStreamWrite
    | some n =>
      outside (net.delay 0)
      return .next
        { len := if l.len > 0 then l.len - readBytes else l.len
          bytesWritten := int32 (l.bytesWritten + n)
          buff := buff }

def blockTurn (stream : AppStream C) (size buffSize : Int) (l : CopyState) :
    Prog (Live C (HTTPClient C)) (Turn CopyState Int) := do
  if ¬ (← connected net) ∨ ¬ (l.len > 0 ∨ l.len = -1) then
    return .exit (blockResult size l.bytesWritten)
  let sizeAvailable := sizeT (← onClient net.available)
  if sizeAvailable = 0 then
    outside (net.delay 1)
    return .next l
  let readBytes := readCount (int32 sizeAvailable) l.len buffSize
  if readBytes = 0 then
    return .exit (blockResult size l.bytesWritten)
  copyTurn net stream l readBytes

def blockSize (size : Int) : Int := if size > 0 ∧ size < httpTcpBufferSize then size else httpTcpBufferSize

def writeToStreamDataBlock (stream : AppStream C) (size : Int) : Prog (Live C (HTTPClient C)) Int := do
  match ← outside (net.malloc (blockSize size).toNat) with
  | none => return errorTooLessRam
  | some buff => Prog.loop (blockTurn net stream size (blockSize size)) { len := size, buff := buff }

/-- The size in a chunk's first line. -/
def chunkLen (chunkHeader : Bytes) : Int := int32 (sizeT (strtol 16 (cString (Str.trim chunkHeader))))

/-- The locals of the chunk loop. -/
structure ChunkState where
  ret : Int := 0
  size : Int := 0
  deriving DecidableEq, Repr

/-- The end of the body: the last chunk was read. -/
def lastChunk (l : ChunkState) : Prog (Live C (HTTPClient C)) (Turn ChunkState (Except Int Int)) := do
  if (← obj)._size ≤ 0 then
    set fun c => { c with _size := l.size }
  if l.ret ≠ (← obj)._size then
    return .exit (.error errorStreamWrite)
  return .exit (.ok l.ret)

/-- The data of a chunk, and the line end after it. -/
def chunkData (stream : AppStream C) (l : ChunkState) (len : Int) :
    Prog (Live C (HTTPClient C)) (Turn ChunkState (Except Int Int)) := do
  let r ← writeToStreamDataBlock net stream len
  if r < 0 then
    return .exit (.error r)
  let buf ← onClient fun r => net.readBytes r 2
  if buf.length > 2 then
    Prog.undefined
  else if buf ≠ [13, 10] then
    return .exit (.error errorReadTimeout)
  else
    outside (net.delay 0)
    return .next { l with ret := int32 (l.ret + r) }

def chunkTurn (stream : AppStream C) (l : ChunkState) :
    Prog (Live C (HTTPClient C)) (Turn ChunkState (Except Int Int)) := do
  if ¬ (← connected net) then
    return .exit (.error errorConnectionLost)
  let chunkHeader ← onClient fun r => net.readStringUntil r 10
  if chunkHeader = [] then
    return .exit (.error errorReadTimeout)
  let len := chunkLen chunkHeader
  let l := { l with size := int32 (l.size + len) }
  if len > 0 then
    chunkData net stream l len
  else
    lastChunk l

/-- The body, up to the `disconnect` after it. -/
def readBody (stream : AppStream C) : Prog (Live C (HTTPClient C)) (Except Int Int) := do
  let c ← obj
  match c._transferEncoding with
  | .identity =>
    let ret ← writeToStreamDataBlock net stream c._size
    return if ret < 0 then .error ret else .ok ret
  | .chunked => Prog.loop (chunkTurn net stream) {}

def writeToStream (stream : Option (AppStream C)) : Prog (Live C (HTTPClient C)) Int := do
  match stream with
  | none => returnError net errorNoStream
  | some stream =>
    if ¬ (← connected net) then
      returnError net errorNotConnected
    else
      match ← readBody net stream with
      | .error e => returnError net e
      | .ok ret =>
        disconnect net true
        return ret

def getString (string : StreamString C) : Prog (Live C (HTTPClient C)) Bytes := do
  outside string.construct
  let c ← obj
  if c._size ≠ 0 then
    if ¬ (← outside (string.reserve (sizeT (c._size + 1)))) then
      return []
  let _ ← writeToStream net (some string.toAppStream)
  outside string.toString

/-! ## Sending a request -/

/-- `sendRequest(type, payload, size)`; an empty payload is none. -/
def sendRequest (type payload : Bytes) : Prog (Live C (HTTPClient C)) Int := do
  if ¬ (← connect net) then
    returnError net errorConnectionRefused
  else
    if payload ≠ [] then
      addHeader (bytes "Content-Length") (Str.ofNat payload.length) false true
    if ¬ (← sendHeader net type) then
      returnError net errorSendHeaderFailed
    else
      if payload ≠ [] then
        if (← onClient fun r => net.write r payload) ≠ payload.length then
          return ← returnError net errorSendPayloadFailed
      returnError net (← handleHeaderResponse net)

def GET : Prog (Live C (HTTPClient C)) Int := sendRequest net (bytes "GET") []

def POST (payload : Bytes) : Prog (Live C (HTTPClient C)) Int := sendRequest net (bytes "POST") payload

def PATCH (payload : Bytes) : Prog (Live C (HTTPClient C)) Int := sendRequest net (bytes "PATCH") payload

def PUT (payload : Bytes) : Prog (Live C (HTTPClient C)) Int := sendRequest net (bytes "PUT") payload

/-- One turn of the copy loop of `sendRequest(type, stream, size)`: the bytes
written at its end, `none` for an error. -/
def uploadTurn (stream : AppStream C) (buffSize : Int) (l : CopyState) :
    Prog (Live C (HTTPClient C)) (Turn CopyState (Option Int)) := do
  if ¬ (← connected net) then
    return .exit (some l.bytesWritten)
  if ¬ (← outside stream.available) > -1 ∨ ¬ (l.len > 0 ∨ l.len = -1) then
    return .exit (some l.bytesWritten)
  let sizeAvailable ← outside stream.available
  if sizeAvailable = 0 then
    outside (net.delay 1)
    return .next l
  let readBytes := readCount sizeAvailable l.len buffSize
  let got ← outside (stream.readBytes (sizeT readBytes))
  match poke l.buff 0 got with
  | none => Prog.undefined
  | some buff =>
    match (← obj)._client with
    | none => Prog.undefined
    | some r =>
      match ← passOn net (net.write r) (net.getWriteError r) (net.clearWriteError r) buff got readBytes with
      | none => return .exit none
      | some n =>
        outside (net.delay 0)
        return .next
          { len := if l.len > 0 then l.len - readBytes else l.len
            bytesWritten := int32 (l.bytesWritten + n)
            buff := buff }

/-- The payload of `sendRequest(type, stream, size)`: 0, or an error. -/
def sendStream (stream : AppStream C) (size : Nat) : Prog (Live C (HTTPClient C)) Int := do
  let len : Int := if int32 size = 0 then -1 else int32 size
  match ← outside (net.malloc (blockSize len).toNat) with
  | none => return errorTooLessRam
  | some buff =>
    match ← Prog.loop (uploadTurn net stream (blockSize len)) { len := len, buff := buff } with
    | none => return errorSendPayloadFailed
    | some bytesWritten =>
      return if size ≠ 0 ∧ int32 size ≠ bytesWritten then errorSendPayloadFailed else 0

/-- `sendRequest(type, stream, size)`. -/
def sendRequestStream (type : Bytes) (stream : Option (AppStream C)) (size : Nat) :
    Prog (Live C (HTTPClient C)) Int := do
  match stream with
  | none => returnError net errorNoStream
  | some stream =>
    if ¬ (← connect net) then
      returnError net errorConnectionRefused
    else
      if size > 0 then
        addHeader (bytes "Content-Length") (Str.ofNat size) false true
      if ¬ (← sendHeader net type) then
        returnError net errorSendHeaderFailed
      else
        let error ← sendStream net stream size
        if error < 0 then
          returnError net error
        else
          returnError net (← handleHeaderResponse net)

/-- `~HTTPClient`, up to the members. -/
def destroy : Prog (Live C (HTTPClient C)) Unit := do
  if (← obj)._client.isSome then
    onClient net.stop

end HTTPClient

end FEmbed
