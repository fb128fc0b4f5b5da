/-
`TCPClientSecure`: a `TCPClient` over TLS. It has its own socket, in the
context of `ssl_client.cpp`; of `TCPClient` it uses the connected flag alone.
-/
import FEmbedLwip.SslClient

namespace FEmbed

structure TCPClientSecure extends TCPClient where
  sslclient : SslContext := { handshakeTimeout := 120000 }
  _lastError : Int := 0
  _peek : Int := -1
  _timeout : Int := 0
  _CA_cert : Option Bytes := none
  _cert : Option Bytes := none
  _private_key : Option Bytes := none
  _pskIdent : Option Bytes := none
  _psKey : Option Bytes := none
  deriving DecidableEq, Repr

namespace TCPClientSecure

open Live

variable {σ : Type} (p : Platform σ)

/-- A call into `ssl_client.cpp` with the context of the object. -/
def ssl {α : Type} (x : Prog (Live σ SslContext) α) : Prog (Live σ TCPClientSecure) α :=
  Prog.zoom (fun s => ⟨s.self.sslclient, s.env⟩) (fun t s => ⟨{ s.self with sslclient := t.self }, t.env⟩) x

/-- The constructors: the context is made fresh, then `ssl_init` runs on it. -/
def construct (sock : Int) : Prog (Live σ TCPClientSecure) Unit := do
  set fun _ => {}
  ssl (SslContext.sslInit p)
  set fun c => { c with
    sslclient := { c.sslclient with socket := sock, handshakeTimeout := 120000 }
    _connected := decide (sock ≥ 0) }

def stop : Prog (Live σ TCPClientSecure) Unit := do
  let c ← obj
  if c.sslclient.socket ≥ 0 then
    tell (p.lwip.close c.sslclient.socket)
    set fun c => { c with sslclient := { c.sslclient with socket := -1 }, _connected := false, _peek := -1 }
  ssl (SslContext.stopSslSocket p)

/-- `~TCPClientSecure`, then `~TCPClient`. -/
def destroy : Prog (Live σ TCPClientSecure) Unit := do
  stop p
  let c ← obj
  if c.socketFd ≥ 0 then
    tell (p.lwip.shutdown c.socketFd)
    tell (p.lwip.close c.socketFd)

/-- What the two `connect`s that start a handshake share. -/
def connectWith (start : Prog (Live σ SslContext) Int) : Prog (Live σ TCPClientSecure) Int := do
  if (← obj)._timeout > 0 then
    set fun c => { c with sslclient := { c.sslclient with handshakeTimeout := c._timeout.toNat } }
  let ret ← ssl start
  set fun c => { c with _lastError := ret }
  if ret < 0 then
    stop p
    return 0
  set fun c => { c with _connected := true }
  return 1

/-- `connect(host, port, _CA_cert, _cert, _private_key)`. -/
def connectCert (host : Bytes) (port : Nat) (rootCABuff cliCert cliKey : Option Bytes) :
    Prog (Live σ TCPClientSecure) Int := do
  let c ← obj
  connectWith p (SslContext.startSslClient p host port c._timeout rootCABuff cliCert cliKey none none)

/-- `connect(host, port, pskIdent, psKey)`: the arguments are not read, the
fields are. -/
def connectPsk (host : Bytes) (port : Nat) (_pskIdent _psKey : Option Bytes) :
    Prog (Live σ TCPClientSecure) Int := do
  let c ← obj
  connectWith p (SslContext.startSslClient p host port c._timeout none none none c._pskIdent c._psKey)

/-- `connect(host, port)`. -/
def connectHost (host : Bytes) (port : Nat) : Prog (Live σ TCPClientSecure) Int := do
  let c ← obj
  if c._pskIdent.isSome ∧ c._psKey.isSome then
    connectPsk p host port c._pskIdent c._psKey
  else
    connectCert p host port c._CA_cert c._cert c._private_key

/-- `connect(host, port, timeout)`. -/
def connect (host : Bytes) (port : Nat) (timeout : Int) : Prog (Live σ TCPClientSecure) Int := do
  set fun c => { c with _timeout := timeout }
  connectHost p host port

def write (buf : Bytes) : Prog (Live σ TCPClientSecure) Nat := do
  if ¬ (← obj)._connected then
    return 0
  let res ← ssl (SslContext.sendSslData p buf buf.length)
  if res < 0 then
    stop p
    return 0
  return sizeT res

def available : Prog (Live σ TCPClientSecure) Int := do
  let c ← obj
  let peeked : Int := if c._peek ≥ 0 then 1 else 0
  if ¬ c._connected then
    return peeked
  let res ← ssl (SslContext.dataToRead p)
  if res < 0 then
    stop p
    return if peeked ≠ 0 then peeked else res
  return res + peeked

/-- `read(buf, size)` for a `buf` that is not null: the value returned, and
the bytes stored. -/
def readBuf (size : Nat) : Prog (Live σ TCPClientSecure) (Int × Bytes) := do
  let avail ← available p
  if avail ≤ 0 then
    return (-1, [])
  if size = 0 then
    return (0, [])
  let c ← obj
  if c._peek ≥ 0 then
    let peeked : Bytes := [UInt8.ofNat c._peek.toNat]
    set fun c => { c with _peek := -1 }
    if size - 1 = 0 ∨ avail - 1 = 0 then
      return (1, peeked)
    let (res, got) ← ssl (SslContext.getSslReceive p (size - 1))
    if res < 0 then
      stop p
      return (1, peeked)
    return (res + 1, peeked ++ got)
  let (res, got) ← ssl (SslContext.getSslReceive p size)
  if res < 0 then
    stop p
    return (res, [])
  return (res, got)

/-- `read()`: `data` is 255 until a byte is stored there. -/
def read : Prog (Live σ TCPClientSecure) Int := do
  let (res, got) ← readBuf p 1
  if res < 0 then
    return res
  return (got.headD 255).toNat

def connected : Prog (Live σ TCPClientSecure) Bool := do
  let _ ← readBuf p 0
  return (← obj)._connected

/-- `Stream::timedRead` of the Arduino core: `read()` until it gives a byte, or
the time of the stream is over (`timedOut`). -/
def timedRead (timedOut : σ → Bool × σ) : Prog (Live σ TCPClientSecure) Int :=
  Prog.loop (fun _ => do
    let c ← read p
    if c ≥ 0 then
      return .exit c
    if ← call timedOut then
      return .exit (-1)
    return .next ()) ()

def peek (timedOut : σ → Bool × σ) : Prog (Live σ TCPClientSecure) Int := do
  let c ← obj
  if c._peek ≥ 0 then
    return c._peek
  let b ← timedRead p timedOut
  set fun c => { c with _peek := b }
  return b

/-- `setHandshakeTimeout`, in seconds. -/
def setHandshakeTimeout (handshakeTimeout : Nat) : Prog (Live σ TCPClientSecure) Unit :=
  set fun c => { c with sslclient := { c.sslclient with handshakeTimeout := handshakeTimeout * 1000 % 2 ^ 32 } }

def setCACert (rootCA : Option Bytes) : Prog (Live σ TCPClientSecure) Unit :=
  set fun c => { c with _CA_cert := rootCA }

def setCertificate (clientCa : Option Bytes) : Prog (Live σ TCPClientSecure) Unit :=
  set fun c => { c with _cert := clientCa }

def setPrivateKey (privateKey : Option Bytes) : Prog (Live σ TCPClientSecure) Unit :=
  set fun c => { c with _private_key := privateKey }

def setPreSharedKey (pskIdent psKey : Option Bytes) : Prog (Live σ TCPClientSecure) Unit :=
  set fun c => { c with _pskIdent := pskIdent, _psKey := psKey }

end TCPClientSecure

end FEmbed
