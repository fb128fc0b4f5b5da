/-
`ssl_client.cpp`: a TLS client over one lwIP socket, set up and used through
mbedTLS. The contents of mbedTLS's contexts are part of the outside `σ`; what
the library itself keeps is the socket and the handshake timeout.

`startSslClient` is the one function `start_ssl_client` cut at its log
messages. A stage that returns from the whole function ends with
`Except.error` and the value returned; `ret` is threaded to the last stage,
which returns it although it is the result of an earlier, successful call.
-/
import FEmbedLwip.TCPClient

namespace FEmbed

/-- The contexts of `sslclient_context` that have an `init` and a `free`. -/
inductive TlsContext where
  | ssl
  | sslConfig
  | ctrDrbg
  | entropy
  | caCert
  | clientCert
  | clientKey
  deriving DecidableEq, Repr

inductive Authmode where
  | verifyNone
  | verifyRequired
  deriving DecidableEq, Repr

/-- What `mbedtls_ssl_read` gives: plaintext, the end (0), or a code. -/
inductive SslRecv where
  | data (b : UInt8) (bs : Bytes)
  | eof
  | error (code : Int)
  deriving DecidableEq, Repr

def SslRecv.got : SslRecv → Bytes
  | .data b bs => b :: bs
  | .eof | .error _ => []

def SslRecv.rc : SslRecv → Int
  | .data _ bs => bs.length + 1
  | .eof => 0
  | .error code => code

/-- The mbedTLS calls. -/
structure MbedTls (σ : Type) where
  init : TlsContext → σ → σ
  free : TlsContext → σ → σ
  ctrDrbgSeed : σ → Int × σ
  sslConfigDefaults : σ → Int × σ
  sslConfAuthmode : Authmode → σ → σ
  x509CrtParse : TlsContext → Bytes → σ → Int × σ
  sslConfCaChain : σ → σ
  sslConfPsk : Bytes → Bytes → σ → Int × σ
  pkParseKey : Bytes → σ → Int × σ
  sslConfOwnCert : σ → σ
  sslSetHostname : Bytes → σ → Int × σ
  sslConfRng : σ → σ
  sslSetup : σ → Int × σ
  sslSetBio : Int → σ → σ
  sslHandshake : σ → Int × σ
  sslGetRecordExpansion : σ → Int × σ
  sslGetVerifyResult : σ → Nat × σ
  sslRead : Nat → σ → SslRecv × σ
  sslGetBytesAvail : σ → Nat × σ
  sslWrite : Bytes → σ → Int × σ

/-- An mbedTLS where every call succeeds and the peer is verified with `flags`. -/
def MbedTls.steady {σ : Type} (flags : Nat) : MbedTls σ where
  init _ s := s
  free _ s := s
  ctrDrbgSeed s := (0, s)
  sslConfigDefaults s := (0, s)
  sslConfAuthmode _ s := s
  x509CrtParse _ _ s := (0, s)
  sslConfCaChain s := s
  sslConfPsk _ _ s := (0, s)
  pkParseKey _ s := (0, s)
  sslConfOwnCert s := s
  sslSetHostname _ s := (0, s)
  sslConfRng s := s
  sslSetup s := (0, s)
  sslSetBio _ s := s
  sslHandshake s := (0, s)
  sslGetRecordExpansion s := (29, s)
  sslGetVerifyResult s := (flags, s)
  sslRead _ s := (.error (-0x6900), s)
  sslGetBytesAvail s := (0, s)
  sslWrite bs s := (bs.length, s)

/-- Everything outside the library: the stack, mbedTLS, the clock and the heap. -/
structure Platform (σ : Type) where
  lwip : Lwip σ
  tls : MbedTls σ
  malloc : Nat → σ → Bool × σ
  millis : σ → Nat × σ
  delay : Nat → σ → σ

/-- `sslclient_context`. `session` is history: the certificate the last
completed handshake was made with. -/
structure SslContext where
  socket : Int := -1
  handshakeTimeout : Nat := 0
  session : Option (Option Bytes) := none
  deriving DecidableEq, Repr

namespace SslContext

open Live

variable {σ : Type} (p : Platform σ)

/-- `MBEDTLS_ERR_SSL_WANT_READ`. -/
def errWantRead : Int := -0x6900

/-- `MBEDTLS_ERR_SSL_WANT_WRITE`. -/
def errWantWrite : Int := -0x6880

/-- `MBEDTLS_PSK_MAX_LEN`. -/
def pskMaxLen : Nat := 32

def sslInit : Prog (Live σ SslContext) Unit := do
  tell (p.tls.init .ssl)
  tell (p.tls.init .sslConfig)
  tell (p.tls.init .ctrDrbg)

def stopSslSocket : Prog (Live σ SslContext) Unit := do
  let c ← obj
  if c.socket ≥ 0 then
    tell (p.lwip.close c.socket)
    set fun c => { c with socket := -1 }
  tell (p.tls.free .ssl)
  tell (p.tls.free .sslConfig)
  tell (p.tls.free .ctrDrbg)
  tell (p.tls.free .entropy)

/-! ## `start_ssl_client` -/

/-- "Starting socket". -/
def openSocket (host : Bytes) (port : Nat) (timeout : Int) : Prog (Live σ SslContext) (Except Int Unit) := do
  set fun c => { c with socket := -1 }
  let fd ← call p.lwip.socket
  set fun c => { c with socket := fd }
  if fd < 0 then
    return .error fd
  match ← TCPClient.hostByName p.lwip host with
  | none => return .error (-1)
  | some srv =>
    if (← call (p.lwip.connect fd ⟨srv, port⟩)) = 0 then
      let timeout := if timeout ≤ 0 then 30000 else timeout
      let _ ← call (p.lwip.setsockopt fd (.rcvTimeo timeout 0))
      let _ ← call (p.lwip.setsockopt fd (.sndTimeo timeout 0))
      let _ ← call (p.lwip.setsockopt fd (.noDelay 1))
      let _ ← call (p.lwip.setsockopt fd (.keepAlive 1))
      tell (p.lwip.fcntlNonblock fd)
      return .ok ()
    else
      return .error (-1)

/-- "Seeding the random number generator" and "Setting up the SSL/TLS structure". -/
def seedAndDefaults : Prog (Live σ SslContext) (Except Int Unit) := do
  tell (p.tls.init .entropy)
  let ret ← call p.tls.ctrDrbgSeed
  if ret < 0 then
    return .error ret
  let ret ← call p.tls.sslConfigDefaults
  if ret ≠ 0 then
    return .error ret
  return .ok ()

/-- The value of a character of the pre-shared key. -/
def pskNibble (c : UInt8) : Option UInt8 :=
  if 48 ≤ c ∧ c ≤ 57 then some (c - 48)
  else if 65 ≤ c ∧ c ≤ 70 then some (c - 55)
  else if 97 ≤ c ∧ c ≤ 102 then some (c - 87)
  else none

/-- "convert PSK from hex to binary". -/
def decodePsk : Bytes → Option Bytes
  | a :: b :: rest => do
    let high ← pskNibble a
    let low ← pskNibble b
    let psk ← decodePsk rest
    return (high <<< 4 ||| low) :: psk
  | _ => some []

/-- "Loading CA cert", "Setting up PSK", or neither. -/
def setPeerAuth (rootCABuff pskIdent psKey : Option Bytes) : Prog (Live σ SslContext) (Except Int Unit) := do
  match rootCABuff with
  | some ca =>
    tell (p.tls.init .caCert)
    tell (p.tls.sslConfAuthmode .verifyRequired)
    let ret ← call (p.tls.x509CrtParse .caCert ca)
    tell p.tls.sslConfCaChain
    if ret < 0 then
      return .error ret
    return .ok ()
  | none =>
    match pskIdent, psKey with
    | some ident, some key =>
      if key.length % 2 ≠ 0 ∨ key.length > 2 * pskMaxLen then
        return .error (-1)
      match decodePsk key with
      | none => return .error (-1)
      | some psk =>
        let ret ← call (p.tls.sslConfPsk psk ident)
        if ret ≠ 0 then
          return .error ret
        return .ok ()
    | _, _ =>
      tell (p.tls.sslConfAuthmode .verifyNone)
      return .ok ()

/-- "Loading CRT cert" and "Loading private key". -/
def setOwnCert (cliCert cliKey : Option Bytes) : Prog (Live σ SslContext) (Except Int Unit) := do
  match cliCert, cliKey with
  | some cert, some key =>
    tell (p.tls.init .clientCert)
    tell (p.tls.init .clientKey)
    let ret ← call (p.tls.x509CrtParse .clientCert cert)
    if ret < 0 then
      return .error ret
    let ret ← call (p.tls.pkParseKey key)
    if ret ≠ 0 then
      return .error ret
    tell p.tls.sslConfOwnCert
    return .ok ()
  | _, _ => return .ok ()

/-- "Setting hostname for TLS session". -/
def setup (host : Bytes) : Prog (Live σ SslContext) (Except Int Unit) := do
  let ret ← call (p.tls.sslSetHostname host)
  if ret ≠ 0 then
    return .error ret
  tell p.tls.sslConfRng
  let ret ← call p.tls.sslSetup
  if ret ≠ 0 then
    return .error ret
  tell (p.tls.sslSetBio (← obj).socket)
  return .ok ()

/-- "Performing the SSL/TLS handshake". -/
def handshake : Prog (Live σ SslContext) (Except Int Unit) := do
  let handshakeStartTime ← call p.millis
  Prog.loop (fun _ => do
    let ret ← call p.tls.sslHandshake
    if ret = 0 then
      return .exit (.ok ())
    if ret ≠ errWantRead ∧ ret ≠ errWantWrite then
      return .exit (.error ret)
    let now ← call p.millis
    if sizeT (now - handshakeStartTime) > (← obj).handshakeTimeout then
      return .exit (.error (-1))
    tell (p.delay 10)
    return .next ()) ()

/-- "Verifying peer X.509 certificate" and what follows. `ret` is 0 from the
handshake, or the record expansion; it is what a failed verification returns. -/
def verifyPeer (rootCABuff cliCert cliKey : Option Bytes) : Prog (Live σ SslContext) Int := do
  let mut ret : Int := 0
  if cliCert.isSome ∧ cliKey.isSome then
    ret ← call p.tls.sslGetRecordExpansion
  let flags ← call p.tls.sslGetVerifyResult
  if flags ≠ 0 then
    stopSslSocket p
    return ret
  if rootCABuff.isSome then
    tell (p.tls.free .caCert)
  if cliCert.isSome then
    tell (p.tls.free .clientCert)
  if cliKey.isSome then
    tell (p.tls.free .clientKey)
  return (← obj).socket

def startSslClient (host : Bytes) (port : Nat) (timeout : Int)
    (rootCABuff cliCert cliKey pskIdent psKey : Option Bytes) : Prog (Live σ SslContext) Int := do
  if let .error e ← openSocket p host port timeout then
    return e
  if let .error e ← seedAndDefaults p then
    return e
  if let .error e ← setPeerAuth p rootCABuff pskIdent psKey then
    return e
  if let .error e ← setOwnCert p cliCert cliKey then
    return e
  if let .error e ← setup p host then
    return e
  if let .error e ← handshake p then
    return e
  set fun c => { c with session := some rootCABuff }
  verifyPeer p rootCABuff cliCert cliKey

/-! ## Data -/

def dataToRead : Prog (Live σ SslContext) Int := do
  let ret := (← call (p.tls.sslRead 0)).rc
  let res ← call p.tls.sslGetBytesAvail
  if ret ≠ errWantRead ∧ ret ≠ errWantWrite ∧ ret < 0 then
    return ret
  return int32 res

/-- `send_ssl_data`: the length is a `uint16_t`. -/
def sendSslData (data : Bytes) (len : Nat) : Prog (Live σ SslContext) Int :=
  Prog.loop (fun _ => do
    let ret ← call (p.tls.sslWrite (data.take (len % 2 ^ 16)))
    if ret ≤ 0 then
      if ret ≠ errWantRead ∧ ret ≠ errWantWrite then
        return .exit ret
      return .next ()
    return .exit ret) ()

/-- `get_ssl_receive`: the value returned, and the bytes stored. -/
def getSslReceive (length : Nat) : Prog (Live σ SslContext) (Int × Bytes) := do
  let r ← call (p.tls.sslRead length)
  return (r.rc, r.got)

end SslContext

end FEmbed
