/-
The networks of `MQTTClient-C` on FreeRTOS: a socket, or a TLS connection over
one, and the record of what they take and give back.

Each label of `NetworkConnectSSL` is a program, from there to the end. The reads
are in `MQTTFreeRTOS`.
-/
import FEmbedLwip.Lives
import FEmbedLwip.Lwip

namespace FEmbed

open Live

/-! ## The outside -/

/-- What is given back: sockets, and what the TLS library allocates. -/
inductive NetworkHandle where
  | socket (fd : Int)
  | ctx (ptr : Nat)
  | ssl (ptr : Nat)
  deriving DecidableEq, Repr

/-- A call that takes a handle, uses some, gives one back, or takes bytes. A
pointer is `none` for null. -/
inductive NetworkCall where
  | socket (fd : Int)
  | ctxNew (ctx : Option Nat)
  | sslNew (ctx : Nat) (ssl : Option Nat)
  | use (hs : List NetworkHandle)
  | wrote (hs : List NetworkHandle) (bs : Bytes)
  | close (fd : Int)
  | sslFree (ssl : Option Nat)
  | ctxFree (ctx : Option Nat)
  deriving DecidableEq, Repr

/-- What `select` finds of a socket that is to be written to. -/
structure Writable where
  ready : Int
  writeset : Bool
  errset : Bool
  deriving DecidableEq, Repr

/-- What the networks call. -/
structure NetworkPlatform (σ : Type) where
  gethostbyname : Bytes → σ → Option Nat × σ
  socket : σ → Int × σ
  connect : Int → SockAddr → σ → Int × σ
  close : Int → σ → σ
  select : Int → Nat → σ → Writable × σ
  send : Int → Bytes → σ → Int × σ
  sslCtxNew : Nat → σ → Option Nat × σ
  sslCtxLoadVerifyBuffer : Nat → Bytes → σ → Int × σ
  sslCtxUseCertificateASN1 : Nat → Bytes → σ → Int × σ
  sslCtxUsePrivateKeyASN1 : Nat → Bytes → σ → Int × σ
  sslCtxSetVerify : Nat → Int → σ → σ
  sslCtxFree : Option Nat → σ → σ
  sslNew : Nat → σ → Option Nat × σ
  sslSetFd : Nat → Int → σ → σ
  sslConnect : Nat → σ → Int × σ
  sslWrite : Option Nat → Bytes → σ → Int × σ
  sslFree : Option Nat → σ → σ
  /-- `vTaskSetTimeOutState` and `xTaskCheckForTimeOut`. -/
  setTimeOutState : σ → σ
  checkForTimeOut : σ → Bool × σ

/-- `SSL_VERIFY_NONE`. -/
def sslVerifyNone : Int := 0

/-- `ssl_ca_crt_key_t`. -/
structure SslCaCrtKey where
  cacrt : Option Bytes := none
  cert : Option Bytes := none
  key : Option Bytes := none
  deriving DecidableEq, Repr

/-- The functions that a `Network` points to. -/
inductive Transport where
  | esp
  | espSsl
  deriving DecidableEq, Repr

/-- What connecting returns when it is done: the result of `connect`, or of `SSL_connect`. -/
def Transport.connected : Transport → Int
  | .esp => 0
  | .espSsl => 1

structure Network where
  mySocket : Int
  transport : Transport
  readCount : Nat
  ctx : Option Nat
  ssl : Option Nat
  deriving DecidableEq, Repr

namespace Network

variable {σ : Type} (p : NetworkPlatform σ)

def networkInit : Prog (Live σ Network) Unit := set fun n => { n with mySocket := 0, transport := .esp }

def networkInitSSL : Prog (Live σ Network) Unit :=
  set fun _ => { mySocket := 0, transport := .espSsl, readCount := 0, ctx := none, ssl := none }

/-! ## Connecting -/

/-- `sAddr`. -/
def sockAddr (ip : Nat) (port : Int) : SockAddr := ⟨ip, (port % 65536).toNat⟩

def networkConnect (addr : Bytes) (port : Int) : Prog (Live σ Network) Int := do
  match ← call (p.gethostbyname addr) with
  | none => return -1
  | some ip =>
    let fd ← call p.socket
    set fun n => { n with mySocket := fd }
    if fd < 0 then
      return -1
    else
      let retVal ← call (p.connect fd (sockAddr ip port))
      if retVal < 0 then
        tell (p.close fd)
        return retVal
      else return retVal

/-- From the label `exit1`. -/
def exit1 (retVal : Int) : Prog (Live σ Network) Int := do
  tell (p.sslCtxFree (← obj).ctx)
  return retVal

/-- From the label `exit2`. -/
def exit2 (retVal : Int) : Prog (Live σ Network) Int := do
  tell (p.close (← obj).mySocket)
  exit1 p retVal

/-- From the label `exit3`. -/
def exit3 (retVal : Int) : Prog (Live σ Network) Int := do
  tell (p.sslFree (← obj).ssl)
  exit2 p retVal

/-- The certificate of the client and its key; `retVal` then, or an error. -/
def useCertificate (ctx : Nat) (sslCck : SslCaCrtKey) (retVal : Int) : Prog (Live σ Network) (Except Int Int) := do
  match sslCck.cert, sslCck.key with
  | some cert, some key =>
    let retVal ← call (p.sslCtxUseCertificateASN1 ctx cert)
    if retVal = 0 then
      return .error retVal
    else
      let retVal ← call (p.sslCtxUsePrivateKeyASN1 ctx key)
      return if retVal = 0 then .error retVal else .ok retVal
  | _, _ => return .ok retVal

/-- The credentials: `retVal` then, or an error. -/
def loadCredentials (ctx : Nat) (sslCck : SslCaCrtKey) : Prog (Live σ Network) (Except Int Int) := do
  match sslCck.cacrt with
  | some cacrt =>
    let retVal ← call (p.sslCtxLoadVerifyBuffer ctx cacrt)
    if retVal ≠ 1 then
      return .error retVal
    else useCertificate p ctx sslCck retVal
  | none => useCertificate p ctx sslCck (-1)

/-- The connection over TLS, with what `retVal` is before it. -/
def establish (ctx : Nat) (sAddr : SockAddr) (retVal : Int) : Prog (Live σ Network) Int := do
  let fd ← call p.socket
  set fun n => { n with mySocket := fd }
  if fd < 0 then
    exit1 p retVal
  else
    let retVal ← call (p.connect fd sAddr)
    if retVal < 0 then
      exit2 p retVal
    else
      let ssl ← call (p.sslNew ctx)
      set fun n => { n with ssl := ssl }
      match ssl with
      | none => exit2 p retVal
      | some ssl =>
        tell (p.sslSetFd ssl fd)
        let retVal ← call (p.sslConnect ssl)
        if retVal ≤ 0 then
          exit3 p retVal
        else return retVal

def networkConnectSSL (addr : Bytes) (port : Int) (sslCck : SslCaCrtKey) (method : Nat) (verifyMode : Int) (_fragLen : Nat) :
    Prog (Live σ Network) Int := do
  match ← call (p.gethostbyname addr) with
  | none => return -1
  | some ip =>
    let ctx ← call (p.sslCtxNew method)
    set fun n => { n with ctx := ctx }
    match ctx with
    | none => return -1
    | some ctx =>
      match ← loadCredentials p ctx sslCck with
      | .error retVal => exit1 p retVal
      | .ok retVal =>
        tell (p.sslCtxSetVerify ctx (if sslCck.cacrt.isSome then verifyMode else sslVerifyNone))
        establish p ctx (sockAddr ip port) retVal

/-- `esp_disconnect` and `esp_ssl_disconnect`. -/
def disconnect : Prog (Live σ Network) Unit := do
  let n ← obj
  match n.transport with
  | .esp => tell (p.close n.mySocket)
  | .espSsl =>
    tell (p.close n.mySocket)
    tell (p.sslFree n.ssl)
    tell (p.sslCtxFree n.ctx)
    set fun n => { n with readCount := 0 }

/-! ## Writing -/

/-- Until the socket is ready, or failed. -/
def awaitWritable (n : Network) (timeoutMs : Nat) : Prog (Live σ Network) Writable :=
  Prog.loop (fun _ => do
    let readysock ← call (p.select n.mySocket timeoutMs)
    if readysock.ready ≤ 0 then
      return .next ()
    else return .exit readysock) ()

/-- The loop of both functions. After an error, what was sent before it is not returned. -/
def sendAll (send : Bytes → σ → Int × σ) (buffer : Bytes) : Prog (Live σ Network) Int :=
  Prog.loop (fun sentLen : Nat => do
    let rc ← call (send (buffer.drop sentLen))
    if rc < 0 then
      return .exit rc
    else
      let sentLen := sentLen + rc.toNat
      if sentLen < buffer.length then
        if ← call p.checkForTimeOut then
          return .exit sentLen
        else return .next sentLen
      else return .exit sentLen) 0

def espWrite (n : Network) (buffer : Bytes) (timeoutMs : Nat) : Prog (Live σ Network) Int := do
  tell p.setTimeOutState
  let readysock ← awaitWritable p n timeoutMs
  if readysock.writeset then
    sendAll p (p.send n.mySocket) buffer
  else return 0

def espSslWrite (n : Network) (buffer : Bytes) (timeoutMs : Nat) : Prog (Live σ Network) Int := do
  tell p.setTimeOutState
  let readysock ← awaitWritable p n timeoutMs
  if readysock.errset then
    return 0
  else
    if readysock.writeset then
      sendAll p (p.sslWrite n.ssl) buffer
    else return 0

def mqttwrite (buffer : Bytes) (timeoutMs : Nat) : Prog (Live σ Network) Int := do
  let n ← obj
  match n.transport with
  | .esp => espWrite p n buffer timeoutMs
  | .espSsl => espSslWrite p n buffer timeoutMs

/-! ## Sessions -/

/-- What an application connects with, and writes then. -/
structure Session where
  addr : Bytes
  port : Int
  sslCck : SslCaCrtKey := {}
  method : Nat := 0
  verifyMode : Int := sslVerifyNone
  fragLen : Nat := 0
  writes : List (Bytes × Nat) := []
  deriving DecidableEq, Repr

def writeAll : List (Bytes × Nat) → Prog (Live σ Network) Unit
  | [] => return ()
  | (buffer, timeoutMs) :: writes => do
    let _ ← mqttwrite p buffer timeoutMs
    writeAll writes

def Session.connect (u : Session) : Transport → Prog (Live σ Network) Int
  | .esp => networkConnect p u.addr u.port
  | .espSsl => networkConnectSSL p u.addr u.port u.sslCck u.method u.verifyMode u.fragLen

/-- The network is connected, written to and disconnected; the last two unless
it says that it is not connected. -/
def Session.run (u : Session) : Prog (Live σ Network) Int := do
  let n ← obj
  let rc ← u.connect p n.transport
  if rc = n.transport.connected then
    writeAll p u.writes
    disconnect p
    return rc
  else return rc

inductive NetworkOp where
  | init
  | initSSL
  | session (u : Session)
  deriving DecidableEq, Repr

def NetworkOp.run : NetworkOp → Prog (Live σ Network) Int
  | .init => do networkInit; return 0
  | .initSSL => do networkInitSSL; return 0
  | .session u => u.run p

end Network

/-! ## The record -/

def NetworkCall.events : NetworkCall → List (HandleEvent NetworkHandle)
  | .socket fd => if 0 ≤ fd then [.opened (.socket fd)] else []
  | .ctxNew ctx => ctx.toList.map fun ctx => .opened (.ctx ctx)
  | .sslNew ctx ssl => .used (.ctx ctx) :: ssl.toList.map fun ssl => .opened (.ssl ssl)
  | .use hs | .wrote hs _ => hs.map .used
  | .close fd => if 0 ≤ fd then [.closed (.socket fd)] else []
  | .sslFree ssl => ssl.toList.map fun ssl => .closed (.ssl ssl)
  | .ctxFree ctx => ctx.toList.map fun ctx => .closed (.ctx ctx)

namespace Network

variable {σ : Type} {p : NetworkPlatform σ}

def handleEvents (log : List NetworkCall) : List (HandleEvent NetworkHandle) := log.flatMap NetworkCall.events

/-- The open handles after the calls; `none` after a call on one that is not open. -/
def ledger (log : List NetworkCall) : Option (List NetworkHandle) := Ledger.settle [] (handleEvents log)

/-- The bytes that were taken. -/
def taken (log : List NetworkCall) : Bytes := log.flatMap fun c => match c with
  | .wrote _ bs => bs
  | _ => []

/-- A socket was asked for, and there was none. -/
def denied (log : List NetworkCall) : Bool := log.any fun c => match c with
  | .socket fd => fd < 0
  | _ => false

@[simp] theorem handleEvents_nil : handleEvents [] = [] := rfl

@[simp] theorem handleEvents_cons {c : NetworkCall} {log : List NetworkCall} : handleEvents (c :: log) = c.events ++ handleEvents log :=
  rfl

@[simp] theorem handleEvents_append {log log' : List NetworkCall} :
    handleEvents (log ++ log') = handleEvents log ++ handleEvents log' := List.flatMap_append

theorem ledger_append {log log' : List NetworkCall} :
    ledger (log ++ log') = (ledger log).bind (Ledger.settle · (handleEvents log')) := by
  rw [ledger, handleEvents_append, Ledger.settle_append, ledger]

@[simp] theorem denied_nil : denied [] = false := rfl

@[simp] theorem denied_append {log log' : List NetworkCall} : denied (log ++ log') = (denied log || denied log') := List.any_append

end Network

def NetworkPlatform.recording {σ : Type} (p : NetworkPlatform σ) : NetworkPlatform (σ × List NetworkCall) where
  gethostbyname addr := unrecorded (p.gethostbyname addr)
  socket := recorded p.socket .socket
  connect fd sAddr := recorded (p.connect fd sAddr) fun _ => .use [.socket fd]
  close fd := noted (p.close fd) (.close fd)
  select fd timeoutMs := recorded (p.select fd timeoutMs) fun _ => .use [.socket fd]
  send fd bs := recorded (p.send fd bs) fun rc => .wrote [.socket fd] (bs.take rc.toNat)
  sslCtxNew method := recorded (p.sslCtxNew method) .ctxNew
  sslCtxLoadVerifyBuffer ctx bs := recorded (p.sslCtxLoadVerifyBuffer ctx bs) fun _ => .use [.ctx ctx]
  sslCtxUseCertificateASN1 ctx bs := recorded (p.sslCtxUseCertificateASN1 ctx bs) fun _ => .use [.ctx ctx]
  sslCtxUsePrivateKeyASN1 ctx bs := recorded (p.sslCtxUsePrivateKeyASN1 ctx bs) fun _ => .use [.ctx ctx]
  sslCtxSetVerify ctx mode := noted (p.sslCtxSetVerify ctx mode) (.use [.ctx ctx])
  sslCtxFree ctx := noted (p.sslCtxFree ctx) (.ctxFree ctx)
  sslNew ctx := recorded (p.sslNew ctx) (.sslNew ctx)
  sslSetFd ssl fd := noted (p.sslSetFd ssl fd) (.use [.ssl ssl, .socket fd])
  sslConnect ssl := recorded (p.sslConnect ssl) fun _ => .use [.ssl ssl]
  sslWrite ssl bs := recorded (p.sslWrite ssl bs) fun rc => .wrote (ssl.toList.map .ssl) (bs.take rc.toNat)
  sslFree ssl := noted (p.sslFree ssl) (.sslFree ssl)
  setTimeOutState := unnoted p.setTimeOutState
  checkForTimeOut := unrecorded p.checkForTimeOut

end FEmbed
