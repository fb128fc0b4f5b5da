/-
`TCPClient`: a stream socket of lwIP as an Arduino client.

The operations are those of `TCPClient.cpp`, in its order of calls. `char` is
signed on some compilers and unsigned on others, and `read()` returns a
`char`, so the model is told which (`charSigned`).
-/
import FEmbedLwip.Lwip

namespace FEmbed

structure TCPClient where
  socketFd : Int := -1
  sa : SockAddr := {}
  soTimeout : Int × Int := (0, 0)
  _connected : Bool := false
  deriving DecidableEq, Repr

namespace TCPClient

open Live

variable {σ : Type} (net : Lwip σ) (charSigned : Bool)

/-- The constructor that adopts a socket (of a server's `accept`). -/
def adopt (sockId : Int) (sa : SockAddr) : TCPClient :=
  { socketFd := sockId, sa := sa, _connected := decide (sockId ≥ 0) }

def stop : Prog (Live σ TCPClient) Unit := do
  let c ← obj
  if c.socketFd ≥ 0 then
    tell (net.shutdown c.socketFd)
    tell (net.close c.socketFd)
  set fun c => { c with _connected := false, socketFd := -1 }

/-- `~TCPClient`. -/
def destroy : Prog (Live σ TCPClient) Unit := do
  let c ← obj
  if c.socketFd ≥ 0 then
    tell (net.shutdown c.socketFd)
    tell (net.close c.socketFd)

/-- `connectV4`, once an earlier socket is closed. -/
def openV4 (ip port : Nat) (timeout : Int) : Prog (Live σ TCPClient) Int := do
  let fd ← call net.socket
  set fun c => { c with socketFd := fd }
  if fd < 0 then
    return -1
  if (← call (net.setsockopt fd (.keepAlive timeout))) = -1 then
    tell (net.close fd)
    return -1
  if (← call (net.setsockopt fd (.reuseAddr 1))) = -1 then
    tell (net.close fd)
    return -1
  set fun c => { c with sa := ⟨ip, port⟩ }
  let rc ← call (net.connect fd ⟨ip, port⟩)
  if rc < 0 then
    tell (net.close fd)
    set fun c => { c with socketFd := -2 }
  -- The flag is set on this path whether or not the connection was made.
  set fun c => { c with soTimeout := (timeout.tdiv 1000, timeout.tmod 1000 * 1000), _connected := true }
  return (← obj).socketFd

def connectV4 (ip port : Nat) (timeout : Int) : Prog (Live σ TCPClient) Int := do
  if (← obj).socketFd ≥ 0 then
    stop net
  openV4 net ip port timeout

/-- `hostByName`, a static function: the address, or `none` when the host has none. -/
def hostByName {O : Type} (host : Bytes) : Prog (Live σ O) (Option Nat) := do
  let mut ip := net.inetAddr host
  if ip = ipaddrNone then
    match ← call (net.getaddrinfo host) with
    | some result =>
      match result.find? (·.inet) with
      | some res => ip := res.addr
      | none => pure ()
    | none => pure ()
  if ip = ipaddrNone then
    return none
  return some ip

def connect (host : Bytes) (port : Nat) (timeout : Int) : Prog (Live σ TCPClient) Int := do
  if (← obj).socketFd ≥ 0 then
    stop net
    set fun c => { c with socketFd := -1 }
  match ← hostByName net host with
  | none => return -1
  | some ip => connectV4 net ip port timeout

/-- `connect(ip, port)`. -/
def connectIp (ip port : Nat) : Prog (Live σ TCPClient) Int := connectV4 net ip port 5000

/-- `connect(host, port)`. -/
def connectHost (host : Bytes) (port : Nat) : Prog (Live σ TCPClient) Int := connect net host port 5000

def setKeepAlive (time : Int) : Prog (Live σ TCPClient) Unit := do
  let c ← obj
  if c.socketFd ≥ 0 then
    let _ ← call (net.setsockopt c.socketFd (.keepAlive time))

/-- `write(buf, size)`, and the others with the bytes they are given. It
returns a `size_t`: `-1` is the largest one. -/
def write (buf : Bytes) : Prog (Live σ TCPClient) Nat := do
  let c ← obj
  if c.socketFd < 0 then
    return sizeT (-1)
  let _ ← call (net.setsockopt c.socketFd (.sndTimeo c.soTimeout.1 c.soTimeout.2))
  let rc ← call (net.write c.socketFd buf)
  return if rc < 0 then 0 else sizeT rc

def available : Prog (Live σ TCPClient) Int := do
  let c ← obj
  if c.socketFd ≥ 0 then
    let rc := (← call (net.ioctl c.socketFd)).getD 0
    if rc < 0 then
      set fun c => { c with _connected := false }
      return 0
    return rc
  return 0

/-- A `char` widened to `int`. -/
def charToInt (charSigned : Bool) (b : UInt8) : Int :=
  if charSigned ∧ b ≥ 128 then (b.toNat : Int) - 256 else b.toNat

/-- `read()`: any answer of `lwip_recv` but 0 counts as a byte, and `buf` is
0 until one is stored there. -/
def read : Prog (Live σ TCPClient) Int := do
  let c ← obj
  if c.socketFd < 0 then
    return -1
  if (← call (net.select c.socketFd)) > 0 then
    let _ ← call (net.setsockopt c.socketFd (.rcvTimeo c.soTimeout.1 c.soTimeout.2))
    let r ← call (net.recv c.socketFd 1)
    if r.rc ≠ 0 then
      return charToInt charSigned (r.got.headD 0)
    return 0
  set fun c => { c with _connected := false }
  return 0

/-- `read(buf, size)`: the value returned, and the bytes stored in `buf`. -/
def readBuf (size : Nat) : Prog (Live σ TCPClient) (Int × Bytes) := do
  let c ← obj
  if c.socketFd < 0 then
    return (-1, [])
  if (← call (net.select c.socketFd)) > 0 then
    let _ ← call (net.setsockopt c.socketFd (.rcvTimeo c.soTimeout.1 c.soTimeout.2))
    let r ← call (net.recv c.socketFd size)
    return (r.rc, r.got)
  set fun c => { c with _connected := false }
  return (-1, [])

def peek : Prog (Live σ TCPClient) Int := return 0

def flush : Prog (Live σ TCPClient) Unit := return ()

def connected : Prog (Live σ TCPClient) Bool := do
  if (← obj).socketFd < 0 then
    return false
  let _ ← available net
  return (← obj)._connected

/-- `operator bool`. -/
def toBool (c : TCPClient) : Bool := c.socketFd ≥ 0

end TCPClient

end FEmbed
