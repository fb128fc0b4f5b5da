/-
`UDPClient`: a datagram socket of lwIP as an Arduino client.
-/
import FEmbedLwip.Stack

namespace FEmbed

structure UDPClient where
  socketFd : Int := -1
  sa : SockAddr := {}
  deriving DecidableEq, Repr

namespace UDPClient

open Live

variable {σ : Type} (net : Stack σ) (charSigned : Bool)

/-- `~UDPClient`. -/
def destroy : Prog (Live σ UDPClient) Unit := do
  let c ← obj
  if c.socketFd ≥ 0 then
    tell (net.close c.socketFd)

/-- A socket that the object has is not looked at. -/
def connectV4 (ip port : Nat) (timeout : Int) : Prog (Live σ UDPClient) Int := do
  let fd ← call net.socket
  set fun c => { c with socketFd := fd }
  if fd < 0 then
    return -1
  if (← call (net.setsockopt fd (.keepAlive timeout))) = -1 then
    tell (net.close fd)
    return -1
  set fun c => { c with sa := ⟨ip, port⟩ }
  return (← obj).socketFd

/-- `connect(ip, port)`. -/
def connectIp (ip port : Nat) : Prog (Live σ UDPClient) Int := connectV4 net ip port 5000

/-- `connect(host, port)`, whose one statement is a call of itself. -/
def connectHost (_host : Bytes) (_port : Nat) : Prog (Live σ UDPClient) Int :=
  Prog.loop (fun _ => return .next ()) ()

/-- `connect(host, port, timeout)`: the timeout is not passed on. -/
def connect (host : Bytes) (port : Nat) (_timeout : Int) : Prog (Live σ UDPClient) Int := do
  let c ← obj
  if c.socketFd ≥ 0 then
    return c.socketFd
  match ← TCPClient.hostByName net.toLwip host with
  | none => return -1
  | some ip => connectV4 net ip port 5000

/-- `write(buf, size)`, and `write(c)` for a `buf` of one byte. -/
def write (buf : Bytes) : Prog (Live σ UDPClient) Nat := do
  let c ← obj
  if c.socketFd < 0 then
    return sizeT (-1)
  let rc ← call (net.sendto c.socketFd buf c.sa)
  return if rc < 0 then 0 else sizeT rc

def available : Prog (Live σ UDPClient) Int := do
  let c ← obj
  if c.socketFd ≥ 0 then
    let rc := (← call (net.ioctl c.socketFd)).getD 0
    return if rc < 0 then 0 else rc
  return 0

/-- `read()`: any answer of `lwip_recv` but 0 counts as a byte. -/
def read : Prog (Live σ UDPClient) Int := do
  let c ← obj
  if c.socketFd < 0 then
    return -1
  let r ← call (net.recv c.socketFd 1)
  return if r.rc ≠ 0 then TCPClient.charToInt charSigned (r.got.headD 0) else 0

/-- `read(buf, size)`: the value returned, and the bytes stored in `buf`. -/
def readBuf (size : Nat) : Prog (Live σ UDPClient) (Int × Bytes) := do
  let c ← obj
  if c.socketFd < 0 then
    return (-1, [])
  let r ← call (net.recv c.socketFd size)
  return (r.rc, r.got)

def peek : Prog (Live σ UDPClient) Int := return 0

def flush : Prog (Live σ UDPClient) Unit := return ()

def stop : Prog (Live σ UDPClient) Unit := do
  let c ← obj
  if c.socketFd ≥ 0 then
    tell (net.close c.socketFd)
  set fun c => { c with socketFd := -1 }

/-- `error_code` has no value until `lwip_getsockopt` stores one. -/
def connected : Prog (Live σ UDPClient) Bool := do
  let c ← obj
  if c.socketFd < 0 then
    return false
  match ← call (net.soError c.socketFd) with
  | none => Prog.undefined
  | some errorCode => return errorCode = 0

/-- `operator bool`. -/
def toBool (c : UDPClient) : Bool := c.socketFd ≥ 0

end UDPClient

end FEmbed
