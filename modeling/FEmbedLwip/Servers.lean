/-
`UDPServer` and `TCPServer`: a bound socket of lwIP, and a listening one.
-/
import FEmbedLwip.Stack

namespace FEmbed

open Live

/-! ## `UDPServer` -/

structure UDPServer where
  socketFd : Int := -1
  servAddr : SockAddr := {}
  cliAddr : SockAddr := {}
  deriving DecidableEq, Repr

namespace UDPServer

variable {σ : Type} (net : Stack σ)

/-- `~UDPServer`. -/
def destroy : Prog (Live σ UDPServer) Unit := do
  let c ← obj
  if c.socketFd ≥ 0 then
    tell (net.close c.socketFd)

def begin : Prog (Live σ UDPServer) Unit := do
  let fd ← call net.socket
  set fun _ => { socketFd := fd }

/-- `end`. -/
def finish : Prog (Live σ UDPServer) Unit := do
  let c ← obj
  if c.socketFd ≥ 0 then
    tell (net.close c.socketFd)
  set fun c => { c with socketFd := -1 }

def establish (port bindAddr : Nat) : Prog (Live σ UDPServer) Int := do
  set fun c => { c with servAddr := ⟨htonl bindAddr, port⟩, cliAddr := ⟨ipaddrBroadcast, port⟩ }
  let c ← obj
  if c.socketFd < 0 then
    return 0
  let _ ← call (net.setsockopt c.socketFd (.rcvTimeo 5 0))
  let rc ← call (net.bind c.socketFd c.servAddr)
  if rc = -1 then
    return rc
  let (rc, name) ← call (net.getsockname c.socketFd)
  set fun c => { c with servAddr := name.getD c.servAddr }
  return rc

/-- `write(buf, size)`, and `write(c)` for a `buf` of one byte. -/
def write (buf : Bytes) : Prog (Live σ UDPServer) Nat := do
  let c ← obj
  let rc ← call (net.sendto c.socketFd buf c.cliAddr)
  return if rc < 0 then 0 else sizeT rc

/-- `read(buf, size)`: the value returned, and the bytes stored in `buf`. -/
def readBuf (size : Nat) : Prog (Live σ UDPServer) (Int × Bytes) := do
  let c ← obj
  let r ← call (net.recvfrom c.socketFd size)
  set fun c => { c with cliAddr := r.src.getD c.cliAddr }
  return (r.recv.rc, r.recv.got)

/-- `read()`: what is returned is the number of bytes. -/
def read : Prog (Live σ UDPServer) Int := do
  let (rc, _) ← readBuf net 1
  return rc

def available : Prog (Live σ UDPServer) Int := do
  let c ← obj
  if c.socketFd ≥ 0 then
    let rc := (← call (net.ioctl c.socketFd)).getD 0
    return if rc < 0 then 0 else rc
  return 0

end UDPServer

/-! ## `TCPServer` -/

structure TCPServer where
  socketFd : Int := -1
  servAddr : SockAddr := {}
  cliAddr : SockAddr := {}
  deriving DecidableEq, Repr

namespace TCPServer

variable {σ : Type} (net : Stack σ)

/-- `TCP_SERVER_MAX_CONN`. -/
def maxConn : Nat := 2

/-- `~TCPServer`, which does nothing. -/
def destroy : Prog (Live σ TCPServer) Unit := return ()

def begin : Prog (Live σ TCPServer) Unit := do
  let fd ← call net.socket
  set fun _ => { socketFd := fd }

/-- `end`: the descriptor stays in the object. -/
def finish : Prog (Live σ TCPServer) Unit := do
  let c ← obj
  if c.socketFd ≥ 0 then
    tell (net.close c.socketFd)

def establish (port bindAddr : Nat) : Prog (Live σ TCPServer) Bool := do
  set fun c => { c with servAddr := ⟨htonl bindAddr, port⟩ }
  let c ← obj
  if c.socketFd < 0 then
    return false
  let _ ← call (net.setsockopt c.socketFd (.reuseAddr 1))
  let _ ← call (net.setsockopt c.socketFd (.rcvTimeo 5 0))
  if (← call (net.bind c.socketFd c.servAddr)) < 0 then
    return false
  if (← call (net.listen c.socketFd maxConn)) < 0 then
    return false
  return true

/-- The constructor with a port. -/
def constructPort (port : Nat) : Prog (Live σ TCPServer) Unit := do
  set fun _ => {}
  begin net
  let _ ← establish net port 0

/-- `accept`: the client, if one is accepted, owns the new socket. -/
def accept : Prog (Live σ TCPServer) (Option TCPClient) := do
  let c ← obj
  if c.socketFd ≥ 0 then
    let (sockFd, addr) ← call (net.accept c.socketFd)
    set fun c => { c with cliAddr := addr.getD c.cliAddr }
    if sockFd ≥ 0 then
      return some (TCPClient.adopt sockFd (← obj).cliAddr)
  return none

/-- `available`: `accept`, with a client without a socket for none. -/
def available : Prog (Live σ TCPServer) TCPClient := do
  let client ← accept net
  return client.getD {}

end TCPServer

end FEmbed
