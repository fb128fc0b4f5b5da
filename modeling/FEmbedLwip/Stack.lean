/-
The rest of the library's boundary with lwIP, for datagrams and servers, and
a record of the calls that are made on sockets.
-/
import FEmbedLwip.Records
import FEmbedLwip.TCPClient

namespace FEmbed

/-- `lwip_recvfrom`: what was received, and the address of the sender. -/
structure RecvFrom where
  recv : Recv
  src : Option SockAddr
  deriving DecidableEq, Repr

/-- The lwIP calls of all the socket classes. An address, and the error that
`soError` (`getsockopt` of `SO_ERROR`) reads, is `none` when nothing is stored. -/
structure Stack (σ : Type) extends Lwip σ where
  sendto : Int → Bytes → SockAddr → σ → Int × σ
  recvfrom : Int → Nat → σ → RecvFrom × σ
  bind : Int → SockAddr → σ → Int × σ
  listen : Int → Nat → σ → Int × σ
  accept : Int → σ → (Int × Option SockAddr) × σ
  getsockname : Int → σ → (Int × Option SockAddr) × σ
  soError : Int → σ → Option Int × σ

/-- `htonl` of a little-endian machine. -/
def htonl (x : Nat) : Nat :=
  x % 2 ^ 8 * 2 ^ 24 + x / 2 ^ 8 % 2 ^ 8 * 2 ^ 16 + x / 2 ^ 16 % 2 ^ 8 * 2 ^ 8 + x / 2 ^ 24 % 2 ^ 8

/-- `IPADDR_BROADCAST`. -/
def ipaddrBroadcast : Nat := 0xFFFFFFFF

/-! ## The record -/

/-- A call that is made on sockets, with the answer where it decides something.
`adopted` is no call: it is a descriptor handed to a constructor. -/
inductive SocketCall where
  | socket (fd : Int)
  | adopted (fd : Int)
  | setsockopt (fd : Int) (o : SockOpt) (rc : Int)
  | connect (fd rc : Int)
  | use (fd : Int)
  | close (fd : Int)
  deriving DecidableEq, Repr

variable {σ : Type}

def Lwip.recording (net : Lwip σ) : Lwip (σ × List SocketCall) where
  inetAddr := net.inetAddr
  getaddrinfo h := unrecorded (net.getaddrinfo h)
  socket := recorded net.socket .socket
  setsockopt fd o := recorded (net.setsockopt fd o) (.setsockopt fd o)
  connect fd sa := recorded (net.connect fd sa) (.connect fd)
  shutdown fd := noted (net.shutdown fd) (.use fd)
  close fd := noted (net.close fd) (.close fd)
  ioctl fd := recorded (net.ioctl fd) fun _ => .use fd
  select fd := recorded (net.select fd) fun _ => .use fd
  recv fd n := recorded (net.recv fd n) fun _ => .use fd
  write fd bs := recorded (net.write fd bs) fun _ => .use fd
  fcntlNonblock fd := noted (net.fcntlNonblock fd) (.use fd)

def Stack.recording (net : Stack σ) : Stack (σ × List SocketCall) where
  toLwip := net.toLwip.recording
  sendto fd bs sa := recorded (net.sendto fd bs sa) fun _ => .use fd
  recvfrom fd n := recorded (net.recvfrom fd n) fun _ => .use fd
  bind fd sa := recorded (net.bind fd sa) fun _ => .use fd
  listen fd n := recorded (net.listen fd n) fun _ => .use fd
  accept fd := recorded (net.accept fd) fun _ => .use fd
  getsockname fd := recorded (net.getsockname fd) fun _ => .use fd
  soError fd := recorded (net.soError fd) fun _ => .use fd

end FEmbed
