/-
`FTPClient.cpp`: an FTP client in passive mode.

The control connection is an `FTPClientBase`: a `TCPClient` with a buffer of
bytes received and the last line of the last reply. A transfer makes a second
one for the data connection, `nData`; only its socket is used. Memory is
explicit where the sources index it (`poke`), and an access out of bounds is
undefined behaviour. Port mode is not in the model: the sources refuse it.

`hist` is history: what the transfers did, in order. Nothing reads it.
-/
import FEmbedLwip.SslClient

namespace FEmbed

/-! ## C strings and scanning -/

/-- Write `bs` into the array `a` at the index `i`; `none` out of bounds. -/
def poke (a : Bytes) (i : Nat) (bs : Bytes) : Option Bytes :=
  if i + bs.length ≤ a.length then some (a.take i ++ bs ++ a.drop (i + bs.length)) else none

theorem poke_eq_some {a : Bytes} {i : Nat} {bs : Bytes} (h : i + bs.length ≤ a.length) :
    poke a i bs = some (a.take i ++ bs ++ a.drop (i + bs.length)) := if_pos h

theorem poke_some {a : Bytes} {i : Nat} {bs out : Bytes} (h : poke a i bs = some out) :
    i + bs.length ≤ a.length ∧ out = a.take i ++ bs ++ a.drop (i + bs.length) := by
  rw [poke] at h
  split at h
  · exact ⟨‹_›, (Option.some.inj h).symm⟩
  · exact absurd h nofun

theorem poke_length {a : Bytes} {i : Nat} {bs out : Bytes} (h : poke a i bs = some out) :
    out.length = a.length := by
  obtain ⟨hle, rfl⟩ := poke_some h
  simp only [List.length_append, List.length_take, List.length_drop]
  omega

theorem poke_take {a bs out : Bytes} {i : Nat} (h : poke a i bs = some out) : out.take (i + bs.length) = a.take i ++ bs := by
  obtain ⟨hfit, rfl⟩ := poke_some h
  have hfirst : (a.take i ++ bs).length = i + bs.length := by simp; omega
  exact List.take_left' hfirst

/-- What is there already is written again. -/
theorem poke_same {a bs : Bytes} {i : Nat} (hi : i ≤ a.length) (h : bs <+: a.drop i) : poke a i bs = some a := by
  obtain ⟨rest, hrest⟩ := h
  have hlen := congrArg List.length hrest
  rw [List.length_append, List.length_drop] at hlen
  have hdrop : a.drop (i + bs.length) = rest := by
    rw [← List.drop_drop, ← hrest, List.drop_left]
  rw [poke, if_pos (by omega), hdrop, List.append_assoc, hrest, List.take_append_drop]

theorem poke_append {a b c x y : Bytes} {i : Nat} (hx : poke a i x = some b) (hy : poke b (i + x.length) y = some c) :
    poke a i (x ++ y) = some c := by
  obtain ⟨_, rfl⟩ := poke_some hx
  have hfirst : (a.take i ++ x).length = i + x.length := by simp; omega
  obtain ⟨hfit, rfl⟩ := poke_some hy
  rw [List.length_append, hfirst, List.length_drop] at hfit
  have hdrop : (a.take i ++ x ++ a.drop (i + x.length)).drop (i + x.length + y.length) = a.drop (i + (x ++ y).length) := by
    rw [← List.drop_drop, List.drop_left' hfirst, List.drop_drop, List.length_append, Nat.add_assoc]
  rw [poke_eq_some (by rw [List.length_append]; omega), List.take_left' hfirst, hdrop, ← List.append_assoc (a.take i)]

/-- The C string at the start of an array. -/
def cString (a : Bytes) : Bytes := a.takeWhile (· != 0)

/-- What `printf` makes of a `%s`. -/
def formatted : Option Bytes → Bytes
  | some s => s
  | none => bytes "(null)"

/-- `memccpy`: the bytes copied, and whether `c` was among them. -/
def memccpy (src : Bytes) (c : UInt8) (n : Nat) : Bytes × Bool :=
  if c ∈ src.take n then ((src.take n).takeWhile (· != c) ++ [c], true) else (src.take n, false)

/-- `strncmp(a, b, n) == 0`. -/
def strncmpEq : Nat → Bytes → Bytes → Bool
  | 0, _, _ => true
  | n + 1, x :: a, y :: b => x == y && (x == 0 || strncmpEq n a b)
  | _ + 1, _, _ => false

/-- `strncpy(_, a, n)`. -/
def strncpy (a : Bytes) (n : Nat) : Bytes :=
  let s := (a.take n).takeWhile (· != 0)
  s ++ List.replicate (n - s.length) 0

/-- `%u` of `sscanf`: the number, and the text after it. -/
def scanUnsigned (s : Bytes) : Option (Nat × Bytes) :=
  let s := s.dropWhile isSpace
  let (negative, s) := match s with
    | 45 :: t => (true, t)
    | 43 :: t => (false, t)
    | t => (false, t)
  let ds := digits 10 s
  if ds = [] then none
  else
    let v := min (ofDigits 10 ds) (2 ^ 32 - 1)
    some (if negative then sizeT (-v) else v, s.drop ds.length)

/-- `n` times `%u`, with a comma before all but the first: the numbers found. -/
def scanList : Nat → Bytes → List Nat
  | 0, _ => []
  | n + 1, s =>
    match scanUnsigned s with
    | none => []
    | some (v, 44 :: t) => v :: scanList n t
    | some (v, _) => [v]

/-! ## The state -/

/-- `FTPLIB_BUFSIZ`. -/
def ftplibBufsiz : Nat := 512

/-- `FTPLIB_RESPONSE_BUFSIZ`. -/
def ftplibResponseBufsiz : Nat := 512

inductive FTPDir where
  | control
  | read
  | write
  deriving DecidableEq, Repr

/-- `cput` and `cget` are indices into `buf`. -/
structure FTPClientBase extends TCPClient where
  cput : Nat := 0
  cget : Nat := 0
  cavail : Nat := 0
  cleft : Nat := 0
  dir : FTPDir := .control
  buf : Bytes := List.replicate 512 0
  response : Bytes := List.replicate 512 0
  deriving DecidableEq, Repr

inductive FTPTransferMode where
  | text
  | binary
  deriving DecidableEq, Repr

inductive FTPType where
  | dir
  | dirVerbose
  | fileRead
  | fileWrite
  deriving DecidableEq, Repr

/-- What happens in a transfer that decides how it went. -/
inductive FTPEvent where
  | dataConn (rc : Int)
  | answered (ok : Int) (dataFd : Int)
  | fileRead (got : Option Bytes)
  | dataWrite (bs : Bytes) (c : Int)
  | dataRead (l : Int) (got : Bytes)
  | fileWrite (bs : Bytes) (n : Nat)
  | final (ok : Int)
  deriving DecidableEq, Repr

structure FTPClient extends FTPClientBase where
  m_fs_cb : Bool := false
  nData : FTPClientBase := {}
  hist : List FTPEvent := []
  deriving DecidableEq, Repr

/-- The application's callbacks. `read` gives `none` for a value that is
negative as an `int`. -/
structure FTPClientDataCallback (σ : Type) where
  openFile : Bytes → Bytes → σ → σ
  read : Nat → σ → Option Bytes × σ
  write : Bytes → σ → Nat × σ
  close : σ → σ

open Live

variable {σ : Type} (p : Platform σ) (fs : FTPClientDataCallback σ)

/-! ## Lines and replies -/

namespace FTPClientBase

/-- An operation of the `TCPClient`. -/
def tcp {α : Type} (x : Prog (Live σ TCPClient) α) : Prog (Live σ FTPClientBase) α :=
  Prog.zoom (fun s => ⟨s.self.toTCPClient, s.env⟩) (fun t s => ⟨{ s.self with toTCPClient := t.self }, t.env⟩) x

/-- The locals of `readLine`: `out` is the caller's buffer, `bp` is its index
`retval`. -/
structure LineState where
  out : Bytes
  max : Nat
  retval : Nat := 0
  eof : Bool := false
  deriving DecidableEq, Repr

/-- The count `x` that `readLine` copies at most; a count of -1 is a very large
`size_t`, and out of bounds. -/
def lineCount (c : FTPClientBase) (max : Nat) : Option Nat :=
  let x : Int := if max ≥ c.cavail then c.cavail else (max : Int) - 1
  if x < 0 ∨ c.cget + x > c.buf.length then none else some x.toNat

/-- A complete line of `retval` bytes: CRLF becomes LF. -/
def endLine (out : Bytes) (retval : Nat) : Option (Bytes × Nat) :=
  if retval < 2 then none
  else if (out.drop (retval - 2)).take 3 = [13, 10, 0] then
    (poke out (retval - 2) [10, 0]).map fun out => (out, retval - 1)
  else some (out, retval)

/-- The branch `cavail > 0` of `readLine`; `true` with a complete line. -/
def takeLine (c : FTPClientBase) (l : LineState) : Option (FTPClientBase × LineState × Bool) := do
  let x ← lineCount c l.max
  let (bs, found) := memccpy (c.buf.drop c.cget) 10 x
  let out ← poke l.out l.retval (bs ++ [0])
  let retval := l.retval + bs.length
  let c := { c with cget := c.cget + bs.length, cavail := c.cavail - bs.length }
  let l := { l with out := out, retval := retval, max := l.max - bs.length }
  if found then
    let (out, retval) ← endLine out retval
    return (c, { l with out := out, retval := retval }, true)
  return (c, l, false)

/-- What `read` gave, put behind what is there, and a NUL at `cavail`. -/
def stored (c : FTPClientBase) (got : Bytes) : Option FTPClientBase := do
  let buf ← poke c.buf c.cput got
  let cavail := c.cavail + got.length
  let buf ← poke buf cavail [0]
  return { c with buf := buf, cavail := cavail, cput := c.cput + got.length, cleft := c.cleft - got.length }

/-- The end of a turn of `readLine`: a read into the buffer. -/
def refill (l : LineState) : Prog (Live σ FTPClientBase) (Turn LineState (Int × Bytes)) := do
  let (x, got) ← tcp (TCPClient.readBuf p.lwip (← obj).cleft)
  if x = -1 then
    return .exit (-1, l.out)
  match stored (← obj) got with
  | none => Prog.undefined
  | some c =>
    set fun _ => c
    return .next { l with eof := decide (x = 0) }

/-- One turn of `readLine`, after the branch `cavail > 0`. -/
def fill (l : LineState) : Prog (Live σ FTPClientBase) (Turn LineState (Int × Bytes)) := do
  if l.max = 1 then
    match poke l.out 0 [0] with
    | none => Prog.undefined
    | some out => return .exit (l.retval, out)
  else
    if (← obj).cput = (← obj).cget then
      set fun c => { c with cput := 0, cget := 0, cavail := 0, cleft := ftplibBufsiz }
    if l.eof then
      return .exit (if l.retval = 0 then -1 else l.retval, l.out)
    refill p l

def readLineTurn (l : LineState) : Prog (Live σ FTPClientBase) (Turn LineState (Int × Bytes)) := do
  let c ← obj
  if c.cavail > 0 then
    match takeLine c l with
    | none => Prog.undefined
    | some (c, l, done) =>
      set fun _ => c
      if done then
        return .exit (l.retval, l.out)
      fill p l
  else
    fill p l

/-- `readLine(buf, max)`: the value returned, and what `buf` holds then. -/
def readLine (out : Bytes) (max : Nat) : Prog (Live σ FTPClientBase) (Int × Bytes) := do
  if (← obj).dir = .write then
    return (-1, out)
  if max = 0 then
    return (0, out)
  Prog.loop (readLineTurn p) { out := out, max := max }

/-- `nbp[nb++] = b`. -/
def putByte (nb : Nat) (b : UInt8) : Prog (Live σ FTPClientBase) Nat := do
  match poke (← obj).buf nb [b] with
  | none => Prog.undefined
  | some buf =>
    set fun c => { c with buf := buf }
    return nb + 1

/-- `write` of the first `nb` bytes of `buf`; `false` unless it takes them all. -/
def sendBlock (nb : Nat) : Prog (Live σ FTPClientBase) Bool := do
  let w ← tcp (TCPClient.write p.lwip ((← obj).buf.take nb))
  return decide (int32 w = nb)

/-- A block that is full is sent: `nb` then, or `none`. -/
def flushFull (nb : Nat) : Prog (Live σ FTPClientBase) (Option Nat) := do
  if nb = ftplibBufsiz then
    return if ← sendBlock p nb then some 0 else none
  else return some nb

/-- A CR goes before a LF that has none. -/
def putCr (nb : Nat) (lc b : UInt8) : Prog (Live σ FTPClientBase) (Option Nat) := do
  if b = 10 ∧ lc ≠ 13 then
    match ← flushFull p nb with
    | none => return none
    | some nb => return some (← putByte nb 13)
  else return some nb

/-- The loop of `writeLine`: `nb` behind the text, or `none`. -/
def writeText : Bytes → Nat → UInt8 → Prog (Live σ FTPClientBase) (Option Nat)
  | [], nb, _ => return some nb
  | b :: ubp, nb, lc => do
    match ← putCr p nb lc b with
    | none => return none
    | some nb =>
      match ← flushFull p nb with
      | none => return none
      | some nb => writeText ubp (← putByte nb b) b

/-- `writeLine(buf, len)`, with the text it is given. -/
def writeLine (buf : Bytes) : Prog (Live σ FTPClientBase) Int := do
  if (← obj).dir ≠ .write then
    return -1
  match ← writeText p buf 0 0 with
  | none => return -1
  | some nb =>
    if nb = 0 then
      return buf.length
    return if ← sendBlock p nb then buf.length else -1

/-- `readLine` into `response`. -/
def readLineResponse : Prog (Live σ FTPClientBase) Int := do
  let (r, out) ← readLine p (← obj).response ftplibResponseBufsiz
  set fun c => { c with response := out }
  return r

/-- The lines of a reply up to the one that starts with `code`; `false` when
they do not come. -/
def readRest (code : Bytes) : Prog (Live σ FTPClientBase) Bool :=
  Prog.loop (fun _ => do
    if (← readLineResponse p) = -1 then
      return .exit false
    if strncmpEq 4 (← obj).response code then
      return .exit true
    return .next ()) ()

def readResp (c : UInt8) : Prog (Live σ FTPClientBase) Int := do
  if (← readLineResponse p) = -1 then
    return 0
  if (← obj).response.getD 3 0 = 45 then
    if ¬ (← readRest p (strncpy (← obj).response 3 ++ [32])) then
      return 0
  return if (← obj).response.getD 0 0 = c then 1 else 0

/-- `printf`, of a text that is already formatted. -/
def printf (text : Bytes) : Prog (Live σ FTPClientBase) Unit := do
  let _ ← tcp (TCPClient.write p.lwip text)
  return ()

end FTPClientBase

/-! ## Commands -/

namespace FTPClient

/-- An operation of the control connection. -/
def ctrl {α : Type} (x : Prog (Live σ FTPClientBase) α) : Prog (Live σ FTPClient) α :=
  Prog.zoom (fun s => ⟨s.self.toFTPClientBase, s.env⟩) (fun t s => ⟨{ s.self with toFTPClientBase := t.self }, t.env⟩) x

/-- An operation of the data connection's socket. -/
def data {α : Type} (x : Prog (Live σ TCPClient) α) : Prog (Live σ FTPClient) α :=
  Prog.zoom (fun s => ⟨s.self.nData.toTCPClient, s.env⟩)
    (fun t s => ⟨{ s.self with nData := { s.self.nData with toTCPClient := t.self } }, t.env⟩) x

def record (e : FTPEvent) : Prog (Live σ FTPClient) Unit := set fun c => { c with hist := c.hist ++ [e] }

/-- A line of a command. -/
def commandLine (verb : String) (arg : Option Bytes) : Bytes := bytes verb ++ formatted arg ++ bytes "\r\n"

/-- Send a command and read its reply. -/
def exchange (line : Bytes) (c : UInt8) : Prog (Live σ FTPClient) Int := do
  ctrl (FTPClientBase.printf p line)
  ctrl (FTPClientBase.readResp p c)

def connectHost (host : Bytes) : Prog (Live σ FTPClient) Bool := do
  let lhost := host.takeWhile (· != 58)
  let pnum := if 58 ∈ host then host.drop (lhost.length + 1) else bytes "21"
  if ¬ isDigit 10 (pnum.headD 0) then
    return false
  let port := sizeT (strtol 10 pnum) % 2 ^ 16
  if (← ctrl (FTPClientBase.tcp (TCPClient.connect p.lwip lhost port 5000))) = -1 then
    return false
  set fun c => { c with dir := .control, nData := {} }
  if (← ctrl (FTPClientBase.readResp p 50)) = 0 then
    ctrl (FTPClientBase.tcp (TCPClient.stop p.lwip))
    return false
  return true

def login (user password : Option Bytes) : Prog (Live σ FTPClient) Int := do
  if (← exchange p (commandLine "USER " user) 51) = 0 then
    return if (← obj).response.getD 0 0 = 50 then 1 else 0
  exchange p (commandLine "PASS " password) 50

def cd (directory : Option Bytes) : Prog (Live σ FTPClient) Int := exchange p (commandLine "CWD " directory) 50

def cdup : Prog (Live σ FTPClient) Int := exchange p (bytes "CDUP\r\n") 50

def mkdir (directory : Option Bytes) : Prog (Live σ FTPClient) Int := exchange p (commandLine "MKD " directory) 50

def rmdir (directory : Option Bytes) : Prog (Live σ FTPClient) Int := exchange p (commandLine "RMD " directory) 50

def rename (oldName newName : Option Bytes) : Prog (Live σ FTPClient) Int := do
  if (← exchange p (commandLine "RNFR " oldName) 51) = 0 then
    return 0
  exchange p (commandLine "RNTO " newName) 50

def unlink (filename : Option Bytes) : Prog (Live σ FTPClient) Int := exchange p (commandLine "DELE " filename) 50

def modeChar : FTPTransferMode → Bytes
  | .text => bytes "A"
  | .binary => bytes "I"

/-- `size`: the number after the code, if the reply has one. -/
def size (path : Option Bytes) (mode : FTPTransferMode) : Prog (Live σ FTPClient) Nat := do
  if (← exchange p (commandLine "TYPE " (some (modeChar mode))) 50) = 0 then
    return 0
  if (← exchange p (commandLine "SIZE " path) 50) = 0 then
    return 0
  match scanUnsigned (cString (← obj).response) with
  | none => return 0
  | some (_, rest) =>
    match scanUnsigned rest with
    | none => return 0
    | some (sz, _) => return sz

/-- `modDate`: a failure makes a `std::string` of a null pointer. -/
def modDate (path : Option Bytes) : Prog (Live σ FTPClient) Bytes := do
  if (← exchange p (commandLine "MDTM " path) 50) = 0 then
    Prog.undefined
  else
    return cString ((← obj).response.drop 4)

def site (command : Option Bytes) : Prog (Live σ FTPClient) Int := exchange p (commandLine "SITE " command) 50

/-- Where a scan of `response` for the end of a word stops; a backslash takes the
next byte with it. -/
def wordEnd (stop : UInt8) (a : Bytes) : Nat → Nat → Nat
  | 0, s => s
  | fuel + 1, s =>
    if s < ftplibResponseBufsiz - 1 ∧ a.getD s 0 ≠ 0 ∧ a.getD s 0 ≠ stop then
      wordEnd stop a fuel (if a.getD s 0 = 92 then s + 2 else s + 1)
    else s

theorem le_wordEnd (stop : UInt8) (a : Bytes) (fuel s : Nat) : s ≤ wordEnd stop a fuel s := by
  induction fuel generalizing s with
  | zero => exact Nat.le_refl s
  | succ fuel ih =>
    rw [wordEnd]
    split
    · split
      · exact Nat.le_trans (Nat.le_add_right s 2) (ih _)
      · exact Nat.le_trans (Nat.le_add_right s 1) (ih _)
    · exact Nat.le_refl s

/-- The word of `response` that begins at `start`, which is ended there. -/
def responseWord (start : Nat) (stop : UInt8) : Prog (Live σ FTPClient) Bytes := do
  let c ← obj
  match poke c.response (wordEnd stop c.response ftplibResponseBufsiz start) [0] with
  | none => Prog.undefined
  | some response =>
    set fun c => { c with response := response }
    return cString (response.drop start)

/-- `getSystemType`: a failure makes a `std::string` of a null pointer. -/
def getSystemType : Prog (Live σ FTPClient) Bytes := do
  if (← exchange p (bytes "SYST\r\n") 50) = 0 then
    Prog.undefined
  else
    responseWord 4 32

/-- `getDirectory`: a failure makes a `std::string` of a null pointer. -/
def getDirectory : Prog (Live σ FTPClient) Bytes := do
  if (← exchange p (bytes "PWD\r\n") 50) = 0 then
    Prog.undefined
  else
    let response := cString (← obj).response
    if 34 ∉ response then
      Prog.undefined
    else
      responseWord (response.takeWhile (· != 34)).length.succ 34

/-! ## Transfers -/

/-- Where the reply to `PASV` says to connect to: the bytes of the address, and
the port. -/
def pasvAddr : List Nat → Option (Nat × Nat)
  | [v2, v3, v4, v5, v0, v1] =>
    some (v2 % 256 + 256 * (v3 % 256) + 256 ^ 2 * (v4 % 256) + 256 ^ 3 * (v5 % 256), (256 * v0 + v1) % 2 ^ 16)
  | _ => none

/-- `openDataConn`: `PASV`, and a connection to where the reply says. The
result of the connection is not looked at. -/
def openDataConn (dir : FTPDir) : Prog (Live σ FTPClient) Int := do
  if (← obj).dir ≠ .control then
    return -1
  if (← exchange p (bytes "PASV\r\n") 50) = 0 then
    return -1
  let response := cString (← obj).response
  if 40 ∉ response then
    return -1
  match pasvAddr (scanList 6 (response.drop (response.takeWhile (· != 40)).length.succ)) with
  | none => Prog.undefined
  | some (ip, port) =>
    let rc ← data (TCPClient.connectV4 p.lwip ip port 5000)
    record (.dataConn rc)
    set fun c => { c with nData := { c.nData with dir := dir } }
    return 1

def verb : FTPType → Bytes
  | .dir => bytes "NLST "
  | .dirVerbose => bytes "LIST "
  | .fileRead => bytes "RETR "
  | .fileWrite => bytes "STOR "

/-- `sprintf` into `response`. -/
def setResponse (text : Bytes) : Prog (Live σ FTPClient) Unit := do
  match poke (← obj).response 0 (text ++ [0]) with
  | none => Prog.undefined
  | some response => set fun c => { c with response := response }

/-- The constructor of `FTPClientData`. It has no way to say that it failed. -/
def openTransfer (path : Option Bytes) (typ : FTPType) (mode : FTPTransferMode) : Prog (Live σ FTPClient) Unit := do
  set fun c => { c with nData := {} }
  if path = none ∧ (typ = .fileWrite ∨ typ = .fileRead) then
    setResponse (bytes "Missing path argument for file transfer\n")
    return ()
  if (← exchange p (commandLine "TYPE " (some (modeChar mode))) 50) = 0 then
    return ()
  if (← openDataConn p (if typ = .fileWrite then .write else .read)) = -1 then
    return ()
  ctrl (FTPClientBase.printf p (verb typ))
  let ok ← exchange p (formatted path ++ bytes "\r\n") 49
  record (.answered ok (← obj).nData.socketFd)
  if ok = 0 then
    data (TCPClient.stop p.lwip)

/-- The loop of an upload: `rv`. -/
def upload : Prog (Live σ FTPClient) Int :=
  Prog.loop (fun _ => do
    let l ← call (fs.read ftplibBufsiz)
    record (.fileRead l)
    let dbuf := l.getD []
    if dbuf = [] then
      return .exit 1
    else if dbuf.length > ftplibBufsiz then
      Prog.undefined
    else
      let c := int32 (← data (TCPClient.write p.lwip dbuf))
      record (.dataWrite dbuf c)
      if c < dbuf.length then
        return .exit 0
      return .next ()) ()

/-- The loop of a download: `rv`. -/
def download : Prog (Live σ FTPClient) Int :=
  Prog.loop (fun _ => do
    let (l, dbuf) ← data (TCPClient.readBuf p.lwip ftplibBufsiz)
    record (.dataRead l dbuf)
    if l > 0 then
      let n ← call (fs.write dbuf)
      record (.fileWrite dbuf n)
      if n = 0 then
        return .exit 0
      return .next ()
    else
      return .exit 1) ()

/-- The end of `xfer`: the final reply is read if there is a data connection. -/
def closeTransfer : Prog (Live σ FTPClient) Unit := do
  tell fs.close
  if (← obj).nData.socketFd ≥ 0 then
    data (TCPClient.stop p.lwip)
    let ok ← ctrl (FTPClientBase.readResp p 50)
    record (.final ok)
  data (TCPClient.destroy p.lwip)

def openMode (typ : FTPType) (mode : FTPTransferMode) : Bytes :=
  (if typ = .fileWrite then bytes "r" else bytes "w") ++ (if mode = .binary then bytes "b" else [])

/-- The body of `xfer`, once the local file is open. -/
def transfer (path : Option Bytes) (typ : FTPType) (mode : FTPTransferMode) : Prog (Live σ FTPClient) Int := do
  openTransfer p path typ mode
  if ¬ (← call (p.malloc ftplibBufsiz)) ∨ ¬ (← obj).m_fs_cb then
    Prog.undefined
  else
    let rv ← if typ = .fileWrite then upload p fs else download p fs
    closeTransfer p fs
    return rv

def xfer (localfile path : Option Bytes) (typ : FTPType) (mode : FTPTransferMode) : Prog (Live σ FTPClient) Int := do
  match localfile with
  | some file =>
    if ¬ (← obj).m_fs_cb then
      return 0
    tell (fs.openFile file (openMode typ mode))
    transfer p fs path typ mode
  | none => transfer p fs path typ mode

def getList (filename path : Option Bytes) : Prog (Live σ FTPClient) Int := xfer p fs filename path .dir .text

def getFullList (filename path : Option Bytes) : Prog (Live σ FTPClient) Int :=
  xfer p fs filename path .dirVerbose .text

def get (localfile remote : Option Bytes) (mode : FTPTransferMode) : Prog (Live σ FTPClient) Int :=
  xfer p fs localfile remote .fileRead mode

def put (localfile remote : Option Bytes) (mode : FTPTransferMode) : Prog (Live σ FTPClient) Int :=
  xfer p fs localfile remote .fileWrite mode

end FTPClient

end FEmbed
