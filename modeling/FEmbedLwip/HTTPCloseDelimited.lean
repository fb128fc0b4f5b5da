/-
A response that ends where its connection does, over a plain `TCPClient`.

The copy loop of a body without a length is left when the client is no longer
connected. A `TCPClient` clears its flag where `lwip_ioctl` stores a negative
number or `lwip_select` fails, and the loop does not read what is not there:
with a stack that counts the unread bytes, also after the peer has closed, the
flag stays (`Up`), and the loop is left through a failed write alone
(`blockTurn_goes`). So no such body is reported as read (`writeToStream_neg`).
-/
import FEmbedLwip.HTTPPaths
import FEmbedLwip.HTTPBody
import FEmbedLwip.HTTPRuns
import FEmbedLwip.TCPClientFacts

namespace FEmbed

open Live
open Prog (Guarantee Guarantees)

variable {σ : Type}

/-! ## A `TCPClient` behind the pointer -/

/-- What an `HTTPClient` with a `TCPClient` uses of the Arduino core and of the
platform. The two functions of `Stream` are given the `read()` they call. -/
structure ArduinoCore (σ : Type) where
  setTimeout : Nat → σ → σ
  readBytes : Prog (Live σ TCPClient) Int → Nat → Prog (Live σ TCPClient) Bytes
  readStringUntil : Prog (Live σ TCPClient) Int → UInt8 → Prog (Live σ TCPClient) Bytes
  malloc : Nat → σ → Option Bytes × σ
  millis : σ → Nat × σ
  delay : Nat → σ → σ
  base64Encode : Bytes → Bytes

namespace TCPClient

variable (net : Lwip σ) (charSigned : Bool) (core : ArduinoCore σ)

/-- An object of its own, as the traits of `http` create it. The setters of
certificates are those of `TCPClientSecure`, and are not called on it. -/
def connection : Connection (Live σ TCPClient) where
  create _ := do
    set fun _ => {}
    return 0
  release _ := destroy net
  setCACert _ _ := Prog.undefined
  setCertificate _ _ := Prog.undefined
  setPrivateKey _ _ := Prog.undefined
  connect _ host port timeout := connect net host port timeout
  setTimeout _ timeout := tell (core.setTimeout timeout)
  write _ buf := write net buf
  getWriteError _ := pure 0
  clearWriteError _ := pure ()
  available _ := available net
  read _ := read net charSigned
  readBytes _ := core.readBytes (read net charSigned)
  readStringUntil _ := core.readStringUntil (read net charSigned)
  connected _ := connected net
  stop _ := stop net
  malloc n := call (core.malloc n)
  millis := call core.millis
  delay n := tell (core.delay n)
  base64Encode := core.base64Encode

end TCPClient

/-! ## The flag stays -/

/-- The socket `fd`, as long as it is `live`: the stack counts the bytes that it
has not handed out, and a wait for it ends with bytes or with the end of the
stream. No call but `lwip_close` and `lwip_shutdown` ends it. -/
structure CountedSocket (net : Lwip σ) (fd : Int) (live : σ → Prop) (unread : σ → Bytes) : Prop where
  opened : 0 ≤ fd
  ioctl : ∀ e, live e → (net.ioctl fd e).1 = some ((unread e).length : Int) ∧ live (net.ioctl fd e).2
  select : ∀ e, live e → 0 < (net.select fd e).1 ∧ live (net.select fd e).2
  setsockopt : ∀ opt e, live e → live (net.setsockopt fd opt e).2
  recv : ∀ n e, live e → live (net.recv fd n e).2

/-- The core closes no socket, and its `Stream` does what it does by `read()`. -/
structure ArduinoCore.Leaves (core : ArduinoCore σ) (live : σ → Prop) : Prop where
  readBytes : ∀ (G : Guarantee (Live σ TCPClient)), (∀ s e, (live s.env → live e) → G.rel s ⟨s.self, e⟩) →
    ∀ read n, read.Guarantees G → (core.readBytes read n).Guarantees G
  readStringUntil : ∀ (G : Guarantee (Live σ TCPClient)), (∀ s e, (live s.env → live e) → G.rel s ⟨s.self, e⟩) →
    ∀ read c, read.Guarantees G → (core.readStringUntil read c).Guarantees G
  malloc : ∀ n e, live e → live (core.malloc n e).2
  millis : ∀ e, live e → live (core.millis e).2
  delay : ∀ n e, live e → live (core.delay n e)

namespace TCPClient

variable {net : Lwip σ} {charSigned : Bool} {core : ArduinoCore σ} {fd : Int} {live : σ → Prop} {unread : σ → Bytes}

/-- Connected, with the socket `fd`, as `connect` leaves it (`connect_up`). -/
structure Up (fd : Int) (live : σ → Prop) (s : Live σ TCPClient) : Prop where
  socketFd : s.self.socketFd = fd
  connected : s.self._connected = true
  live : live s.env

/-- A client that is up stays so. -/
def stays (fd : Int) (live : σ → Prop) : Guarantee (Live σ TCPClient) where
  rel s s' := Up fd live s → Up fd live s'
  refl _ := id
  trans h h' := fun hup => h' (h hup)

/-- What goes on without it. -/
def elsewhere (live : σ → Prop) : Guarantee (Live σ TCPClient) where
  rel s s' := s'.self = s.self ∧ (live s.env → live s'.env)
  refl _ := ⟨rfl, id⟩
  trans h h' := ⟨h'.1.trans h.1, fun hlive => h'.2 (h.2 hlive)⟩

theorem Up.out {s : Live σ TCPClient} {e : σ} (hup : Up fd live s) (h : live s.env → live e) : Up fd live ⟨s.self, e⟩ :=
  ⟨hup.socketFd, hup.connected, h hup.live⟩

variable (S : CountedSocket net fd live unread)

include S

theorem available_up {s : Live σ TCPClient} (hup : Up fd live s) :
    (available net).Returns s (unread s.env).length ⟨s.self, (net.ioctl fd s.env).2⟩ := by
  have hfd : s.self.socketFd ≥ 0 := hup.socketFd ▸ S.opened
  have hrc : (net.ioctl s.self.socketFd s.env).1.getD 0 = (unread s.env).length := by
    rw [hup.socketFd, (S.ioctl _ hup.live).1, Option.getD_some]
  refine available_returns.mpr (.inr (.inl ⟨hfd, ?_, hrc.symm, by rw [hup.socketFd]⟩))
  rw [hrc]
  omega

theorem connected_up {s : Live σ TCPClient} (hup : Up fd live s) :
    (connected net).Returns s true ⟨s.self, (net.ioctl fd s.env).2⟩ := by
  have hfd : ¬ s.self.socketFd < 0 := Int.not_lt.mpr (hup.socketFd ▸ S.opened)
  rw [connected, returns_obj_bind, if_neg hfd, Prog.returns_bind_of (available_up S hup), returns_obj_bind]
  exact Prog.returns_pure.mpr ⟨hup.connected.symm, rfl⟩

theorem read_stays : (read net charSigned).Guarantees (stays fd live) := by
  intro s r s' h hup
  have hsel := S.select s.env hup.live
  have hrecv : live s.env → live (recvAt net 1 s).2 := by
    intro _
    rw [recvAt, atRecv, hup.socketFd]
    exact S.recv _ _ (S.setsockopt _ _ hsel.2)
  rcases read_returns.mp h with ⟨_, _, rfl⟩ | ⟨_, _, _, _, rfl⟩ | ⟨_, _, _, _, rfl⟩ | ⟨_, hno, _, _⟩
  · exact hup
  · exact hup.out hrecv
  · exact hup.out hrecv
  · rw [hup.socketFd] at hno
    exact absurd hsel.1 hno

theorem available_stays : (available net).Guarantees (stays fd live) := by
  intro s a s' h hup
  obtain ⟨rfl, rfl⟩ := Prog.Returns.det h (available_up S hup)
  exact hup.out fun h => (S.ioctl _ h).2

theorem readBytes_stays (L : core.Leaves live) {n : Nat} : (core.readBytes (read net charSigned) n).Guarantees (stays fd live) :=
  L.readBytes _ (fun _ _ h hup => hup.out h) _ _ (read_stays S)

theorem readStringUntil_stays (L : core.Leaves live) {c : UInt8} :
    (core.readStringUntil (read net charSigned) c).Guarantees (stays fd live) :=
  L.readStringUntil _ (fun _ _ h hup => hup.out h) _ _ (read_stays S)

end TCPClient

/-! ## The copy loop -/

/-- A stream of the application that is not the client. -/
structure Apart (stream : AppStream (Live σ TCPClient)) (live : σ → Prop) : Prop where
  write : ∀ bs, (stream.write bs).Guarantees (TCPClient.elsewhere live)
  getWriteError : stream.getWriteError.Guarantees (TCPClient.elsewhere live)
  clearWriteError : stream.clearWriteError.Guarantees (TCPClient.elsewhere live)

namespace HTTPClient

variable {net : Lwip σ} {charSigned : Bool} {core : ArduinoCore σ} {fd : Int} {live : σ → Prop} {unread : σ → Bytes}
  {stream : AppStream (Live σ TCPClient)} {r : Ref} {s s' : Live (Live σ TCPClient) (HTTPClient (Live σ TCPClient))}

/-- The object refers to a client that is up. -/
structure Attached (r : Ref) (fd : Int) (live : σ → Prop) (s : Live (Live σ TCPClient) (HTTPClient (Live σ TCPClient))) : Prop where
  client : s.self._client = some r
  up : TCPClient.Up fd live s.env

/-- It stays attached. -/
def attached (r : Ref) (fd : Int) (live : σ → Prop) : Guarantee (Live (Live σ TCPClient) (HTTPClient (Live σ TCPClient))) where
  rel s s' := Attached r fd live s → Attached r fd live s'
  refl _ := id
  trans h h' := fun hat => h' (h hat)

theorem outside_attached {α : Type} {x : Prog (Live σ TCPClient) α} (h : x.Guarantees (TCPClient.stays fd live)) :
    (outside x).Guarantees (attached r fd live) :=
  .zoom h fun _ _ hup hat => ⟨hat.client, hup hat.up⟩

theorem outside_elsewhere {α : Type} {x : Prog (Live σ TCPClient) α} (h : x.Guarantees (TCPClient.elsewhere live)) :
    (outside x).Guarantees (attached r fd live) := by
  refine outside_attached fun t a t' ht hup => ?_
  obtain ⟨hself, hlive⟩ := h t a t' ht
  exact ⟨hself ▸ hup.socketFd, hself ▸ hup.connected, hlive hup.live⟩

theorem onClient_attached {α : Type} {f : Ref → Prog (Live σ TCPClient) α} (h : (f r).Guarantees (TCPClient.stays fd live)) :
    (onClient f).Guarantees (attached r fd live) := by
  intro t a t' ht hat
  obtain ⟨e, he, rfl⟩ := (returns_onClient hat.client).mp ht
  exact ⟨hat.client, h _ _ _ he hat.up⟩

theorem delay_attached (L : core.Leaves live) {n : Nat} :
    (outside ((TCPClient.connection net charSigned core).delay n)).Guarantees (attached r fd live) :=
  outside_elsewhere (guarantees_tell (G := TCPClient.elsewhere live) fun s => ⟨rfl, L.delay n s.env⟩)

theorem millis_attached (L : core.Leaves live) :
    (outside (TCPClient.connection net charSigned core).millis).Guarantees (attached r fd live) :=
  outside_elsewhere (guarantees_call (G := TCPClient.elsewhere live) fun s => ⟨rfl, L.millis s.env⟩)

variable (S : CountedSocket net fd live unread)

include S

theorem available_attached (hat : Attached r fd live s) :
    (onClient (TCPClient.connection net charSigned core).available).Returns s (unread s.env.env).length
      ⟨s.self, s.env.self, (net.ioctl fd s.env.env).2⟩ :=
  (returns_onClient hat.client).mpr ⟨_, TCPClient.available_up S hat.up, rfl⟩

theorem Attached.asked (hat : Attached r fd live s) : Attached r fd live ⟨s.self, s.env.self, (net.ioctl fd s.env.env).2⟩ :=
  ⟨hat.client, hat.up.out fun h => (S.ioctl _ h).2⟩

theorem connected_attached {b : Bool} (hat : Attached r fd live s)
    (h : (connected (TCPClient.connection net charSigned core)).Returns s b s') : b = true ∧ Attached r fd live s' := by
  rw [connected, returns_obj_bind] at h
  simp only [hat.client] at h
  have hav : (outside ((TCPClient.connection net charSigned core).available r)).Returns s (unread s.env.env).length
      ⟨s.self, s.env.self, (net.ioctl fd s.env.env).2⟩ := returns_outside.mpr ⟨_, TCPClient.available_up S hat.up, rfl⟩
  have hasked := hat.asked S
  rw [Prog.returns_bind_of hav, Prog.returns_ite] at h
  rcases h with ⟨_, h⟩ | ⟨_, h⟩
  · obtain ⟨rfl, rfl⟩ := Prog.returns_pure.mp h
    exact ⟨rfl, hasked⟩
  · obtain ⟨e, he, rfl⟩ := returns_outside.mp h
    obtain ⟨rfl, rfl⟩ := Prog.Returns.det he (TCPClient.connected_up S hasked.up)
    exact ⟨rfl, hasked.asked S⟩

theorem connected_stays :
    (connected (TCPClient.connection net charSigned core)).Guarantees (attached r fd live) :=
  fun _ _ _ h hat => (connected_attached S hat h).2

/-- Where a turn leads: on, with no length still, or out with an error. -/
def Goes (r : Ref) (fd : Int) (live : σ → Prop) (x : Turn CopyState Int)
    (s : Live (Live σ TCPClient) (HTTPClient (Live σ TCPClient))) : Prop :=
  Attached r fd live s ∧ match x with
    | .next l => l.len = -1
    | .exit v => v = errorStreamWrite

variable (L : core.Leaves live)

include L

theorem copyTurn_goes (A : Apart stream live) {l : CopyState} {n : Int} {x} (hl : l.len = -1) (hat : Attached r fd live s)
    (h : (copyTurn (TCPClient.connection net charSigned core) stream l n).Returns s x s') : Goes r fd live x s' := by
  obtain ⟨got, t, hread, h⟩ := Prog.returns_bind.mp h
  have hat := onClient_attached (f := fun r => (TCPClient.connection net charSigned core).readBytes r (sizeT n)) (TCPClient.readBytes_stays S L) _ _ _ hread hat
  split at h
  · exact absurd h Prog.returns_undefined
  rename_i buff _
  obtain ⟨m, u, hpass, h⟩ := Prog.returns_bind.mp h
  have hat := guarantees_passOn (G := attached r fd live) (fun _ => outside_elsewhere (A.write _)) (outside_elsewhere A.getWriteError)
    (outside_elsewhere A.clearWriteError) (fun _ => delay_attached L) _ _ _ hpass hat
  cases m with
  | none =>
    obtain ⟨rfl, rfl⟩ := Prog.returns_pure.mp h
    exact ⟨hat, rfl⟩
  | some k =>
    obtain ⟨_, v, hdelay, h⟩ := Prog.returns_bind.mp h
    obtain ⟨rfl, rfl⟩ := Prog.returns_pure.mp h
    refine ⟨delay_attached L _ _ _ hdelay hat, ?_⟩
    show (if l.len > 0 then l.len - n else l.len) = -1
    rw [if_neg (by omega), hl]

/-- While the client is up the loop is left through a failed write alone: the
client says that it is connected, and what is not there is not read. -/
theorem blockTurn_goes (A : Apart stream live) {l : CopyState} {size : Int} {x} (hl : l.len = -1) (hat : Attached r fd live s)
    (h : (blockTurn (TCPClient.connection net charSigned core) stream size (blockSize size) l).Returns s x s') :
    Goes r fd live x s' := by
  obtain ⟨b, t, hcon, h⟩ := Prog.returns_bind.mp h
  obtain ⟨rfl, hat⟩ := connected_attached S hat hcon
  rw [if_neg (by simp [hl]), Prog.returns_bind_of (available_attached S hat)] at h
  have hat := hat.asked S
  rcases Prog.returns_ite.mp h with ⟨_, h⟩ | ⟨hsome, h⟩
  · obtain ⟨_, u, hdelay, h⟩ := Prog.returns_bind.mp h
    obtain ⟨rfl, rfl⟩ := Prog.returns_pure.mp h
    exact ⟨delay_attached L _ _ _ hdelay hat, hl⟩
  · have hcount : readCount (int32 (sizeT (unread t.env.env).length)) l.len (blockSize size) ≠ 0 := by
      have hsize := blockSize_range size
      have hne := int32_ne_zero hsome (sizeT_lt _)
      simp only [readCount]
      split <;> split <;> omega
    dsimp only at h
    rw [if_neg hcount] at h
    exact copyTurn_goes S L A hl hat h

/-- A body without a length is never reported as copied. -/
theorem writeToStreamDataBlock_neg (A : Apart stream live) {v : Int} (hat : Attached r fd live s)
    (h : (writeToStreamDataBlock (TCPClient.connection net charSigned core) stream (-1)).Returns s v s') : v < 0 := by
  obtain ⟨block, t, hmalloc, h⟩ := Prog.returns_bind.mp h
  have hat := outside_elsewhere (guarantees_call (G := TCPClient.elsewhere live) fun s => ⟨rfl, L.malloc _ s.env⟩) _ _ _ hmalloc hat
  cases block with
  | none =>
    obtain ⟨rfl, _⟩ := Prog.returns_pure.mp h
    decide
  | some buff =>
    refine Prog.Returns.loop_inv (fun l t => l.len = -1 ∧ Attached r fd live t) (fun v _ => v < 0) ?_ h ⟨rfl, hat⟩
    rintro l t x u ⟨hl, hat⟩ hx
    have hgoes := blockTurn_goes S L A hl hat hx
    cases x with
    | next l' => exact ⟨hgoes.2, hgoes.1⟩
    | exit v =>
      have hv : v = errorStreamWrite := hgoes.2
      show v < 0
      rw [hv]
      decide

/-! ## A response without a length -/

theorem headTurn_attached {l : HeadState} :
    (headTurn (TCPClient.connection net charSigned core) l).Guarantees (attached r fd live) := by
  have endOfHead (te : Bytes) : (endOfHead te : Prog (Live (Live σ TCPClient) (HTTPClient (Live σ TCPClient))) Int).Guarantees
      (attached r fd live) := by
    have encoding (t : TransferEncoding) : (set fun c => { c with _transferEncoding := t } :
        Prog (Live (Live σ TCPClient) (HTTPClient (Live σ TCPClient))) Unit).Guarantees (attached r fd live) :=
      guarantees_set fun s hat => ⟨hat.client, hat.up⟩
    refine .ite (.ite (.bind (encoding _) fun _ => ?_) .pure) (.bind (encoding _) fun _ => ?_)
    · exact .bind guarantees_obj fun _ => .pure
    · exact .bind guarantees_obj fun _ => .pure
  have line (te l : Bytes) : (set fun c => (headerLine l te c).1 :
      Prog (Live (Live σ TCPClient) (HTTPClient (Live σ TCPClient))) Unit).Guarantees (attached r fd live) :=
    guarantees_set fun s hat => ⟨(headerLine_client l te s.self).trans hat.client, hat.up⟩
  have available : (onClient (TCPClient.connection net charSigned core).available).Guarantees (attached r fd live) :=
    onClient_attached (TCPClient.available_stays S)
  have readLine : (onClient fun r => (TCPClient.connection net charSigned core).readStringUntil r 10).Guarantees
      (attached r fd live) := onClient_attached (TCPClient.readStringUntil_stays S L)
  refine .bind (connected_stays S) fun _ => .ite .pure (.bind available fun _ => .ite ?_ ?_)
  · refine .bind readLine fun _ => .bind (millis_attached L) fun _ => .bind guarantees_obj fun _ => .bind (line _ _) fun _ => ?_
    exact .ite (.bind (endOfHead _) fun _ => .pure) .pure
  · exact .bind (millis_attached L) fun _ => .bind guarantees_obj fun _ => .ite .pure (.bind (delay_attached L) fun _ => .pure)

/-- The head of a response leaves the client up. -/
theorem handleHeaderResponse_attached :
    (handleHeaderResponse (TCPClient.connection net charSigned core)).Guarantees (attached r fd live) :=
  .bind (connected_stays S) fun _ => .ite .pure (.bind (guarantees_set fun _ hat => ⟨hat.client, hat.up⟩) fun _ =>
    .bind (guarantees_set fun _ hat => ⟨hat.client, hat.up⟩) fun _ => .bind (millis_attached L) fun _ =>
    .loop (fun _ => headTurn_attached S L) _)

/-- `writeToStream` ends with an error, if it ends. -/
theorem writeToStream_neg (A : Apart stream live) {v : Int} (hat : Attached r fd live s) (hsize : s.self._size = -1)
    (hencoding : s.self._transferEncoding = .identity)
    (h : (writeToStream (TCPClient.connection net charSigned core) (some stream)).Returns s v s') : v < 0 := by
  obtain ⟨b, t, hcon, h⟩ := Prog.returns_bind.mp h
  have hself : t.self = s.self := guarantees_connected (G := .same (·.self)) (fun _ _ => rfl) _ _ _ hcon
  obtain ⟨rfl, hat⟩ := connected_attached S hat hcon
  obtain ⟨ret, u, hbody, h⟩ := Prog.returns_bind.mp h
  rw [readBody, returns_obj_bind, hself, hencoding] at hbody
  obtain ⟨k, w, hblock, hret⟩ := Prog.returns_bind.mp hbody
  rw [hsize] at hblock
  have hk : k < 0 := writeToStreamDataBlock_neg S L A hat hblock
  rw [if_pos hk] at hret
  obtain ⟨rfl, rfl⟩ := Prog.returns_pure.mp hret
  rw [(returnError_returns h).1]
  exact hk

end HTTPClient

namespace HTTPClient

/-- `writeToStream` ends, has written exactly `B`, and says so. -/
def ReadWhole (net : Connection (Live σ TCPClient)) (stream : AppStream (Live σ TCPClient)) (accepted : σ → Bytes)
    (s : Live (Live σ TCPClient) (HTTPClient (Live σ TCPClient))) (B : Bytes) : Prop :=
  ∃ s', (writeToStream net (some stream)).Returns s B.length s' ∧ accepted s'.env.env = accepted s.env.env ++ B

/-- **No body that ends with the connection is read.** After the head of a
response without a length and an encoding, on a connected `TCPClient`. -/
theorem not_readWhole {net : Lwip σ} {charSigned : Bool} {core : ArduinoCore σ} {fd : Int} {live : σ → Prop} {unread : σ → Bytes}
    {stream : AppStream (Live σ TCPClient)} {r : Ref} {s t : Live (Live σ TCPClient) (HTTPClient (Live σ TCPClient))} {code : Int}
    (S : CountedSocket net fd live unread) (L : core.Leaves live) (A : Apart stream live) (hat : Attached r fd live s)
    (hhead : (handleHeaderResponse (TCPClient.connection net charSigned core)).Returns s code t)
    (hsize : t.self._size = -1) (hencoding : t.self._transferEncoding = .identity) (accepted : σ → Bytes) (B : Bytes) :
    ¬ ReadWhole (TCPClient.connection net charSigned core) stream accepted t B := by
  rintro ⟨u, h, -⟩
  have hneg := writeToStream_neg S L A (handleHeaderResponse_attached S L _ _ _ hhead hat) hsize hencoding h
  omega

end HTTPClient

/-! ## A peer that sends and closes -/

namespace CloseDemo

/-- What is left of the peer's stream, which ends after it, and what the
stream of the application has taken. -/
structure Host where
  unread : Bytes
  isOpen : Bool := true
  clock : Nat := 0
  accepted : Bytes := []
  deriving DecidableEq

def lwip : Lwip Host where
  inetAddr _ := 0x0100007F
  getaddrinfo _ e := (none, e)
  socket e := (3, e)
  setsockopt _ _ e := (0, e)
  connect _ _ e := (0, e)
  shutdown _ e := e
  close _ e := { e with isOpen := false }
  ioctl _ e := (if e.isOpen then some e.unread.length else none, e)
  select _ e := (if e.isOpen then 1 else -1, e)
  recv _ n e := match e.unread.take n with
    | [] => (.eof, e)
    | b :: bs => (.data b bs, { e with unread := e.unread.drop n })
  write _ bs e := (bs.length, e)
  fcntlNonblock _ e := e

/-- The wait for a byte is over at once. -/
def core : ArduinoCore Host where
  setTimeout _ e := e
  readBytes read length := Prog.loop (fun buffer => do
    if buffer.length ≥ length then
      return .exit buffer
    let c ← read
    if c < 0 then
      return .exit buffer
    return .next (buffer ++ [UInt8.ofNat c.toNat])) []
  readStringUntil read terminator := Prog.loop (fun ret => do
    let c ← read
    if c < 0 ∨ c = terminator.toNat then
      return .exit ret
    return .next (ret ++ [UInt8.ofNat c.toNat])) []
  malloc n e := (some (List.replicate n 0), e)
  millis e := (e.clock % 2 ^ 32, e)
  delay n e := { e with clock := e.clock + n }
  base64Encode bs := bs

def connection : Connection (Live Host TCPClient) := TCPClient.connection lwip false core

def stream : AppStream (Live Host TCPClient) where
  write bs := do
    tell fun e => { e with accepted := e.accepted ++ bs }
    return bs.length
  getWriteError := pure 0
  clearWriteError := pure ()
  available := pure 0
  readBytes _ := pure []

theorem counted : CountedSocket lwip 3 (·.isOpen = true) Host.unread where
  opened := by decide
  ioctl e h := ⟨if_pos h, h⟩
  select e h := by
    refine ⟨?_, h⟩
    rw [show (lwip.select 3 e).1 = if e.isOpen then 1 else -1 from rfl, if_pos h]
    decide
  setsockopt _ _ h := h
  recv n e h := by
    simp only [lwip]
    split <;> exact h

theorem leaves : core.Leaves (·.isOpen = true) where
  readBytes _ _ _ _ hread := .loop (fun _ => .ite .pure (.bind hread fun _ => .ite .pure .pure)) []
  readStringUntil _ _ _ _ hread := .loop (fun _ => .bind hread fun _ => .ite .pure .pure) []
  malloc _ _ h := h
  millis _ h := h
  delay _ _ h := h

theorem apart : Apart stream (·.isOpen = true) where
  write _ := .bind (guarantees_tell fun _ => ⟨rfl, id⟩) fun _ => .pure
  getWriteError := .pure
  clearWriteError := .pure

/-- Connected, with a response whose body is `B` on the way. -/
def asked (B : Bytes) : Live (Live Host TCPClient) (HTTPClient (Live Host TCPClient)) :=
  ⟨{ _client := some 0 }, { socketFd := 3, _connected := true }, { unread := bytes "HTTP/1.1 200 OK\r\n\r\n" ++ B }⟩

/-- The head is read. -/
def answered (B : Bytes) : Live (Live Host TCPClient) (HTTPClient (Live Host TCPClient)) :=
  ⟨{ _client := some 0, _returnCode := 200, _canReuse := true }, { socketFd := 3, _connected := true }, { unread := B }⟩

theorem asked_attached (B : Bytes) : HTTPClient.Attached 0 3 (·.isOpen = true) (asked B) := ⟨rfl, rfl, rfl, rfl⟩

theorem handleHeaderResponse_asked :
    (HTTPClient.handleHeaderResponse connection).Returns (asked (bytes "hi")) 200 (answered (bytes "hi")) :=
  .of_run 100 (by decide +kernel)

/-- Of a body of two bytes. -/
theorem hi_not_readWhole : ¬ HTTPClient.ReadWhole connection stream Host.accepted (answered (bytes "hi")) (bytes "hi") :=
  HTTPClient.not_readWhole counted leaves apart (asked_attached _) handleHeaderResponse_asked rfl rfl Host.accepted _

end CloseDemo

end FEmbed
