/-
What `TCPClient::read()` and `TCPClient::read(buf, n)` hand to their caller,
against the stream the peer sent.

`readBuf_returns` and `read_returns` say what one call can do, outcome by
outcome. A call of `read()` tells the truth exactly when there was no socket,
or a byte was there that an `int` of its `char` shows (`Served`): after an end
of stream, an error of `lwip_recv` or a failed `lwip_select` it returns 0,
which its callers read as a byte. Of `read(buf, n)` the caller knows no more
than the count it returns, so only as many of the bytes stored in `buf` count
as handed out. `readRun_faithful_iff` says this of runs of any length.
-/
import FEmbedLwip.TCPClient

namespace FEmbed.TCPClient

open Live

variable {σ : Type} {net : Lwip σ} {charSigned : Bool}

/-! ## One call -/

/-- The outside when `read` asks `lwip_recv`, after `select` and `setsockopt`. -/
def atRecv (net : Lwip σ) (s : Live σ TCPClient) : σ :=
  (net.setsockopt s.self.socketFd (.rcvTimeo s.self.soTimeout.1 s.self.soTimeout.2)
    (net.select s.self.socketFd s.env).2).2

/-- What `lwip_recv` answers a read of `n` bytes. -/
def recvAt (net : Lwip σ) (n : Nat) (s : Live σ TCPClient) : Recv × σ :=
  net.recv s.self.socketFd n (atRecv net s)

/-- The object after a failed `select`. -/
def dropped (net : Lwip σ) (s : Live σ TCPClient) : Live σ TCPClient :=
  ⟨{ s.self with _connected := false }, (net.select s.self.socketFd s.env).2⟩

theorem readBuf_returns {n : Nat} {s : Live σ TCPClient} {r s'} :
    (readBuf net n).Returns s r s' ↔
      (s.self.socketFd < 0 ∧ r = (-1, []) ∧ s' = s) ∨
      (¬ s.self.socketFd < 0 ∧ (net.select s.self.socketFd s.env).1 > 0 ∧
        r = ((recvAt net n s).1.rc, (recvAt net n s).1.got) ∧ s' = ⟨s.self, (recvAt net n s).2⟩) ∨
      (¬ s.self.socketFd < 0 ∧ ¬ (net.select s.self.socketFd s.env).1 > 0 ∧ r = (-1, []) ∧
        s' = dropped net s) := by
  simp only [readBuf, returns_obj_bind, returns_call_bind, returns_set_bind, Prog.returns_ite,
    Prog.returns_pure, and_or_left, recvAt, atRecv, dropped]

theorem read_returns {s : Live σ TCPClient} {r s'} :
    (read net charSigned).Returns s r s' ↔
      (s.self.socketFd < 0 ∧ r = -1 ∧ s' = s) ∨
      (¬ s.self.socketFd < 0 ∧ (net.select s.self.socketFd s.env).1 > 0 ∧ (recvAt net 1 s).1.rc ≠ 0 ∧
        r = charToInt charSigned ((recvAt net 1 s).1.got.headD 0) ∧ s' = ⟨s.self, (recvAt net 1 s).2⟩) ∨
      (¬ s.self.socketFd < 0 ∧ (net.select s.self.socketFd s.env).1 > 0 ∧ ¬ (recvAt net 1 s).1.rc ≠ 0 ∧
        r = 0 ∧ s' = ⟨s.self, (recvAt net 1 s).2⟩) ∨
      (¬ s.self.socketFd < 0 ∧ ¬ (net.select s.self.socketFd s.env).1 > 0 ∧ r = 0 ∧ s' = dropped net s) := by
  simp only [read, returns_obj_bind, returns_call_bind, returns_set_bind, Prog.returns_ite,
    Prog.returns_pure, and_or_left, or_assoc, recvAt, atRecv, dropped]

theorem available_returns {s : Live σ TCPClient} {r s'} :
    (available net).Returns s r s' ↔
      (s.self.socketFd ≥ 0 ∧ (net.ioctl s.self.socketFd s.env).1.getD 0 < 0 ∧ r = 0 ∧
        s' = ⟨{ s.self with _connected := false }, (net.ioctl s.self.socketFd s.env).2⟩) ∨
      (s.self.socketFd ≥ 0 ∧ ¬ (net.ioctl s.self.socketFd s.env).1.getD 0 < 0 ∧
        r = (net.ioctl s.self.socketFd s.env).1.getD 0 ∧ s' = ⟨s.self, (net.ioctl s.self.socketFd s.env).2⟩) ∨
      (¬ s.self.socketFd ≥ 0 ∧ r = 0 ∧ s' = s) := by
  simp only [available, returns_obj_bind, returns_call_bind, returns_set_bind, Prog.returns_ite,
    Prog.returns_pure, and_or_left, or_assoc]

/-- The outside when `write` asks `lwip_write`. -/
def atWrite (net : Lwip σ) (s : Live σ TCPClient) : σ :=
  (net.setsockopt s.self.socketFd (.sndTimeo s.self.soTimeout.1 s.self.soTimeout.2) s.env).2

theorem write_returns {bs : Bytes} {s : Live σ TCPClient} {r s'} :
    (write net bs).Returns s r s' ↔
      (s.self.socketFd < 0 ∧ r = sizeT (-1) ∧ s' = s) ∨
      (¬ s.self.socketFd < 0 ∧
        r = (if (net.write s.self.socketFd bs (atWrite net s)).1 < 0 then 0
          else sizeT (net.write s.self.socketFd bs (atWrite net s)).1) ∧
        s' = ⟨s.self, (net.write s.self.socketFd bs (atWrite net s)).2⟩) := by
  simp only [write, returns_obj_bind, returns_call_bind, Prog.returns_ite, Prog.returns_pure]
  exact Iff.rfl

theorem hostByName_returns {O : Type} {host : Bytes} {s : Live σ O} {r s'}
    (h : (hostByName net host).Returns s r s') :
    s' = s ∨ s' = ⟨s.self, (net.getaddrinfo host s.env).2⟩ := by
  simp only [hostByName, Prog.returns_ite, returns_call_bind, Prog.returns_pure] at h
  rcases h with ⟨_, h⟩ | ⟨_, ⟨_, _, h⟩ | ⟨_, _, h⟩⟩
  · right
    cases hg : (net.getaddrinfo host s.env).1 with
    | none =>
      simp only [hg, Prog.returns_ite, Prog.returns_pure] at h
      rcases h with ⟨_, _, h⟩ | ⟨_, _, h⟩ <;> exact h
    | some result =>
      cases hf : result.find? (·.inet) <;>
      · simp only [hg, hf, Prog.returns_ite, Prog.returns_pure] at h
        rcases h with ⟨_, _, h⟩ | ⟨_, _, h⟩ <;> exact h
  · exact .inl h
  · exact .inl h

theorem charToInt_eq {b : UInt8} (h : charSigned = false ∨ b < 128) : charToInt charSigned b = b.toNat := by
  rcases h with rfl | h
  · simp [charToInt]
  · have : ¬ b ≥ 128 := by simpa using h
    simp [charToInt, this]

theorem charToInt_neg {b : UInt8} (h : charSigned = true) (hb : ¬ b < 128) : charToInt charSigned b < 0 := by
  have hlt : b.toNat < 256 := b.toNat_lt
  simp only [charToInt, h, ge_iff_le, UInt8.not_lt.mp hb, and_self, if_true]
  omega

/-! ## Runs -/

/-- What lwIP promises of the stream of the peer on `fd`: `unread` is what the
peer sent (or will send) and the socket has not given out. `lwip_recv` gives
out the next bytes, at most as many as it was asked for; the end of the stream
and an error give out none, and neither do the other calls. -/
structure PeerStream (net : Lwip σ) (fd : Int) (unread : σ → Bytes) : Prop where
  recv : ∀ n s, unread s = (net.recv fd n s).1.got ++ unread (net.recv fd n s).2
  recvLength : ∀ n s, (net.recv fd n s).1.got.length ≤ n
  select : ∀ s, unread (net.select fd s).2 = unread s
  setsockopt : ∀ o s, unread (net.setsockopt fd o s).2 = unread s
  ioctl : ∀ s, unread (net.ioctl fd s).2 = unread s

inductive ReadOp where
  | read
  | readBuf (size : Nat)
  | available
  deriving DecidableEq, Repr

/-- One call of a run: what it returned and stored, and the states around it. -/
structure ReadEvent (σ : Type) where
  op : ReadOp
  before : Live σ TCPClient
  rc : Int
  got : Bytes
  after : Live σ TCPClient

/-- One call, as the code makes it. -/
inductive ReadStep (net : Lwip σ) (charSigned : Bool) : ReadEvent σ → Prop
  | read {s rc s'} : (read net charSigned).Returns s rc s' → ReadStep net charSigned ⟨.read, s, rc, [], s'⟩
  | readBuf {n s rc got s'} : (readBuf net n).Returns s (rc, got) s' →
      ReadStep net charSigned ⟨.readBuf n, s, rc, got, s'⟩
  | available {s rc s'} : (available net).Returns s rc s' → ReadStep net charSigned ⟨.available, s, rc, [], s'⟩

/-- Any interleaving of the calls. -/
inductive ReadRun (net : Lwip σ) (charSigned : Bool) :
    Live σ TCPClient → List (ReadEvent σ) → Live σ TCPClient → Prop
  | nil {s} : ReadRun net charSigned s [] s
  | cons {e es s'} : ReadStep net charSigned e → ReadRun net charSigned e.after es s' →
      ReadRun net charSigned e.before (e :: es) s'

/-- The bytes a call hands to its caller: `read()` a value that is not
negative, `read(buf, n)` as many of those it stored as its result counts. -/
def ReadEvent.handed (e : ReadEvent σ) : Bytes :=
  match e.op with
  | .read => if e.rc < 0 then [] else [UInt8.ofNat e.rc.toNat]
  | .readBuf _ => e.got.take e.rc.toNat
  | .available => []

/-- The result tells what was received in the call. `read()` returned the
value of the byte that was, or none was and it returned a negative value;
`read(buf, n)` returned the number of bytes that were, all of them in `buf`,
or none was and its result counts none. -/
def ReadEvent.Honest (unread : σ → Bytes) (e : ReadEvent σ) : Prop :=
  match e.op with
  | .read =>
    (∃ b, unread e.before.env = b :: unread e.after.env ∧ e.rc = b.toNat) ∨
    (unread e.before.env = unread e.after.env ∧ e.rc < 0)
  | .readBuf _ =>
    (e.got ≠ [] ∧ unread e.before.env = e.got ++ unread e.after.env ∧ e.rc = e.got.length) ∨
    (e.got = [] ∧ unread e.before.env = unread e.after.env ∧ e.rc ≤ 0)
  | .available => unread e.before.env = unread e.after.env

/-- `read()` is made without a socket, or `select` finds the socket readable
and `lwip_recv` has a byte, one that `char` does not make negative. -/
def ReadEvent.Served (net : Lwip σ) (charSigned : Bool) (e : ReadEvent σ) : Prop :=
  e.op = .read → e.before.self.socketFd < 0 ∨
    ((net.select e.before.self.socketFd e.before.env).1 > 0 ∧
      ∃ b, (recvAt net 1 e.before).1 = .data b [] ∧ (charSigned = false ∨ b < 128))

/-- The calls of a run handed out the stream of the peer: in order, with no
byte lost, altered, repeated or made up, and each `read()` was honest. -/
def Faithful (unread : σ → Bytes) (s : Live σ TCPClient) (es : List (ReadEvent σ)) (s' : Live σ TCPClient) : Prop :=
  unread s.env = es.flatMap ReadEvent.handed ++ unread s'.env ∧ ∀ e ∈ es, e.Honest unread

section Stream

variable {fd : Int} {unread : σ → Bytes}

theorem PeerStream.atRecv (h : PeerStream net fd unread) {s : Live σ TCPClient} (hfd : s.self.socketFd = fd) :
    unread (atRecv net s) = unread s.env := by
  rw [TCPClient.atRecv, hfd, h.setsockopt, h.select]

theorem PeerStream.recvAt (h : PeerStream net fd unread) {s : Live σ TCPClient} {n : Nat}
    (hfd : s.self.socketFd = fd) :
    unread s.env = (recvAt net n s).1.got ++ unread (recvAt net n s).2 := by
  rw [← h.atRecv hfd, TCPClient.recvAt, hfd]
  exact h.recv n _

/-- A read of one byte receives that byte or nothing. -/
theorem PeerStream.recvAt_one (h : PeerStream net fd unread) {s : Live σ TCPClient} (hfd : s.self.socketFd = fd) :
    (∃ b, (TCPClient.recvAt net 1 s).1 = .data b [] ∧ unread s.env = b :: unread (TCPClient.recvAt net 1 s).2) ∨
    ((TCPClient.recvAt net 1 s).1.got = [] ∧ (TCPClient.recvAt net 1 s).1.rc ≤ 0 ∧
      unread s.env = unread (TCPClient.recvAt net 1 s).2) := by
  have hgot := h.recvAt (n := 1) hfd
  have hlen : (TCPClient.recvAt net 1 s).1.got.length ≤ 1 := by
    rw [TCPClient.recvAt, hfd]; exact h.recvLength 1 _
  cases hr : (TCPClient.recvAt net 1 s).1 with
  | data b bs =>
    rw [hr] at hgot hlen
    obtain rfl : bs = [] := by simpa [Recv.got] using hlen
    exact .inl ⟨b, rfl, by simpa [Recv.got] using hgot⟩
  | eof | err =>
    rw [hr] at hgot
    exact .inr ⟨rfl, by simp [Recv.rc], by simpa [Recv.got] using hgot⟩

/-- A `read()` that is served is honest and hands out what it takes off the
stream; one that is not served is not honest. -/
theorem PeerStream.read_spec (h : PeerStream net fd unread) {s : Live σ TCPClient} {rc s'}
    (hr : (TCPClient.read net charSigned).Returns s rc s') (hfd : s.self.socketFd = fd) :
    s'.self.socketFd = fd ∧
      (((∃ b, unread s.env = b :: unread s'.env ∧ rc = b.toNat) ∨ (unread s.env = unread s'.env ∧ rc < 0)) ↔
        s.self.socketFd < 0 ∨ ((net.select s.self.socketFd s.env).1 > 0 ∧
          ∃ b, (TCPClient.recvAt net 1 s).1 = .data b [] ∧ (charSigned = false ∨ b < 128))) ∧
      ((s.self.socketFd < 0 ∨ ((net.select s.self.socketFd s.env).1 > 0 ∧
          ∃ b, (TCPClient.recvAt net 1 s).1 = .data b [] ∧ (charSigned = false ∨ b < 128))) →
        unread s.env = (if rc < 0 then [] else [UInt8.ofNat rc.toNat]) ++ unread s'.env) := by
  rcases read_returns.mp hr with ⟨hno, rfl, rfl⟩ | ⟨hyes, hsel, hrc, rfl, rfl⟩ | ⟨hyes, hsel, hrc, rfl, rfl⟩ |
    ⟨hyes, hsel, rfl, rfl⟩
  · exact ⟨hfd, by simp [hno], by simp⟩
  · refine ⟨hfd, ?_⟩
    rcases h.recvAt_one hfd with ⟨b, hb, hun⟩ | ⟨hgot, -, hun⟩
    · -- a byte was received: the value shows it unless `char` makes it negative
      simp only [hb, Recv.got, List.headD_cons, hun, hsel, hyes, true_and, false_or, Recv.data.injEq,
        and_true, exists_eq_left']
      by_cases hrep : charSigned = false ∨ b < 128
      · rw [charToInt_eq hrep]
        have hpos : ¬ ((b.toNat : Int) < 0) := by omega
        simp [hrep, hpos]
      · have hneg := charToInt_neg (b := b) (by simpa using (not_or.mp hrep).1) (not_or.mp hrep).2
        have hne : ¬ charToInt charSigned b = b.toNat := by omega
        simp [hrep, hne]
    · -- none was, and `read()` returns the 0 that `buf` was set to
      have hzero : charToInt charSigned 0 = 0 := charToInt_eq (.inr (by decide))
      have hne : ∀ b : UInt8, (TCPClient.recvAt net 1 s).1 ≠ .data b [] := by
        intro b hb; simp [hb, Recv.got] at hgot
      simp [hgot, hun, hyes, hzero, hne]
  · refine ⟨hfd, ?_⟩
    rcases h.recvAt_one hfd with ⟨b, hb, hun⟩ | ⟨hgot, -, hun⟩
    · exact absurd hrc (by simp [hb, Recv.rc])
    · have hne : ∀ b : UInt8, (TCPClient.recvAt net 1 s).1 ≠ .data b [] := by
        intro b hb; simp [hb, Recv.got] at hgot
      simp [hun, hyes, hne]
  · have hun : unread (dropped net s).env = unread s.env := by rw [dropped, hfd, h.select]
    exact ⟨hfd, by simp [hun, hyes, hsel], by simp [hyes, hsel]⟩

/-- `lwip_recv` returns the number of bytes it stored, or no positive number. -/
theorem recv_counts (r : Recv) : (r.got ≠ [] ∧ r.rc = r.got.length) ∨ (r.got = [] ∧ r.rc ≤ 0) := by
  cases r with
  | data b bs => exact .inl ⟨by simp [Recv.got], by simp [Recv.got, Recv.rc]⟩
  | eof | err => exact .inr ⟨rfl, by simp [Recv.rc]⟩

/-- `read(buf, n)` stores what it takes off the stream, and returns the number
of those bytes, or no positive number if there are none. -/
theorem PeerStream.readBuf_spec (h : PeerStream net fd unread) {n : Nat} {s : Live σ TCPClient} {r s'}
    (hr : (TCPClient.readBuf net n).Returns s r s') (hfd : s.self.socketFd = fd) :
    s'.self.socketFd = fd ∧ unread s.env = r.2 ++ unread s'.env ∧
      ((r.2 ≠ [] ∧ r.1 = r.2.length) ∨ (r.2 = [] ∧ r.1 ≤ 0)) := by
  rcases readBuf_returns.mp hr with ⟨-, rfl, rfl⟩ | ⟨-, -, rfl, rfl⟩ | ⟨-, -, rfl, rfl⟩
  · exact ⟨hfd, rfl, .inr ⟨rfl, by decide⟩⟩
  · exact ⟨hfd, h.recvAt hfd, recv_counts _⟩
  · exact ⟨hfd, by rw [dropped, hfd, h.select, List.nil_append], .inr ⟨rfl, by decide⟩⟩

theorem PeerStream.available_spec (h : PeerStream net fd unread) {s : Live σ TCPClient} {r s'}
    (hr : (TCPClient.available net).Returns s r s') (hfd : s.self.socketFd = fd) :
    s'.self.socketFd = fd ∧ unread s'.env = unread s.env := by
  rcases available_returns.mp hr with ⟨-, -, -, rfl⟩ | ⟨-, -, -, rfl⟩ | ⟨-, -, rfl⟩
  · exact ⟨hfd, by rw [hfd, h.ioctl]⟩
  · exact ⟨hfd, by rw [hfd, h.ioctl]⟩
  · exact ⟨hfd, rfl⟩

/-- The step lemma: a call keeps the socket; it is honest exactly when it is
served, and then hands out what it takes off the stream. -/
theorem ReadStep.spec (h : PeerStream net fd unread) {e : ReadEvent σ} (hs : ReadStep net charSigned e)
    (hfd : e.before.self.socketFd = fd) :
    e.after.self.socketFd = fd ∧ (e.Honest unread ↔ e.Served net charSigned) ∧
      (e.Served net charSigned → unread e.before.env = e.handed ++ unread e.after.env) := by
  cases hs with
  | read hr =>
    simp only [ReadEvent.Honest, ReadEvent.Served, ReadEvent.handed, forall_const]
    exact h.read_spec hr hfd
  | @readBuf n s rc got s' hr =>
    obtain ⟨hfd', hun, hcount⟩ := h.readBuf_spec hr hfd
    simp only [ReadEvent.Honest, ReadEvent.Served, ReadEvent.handed, reduceCtorEq, false_implies, iff_true,
      forall_const]
    rcases hcount with ⟨hgot, hrc : rc = got.length⟩ | ⟨hgot : got = [], hrc⟩
    · refine ⟨hfd', .inl ⟨hgot, hun, hrc⟩, ?_⟩
      rw [hrc, Int.toNat_natCast, List.take_length]
      exact hun
    · subst hgot
      refine ⟨hfd', .inr ⟨rfl, hun, hrc⟩, ?_⟩
      rw [List.take_nil]
      exact hun
  | available hr =>
    obtain ⟨hfd', hun⟩ := h.available_spec hr hfd
    simp only [ReadEvent.Honest, ReadEvent.Served, ReadEvent.handed, reduceCtorEq, false_implies, iff_true,
      forall_const]
    exact ⟨hfd', hun.symm, by rw [hun, List.nil_append]⟩

/-- The reads of a run hand out the stream of the peer, each `read()` telling
what it got, exactly when every `read()` of the run is served. -/
theorem readRun_faithful_iff (h : PeerStream net fd unread) {s s' : Live σ TCPClient} {es}
    (hrun : ReadRun net charSigned s es s') (hfd : s.self.socketFd = fd) :
    Faithful unread s es s' ↔ ∀ e ∈ es, e.Served net charSigned := by
  constructor
  · rintro ⟨-, hall⟩
    induction hrun with
    | nil => simp
    | cons hs _ ih =>
      obtain ⟨hfd', hiff, -⟩ := hs.spec h hfd
      simp only [List.mem_cons, forall_eq_or_imp] at hall ⊢
      exact ⟨hiff.mp hall.1, ih hfd' hall.2⟩
  · intro hall
    induction hrun with
    | nil => exact ⟨rfl, by simp⟩
    | cons hs _ ih =>
      obtain ⟨hfd', hiff, htake⟩ := hs.spec h hfd
      simp only [List.mem_cons, forall_eq_or_imp] at hall
      obtain ⟨hstream, hhonest⟩ := ih hfd' hall.2
      refine ⟨?_, ?_⟩
      · rw [htake hall.1, hstream, List.flatMap_cons, List.append_assoc]
      · simpa using ⟨hiff.mpr hall.1, hhonest⟩

end Stream

/-! ## A peer that sends some bytes and closes -/

/-- An lwIP on which every call succeeds; the state is what is unread of the
peer's stream, which ends after it. -/
def closingPeer : Lwip Bytes where
  inetAddr _ := ipaddrNone
  getaddrinfo _ s := (some [⟨true, 0x0100007F⟩], s)
  socket s := (3, s)
  setsockopt _ _ s := (0, s)
  connect _ _ s := (0, s)
  shutdown _ s := s
  close _ s := s
  ioctl _ s := (some s.length, s)
  select _ s := (1, s)
  recv _ n s := match s.take n with
    | [] => (.eof, s)
    | b :: bs => (.data b bs, s.drop n)
  write _ bs s := (bs.length, s)
  fcntlNonblock _ s := s

theorem closingPeer_stream (fd : Int) : PeerStream closingPeer fd id where
  recv n s := by
    simp only [closingPeer]
    split
    · simp [Recv.got]
    · next b bs h =>
      have hsplit := (List.take_append_drop n s).symm
      rwa [h] at hsplit
  recvLength n s := by
    simp only [closingPeer]
    split
    · simp [Recv.got]
    · next b bs h => rw [Recv.got, ← h]; exact List.length_take_le n s
  select _ := rfl
  setsockopt _ _ := rfl
  ioctl _ := rfl

/-- An open socket. -/
def opened : TCPClient := { socketFd := 3, _connected := true }

/-- A byte read alone, with `char` unsigned, then two of those that are there,
then the last one, and at the end of the stream none. -/
theorem readRun_faithful_mixed :
    Faithful id ⟨opened, [200, 7, 8, 9]⟩
      [⟨.read, ⟨opened, [200, 7, 8, 9]⟩, 200, [], ⟨opened, [7, 8, 9]⟩⟩,
        ⟨.readBuf 2, ⟨opened, [7, 8, 9]⟩, 2, [7, 8], ⟨opened, [9]⟩⟩,
        ⟨.read, ⟨opened, [9]⟩, 9, [], ⟨opened, []⟩⟩,
        ⟨.readBuf 2, ⟨opened, []⟩, 0, [], ⟨opened, []⟩⟩]
      ⟨opened, []⟩ := by
  have first : ReadStep closingPeer false ⟨.read, ⟨opened, [200, 7, 8, 9]⟩, 200, [], ⟨opened, [7, 8, 9]⟩⟩ :=
    .read ⟨0, rfl⟩
  have second : ReadStep closingPeer false ⟨.readBuf 2, ⟨opened, [7, 8, 9]⟩, 2, [7, 8], ⟨opened, [9]⟩⟩ :=
    .readBuf ⟨0, rfl⟩
  have third : ReadStep closingPeer false ⟨.read, ⟨opened, [9]⟩, 9, [], ⟨opened, []⟩⟩ := .read ⟨0, rfl⟩
  have last : ReadStep closingPeer false ⟨.readBuf 2, ⟨opened, []⟩, 0, [], ⟨opened, []⟩⟩ := .readBuf ⟨0, rfl⟩
  refine (readRun_faithful_iff (closingPeer_stream 3) (.cons first (.cons second (.cons third (.cons last .nil))))
    rfl).mpr ?_
  simp [ReadEvent.Served, closingPeer, recvAt, atRecv, opened]

/-- At the end of the stream `read()` returns 0, a byte the peer never sent. -/
theorem read_eof_not_faithful :
    PeerStream closingPeer 3 id ∧
      ∃ es s', ReadRun closingPeer false ⟨opened, []⟩ es s' ∧ ¬ Faithful id ⟨opened, []⟩ es s' := by
  have call : ReadStep closingPeer false ⟨.read, ⟨opened, []⟩, 0, [], ⟨opened, []⟩⟩ := .read ⟨0, rfl⟩
  refine ⟨closingPeer_stream 3, _, _, .cons call .nil, ?_⟩
  simp [Faithful, ReadEvent.handed]

end FEmbed.TCPClient
