/-
The boundary of the library: the lwIP socket calls, as functions of a state
`σ` of everything outside (stack, network, peers). Any functions are allowed,
so a statement for every `Lwip σ` is one for every outcome of every call.
-/
import FEmbedLwip.Arduino
import FEmbedLwip.Prog

namespace FEmbed

/-! ## Objects with an outside -/

/-- An object of the library together with the state of what is outside it. -/
structure Live (σ O : Type) where
  self : O
  env : σ
  deriving DecidableEq

namespace Live

variable {σ O α β : Type}

/-- The fields of the object. -/
def obj : Prog (Live σ O) O := Prog.gets (·.self)

/-- Assign fields of the object. -/
def set (f : O → O) : Prog (Live σ O) Unit := Prog.modify fun s => { s with self := f s.self }

/-- Call out. -/
def call (f : σ → α × σ) : Prog (Live σ O) α :=
  Prog.step fun s => ((f s.env).1, { s with env := (f s.env).2 })

/-- Call out for the effect alone. -/
def tell (f : σ → σ) : Prog (Live σ O) Unit := Prog.modify fun s => { s with env := f s.env }

@[simp] theorem returns_obj {s : Live σ O} {o s'} : (obj : Prog (Live σ O) O).Returns s o s' ↔ o = s.self ∧ s' = s := by
  simp [obj]

@[simp] theorem returns_set {f : O → O} {s : Live σ O} {u s'} :
    (set f).Returns s u s' ↔ s' = ⟨f s.self, s.env⟩ := by
  simp [set]

@[simp] theorem returns_call {f : σ → α × σ} {s : Live σ O} {a s'} :
    (call f).Returns s a s' ↔ a = (f s.env).1 ∧ s' = ⟨s.self, (f s.env).2⟩ := by
  simp [call, eq_comm]

@[simp] theorem returns_tell {f : σ → σ} {s : Live σ O} {u s'} :
    (tell f).Returns s u s' ↔ s' = ⟨s.self, f s.env⟩ := by
  simp [tell]

theorem returns_obj_bind {f : O → Prog (Live σ O) α} {s : Live σ O} {a s'} :
    (obj >>= f).Returns s a s' ↔ (f s.self).Returns s a s' := Prog.returns_bind_of (by simp)

theorem returns_set_bind {g : O → O} {f : Unit → Prog (Live σ O) α} {s : Live σ O} {a s'} :
    (set g >>= f).Returns s a s' ↔ (f ()).Returns ⟨g s.self, s.env⟩ a s' := Prog.returns_bind_of (by simp)

theorem returns_call_bind {g : σ → β × σ} {f : β → Prog (Live σ O) α} {s : Live σ O} {a s'} :
    (call g >>= f).Returns s a s' ↔ (f (g s.env).1).Returns ⟨s.self, (g s.env).2⟩ a s' :=
  Prog.returns_bind_of (by simp)

theorem returns_tell_bind {g : σ → σ} {f : Unit → Prog (Live σ O) α} {s : Live σ O} {a s'} :
    (tell g >>= f).Returns s a s' ↔ (f ()).Returns ⟨s.self, g s.env⟩ a s' :=
  Prog.returns_bind_of (by simp)

theorem undef_obj_bind {f : O → Prog (Live σ O) α} {s : Live σ O} : (obj >>= f).Undef s ↔ (f s.self).Undef s :=
  Prog.undef_bind_of (by simp)

theorem undef_set_bind {g : O → O} {f : Unit → Prog (Live σ O) α} {s : Live σ O} :
    (set g >>= f).Undef s ↔ (f ()).Undef ⟨g s.self, s.env⟩ := Prog.undef_bind_of (by simp)

variable {G : Prog.Guarantee (Live σ O)}

theorem guarantees_obj : Prog.Guarantees G (obj : Prog (Live σ O) O) := Prog.Guarantees.gets

theorem guarantees_set {f : O → O} (h : ∀ s, G.rel s ⟨f s.self, s.env⟩) : Prog.Guarantees G (set f) :=
  Prog.Guarantees.modify h

theorem guarantees_call {f : σ → α × σ} (h : ∀ s, G.rel s ⟨s.self, (f s.env).2⟩) : Prog.Guarantees G (call f) :=
  Prog.Guarantees.step h

theorem guarantees_tell {f : σ → σ} (h : ∀ s, G.rel s ⟨s.self, f s.env⟩) : Prog.Guarantees G (tell f) :=
  Prog.Guarantees.modify h

/-- What a guarantee about the outside says of the runs of an object. -/
def outside (G : Prog.Guarantee σ) (O : Type) : Prog.Guarantee (Live σ O) where
  rel s s' := G.rel s.env s'.env
  refl s := G.refl s.env
  trans := G.trans

theorem set_outside {G : Prog.Guarantee σ} {f : O → O} : Prog.Guarantees (outside G O) (set f) :=
  guarantees_set fun s => G.refl s.env

/-- Programs of an object that keep `I` of the outside, whether or not they return. -/
abbrev KeepsOutside (I : σ → Prop) (x : Prog (Live σ O) α) : Prop := Prog.Keeps (fun s => I s.env) x

namespace KeepsOutside

variable {I : σ → Prop}

theorem pure {a : α} : KeepsOutside I (pure a : Prog (Live σ O) α) := Prog.Hoare.pure fun _ => id

theorem undefined : KeepsOutside I (Prog.undefined : Prog (Live σ O) α) := Prog.Hoare.undefined fun _ => id

theorem bind {x : Prog (Live σ O) β} {f : β → Prog (Live σ O) α} (hx : KeepsOutside I x) (hf : ∀ b, KeepsOutside I (f b)) :
    KeepsOutside I (x >>= f) := Prog.Hoare.bind hx hf

theorem ite {c : Prop} [Decidable c] {x y : Prog (Live σ O) α} (hx : KeepsOutside I x) (hy : KeepsOutside I y) :
    KeepsOutside I (if c then x else y) := Prog.Hoare.ite (fun _ => hx) fun _ => hy

theorem loop {body : β → Prog (Live σ O) (Turn β α)} (h : ∀ b, KeepsOutside I (body b)) (b : β) :
    KeepsOutside I (Prog.loop body b) := by
  refine Prog.Hoare.loop (fun _ (s : Live σ O) => I s.env) (fun b => (h b).post fun r s hs => ?_) (fun _ _ => id) b
  cases r with
  | next => exact hs
  | exit => exact hs

theorem obj : KeepsOutside I (obj : Prog (Live σ O) O) := Prog.Hoare.gets fun _ => id

theorem set {f : O → O} : KeepsOutside I (set f : Prog (Live σ O) Unit) := Prog.Hoare.modify fun _ => id

theorem call {f : σ → α × σ} (h : ∀ e, I e → I (f e).2) : KeepsOutside I (call f : Prog (Live σ O) α) :=
  Prog.Hoare.step fun s => h s.env

theorem tell {f : σ → σ} (h : ∀ e, I e → I (f e)) : KeepsOutside I (tell f : Prog (Live σ O) Unit) :=
  Prog.Hoare.modify fun (s : Live σ O) => h s.env

end KeepsOutside

end Live

/-! ## Sockets -/

/-- A `sockaddr_in` of the family `AF_INET`. -/
structure SockAddr where
  addr : Nat := 0
  port : Nat := 0
  deriving DecidableEq, Repr

/-- The options the library sets, with the value it passes. -/
inductive SockOpt where
  | keepAlive (value : Int)
  | reuseAddr (value : Int)
  | sndTimeo (sec usec : Int)
  | rcvTimeo (sec usec : Int)
  | noDelay (value : Int)
  deriving DecidableEq, Repr

/-- What `lwip_recv` gives: some bytes, the end of the stream, or an error. -/
inductive Recv where
  | data (b : UInt8) (bs : Bytes)
  | eof
  | err
  deriving DecidableEq, Repr

/-- The bytes `lwip_recv` stored. -/
def Recv.got : Recv → Bytes
  | .data b bs => b :: bs
  | .eof | .err => []

/-- The value `lwip_recv` returns. -/
def Recv.rc : Recv → Int
  | .data _ bs => bs.length + 1
  | .eof => 0
  | .err => -1

/-- One entry of the list `lwip_getaddrinfo` answers with. -/
structure AddrInfo where
  inet : Bool
  addr : Nat
  deriving DecidableEq, Repr

/-- The lwIP calls. `ioctl` is `FIONREAD`: `none` when it stores nothing. -/
structure Lwip (σ : Type) where
  inetAddr : Bytes → Nat
  getaddrinfo : Bytes → σ → Option (List AddrInfo) × σ
  socket : σ → Int × σ
  setsockopt : Int → SockOpt → σ → Int × σ
  connect : Int → SockAddr → σ → Int × σ
  shutdown : Int → σ → σ
  close : Int → σ → σ
  ioctl : Int → σ → Option Int × σ
  select : Int → σ → Int × σ
  recv : Int → Nat → σ → Recv × σ
  write : Int → Bytes → σ → Int × σ
  fcntlNonblock : Int → σ → σ

/-- `IPADDR_NONE`. -/
def ipaddrNone : Nat := 0xFFFFFFFF

end FEmbed
