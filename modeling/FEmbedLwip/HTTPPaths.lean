/-
The two ways to send a payload: from a buffer in one write, and from a stream in
pieces of which each has a second try.

A connection whose behaviour depends on the bytes it has taken (`Recipient`)
takes `taken` bytes of the one write, and `carried` of the pieces. Nothing else
of the two ways can be told apart afterwards, so they agree, whether they return
or not, where each read gives what it was asked for and these are the same
number (`sendRequest_agrees_iff`).
-/
import FEmbedLwip.Follows
import FEmbedLwip.HTTPUpload

namespace FEmbed

open Live
open Prog (Guarantees Guarantee Blind Follows)

/-! ## What a connection takes -/

/-- What it takes of `p` in a write and a second one, after it has `acc`. -/
def twice (taken : Bytes → Bytes → Nat) (acc p : Bytes) : Nat :=
  let w := taken acc p
  if w = p.length then w else w + taken (acc ++ p.take w) (p.drop w)

/-- What it takes of the pieces of a payload, in two tries each, as long as it
is up. -/
def carried (taken : Bytes → Bytes → Nat) (up : Bytes → Bool) (acc : Bytes) : List Bytes → Nat
  | [] => 0
  | p :: ps =>
    if up acc then
      if twice taken acc p = p.length then p.length + carried taken up (acc ++ p) ps else twice taken acc p
    else 0

section Taken

variable {taken : Bytes → Bytes → Nat} {up : Bytes → Bool} (h : ∀ acc bs, taken acc bs ≤ bs.length)

include h

theorem twice_le (acc p : Bytes) : twice taken acc p ≤ p.length := by
  have h₁ := h acc p
  have h₂ := h (acc ++ p.take (taken acc p)) (p.drop (taken acc p))
  rw [List.length_drop] at h₂
  simp only [twice]
  split <;> omega

theorem carried_le (acc : Bytes) (ps : List Bytes) : carried taken up acc ps ≤ ps.flatten.length := by
  induction ps generalizing acc with
  | nil => exact Nat.le_refl 0
  | cons p ps ih =>
    have hp := twice_le h acc p
    have hps := ih (acc ++ p)
    rw [carried, List.flatten_cons, List.length_append]
    split
    · split <;> omega
    · omega

omit h in
theorem carried_down {acc : Bytes} (hdown : up acc = false) (ps : List Bytes) : carried taken up acc ps = 0 := by
  cases ps with
  | nil => rfl
  | cons p ps => rw [carried, if_neg (by simp [hdown])]

end Taken

/-! ## The connection and the stream -/

/-- What of the outside the two ways have to do with: the bytes that the
connection has taken, the rest of what it behaves by, the stream, and the time. -/
structure UploadView (C ρ σ : Type) where
  accepted : C → Bytes
  rest : C → ρ
  source : C → σ
  clock : C → Int

/-- The connection is in the same state, `d` ms later. -/
structure UploadView.Twin {C ρ σ : Type} (v : UploadView C ρ σ) (d : Int) (e e' : C) : Prop where
  accepted : v.accepted e = v.accepted e'
  rest : v.rest e = v.rest e'
  clock : v.clock e' = v.clock e + d

/-- Only the time may differ. -/
def UploadView.quiet {C ρ σ : Type} (v : UploadView C ρ σ) : Guarantee C :=
  .same fun e => (v.accepted e, v.rest e, v.source e)

theorem UploadView.quiet_iff {C ρ σ : Type} {v : UploadView C ρ σ} {e e' : C} : v.quiet.rel e e' ↔
    v.accepted e' = v.accepted e ∧ v.rest e' = v.rest e ∧ v.source e' = v.source e := by
  simp [UploadView.quiet, Guarantee.same]

/-- The connection `r` behaves by the bytes it has taken: how many it takes of
a write, whether something is there to be read and whether it is up are
functions of them, and of `rest`, which writes and polls leave alone. The stream
behaves by its own state. What a response does, it does whenever it comes. -/
structure Recipient {C : Type} (ρ σ : Type) (net : Connection C) (r : Ref) (stream : AppStream C) extends UploadView C ρ σ where
  taken : Bytes → Bytes → Nat
  taken_le : ∀ acc bs, taken acc bs ≤ bs.length
  write : ∀ bs e w e', (net.write r bs).Returns e w e' → w = taken (accepted e) bs ∧
    accepted e' = accepted e ++ bs.take w ∧ rest e' = rest e ∧ source e' = source e
  waiting : Bytes → ρ → Int
  alive : Bytes → ρ → Bool
  available : ∀ e a e', (net.available r).Returns e a e' → a = waiting (accepted e) (rest e) ∧ toUploadView.quiet.rel e e'
  connected : ∀ e b e', (net.connected r).Returns e b e' → b = alive (accepted e) (rest e) ∧ toUploadView.quiet.rel e e'
  ready : σ → Int × σ
  give : Nat → σ → Bytes × σ
  streamAvailable : ∀ e a e', stream.available.Returns e a e' → (a, source e') = ready (source e) ∧
    accepted e' = accepted e ∧ rest e' = rest e
  streamRead : ∀ n e bs e', (stream.readBytes n).Returns e bs e' → (bs, source e') = give n (source e) ∧
    accepted e' = accepted e ∧ rest e' = rest e
  getWriteError : ∀ e x e', (net.getWriteError r).Returns e x e' → x = 0 ∧ toUploadView.quiet.rel e e'
  delay : ∀ n, (net.delay n).Guarantees toUploadView.quiet
  malloc : ∀ n e block e', (net.malloc n).Returns e block e' → toUploadView.quiet.rel e e' ∧
    ∀ buff, block = some buff → buff.length = n
  pollsBlind : ∀ d, Blind (toUploadView.Twin d) (net.available r)
  upBlind : ∀ d, Blind (toUploadView.Twin d) (net.connected r)
  lineBlind : ∀ d, Blind (toUploadView.Twin d) (net.readStringUntil r 10)
  stopBlind : ∀ d, Blind (toUploadView.Twin d) (net.stop r)
  delayBlind : ∀ d n, Blind (toUploadView.Twin d) (net.delay n)
  millis : ∀ d, Follows (toUploadView.Twin d) net.millis net.millis fun m m' e e' =>
    (m' - m - d : Int) % 2 ^ 32 = 0 ∧ toUploadView.Twin d e e'
  lineKeeps : (net.readStringUntil r 10).Guarantees (.same accepted)
  stopKeeps : (net.stop r).Guarantees (.same accepted)
  millisKeeps : net.millis.Guarantees (.same accepted)

/-- What the two ways call of the connection and of the stream before the
response, and where they give up, returns. -/
structure Responsive {C : Type} (net : Connection C) (r : Ref) (stream : AppStream C) : Prop where
  write : ∀ bs, (net.write r bs).Ends
  available : (net.available r).Ends
  connected : (net.connected r).Ends
  getWriteError : (net.getWriteError r).Ends
  delay : ∀ n, (net.delay n).Ends
  malloc : ∀ n, (net.malloc n).Ends
  stop : (net.stop r).Ends
  streamAvailable : stream.available.Ends
  streamRead : ∀ n, (stream.readBytes n).Ends

namespace Recipient

variable {C ρ σ : Type} {net : Connection C} {r : Ref} {stream : AppStream C} (W : Recipient ρ σ net r stream)

/-- What `HTTPClient::connected` says. -/
def up (acc : Bytes) (x : ρ) : Bool := decide (W.waiting acc x > 0) || W.alive acc x

/-- From its state `x` on, the stream gives the loop, which wants `len` bytes,
the pieces `ps`: each as long as it was asked for. -/
inductive Pieces (buffSize : Int) : σ → Int → List Bytes → Prop
  | enough {x len} : ¬ (len > 0 ∨ len = -1) → Pieces buffSize x len []
  | ended {x len} : ¬ (W.ready x).1 > -1 → Pieces buffSize x len []
  | wait {x len ps} : (W.ready x).1 > -1 → (len > 0 ∨ len = -1) → (W.ready (W.ready x).2).1 = 0 →
      Pieces buffSize (W.ready (W.ready x).2).2 len ps → Pieces buffSize x len ps
  | piece {x len p ps} : (W.ready x).1 > -1 → (len > 0 ∨ len = -1) → (W.ready (W.ready x).2).1 ≠ 0 →
      (W.give (sizeT (HTTPClient.readCount (W.ready (W.ready x).2).1 len buffSize)) (W.ready (W.ready x).2).2).1 = p →
      p.length = HTTPClient.readCount (W.ready (W.ready x).2).1 len buffSize →
      Pieces buffSize (W.give (sizeT (HTTPClient.readCount (W.ready (W.ready x).2).1 len buffSize)) (W.ready (W.ready x).2).2).2
        (if len > 0 then len - p.length else len) ps →
      Pieces buffSize x len (p :: ps)

end Recipient

namespace HTTPClient

variable {C ρ σ : Type} {net : Connection C} {r : Ref} {stream : AppStream C} (W : Recipient ρ σ net r stream)
  {buffSize : Int}

/-! ## A turn of the loop -/

/-- The connection has the bytes `acc` and is as it was otherwise. -/
structure At (acc : Bytes) (s s' : Live C (HTTPClient C)) : Prop where
  self : s'.self = s.self
  accepted : W.accepted s'.env = acc
  rest : W.rest s'.env = W.rest s.env

theorem connected_up_eq {s : Live C (HTTPClient C)} {b s'} (hc : s.self._client = some r)
    (h : (connected net).Returns s b s') :
    b = W.up (W.accepted s.env) (W.rest s.env) ∧ s'.self = s.self ∧ W.quiet.rel s.env s'.env := by
  rw [connected, returns_obj_bind] at h
  simp only [hc] at h
  obtain ⟨a, t, ht, h⟩ := Prog.returns_bind.mp h
  obtain ⟨e, he, rfl⟩ := returns_outside.mp ht
  obtain ⟨ha, hquiet⟩ := W.available _ _ _ he
  rw [Prog.returns_ite] at h
  rcases h with ⟨hpos, h⟩ | ⟨hnone, h⟩
  · obtain ⟨rfl, rfl⟩ := Prog.returns_pure.mp h
    refine ⟨?_, rfl, hquiet⟩
    rw [Recipient.up, ← ha, decide_eq_true hpos, Bool.true_or]
  · obtain ⟨e', he', rfl⟩ := returns_outside.mp h
    obtain ⟨rfl, hquiet'⟩ := W.connected _ _ _ he'
    obtain ⟨hacc, hrest, -⟩ := UploadView.quiet_iff.mp hquiet
    refine ⟨?_, rfl, W.quiet.trans hquiet hquiet'⟩
    rw [Recipient.up, ← ha, decide_eq_false hnone, Bool.false_or, hacc, hrest]

/-- A piece gets two tries. -/
theorem passOn_twice {buff p : Bytes} (hp : p <+: buff) (hlen : p.length < 2 ^ 31) {s : Live C (HTTPClient C)} {m s'}
    (h : (passOn net (net.write r) (net.getWriteError r) (net.clearWriteError r) buff p p.length).Returns s m s') :
    At W (W.accepted s.env ++ p.take (twice W.taken (W.accepted s.env) p)) s s' ∧ W.source s'.env = W.source s.env ∧
      m = if twice W.taken (W.accepted s.env) p = p.length then some (p.length : Int) else none := by
  have hle := W.taken_le (W.accepted s.env) p
  obtain ⟨w, t, ht, h⟩ := Prog.returns_bind.mp h
  obtain ⟨e, he, rfl⟩ := returns_outside.mp ht
  obtain ⟨rfl, hacc, hrest, hsource⟩ := W.write _ _ _ _ he
  generalize hw : W.taken (W.accepted s.env) p = w at h hle hacc
  have hint : int32 w = w := int32_eq (by omega) (by omega)
  have noError {t u : Live C (HTTPClient C)} {x} (h : (outside (net.getWriteError r)).Returns t x u) : x = 0 ∧
      u.self = t.self ∧ W.accepted u.env = W.accepted t.env ∧ W.rest u.env = W.rest t.env ∧ W.source u.env = W.source t.env := by
    obtain ⟨e, he, rfl⟩ := returns_outside.mp h
    obtain ⟨rfl, hquiet⟩ := W.getWriteError _ _ _ he
    exact ⟨rfl, rfl, UploadView.quiet_iff.mp hquiet⟩
  rw [hint, Prog.returns_ite] at h
  rcases h with ⟨hcut, h⟩ | ⟨hfull, h⟩
  · have hcut : w ≠ p.length := by omega
    obtain ⟨err, u, hu, h⟩ := Prog.returns_bind.mp h
    obtain ⟨rfl, hus, hua, hur, huo⟩ := noError hu
    rw [if_neg (by decide), writeLeft] at h
    obtain ⟨_, v, hv, h⟩ := Prog.returns_bind.mp h
    obtain ⟨e₁, he₁, rfl⟩ := returns_outside.mp hv
    obtain ⟨hva, hvr, hvo⟩ := UploadView.quiet_iff.mp (W.delay 1 _ _ _ he₁)
    split at h
    · exact absurd h Prog.returns_undefined
    rename_i left hslice
    obtain ⟨hwn, hfit, hleft, hall, -⟩ := take_slice_prefix 0 hslice
    have htake : p.take w = buff.take w := by
      obtain ⟨tail, rfl⟩ := hp
      rw [List.take_append_of_le_length hle]
    have hdrop : left = p.drop w := by
      have hbuff : buff.take (p.length : Int).toNat = p := by
        obtain ⟨tail, rfl⟩ := hp
        simp
      rw [hbuff, ← htake] at hall
      exact List.append_cancel_left (hall.trans (List.take_append_drop w p).symm)
    subst hdrop
    obtain ⟨w', x, hx, h⟩ := Prog.returns_bind.mp h
    obtain ⟨e₂, he₂, rfl⟩ := returns_outside.mp hx
    have hle' := W.taken_le (W.accepted e₁) (p.drop w)
    obtain ⟨rfl, hacc', hrest', hsource'⟩ := W.write _ _ _ _ he₂
    have hbefore : W.accepted e₁ = W.accepted s.env ++ p.take w := by rw [hva, hua, hacc]
    rw [hbefore] at hle' hacc' h
    generalize hw' : W.taken (W.accepted s.env ++ p.take w) (p.drop w) = w' at h hle' hacc'
    rw [List.length_drop] at hle'
    have htwice : twice W.taken (W.accepted s.env) p = w + w' := by
      simp only [twice, hw, hw']
      rw [if_neg hcut]
    have hafter : W.accepted e₂ = W.accepted s.env ++ p.take (w + w') := by
      rw [hacc', List.append_assoc, List.take_add]
    have hint' : int32 w' = w' := int32_eq (by omega) (by omega)
    have hcount : w + w' = p.length ↔ (w' : Int) = p.length - w := by
      clear hint hint' hlen
      omega
    rw [htwice]
    rw [hint', Prog.returns_ite] at h
    rcases h with ⟨hshort, h⟩ | ⟨hdone, h⟩
    · obtain ⟨rfl, rfl⟩ := Prog.returns_pure.mp h
      rw [if_neg (fun h => hshort (hcount.mp h))]
      exact ⟨⟨hus, hafter, hrest'.trans (hvr.trans (hur.trans hrest))⟩, hsource'.trans (hvo.trans (huo.trans hsource)), rfl⟩
    · obtain ⟨err, y, hy, h⟩ := Prog.returns_bind.mp h
      obtain ⟨rfl, hys, hya, hyr, hyo⟩ := noError hy
      rw [if_neg (by decide)] at h
      obtain ⟨rfl, rfl⟩ := Prog.returns_pure.mp h
      have hdone := Decidable.not_not.mp hdone
      rw [if_pos (hcount.mpr hdone)]
      exact ⟨⟨hys.trans hus, hya.trans hafter, hyr.trans (hrest'.trans (hvr.trans (hur.trans hrest)))⟩,
        hyo.trans (hsource'.trans (hvo.trans (huo.trans hsource))), congrArg some (by rw [← Int.natCast_add, hcount.mpr hdone])⟩
  · have hfull : w = p.length := by omega
    obtain ⟨err, u, hu, h⟩ := Prog.returns_bind.mp h
    obtain ⟨rfl, hus, hua, hur, huo⟩ := noError hu
    rw [if_neg (by decide)] at h
    obtain ⟨rfl, rfl⟩ := Prog.returns_pure.mp h
    have htwice : twice W.taken (W.accepted s.env) p = p.length := by
      simp only [twice, hw]
      rw [if_pos hfull, hfull]
    rw [htwice, if_pos rfl]
    exact ⟨⟨hus, by rw [hua, hacc, hfull], hur.trans hrest⟩, huo.trans hsource, by rw [hfull]⟩

/-- A turn of the loop, by what the connection and the stream do. -/
theorem uploadTurn_by {l : CopyState} {s : Live C (HTTPClient C)} {x s'} (hc : s.self._client = some r)
    (h : (uploadTurn net stream buffSize l).Returns s x s') :
    (x = .exit (some l.bytesWritten) ∧ At W (W.accepted s.env) s s' ∧
      (W.up (W.accepted s.env) (W.rest s.env) = false ∨ ¬ (W.ready (W.source s.env)).1 > -1 ∨ ¬ (l.len > 0 ∨ l.len = -1))) ∨
    W.up (W.accepted s.env) (W.rest s.env) = true ∧ (W.ready (W.source s.env)).1 > -1 ∧ (l.len > 0 ∨ l.len = -1) ∧
      (x = .next l ∧ At W (W.accepted s.env) s s' ∧ (W.ready (W.ready (W.source s.env)).2).1 = 0 ∧
        W.source s'.env = (W.ready (W.ready (W.source s.env)).2).2 ∨
      ∃ a x₁ p x₂ e, W.ready (W.ready (W.source s.env)).2 = (a, x₁) ∧ a ≠ 0 ∧
        W.give (sizeT (readCount a l.len buffSize)) x₁ = (p, x₂) ∧ W.source e = x₂ ∧ At W (W.accepted s.env) s ⟨s.self, e⟩ ∧
        (handOn net r l (readCount a l.len buffSize) p).Returns ⟨s.self, e⟩ x s') := by
  obtain ⟨up, t, ht, h⟩ := Prog.returns_bind.mp h
  obtain ⟨hup, hts, hquiet⟩ := connected_up_eq W hc ht
  obtain ⟨hta, htr, hto⟩ := UploadView.quiet_iff.mp hquiet
  rw [Prog.returns_ite] at h
  rcases h with ⟨hdown, h⟩ | ⟨hgo, h⟩
  · obtain ⟨rfl, rfl⟩ := Prog.returns_pure.mp h
    exact .inl ⟨rfl, ⟨hts, hta, htr⟩, .inl (by rw [← hup]; simpa using hdown)⟩
  have hup : W.up (W.accepted s.env) (W.rest s.env) = true := by rw [← hup]; simpa using hgo
  obtain ⟨a₀, u, hu, h⟩ := Prog.returns_bind.mp h
  obtain ⟨e₁, he₁, rfl⟩ := returns_outside.mp hu
  obtain ⟨hready, hua, hur⟩ := W.streamAvailable _ _ _ he₁
  rw [hto] at hready
  have ha₀ := congrArg Prod.fst hready
  have hx₀ := congrArg Prod.snd hready
  dsimp only at ha₀ hx₀
  rw [Prog.returns_ite] at h
  rcases h with ⟨hstop, h⟩ | ⟨hgo, h⟩
  · obtain ⟨rfl, rfl⟩ := Prog.returns_pure.mp h
    exact .inl ⟨rfl, ⟨hts, hua.trans hta, hur.trans htr⟩, .inr (by rw [← ha₀]; exact hstop)⟩
  rw [not_or, Decidable.not_not, Decidable.not_not, ha₀] at hgo
  obtain ⟨a, v, hv, h⟩ := Prog.returns_bind.mp h
  obtain ⟨e₂, he₂, rfl⟩ := returns_outside.mp hv
  obtain ⟨hready', hva, hvr⟩ := W.streamAvailable _ _ _ he₂
  rw [hx₀] at hready'
  refine .inr ⟨hup, hgo.1, hgo.2, ?_⟩
  rw [Prog.returns_ite] at h
  rcases h with ⟨hzero, h⟩ | ⟨hne, h⟩
  · obtain ⟨_, w, hw, h⟩ := Prog.returns_bind.mp h
    obtain ⟨e₃, he₃, rfl⟩ := returns_outside.mp hw
    obtain ⟨rfl, rfl⟩ := Prog.returns_pure.mp h
    obtain ⟨hwa, hwr, hwo⟩ := UploadView.quiet_iff.mp (W.delay 1 _ _ _ he₃)
    refine .inl ⟨rfl, ⟨hts, ?_, ?_⟩, ?_, ?_⟩
    · exact hwa.trans (hva.trans (hua.trans hta))
    · exact hwr.trans (hvr.trans (hur.trans htr))
    · rw [← hready']
      exact hzero
    · rw [← hready']
      exact hwo
  · obtain ⟨p, w, hw, h⟩ := Prog.returns_bind.mp h
    obtain ⟨e, he, rfl⟩ := returns_outside.mp hw
    obtain ⟨hgive, hwa, hwr⟩ := W.streamRead _ _ _ _ he
    refine .inr ⟨a, _, p, _, e, hready'.symm, hne, hgive.symm, rfl, ⟨rfl, ?_, ?_⟩, ?_⟩
    · exact hwa.trans (hva.trans (hua.trans hta))
    · exact hwr.trans (hvr.trans (hur.trans htr))
    · rw [handOn]
      rw [hts] at h
      cases hpoke : poke l.buff 0 p with
      | none =>
        rw [hpoke] at h
        exact h
      | some buff =>
        simp only [hpoke, returns_obj_bind, hc] at h
        exact h

/-- A piece that was read is taken in two tries, or it is an error. -/
theorem handOn_twice {l : CopyState} {p : Bytes} (hlen : p.length < 2 ^ 31) {s : Live C (HTTPClient C)} {x s'}
    (h : (handOn net r l p.length p).Returns s x s') :
    At W (W.accepted s.env ++ p.take (twice W.taken (W.accepted s.env) p)) s s' ∧ W.source s'.env = W.source s.env ∧
      (twice W.taken (W.accepted s.env) p = p.length ∧ (∃ l', x = .next l' ∧
        l'.len = (if l.len > 0 then l.len - p.length else l.len) ∧ l'.bytesWritten = int32 (l.bytesWritten + p.length) ∧
        l'.buff.length = l.buff.length) ∨
      twice W.taken (W.accepted s.env) p ≠ p.length ∧ x = .exit none) := by
  rw [handOn] at h
  split at h
  · exact absurd h Prog.returns_undefined
  rename_i buff hpoke
  obtain ⟨hfits, rfl⟩ := poke_some hpoke
  obtain ⟨m, u, hu, h⟩ := Prog.returns_bind.mp h
  obtain ⟨hat, hsource, hm⟩ := passOn_twice W (by simp) hlen hu
  by_cases hall : twice W.taken (W.accepted s.env) p = p.length
  · rw [if_pos hall] at hm
    subst hm
    obtain ⟨_, v, hv, h⟩ := Prog.returns_bind.mp h
    obtain ⟨e, he, rfl⟩ := returns_outside.mp hv
    obtain ⟨rfl, rfl⟩ := Prog.returns_pure.mp h
    obtain ⟨hva, hvr, hvo⟩ := UploadView.quiet_iff.mp (W.delay 0 _ _ _ he)
    refine ⟨⟨hat.self, hva.trans hat.accepted, hvr.trans hat.rest⟩, hvo.trans hsource, .inl ⟨hall, _, rfl, rfl, rfl, ?_⟩⟩
    simp only [List.length_append, List.length_take, List.length_drop]
    omega
  · rw [if_neg hall] at hm
    subst hm
    obtain ⟨rfl, rfl⟩ := Prog.returns_pure.mp h
    exact ⟨hat, hsource, .inr ⟨hall, rfl⟩⟩

/-- What the loop leaves: the connection has `carried` bytes of the pieces, and
they are counted, or there is an error before the last one. -/
def Carried (s : Live C (HTTPClient C)) (bytesWritten : Int) (ps : List Bytes) (v : Option Int) (s' : Live C (HTTPClient C)) : Prop :=
  let k := carried W.taken (W.up · (W.rest s.env)) (W.accepted s.env) ps
  At W (W.accepted s.env ++ ps.flatten.take k) s s' ∧
    (v = some (int32 (bytesWritten + k)) ∨ v = none ∧ k < ps.flatten.length)

/-- A loop that is left for the last time has carried nothing more. -/
theorem Carried.of_exit {s s' : Live C (HTTPClient C)} {bytesWritten : Int} {ps : List Bytes}
    (hint : int32 bytesWritten = bytesWritten) (hat : At W (W.accepted s.env) s s')
    (hk : carried W.taken (W.up · (W.rest s.env)) (W.accepted s.env) ps = 0) :
    Carried W s bytesWritten ps (some bytesWritten) s' := by
  rw [Carried, hk]
  refine ⟨?_, .inl ?_⟩
  · rw [List.take_zero, List.append_nil]
    exact hat
  · rw [Int.natCast_zero, Int.add_zero, hint]

/-- What a connection that is not up, or a stream that is at its end, makes of the loop. -/
def Stopped (l : CopyState) (s : Live C (HTTPClient C)) : Prop :=
  W.up (W.accepted s.env) (W.rest s.env) = false ∨ ¬ (W.ready (W.source s.env)).1 > -1 ∨ ¬ (l.len > 0 ∨ l.len = -1)

/-- The loop, by its first turn: it is left, waits, or reads a piece. -/
theorem uploadLoop_by {l : CopyState} {s : Live C (HTTPClient C)} {v s'} (hc : s.self._client = some r)
    (h : (Prog.loop (uploadTurn net stream buffSize) l).Returns s v s') :
    (v = some l.bytesWritten ∧ At W (W.accepted s.env) s s' ∧ Stopped W l s) ∨
    (∃ t, ¬ Stopped W l s ∧ At W (W.accepted s.env) s t ∧ (W.ready (W.ready (W.source s.env)).2).1 = 0 ∧
      W.source t.env = (W.ready (W.ready (W.source s.env)).2).2 ∧
      (Prog.loop (uploadTurn net stream buffSize) l).Returns t v s') ∨
    ∃ a x₁ p x₂ e y t, ¬ Stopped W l s ∧ W.ready (W.ready (W.source s.env)).2 = (a, x₁) ∧ a ≠ 0 ∧
      W.give (sizeT (readCount a l.len buffSize)) x₁ = (p, x₂) ∧ W.source e = x₂ ∧ At W (W.accepted s.env) s ⟨s.self, e⟩ ∧
      (handOn net r l (readCount a l.len buffSize) p).Returns ⟨s.self, e⟩ y t ∧
      (y = .exit v ∧ t = s' ∨ ∃ l', y = .next l' ∧ (Prog.loop (uploadTurn net stream buffSize) l').Returns t v s') := by
  have first : ∃ y t, (uploadTurn net stream buffSize l).Returns s y t ∧
      (y = .exit v ∧ t = s' ∨ ∃ l', y = .next l' ∧ (Prog.loop (uploadTurn net stream buffSize) l').Returns t v s') := by
    rcases Prog.returns_loop.mp h with hx | ⟨l', t, hx, hrest⟩
    · exact ⟨_, _, hx, .inl ⟨rfl, rfl⟩⟩
    · exact ⟨_, _, hx, .inr ⟨l', rfl, hrest⟩⟩
  obtain ⟨y, t, hx, hy⟩ := first
  rcases uploadTurn_by W hc hx with ⟨rfl, hat, hstop⟩ | ⟨hup, hready, hgo, hturn⟩
  · rcases hy with ⟨hv, rfl⟩ | ⟨_, hv, _⟩
    · exact .inl ⟨(Turn.exit.inj hv).symm, hat, hstop⟩
    · exact absurd hv (by simp)
  have hgoing : ¬ Stopped W l s := by
    rintro (hdown | hno | hno)
    · exact absurd (hup.symm.trans hdown) (by simp)
    · exact hno hready
    · exact hno hgo
  rcases hturn with ⟨rfl, hat, hzero, hsource⟩ | ⟨a, x₁, p, x₂, e, ha, hne, hgive, he, hat, hrest⟩
  · rcases hy with ⟨hv, _⟩ | ⟨l', hl, hloop⟩
    · exact absurd hv (by simp)
    · obtain rfl := Turn.next.inj hl
      exact .inr (.inl ⟨t, hgoing, hat, hzero, hsource, hloop⟩)
  · exact .inr (.inr ⟨a, x₁, p, x₂, e, y, t, hgoing, ha, hne, hgive, he, hat, hrest, hy⟩)

/-- **The loop carries the stream's pieces.** By induction on what the stream gives. -/
theorem uploadLoop_carried (hsize : buffSize ≤ 1460) {x : σ} {len : Int} {ps : List Bytes} (hps : W.Pieces buffSize x len ps)
    {l : CopyState} {s : Live C (HTTPClient C)} {v s'} (hc : s.self._client = some r) (hlen : l.len = len)
    (hsource : W.source s.env = x) (hint : int32 l.bytesWritten = l.bytesWritten)
    (h : (Prog.loop (uploadTurn net stream buffSize) l).Returns s v s') : Carried W s l.bytesWritten ps v s' := by
  induction hps generalizing l s with
  | enough hno =>
    subst hlen
    have hstop : Stopped W l s := .inr (.inr hno)
    rcases uploadLoop_by W hc h with ⟨rfl, hat, _⟩ | ⟨_, hgo, _⟩ | ⟨_, _, _, _, _, _, _, hgo, _⟩
    · exact .of_exit W hint hat rfl
    · exact absurd hstop hgo
    · exact absurd hstop hgo
  | ended hno =>
    subst hsource
    have hstop : Stopped W l s := .inr (.inl hno)
    rcases uploadLoop_by W hc h with ⟨rfl, hat, _⟩ | ⟨_, hgo, _⟩ | ⟨_, _, _, _, _, _, _, hgo, _⟩
    · exact .of_exit W hint hat rfl
    · exact absurd hstop hgo
    · exact absurd hstop hgo
  | @wait x len ps hready hgo hzero _ ih =>
    subst hsource hlen
    rcases uploadLoop_by W hc h with ⟨rfl, hat, hstop⟩ | ⟨t, _, hat, _, hsource, hloop⟩ | ⟨a, _, _, _, _, _, _, _, ha, hne, _⟩
    · have hdown := hstop.resolve_right (by rintro (h | h); exacts [h hready, h hgo])
      exact .of_exit W hint hat (carried_down hdown ps)
    · have hrest := ih (by rw [hat.self]; exact hc) rfl hsource hint hloop
      rw [Carried, hat.accepted, hat.rest] at hrest
      exact ⟨⟨hrest.1.self.trans hat.self, hrest.1.accepted, hrest.1.rest.trans hat.rest⟩, hrest.2⟩
    · rw [ha] at hzero
      exact absurd hzero hne
  | @piece x len p ps hready hgo hne hgive hfull _ ih =>
    subst hsource hlen
    have hle := readCount_le (W.ready (W.ready (W.source s.env)).2).1 l.len buffSize
    rcases uploadLoop_by W hc h with ⟨rfl, hat, hstop⟩ | ⟨_, _, _, hzero, _⟩ |
      ⟨a, x₁, p', x₂, e, y, t, hup, ha, _, hp, he, hat, hhand, hy⟩
    · have hdown := hstop.resolve_right (by rintro (h | h); exacts [h hready, h hgo])
      exact .of_exit W hint hat (carried_down hdown (p :: ps))
    · exact absurd hzero hne
    have hup : W.up (W.accepted s.env) (W.rest s.env) = true := by
      cases hw : W.up (W.accepted s.env) (W.rest s.env) with
      | true => rfl
      | false => exact absurd (.inl hw) hup
    rw [ha] at hgive hfull hle ih
    dsimp only at hgive hfull hle ih
    rw [hp] at hgive ih
    obtain rfl : p' = p := hgive
    rw [← hfull] at hhand
    obtain ⟨hat', hsource', hturn⟩ := handOn_twice W (by omega) hhand
    have hacc : W.accepted e = W.accepted s.env := hat.accepted
    have hrest : W.rest e = W.rest s.env := hat.rest
    dsimp only at hat' hturn
    rw [hacc] at hat' hturn
    have hself : t.self = s.self := hat'.self
    have hrest' : W.rest t.env = W.rest s.env := hat'.rest.trans hrest
    have hcarried : carried W.taken (W.up · (W.rest s.env)) (W.accepted s.env) (p' :: ps) =
        if twice W.taken (W.accepted s.env) p' = p'.length then
          p'.length + carried W.taken (W.up · (W.rest s.env)) (W.accepted s.env ++ p') ps
        else twice W.taken (W.accepted s.env) p' := by
      rw [carried, if_pos hup]
    rw [Carried, hcarried]
    rcases hturn with ⟨hall, l', rfl, hlen', hcount, -⟩ | ⟨hshort, rfl⟩
    · -- The piece was taken, and the loop goes on.
      rcases hy with ⟨hv, _⟩ | ⟨l₁, hl, hloop⟩
      · exact absurd hv (by simp)
      obtain rfl := Turn.next.inj hl
      have hacc' : W.accepted t.env = W.accepted s.env ++ p' := by rw [hat'.accepted, hall, List.take_length]
      have hih := ih (by rw [hself]; exact hc) hlen' (hsource'.trans he) (by rw [hcount]; exact Int.bmod_bmod ..) hloop
      rw [Carried, hacc', hrest'] at hih
      obtain ⟨hend, hv⟩ := hih
      rw [if_pos hall, List.flatten_cons, List.take_length_add_append]
      refine ⟨⟨hend.self.trans hself, ?_, hend.rest.trans hrest'⟩, ?_⟩
      · rw [hend.accepted, List.append_assoc]
      · rcases hv with rfl | ⟨rfl, hlt⟩
        · refine .inl ?_
          rw [hcount, int32_int32_add, Int.natCast_add, Int.add_assoc]
        · refine .inr ⟨rfl, ?_⟩
          rw [List.length_append]
          omega
    · -- The second try left something.
      rcases hy with ⟨hv, rfl⟩ | ⟨_, hv, _⟩
      · obtain rfl := Turn.exit.inj hv
        have htaken := twice_le W.taken_le (W.accepted s.env) p'
        rw [if_neg hshort, List.flatten_cons, List.take_append_of_le_length htaken]
        refine ⟨⟨hself, hat'.accepted, hrest'⟩, .inr ⟨rfl, ?_⟩⟩
        rw [List.length_append]
        omega
      · exact absurd hv (by simp)

/-! ## The loop returns -/

section Responds

variable (E : Responsive net r stream)

include E

theorem connected_responds {s : Live C (HTTPClient C)} (hc : s.self._client = some r) :
    ∃ b e, (connected net).Returns s b ⟨s.self, e⟩ := by
  obtain ⟨c, e⟩ := s
  have hc : c._client = some r := hc
  obtain ⟨a, e₁, ha⟩ := E.available e
  rw [connected]
  simp only [returns_obj_bind, hc, returns_outside_bind ha]
  by_cases hpos : a > 0
  · exact ⟨true, e₁, by rw [if_pos hpos]; simp⟩
  · obtain ⟨b, e₂, hb⟩ := E.connected e₁
    refine ⟨b, e₂, ?_⟩
    rw [if_neg hpos, returns_outside]
    exact ⟨e₂, hb, rfl⟩

theorem returnError_responds {s : Live C (HTTPClient C)} (hc : s.self._client = some r) (error : Int) :
    ∃ s', (returnError net error).Returns s error s' := by
  by_cases hneg : error < 0
  · obtain ⟨up, e, hup⟩ := connected_responds E hc
    simp only [returnError, if_pos hneg, Prog.returns_bind_of hup]
    cases up with
    | false => exact ⟨_, Prog.returns_pure.mpr ⟨rfl, rfl⟩⟩
    | true =>
      obtain ⟨_, e', hstop⟩ := E.stop e
      refine ⟨⟨s.self, e'⟩, ?_⟩
      rw [if_pos rfl, returns_onClient_bind hc hstop]
      exact Prog.returns_pure.mpr ⟨rfl, rfl⟩
  · refine ⟨s, ?_⟩
    rw [returnError, if_neg hneg]
    exact Prog.returns_pure.mpr ⟨rfl, rfl⟩

include W

theorem getWriteError_zero (e : C) : ∃ e', (net.getWriteError r).Returns e 0 e' := by
  obtain ⟨x, e', h⟩ := E.getWriteError e
  obtain ⟨rfl, -⟩ := W.getWriteError _ _ _ h
  exact ⟨e', h⟩

/-- Both tries of a piece return. -/
theorem passOn_responds {buff p : Bytes} (hbuff : p.length ≤ buff.length) (hlen : p.length < 2 ^ 31) (c : HTTPClient C) (e : C) :
    ∃ m e', (passOn net (net.write r) (net.getWriteError r) (net.clearWriteError r) buff p p.length).Returns
      ⟨c, e⟩ m ⟨c, e'⟩ := by
  obtain ⟨w, e₁, hw⟩ := E.write p e
  have hle := W.taken_le (W.accepted e) p
  rw [← (W.write _ _ _ _ hw).1] at hle
  obtain ⟨e₂, herr⟩ := getWriteError_zero W E e₁
  have hint : int32 (w : Nat) = w := int32_eq (by omega) (by omega)
  obtain ⟨left, hleft⟩ : ∃ left, slice buff w (p.length - w) = some left := by
    clear hint hlen
    exact slice_some (by omega) (by omega) (by omega)
  rw [passOn]
  simp only [returns_outside_bind hw, hint]
  by_cases hcut : (w : Int) = p.length
  · refine ⟨some w, e₂, ?_⟩
    rw [if_neg (fun h => h hcut), returns_outside_bind herr, if_neg (by decide)]
    exact Prog.returns_pure.mpr ⟨rfl, rfl⟩
  · obtain ⟨_, e₃, hdelay⟩ := E.delay 1 e₂
    obtain ⟨w', e₄, hw'⟩ := E.write left e₃
    obtain ⟨e₅, herr'⟩ := getWriteError_zero W E e₄
    rw [if_pos hcut]
    simp only [returns_outside_bind herr, ne_eq, not_true_eq_false, if_false, writeLeft, returns_outside_bind hdelay, hleft,
      returns_outside_bind hw']
    generalize int32 (w' : Nat) = written
    by_cases hshort : written = p.length - w
    · refine ⟨some (w + written), e₅, ?_⟩
      rw [if_neg (fun h => h hshort), returns_outside_bind herr', if_neg (by decide)]
      exact Prog.returns_pure.mpr ⟨rfl, rfl⟩
    · exact ⟨none, e₄, by rw [if_pos hshort]; exact Prog.returns_pure.mpr ⟨rfl, rfl⟩⟩

/-- A turn returns whose read gives what it was asked for, no more than the
buffer holds. -/
theorem uploadTurn_responds {l : CopyState} {s : Live C (HTTPClient C)} (hc : s.self._client = some r)
    (hfull : ∀ a x₁ p x₂, (W.ready (W.source s.env)).1 > -1 → (l.len > 0 ∨ l.len = -1) →
      W.ready (W.ready (W.source s.env)).2 = (a, x₁) → a ≠ 0 → W.give (sizeT (readCount a l.len buffSize)) x₁ = (p, x₂) →
      p.length = readCount a l.len buffSize ∧ p.length ≤ l.buff.length ∧ p.length < 2 ^ 31) :
    ∃ x s', (uploadTurn net stream buffSize l).Returns s x s' := by
  obtain ⟨up, e, hup⟩ := connected_responds E hc
  simp only [uploadTurn, Prog.returns_bind_of hup]
  cases up with
  | false => exact ⟨_, _, Prog.returns_pure.mpr ⟨rfl, rfl⟩⟩
  | true =>
    obtain ⟨a₀, e₁, ha₀⟩ := E.streamAvailable e
    obtain ⟨-, -, hquiet⟩ := connected_up_eq W hc hup
    obtain ⟨-, -, hsource⟩ := UploadView.quiet_iff.mp hquiet
    obtain ⟨hready, -, -⟩ := W.streamAvailable _ _ _ ha₀
    rw [hsource] at hready
    simp only [not_true_eq_false, if_false, returns_outside_bind ha₀]
    by_cases hgo : a₀ > -1 ∧ (l.len > 0 ∨ l.len = -1)
    · rw [if_neg (by rintro (h | h); exacts [h hgo.1, h hgo.2])]
      obtain ⟨a, e₂, ha⟩ := E.streamAvailable e₁
      obtain ⟨hready', -, -⟩ := W.streamAvailable _ _ _ ha
      simp only [returns_outside_bind ha]
      by_cases hzero : a = 0
      · obtain ⟨_, e₃, hdelay⟩ := E.delay 1 e₂
        refine ⟨.next l, ⟨s.self, e₃⟩, ?_⟩
        rw [if_pos hzero, returns_outside_bind hdelay]
        exact Prog.returns_pure.mpr ⟨rfl, rfl⟩
      · obtain ⟨p, e₃, hread⟩ := E.streamRead (sizeT (readCount a l.len buffSize)) e₂
        obtain ⟨hgive, -, -⟩ := W.streamRead _ _ _ _ hread
        have ha₀' : (W.ready (W.source s.env)).1 = a₀ := congrArg Prod.fst hready.symm
        have hx₁ : (W.ready (W.source s.env)).2 = W.source e₁ := congrArg Prod.snd hready.symm
        obtain ⟨hlen, hfits, hint⟩ := hfull a (W.source e₂) p (W.source e₃) (by rw [ha₀']; exact hgo.1) hgo.2
          (by rw [hx₁]; exact hready'.symm) hzero hgive.symm
        obtain ⟨buff, hpoke, hbuff⟩ := poke_zero hfits
        obtain ⟨m, e₄, hpass⟩ := passOn_responds W E (show p.length ≤ buff.length by omega) hint s.self e₃
        obtain ⟨_, e₅, hdelay⟩ := E.delay 0 e₄
        rw [hlen] at hpass
        simp only [if_neg hzero, returns_outside_bind hread, hpoke, returns_obj_bind, hc, Prog.returns_bind_of hpass]
        cases m with
        | none => exact ⟨_, _, Prog.returns_pure.mpr ⟨rfl, rfl⟩⟩
        | some k => exact ⟨_, _, (returns_outside_bind hdelay).mpr (Prog.returns_pure.mpr ⟨rfl, rfl⟩)⟩
    · have hstop : ¬ a₀ > -1 ∨ ¬ (l.len > 0 ∨ l.len = -1) := not_and_or.mp hgo
      refine ⟨.exit (some l.bytesWritten), ⟨s.self, e₁⟩, ?_⟩
      rw [if_pos hstop]
      exact Prog.returns_pure.mpr ⟨rfl, rfl⟩

omit E W in
theorem loop_ends_of {body : CopyState → Prog (Live C (HTTPClient C)) (Turn CopyState (Option Int))} {l : CopyState}
    {s : Live C (HTTPClient C)} {y t} (hturn : (body l).Returns s y t)
    (hnext : ∀ l', y = .next l' → ∃ v s', (Prog.loop body l').Returns t v s') : ∃ v s', (Prog.loop body l).Returns s v s' := by
  cases y with
  | exit v => exact ⟨v, t, Prog.returns_loop.mpr (.inl hturn)⟩
  | next l' =>
    obtain ⟨v, s', hloop⟩ := hnext l' rfl
    exact ⟨v, s', Prog.returns_loop.mpr (.inr ⟨l', t, hturn, hloop⟩)⟩

/-- **The loop returns.** By induction on what the stream gives. -/
theorem uploadLoop_responds (hsize : buffSize ≤ 1460) {x : σ} {len : Int} {ps : List Bytes} (hps : W.Pieces buffSize x len ps)
    {l : CopyState} {s : Live C (HTTPClient C)} (hc : s.self._client = some r) (hlen : l.len = len) (hsource : W.source s.env = x)
    (hbuff : buffSize ≤ l.buff.length) : ∃ v s', (Prog.loop (uploadTurn net stream buffSize) l).Returns s v s' := by
  induction hps generalizing l s with
  | enough hno =>
    subst hlen
    obtain ⟨y, t, hturn⟩ := uploadTurn_responds (l := l) W E hc fun _ _ _ _ _ hgo => absurd hgo hno
    refine loop_ends_of hturn ?_
    rintro l' rfl
    rcases uploadTurn_by W hc hturn with ⟨h, -⟩ | ⟨-, -, hgo, -⟩
    · exact nomatch h
    · exact absurd hgo hno
  | ended hno =>
    subst hsource
    obtain ⟨y, t, hturn⟩ := uploadTurn_responds (l := l) W E hc fun _ _ _ _ hready => absurd hready hno
    refine loop_ends_of hturn ?_
    rintro l' rfl
    rcases uploadTurn_by W hc hturn with ⟨h, -⟩ | ⟨-, hready, -⟩
    · exact nomatch h
    · exact absurd hready hno
  | wait hready hgo hzero _ ih =>
    subst hsource hlen
    obtain ⟨y, t, hturn⟩ := uploadTurn_responds (l := l) W E hc fun a _ _ _ _ _ ha hne => by
      rw [ha] at hzero
      exact absurd hzero hne
    refine loop_ends_of hturn ?_
    rintro l' rfl
    rcases uploadTurn_by W hc hturn with ⟨h, -⟩ | ⟨-, -, -, ⟨h, hat, -, hsource⟩ | ⟨a, _, _, _, _, ha, hne, -⟩⟩
    · exact nomatch h
    · obtain rfl := Turn.next.inj h
      exact ih (by rw [hat.self]; exact hc) rfl hsource hbuff
    · rw [ha] at hzero
      exact absurd hzero hne
  | piece hready hgo hne hgive hfull _ ih =>
    subst hsource hlen
    have hle := readCount_le (W.ready (W.ready (W.source s.env)).2).1 l.len buffSize
    obtain ⟨y, t, hturn⟩ := uploadTurn_responds (l := l) W E hc fun a x₁ p' x₂ _ _ ha _ hp => by
      rw [ha] at hgive hfull hle
      dsimp only at hgive hfull hle
      rw [hp] at hgive
      obtain rfl : p' = _ := hgive
      exact ⟨hfull, by omega, by omega⟩
    refine loop_ends_of hturn ?_
    rintro l' rfl
    rcases uploadTurn_by W hc hturn with ⟨h, -⟩ | ⟨-, -, -, ⟨-, -, hzero, -⟩ | ⟨a, x₁, p', x₂, e, ha, -, hp, he, hat, hhand⟩⟩
    · exact nomatch h
    · exact absurd hzero hne
    rw [ha] at hgive hfull hle ih
    dsimp only at hgive hfull hle ih
    rw [hp] at hgive ih
    obtain rfl : p' = _ := hgive
    rw [← hfull] at hhand
    obtain ⟨hat', hsource', ⟨-, l₁, h, hlen', -, hbuff'⟩ | ⟨-, h⟩⟩ := handOn_twice W (by omega) hhand
    · obtain rfl := Turn.next.inj h
      exact ih (by rw [hat'.self]; exact hc) hlen' (hsource'.trans he) (by rw [hbuff']; exact hbuff)
    · exact nomatch h

end Responds

/-! ## The response -/

/-- Two runs that are at the same point, the second `d` ms later, when the
connection `r` has the bytes `acc`. -/
structure Beside (acc : Bytes) (d : Int) (s s' : Live C (HTTPClient C)) : Prop where
  self : s.self = s'.self
  client : s.self._client = some r
  twin : W.Twin d s.env s'.env
  accepted : W.accepted s.env = acc

variable {acc : Bytes} {d : Int}

theorem outside_beside {α : Type} {x : Prog C α} (hx : Blind (W.Twin d) x) (hkeeps : x.Guarantees (.same W.accepted)) :
    Blind (Beside W acc d) (outside x) := by
  intro s s' hs a t h
  obtain ⟨e, he, rfl⟩ := returns_outside.mp h
  obtain ⟨b, e', he', rfl, htwin⟩ := hx _ _ hs.twin a e he
  exact ⟨a, _, returns_outside.mpr ⟨e', he', rfl⟩, rfl, hs.self, hs.client, htwin, (hkeeps _ _ _ he).trans hs.accepted⟩

theorem onClient_beside {α : Type} {f : Ref → Prog C α} (hx : Blind (W.Twin d) (f r))
    (hkeeps : (f r).Guarantees (.same W.accepted)) : Blind (Beside W acc d) (onClient f) := by
  intro s s' hs a t h
  rw [onClient, returns_obj_bind] at h
  simp only [hs.client] at h
  obtain ⟨b, t', h', hbeside⟩ := outside_beside W hx hkeeps s s' hs a t h
  refine ⟨b, t', ?_, hbeside⟩
  rw [onClient, returns_obj_bind]
  simp only [← hs.self, hs.client]
  exact h'

theorem obj_beside : Blind (Beside W acc d) obj := Blind.gets fun _ _ h => h.self

theorem set_beside {f : HTTPClient C → HTTPClient C} (h : ∀ c, (f c)._client = c._client) :
    Blind (Beside W acc d) (set f) :=
  Blind.modify fun s _ hs => ⟨congrArg f hs.self, (h s.self).trans hs.client, hs.twin, hs.accepted⟩

theorem quiet_keeps {α : Type} {x : Prog C α} (h : ∀ e a e', x.Returns e a e' → W.quiet.rel e e') :
    x.Guarantees (.same W.accepted) :=
  fun e a e' he => (UploadView.quiet_iff.mp (h e a e' he)).1

theorem available_beside : Blind (Beside W acc d) (onClient net.available) :=
  onClient_beside W (W.pollsBlind d) (quiet_keeps W fun e a e' he => (W.available e a e' he).2)

theorem connected_beside : Blind (Beside W acc d) (connected net) := by
  intro s s' hs b t h
  rw [connected, returns_obj_bind] at h
  simp only [hs.client] at h
  have body : Blind (Beside W acc d) (do
      if (← outside (net.available r)) > 0 then
        return true
      outside (net.connected r) : Prog (Live C (HTTPClient C)) Bool) := by
    refine .bind (outside_beside W (W.pollsBlind d) ?_) fun _ => .ite .pure (outside_beside W (W.upBlind d) ?_)
    · exact quiet_keeps W fun e a e' he => (W.available e a e' he).2
    · exact quiet_keeps W fun e a e' he => (W.connected e a e' he).2
  obtain ⟨b', t', h', hbeside⟩ := body s s' hs b t h
  refine ⟨b', t', ?_, hbeside⟩
  rw [connected, returns_obj_bind]
  simp only [← hs.self, hs.client]
  exact h'

theorem millis_beside : Follows (Beside W acc d) (outside net.millis) (outside net.millis) fun m m' s s' =>
    (m' - m - d : Int) % 2 ^ 32 = 0 ∧ Beside W acc d s s' := by
  intro s s' hs m t h
  obtain ⟨e, he, rfl⟩ := returns_outside.mp h
  obtain ⟨m', e', he', hshift, htwin⟩ := W.millis d _ _ hs.twin m e he
  exact ⟨m', _, returns_outside.mpr ⟨e', he', rfl⟩, hshift, hs.self, hs.client, htwin, (W.millisKeeps _ _ _ he).trans hs.accepted⟩

theorem delay_beside (n : Nat) : Blind (Beside W acc d) (outside (net.delay n)) :=
  outside_beside W (W.delayBlind d n) (quiet_keeps W fun e a e' he => W.delay n e a e' he)

theorem headerLine_client (line te : Bytes) (c : HTTPClient C) : (headerLine line te c).1._client = c._client := by
  rw [headerLine]
  split
  · rfl
  · split <;> rfl

theorem endOfHead_beside (te : Bytes) : Blind (Beside W acc d) (endOfHead te) := by
  have encoding (t : TransferEncoding) : Blind (Beside W acc d) (set fun c => { c with _transferEncoding := t }) :=
    set_beside W fun _ => rfl
  refine .ite (.ite (.bind (encoding _) fun _ => ?_) .pure) (.bind (encoding _) fun _ => ?_)
  · exact .bind (obj_beside W) fun _ => .pure
  · exact .bind (obj_beside W) fun _ => .pure

/-- The locals of the two runs: the second clock is `d` ms ahead. -/
def Ahead (d : Int) (l l' : HeadState) : Prop :=
  l.transferEncoding = l'.transferEncoding ∧ (l'.lastDataTime - l.lastDataTime - d : Int) % 2 ^ 32 = 0

/-- Where the two turns go. -/
def Abreast (acc : Bytes) (d : Int) : Turn HeadState Int → Turn HeadState Int → Live C (HTTPClient C) → Live C (HTTPClient C) → Prop
  | .next l, .next l', s, s' => Ahead d l l' ∧ Beside W acc d s s'
  | .exit v, .exit v', s, s' => v = v' ∧ Beside W acc d s s'
  | _, _, _, _ => False

theorem headTurn_beside {l l' : HeadState} (hl : Ahead d l l') :
    Follows (Beside W acc d) (headTurn net l) (headTurn net l') (Abreast W acc d) := by
  obtain ⟨hte, htime⟩ := hl
  refine (connected_beside W).follows fun up => Follows.ite Iff.rfl (fun _ => .pure fun _ _ h => ⟨rfl, h⟩) fun _ => ?_
  refine (available_beside W).follows fun a => Follows.ite Iff.rfl (fun _ => ?_) fun _ => ?_
  · refine (onClient_beside W (W.lineBlind d) W.lineKeeps).follows fun line => ?_
    refine Follows.bind (millis_beside W) fun now now' => .assume fun hshift => ?_
    rw [hte]
    refine (obj_beside W).follows fun c => (set_beside W (headerLine_client _ _)).follows fun _ => ?_
    refine Follows.ite Iff.rfl (fun _ => ?_) fun _ => .pure fun _ _ h => ⟨⟨rfl, hshift⟩, h⟩
    exact (endOfHead_beside W _).follows fun v => .pure fun _ _ h => ⟨rfl, h⟩
  · refine Follows.bind (millis_beside W) fun now now' => .assume fun hshift => ?_
    have helapsed : sizeT (now - l.lastDataTime) = sizeT (now' - l'.lastDataTime) := by
      rw [sizeT, sizeT, show (now - l.lastDataTime : Int) % 2 ^ 32 = (now' - l'.lastDataTime : Int) % 2 ^ 32 by omega]
    refine (obj_beside W).follows fun c => Follows.ite (by rw [helapsed]) (fun _ => .pure fun _ _ h => ⟨rfl, h⟩) fun _ => ?_
    exact (delay_beside W 10).follows fun _ => .pure fun _ _ h => ⟨⟨hte, htime⟩, h⟩

theorem handleHeaderResponse_beside : Blind (Beside W acc d) (handleHeaderResponse net) := by
  have cleared : Blind (Beside W acc d) clear := set_beside W fun _ => rfl
  have prepared : Blind (Beside W acc d) (set fun c => { c with _canReuse := c._reuse, _transferEncoding := .identity }) :=
    set_beside W fun _ => rfl
  refine (connected_beside W).follows fun up => Follows.ite Iff.rfl (fun _ => .pure fun _ _ h => ⟨rfl, h⟩) fun _ => ?_
  refine cleared.follows fun _ => prepared.follows fun _ => ?_
  refine Follows.bind (millis_beside W) fun now now' => .assume fun hshift => ?_
  have loop : Follows (fun s s' => Ahead d { lastDataTime := now } { lastDataTime := now' } ∧ Beside W acc d s s')
      (Prog.loop (headTurn net) { lastDataTime := now }) (Prog.loop (headTurn net) { lastDataTime := now' })
      fun v v' s s' => v = v' ∧ Beside W acc d s s' := by
    refine Follows.loop (fun l l' s s' => Ahead d l l' ∧ Beside W acc d s s') (fun l l' => .assume fun hl => ?_) _ _
    refine (headTurn_beside W hl).post fun x x' s s' h => ?_
    cases x <;> cases x' <;> exact h
  exact fun s s' h => loop s s' ⟨⟨rfl, hshift⟩, h⟩

theorem returnError_beside (error : Int) : Blind (Beside W acc d) (returnError net error) := by
  refine .ite (.bind (connected_beside W) fun _ => .ite (.bind ?_ fun _ => .pure) .pure) .pure
  exact onClient_beside W (W.stopBlind d) W.stopKeeps

theorem response_beside : Blind (Beside W acc d) (handleHeaderResponse net >>= returnError net) :=
  .bind (handleHeaderResponse_beside W) fun error => returnError_beside W error

theorem Beside.refl {s : Live C (HTTPClient C)} (hc : s.self._client = some r) (hacc : W.accepted s.env = acc) :
    Beside W acc 0 s s :=
  ⟨rfl, hc, ⟨rfl, rfl, (Int.add_zero _).symm⟩, hacc⟩

/-! ## The two ways -/

/-- A request with a payload of `n` bytes, which `k` sends. -/
def withHead (net : Connection C) (type : Bytes) (n : Nat) (k : Prog (Live C (HTTPClient C)) Int) :
    Prog (Live C (HTTPClient C)) Int := do
  if ¬ (← connect net) then
    returnError net errorConnectionRefused
  else
    addHeader (bytes "Content-Length") (Str.ofNat n) false true
    if ¬ (← sendHeader net type) then
      returnError net errorSendHeaderFailed
    else
      k

def sendBuffer (net : Connection C) (payload : Bytes) : Prog (Live C (HTTPClient C)) Int := do
  if (← onClient fun r => net.write r payload) ≠ payload.length then
    returnError net errorSendPayloadFailed
  else
    returnError net (← handleHeaderResponse net)

def sendPieces (net : Connection C) (stream : AppStream C) (n : Nat) : Prog (Live C (HTTPClient C)) Int := do
  let error ← sendStream net stream n
  if error < 0 then
    returnError net error
  else
    returnError net (← handleHeaderResponse net)

theorem sendRequest_eq {type payload : Bytes} (hne : payload ≠ []) :
    sendRequest net type payload = withHead net type payload.length (sendBuffer net payload) := by
  simp only [sendRequest, withHead, sendBuffer, hne, ne_eq, not_false_eq_true, if_true]

theorem sendRequestStream_eq {type : Bytes} {n : Nat} (hpos : 0 < n) :
    sendRequestStream net type (some stream) n = withHead net type n (sendPieces net stream n) := by
  simp only [sendRequestStream, withHead, sendPieces, hpos, if_true]

/-- From `s` on the head was sent, to `t`. -/
def HeadSent (net : Connection C) (type : Bytes) (n : Nat) (s t : Live C (HTTPClient C)) : Prop :=
  ∃ s₁ s₂, (connect net).Returns s true s₁ ∧
    (addHeader (bytes "Content-Length") (Str.ofNat n) false true).Returns s₁ () s₂ ∧ (sendHeader net type).Returns s₂ true t

theorem HeadSent.unique {type : Bytes} {n : Nat} {s t t' : Live C (HTTPClient C)} (h : HeadSent net type n s t)
    (h' : HeadSent net type n s t') : t = t' := by
  obtain ⟨s₁, s₂, hconn, hadd, hsend⟩ := h
  obtain ⟨s₁', s₂', hconn', hadd', hsend'⟩ := h'
  obtain ⟨_, rfl⟩ := hconn.det hconn'
  obtain ⟨_, rfl⟩ := hadd.det hadd'
  exact (hsend.det hsend').2

theorem withHead_sent {type : Bytes} {n : Nat} {k : Prog (Live C (HTTPClient C)) Int} {s t : Live C (HTTPClient C)}
    (h : HeadSent net type n s t) {v s'} : (withHead net type n k).Returns s v s' ↔ k.Returns t v s' := by
  obtain ⟨s₁, s₂, hconn, hadd, hsend⟩ := h
  rw [withHead, Prog.returns_bind_of hconn, if_neg (by decide), Prog.returns_bind_of hadd, Prog.returns_bind_of hsend,
    if_neg (by decide)]

/-- Where the head was not sent, what follows it does not matter. -/
theorem withHead_unsent {type : Bytes} {n : Nat} {k k' : Prog (Live C (HTTPClient C)) Int} {s : Live C (HTTPClient C)}
    (hno : ∀ t, ¬ HeadSent net type n s t) {v s'} (h : (withHead net type n k).Returns s v s') :
    (withHead net type n k').Returns s v s' := by
  obtain ⟨b, s₁, hconn, h⟩ := Prog.returns_bind.mp h
  refine Prog.returns_bind.mpr ⟨b, s₁, hconn, ?_⟩
  cases b with
  | false => exact h
  | true =>
    obtain ⟨_, s₂, hadd, h⟩ := Prog.returns_bind.mp h
    obtain ⟨b, t, hsend, h⟩ := Prog.returns_bind.mp h
    refine Prog.returns_bind.mpr ⟨(), s₂, hadd, Prog.returns_bind.mpr ⟨b, t, hsend, ?_⟩⟩
    cases b with
    | false => exact h
    | true => exact absurd ⟨s₁, s₂, hconn, hadd, hsend⟩ (hno t)

/-- How a request goes on whose connection has taken `k` bytes of the payload. -/
def conclude (net : Connection C) (payload : Bytes) (k : Nat) : Prog (Live C (HTTPClient C)) Int :=
  if k = payload.length then handleHeaderResponse net >>= returnError net
  else returnError net errorSendPayloadFailed

theorem conclude_beside (payload : Bytes) (k : Nat) : Blind (Beside W acc d) (conclude net payload k) :=
  .ite (response_beside W) (returnError_beside W errorSendPayloadFailed)

theorem sendBuffer_returns (E : Responsive net r stream) (payload : Bytes) {t : Live C (HTTPClient C)} (hc : t.self._client = some r) :
    ∃ u, At W (W.accepted t.env ++ payload.take (W.taken (W.accepted t.env) payload)) t u ∧
      ∀ v s', (sendBuffer net payload).Returns t v s' ↔
        (conclude net payload (W.taken (W.accepted t.env) payload)).Returns u v s' := by
  obtain ⟨w, e, he⟩ := E.write payload t.env
  obtain ⟨rfl, hacc, hrest, -⟩ := W.write _ _ _ _ he
  refine ⟨⟨t.self, e⟩, ⟨rfl, hacc, hrest⟩, fun v s' => ?_⟩
  rw [sendBuffer, returns_onClient_bind hc he, conclude]
  by_cases hall : W.taken (W.accepted t.env) payload = payload.length
  · rw [if_pos hall, if_neg (fun h => h hall)]
  · rw [if_neg hall, if_pos hall]

/-- There is memory for the buffer of the stream's way. -/
def HasBlock (net : Connection C) (n : Nat) (t : Live C (HTTPClient C)) : Prop :=
  ∃ buff e, (net.malloc (blockSize (uploadLen n)).toNat).Returns t.env (some buff) e

/-- The loop wants bytes at all: not where the size is no `int`. -/
def Wanted (n : Nat) : Prop := uploadLen n > 0 ∨ uploadLen n = -1

/-- From `t` on the stream gives the loop the payload in the pieces `ps`, as
many bytes in each read as it was asked for. -/
structure Offers (payload : Bytes) (t : Live C (HTTPClient C)) (ps : List Bytes) : Prop where
  pieces : W.Pieces (blockSize (uploadLen payload.length)) (W.source t.env) (uploadLen payload.length) ps
  flatten : Wanted payload.length → ps.flatten = payload

/-- What the connection takes of the pieces, it takes of the payload. -/
theorem Offers.carried {payload : Bytes} (hne : payload ≠ []) {t : Live C (HTTPClient C)} {ps : List Bytes} (h : Offers W payload t ps) {k : Nat}
    (hk : k ≤ ps.flatten.length) :
    k ≤ payload.length ∧ ps.flatten.take k = payload.take k ∧ (k < ps.flatten.length → k < payload.length) := by
  by_cases hw : Wanted payload.length
  · rw [h.flatten hw] at hk ⊢
    exact ⟨hk, rfl, id⟩
  · -- Where no bytes are wanted there are no pieces.
    obtain rfl : ps = [] := by
      cases h.pieces with
      | enough => rfl
      | ended => rfl
      | wait _ hgo => exact absurd hgo hw
      | piece _ hgo => exact absurd hgo hw
    obtain rfl : k = 0 := Nat.le_zero.mp hk
    exact ⟨Nat.zero_le _, rfl, fun _ => List.length_pos_of_ne_nil hne⟩

theorem sendPieces_noBlock (E : Responsive net r stream) {n : Nat} {t : Live C (HTTPClient C)} (hc : t.self._client = some r)
    (hno : ¬ HasBlock net n t) : ∃ s', (sendPieces net stream n).Returns t errorTooLessRam s' ∧ W.accepted s'.env = W.accepted t.env := by
  obtain ⟨block, e, he⟩ := E.malloc (blockSize (uploadLen n)).toNat t.env
  cases block with
  | some buff => exact absurd ⟨buff, e, he⟩ hno
  | none =>
    obtain ⟨hquiet, -⟩ := W.malloc _ _ _ _ he
    obtain ⟨s', hs'⟩ := returnError_responds E (s := ⟨t.self, e⟩) hc errorTooLessRam
    have hstream : (sendStream net stream n).Returns t errorTooLessRam ⟨t.self, e⟩ :=
      (returns_outside_bind he).mpr (Prog.returns_pure.mpr ⟨rfl, rfl⟩)
    refine ⟨s', ?_, ?_⟩
    · rw [sendPieces, Prog.returns_bind_of hstream, if_pos (by decide)]
      exact hs'
    · rw [((returnError_beside W errorTooLessRam).keeps hs' (.refl W hc rfl)).accepted]
      exact (UploadView.quiet_iff.mp hquiet).1

theorem sendPieces_returns (E : Responsive net r stream) {payload : Bytes} (hne : payload ≠ []) (hsize : payload.length < 2 ^ 32)
    {ps : List Bytes} {t : Live C (HTTPClient C)} (hps : Offers W payload t ps) (hc : t.self._client = some r)
    (hblock : HasBlock net payload.length t) : ∃ u,
      At W (W.accepted t.env ++ payload.take (carried W.taken (W.up · (W.rest t.env)) (W.accepted t.env) ps)) t u ∧
      ∀ v s', (sendPieces net stream payload.length).Returns t v s' ↔
        (conclude net payload (carried W.taken (W.up · (W.rest t.env)) (W.accepted t.env) ps)).Returns u v s' := by
  obtain ⟨buff, e, he⟩ := hblock
  obtain ⟨hquiet, hlen⟩ := W.malloc _ _ _ _ he
  obtain ⟨hacc, hrest, hsource⟩ := UploadView.quiet_iff.mp hquiet
  have hrange := blockSize_range (uploadLen payload.length)
  have hint : int32 0 = 0 := by decide
  have hbuff : blockSize (uploadLen payload.length) ≤ buff.length := by
    rw [hlen buff rfl]
    omega
  obtain ⟨m, u, hloop⟩ := uploadLoop_responds (l := { len := uploadLen payload.length, buff := buff }) (s := ⟨t.self, e⟩)
    W E hrange.2 hps.pieces hc (by dsimp only) hsource hbuff
  have hcarried := uploadLoop_carried W (l := { len := uploadLen payload.length, buff := buff }) (s := ⟨t.self, e⟩)
    hrange.2 hps.pieces hc (by dsimp only) hsource hint hloop
  rw [Carried] at hcarried
  dsimp only at hcarried
  rw [hacc, hrest] at hcarried
  have hle : carried W.taken (W.up · (W.rest t.env)) (W.accepted t.env) ps ≤ ps.flatten.length := carried_le W.taken_le _ ps
  obtain ⟨hk, htake, hcut⟩ := hps.carried W hne hle
  generalize carried W.taken (W.up · (W.rest t.env)) (W.accepted t.env) ps = k at hcarried hk htake hcut ⊢
  obtain ⟨hat, hm⟩ := hcarried
  rw [htake] at hat
  refine ⟨u, ⟨hat.self, hat.accepted, hat.rest.trans hrest⟩, fun v s' => ?_⟩
  have hresult : uploadResult payload.length m = if k = payload.length then 0 else errorSendPayloadFailed := by
    rcases hm with rfl | ⟨rfl, hlt⟩
    · have hiff := int32_natCast_inj hsize (show k < 2 ^ 32 by omega)
      have hpos := List.length_pos_of_ne_nil hne
      rw [Int.zero_add, uploadResult]
      by_cases hkn : k = payload.length
      · rw [if_pos hkn, if_neg (fun h => h.2 (hiff.mpr hkn.symm))]
      · rw [if_neg hkn, if_pos ⟨by omega, fun h => hkn (hiff.mp h).symm⟩]
    · rw [if_neg (Nat.ne_of_lt (hcut hlt)), uploadResult]
  rw [sendPieces, Prog.returns_bind_of (sendStream_of_loop he hloop), hresult, conclude]
  by_cases hkn : k = payload.length
  · rw [if_pos hkn, if_pos hkn, if_neg (by decide)]
  · rw [if_neg hkn, if_neg hkn, if_pos (by decide)]

/-- **Agreement**: whenever one of the two ways returns so does the other, with
the same result and the same bytes on the connection. -/
def Agree (type payload : Bytes) (s : Live C (HTTPClient C)) : Prop :=
  ∀ v acc, (∃ s', (sendRequest net type payload).Returns s v s' ∧ W.accepted s'.env = acc) ↔
    ∃ s', (sendRequestStream net type (some stream) payload.length).Returns s v s' ∧ W.accepted s'.env = acc

/-- There is memory for the buffer, and one write of the payload takes as many
bytes as its pieces do with two writes each. -/
def TakesEvenly (payload : Bytes) (t : Live C (HTTPClient C)) (ps : List Bytes) : Prop :=
  HasBlock net payload.length t ∧
    W.taken (W.accepted t.env) payload = carried W.taken (W.up · (W.rest t.env)) (W.accepted t.env) ps

theorem agree_unsent {type payload : Bytes} (hne : payload ≠ []) {s : Live C (HTTPClient C)}
    (hno : ∀ t, ¬ HeadSent net type payload.length s t) : Agree W type payload s := by
  intro v acc
  rw [sendRequest_eq hne, sendRequestStream_eq (List.length_pos_of_ne_nil hne)]
  exact ⟨fun ⟨s', h, hacc⟩ => ⟨s', withHead_unsent hno h, hacc⟩, fun ⟨s', h, hacc⟩ => ⟨s', withHead_unsent hno h, hacc⟩⟩

theorem agree_sent {type payload : Bytes} (hne : payload ≠ []) {s t : Live C (HTTPClient C)}
    (hsent : HeadSent net type payload.length s t) : Agree W type payload s ↔ ∀ v acc,
      (∃ s', (sendBuffer net payload).Returns t v s' ∧ W.accepted s'.env = acc) ↔
        ∃ s', (sendPieces net stream payload.length).Returns t v s' ∧ W.accepted s'.env = acc := by
  rw [Agree, sendRequest_eq hne, sendRequestStream_eq (List.length_pos_of_ne_nil hne)]
  simp only [withHead_sent hsent]

theorem conclude_accepted {payload : Bytes} {k : Nat} {u : Live C (HTTPClient C)} {v s'} (hc : u.self._client = some r)
    (h : (conclude net payload k).Returns u v s') : W.accepted s'.env = W.accepted u.env :=
  ((conclude_beside W payload k).keeps h (.refl W hc rfl)).accepted

/-- Two requests of which the connection has taken the same go on alike. -/
theorem conclude_alike {payload : Bytes} {k : Nat} {u u' : Live C (HTTPClient C)} (hc : u.self._client = some r)
    (hself : u'.self = u.self) (hacc : W.accepted u'.env = W.accepted u.env) (hrest : W.rest u'.env = W.rest u.env) {v acc}
    (h : ∃ s', (conclude net payload k).Returns u v s' ∧ W.accepted s'.env = acc) :
    ∃ s', (conclude net payload k).Returns u' v s' ∧ W.accepted s'.env = acc := by
  obtain ⟨s', hs', rfl⟩ := h
  have hbeside : Beside W (W.accepted u.env) (W.clock u'.env - W.clock u.env) u u' :=
    ⟨hself.symm, hc, ⟨hacc.symm, hrest.symm, by omega⟩, rfl⟩
  obtain ⟨v', t', ht', rfl, hend⟩ := conclude_beside W payload k u u' hbeside v s' hs'
  exact ⟨t', ht', hend.twin.accepted.symm⟩

/-- Where as much is taken both ways, what follows is the same. -/
theorem agree_of_evenly (E : Responsive net r stream) {type payload : Bytes} (hne : payload ≠ []) (hsize : payload.length < 2 ^ 32)
    {s t : Live C (HTTPClient C)} (hsent : HeadSent net type payload.length s t) (hc : t.self._client = some r) {ps : List Bytes}
    (hps : Offers W payload t ps) (h : TakesEvenly W payload t ps) : Agree W type payload s := by
  obtain ⟨hblock, heq⟩ := h
  obtain ⟨u₁, hat₁, hiff₁⟩ := sendBuffer_returns W E payload hc
  obtain ⟨u₂, hat₂, hiff₂⟩ := sendPieces_returns W E hne hsize hps hc hblock
  rw [← heq] at hat₂ hiff₂
  have hself : u₂.self = u₁.self := hat₂.self.trans hat₁.self.symm
  have hacc : W.accepted u₂.env = W.accepted u₁.env := hat₂.accepted.trans hat₁.accepted.symm
  have hrest : W.rest u₂.env = W.rest u₁.env := hat₂.rest.trans hat₁.rest.symm
  have hc₁ : u₁.self._client = some r := by rw [hat₁.self]; exact hc
  have hc₂ : u₂.self._client = some r := by rw [hat₂.self]; exact hc
  rw [agree_sent W hne hsent]
  intro v acc
  simp only [hiff₁, hiff₂]
  exact ⟨conclude_alike W hc₁ hself hacc hrest, conclude_alike W hc₂ hself.symm hacc.symm hrest.symm⟩

/-- Where not as much is taken, one of the two breaks off, and the other does
not with the same bytes. -/
theorem evenly_of_agree (E : Responsive net r stream) {type payload : Bytes} (hne : payload ≠ []) (hsize : payload.length < 2 ^ 32)
    {s t : Live C (HTTPClient C)} (hsent : HeadSent net type payload.length s t) (hc : t.self._client = some r) {ps : List Bytes}
    (hps : Offers W payload t ps) (h : Agree W type payload s) : TakesEvenly W payload t ps := by
  rw [agree_sent W hne hsent] at h
  obtain ⟨u₁, hat₁, hiff₁⟩ := sendBuffer_returns W E payload hc
  have hc₁ : u₁.self._client = some r := by rw [hat₁.self]; exact hc
  have hw := W.taken_le (W.accepted t.env) payload
  have hpos := List.length_pos_of_ne_nil hne
  have hblock : HasBlock net payload.length t := by
    by_contra hno
    obtain ⟨s₂, h₂, hacc₂⟩ := sendPieces_noBlock W E hc hno
    -- Without memory nothing is sent, and the error is another one.
    obtain ⟨s₁, h₁, hacc₁⟩ := (h errorTooLessRam _).mpr ⟨s₂, h₂, hacc₂⟩
    rw [hiff₁] at h₁
    have hnone := conclude_accepted W hc₁ h₁
    rw [hacc₁, hat₁.accepted] at hnone
    have := congrArg List.length hnone
    rw [List.length_append, List.length_take] at this
    rw [conclude, if_neg (by omega)] at h₁
    exact absurd (returnError_returns h₁).1 (by decide)
  refine ⟨hblock, ?_⟩
  obtain ⟨u₂, hat₂, hiff₂⟩ := sendPieces_returns W E hne hsize hps hc hblock
  have hc₂ : u₂.self._client = some r := by rw [hat₂.self]; exact hc
  have hle : carried W.taken (W.up · (W.rest t.env)) (W.accepted t.env) ps ≤ ps.flatten.length := carried_le W.taken_le _ ps
  obtain ⟨hk, -⟩ := hps.carried W hne hle
  clear hle
  generalize carried W.taken (W.up · (W.rest t.env)) (W.accepted t.env) ps = k at hat₂ hiff₂ hk ⊢
  generalize W.taken (W.accepted t.env) payload = w at hat₁ hiff₁ hw ⊢
  simp only [hiff₁, hiff₂] at h
  -- Where one of them returns, so does the other, with the same bytes.
  have same {v s₁ s₂} (h₁ : (conclude net payload w).Returns u₁ v s₁) (h₂ : (conclude net payload k).Returns u₂ v s₂)
      (hacc : W.accepted s₂.env = W.accepted s₁.env) : w = k := by
    rw [conclude_accepted W hc₂ h₂, conclude_accepted W hc₁ h₁, hat₁.accepted, hat₂.accepted, List.append_cancel_left_eq] at hacc
    have := congrArg List.length hacc
    rw [List.length_take, List.length_take] at this
    omega
  by_cases hcut : w = payload.length
  · by_cases hcut' : k = payload.length
    · exact hcut.trans hcut'.symm
    · obtain ⟨s₂, h₂⟩ := returnError_responds E hc₂ errorSendPayloadFailed
      have h₂ : (conclude net payload k).Returns u₂ errorSendPayloadFailed s₂ := by
        rw [conclude, if_neg hcut']
        exact h₂
      obtain ⟨s₁, h₁, hacc⟩ := (h _ _).mpr ⟨s₂, h₂, rfl⟩
      exact same h₁ h₂ hacc.symm
  · obtain ⟨s₁, h₁⟩ := returnError_responds E hc₁ errorSendPayloadFailed
    have h₁ : (conclude net payload w).Returns u₁ errorSendPayloadFailed s₁ := by
      rw [conclude, if_neg hcut]
      exact h₁
    obtain ⟨s₂, h₂, hacc⟩ := (h _ _).mp ⟨s₁, h₁, rfl⟩
    exact same h₁ h₂ hacc

/-- **When the two ways agree.** They do where no head is sent; and where, after
the head, each read of the stream gives what it was asked for, there is memory
for the buffer, and one write of the payload takes as many bytes as the pieces
of the stream do with two writes each. Of the streams whose reads give what they
were asked for, they agree on no others. -/
theorem sendRequest_agrees_iff {type payload : Bytes} (hne : payload ≠ []) (hsize : payload.length < 2 ^ 32)
    (E : Responsive net r stream) {s : Live C (HTTPClient C)}
    (hc : ∀ t, HeadSent net type payload.length s t → t.self._client = some r) :
    ((∀ t, HeadSent net type payload.length s t → ∃ ps, Offers W payload t ps ∧ TakesEvenly W payload t ps) →
      Agree W type payload s) ∧
    (Agree W type payload s →
      ∀ t, HeadSent net type payload.length s t → ∀ ps, Offers W payload t ps → TakesEvenly W payload t ps) := by
  constructor
  · intro h
    by_cases hsent : ∃ t, HeadSent net type payload.length s t
    · obtain ⟨t, hsent⟩ := hsent
      obtain ⟨ps, hps, heven⟩ := h t hsent
      exact agree_of_evenly W E hne hsize hsent (hc t hsent) hps heven
    · exact agree_unsent W hne (not_exists.mp hsent)
  · intro h t hsent ps hps
    exact evenly_of_agree W E hne hsize hsent (hc t hsent) hps h

end HTTPClient

namespace PathsDemo

open Prog (step)

/-- The outside of the example: what the connection has taken, the response,
the payload that the stream still has, and the time. -/
structure Host where
  accepted : Bytes := []
  response : Bytes
  source : Bytes
  clock : Nat := 0
  deriving DecidableEq, Repr

/-- After the first write, which is the head, `cap` bytes of each write. -/
def taken (cap : Nat) (acc bs : Bytes) : Nat := if acc = [] then bs.length else min cap bs.length

/-- The response is there as soon as the payload's `!` was taken. -/
def waiting (acc response : Bytes) : Int := if acc.getLast? = some 33 then response.length else 0

def connection (cap : Nat) : Connection Host where
  create _ := pure 0
  release _ := pure ()
  setCACert _ _ := pure ()
  setCertificate _ _ := pure ()
  setPrivateKey _ _ := pure ()
  connect _ _ _ _ := pure 0
  setTimeout _ _ := pure ()
  write _ bs := step fun e => (taken cap e.accepted bs, { e with accepted := e.accepted ++ bs.take (taken cap e.accepted bs) })
  getWriteError _ := pure 0
  clearWriteError _ := pure ()
  available _ := step fun e => (waiting e.accepted e.response, e)
  read _ := pure (-1)
  readBytes _ _ := pure []
  readStringUntil _ c := step fun e =>
    (e.response.takeWhile (· != c), { e with response := (e.response.dropWhile (· != c)).tail })
  connected _ := pure true
  stop _ := pure ()
  malloc n := pure (some (List.replicate n 63))
  millis := step fun e => (e.clock, e)
  delay n := step fun e => ((), { e with clock := e.clock + n })
  base64Encode bs := bs

def stream : AppStream Host where
  write _ := pure 0
  getWriteError := pure 0
  clearWriteError := pure ()
  available := step fun e => (e.source.length, e)
  readBytes n := step fun e => (e.source.take n, { e with source := e.source.drop n })

def recipient (cap : Nat) : Recipient Bytes Bytes (connection cap) 0 stream where
  accepted := Host.accepted
  rest := Host.response
  source := Host.source
  clock e := e.clock
  taken := taken cap
  taken_le acc bs := by
    rw [taken]
    split
    · exact Nat.le_refl _
    · exact Nat.min_le_right _ _
  write bs e w e' h := by
    obtain ⟨rfl, rfl⟩ := Prod.mk.inj (Prog.returns_step.mp h).symm
    exact ⟨rfl, rfl, rfl, rfl⟩
  waiting := waiting
  alive _ _ := true
  available e a e' h := by
    obtain ⟨rfl, rfl⟩ := Prod.mk.inj (Prog.returns_step.mp h).symm
    exact ⟨rfl, rfl⟩
  connected e b e' h := by
    obtain ⟨rfl, rfl⟩ := Prog.returns_pure.mp h
    exact ⟨rfl, rfl⟩
  ready x := (x.length, x)
  give n x := (x.take n, x.drop n)
  streamAvailable e a e' h := by
    obtain ⟨rfl, rfl⟩ := Prod.mk.inj (Prog.returns_step.mp h).symm
    exact ⟨rfl, rfl, rfl⟩
  streamRead n e bs e' h := by
    obtain ⟨rfl, rfl⟩ := Prod.mk.inj (Prog.returns_step.mp h).symm
    exact ⟨rfl, rfl, rfl⟩
  getWriteError e x e' h := by
    obtain ⟨rfl, rfl⟩ := Prog.returns_pure.mp h
    exact ⟨rfl, rfl⟩
  delay _ := .step fun _ => rfl
  malloc n e block e' h := by
    obtain ⟨rfl, rfl⟩ := Prog.returns_pure.mp h
    refine ⟨rfl, fun buff hbuff => ?_⟩
    obtain rfl := Option.some.inj hbuff
    exact List.length_replicate
  pollsBlind d := .step fun e e' h => ⟨congrArg₂ waiting h.accepted h.rest, h⟩
  upBlind d := .pure
  lineBlind d := .step fun e e' h => ⟨congrArg (·.takeWhile (· != 10)) h.rest, h.accepted,
    congrArg (fun x => (x.dropWhile (· != 10)).tail) h.rest, h.clock⟩
  stopBlind d := .pure
  delayBlind d n := .step fun e e' h => ⟨rfl, h.accepted, h.rest, by
    have : (e'.clock : Int) = e.clock + d := h.clock
    show ((e'.clock + n : Nat) : Int) = (e.clock + n : Nat) + d
    omega⟩
  millis d e e' h m t hm := by
    have hclock : (e'.clock : Int) = e.clock + d := h.clock
    obtain ⟨rfl, rfl⟩ := Prod.mk.inj (Prog.returns_step.mp hm).symm
    refine ⟨_, _, Prog.returns_step.mpr rfl, ?_, h⟩
    omega
  lineKeeps := .step fun _ => rfl
  stopKeeps := .pure
  millisKeeps := .step fun _ => rfl

theorem responsive (cap : Nat) : Responsive (connection cap) 0 stream where
  write _ := .step
  available := .step
  connected := .pure
  getWriteError := .pure
  delay _ := .step
  malloc _ := .pure
  stop := .pure
  streamAvailable := .step
  streamRead _ := .step

def client : HTTPClient Host := { _client := some 0, _host := bytes "h", _port := 80, _uri := bytes "/" }

def payload : Bytes := bytes "hello!"

def start : Live Host (HTTPClient Host) := ⟨client, { response := bytes "HTTP/1.1 200 OK\r\n\r\n", source := payload }⟩

/-- Where the payload begins. -/
def headed : Live Host (HTTPClient Host) :=
  ((HTTPClient.sendHeader (connection 100) (bytes "POST")).run 5
    ((HTTPClient.addHeader (bytes "Content-Length") (Str.ofNat payload.length) false true).run 5
      ((HTTPClient.connect (connection 100)).run 5 start).2).2).2

theorem headed_unique {t : Live Host (HTTPClient Host)}
    (h : HTTPClient.HeadSent (connection 100) (bytes "POST") payload.length start t) : t = headed :=
  h.unique ⟨_, _, .of_run 5 (by decide +kernel), .of_run 5 (by decide +kernel), .of_run 5 (by decide +kernel)⟩

theorem headed_pieces : (recipient 100).Pieces (HTTPClient.blockSize (HTTPClient.uploadLen payload.length))
    ((recipient 100).source headed.env) (HTTPClient.uploadLen payload.length) [payload] := by
  rw [show (recipient 100).source headed.env = payload by decide +kernel]
  exact .piece (by decide) (.inl (by decide)) (by decide) (by decide) (by decide) (.enough (by decide))

end PathsDemo

namespace HTTPClient

open PathsDemo

/-- A connection that takes all of a write gets the same request both ways. -/
theorem agree_wide : Agree (recipient 100) (bytes "POST") payload start ∧
    ∃ s₁, (sendRequest (connection 100) (bytes "POST") payload).Returns start 200 s₁ := by
  refine ⟨(sendRequest_agrees_iff (recipient 100) (by decide) (by decide +kernel) (responsive 100) fun t ht => ?_).1 fun t ht => ?_,
    _, .of_run 30 (by decide +kernel)⟩
  · rw [headed_unique ht]
    decide +kernel
  · rw [headed_unique ht]
    refine ⟨[payload], ⟨headed_pieces, fun _ => List.append_nil _⟩, ⟨_, _, Prog.returns_pure.mpr ⟨rfl, rfl⟩⟩, ?_⟩
    decide +kernel

/-- One that takes four bytes at a time gets all of the payload only from the
stream, in two writes. -/
theorem not_agree_narrow : ∃ s₁ s₂, (sendRequest (connection 4) (bytes "POST") payload).Returns start (-3) s₁ ∧
    (sendRequestStream (connection 4) (bytes "POST") (some stream) payload.length).Returns start 200 s₂ ∧
    s₁.env.accepted ≠ s₂.env.accepted :=
  ⟨_, _, .of_run 30 (by decide +kernel), .of_run 30 (by decide +kernel), by decide +kernel⟩

end HTTPClient

end FEmbed
