/-
When `sendRequest` from a stream sends the stream's bytes.

The copy loop counts the bytes it asked the stream for. Where the stream gave
fewer, and the connection takes only a part of these, the second write starts in
them and goes on behind them: what then happens to be in the buffer is sent, and
counted (`Mixed`). The check of the size at the end does not see it. All other
turns send what they got, so the payload is the stream's first bytes exactly
where no turn is mixed (`sendStream_first_iff`).
-/
import FEmbedLwip.HTTPCopy

namespace FEmbed

open Live
open Prog (Guarantees Guarantee)

/-- The connection `r` and the source of an upload: what the source has given,
of each read at most what it was asked for, and what the connection has taken. -/
structure Upload {C : Type} (net : Connection C) (r : Ref) (stream : AppStream C) where
  obtained : C → Bytes
  accepted : C → Bytes
  streamAvailable : stream.available.Guarantees (.same fun e => (accepted e, obtained e))
  readBytes : ∀ n e bs e', (stream.readBytes n).Returns e bs e' →
    bs.length ≤ n ∧ obtained e' = obtained e ++ bs ∧ accepted e' = accepted e
  available : (net.available r).Guarantees (.same fun e => (accepted e, obtained e))
  connected : (net.connected r).Guarantees (.same fun e => (accepted e, obtained e))
  malloc : ∀ n e block e', (net.malloc n).Returns e block e' → obtained e' = obtained e ∧ accepted e' = accepted e ∧
    ∀ buff, block = some buff → buff.length = n
  sink : Sink net (net.write r) (net.getWriteError r) (net.clearWriteError r) accepted obtained

namespace HTTPClient

variable {C : Type} {net : Connection C} {r : Ref} {stream : AppStream C} {buffSize : Int}

/-! ## A turn of the copy loop -/

/-- The turn from `l` and `s` asks the stream for `n` bytes and gets `got`,
which leaves `e` outside. -/
def Reads (net : Connection C) (stream : AppStream C) (buffSize : Int) (l : CopyState) (s : Live C (HTTPClient C))
    (n : Int) (got : Bytes) (e : C) : Prop :=
  ∃ t a e₁ a' e₂, (connected net).Returns s true t ∧ stream.available.Returns t.env a e₁ ∧ a > -1 ∧
    (l.len > 0 ∨ l.len = -1) ∧ stream.available.Returns e₁ a' e₂ ∧ a' ≠ 0 ∧ n = readCount a' l.len buffSize ∧
    (stream.readBytes (sizeT n)).Returns e₂ got e

/-- The rest of such a turn. -/
def handOn (net : Connection C) (r : Ref) (l : CopyState) (n : Int) (got : Bytes) :
    Prog (Live C (HTTPClient C)) (Turn CopyState (Option Int)) :=
  match poke l.buff 0 got with
  | none => Prog.undefined
  | some buff => do
    match ← passOn net (net.write r) (net.getWriteError r) (net.clearWriteError r) buff got n with
    | none => return .exit none
    | some k =>
      outside (net.delay 0)
      return .next
        { len := if l.len > 0 then l.len - n else l.len
          bytesWritten := int32 (l.bytesWritten + k)
          buff := buff }

/-- A turn whose read was short, and whose first write was cut. -/
def Mixed (net : Connection C) (r : Ref) (stream : AppStream C) (buffSize : Int) (l : CopyState)
    (s : Live C (HTTPClient C)) : Prop :=
  ∃ n got e w e', Reads net stream buffSize l s n got e ∧ got.length < n ∧
    (net.write r got).Returns e w e' ∧ w ≠ got.length

/-- Between the loop's test and its read, `available` does not become negative. -/
def Steady (stream : AppStream C) : Prop :=
  ∀ e a e₁ a' e₂, stream.available.Returns e a e₁ → a > -1 → stream.available.Returns e₁ a' e₂ → 0 ≤ a'

variable (W : Upload net r stream)

/-- Nothing is sent, and nothing read. -/
abbrev calm : Guarantee (Live C (HTTPClient C)) := idle W.accepted W.obtained

theorem connected_calm {s : Live C (HTTPClient C)} {b t} (hc : s.self._client = some r)
    (h : (connected net).Returns s b t) : (calm W).rel s t :=
  connected_idle W.available W.connected hc h

include W in
theorem uploadTurn_reads {l : CopyState} {s : Live C (HTTPClient C)} {n : Int} {got : Bytes} {e : C} {x s'}
    (hc : s.self._client = some r) (h : Reads net stream buffSize l s n got e) :
    (uploadTurn net stream buffSize l).Returns s x s' ↔ (handOn net r l n got).Returns ⟨s.self, e⟩ x s' := by
  obtain ⟨t, a, e₁, a', e₂, hup, ha, hpos, hlen, ha', hne, rfl, hread⟩ := h
  obtain ⟨c, e₀⟩ := t
  obtain rfl : c = s.self := (connected_calm W hc hup).1
  rw [uploadTurn, Prog.returns_bind_of hup, if_neg (by decide), returns_outside_bind ha,
    if_neg (by rintro (h | h); exacts [h hpos, h hlen]), returns_outside_bind ha']
  simp only [if_neg hne]
  rw [returns_outside_bind hread, handOn]
  cases poke l.buff 0 got with
  | none => rfl
  | some buff =>
    exact returns_obj_bind.trans (hc.symm ▸ Iff.rfl)

/-- A turn reads, or passes time, or is the last one. -/
theorem uploadTurn_cases {l : CopyState} {s : Live C (HTTPClient C)} {x s'} (hc : s.self._client = some r)
    (h : (uploadTurn net stream buffSize l).Returns s x s') :
    (∃ n got e, Reads net stream buffSize l s n got e) ∨
    (calm W).rel s s' ∧ (x = .next l ∨ x = .exit (some l.bytesWritten)) := by
  obtain ⟨up, t, ht, h⟩ := Prog.returns_bind.mp h
  have hst := connected_calm W hc ht
  rw [Prog.returns_ite] at h
  rcases h with ⟨_, h⟩ | ⟨hup, h⟩
  · obtain ⟨rfl, rfl⟩ := Prog.returns_pure.mp h
    exact .inr ⟨hst, .inr rfl⟩
  obtain ⟨a, u, hu, h⟩ := Prog.returns_bind.mp h
  have hsu := (calm W).trans hst (outside_idle W.streamAvailable _ _ _ hu)
  obtain ⟨e₁, ha, rfl⟩ := returns_outside.mp hu
  rw [Prog.returns_ite] at h
  rcases h with ⟨_, h⟩ | ⟨hgo, h⟩
  · obtain ⟨rfl, rfl⟩ := Prog.returns_pure.mp h
    exact .inr ⟨hsu, .inr rfl⟩
  obtain ⟨a', v, hv, h⟩ := Prog.returns_bind.mp h
  have hsv := (calm W).trans hsu (outside_idle W.streamAvailable _ _ _ hv)
  obtain ⟨e₂, ha', rfl⟩ := returns_outside.mp hv
  rw [Prog.returns_ite] at h
  rcases h with ⟨_, h⟩ | ⟨hne, h⟩
  · obtain ⟨_, w, hw, h⟩ := Prog.returns_bind.mp h
    obtain ⟨rfl, rfl⟩ := Prog.returns_pure.mp h
    exact .inr ⟨(calm W).trans hsv (outside_idle (W.sink.delay 1) _ _ _ hw), .inl rfl⟩
  · obtain ⟨got, w, hw, h⟩ := Prog.returns_bind.mp h
    obtain ⟨e, hread, rfl⟩ := returns_outside.mp hw
    rw [not_or, Decidable.not_not, Decidable.not_not] at hgo
    obtain rfl : up = true := by simpa using hup
    exact .inl ⟨_, got, e, t, a, e₁, a', e₂, ht, ha, hgo.1, hgo.2, ha', hne, rfl, hread⟩

theorem Reads.unique {l : CopyState} {s : Live C (HTTPClient C)} {n n' : Int} {got got' : Bytes} {e e' : C}
    (h : Reads net stream buffSize l s n got e) (h' : Reads net stream buffSize l s n' got' e') :
    n = n' ∧ got = got' ∧ e = e' := by
  obtain ⟨t, a, e₁, a₁, e₂, hup, ha, _, _, ha₁, _, rfl, hread⟩ := h
  obtain ⟨t', a', e₁', a₁', e₂', hup', ha', _, _, ha₁', _, rfl, hread'⟩ := h'
  obtain ⟨_, rfl⟩ := hup.det hup'
  obtain ⟨_, rfl⟩ := ha.det ha'
  obtain ⟨rfl, rfl⟩ := ha₁.det ha₁'
  obtain ⟨rfl, rfl⟩ := hread.det hread'
  exact ⟨rfl, rfl, rfl⟩

/-- What a turn that reads adds to the payload: what it got, or, where it is
mixed, more than that. -/
theorem handOn_sends {l l' : CopyState} {s s' : Live C (HTTPClient C)} {n : Int} {got : Bytes} {e : C}
    (hbuff : l.buff.length = buffSize) (hsize : buffSize ≤ 1460) (hread : Reads net stream buffSize l s n got e)
    (h : (handOn net r l n got).Returns ⟨s.self, e⟩ (.next l') s') :
    s'.self = s.self ∧ W.obtained s'.env = W.obtained e ∧ l'.buff.length = buffSize ∧
      l'.len = (if l.len > 0 then l.len - n else l.len) ∧ ∃ p, W.accepted s'.env = W.accepted e ++ p ∧ l'.bytesWritten = int32 (l.bytesWritten + p.length) ∧
        (p = got ∧ ¬ Mixed net r stream buffSize l s ∨ got.length < p.length ∧ Mixed net r stream buffSize l s) := by
  rw [handOn] at h
  split at h
  · exact absurd h Prog.returns_undefined
  rename_i buff hpoke
  obtain ⟨hfits, rfl⟩ := poke_some hpoke
  have hlong : (l.buff.take 0 ++ got ++ l.buff.drop (0 + got.length)).length = l.buff.length := by
    simp only [List.length_append, List.length_take, List.length_drop]
    omega
  have hprefix : got <+: l.buff.take 0 ++ got ++ l.buff.drop (0 + got.length) := by simp
  have hn : n ≤ buffSize ∧ (0 ≤ n → (got.length : Int) ≤ n) := by
    obtain ⟨t, a, e₁, a', e₂, _, _, _, _, _, _, rfl, hgot⟩ := hread
    have hle := readCount_le a' l.len buffSize
    refine ⟨hle, fun hpos => ?_⟩
    have := (W.readBytes _ _ _ _ hgot).1
    rw [sizeT_eq hpos (by omega)] at this
    omega
  obtain ⟨m, u, hu, h⟩ := Prog.returns_bind.mp h
  obtain ⟨hself, hkept, w, e', p, hw, hle, hp, -, hall⟩ := passOn_accepts W.sink (by omega) hprefix (by omega) hu
  cases m with
  | none =>
    obtain ⟨hx, -⟩ := Prog.returns_pure.mp h
    exact absurd hx (by simp)
  | some k =>
    obtain ⟨hpk, rfl, hcut⟩ := hall k rfl
    obtain ⟨_, v, hv, h⟩ := Prog.returns_bind.mp h
    obtain ⟨hx, rfl⟩ := Prog.returns_pure.mp h
    obtain rfl := Turn.next.inj hx
    obtain ⟨hvs, hva, hvo⟩ := outside_idle (W.sink.delay 0) _ _ _ hv
    refine ⟨hvs.trans hself, hvo.trans hkept, (congrArg _ hlong).trans hbuff, rfl, p, hva.trans hp, rfl, ?_⟩
    have same_write {n₁ got₁ e₁ w₁ e₂} (h : Reads net stream buffSize l s n₁ got₁ e₁)
        (hw₁ : (net.write r got₁).Returns e₁ w₁ e₂) : n₁ = n ∧ got₁ = got ∧ w₁ = w := by
      obtain ⟨rfl, rfl, rfl⟩ := h.unique hread
      exact ⟨rfl, rfl, (hw₁.det hw).1⟩
    rw [handed] at hpk
    by_cases hfull : w = got.length
    · rw [if_pos hfull] at hpk
      refine .inl ⟨hpk, ?_⟩
      rintro ⟨n₁, got₁, e₁, w₁, e₂, hr₁, _, hw₁, hne⟩
      obtain ⟨rfl, rfl, rfl⟩ := same_write hr₁ hw₁
      exact hne hfull
    · rw [if_neg hfull] at hpk
      have hlen := hcut.resolve_left hfull
      have hle := hn.2 (by omega)
      by_cases hshort : (got.length : Int) < n
      · exact .inr ⟨by omega, n, got, e, w, e', hread, hshort, hw, hfull⟩
      · refine .inl ⟨?_, ?_⟩
        · rw [hpk, show n.toNat = got.length by omega]
          simp
        · rintro ⟨n₁, got₁, e₁, w₁, e₂, hr₁, hshort₁, hw₁, _⟩
          obtain ⟨rfl, rfl, rfl⟩ := same_write hr₁ hw₁
          exact hshort hshort₁

/-- A turn that goes on has sent what it got, or more where it is mixed. -/
theorem uploadTurn_sends {l l' : CopyState} {s s' : Live C (HTTPClient C)} (hc : s.self._client = some r)
    (hbuff : l.buff.length = buffSize) (hsize : 0 < buffSize ∧ buffSize ≤ 1460) (hint : int32 l.bytesWritten = l.bytesWritten)
    (h : (uploadTurn net stream buffSize l).Returns s (.next l') s') :
    s'.self = s.self ∧ l'.buff.length = buffSize ∧ ∃ p got, W.accepted s'.env = W.accepted s.env ++ p ∧
      W.obtained s'.env = W.obtained s.env ++ got ∧ l'.bytesWritten = int32 (l.bytesWritten + p.length) ∧
      (Steady stream → l.len ≠ -1 → l.len < 2 ^ 31 →
        l'.len ≠ -1 ∧ l'.len < 2 ^ 31 ∧ max l'.len 0 + got.length ≤ max l.len 0) ∧
      (p = got ∧ ¬ Mixed net r stream buffSize l s ∨ got.length < p.length ∧ Mixed net r stream buffSize l s) := by
  by_cases hread : ∃ n got e, Reads net stream buffSize l s n got e
  · obtain ⟨n, got, e, hread⟩ := hread
    obtain ⟨hself, hob, hbuff', hlen', p, hp, hcount, hmixed⟩ :=
      handOn_sends W hbuff hsize.2 hread ((uploadTurn_reads W hc hread).mp h)
    obtain ⟨t, a, e₁, a', e₂, hup, ha, hpos, hlen, ha', hne, hn, hgot⟩ := hread
    obtain ⟨hfew, hgot', hacc⟩ := W.readBytes _ _ _ _ hgot
    obtain ⟨-, hta, hto⟩ := connected_calm W hc hup
    obtain ⟨h₁, h₁'⟩ := Prod.mk.inj (W.streamAvailable _ _ _ ha)
    obtain ⟨h₂, h₂'⟩ := Prod.mk.inj (W.streamAvailable _ _ _ ha')
    refine ⟨hself, hbuff', p, got, ?_, ?_, hcount, fun hsteady hlimit hmax => ?_, hmixed⟩
    · rw [hp, hacc, h₂, h₁, hta]
    · rw [hob, hgot', h₂', h₁', hto]
    · have ha'' := hsteady _ _ _ _ _ ha hpos ha'
      have hlpos := hlen.resolve_right hlimit
      have hrc := readCount_pos (show 0 < a' by omega) hlpos hsize.1
      rw [← hn] at hrc
      rw [sizeT_eq (by omega) (by omega)] at hfew
      rw [if_pos hlpos] at hlen'
      omega
  · have hnot : ¬ Mixed net r stream buffSize l s := fun ⟨n, got, e, _, _, h, _⟩ => hread ⟨n, got, e, h⟩
    obtain ⟨⟨hself, hacc, hob⟩, hx⟩ := (uploadTurn_cases W hc h).resolve_left hread
    rcases hx with hx | hx
    · obtain rfl := Turn.next.inj hx
      exact ⟨hself, hbuff, [], [], by rw [hacc, List.append_nil], by rw [hob, List.append_nil], by simpa using hint.symm,
        fun _ hlimit hmax => ⟨hlimit, hmax, by simp⟩, .inl ⟨rfl, hnot⟩⟩
    · exact absurd hx (by simp)

/-- The turn after which the loop is left, without an error. -/
theorem uploadTurn_last {l : CopyState} {v : Int} {s s' : Live C (HTTPClient C)} (hc : s.self._client = some r)
    (h : (uploadTurn net stream buffSize l).Returns s (.exit (some v)) s') :
    (calm W).rel s s' ∧ v = l.bytesWritten ∧ ¬ Mixed net r stream buffSize l s := by
  have hread : ¬ ∃ n got e, Reads net stream buffSize l s n got e := by
    rintro ⟨n, got, e, hread⟩
    replace h := (uploadTurn_reads W hc hread).mp h
    rw [handOn] at h
    split at h
    · exact Prog.returns_undefined h
    · obtain ⟨m, u, _, h⟩ := Prog.returns_bind.mp h
      cases m with
      | none => exact absurd (Prog.returns_pure.mp h).1 (by simp)
      | some k =>
        obtain ⟨_, w, _, h⟩ := Prog.returns_bind.mp h
        exact absurd (Prog.returns_pure.mp h).1 (by simp)
  obtain ⟨hcalm, hx⟩ := (uploadTurn_cases W hc h).resolve_left hread
  rcases hx with hx | hx
  · exact absurd hx (by simp)
  · exact ⟨hcalm, Option.some.inj (Turn.exit.inj hx), fun ⟨n, got, e, _, _, h, _⟩ => hread ⟨n, got, e, h⟩⟩

/-! ## The whole loop -/

/-- What the loop sends is counted; it is what was got, exactly where no turn
is mixed. -/
theorem uploadLoop_sends {l : CopyState} {v : Int} {s s' : Live C (HTTPClient C)} (hc : s.self._client = some r)
    (hbuff : l.buff.length = buffSize) (hsize : 0 < buffSize ∧ buffSize ≤ 1460) (hint : int32 l.bytesWritten = l.bytesWritten)
    (h : (Prog.loop (uploadTurn net stream buffSize) l).Returns s (some v) s') :
    ∃ sent got, W.accepted s'.env = W.accepted s.env ++ sent ∧ W.obtained s'.env = W.obtained s.env ++ got ∧
      v = int32 (l.bytesWritten + sent.length) ∧ got.length ≤ sent.length ∧
      (sent = got ∨ got.length < sent.length) ∧
      (Steady stream → l.len ≠ -1 → l.len < 2 ^ 31 → got.length ≤ max l.len 0) ∧
      (sent = got ↔ ∀ l' t, Prog.Passes (uploadTurn net stream buffSize) l s l' t → ¬ Mixed net r stream buffSize l' t) := by
  let I (l : CopyState) (s : Live C (HTTPClient C)) : Prop := s.self._client = some r → l.buff.length = buffSize →
    int32 l.bytesWritten = l.bytesWritten →
    ∃ sent got, W.accepted s'.env = W.accepted s.env ++ sent ∧ W.obtained s'.env = W.obtained s.env ++ got ∧
      v = int32 (l.bytesWritten + sent.length) ∧ got.length ≤ sent.length ∧ (sent = got ∨ got.length < sent.length) ∧
      (Steady stream → l.len ≠ -1 → l.len < 2 ^ 31 → got.length ≤ max l.len 0) ∧
      (sent = got ↔ ∀ l' t, Prog.Passes (uploadTurn net stream buffSize) l s l' t → ¬ Mixed net r stream buffSize l' t)
  refine Prog.Returns.loop_induct I ?_ ?_ h hc hbuff hint
  · intro l s hx hc _ hint
    obtain ⟨⟨_, hacc, hob⟩, rfl, hnot⟩ := uploadTurn_last W hc hx
    refine ⟨[], [], by rw [hacc, List.append_nil], by rw [hob, List.append_nil], by simpa using hint.symm, Nat.le_refl _,
      .inl rfl, fun _ _ _ => Int.le_max_right _ _, fun _ l' t hpass => ?_, fun _ => rfl⟩
    cases hpass with
    | refl => exact hnot
    | next hnext => exact absurd (hx.det hnext).1 (by simp)
  · intro l s l₁ t hx _ ih hc hbuff hint
    obtain ⟨hself, hbuff₁, p, got, hacc, hob, hcount, hwanted, hturn⟩ := uploadTurn_sends W hc hbuff hsize hint hx
    obtain ⟨sent, rest, hacc', hob', hv, hle, hsent, hfew, hall⟩ := ih (by rw [hself]; exact hc) hbuff₁ (by rw [hcount]; exact Int.bmod_bmod ..)
    have hpasses : (∀ l' u, Prog.Passes (uploadTurn net stream buffSize) l s l' u → ¬ Mixed net r stream buffSize l' u) ↔
        ¬ Mixed net r stream buffSize l s ∧
        ∀ l' u, Prog.Passes (uploadTurn net stream buffSize) l₁ t l' u → ¬ Mixed net r stream buffSize l' u := by
      refine ⟨fun h => ⟨h l s (.refl l s), fun l' u hpass => h l' u (.next hx hpass)⟩, fun ⟨h, h'⟩ l' u hpass => ?_⟩
      cases hpass with
      | refl => exact h
      | next hnext hpass =>
        obtain ⟨hl, rfl⟩ := hx.det hnext
        obtain rfl := Turn.next.inj hl
        exact h' l' u hpass
    refine ⟨p ++ sent, got ++ rest, by rw [hacc', hacc, List.append_assoc], by rw [hob', hob, List.append_assoc], ?_, ?_, ?_,
      fun hsteady hlimit hmax => ?_, ?_⟩
    · rw [hv, hcount, int32_int32_add, List.length_append, Int.natCast_add, Int.add_assoc]
    · simp only [List.length_append]
      rcases hturn with ⟨rfl, _⟩ | ⟨hlt, _⟩ <;> omega
    · simp only [List.length_append]
      rcases hturn with ⟨rfl, _⟩ | ⟨hlt, _⟩
      · rcases hsent with rfl | hlt
        · exact .inl rfl
        · exact .inr (by omega)
      · exact .inr (by omega)
    · obtain ⟨hlimit₁, hmax₁, hle₁⟩ := hwanted hsteady hlimit hmax
      have := hfew hsteady hlimit₁ hmax₁
      rw [List.length_append]
      omega
    · rw [hpasses]
      rcases hturn with ⟨rfl, hnot⟩ | ⟨hlt, hmixed⟩
      · rw [List.append_cancel_left_eq, hall]
        exact ⟨fun h => ⟨hnot, h⟩, fun h => h.2⟩
      · refine ⟨fun h => absurd (congrArg List.length h) ?_, fun h => absurd hmixed h.1⟩
        simp only [List.length_append]
        omega

/-- Two counts below `2 ^ 32` that are the same `int`. -/
theorem int32_natCast_inj {m n : Nat} (hm : m < 2 ^ 32) (hn : n < 2 ^ 32) : int32 m = int32 n ↔ m = n := by
  refine ⟨fun h => ?_, fun h => by rw [h]⟩
  have hmod : (m : Int) % (2 ^ 32 : Nat) = (n : Int) % (2 ^ 32 : Nat) :=
    Int.bmod_emod.symm.trans ((congrArg (· % ((2 ^ 32 : Nat) : Int)) h).trans Int.bmod_emod)
  omega

/-! ## The request -/

/-- `len`, as it is before the loop. -/
def uploadLen (size : Nat) : Int := if int32 size = 0 then -1 else int32 size

theorem uploadLen_range {size : Nat} (hpos : 0 < size) (hlimit : size < 2 ^ 32 - 1) :
    uploadLen size ≠ -1 ∧ uploadLen size < 2 ^ 31 ∧ uploadLen size ≤ size := by
  have hint : int32 size = size ∧ size < 2 ^ 31 ∨ int32 size = size - 2 ^ 32 ∧ 2 ^ 31 ≤ size := by
    rcases Nat.lt_or_ge size (2 ^ 31) with hlt | hge
    · exact .inl ⟨int32_eq (by omega) (by omega), hlt⟩
    · refine .inr ⟨?_, hge⟩
      rw [int32, Int.bmod_eq_emod, if_pos (by omega)]
      omega
  rw [uploadLen]
  split <;> omega

/-- What is made of the count after the loop. -/
def uploadResult (size : Nat) : Option Int → Int
  | none => errorSendPayloadFailed
  | some bytesWritten => if size ≠ 0 ∧ int32 size ≠ bytesWritten then errorSendPayloadFailed else 0

/-- `sendStream` has no memory, or runs its loop. -/
theorem sendStream_returns {size : Nat} {t u : Live C (HTTPClient C)} {error : Int}
    (h : (sendStream net stream size).Returns t error u) :
    (∃ e, (net.malloc (blockSize (uploadLen size)).toNat).Returns t.env none e ∧ error = errorTooLessRam ∧ u = ⟨t.self, e⟩) ∨
    ∃ buff e m, (net.malloc (blockSize (uploadLen size)).toNat).Returns t.env (some buff) e ∧
      (Prog.loop (uploadTurn net stream (blockSize (uploadLen size))) { len := uploadLen size, buff := buff }).Returns ⟨t.self, e⟩ m u ∧
      error = uploadResult size m := by
  obtain ⟨block, v, hv, h⟩ := Prog.returns_bind.mp h
  obtain ⟨e, he, rfl⟩ := returns_outside.mp hv
  cases block with
  | none =>
    obtain ⟨rfl, rfl⟩ := Prog.returns_pure.mp h
    exact .inl ⟨e, he, rfl, rfl⟩
  | some buff =>
    obtain ⟨m, w, hloop, h⟩ := Prog.returns_bind.mp h
    refine .inr ⟨buff, e, m, he, ?_⟩
    cases m <;> obtain ⟨rfl, rfl⟩ := Prog.returns_pure.mp h <;> exact ⟨hloop, rfl⟩

/-- With memory, `sendStream` is its loop. -/
theorem sendStream_of_loop {size : Nat} {t u : Live C (HTTPClient C)} {buff : Bytes} {e : C} {m : Option Int}
    (he : (net.malloc (blockSize (uploadLen size)).toNat).Returns t.env (some buff) e)
    (hloop : (Prog.loop (uploadTurn net stream (blockSize (uploadLen size))) { len := uploadLen size, buff := buff }).Returns
      ⟨t.self, e⟩ m u) : (sendStream net stream size).Returns t (uploadResult size m) u := by
  refine (returns_outside_bind he).mpr (Prog.returns_bind.mpr ⟨m, u, hloop, ?_⟩)
  cases m <;> exact Prog.returns_pure.mpr ⟨rfl, rfl⟩

/-- The request got to `handleHeaderResponse`: from `s` the head was sent, to
`t`, and the payload, to `u`, without an error. -/
def PayloadSent (net : Connection C) (type : Bytes) (stream : AppStream C) (size : Nat) (s t u : Live C (HTTPClient C)) : Prop :=
  ∃ s₁ s₂, (connect net).Returns s true s₁ ∧
    (if size > 0 then addHeader (bytes "Content-Length") (Str.ofNat size) false true else pure ()).Returns s₁ () s₂ ∧
    (sendHeader net type).Returns s₂ true t ∧ ∃ error, (sendStream net stream size).Returns t error u ∧ ¬ error < 0

/-- The rest of such a request is the response. -/
theorem sendRequestStream_response {type : Bytes} {size : Nat} {s t u : Live C (HTTPClient C)} {rc s'}
    (h : PayloadSent net type stream size s t u) : (sendRequestStream net type (some stream) size).Returns s rc s' ↔
      (handleHeaderResponse net >>= returnError net).Returns u rc s' := by
  obtain ⟨s₁, s₂, hconn, hadd, hsend, error, hstream, herr⟩ := h
  rw [sendRequestStream]
  simp only [Prog.returns_bind_of hconn]
  rw [if_neg (by decide)]
  by_cases hpos : size > 0
  · rw [if_pos hpos] at hadd ⊢
    rw [Prog.returns_bind_of hadd, Prog.returns_bind_of hsend, if_neg (by decide), Prog.returns_bind_of hstream, if_neg herr]
  · rw [if_neg hpos] at hadd ⊢
    obtain ⟨_, rfl⟩ := Prog.returns_pure.mp hadd
    rw [Prog.returns_bind_of hsend, if_neg (by decide), Prog.returns_bind_of hstream, if_neg herr]

/-- The turns of the payload's loop, from `t` on. -/
def Turned (net : Connection C) (stream : AppStream C) (size : Nat) (t : Live C (HTTPClient C)) (l : CopyState)
    (u : Live C (HTTPClient C)) : Prop :=
  ∃ buff e, (net.malloc (blockSize (uploadLen size)).toNat).Returns t.env (some buff) e ∧
    Prog.Passes (uploadTurn net stream (blockSize (uploadLen size))) { len := uploadLen size, buff := buff } ⟨t.self, e⟩ l u

/-- From `t` to `u` the connection took `size` bytes, the first ones that the
stream gave. -/
def SendsFirst (size : Nat) (t u : C) : Prop :=
  ∃ sent got, W.accepted u = W.accepted t ++ sent ∧ W.obtained u = W.obtained t ++ got ∧ sent.length = size ∧ sent <+: got

/-- What the payload's loop has sent where there was no error. -/
theorem sendStream_sends {size : Nat} (hpos : 0 < size) {t u : Live C (HTTPClient C)} {error : Int} (hc : t.self._client = some r)
    (h : (sendStream net stream size).Returns t error u) (herr : ¬ error < 0) :
    ∃ sent got, W.accepted u.env = W.accepted t.env ++ sent ∧ W.obtained u.env = W.obtained t.env ++ got ∧
      int32 size = int32 sent.length ∧ got.length ≤ sent.length ∧ (sent = got ∨ got.length < sent.length) ∧
      (Steady stream → size < 2 ^ 32 - 1 → got.length ≤ size) ∧
      (sent = got ↔ ∀ l v, Turned net stream size t l v →
        ¬ Mixed net r stream (blockSize (uploadLen size)) l v) := by
  rcases sendStream_returns h with ⟨_, _, rfl, rfl⟩ | ⟨buff, e, m, he, hloop, rfl⟩
  · exact absurd (by decide) herr
  · obtain ⟨hob, hacc, hlength⟩ := W.malloc _ _ _ _ he
    cases m with
    | none => exact absurd (show (-3 : Int) < 0 by decide) herr
    | some bytesWritten =>
      have hall : int32 size = bytesWritten := by
        by_contra hne
        rw [uploadResult, if_pos ⟨by omega, hne⟩] at herr
        exact herr (by decide)
      have hblock := blockSize_range (uploadLen size)
      have hbuff := hlength buff rfl
      obtain ⟨sent, got, hsent, hgot, hcount, hle, hor, hfew, hiff⟩ :=
        uploadLoop_sends W (l := { len := uploadLen size, buff := buff }) (s := ⟨t.self, e⟩) hc (by show (buff.length : Int) = _; omega)
          hblock (show int32 0 = 0 by decide) hloop
      refine ⟨sent, got, by rw [hsent, hacc], by rw [hgot, hob], ?_, hle, hor, fun hsteady hlimit => ?_,
        hiff.trans ⟨fun h l v hv => ?_, fun h l v hv => ?_⟩⟩
      · rw [hall, hcount]
        simp
      · obtain ⟨hne, hlt, hle⟩ := uploadLen_range hpos hlimit
        dsimp only at hfew
        exact Int.ofNat_le.mp (Int.le_trans (hfew hsteady hne hlt) (Int.max_le.mpr ⟨hle, Int.natCast_nonneg size⟩))
      · obtain ⟨buff', e', he', hpass⟩ := hv
        obtain ⟨hb, rfl⟩ := he.det he'
        obtain rfl := Option.some.inj hb
        exact h l v hpass
      · exact h l v ⟨buff, e, he, hv⟩

/-- **The upload sends the stream's bytes exactly where no turn is mixed.** On
every stream and connection, a request that gets past its payload has sent the
first `size` bytes of the stream if and only if no turn of the loop had a short
read with its first write cut, and no more than `size` bytes were read. The
latter holds by itself, unless `available` changes its mind within a turn, or
`size` is the -1 that stands for no limit. -/
theorem sendStream_first_iff {type : Bytes} {size : Nat} (hpos : 0 < size) (hsize : size < 2 ^ 32) {s t u : Live C (HTTPClient C)}
    (hc : t.self._client = some r) (h : PayloadSent net type stream size s t u) :
    (SendsFirst W size t.env u.env ↔
      (∀ l v, Turned net stream size t l v → ¬ Mixed net r stream (blockSize (uploadLen size)) l v) ∧
      (W.obtained u.env).length ≤ (W.obtained t.env).length + size) ∧
    (Steady stream → size ≠ 2 ^ 32 - 1 → (W.obtained u.env).length ≤ (W.obtained t.env).length + size) := by
  obtain ⟨_, _, _, _, _, error, hstream, herr⟩ := h
  obtain ⟨sent, got, hsent, hgot, hcount, hle, hor, hfew, hiff⟩ := sendStream_sends W hpos hc hstream herr
  rw [← hiff, hgot, List.length_append]
  refine ⟨⟨?_, ?_⟩, fun hsteady hne => Nat.add_le_add_left (hfew hsteady (by omega)) _⟩
  · rintro ⟨sent', got', hsent', hgot', hlen, hprefix⟩
    obtain rfl := List.append_cancel_left (hsent.symm.trans hsent')
    obtain rfl := List.append_cancel_left (hgot.symm.trans hgot')
    have hshort := hprefix.length_le
    exact ⟨hor.resolve_right (by omega), by omega⟩
  · rintro ⟨rfl, hfew⟩
    refine ⟨sent, sent, hsent, hgot, ?_, List.prefix_rfl⟩
    exact ((int32_natCast_inj hsize (by omega)).mp hcount).symm

end HTTPClient

namespace UploadDemo

open Prog (step)

/-- The outside of the example: what the source has, the most that one read
gives, the most that the next writes take, and what was given and taken. -/
structure Host where
  source : Bytes
  piece : Nat
  caps : List Nat := []
  obtained : Bytes := []
  accepted : Bytes := []
  deriving DecidableEq, Repr

def take (bs : Bytes) (e : Host) : Nat × Host :=
  let n := min (e.caps.headD bs.length) bs.length
  (n, { e with caps := e.caps.tail, accepted := e.accepted ++ bs.take n })

def give (n : Nat) (e : Host) : Bytes × Host :=
  let bs := e.source.take (min n e.piece)
  (bs, { e with source := e.source.drop bs.length, obtained := e.obtained ++ bs })

def connection : Connection Host where
  create _ := pure 0
  release _ := pure ()
  setCACert _ _ := pure ()
  setCertificate _ _ := pure ()
  setPrivateKey _ _ := pure ()
  connect _ _ _ _ := pure 0
  setTimeout _ _ := pure ()
  write _ bs := step (take bs)
  getWriteError _ := pure 0
  clearWriteError _ := pure ()
  available _ := pure 0
  read _ := pure (-1)
  readBytes _ _ := pure []
  readStringUntil _ _ := pure []
  connected _ := pure true
  stop _ := pure ()
  malloc n := pure (some (List.replicate n 63))
  millis := pure 0
  delay _ := pure ()
  base64Encode bs := bs

def stream : AppStream Host where
  write _ := pure 0
  getWriteError := pure 0
  clearWriteError := pure ()
  available := step fun e => (e.source.length, e)
  readBytes n := step (give n)

def upload : Upload connection 0 stream where
  obtained := Host.obtained
  accepted := Host.accepted
  streamAvailable := .step fun _ => rfl
  readBytes n e bs e' h := by
    obtain ⟨rfl, rfl⟩ := Prod.mk.inj (Prog.returns_step.mp h).symm
    exact ⟨by rw [List.length_take]; omega, rfl, rfl⟩
  available := .pure
  connected := .pure
  malloc n e block e' h := by
    obtain ⟨rfl, rfl⟩ := Prog.returns_pure.mp h
    refine ⟨rfl, rfl, fun buff hbuff => ?_⟩
    obtain rfl := Option.some.inj hbuff
    exact List.length_replicate
  sink := {
    write := by
      intro bs e n e' h
      obtain ⟨rfl, rfl⟩ := Prod.mk.inj (Prog.returns_step.mp h).symm
      exact ⟨Nat.min_le_right _ _, rfl, rfl⟩
    getWriteError := .pure
    clearWriteError := .pure
    delay := fun _ => .pure }

def client : HTTPClient Host := { _client := some 0, _host := bytes "h", _port := 80, _uri := bytes "/" }

end UploadDemo

namespace HTTPClient

open UploadDemo

/-- A write of the payload is cut, but the read before it was not short. -/
theorem upload_whole : ∃ t u, PayloadSent connection (bytes "POST") stream 8
    ⟨client, { source := bytes "abcdefgh", piece := 8, caps := [1000, 2] }⟩ t u ∧
    SendsFirst upload 8 t.env u.env ∧
    ∀ l v, Turned connection stream 8 t l v → ¬ Mixed connection 0 stream (blockSize (uploadLen 8)) l v := by
  have sent : PayloadSent connection (bytes "POST") stream 8
      ⟨client, { source := bytes "abcdefgh", piece := 8, caps := [1000, 2] }⟩ _ _ :=
    ⟨_, _, .of_run 5 (by decide +kernel), .of_run 5 (by decide +kernel), .of_run 5 (by decide +kernel),
      0, .of_run 9 (by decide +kernel), by decide⟩
  have hiff := (sendStream_first_iff upload (by decide) (by decide) (by decide +kernel) sent).1
  refine ⟨_, _, sent, (fun first => ⟨first, (hiff.mp first).1⟩) ?_⟩
  exact ⟨bytes "abcdefgh", bytes "abcdefgh", by decide +kernel, by decide +kernel, by decide +kernel, by decide +kernel⟩

/-- Four of eight bytes are read and two of them written: the retry sends the
other two, and four bytes that were never read. -/
theorem not_sendsFirst_mixed : ∃ t u, PayloadSent connection (bytes "POST") stream 8
    ⟨client, { source := bytes "abcdefgh", piece := 4, caps := [1000, 2] }⟩ t u ∧ ¬ SendsFirst upload 8 t.env u.env := by
  refine ⟨_, _, ⟨_, _, .of_run 5 (by decide +kernel), .of_run 5 (by decide +kernel), .of_run 5 (by decide +kernel),
    0, .of_run 9 (by decide +kernel), by decide⟩, ?_⟩
  rintro ⟨sent, got, -, hgot, hlen, hprefix⟩
  have hgot : bytes "abcd" = got := (show _ = [] ++ bytes "abcd" by decide +kernel).symm.trans hgot
  have := hprefix.length_le
  rw [hlen, ← hgot] at this
  exact absurd this (by decide)

end HTTPClient

end FEmbed
