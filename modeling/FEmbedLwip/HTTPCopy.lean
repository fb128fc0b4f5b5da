/-
What the copy loops of `HTTPClient` hand on.

A block that was read is written, and what the first write left is tried once
more (`passOn`). The sink may take a part of either write and may raise its
error flag after any of them; what it took is always a prefix of the block
(`passOn_accepts`). The download loop reads no more than is available, so its
blocks are full, and the copy is exact (`writeToStreamDataBlock_exact`).
-/
import FEmbedLwip.ChunkedBody

namespace FEmbed

open Live
open Prog (Guarantees Guarantee)

/-! ## A sink -/

/-- The writes of a sink, by the bytes it `accepted`: of a write, a first part
of it. `kept` is what the writes leave alone. -/
structure Sink {C κ : Type} (net : Connection C) (write : Bytes → Prog C Nat) (getWriteError : Prog C Int)
    (clearWriteError : Prog C Unit) (accepted : C → Bytes) (kept : C → κ) : Prop where
  write : ∀ bs e n e', (write bs).Returns e n e' →
    n ≤ bs.length ∧ accepted e' = accepted e ++ bs.take n ∧ kept e' = kept e
  getWriteError : getWriteError.Guarantees (.same fun e => (accepted e, kept e))
  clearWriteError : clearWriteError.Guarantees (.same fun e => (accepted e, kept e))
  delay : ∀ n, (net.delay n).Guarantees (.same fun e => (accepted e, kept e))

/-- A cut in two tries is a prefix. -/
theorem take_slice_prefix {buff rest : Bytes} {w : Nat} {n : Int} (k : Nat)
    (h : HTTPClient.slice buff w (n - w) = some rest) : w ≤ n ∧ n ≤ buff.length ∧
      rest.length = n - w ∧ buff.take w ++ rest = buff.take n.toNat ∧ buff.take w ++ rest.take k <+: buff.take n.toNat := by
  rw [HTTPClient.slice] at h
  split at h
  · rename_i hin
    obtain ⟨hw, hn, hle⟩ := hin
    obtain rfl := Option.some.inj h
    have hwn : (n - w).toNat = n.toNat - w := by omega
    have hw : ((w : Int)).toNat = w := rfl
    have hlen : ((buff.drop w).take (n.toNat - w)).length = n - w := by
      rw [List.length_take, List.length_drop]
      omega
    have hall : buff.take w ++ (buff.drop w).take (n.toNat - w) = buff.take n.toNat := by
      rw [← List.take_add]
      congr 1
      omega
    rw [hwn, hw]
    refine ⟨by omega, by omega, hlen, hall, ?_⟩
    rw [← hall, List.prefix_append_right_inj]
    exact List.take_prefix _ _
  · exact absurd h (by simp)

namespace HTTPClient

variable {C κ : Type} {net : Connection C} {write : Bytes → Prog C Nat} {getWriteError : Prog C Int}
  {clearWriteError : Prog C Unit} {accepted : C → Bytes} {kept : C → κ}

/-- The object, the sink and the rest are as they were. -/
def idle (accepted : C → Bytes) (kept : C → κ) : Guarantee (Live C (HTTPClient C)) where
  rel s s' := s'.self = s.self ∧ accepted s'.env = accepted s.env ∧ kept s'.env = kept s.env
  refl _ := ⟨rfl, rfl, rfl⟩
  trans h h' := ⟨h'.1.trans h.1, h'.2.1.trans h.2.1, h'.2.2.trans h.2.2⟩

theorem outside_idle {α : Type} {x : Prog C α} (h : x.Guarantees (.same fun e => (accepted e, kept e))) :
    (outside x).Guarantees (idle accepted kept) := by
  refine .zoom h fun _ _ hsame => ?_
  obtain ⟨ha, hk⟩ := Prod.mk.inj hsame
  exact ⟨rfl, ha, hk⟩

variable (S : Sink net write getWriteError clearWriteError accepted kept)

include S

/-- The second try gives the sink a prefix of what is left, and succeeds with
all of it. -/
theorem writeLeft_accepts {buff : Bytes} {w : Nat} {n : Int} (hn : n < 2 ^ 31) {s : Live C (HTTPClient C)} {m s'}
    (h : (writeLeft net write getWriteError buff w (n - w)).Returns s m s') :
    s'.self = s.self ∧ kept s'.env = kept s.env ∧ ∃ p, accepted s'.env = accepted s.env ++ p ∧
      buff.take w ++ p <+: buff.take n.toNat ∧ ∀ k, m = some k → buff.take w ++ p = buff.take n.toNat ∧ 0 ≤ n ∧ n ≤ buff.length ∧ k = n := by
  obtain ⟨_, t, ht, h⟩ := Prog.returns_bind.mp h
  obtain ⟨hts, hta, htk⟩ := outside_idle (S.delay 1) _ _ _ ht
  split at h
  · exact absurd h Prog.returns_undefined
  rename_i rest hslice
  obtain ⟨w', u, hu, h⟩ := Prog.returns_bind.mp h
  obtain ⟨e, he, rfl⟩ := returns_outside.mp hu
  obtain ⟨hle, hacc, hkept⟩ := S.write _ _ _ _ he
  obtain ⟨hwn, hfit, hlen, hall, hpre⟩ := take_slice_prefix w' hslice
  have hw' : int32 w' = w' := int32_eq (by omega) (by omega)
  have htaken {v : Live C (HTTPClient C)} (hv : (idle accepted kept).rel ⟨t.self, e⟩ v) :
      v.self = s.self ∧ kept v.env = kept s.env ∧ accepted v.env = accepted s.env ++ rest.take w' :=
    ⟨hv.1.trans hts, hv.2.2.trans (hkept.trans htk), by rw [hv.2.1, ← hta]; exact hacc⟩
  have failed {v : Live C (HTTPClient C)} (hv : (idle accepted kept).rel ⟨t.self, e⟩ v) :
      v.self = s.self ∧ kept v.env = kept s.env ∧ ∃ p, accepted v.env = accepted s.env ++ p ∧
        buff.take w ++ p <+: buff.take n.toNat ∧
        ∀ k : Int, none = some k → buff.take w ++ p = buff.take n.toNat ∧ 0 ≤ n ∧ n ≤ buff.length ∧ k = n :=
    ⟨(htaken hv).1, (htaken hv).2.1, _, (htaken hv).2.2, hpre, fun k hk => absurd hk (by simp)⟩
  rw [hw', Prog.returns_ite] at h
  rcases h with ⟨_, h⟩ | ⟨hfull, h⟩
  · obtain ⟨rfl, rfl⟩ := Prog.returns_pure.mp h
    exact failed ((idle accepted kept).refl _)
  obtain ⟨err, v, hv, h⟩ := Prog.returns_bind.mp h
  replace hv := outside_idle S.getWriteError _ _ _ hv
  rw [Prog.returns_ite] at h
  rcases h with ⟨_, h⟩ | ⟨_, h⟩ <;> obtain ⟨rfl, rfl⟩ := Prog.returns_pure.mp h
  · exact failed hv
  · have hrest : rest.take w' = rest := List.take_of_length_le (by omega)
    refine ⟨(htaken hv).1, (htaken hv).2.1, rest, ?_, ?_, ?_⟩
    · rw [(htaken hv).2.2, hrest]
    · exact hall ▸ List.prefix_rfl
    · rintro k hk
      obtain rfl := Option.some.inj hk
      exact ⟨hall, by omega, hfit, by omega⟩

omit S in
theorem connected_idle {r : Ref} {s : Live C (HTTPClient C)} {b s'} (ha : (net.available r).Guarantees (.same fun e => (accepted e, kept e)))
    (hup : (net.connected r).Guarantees (.same fun e => (accepted e, kept e))) (hc : s.self._client = some r)
    (h : (connected net).Returns s b s') : (idle accepted kept).rel s s' := by
  rw [connected, returns_obj_bind] at h
  simp only [hc] at h
  obtain ⟨a, t, ht, h⟩ := Prog.returns_bind.mp h
  replace ht := outside_idle ha _ _ _ ht
  rw [Prog.returns_ite] at h
  rcases h with ⟨_, h⟩ | ⟨_, h⟩
  · obtain ⟨-, rfl⟩ := Prog.returns_pure.mp h
    exact ht
  · exact (idle accepted kept).trans ht (outside_idle hup _ _ _ h)

/-- What the writes of a block are to hand on: what was read, where the first
write takes it; else as many bytes as were asked for. -/
def handed (buff got : Bytes) (n : Int) (w : Nat) : Bytes := if w = got.length then got else buff.take n.toNat

/-- A block of which `got` was read, where `n` bytes were asked for: the sink
takes a prefix of what it is handed, and all of it where there is no error. -/
theorem passOn_accepts {buff got : Bytes} {n : Int} (hn : n < 2 ^ 31) (hbuff : got <+: buff) (hgot : got.length < 2 ^ 31)
    {s : Live C (HTTPClient C)} {m s'}
    (h : (passOn net write getWriteError clearWriteError buff got n).Returns s m s') :
    s'.self = s.self ∧ kept s'.env = kept s.env ∧ ∃ w e p, (write got).Returns s.env w e ∧ w ≤ got.length ∧
      accepted s'.env = accepted s.env ++ p ∧ (p <+: handed buff got n w ∨ p <+: got) ∧
      ∀ k, m = some k → p = handed buff got n w ∧ k = p.length ∧ (w = got.length ∨ p.length = n) := by
  obtain ⟨w, t, ht, h⟩ := Prog.returns_bind.mp h
  obtain ⟨e, he, rfl⟩ := returns_outside.mp ht
  obtain ⟨hle, hacc, hkept⟩ := S.write _ _ _ _ he
  have hw : int32 w = w := int32_eq (by omega) (by omega)
  have htake : got.take w = buff.take w := by
    obtain ⟨tail, rfl⟩ := hbuff
    rw [List.take_append_of_le_length hle]
  rw [hw, Prog.returns_ite] at h
  rcases h with ⟨hcut, h⟩ | ⟨hfull, h⟩
  · have hcut : w ≠ got.length := by omega
    obtain ⟨err, u, hu, h⟩ := Prog.returns_bind.mp h
    replace hu := outside_idle S.getWriteError _ _ _ hu
    have left {v : Live C (HTTPClient C)} (hv : (idle accepted kept).rel ⟨s.self, e⟩ v)
        (h : (writeLeft net write getWriteError buff w (n - w)).Returns v m s') :
        s'.self = s.self ∧ kept s'.env = kept s.env ∧ ∃ w e p, (write got).Returns s.env w e ∧ w ≤ got.length ∧
          accepted s'.env = accepted s.env ++ p ∧ (p <+: handed buff got n w ∨ p <+: got) ∧
          ∀ k, m = some k → p = handed buff got n w ∧ k = p.length ∧ (w = got.length ∨ p.length = n) := by
      obtain ⟨hself, hk, p, hp, hpre, hall⟩ := writeLeft_accepts S hn h
      refine ⟨hself.trans hv.1, hk.trans (hv.2.2.trans hkept), w, e, buff.take w ++ p, he, hle, ?_, .inl ?_, ?_⟩
      · rw [hp, hv.2.1, hacc, htake, List.append_assoc]
      · rw [handed, if_neg hcut]
        exact hpre
      · rintro k hk
        obtain ⟨hp, hn₀, hfit, rfl⟩ := hall k hk
        rw [handed, if_neg hcut, hp, List.length_take]
        exact ⟨rfl, by omega, .inr (by omega)⟩
    rw [Prog.returns_ite] at h
    rcases h with ⟨_, h⟩ | ⟨_, h⟩
    · obtain ⟨_, v, hv, h⟩ := Prog.returns_bind.mp h
      exact left ((idle accepted kept).trans hu (outside_idle S.clearWriteError _ _ _ hv)) h
    · exact left hu h
  · have hfull : w = got.length := by omega
    have hgotall : got.take w = got := List.take_of_length_le (by omega)
    obtain ⟨err, u, hu, h⟩ := Prog.returns_bind.mp h
    obtain ⟨hus, hua, huk⟩ := outside_idle S.getWriteError _ _ _ hu
    have hend : u.self = s.self ∧ kept u.env = kept s.env ∧ accepted u.env = accepted s.env ++ got :=
      ⟨hus, huk.trans hkept, by rw [hua, hacc, hgotall]⟩
    rw [Prog.returns_ite] at h
    rcases h with ⟨_, h⟩ | ⟨_, h⟩ <;> obtain ⟨rfl, rfl⟩ := Prog.returns_pure.mp h
    · exact ⟨hend.1, hend.2.1, w, e, got, he, hle, hend.2.2, .inr List.prefix_rfl, fun k hk => absurd hk (by simp)⟩
    · refine ⟨hend.1, hend.2.1, w, e, got, he, hle, hend.2.2, .inr List.prefix_rfl, fun k hk => ?_⟩
      have hk : (w : Int) = k := Option.some.inj hk
      rw [handed, if_pos hfull]
      exact ⟨rfl, by omega, .inl hfull⟩

end HTTPClient

/-! ## The download -/

/-- The connection `r` and the sink of a download: what the connection has
still to give, and what the sink has taken. Up to what is available,
`readBytes` gives what it is asked for; the two are compared as `size_t`, as
the sources do. Nothing is said of how much is available when. -/
structure Download {C : Type} (net : Connection C) (r : Ref) (stream : AppStream C) where
  unread : C → Bytes
  accepted : C → Bytes
  available : ∀ e a e', (net.available r).Returns e a e' → -2 ^ 31 ≤ a ∧ a < 2 ^ 31 ∧
    unread e' = unread e ∧ accepted e' = accepted e ∧
    ∀ n bs e'', n ≤ sizeT a → (net.readBytes r n).Returns e' bs e'' → bs.length = n
  readBytes : ∀ n e bs e', (net.readBytes r n).Returns e bs e' → unread e = bs ++ unread e' ∧ accepted e' = accepted e
  connected : (net.connected r).Guarantees (.same fun e => (accepted e, unread e))
  malloc : ∀ n e block e', (net.malloc n).Returns e block e' → unread e' = unread e ∧ accepted e' = accepted e ∧
    ∀ buff, block = some buff → buff.length = n
  sink : Sink net stream.write stream.getWriteError stream.clearWriteError accepted unread

namespace HTTPClient

variable {C : Type} {net : Connection C} {r : Ref} {stream : AppStream C} (W : Download net r stream) {c : HTTPClient C}

theorem connected_moves_nothing {s : Live C (HTTPClient C)} {b s'} (hc : s.self._client = some r)
    (h : (connected net).Returns s b s') : (idle W.accepted W.unread).rel s s' := by
  refine connected_idle (fun e a e' he => ?_) W.connected hc h
  obtain ⟨-, -, hun, hacc, -⟩ := W.available _ _ _ he
  exact Prod.ext hacc hun

/-- From `e` to `e'` the sink took the bytes `data`, and they are what the
connection gave. -/
def Download.Moved (e e' : C) (data : Bytes) : Prop :=
  W.unread e = data ++ W.unread e' ∧ W.accepted e' = W.accepted e ++ data

/-- How far the copy of `size` bytes is. -/
structure Moving (c : HTTPClient C) (e₀ : C) (size : Int) (l : CopyState) (s : Live C (HTTPClient C)) : Prop where
  self : s.self = c
  buff : l.buff.length ≤ 1460
  bound : 0 ≤ l.len
  moved : ∃ data, Download.Moved W e₀ s.env data ∧ l.bytesWritten = data.length ∧ l.len = size - data.length

theorem Moving.quiet {e₀ : C} {size : Int} {l : CopyState} {s s' : Live C (HTTPClient C)} (h : Moving W c e₀ size l s)
    (hss : (idle W.accepted W.unread).rel s s') : Moving W c e₀ size l s' := by
  obtain ⟨hself, hacc, hun⟩ := hss
  obtain ⟨data, ⟨hdata, htaken⟩, hcount⟩ := h.moved
  exact ⟨hself.trans h.self, h.buff, h.bound, data, ⟨by rw [hun]; exact hdata, hacc.trans htaken⟩, hcount⟩

/-- What the copy of `size` bytes may leave behind. -/
def Ended (e₀ : C) (size v : Int) (e : C) : Prop :=
  (0 ≤ v → v = size ∧ ∃ data : Bytes, data.length = size ∧ Download.Moved W e₀ e data) ∧
  (v < 0 → ∃ data rest : Bytes, W.unread e₀ = data ++ rest ∧ W.accepted e = W.accepted e₀ ++ data)

/-- What a turn leaves. -/
def Moves (c : HTTPClient C) (e₀ : C) (size : Int) (s : Live C (HTTPClient C)) : Turn CopyState Int → Prop
  | .next l => Moving W c e₀ size l s
  | .exit v => Ended W e₀ size v s.env

/-- A turn that reads `n` bytes: the sink takes them, or a prefix of them and
it is the end. -/
theorem copyTurn_moves {e₀ : C} {size n : Int} {l : CopyState} {s : Live C (HTTPClient C)} {x s'}
    (h : Moving W c e₀ size l s) (hc : c._client = some r) (hsize : size < 2 ^ 31) (hint : -2 ^ 31 ≤ n) (hn : n ≤ l.len)
    (hlen : 0 < l.len) (hfull : ∀ bs e, (net.readBytes r (sizeT n)).Returns s.env bs e → bs.length = sizeT n)
    (hx : (copyTurn net stream l n).Returns s x s') : Moves W c e₀ size s' x := by
  obtain ⟨data, ⟨hdata, htaken⟩, hcount, hrest⟩ := h.moved
  have hsc : s.self._client = some r := by rw [h.self]; exact hc
  obtain ⟨got, t, ht, hx⟩ := Prog.returns_bind.mp hx
  obtain ⟨e, he, rfl⟩ := (returns_onClient hsc).mp ht
  have hgot := hfull _ _ he
  obtain ⟨hun, hacc⟩ := W.readBytes _ _ _ _ he
  split at hx
  · exact absurd hx Prog.returns_undefined
  rename_i buff hpoke
  obtain ⟨hfits, rfl⟩ := poke_some hpoke
  have hbuff := h.buff
  -- More than fits is never read, so `n` is no negative number.
  have hn₀ : sizeT n = n := by
    have : (n % 2 ^ 32).toNat = sizeT n := rfl
    omega
  have hprefix : got <+: l.buff.take 0 ++ got ++ l.buff.drop (0 + got.length) := by simp
  obtain ⟨m, u, hu, hx⟩ := Prog.returns_bind.mp hx
  obtain ⟨hself, hkept, w, e', p, -, -, hp, hpre, hall⟩ := passOn_accepts W.sink (by omega) hprefix (by omega) hu
  have hhanded : handed (l.buff.take 0 ++ got ++ l.buff.drop (0 + got.length)) got n w = got := by
    rw [handed, show n.toNat = got.length by omega]
    simp
  rw [hhanded] at hall hpre
  cases m with
  | none =>
    obtain ⟨rfl, rfl⟩ := Prog.returns_pure.mp hx
    obtain ⟨q, rfl⟩ := or_self_iff.mp hpre
    refine ⟨fun h => absurd h (by decide), fun _ => ⟨data ++ p, q ++ W.unread e, ?_, ?_⟩⟩
    · rw [hdata, hun]
      simp
    · rw [hp, hacc, htaken, List.append_assoc]
  | some k =>
    obtain ⟨rfl, hk, -⟩ := hall k rfl
    obtain ⟨_, v, hv, hx⟩ := Prog.returns_bind.mp hx
    obtain ⟨rfl, rfl⟩ := Prog.returns_pure.mp hx
    obtain ⟨hvs, hva, hvu⟩ := outside_idle (W.sink.delay 0) _ _ _ hv
    have hsum : int32 (l.bytesWritten + k) = l.bytesWritten + k := int32_eq (by omega) (by omega)
    refine ⟨(hvs.trans hself).trans h.self, ?_, ?_, data ++ p, ⟨?_, ?_⟩, ?_, ?_⟩
    · simp only [List.length_append, List.length_take, List.length_drop]
      omega
    · show 0 ≤ if l.len > 0 then l.len - n else l.len
      rw [if_pos hlen]
      omega
    · rw [hdata, hun, hvu, hkept, List.append_assoc]
    · rw [hva, hp, hacc, htaken, List.append_assoc]
    · show int32 (l.bytesWritten + k) = ((data ++ p).length : Nat)
      rw [hsum, List.length_append]
      omega
    · show (if l.len > 0 then l.len - n else l.len) = size - ((data ++ p).length : Nat)
      rw [if_pos hlen, List.length_append]
      omega

theorem blockTurn_moves {e₀ : C} {size : Int} {l : CopyState} {s : Live C (HTTPClient C)} {x s'}
    (h : Moving W c e₀ size l s) (hc : c._client = some r) (hpos : 0 < size) (hsize : size < 2 ^ 31)
    (hx : (blockTurn net stream size (blockSize size) l).Returns s x s') : Moves W c e₀ size s' x := by
  have done {t : Live C (HTTPClient C)} (h : Moving W c e₀ size l t) : Ended W e₀ size (blockResult size l.bytesWritten) t.env := by
    obtain ⟨data, hmoved, hcount, hrest⟩ := h.moved
    rw [blockResult]
    by_cases hall : size = l.bytesWritten
    · rw [if_neg (fun hne => hne.2 hall)]
      exact ⟨fun _ => ⟨hall.symm, data, by omega, hmoved⟩, fun hneg => absurd hneg (by omega)⟩
    · rw [if_pos ⟨hpos, hall⟩]
      exact ⟨fun h => absurd h (by decide), fun _ => ⟨data, _, hmoved.1, hmoved.2⟩⟩
  obtain ⟨up, t, ht, hx⟩ := Prog.returns_bind.mp hx
  replace h := h.quiet W (connected_moves_nothing W (by rw [h.self]; exact hc) ht)
  rw [Prog.returns_ite] at hx
  rcases hx with ⟨_, hx⟩ | ⟨hgo, hx⟩
  · obtain ⟨rfl, rfl⟩ := Prog.returns_pure.mp hx
    exact done h
  obtain ⟨a, u, hu, hx⟩ := Prog.returns_bind.mp hx
  have htc : t.self._client = some r := by rw [h.self]; exact hc
  obtain ⟨e, he, rfl⟩ := (returns_onClient htc).mp hu
  obtain ⟨ha₀, ha₁, hun, hacc, hfull⟩ := W.available _ _ _ he
  replace h := h.quiet W (show (idle W.accepted W.unread).rel t ⟨t.self, e⟩ from ⟨rfl, hacc, hun⟩)
  rw [Prog.returns_ite] at hx
  rcases hx with ⟨_, hx⟩ | ⟨_, hx⟩
  · obtain ⟨_, v, hv, hx⟩ := Prog.returns_bind.mp hx
    obtain ⟨rfl, rfl⟩ := Prog.returns_pure.mp hx
    exact h.quiet W (outside_idle (W.sink.delay 1) _ _ _ hv)
  rw [int32_sizeT ha₀ ha₁, Prog.returns_ite] at hx
  rcases hx with ⟨_, hx⟩ | ⟨_, hx⟩
  · obtain ⟨rfl, rfl⟩ := Prog.returns_pure.mp hx
    exact done h
  · have hlen : 0 < l.len := by
      have := h.bound
      by_contra hnot
      exact hgo (.inr fun hl => by omega)
    have hblock := blockSize_range size
    have hcount : readCount a l.len (blockSize size) ≤ a ∧ readCount a l.len (blockSize size) ≤ l.len ∧
        (a < 0 → readCount a l.len (blockSize size) = a) ∧ (0 ≤ a → 0 ≤ readCount a l.len (blockSize size)) := by
      simp only [readCount]
      split <;> split <;> omega
    generalize readCount a l.len (blockSize size) = n at hcount hx
    refine copyTurn_moves W h hc hsize (by omega) hcount.2.1 hlen (fun bs e => hfull _ bs e ?_) hx
    by_cases hneg : a < 0
    · rw [hcount.2.2.1 hneg]
    · have hnonneg := Int.not_lt.mp hneg
      rw [sizeT_eq (hcount.2.2.2 hnonneg) (by omega), sizeT_eq hnonneg (by omega)]
      omega

/-- **The copy of a body is exact.** However the bytes of the connection become
available, and whatever parts of them the sink takes and errors it raises, the
copy of `size` bytes reports no other count than `size`; then the sink has taken
the next `size` bytes, and these are what was read. After an error, what it has
taken are the first of the connection's bytes. -/
theorem writeToStreamDataBlock_exact {size v : Int} (hpos : 0 < size) (hsize : size < 2 ^ 31) {s s' : Live C (HTTPClient C)}
    (hc : s.self._client = some r) (h : (writeToStreamDataBlock net stream size).Returns s v s') :
    (0 ≤ v → v = size ∧ ∃ data : Bytes, data.length = size ∧
      W.unread s.env = data ++ W.unread s'.env ∧ W.accepted s'.env = W.accepted s.env ++ data) ∧
    (v < 0 → ∃ data rest : Bytes, W.unread s.env = data ++ rest ∧ W.accepted s'.env = W.accepted s.env ++ data) := by
  obtain ⟨block, t, ht, h⟩ := Prog.returns_bind.mp h
  obtain ⟨e, he, rfl⟩ := returns_outside.mp ht
  obtain ⟨hun, hacc, hlength⟩ := W.malloc _ _ _ _ he
  cases block with
  | none =>
    obtain ⟨rfl, rfl⟩ := Prog.returns_pure.mp h
    exact ⟨fun h => absurd h (by decide), fun _ => ⟨[], _, rfl, hacc.trans (List.append_nil _).symm⟩⟩
  | some buff =>
    have h : (Prog.loop (blockTurn net stream size (blockSize size)) { len := size, buff := buff }).Returns
      ⟨s.self, e⟩ v s' := h
    have hbuff := hlength buff rfl
    have hblock := blockSize_range size
    have start : Moving W s.self s.env size { len := size, buff := buff } ⟨s.self, e⟩ :=
      ⟨rfl, show buff.length ≤ 1460 by omega, Int.le_of_lt hpos, [], ⟨hun.symm, hacc.trans (List.append_nil _).symm⟩,
        rfl, (Int.sub_zero _).symm⟩
    refine Prog.Returns.loop_inv (Moving W s.self s.env size) (fun (v : Int) t => Ended W s.env size v t.env) ?_ h start
    intro l u x u' hl hx
    have := blockTurn_moves W hl hc hpos hsize hx
    cases x <;> exact this

end HTTPClient

namespace BodyDemo

open Prog (step)

/-- A stream that takes two bytes at a time. -/
def narrow : AppStream Host where
  write bs := step fun e => (min 2 bs.length, { e with accepted := e.accepted ++ bs.take (min 2 bs.length) })
  getWriteError := pure 0
  clearWriteError := pure ()
  available := pure 0
  readBytes _ := pure []

theorem poll_range {e e' : Host} {a : Int} (h : (connection.available 0).Returns e a e') : -2 ^ 31 ≤ a ∧ a < 2 ^ 31 ∧
    e'.unread = e.unread ∧ e'.accepted = e.accepted ∧
    ∀ n bs e'', n ≤ sizeT a → (connection.readBytes 0 n).Returns e' bs e'' → bs.length = n := by
  have hpoll : poll e = (a, e') := Prog.returns_step.mp h
  rw [poll] at hpoll
  have hlen : ((min 3 e.unread.length : Nat) : Int) < 2 ^ 31 := by omega
  split at hpoll <;> obtain ⟨rfl, rfl⟩ := Prod.mk.inj hpoll
  · refine ⟨by omega, hlen, rfl, rfl, fun n bs e'' hn hread => ?_⟩
    obtain ⟨rfl, _⟩ := Prod.mk.inj (Prog.returns_step.mp hread).symm
    rw [sizeT_natCast (by omega)] at hn
    rw [List.length_take]
    omega
  · refine ⟨by decide, by decide, rfl, rfl, fun n bs e'' hn hread => ?_⟩
    obtain ⟨rfl, _⟩ := Prod.mk.inj (Prog.returns_step.mp hread).symm
    rw [Nat.le_zero.mp hn]
    rfl

def download : Download connection 0 narrow where
  unread := Host.unread
  accepted := Host.accepted
  available _ _ _ := poll_range
  readBytes n e bs e' h := by
    obtain ⟨rfl, rfl⟩ := Prod.mk.inj (Prog.returns_step.mp h).symm
    exact ⟨(List.take_append_drop n e.unread).symm, rfl⟩
  connected := .pure
  malloc n e block e' h := by
    obtain ⟨rfl, rfl⟩ := Prog.returns_pure.mp h
    refine ⟨rfl, rfl, fun buff hbuff => ?_⟩
    obtain rfl := Option.some.inj hbuff
    exact List.length_replicate
  sink := {
    write := by
      intro bs e n e' h
      obtain ⟨rfl, rfl⟩ := Prod.mk.inj (Prog.returns_step.mp h).symm
      exact ⟨Nat.min_le_right _ _, rfl, rfl⟩
    getWriteError := .pure
    clearWriteError := .pure
    delay := fun _ => .pure }

end BodyDemo

/-- Of eight bytes five are copied: three are read and taken as two and one,
then two are. -/
theorem HTTPClient.hello_exact : ∃ s', (writeToStreamDataBlock BodyDemo.connection BodyDemo.narrow 5).Returns
    ⟨BodyDemo.client, { unread := bytes "hello, w" }⟩ 5 s' ∧ s'.env.accepted.length = 5 ∧
    bytes "hello, w" = s'.env.accepted ++ s'.env.unread := by
  have hrun : (writeToStreamDataBlock BodyDemo.connection BodyDemo.narrow 5).Returns
      ⟨BodyDemo.client, { unread := bytes "hello, w" }⟩ 5 _ := .of_run 40 (by decide +kernel)
  obtain ⟨-, data, hlen, hun, hacc⟩ :=
    (writeToStreamDataBlock_exact BodyDemo.download (by decide) (by decide) rfl hrun).1 (by decide)
  have hacc : BodyDemo.Host.accepted _ = data := hacc
  refine ⟨_, hrun, ?_, ?_⟩
  · rw [hacc]
    omega
  · rw [hacc]
    exact hun

end FEmbed
