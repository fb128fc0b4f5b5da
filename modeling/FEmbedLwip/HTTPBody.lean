/-
How `writeToStreamDataBlock` copies: from a connection that stays up
(`Delivery`) it takes exactly the bytes it is asked for, whatever the order in
which they become available.
-/
import FEmbedLwip.HTTPClient

namespace FEmbed

open Live

/-! ## Calls out -/

namespace HTTPClient

variable {C α β : Type} {net : Connection C}

@[simp] theorem returns_outside {x : Prog C α} {s : Live C (HTTPClient C)} {a s'} :
    (outside x).Returns s a s' ↔ ∃ e, x.Returns s.env a e ∧ s' = ⟨s.self, e⟩ := Prog.returns_zoom

theorem returns_onClient {f : Ref → Prog C α} {s : Live C (HTTPClient C)} {r : Ref} {a s'}
    (h : s.self._client = some r) :
    (onClient f).Returns s a s' ↔ ∃ e, (f r).Returns s.env a e ∧ s' = ⟨s.self, e⟩ := by
  rw [onClient, returns_obj_bind, h]
  exact returns_outside

/-- A call that returns is a step of what follows it. -/
theorem returns_outside_bind {x : Prog C α} {k : α → Prog (Live C (HTTPClient C)) β} {c : HTTPClient C} {e a e' b s'}
    (h : x.Returns e a e') : (outside x >>= k).Returns ⟨c, e⟩ b s' ↔ (k a).Returns ⟨c, e'⟩ b s' :=
  Prog.returns_bind_of (returns_outside.mpr ⟨e', h, rfl⟩)

theorem returns_onClient_bind {f : Ref → Prog C α} {k : α → Prog (Live C (HTTPClient C)) β} {c : HTTPClient C}
    {r : Ref} {e a e' b s'} (hc : c._client = some r) (h : (f r).Returns e a e') :
    (onClient f >>= k).Returns ⟨c, e⟩ b s' ↔ (k a).Returns ⟨c, e'⟩ b s' :=
  Prog.returns_bind_of ((returns_onClient hc).mpr ⟨e', h, rfl⟩)

/-- An error is returned as it is, and what is none changes nothing. -/
theorem returnError_returns {s : Live C (HTTPClient C)} {error v : Int} {s'} (h : (returnError net error).Returns s v s') :
    v = error ∧ (0 ≤ error → s' = s) := by
  rw [returnError, Prog.returns_ite] at h
  rcases h with ⟨hneg, h⟩ | ⟨_, h⟩
  · refine ⟨?_, fun h => by omega⟩
    obtain ⟨up, t, _, h⟩ := Prog.returns_bind.mp h
    rw [Prog.returns_ite] at h
    rcases h with ⟨_, h⟩ | ⟨_, h⟩
    · obtain ⟨_, u, _, h⟩ := Prog.returns_bind.mp h
      exact (Prog.returns_pure.mp h).1
    · exact (Prog.returns_pure.mp h).1
  · exact ⟨(Prog.returns_pure.mp h).1, fun _ => (Prog.returns_pure.mp h).2⟩

end HTTPClient

/-! ## A connection that stays up -/

/-- What `readStringUntil('\n')` reads. -/
def firstLine (s : Bytes) : Bytes := s.takeWhile (· != 10)

/-- What is left after it. -/
def afterLine (s : Bytes) : Bytes := (s.dropWhile (· != 10)).tail

/-- What is looked at: whether the connection is up, the bytes of the peer
that are still to be read, those the application's stream has taken, and how
long the next bytes may still take. -/
structure BodyView (C : Type) where
  up : C → Prop
  unread : C → Bytes
  accepted : C → Bytes
  wait : C → Nat

/-- Nothing is read or written; time may pass. -/
structure BodyView.Quiet {C : Type} (v : BodyView C) (e e' : C) : Prop where
  up : v.up e'
  unread : v.unread e' = v.unread e
  accepted : v.accepted e' = v.accepted e
  wait : v.wait e' ≤ v.wait e

theorem BodyView.Quiet.trans {C : Type} {v : BodyView C} {e e' e'' : C} (h : v.Quiet e e') (h' : v.Quiet e' e'') :
    v.Quiet e e'' :=
  ⟨h'.up, h'.unread.trans h.unread, h'.accepted.trans h.accepted, Nat.le_trans h'.wait h.wait⟩

/-- The connection `r` stays up and delivers the peer's bytes: what is unread
becomes available sooner or later, in any pieces. Lines are read completely;
the last one may end with the bytes. There is memory for the buffer, and the
stream takes all it is given. -/
structure Delivery {C : Type} (net : Connection C) (r : Ref) (stream : AppStream C) extends BodyView C where
  available : ∀ e, up e → ∃ a e', (net.available r).Returns e a e' ∧ toBodyView.Quiet e e' ∧ 0 ≤ a ∧ a < 2 ^ 31 ∧
    a.toNat ≤ (unread e).length ∧ (a = 0 → unread e ≠ [] → wait e' < wait e)
  connected : ∀ e, up e → ∃ e', (net.connected r).Returns e true e' ∧ toBodyView.Quiet e e'
  read : ∀ e, up e → unread e ≠ [] → ∃ b e', (net.read r).Returns e b e' ∧ up e' ∧ unread e' = (unread e).tail ∧
    accepted e' = accepted e
  readBytes : ∀ n e, up e → ∃ e', (net.readBytes r n).Returns e ((unread e).take n) e' ∧ up e' ∧
    unread e' = (unread e).drop n ∧ accepted e' = accepted e
  readLine : ∀ e, up e → ∃ e', (net.readStringUntil r 10).Returns e (firstLine (unread e)) e' ∧ up e' ∧
    unread e' = afterLine (unread e) ∧ accepted e' = accepted e
  stop : ∀ e, up e → ∃ e', (net.stop r).Returns e () e' ∧ accepted e' = accepted e
  release : ∀ r' e, ∃ e', (net.release r').Returns e () e' ∧ accepted e' = accepted e
  malloc : ∀ n e, up e → ∃ block e', (net.malloc n).Returns e (some block) e' ∧ block.length = n ∧ toBodyView.Quiet e e'
  delay : ∀ n e, up e → ∃ e', (net.delay n).Returns e () e' ∧ toBodyView.Quiet e e'
  write : ∀ bs e, up e → ∃ e', (stream.write bs).Returns e bs.length e' ∧ up e' ∧ unread e' = unread e ∧
    accepted e' = accepted e ++ bs
  getWriteError : ∀ e, up e → ∃ e', stream.getWriteError.Returns e 0 e' ∧ toBodyView.Quiet e e'

namespace HTTPClient

variable {C : Type} {net : Connection C} {r : Ref} {stream : AppStream C} (D : Delivery net r stream)

include D

variable {c : HTTPClient C}

theorem connected_up (hc : c._client = some r) {e : C} (hup : D.up e) :
    ∃ e', (connected net).Returns ⟨c, e⟩ true ⟨c, e'⟩ ∧ D.Quiet e e' := by
  obtain ⟨a, e₁, ha, hq, _⟩ := D.available e hup
  rw [connected]
  simp only [returns_obj_bind, hc]
  by_cases hpos : a > 0
  · refine ⟨e₁, ?_, hq⟩
    rw [returns_outside_bind ha, if_pos hpos]
    simp
  · obtain ⟨e₂, hcon, hq'⟩ := D.connected e₁ hq.up
    refine ⟨e₂, ?_, hq.trans hq'⟩
    rw [returns_outside_bind ha, if_neg hpos, returns_outside]
    exact ⟨e₂, hcon, rfl⟩

/-- A stream that takes all has nothing to be written again. -/
theorem passOn_all (buff : Bytes) {got : Bytes} (readBytes : Int) (hlen : got.length < 2 ^ 31) {e : C} (hup : D.up e) :
    ∃ e', (passOn net stream.write stream.getWriteError stream.clearWriteError buff got readBytes).Returns
        ⟨c, e⟩ (some got.length) ⟨c, e'⟩ ∧
      D.up e' ∧ D.unread e' = D.unread e ∧ D.accepted e' = D.accepted e ++ got := by
  obtain ⟨e₁, hw, hup₁, hun, hacc⟩ := D.write got e hup
  obtain ⟨e₂, herr, hq⟩ := D.getWriteError e₁ hup₁
  refine ⟨e₂, ?_, hq.up, hq.unread.trans hun, hq.accepted.trans hacc⟩
  have hint : int32 (got.length : Nat) = got.length := int32_eq (by omega) (by omega)
  rw [passOn, returns_outside_bind hw, hint, if_neg (fun h => h rfl), returns_outside_bind herr, if_neg (by decide)]
  simp

/-- After `k` of `size` bytes: how far the copy is. -/
structure Copied (c : HTTPClient C) (e₀ : C) (size k : Nat) (l : CopyState) (s : Live C (HTTPClient C)) : Prop where
  self : s.self = c
  up : D.up s.env
  bound : k ≤ size
  len : l.len = (size - k : Nat)
  bytesWritten : l.bytesWritten = k
  buff : l.buff.length = (blockSize size).toNat
  unread : D.unread s.env = (D.unread e₀).drop k
  accepted : D.accepted s.env = D.accepted e₀ ++ (D.unread e₀).take k

omit D in
theorem blockSize_range (size : Int) : 0 < blockSize size ∧ blockSize size ≤ 1460 := by
  rw [blockSize, httpTcpBufferSize]
  by_cases h : size > 0 ∧ size < 1460
  · rw [if_pos h]; omega
  · rw [if_neg h]; omega

omit D in
theorem poke_zero {a bs : Bytes} (h : bs.length ≤ a.length) :
    ∃ a', poke a 0 bs = some a' ∧ a'.length = a.length := by
  refine ⟨_, if_pos (by omega), ?_⟩
  simp only [List.take_zero, List.nil_append, List.length_append, List.length_drop]
  omega

omit D in
theorem slice_some {a : Bytes} {i n : Int} (hi : 0 ≤ i) (hn : 0 ≤ n) (h : i + n ≤ a.length) :
    ∃ bs, slice a i n = some bs := ⟨_, if_pos ⟨hi, hn, h⟩⟩

omit D in
theorem readCount_le (a len buffSize : Int) : readCount a len buffSize ≤ buffSize := by
  simp only [readCount]
  split <;> split <;> omega

/-- A turn of the copy loop that has something to read. -/
theorem copyTurn_copies {e₀ e : C} {size k n : Nat} {l : CopyState} (hc : c._client = some r) (hsize : size < 2 ^ 31)
    (hle : size ≤ (D.unread e₀).length) (h : Copied D c e₀ size k l ⟨c, e⟩) (hn : 0 < n) (hn' : n ≤ size - k)
    (hbuff : n ≤ (blockSize size).toNat) :
    ∃ l' e', (copyTurn net stream l n).Returns ⟨c, e⟩ (.next l') ⟨c, e'⟩ ∧ Copied D c e₀ size (k + n) l' ⟨c, e'⟩ := by
  have hbound := h.bound
  obtain ⟨e₁, hread, hup₁, hun₁, hacc₁⟩ := D.readBytes n e h.up
  have hlen : ((D.unread e).take n).length = n := by
    have hun : D.unread e = (D.unread e₀).drop k := h.unread
    rw [List.length_take, hun, List.length_drop]
    omega
  obtain ⟨buff, hpoke, hbufflen⟩ := poke_zero (show ((D.unread e).take n).length ≤ l.buff.length by rw [hlen, h.buff]; exact hbuff)
  obtain ⟨e₂, hpass, hup₂, hun₂, hacc₂⟩ :=
    passOn_all D (c := c) buff n (show ((D.unread e).take n).length < 2 ^ 31 by omega) hup₁
  obtain ⟨e₃, hdelay, hq⟩ := D.delay 0 e₂ hup₂
  refine ⟨⟨if l.len > 0 then l.len - n else l.len, int32 (l.bytesWritten + ((D.unread e).take n).length), buff⟩, e₃, ?_, ?_⟩
  · rw [copyTurn, sizeT_natCast (by omega), returns_onClient_bind hc hread]
    simp only [hpoke]
    rw [Prog.returns_bind_of hpass]
    simp only [returns_outside_bind hdelay, Prog.returns_pure, and_true]
  · have hlpos : l.len > 0 := by have := h.len; omega
    refine ⟨rfl, hq.up, by omega, ?_, ?_, ?_, ?_, ?_⟩
    · rw [if_pos hlpos, h.len]
      show ((size - k : Nat) : Int) - n = ((size - (k + n) : Nat) : Int)
      omega
    · simp only [h.bytesWritten, hlen]
      exact int32_eq (by omega) (by omega)
    · exact hbufflen.trans h.buff
    · have hun : D.unread e = (D.unread e₀).drop k := h.unread
      show D.unread e₃ = _
      rw [hq.unread, hun₂, hun₁, hun, List.drop_drop]
    · have hun : D.unread e = (D.unread e₀).drop k := h.unread
      have hacc : D.accepted e = D.accepted e₀ ++ (D.unread e₀).take k := h.accepted
      show D.accepted e₃ = _
      rw [hq.accepted, hacc₂, hacc₁, hacc, hun, List.append_assoc, ← List.take_add]

omit D in
theorem readCount_pos {a len buffSize : Int} (ha : 0 < a) (hl : 0 < len) (hb : 0 < buffSize) :
    0 < readCount a len buffSize ∧ readCount a len buffSize ≤ a ∧ readCount a len buffSize ≤ len ∧
      readCount a len buffSize ≤ buffSize := by
  simp only [readCount]
  split <;> split <;> omega

/-- One turn of the loop: bytes are copied, time passes, or it is the end. -/
theorem blockTurn_copies {e₀ : C} {size k : Nat} {l : CopyState} {s : Live C (HTTPClient C)} (hc : c._client = some r)
    (hsize : size < 2 ^ 31) (hle : size ≤ (D.unread e₀).length) (h : Copied D c e₀ size k l s) :
    ∃ x t, (blockTurn net stream size (blockSize size) l).Returns s x t ∧
      match x with
      | .next l' => (∃ k, Copied D c e₀ size k l' t) ∧
        Prod.Lex (· < ·) (· < ·) (l'.len.toNat, D.wait t.env) (l.len.toNat, D.wait s.env)
      | .exit rv => rv = size ∧ t.self = c ∧ D.up t.env ∧ D.unread t.env = (D.unread e₀).drop size ∧
        D.accepted t.env = D.accepted e₀ ++ (D.unread e₀).take size := by
  obtain ⟨c', e⟩ := s
  obtain rfl : c = c' := h.self.symm
  obtain ⟨e₁, hcon, hq₁⟩ := connected_up D hc h.up
  have hb := blockSize_range size
  have hbound := h.bound
  have hlen := h.len
  have quiet {e' : C} (hq : D.Quiet e e') : Copied D c e₀ size k l ⟨c, e'⟩ :=
    ⟨rfl, hq.up, h.bound, h.len, h.bytesWritten, h.buff, hq.unread.trans h.unread, hq.accepted.trans h.accepted⟩
  rcases Nat.lt_or_ge k size with hk | hk
  · -- Something is left.
    obtain ⟨a, e₂, ha, hq₂, ha₀, ha₁, _, hwait⟩ := D.available e₁ hq₁.up
    have hgo : ¬ (¬ (true = true) ∨ ¬ (l.len > 0 ∨ l.len = -1)) := by
      rintro (h | h)
      · exact h rfl
      · exact h (.inl (by omega))
    by_cases hzero : a = 0
    · obtain ⟨e₃, hdelay, hq₃⟩ := D.delay 1 e₂ hq₂.up
      refine ⟨.next l, ⟨c, e₃⟩, ?_, ⟨k, quiet ((hq₁.trans hq₂).trans hq₃)⟩, Prod.Lex.right _ ?_⟩
      · rw [blockTurn, Prog.returns_bind_of hcon, if_neg hgo, returns_onClient_bind hc ha, hzero]
        simp only [show sizeT 0 = 0 from rfl, if_true, returns_outside_bind hdelay, Prog.returns_pure, and_self]
      · have hne : D.unread e₁ ≠ [] := by
          have hun : D.unread e₁ = (D.unread e₀).drop k := hq₁.unread.trans h.unread
          rw [hun]
          exact fun hnil => by have := congrArg List.length hnil; simp at this; omega
        exact Nat.lt_of_le_of_lt hq₃.wait (Nat.lt_of_lt_of_le (hwait hzero hne) hq₁.wait)
    · have hrc := readCount_pos (show 0 < (a : Int) by omega) (show 0 < l.len by omega) hb.1
      obtain ⟨n, hn⟩ := Int.eq_ofNat_of_zero_le (Int.le_of_lt hrc.1)
      obtain ⟨l', e₃, hcopy, h₃⟩ := copyTurn_copies D (n := n) hc hsize hle (quiet (hq₁.trans hq₂))
        (by omega) (by omega) (by omega)
      refine ⟨.next l', ⟨c, e₃⟩, ?_, ⟨k + n, h₃⟩, Prod.Lex.left _ _ ?_⟩
      · have ha' : sizeT a = a.toNat := sizeT_eq ha₀ (by omega)
        have hint : int32 (a.toNat : Nat) = a := by rw [Int.toNat_of_nonneg ha₀]; exact int32_eq (by omega) ha₁
        rw [blockTurn, Prog.returns_bind_of hcon, if_neg hgo, returns_onClient_bind hc ha]
        simp only [ha', hint, hn]
        have hsome : a.toNat ≠ 0 := fun h => hzero (Int.le_antisymm (Int.toNat_eq_zero.mp h) ha₀)
        have hcount : (n : Int) ≠ 0 := by rw [← hn]; exact Int.ne_of_gt hrc.1
        rw [if_neg hsome, if_neg hcount]
        exact hcopy
      · have hlen' := h₃.len
        show l'.len.toNat < l.len.toNat
        omega
  · -- All is copied.
    obtain rfl : k = size := Nat.le_antisymm h.bound hk
    refine ⟨.exit k, ⟨c, e₁⟩, ?_, rfl, rfl, hq₁.up, hq₁.unread.trans h.unread, hq₁.accepted.trans h.accepted⟩
    have hstop : ¬ (true = true) ∨ ¬ (l.len > 0 ∨ l.len = -1) := .inr (by omega)
    rw [blockTurn, Prog.returns_bind_of hcon, if_pos hstop, h.bytesWritten]
    simp [blockResult]

/-- **A block is copied exactly.** -/
theorem writeToStreamDataBlock_delivers {e : C} {size : Nat} (hc : c._client = some r) (hup : D.up e)
    (hsize : size < 2 ^ 31) (hle : size ≤ (D.unread e).length) :
    ∃ e', (writeToStreamDataBlock net stream size).Returns ⟨c, e⟩ size ⟨c, e'⟩ ∧ D.up e' ∧
      D.unread e' = (D.unread e).drop size ∧ D.accepted e' = D.accepted e ++ (D.unread e).take size := by
  obtain ⟨block, e₁, hmalloc, hblock, hq⟩ := D.malloc (blockSize size).toNat e hup
  -- By induction on the bytes left, and the time until there are some.
  have loop : ∃ rv s', (Prog.loop (blockTurn net stream size (blockSize size)) { len := size, buff := block }).Returns
      ⟨c, e₁⟩ rv s' ∧ rv = size ∧ s'.self = c ∧ D.up s'.env ∧ D.unread s'.env = (D.unread e₁).drop size ∧
        D.accepted s'.env = D.accepted e₁ ++ (D.unread e₁).take size := by
    have start : Copied D c e₁ size 0 { len := size, buff := block } ⟨c, e₁⟩ :=
      ⟨rfl, hq.up, Nat.zero_le _, rfl, rfl, hblock, rfl, by simp⟩
    refine Prog.loop_returns Prog.lex_wf (fun l s => ∃ k, Copied D c e₁ size k l s)
      (fun (rv : Int) s => rv = size ∧ s.self = c ∧ D.up s.env ∧ D.unread s.env = (D.unread e₁).drop size ∧
        D.accepted s.env = D.accepted e₁ ++ (D.unread e₁).take size)
      (fun l s => (l.len.toNat, D.wait s.env)) ?_ ⟨0, start⟩
    rintro l s ⟨k, h⟩
    obtain ⟨x, t, hx, ht⟩ := blockTurn_copies D hc hsize (by rw [hq.unread]; exact hle) h
    exact ⟨x, t, hx, by cases x <;> exact ht⟩
  obtain ⟨_, ⟨_, e'⟩, hloop, rfl, rfl, hup', hun', hacc'⟩ := loop
  refine ⟨e', ?_, hup', hun'.trans (by rw [hq.unread]), hacc'.trans (by rw [hq.unread, hq.accepted])⟩
  rw [writeToStreamDataBlock, returns_outside_bind hmalloc]
  exact hloop

end HTTPClient

end FEmbed
