/-
Where `readLine` leaves its buffers.

A pass of its loop goes past the caller's buffer when what was received fills
it to the byte, before it when a line is only LF, and past `buf` when a read
fills that. In all other passes it stays inside (`readLineTurn_outcome`), and so
do the calls that are made of them.
-/
import FEmbedLwip.FTPLines

namespace FEmbed

open Live

namespace FTPClientBase

variable {σ : Type} {p : Platform σ}

/-! ## Passes that stay inside -/

/-- What was received has the size of the room that is left, with no LF before
its last byte: the NUL goes behind the caller's buffer. -/
def Overfull (c : FTPClientBase) (l : LineState) : Prop := c.cavail = l.max ∧ 10 ∉ c.pending.dropLast

/-- The line is only LF: two bytes before its end is before the caller's buffer. -/
def LoneLF (c : FTPClientBase) (l : LineState) : Prop := l.retval = 0 ∧ 1 < l.max ∧ c.pending.head? = some 10

/-- A pass that stays inside both buffers. Where it reads, the NUL behind what
it gets is in `buf`. -/
structure PassFits (p : Platform σ) (l : LineState) (s : Live σ FTPClientBase) : Prop where
  room : ¬ Overfull s.self l
  start : ¬ LoneLF s.self l
  read : 10 ∉ s.self.pending → s.self.cavail + 1 < l.max → l.eof = false → ∀ r t,
    (TCPClient.readBuf p.lwip ftplibBufsiz).Returns ⟨s.self.toTCPClient, s.env⟩ r t → r.2.length < ftplibBufsiz

/-! ## What a pass takes from the buffer -/

theorem takeLine_none {max : Nat} {got : Bytes} {c : FTPClientBase} {l : LineState} (hc : Cursor c) (hl : Filling max got l)
    (hpos : 0 < l.max) (h : Overfull c l ∨ LoneLF c l) : takeLine c l = none := by
  rcases h with ⟨hsize, hno⟩ | ⟨hret, hroom, hhead⟩
  · exact takeLine_full hc hl hpos hsize.symm hno
  · obtain rfl : got = [] := List.length_eq_zero_iff.mp (hl.retval ▸ hret)
    obtain ⟨rest, hpend⟩ := List.head?_eq_some_iff.mp hhead
    exact takeLine_lone hc hl hpend hroom

/-- Otherwise it takes a line, all there is, or as much as there is room for. -/
theorem takeLine_cases {max : Nat} {got : Bytes} {c : FTPClientBase} {l : LineState} (hc : Cursor c) (hl : Filling max got l)
    (hpos : 0 < l.max) (hroom : ¬ Overfull c l) (hstart : ¬ LoneLF c l) :
    (∃ c' l', takeLine c l = some (c', l', true) ∧ Cursor c' ∧ 10 ∈ c.pending) ∨
    (∃ l', takeLine c l = some ({ c with cget := c.cput, cavail := 0 }, l', false) ∧ Filling max (got ++ c.pending) l' ∧
      c.cavail < l.max ∧ l'.max = l.max - c.cavail ∧ l'.eof = l.eof) ∨
    (∃ c' l', takeLine c l = some (c', l', false) ∧ Cursor c' ∧ l.max < c.cavail ∧ l'.max = 1 ∧ l'.out.length = max) := by
  have hlen := hc.pending_length
  have hcput := hc.cput
  by_cases hlf : 10 ∈ c.pending.take (l.max - 1)
  · obtain ⟨t, rest, hsplit, ht⟩ := List.eq_append_cons_of_mem hlf
    have hpend : c.pending = t ++ 10 :: (rest ++ c.pending.drop (l.max - 1)) := by
      rw [← List.cons_append, ← List.append_assoc, ← hsplit, List.take_append_drop]
    have hshort := congrArg List.length hsplit
    rw [List.length_take, List.length_append, List.length_cons] at hshort
    have hlone : got ++ t ≠ [] := by
      rintro h
      obtain ⟨rfl, rfl⟩ := List.append_eq_nil_iff.mp h
      exact hstart ⟨hl.retval, by omega, by rw [hpend]; rfl⟩
    obtain ⟨l', htake, _⟩ := takeLine_lf hc hl hpend ht hlone (by omega)
    exact .inl ⟨_, l', htake, ⟨hc.buf, by show c.cput = c.cget + _ + (c.cavail - _); omega, hc.bound⟩, List.take_subset _ _ hlf⟩
  · rcases Nat.lt_trichotomy l.max c.cavail with hlt | heq | hgt
    · obtain ⟨l', htake, hone, hout, _⟩ := takeLine_part hc hl hpos hlf hlt
      exact .inr (.inr ⟨_, l', htake, ⟨hc.buf, by show c.cput = c.cget + _ + (c.cavail - _); omega, hc.bound⟩, hlt, hone, hout⟩)
    · refine absurd ⟨heq.symm, ?_⟩ hroom
      rwa [List.dropLast_eq_take, hlen, ← heq]
    · rw [List.take_of_length_le (by omega)] at hlf
      obtain ⟨l', htake, hl', hleft, heof⟩ := takeLine_all hc hl hlf hgt
      exact .inr (.inl ⟨l', htake, hl', hgt, hleft, heof⟩)

/-! ## What a pass reads -/

/-- Before a pass: the caller's buffer has room. -/
def Room (max : Nat) (l : LineState) : Prop := (∃ got, Filling max got l) ∧ 0 < l.max

theorem readBuf_ends {n : Nat} : Prog.Ends (TCPClient.readBuf p.lwip n) :=
  .bind .gets fun _ => .ite .pure (.bind .step fun _ => .ite (.bind .step fun _ => .bind .step fun _ => .pure)
    (.bind .modify fun _ => .pure))

/-- The value -1 comes without bytes. -/
theorem readBuf_failed {n : Nat} {s : Live σ TCPClient} {r s'} (h : (TCPClient.readBuf p.lwip n).Returns s r s') (hr : r.1 = -1) :
    r.2 = [] := by
  rcases TCPClient.readBuf_returns.mp h with ⟨-, rfl, -⟩ | ⟨-, -, rfl, -⟩ | ⟨-, -, rfl, -⟩
  · rfl
  · cases hrecv : (TCPClient.recvAt p.lwip n s).1 with
    | data b bs =>
      rw [hrecv] at hr
      have hr : (bs.length : Int) + 1 = -1 := hr
      omega
    | eof => rfl
    | err => rfl
  · rfl

/-- A read that fills `buf` leaves no room for the NUL. -/
theorem stored_none {c : FTPClientBase} (hc : Cursor c) {got : Bytes} (hgot : ftplibBufsiz ≤ got.length) :
    stored { c with cput := 0, cget := 0, cavail := 0, cleft := ftplibBufsiz } got = none := by
  have hbuf := hc.buf
  cases hpoke : poke c.buf 0 got with
  | none => simp only [stored, hpoke, bind, Option.bind]
  | some buf =>
    have hlen := poke_length hpoke
    have hnul : poke buf (0 + got.length) [0] = none := if_neg (by
      rw [List.length_singleton]
      omega)
    simp only [stored, hpoke, hnul, bind, Option.bind]

/-- A read into the empty buffer stays inside unless it fills it. -/
theorem refill_outcome {c : FTPClientBase} (hc : Cursor c) (l : LineState) (e : σ) :
    ((∀ r t, (TCPClient.readBuf p.lwip ftplibBufsiz).Returns ⟨c.toTCPClient, e⟩ r t → r.2.length < ftplibBufsiz) ∧
      ∃ x s', (refill p l).Returns ⟨{ c with cput := 0, cget := 0, cavail := 0, cleft := ftplibBufsiz }, e⟩ x s' ∧
        Cursor s'.self ∧ ∀ l', x = .next l' → l' = { l with eof := l'.eof }) ∨
    ((∃ r t, (TCPClient.readBuf p.lwip ftplibBufsiz).Returns ⟨c.toTCPClient, e⟩ r t ∧ ftplibBufsiz ≤ r.2.length) ∧
      (refill p l).Undef ⟨{ c with cput := 0, cget := 0, cavail := 0, cleft := ftplibBufsiz }, e⟩) := by
  obtain ⟨⟨x, bs⟩, ⟨conn, e'⟩, hread⟩ := readBuf_ends (p := p) (n := ftplibBufsiz) ⟨c.toTCPClient, e⟩
  have htcp : (tcp (TCPClient.readBuf p.lwip ftplibBufsiz)).Returns
      ⟨{ c with cput := 0, cget := 0, cavail := 0, cleft := ftplibBufsiz }, e⟩ (x, bs)
      ⟨{ c with toTCPClient := conn, cput := 0, cget := 0, cavail := 0, cleft := ftplibBufsiz }, e'⟩ :=
    Prog.returns_zoom.mpr ⟨_, hread, rfl⟩
  have hc' : Cursor { c with toTCPClient := conn } := ⟨hc.buf, hc.cput, hc.bound⟩
  rcases Nat.lt_or_ge bs.length ftplibBufsiz with hlt | hge
  · refine .inl ⟨fun r t hr => by obtain ⟨rfl, -⟩ := hread.det hr; exact hlt, ?_⟩
    by_cases hfail : x = -1
    · refine ⟨.exit (-1, l.out), ⟨{ c with toTCPClient := conn, cput := 0, cget := 0, cavail := 0, cleft := ftplibBufsiz }, e'⟩,
        ?_, ⟨hc.buf, rfl, Nat.zero_le _⟩, nofun⟩
      rw [refill, returns_obj_bind, Prog.returns_bind_of htcp]
      dsimp only
      rw [if_pos hfail]
      exact Prog.returns_pure.mpr ⟨rfl, rfl⟩
    · obtain ⟨buf, hstored, hbuf, -⟩ := stored_cursor hc' bs hlt
      refine ⟨.next { l with eof := decide (x = 0) }, ⟨{ c with
        toTCPClient := conn, buf := buf, cput := bs.length, cget := 0, cavail := bs.length, cleft := ftplibBufsiz - bs.length }, e'⟩,
        ?_, ⟨hbuf, (Nat.zero_add _).symm, Nat.le_of_lt hlt⟩, ?_⟩
      · rw [refill, returns_obj_bind, Prog.returns_bind_of htcp]
        dsimp only
        rw [if_neg hfail, returns_obj_bind, hstored]
        dsimp only
        rw [returns_set_bind]
        exact Prog.returns_pure.mpr ⟨rfl, rfl⟩
      · rintro l' hl'
        obtain rfl := Turn.next.inj hl'
        rfl
  · refine .inr ⟨⟨_, _, hread, hge⟩, ?_⟩
    have hok : x ≠ -1 := by
      rintro hfail
      have hnil : bs = [] := readBuf_failed hread hfail
      rw [hnil] at hge
      exact absurd hge (by decide)
    rw [refill, undef_obj_bind, Prog.undef_bind_of htcp]
    dsimp only
    rw [if_neg hok, undef_obj_bind, stored_none hc' hge]
    exact Prog.undef_undefined

/-- Without room the pass ends the call. -/
theorem fill_one {l : LineState} (hone : l.max = 1) (hout : 0 < l.out.length) (s : Live σ FTPClientBase) :
    ∃ out, (fill p l).Returns s (.exit (l.retval, out)) s := by
  obtain ⟨out, hpoke⟩ : ∃ out, poke l.out 0 [0] = some out := ⟨_, poke_eq_some (by
    rw [List.length_singleton]
    omega)⟩
  refine ⟨out, ?_⟩
  rw [fill, if_pos hone, hpoke]
  exact Prog.returns_pure.mpr ⟨rfl, rfl⟩

/-- The end of a pass whose buffer is empty. -/
theorem fill_outcome {max : Nat} {c : FTPClientBase} {l : LineState} (hc : Cursor c) (hl : Room max l) (hempty : c.cavail = 0) (e : σ) :
    ((1 < l.max → l.eof = false → ∀ r t, (TCPClient.readBuf p.lwip ftplibBufsiz).Returns ⟨c.toTCPClient, e⟩ r t →
        r.2.length < ftplibBufsiz) ∧
      ∃ x s', (fill p l).Returns ⟨c, e⟩ x s' ∧ Cursor s'.self ∧ ∀ l', x = .next l' → Room max l') ∨
    (1 < l.max ∧ l.eof = false ∧ (∃ r t, (TCPClient.readBuf p.lwip ftplibBufsiz).Returns ⟨c.toTCPClient, e⟩ r t ∧
        ftplibBufsiz ≤ r.2.length) ∧ (fill p l).Undef ⟨c, e⟩) := by
  obtain ⟨⟨got, hfill⟩, hpos⟩ := hl
  have hcput := hc.cput
  have hsize := hfill.max
  by_cases hone : l.max = 1
  · obtain ⟨out, hreturns⟩ := fill_one (p := p) hone (by rw [hfill.out]; omega) ⟨c, e⟩
    exact .inl ⟨fun h => absurd hone (Nat.ne_of_gt h), _, _, hreturns, hc, nofun⟩
  -- The cursors meet, and are set back.
  have hmeet : c.cput = c.cget := by omega
  cases heof : l.eof with
  | true =>
    refine .inl ⟨fun _ => nofun, .exit (if l.retval = 0 then -1 else l.retval, l.out),
      ⟨{ c with cput := 0, cget := 0, cavail := 0, cleft := ftplibBufsiz }, e⟩, ?_, ⟨hc.buf, rfl, Nat.zero_le _⟩, nofun⟩
    rw [fill, if_neg hone, returns_obj_bind, returns_obj_bind, if_pos hmeet, returns_set_bind]
    dsimp only
    rw [heof, if_pos rfl]
    exact Prog.returns_pure.mpr ⟨rfl, rfl⟩
  | false =>
    rcases refill_outcome (p := p) hc l e with ⟨hfits, x, s', hrefill, hc', hnext⟩ | ⟨hread, hundef⟩
    · refine .inl ⟨fun _ _ => hfits, x, s', ?_, hc', fun l' hl' => ?_⟩
      · rw [fill, if_neg hone, returns_obj_bind, returns_obj_bind, if_pos hmeet, returns_set_bind]
        dsimp only
        rw [heof, if_neg (by decide)]
        exact hrefill
      · rw [hnext l' hl']
        exact ⟨⟨got, hfill.out, hfill.max, hfill.retval, hfill.copied, hfill.nul, hfill.noLF⟩, hpos⟩
    · refine .inr ⟨by omega, rfl, hread, ?_⟩
      rw [fill, if_neg hone, undef_obj_bind, undef_obj_bind, if_pos hmeet, undef_set_bind]
      dsimp only
      rw [heof, if_neg (by decide)]
      exact hundef

/-! ## Passes and calls -/

/-- **A pass stays inside exactly if it fits**, and leaves the state of the next one. -/
theorem readLineTurn_outcome {max : Nat} {l : LineState} {s : Live σ FTPClientBase} (hc : Cursor s.self) (hl : Room max l) :
    (PassFits p l s ∧ ∃ x s', (readLineTurn p l).Returns s x s' ∧ Cursor s'.self ∧ ∀ l', x = .next l' → Room max l') ∨
    (¬ PassFits p l s ∧ (readLineTurn p l).Undef s) := by
  obtain ⟨c, e⟩ := s
  have hc : Cursor c := hc
  obtain ⟨⟨got, hfill⟩, hpos⟩ := hl
  have hlen := hc.pending_length
  by_cases hempty : c.cavail > 0
  · by_cases hroom : Overfull c l
    · refine .inr ⟨fun h => h.room hroom, ?_⟩
      rw [readLineTurn, undef_obj_bind, if_pos hempty, takeLine_none hc hfill hpos (.inl hroom)]
      exact Prog.undef_undefined
    by_cases hstart : LoneLF c l
    · refine .inr ⟨fun h => h.start hstart, ?_⟩
      rw [readLineTurn, undef_obj_bind, if_pos hempty, takeLine_none hc hfill hpos (.inr hstart)]
      exact Prog.undef_undefined
    rcases takeLine_cases hc hfill hpos hroom hstart with
      ⟨c', l', htake, hc', hlf⟩ | ⟨l', htake, hl', hlt, hleft, heof⟩ | ⟨c', l', htake, hc', hlt, hone, hout⟩
    · refine .inl ⟨⟨hroom, hstart, fun hno => absurd hlf hno⟩, .exit (l'.retval, l'.out), ⟨c', e⟩, ?_, hc', fun _ h => by cases h⟩
      rw [readLineTurn, returns_obj_bind, if_pos hempty, htake]
      dsimp only
      rw [returns_set_bind, if_pos rfl]
      exact Prog.returns_pure.mpr ⟨rfl, rfl⟩
    · have hc' : Cursor { c with cget := c.cput, cavail := 0 } := ⟨hc.buf, rfl, hc.bound⟩
      rcases fill_outcome (p := p) hc' ⟨⟨_, hl'⟩, by omega⟩ rfl e with
        ⟨hread, x, s', hfilled, hs', hnext⟩ | ⟨hmore, hgo, ⟨r, t, hread, hge⟩, hundef⟩
      · refine .inl ⟨⟨hroom, hstart, fun _ hmore hgo => hread ?_ (heof.trans hgo)⟩, x, s', ?_, hs', hnext⟩
        · have hmore : c.cavail + 1 < l.max := hmore
          omega
        rw [readLineTurn, returns_obj_bind, if_pos hempty, htake]
        dsimp only
        rw [returns_set_bind, if_neg (by decide)]
        exact hfilled
      · have hno : 10 ∉ c.pending := fun h => hl'.noLF (List.mem_append_right _ h)
        refine .inr ⟨fun h => absurd (h.read hno (show c.cavail + 1 < l.max by omega) (heof.symm.trans hgo) r t hread) (by omega), ?_⟩
        rw [readLineTurn, undef_obj_bind, if_pos hempty, htake]
        dsimp only
        rw [undef_set_bind, if_neg (by decide)]
        exact hundef
    · obtain ⟨out, hreturns⟩ := fill_one (p := p) hone (by rw [hout, ← hfill.max]; omega) ⟨c', e⟩
      refine .inl ⟨⟨hroom, hstart, fun _ hmore => ?_⟩, .exit (l'.retval, out), ⟨c', e⟩, ?_, hc', fun _ h => by cases h⟩
      · have hmore : c.cavail + 1 < l.max := hmore
        omega
      · rw [readLineTurn, returns_obj_bind, if_pos hempty, htake]
        dsimp only
        rw [returns_set_bind, if_neg (by decide)]
        exact hreturns
  · have hnone : c.cavail = 0 := by omega
    have hpend : c.pending = [] := pending_empty hnone
    have hroom : ¬ Overfull c l := fun h => by have := h.1; omega
    have hstart : ¬ LoneLF c l := fun h => by have := h.2.2; rw [hpend] at this; cases this
    rcases fill_outcome (p := p) hc ⟨⟨_, hfill⟩, hpos⟩ hnone e with
      ⟨hread, x, s', hfilled, hs', hnext⟩ | ⟨hmore, hgo, ⟨r, t, hread, hge⟩, hundef⟩
    · refine .inl ⟨⟨hroom, hstart, fun _ hmore => hread (by have hmore : c.cavail + 1 < l.max := hmore; omega)⟩, x, s', ?_, hs', hnext⟩
      rw [readLineTurn, returns_obj_bind, if_neg hempty]
      exact hfilled
    · refine .inr ⟨fun h => absurd (h.read (by rw [hpend]; exact List.not_mem_nil) (show c.cavail + 1 < l.max by omega) hgo r t hread)
        (by omega), ?_⟩
      rw [readLineTurn, undef_obj_bind, if_neg hempty]
      exact hundef

theorem readLineTurn_keeps {max : Nat} {l : LineState} {s : Live σ FTPClientBase} {x s'} (hc : Cursor s.self) (hl : Room max l)
    (h : (readLineTurn p l).Returns s x s') : Cursor s'.self ∧ ∀ l', x = .next l' → Room max l' := by
  rcases readLineTurn_outcome (p := p) hc hl with ⟨-, x', t', hturn, hkept⟩ | ⟨-, hundef⟩
  · obtain ⟨rfl, rfl⟩ := h.det hturn
    exact hkept
  · exact absurd h hundef.not_returns

theorem readLineTurn_undef_iff {max : Nat} {l : LineState} {s : Live σ FTPClientBase} (hc : Cursor s.self) (hl : Room max l) :
    (readLineTurn p l).Undef s ↔ ¬ PassFits p l s := by
  rcases readLineTurn_outcome (p := p) hc hl with ⟨hfits, _, _, hturn, _⟩ | ⟨hno, hundef⟩
  · exact ⟨fun h => absurd hturn h.not_returns, fun h => absurd hfits h⟩
  · exact ⟨fun _ => hno, fun _ => hundef⟩

/-- The states that calls of `readLine` lead to from a new object. Between them
anything may happen to the connection and outside. -/
inductive Reached (p : Platform σ) : Live σ FTPClientBase → Prop
  | fresh (conn : TCPClient) (dir : FTPDir) (e : σ) : Reached p ⟨fresh conn dir, e⟩
  | elsewhere {s : Live σ FTPClientBase} (conn : TCPClient) (e : σ) : Reached p s →
      Reached p ⟨{ s.self with toTCPClient := conn }, e⟩
  | call {s s' : Live σ FTPClientBase} {out : Bytes} {max : Nat} {r : Int × Bytes} : Reached p s → out.length = max →
      (readLine p out max).Returns s r s' → Reached p s'

theorem room_start {max : Nat} {out : Bytes} (hmax : 1 ≤ max) (hout : out.length = max) : Room max { out := out, max := max } :=
  ⟨⟨[], hout, rfl, rfl, rfl, fun h => absurd rfl h, List.not_mem_nil⟩, hmax⟩

/-- A call that returns leaves the cursors in `buf`. -/
theorem readLine_cursor {max : Nat} {out : Bytes} {s : Live σ FTPClientBase} {r s'} (hc : Cursor s.self) (hout : out.length = max)
    (h : (readLine p out max).Returns s r s') : Cursor s'.self := by
  rw [readLine, returns_obj_bind] at h
  rcases Prog.returns_ite.mp h with ⟨-, h⟩ | ⟨-, h⟩
  · obtain ⟨-, rfl⟩ := Prog.returns_pure.mp h
    exact hc
  · rcases Prog.returns_ite.mp h with ⟨-, h⟩ | ⟨hmax, h⟩
    · obtain ⟨-, rfl⟩ := Prog.returns_pure.mp h
      exact hc
    · refine Prog.Returns.loop_inv (fun l u => Cursor u.self ∧ Room max l) (fun _ u => Cursor u.self) ?_ h
        ⟨hc, room_start (by omega) hout⟩
      rintro l u x t ⟨hc, hl⟩ hturn
      obtain ⟨hc', hnext⟩ := readLineTurn_keeps hc hl hturn
      cases x with
      | next l' => exact ⟨hc', hnext l' rfl⟩
      | exit _ => exact hc'

theorem Reached.cursor {s : Live σ FTPClientBase} (h : Reached p s) : Cursor s.self := by
  induction h with
  | fresh conn dir e => exact ⟨List.length_replicate, rfl, Nat.zero_le _⟩
  | elsewhere conn e _ ih => exact ⟨ih.buf, ih.cput, ih.bound⟩
  | call _ hout hcall ih => exact readLine_cursor ih hout hcall

/-- **A call stays inside its buffers exactly if all its passes fit**, in any
state that calls lead to. -/
theorem readLine_inside_iff {s : Live σ FTPClientBase} (hs : Reached p s) {max : Nat} {out : Bytes} (hmax : 1 ≤ max)
    (hout : out.length = max) :
    ¬ (readLine p out max).Undef s ↔
      (s.self.dir ≠ .write → ∀ l t, Prog.Passes (readLineTurn p) { out := out, max := max } s l t → PassFits p l t) := by
  rw [readLine, undef_obj_bind]
  by_cases hdir : s.self.dir = .write
  · rw [if_pos hdir]
    exact ⟨fun _ h => absurd hdir h, fun _ => Prog.undef_pure⟩
  rw [if_neg hdir, if_neg (by omega), Prog.undef_loop]
  have hpass {l t} (h : Prog.Passes (readLineTurn p) { out := out, max := max } s l t) : Cursor t.self ∧ Room max l := by
    refine h.inv (fun l t => Cursor t.self ∧ Room max l) ?_ ⟨hs.cursor, room_start hmax hout⟩
    rintro l u l' t ⟨hc, hl⟩ hturn
    obtain ⟨hc', hnext⟩ := readLineTurn_keeps hc hl hturn
    exact ⟨hc', hnext l' rfl⟩
  constructor
  · rintro h - l t hpasses
    by_contra hfits
    obtain ⟨hc, hl⟩ := hpass hpasses
    exact h ⟨l, t, hpasses, (readLineTurn_undef_iff hc hl).mpr hfits⟩
  · rintro h ⟨l, t, hpasses, hundef⟩
    obtain ⟨hc, hl⟩ := hpass hpasses
    exact (readLineTurn_undef_iff hc hl).mp hundef (h hdir l t hpasses)

namespace Wire

/-- The second of two lines, in the state the first call left. -/
theorem readLine_second_inside : ∃ s, Reached (peer 2) s ∧ ¬ (readLine (peer 2) (List.replicate 16 1) 16).Undef s ∧
    ∀ l t, Prog.Passes (readLineTurn (peer 2)) { out := List.replicate 16 1, max := 16 } s l t → PassFits (peer 2) l t := by
  have hrun : (readLine (peer 2) (List.replicate 16 1) 16 >>= fun _ => readLine (peer 2) (List.replicate 16 1) 16).Returns
      (control (bytes "ab\r\nc\r\nd")) (2, [99, 10, 0, 0] ++ List.replicate 12 1) _ := .of_run 9 (by decide +kernel)
  obtain ⟨r, s, hfirst, hsecond⟩ := Prog.returns_bind.mp hrun
  have hreached : Reached (peer 2) s := (Reached.fresh { socketFd := 3 } .control { unread := bytes "ab\r\nc\r\nd" }).call rfl hfirst
  have hinside : ¬ (readLine (peer 2) (List.replicate 16 1) 16).Undef s := fun h => h.not_returns hsecond
  refine ⟨s, hreached, hinside, (readLine_inside_iff hreached (by decide) rfl).mp hinside fun hdir => ?_⟩
  rw [readLine, returns_obj_bind, if_pos hdir] at hsecond
  exact absurd (Prog.returns_pure.mp hsecond).1 (by decide)

/-- Four bytes for a buffer of four; 512 bytes at once; and a line that is only LF. -/
theorem readLine_past_buffers :
    (readLine (peer 7) (List.replicate 4 1) 4).Undef (control (bytes "abcd")) ∧
    (readLine (peer 600) (List.replicate 600 1) 600).Undef (control (List.replicate 512 97)) ∧
    (readLine (peer 7) (List.replicate 4 1) 4).Undef (control (bytes "\n")) :=
  ⟨⟨9, by decide +kernel⟩, ⟨9, by decide +kernel⟩, ⟨9, by decide +kernel⟩⟩

end Wire

end FTPClientBase

end FEmbed
