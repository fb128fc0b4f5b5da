/-
What a pass of the loop of `readLine` takes from the reader's buffer.

What was copied of a line when a pass begins is `Filling`; one lemma for each
way that the branch `cavail > 0` can go says what is copied then.
-/
import FEmbedLwip.FTPClient

namespace FEmbed

/-! ## Memory -/

theorem memccpy_found {src pre rest : Bytes} {c : UInt8} {n : Nat} (hpre : c ∉ pre)
    (h : src.take n = pre ++ c :: rest) : memccpy src c n = (pre ++ [c], true) := by
  rw [memccpy, h, if_pos (by simp), List.takeWhile_append_of_pos]
  · simp
  · intro b hb
    have : b ≠ c := fun hbc => hpre (hbc ▸ hb)
    simpa using this

theorem memccpy_missing {src : Bytes} {c : UInt8} {n : Nat} (h : c ∉ src.take n) :
    memccpy src c n = (src.take n, false) := if_neg h

/-! ## Lines -/

theorem cut_inj {b : UInt8} {t t' rest rest' : Bytes} (ht : b ∉ t) (ht' : b ∉ t') (h : t ++ b :: rest = t' ++ b :: rest') :
    t = t' ∧ rest = rest' := by
  induction t generalizing t' with
  | nil =>
    cases t' with
    | nil => exact ⟨rfl, (List.cons.inj h).2⟩
    | cons c t' => exact absurd (List.cons.inj h).1 (by rw [List.mem_cons, not_or] at ht'; exact ht'.1)
  | cons c t ih =>
    rw [List.mem_cons, not_or] at ht
    cases t' with
    | nil => exact absurd (List.cons.inj h).1 (Ne.symm ht.1)
    | cons c' t' =>
      rw [List.mem_cons, not_or] at ht'
      obtain ⟨rfl, hmore⟩ := List.cons.inj h
      obtain ⟨rfl, hrest⟩ := ih ht.2 ht'.2 hmore
      exact ⟨rfl, hrest⟩

/-- What was taken of a stream without an LF was taken of its first line. -/
theorem lf_split {got more t rest : Bytes} (hgot : 10 ∉ got) (h : got ++ more = t ++ 10 :: rest) :
    ∃ t', t = got ++ t' ∧ more = t' ++ 10 :: rest := by
  rcases List.append_eq_append_iff.mp h with ⟨t', ht, hmore⟩ | ⟨bs, hbs, hrest⟩
  · exact ⟨t', ht, hmore⟩
  · cases bs with
    | nil => exact ⟨[], by rw [hbs, List.append_nil, List.append_nil], hrest.symm⟩
    | cons b bs =>
      obtain ⟨rfl, _⟩ := List.cons.inj hrest
      exact absurd (by rw [hbs]; simp) hgot

/-- What a line is in the caller's buffer. -/
def shown (line : Bytes) : Bytes := if [13, 10] <:+ line then line.take (line.length - 2) ++ [10] else line

theorem shown_crlf (t : Bytes) : shown (t ++ [13, 10]) = t ++ [10] := by
  rw [shown, if_pos (List.suffix_append ..)]
  simp

theorem shown_of_not_mem {t : Bytes} (ht : 10 ∉ t) : shown t = t := by
  refine if_neg fun h => ht ?_
  exact h.subset (by simp)

namespace FTPClientBase

/-! ## The reader's buffer -/

/-- What the reader has received and not consumed. -/
def pending (c : FTPClientBase) : Bytes := (c.buf.drop c.cget).take c.cavail

/-- The cursor is in the buffer. -/
structure Cursor (c : FTPClientBase) : Prop where
  buf : c.buf.length = ftplibBufsiz
  cput : c.cput = c.cget + c.cavail
  bound : c.cput ≤ ftplibBufsiz

theorem Cursor.pending_length {c : FTPClientBase} (h : Cursor c) : c.pending.length = c.cavail := by
  have := h.buf; have := h.cput; have := h.bound
  simp only [pending, List.length_take, List.length_drop]
  omega

theorem pending_empty {c : FTPClientBase} (h : c.cavail = 0) : c.pending = [] := by
  rw [pending, h, List.take_zero]

/-- The first bytes of what is pending are consumed. -/
theorem Cursor.consumed {c : FTPClientBase} (hc : Cursor c) (bs : Bytes) {more : Bytes} (hpend : c.pending = bs ++ more) :
    Cursor { c with cget := c.cget + bs.length, cavail := c.cavail - bs.length } ∧
      pending { c with cget := c.cget + bs.length, cavail := c.cavail - bs.length } = more := by
  have hlen := hc.pending_length
  have hcput := hc.cput
  rw [hpend, List.length_append] at hlen
  refine ⟨⟨hc.buf, ?_, hc.bound⟩, ?_⟩
  · show c.cput = c.cget + bs.length + (c.cavail - bs.length)
    omega
  · show (c.buf.drop (c.cget + bs.length)).take (c.cavail - bs.length) = more
    rw [← List.drop_drop, ← List.drop_take]
    show c.pending.drop _ = more
    rw [hpend, List.drop_left]

theorem lineCount_of {c : FTPClientBase} {l : LineState} (hc : Cursor c) (hmax : 0 < l.max) :
    lineCount c l.max = some (if l.max ≥ c.cavail then c.cavail else l.max - 1) := by
  have := hc.buf; have := hc.cput; have := hc.bound
  rw [lineCount, if_neg]
  · congr 1
    split <;> omega
  · split <;> omega

/-- What `memccpy` reads is what is pending. -/
theorem take_eq_pending {c : FTPClientBase} {x : Nat} (hx : x ≤ c.cavail) :
    (c.buf.drop c.cget).take x = c.pending.take x := by
  rw [pending, List.take_take, Nat.min_eq_left hx]

theorem endLine_crlf {out text tail : Bytes} (hout : out = text ++ [13, 10, 0] ++ tail) :
    endLine out (text.length + 2) = some (text ++ [10, 0, 0] ++ tail, text.length + 1) := by
  subst hout
  rw [endLine, if_neg (by omega), if_pos (by simp)]
  have : text.length + 2 - 2 = text.length := by omega
  rw [this, poke_eq_some (by simp)]
  simp

/-! ## The caller's buffer -/

/-- `got` was copied into the caller's buffer, which has `max` bytes. -/
structure Filling (max : Nat) (got : Bytes) (l : LineState) : Prop where
  out : l.out.length = max
  max : l.max + got.length = max
  retval : l.retval = got.length
  copied : l.out.take got.length = got
  nul : got ≠ [] → l.out.take (got.length + 1) = got ++ [0]
  noLF : 10 ∉ got

theorem Filling.poke {max : Nat} {got : Bytes} {l : LineState} (hl : Filling max got l) (bs : Bytes) (hbs : bs.length < l.max) :
    ∃ out, poke l.out l.retval (bs ++ [0]) = some out ∧ out.length = max ∧
      out.take (got.length + bs.length + 1) = got ++ bs ++ [0] := by
  have hmax := hl.max
  obtain ⟨out, hpoke⟩ : ∃ out, FEmbed.poke l.out l.retval (bs ++ [0]) = some out := ⟨_, poke_eq_some (by
    rw [hl.out, hl.retval, List.length_append, List.length_singleton]
    omega)⟩
  have htake := poke_take hpoke
  rw [hl.retval, hl.copied, List.length_append, List.length_singleton, ← Nat.add_assoc, ← List.append_assoc] at htake
  exact ⟨_, hpoke, (poke_length hpoke).trans hl.out, htake⟩

/-- With the NUL there is no room. -/
theorem Filling.poke_none {max : Nat} {got bs : Bytes} {l : LineState} (hl : Filling max got l) (hbs : l.max ≤ bs.length) :
    FEmbed.poke l.out l.retval (bs ++ [0]) = none := by
  have hmax := hl.max
  refine if_neg ?_
  rw [hl.out, hl.retval, List.length_append, List.length_singleton]
  omega

/-- The end of a line: CRLF becomes LF. -/
theorem endLine_shown (line tail : Bytes) (hlen : 2 ≤ line.length) :
    ∃ out, endLine (line ++ 0 :: tail) line.length = some (out, (shown line).length) ∧ out.length = line.length + 1 + tail.length ∧
      out.take ((shown line).length + 1) = shown line ++ [0] := by
  by_cases hcrlf : [13, 10] <:+ line
  · obtain ⟨t, rfl⟩ := hcrlf
    have hend := endLine_crlf (show t ++ [13, 10] ++ 0 :: tail = t ++ [13, 10, 0] ++ tail by simp)
    rw [shown_crlf, List.length_append, List.length_append]
    refine ⟨_, hend, by simp; omega, ?_⟩
    have hsplit : t ++ [10, 0, 0] ++ tail = (t ++ [10] ++ [0]) ++ 0 :: tail := by simp
    rw [hsplit]
    exact List.take_left' (by simp)
  · have hlast : ((line ++ 0 :: tail).drop (line.length - 2)).take 3 = line.drop (line.length - 2) ++ [0] := by
      have htwo : (line.drop (line.length - 2)).length = 2 := by rw [List.length_drop]; omega
      rw [List.drop_append_of_le_length (by omega), List.take_append, List.take_of_length_le (by omega), htwo]
      rfl
    have hne : ¬ line.drop (line.length - 2) ++ [0] = [13, 10, 0] := by
      intro h
      have htwo : line.drop (line.length - 2) = [13, 10] := @List.append_cancel_right _ _ [0] [13, 10] h
      exact hcrlf (List.suffix_iff_eq_drop.mpr htwo.symm)
    refine ⟨_, by rw [endLine, if_neg (by omega), hlast, if_neg hne, shown, if_neg hcrlf], by simp; omega, ?_⟩
    have hsplit : line ++ 0 :: tail = (line ++ [0]) ++ tail := by simp
    rw [shown, if_neg hcrlf, hsplit]
    exact List.take_left' (by simp)

/-! ## What a pass takes from the buffer -/

/-- The rest of a line is in the buffer, and there is room for it. -/
theorem takeLine_lf {max : Nat} {got t rest : Bytes} {c : FTPClientBase} {l : LineState} (hc : Cursor c) (hl : Filling max got l)
    (hpend : c.pending = t ++ 10 :: rest) (ht : 10 ∉ t) (hlone : got ++ t ≠ []) (hroom : t.length + 1 < l.max) :
    ∃ l', takeLine c l = some ({ c with cget := c.cget + (t.length + 1), cavail := c.cavail - (t.length + 1) }, l', true) ∧
      l'.retval = (shown (got ++ t ++ [10])).length ∧ l'.out.length = max ∧
      l'.out.take ((shown (got ++ t ++ [10])).length + 1) = shown (got ++ t ++ [10]) ++ [0] := by
  have hx := lineCount_of (l := l) hc (by omega)
  have hlen := hc.pending_length
  rw [hpend, List.length_append, List.length_cons] at hlen
  generalize hxe : (if l.max ≥ c.cavail then c.cavail else l.max - 1) = x at hx
  have hxle : x ≤ c.cavail ∧ t.length + 1 ≤ x := by
    split at hxe <;> omega
  have hsrc : (c.buf.drop c.cget).take x = t ++ 10 :: rest.take (x - (t.length + 1)) := by
    rw [take_eq_pending hxle.1, hpend, List.take_append, List.take_of_length_le (by omega)]
    obtain ⟨k, hk⟩ : ∃ k, x - t.length = k + 1 := ⟨x - t.length - 1, by omega⟩
    rw [hk, List.take_succ_cons, show x - (t.length + 1) = k by omega]
  have hmem := memccpy_found ht hsrc
  obtain ⟨out, hpoke, hout, hcopied⟩ := hl.poke (t ++ [10]) (by simpa using hroom)
  have hline : got.length + (t ++ [10]).length = (got ++ t ++ [10]).length := by
    simp only [List.length_append]
    omega
  rw [hline, ← List.append_assoc] at hcopied
  have hsplit : (got ++ t ++ [10]) ++ 0 :: out.drop ((got ++ t ++ [10]).length + 1) = out := by
    conv => rhs; rw [← List.take_append_drop ((got ++ t ++ [10]).length + 1) out, hcopied]
    simp
  have hpos := List.length_pos_of_ne_nil hlone
  obtain ⟨out', hend, hout', htaken⟩ := endLine_shown (got ++ t ++ [10])
    (out.drop ((got ++ t ++ [10]).length + 1)) (by rw [List.length_append, List.length_singleton]; omega)
  rw [hsplit] at hend
  refine ⟨{ l with out := out', retval := (shown (got ++ t ++ [10])).length, max := l.max - (t.length + 1) }, ?_, rfl, ?_, htaken⟩
  · have hbs : (t ++ [10]).length = t.length + 1 := by simp
    rw [hbs, ← hl.retval] at hline
    rw [← hline] at hend
    simp only [takeLine, hx, hmem, hpoke, hbs, hend, bind, Option.bind, if_true, pure]
  · have := congrArg List.length hsplit
    rw [List.length_append, List.length_cons] at this
    show out'.length = max
    omega

/-- All that is in the buffer is copied, and there is room for it. -/
theorem takeLine_all {max : Nat} {got : Bytes} {c : FTPClientBase} {l : LineState} (hc : Cursor c) (hl : Filling max got l)
    (hno : 10 ∉ c.pending) (hroom : c.cavail < l.max) :
    ∃ l', takeLine c l = some ({ c with cget := c.cput, cavail := 0 }, l', false) ∧ Filling max (got ++ c.pending) l' ∧
      l'.max = l.max - c.cavail ∧ l'.eof = l.eof := by
  have hlen := hc.pending_length
  have hx := lineCount_of (l := l) hc (by omega)
  rw [if_pos (by omega)] at hx
  have hsrc : (c.buf.drop c.cget).take c.cavail = c.pending := rfl
  have hmem : memccpy (c.buf.drop c.cget) 10 c.cavail = (c.pending, false) := memccpy_missing hno
  obtain ⟨out, hpoke, hout, hcopied⟩ := hl.poke c.pending (by omega)
  have hmax := hl.max
  refine ⟨{ l with out := out, retval := l.retval + c.cavail, max := l.max - c.cavail }, ?_, ⟨hout, ?_, ?_, ?_, ?_, ?_⟩, rfl, rfl⟩
  · simp only [takeLine, hx, hmem, hpoke, hlen, hc.cput, bind, Option.bind, Bool.false_eq_true, if_false, pure, Nat.sub_self]
  · show l.max - c.cavail + (got ++ c.pending).length = max
    rw [List.length_append]
    omega
  · show l.retval + c.cavail = (got ++ c.pending).length
    rw [List.length_append, hl.retval, hlen]
  · show out.take (got ++ c.pending).length = got ++ c.pending
    have := congrArg (List.take (got.length + c.pending.length)) hcopied
    rw [List.take_take, Nat.min_eq_left (Nat.le_succ _), List.take_left' (by rw [List.length_append])] at this
    rw [List.length_append]
    exact this
  · rintro _
    show out.take ((got ++ c.pending).length + 1) = got ++ c.pending ++ [0]
    rw [List.length_append]
    exact hcopied
  · rw [List.mem_append, not_or]
    exact ⟨hl.noLF, hno⟩

/-- There is room for a part of what is in the buffer. -/
theorem takeLine_part {max : Nat} {got : Bytes} {c : FTPClientBase} {l : LineState} (hc : Cursor c) (hl : Filling max got l)
    (hpos : 0 < l.max) (hno : 10 ∉ c.pending.take (l.max - 1)) (hroom : l.max < c.cavail) :
    ∃ l', takeLine c l = some ({ c with cget := c.cget + (l.max - 1), cavail := c.cavail - (l.max - 1) }, l', false) ∧
      l'.max = 1 ∧ l'.out.length = max ∧ l'.retval + 1 = max := by
  have hx := lineCount_of (l := l) hc hpos
  rw [if_neg (by omega)] at hx
  have hlen := hc.pending_length
  have hsrc := take_eq_pending (c := c) (x := l.max - 1) (by omega)
  have hmem : memccpy (c.buf.drop c.cget) 10 (l.max - 1) = (c.pending.take (l.max - 1), false) := by
    rw [memccpy_missing (by rw [hsrc]; exact hno), hsrc]
  have hbs : (c.pending.take (l.max - 1)).length = l.max - 1 := by
    rw [List.length_take]
    omega
  obtain ⟨out, hpoke, hout, _⟩ := hl.poke (c.pending.take (l.max - 1)) (by omega)
  have hmax := hl.max
  have hretval := hl.retval
  refine ⟨{ l with out := out, retval := l.retval + (l.max - 1), max := l.max - (l.max - 1) }, ?_,
    show l.max - (l.max - 1) = 1 by omega, hout, show l.retval + (l.max - 1) + 1 = max by omega⟩
  simp only [takeLine, hx, hmem, hpoke, hbs, bind, Option.bind, Bool.false_eq_true, if_false, pure]

/-- What is in the buffer leaves no room for the NUL. -/
theorem takeLine_full {max : Nat} {got : Bytes} {c : FTPClientBase} {l : LineState} (hc : Cursor c) (hl : Filling max got l)
    (hpos : 0 < l.max) (hroom : l.max = c.cavail) (hno : 10 ∉ c.pending.dropLast) : takeLine c l = none := by
  have hx := lineCount_of (l := l) hc hpos
  rw [if_pos (by omega)] at hx
  have hlen := hc.pending_length
  have hcopied : ∃ found, memccpy (c.buf.drop c.cget) 10 c.cavail = (c.pending, found) := by
    by_cases hmem : 10 ∈ c.pending
    · obtain ⟨t, rest, hsplit, ht⟩ := List.eq_append_cons_of_mem hmem
      cases rest with
      | nil =>
        have hsrc : (c.buf.drop c.cget).take c.cavail = t ++ 10 :: [] := hsplit
        exact ⟨true, by rw [memccpy_found ht hsrc, hsplit]⟩
      | cons b rest => exact absurd (by rw [hsplit]; simp) hno
    · exact ⟨false, memccpy_missing hmem⟩
  obtain ⟨found, hmem⟩ := hcopied
  have hpoke := hl.poke_none (show l.max ≤ c.pending.length by omega)
  simp only [takeLine, hx, hmem, hpoke, bind, Option.bind]

/-- A line that is only LF: `bp` is behind the start of the caller's buffer. -/
theorem takeLine_lone {max : Nat} {rest : Bytes} {c : FTPClientBase} {l : LineState} (hc : Cursor c) (hl : Filling max [] l)
    (hpend : c.pending = 10 :: rest) (hroom : 1 < l.max) : takeLine c l = none := by
  have hx := lineCount_of (l := l) hc (by omega)
  have hlen := hc.pending_length
  rw [hpend, List.length_cons] at hlen
  generalize hxe : (if l.max ≥ c.cavail then c.cavail else l.max - 1) = x at hx
  have hxle : x ≤ c.cavail ∧ 1 ≤ x := by
    split at hxe <;> omega
  have hsrc : (c.buf.drop c.cget).take x = [] ++ 10 :: rest.take (x - 1) := by
    obtain ⟨k, rfl⟩ : ∃ k, x = k + 1 := ⟨x - 1, by omega⟩
    rw [take_eq_pending hxle.1, hpend]
    rfl
  have hmem := memccpy_found List.not_mem_nil hsrc
  obtain ⟨out, hpoke, _⟩ := hl.poke [10] hroom
  have hzero : l.retval = 0 := hl.retval
  have hend : endLine out 1 = none := if_pos (by decide)
  rw [hzero] at hpoke
  simp only [takeLine, hx, hmem, hzero, hpoke, bind, Option.bind, List.nil_append, List.length_singleton, if_true, Nat.zero_add,
    hend]

end FTPClientBase

end FEmbed
