/-
What an FTP client acts on after it has connected anew.

The reader's buffer and the last reply stay in the object from one control
connection to the next. Two clients are `Alike` if they differ only in bytes
that no reply after the next one comes from; all operations are blind to that.
-/
import FEmbedLwip.FTPLockstep
import FEmbedLwip.Follows

namespace FEmbed

open Live
open Prog (Follows Blind)

/-! ## Arrays that agree at the front -/

def AgreeTo (n : Nat) (a b : Bytes) : Prop := ∀ i < n, a[i]? = b[i]?

theorem poke_getElem? {a a' bs : Bytes} {i : Nat} (h : poke a i bs = some a') (j : Nat) :
    a'[j]? = if j < i then a[j]? else if j < i + bs.length then bs[j - i]? else a[j]? := by
  obtain ⟨hle, rfl⟩ := poke_some h
  have htake : (a.take i ++ bs).length = i + bs.length := by simp; omega
  have hfirst : (a.take i).length = i := by simp; omega
  by_cases h₁ : j < i
  · rw [if_pos h₁, List.append_assoc, List.getElem?_append_left (by omega), List.getElem?_take_of_lt h₁]
  · rw [if_neg h₁]
    by_cases h₂ : j < i + bs.length
    · rw [if_pos h₂, List.getElem?_append_left (by omega), List.getElem?_append_right (by omega), hfirst]
    · rw [if_neg h₂, List.getElem?_append_right (by omega), htake, List.getElem?_drop]
      congr 1
      omega

theorem AgreeTo.take_drop {n i k : Nat} {a b : Bytes} (h : AgreeTo n a b) (hle : i + k ≤ n) :
    (a.drop i).take k = (b.drop i).take k := by
  apply List.ext_getElem?
  intro j
  by_cases hj : j < k
  · rw [List.getElem?_take_of_lt hj, List.getElem?_take_of_lt hj, List.getElem?_drop, List.getElem?_drop]
    exact h _ (by omega)
  · rw [List.getElem?_eq_none (by simp; omega), List.getElem?_eq_none (by simp; omega)]

theorem AgreeTo.poke {n i : Nat} {a b a' bs : Bytes} (h : AgreeTo n a b) (hlen : a.length = b.length) (hi : i ≤ n)
    (hp : poke a i bs = some a') : ∃ b', FEmbed.poke b i bs = some b' ∧ AgreeTo (max n (i + bs.length)) a' b' := by
  have hle := (poke_some hp).1
  refine ⟨_, poke_eq_some (hlen ▸ hle), fun j hj => ?_⟩
  rw [poke_getElem? hp, poke_getElem? (poke_eq_some (hlen ▸ hle))]
  split
  · exact h j (by omega)
  · split
    · rfl
    · exact h j (by omega)

/-- Two reply buffers hold the same up to a NUL behind the first `w` bytes, or
`w` is 0; behind it the second one may be known to be empty. -/
def Known (empty : Prop) (w : Nat) (a b : Bytes) : Prop :=
  a.length = ftplibResponseBufsiz ∧ b.length = ftplibResponseBufsiz ∧ ∃ n, w ≤ n ∧ AgreeTo n a b ∧ (n = 0 ∨ a[n - 1]? = some 0) ∧
    (empty → ∀ i, n ≤ i → i < b.length → b[i]? = some 0)

theorem takeWhile_take {p : UInt8 → Bool} {l : Bytes} {n : Nat} (h : ∃ b ∈ l.take n, p b = false) :
    l.takeWhile p = (l.take n).takeWhile p := by
  induction l generalizing n with
  | nil => simp
  | cons b l ih =>
    cases n with
    | zero => simp at h
    | succ n =>
      rw [List.take_succ_cons, List.takeWhile_cons, List.takeWhile_cons]
      split
      · rename_i hb
        obtain ⟨d, hd, hp⟩ := h
        rw [List.take_succ_cons, List.mem_cons] at hd
        have hmem : d ∈ l.take n := hd.resolve_left fun h => by rw [h, hb] at hp; exact nomatch hp
        rw [ih ⟨d, hmem, hp⟩]
      · rfl

section Known

variable {empty : Prop} {w v i : Nat} {a b a' bs : Bytes}

theorem Known.mono (h : Known empty w a b) (hv : v ≤ w) : Known empty v a b := by
  obtain ⟨ha, hb, n, hn, hrest⟩ := h
  exact ⟨ha, hb, n, Nat.le_trans hv hn, hrest⟩

theorem Known.max (h : Known empty w a b) (h' : Known empty v a b) : Known empty (max w v) a b := by
  rcases Nat.le_total w v with hle | hle
  · rw [Nat.max_eq_right hle]
    exact h'
  · rw [Nat.max_eq_left hle]
    exact h

/-- A C string is written where the front ends. -/
theorem Known.poke (h : Known empty w a b) (hi : i = 0 ∨ Known empty (i + 1) a b) (hp : poke a i (bs ++ [0]) = some a') :
    ∃ b', FEmbed.poke b i (bs ++ [0]) = some b' ∧ Known empty w a' b' ∧ Known empty (i + bs.length + 1) a' b' := by
  have hboth : Known empty (Max.max w i) a b := by
    rcases hi with rfl | hi
    · exact h.mono (by omega)
    · exact h.max (hi.mono (Nat.le_succ i))
  obtain ⟨ha, hb, n, hn, hagree, hnul, hempty⟩ := hboth
  obtain ⟨b', hb', hagree'⟩ := hagree.poke (ha.trans hb.symm) (show i ≤ n by omega) hp
  have hlen' : (bs ++ [0]).length = bs.length + 1 := by simp
  have hknown : Known empty (Max.max n (i + bs.length + 1)) a' b' := by
    refine ⟨(poke_length hp).trans ha, (poke_length hb').trans hb, _, Nat.le_refl _, by rw [hlen'] at hagree'; exact hagree', .inr ?_, fun he j hj hlt => ?_⟩
    · rw [poke_getElem? hp, hlen']
      by_cases hle : n ≤ i + bs.length + 1
      · rw [Nat.max_eq_right hle, Nat.add_sub_cancel, if_neg (by omega), if_pos (by omega)]
        simp
      · rw [Nat.max_eq_left (by omega), if_neg (by omega), if_neg (by omega)]
        exact hnul.resolve_left (by omega)
    · rw [poke_length hb'] at hlt
      rw [poke_getElem? hb', if_neg (by omega), if_neg (by omega)]
      exact hempty he j (by omega) hlt
  exact ⟨b', hb', hknown.mono (by omega), hknown.mono (by omega)⟩

theorem Known.agree (h : Known empty w a b) : AgreeTo w a b := by
  obtain ⟨_, _, n, hn, hagree, _⟩ := h
  exact fun i hi => hagree i (Nat.lt_of_lt_of_le hi hn)

theorem Known.getD (h : Known empty w a b) (hi : i < w) : a.getD i 0 = b.getD i 0 := by
  rw [List.getD_eq_getElem?_getD, List.getD_eq_getElem?_getD, h.agree i hi]

theorem Known.take (h : Known empty w a b) (hi : i ≤ w) : a.take i = b.take i := by
  have htake : (a.drop 0).take i = (b.drop 0).take i := h.agree.take_drop (by omega)
  simpa using htake

/-- A C string that begins in the known part ends there. -/
theorem Known.cString (h : Known empty w a b) (hi : i < w) : cString (a.drop i) = FEmbed.cString (b.drop i) := by
  obtain ⟨_, _, n, hn, hagree, hnul, _⟩ := h
  have hfront : (a.drop i).take (n - i) = (b.drop i).take (n - i) := hagree.take_drop (by omega)
  have hend : (0 : UInt8) ∈ (a.drop i).take (n - i) := by
    refine List.mem_iff_getElem?.mpr ⟨n - 1 - i, ?_⟩
    rw [List.getElem?_take_of_lt (by omega), List.getElem?_drop, ← hnul.resolve_left (by omega)]
    congr 1
    omega
  have hb : (b.drop i).takeWhile (· != 0) = ((b.drop i).take (n - i)).takeWhile (· != 0) :=
    takeWhile_take ⟨0, hfront ▸ hend, rfl⟩
  rw [FEmbed.cString, FEmbed.cString, takeWhile_take ⟨0, hend, rfl⟩, hfront, hb]

end Known

theorem strncmpEq_take (n : Nat) (a b : Bytes) : strncmpEq n a b = strncmpEq n (a.take n) b := by
  induction n generalizing a b with
  | zero => cases a <;> cases b <;> rfl
  | succ n ih =>
    cases a with
    | nil => rfl
    | cons x a =>
      cases b with
      | nil => rfl
      | cons y b =>
        rw [List.take_succ_cons, strncmpEq, strncmpEq, ih]

theorem strncpy_take (a : Bytes) (n : Nat) : strncpy a n = strncpy (a.take n) n := by
  rw [strncpy, strncpy, List.take_take, Nat.min_self]

namespace FTPClientBase

variable {σ : Type} {p : Platform σ}

/-- The buffer has its size, and the cursors delimit what is unread. -/
structure Sized (c : FTPClientBase) : Prop where
  buf : c.buf.length = ftplibBufsiz
  cput : c.cput = c.cget + c.cavail

/-- The cursors are the same, and what is stored below them. -/
structure SameBuffer (c c' : FTPClientBase) : Prop where
  cget : c.cget = c'.cget
  cavail : c.cavail = c'.cavail
  cleft : c.cleft = c'.cleft
  buf : AgreeTo c.cput c.buf c'.buf

/-- Two clients with the same socket, the same unread bytes, and a reply that
is known up to its end. -/
structure Alike (empty : Prop) (w : Nat) (s t : Live σ FTPClientBase) : Prop where
  env : s.env = t.env
  tcp : s.self.toTCPClient = t.self.toTCPClient
  dir : s.self.dir = t.self.dir
  sized : Sized s.self
  sized' : Sized t.self
  unread : (s.self.cavail = 0 ∧ t.self.cavail = 0) ∨ SameBuffer s.self t.self
  response : Known empty w s.self.response t.self.response

/-- Another reply. -/
theorem Alike.withResponse {empty : Prop} {w v : Nat} {s t : Live σ FTPClientBase} (h : Alike empty w s t) {a b : Bytes}
    (hk : Known empty v a b) : Alike empty v ⟨{ s.self with response := a }, s.env⟩ ⟨{ t.self with response := b }, t.env⟩ := by
  refine ⟨h.env, h.tcp, h.dir, ⟨h.sized.buf, h.sized.cput⟩, ⟨h.sized'.buf, h.sized'.cput⟩, ?_, hk⟩
  exact h.unread.imp id fun h => ⟨h.cget, h.cavail, h.cleft, h.buf⟩

/-- The locals of `readLine` in two runs. -/
structure LineAlike (empty : Prop) (w : Nat) (l l' : LineState) : Prop where
  max : l.max = l'.max
  retval : l.retval = l'.retval
  eof : l.eof = l'.eof
  out : Known empty w l.out l'.out
  line : l.retval = 0 ∨ Known empty (l.retval + 1) l.out l'.out

/-- The results of `readLine` in two runs: a line is known to its end. -/
structure LineResult (empty : Prop) (w : Nat) (r r' : Int × Bytes) : Prop where
  value : r.1 = r'.1
  out : Known empty w r.2 r'.2
  line : ∀ n : Nat, 0 < n → r.1 = n → Known empty (n + 1) r.2 r'.2

section Line

variable {empty : Prop} {w : Nat}

theorem memccpy_length_le (src : Bytes) (c : UInt8) (n : Nat) : (memccpy src c n).1.length ≤ n := by
  by_cases hmem : c ∈ src.take n
  · obtain ⟨pre, post, hsrc, hpre⟩ := List.eq_append_cons_of_mem hmem
    have hlen := congrArg List.length hsrc
    have htake : (src.take n).length ≤ n := List.length_take_le n src
    rw [memccpy_found hpre hsrc]
    simp only [List.length_append, List.length_cons, List.length_nil] at hlen ⊢
    omega
  · rw [memccpy_missing hmem]
    exact List.length_take_le n src

theorem lineCount_le {c : FTPClientBase} {max x : Nat} (h : lineCount c max = some x) : x ≤ c.cavail := by
  rw [lineCount] at h
  by_cases hmax : max ≥ c.cavail
  · rw [if_pos hmax] at h
    split at h
    · cases h
    · have := Option.some.inj h
      omega
  · rw [if_neg hmax] at h
    split at h
    · cases h
    · have := Option.some.inj h
      omega

/-- The line end of a line that is known is known. -/
theorem endLine_alike {out out' : Bytes} {retval : Nat} {r : Bytes × Nat} (hout : Known empty w out out')
    (hline : Known empty (retval + 1) out out') (h : endLine out retval = some r) :
    ∃ r', endLine out' retval = some r' ∧ r.2 = r'.2 ∧ Known empty w r.1 r'.1 ∧ Known empty (r.2 + 1) r.1 r'.1 := by
  unfold endLine at h ⊢
  by_cases htwo : retval < 2
  · rw [if_pos htwo] at h
    exact nomatch h
  rw [if_neg htwo] at h ⊢
  have hagree : (out.drop (retval - 2)).take 3 = (out'.drop (retval - 2)).take 3 := by
    obtain ⟨_, _, n, hn, hagree, _⟩ := hline
    exact hagree.take_drop (by omega)
  rw [← hagree]
  split at h
  · rename_i hend
    rw [if_pos hend]
    obtain ⟨out₁, hp, rfl⟩ := Option.map_eq_some_iff.mp h
    have hi : retval - 2 = 0 ∨ Known empty (retval - 2 + 1) out out' := .inr (hline.mono (by omega))
    obtain ⟨out₂, hp', hw, hl⟩ := hout.poke hi (show poke out (retval - 2) ([10] ++ [0]) = some out₁ from hp)
    refine ⟨(out₂, retval - 1), by rw [show [10, 0] = [10] ++ [(0 : UInt8)] from rfl, hp']; rfl, rfl, hw, ?_⟩
    exact hl.mono (by simp; omega)
  · rename_i hend
    rw [if_neg hend]
    obtain rfl := Option.some.inj h
    exact ⟨(out', retval), rfl, rfl, hout, hline⟩

/-- A part of what is unread goes to the line. -/
theorem takeLine_alike {c c' : FTPClientBase} {l l' : LineState} {r : FTPClientBase × LineState × Bool} (hc : Sized c) (hc' : Sized c')
    (hs : SameBuffer c c') (hl : LineAlike empty w l l') (h : takeLine c l = some r) :
    ∃ r', takeLine c' l' = some r' ∧ r.2.2 = r'.2.2 ∧ LineAlike empty w r.2.1 r'.2.1 ∧
      ∃ n ≤ c.cavail, r.1 = { c with cget := c.cget + n, cavail := c.cavail - n } ∧
        r'.1 = { c' with cget := c'.cget + n, cavail := c'.cavail - n } := by
  have hcount : lineCount c l.max = lineCount c' l'.max := by
    rw [lineCount, lineCount, hs.cget, hs.cavail, hl.max, hc.buf, hc'.buf]
  rw [takeLine, Option.bind_eq_bind, Option.bind_eq_some_iff] at h
  obtain ⟨x, hx, h⟩ := h
  have hle := lineCount_le hx
  have hsrc : (c.buf.drop c.cget).take x = (c'.buf.drop c'.cget).take x := by
    rw [← hs.cget]
    exact hs.buf.take_drop (by have := hc.cput; omega)
  have hcopy : memccpy (c.buf.drop c.cget) 10 x = memccpy (c'.buf.drop c'.cget) 10 x := by
    rw [memccpy, memccpy, hsrc]
  have hcopied := memccpy_length_le (c.buf.drop c.cget) 10 x
  rw [takeLine, ← hcount, hx, Option.bind_eq_bind, Option.bind_some, ← hcopy]
  generalize memccpy (c.buf.drop c.cget) 10 x = copy at h hcopied ⊢
  obtain ⟨bs, found⟩ := copy
  dsimp only at h hcopied ⊢
  rw [Option.bind_eq_bind, Option.bind_eq_some_iff] at h
  obtain ⟨out, hout, h⟩ := h
  have hi : l.retval = 0 ∨ Known empty (l.retval + 1) l.out l'.out := hl.line
  obtain ⟨out', hout', hw, hline⟩ := hl.out.poke hi hout
  rw [← hl.retval, hout', Option.bind_eq_bind, Option.bind_some]
  cases found with
  | false =>
    obtain rfl := Option.some.inj h
    refine ⟨_, rfl, rfl, ⟨?_, rfl, hl.eof, hw, .inr hline⟩, bs.length, by omega, rfl, rfl⟩
    show l.max - bs.length = l'.max - bs.length
    rw [hl.max]
  | true =>
    rw [if_pos rfl] at h ⊢
    rw [Option.bind_eq_bind, Option.bind_eq_some_iff] at h
    obtain ⟨e, he, h⟩ := h
    obtain ⟨e', he', hret, hw', hline'⟩ := endLine_alike hw hline he
    obtain rfl := Option.some.inj h
    rw [he', Option.bind_eq_bind, Option.bind_some]
    refine ⟨_, rfl, rfl, ⟨?_, hret, hl.eof, hw', .inr hline'⟩, bs.length, by omega, rfl, rfl⟩
    show l.max - bs.length = l'.max - bs.length
    rw [hl.max]

/-- What a turn of `readLine` does in two runs. -/
def TurnAlike (empty : Prop) (w : Nat) : Turn LineState (Int × Bytes) → Turn LineState (Int × Bytes) →
    Live σ FTPClientBase → Live σ FTPClientBase → Prop
  | .next l, .next l', s, t => LineAlike empty w l l' ∧ Alike empty w s t
  | .exit r, .exit r', s, t => LineResult empty w r r' ∧ Alike empty w s t
  | _, _, _, _ => False

theorem LineAlike.result {l l' : LineState} (h : LineAlike empty w l l') :
    LineResult empty w (l.retval, l.out) (l'.retval, l'.out) := by
  refine ⟨congrArg Int.ofNat h.retval, h.out, fun n hn hr => ?_⟩
  obtain rfl : l.retval = n := Int.ofNat_inj.mp hr
  exact h.line.resolve_left (by omega)

/-- What `read` gave goes to the same place. -/
theorem stored_alike {c c' r : FTPClientBase} {got : Bytes} (hc : Sized c) (hc' : Sized c') (hs : SameBuffer c c')
    (h : stored c got = some r) : ∃ r', stored c' got = some r' ∧ Sized r ∧ Sized r' ∧ SameBuffer r r' ∧
      r.toTCPClient = c.toTCPClient ∧ r'.toTCPClient = c'.toTCPClient ∧ r.dir = c.dir ∧ r'.dir = c'.dir ∧
      r.response = c.response ∧ r'.response = c'.response := by
  have hcput : c.cput = c'.cput := by rw [hc.cput, hc'.cput, hs.cget, hs.cavail]
  rw [stored, Option.bind_eq_bind, Option.bind_eq_some_iff] at h
  obtain ⟨b₁, hb₁, h⟩ := h
  dsimp only at h
  rw [Option.bind_eq_some_iff] at h
  obtain ⟨b₂, hb₂, h⟩ := h
  obtain rfl := Option.some.inj h
  obtain ⟨d₁, hd₁, hagree₁⟩ := hs.buf.poke (hc.buf.trans hc'.buf.symm) (Nat.le_refl _) hb₁
  have hlen₁ : b₁.length = d₁.length := by rw [poke_length hb₁, poke_length hd₁, hc.buf, hc'.buf]
  obtain ⟨d₂, hd₂, hagree₂⟩ := hagree₁.poke hlen₁ (by have := hc.cput; omega) hb₂
  have hle : c.cput + got.length ≤ max (max c.cput (c.cput + got.length)) (c.cavail + got.length + [(0 : UInt8)].length) := by omega
  refine ⟨{ c' with buf := d₂, cavail := c'.cavail + got.length, cput := c'.cput + got.length, cleft := c'.cleft - got.length },
    ?_, ⟨?_, ?_⟩, ⟨?_, ?_⟩, ⟨hs.cget, ?_, ?_, ?_⟩, rfl, rfl, rfl, rfl, rfl, rfl⟩
  · rw [stored, ← hcput, hd₁, ← hs.cavail, Option.bind_eq_bind, Option.bind_some]
    dsimp only
    rw [hd₂]
    rfl
  · exact (poke_length hb₂).trans ((poke_length hb₁).trans hc.buf)
  · show c.cput + got.length = c.cget + (c.cavail + got.length)
    have := hc.cput
    omega
  · exact (poke_length hd₂).trans ((poke_length hd₁).trans hc'.buf)
  · show c'.cput + got.length = c'.cget + (c'.cavail + got.length)
    have := hc'.cput
    omega
  · show c.cavail + got.length = c'.cavail + got.length
    rw [hs.cavail]
  · show c.cleft - got.length = c'.cleft - got.length
    rw [hs.cleft]
  · exact fun i hi => hagree₂ i (Nat.lt_of_lt_of_le hi hle)

/-- A call of the `TCPClient`. -/
theorem tcp_same {α : Type} {x : Prog (Live σ TCPClient) α} {s t s' : Live σ FTPClientBase} {a : α} (henv : s.env = t.env)
    (htcp : s.self.toTCPClient = t.self.toTCPClient) (h : (tcp x).Returns s a s') :
    ∃ c e, s' = ⟨{ s.self with toTCPClient := c }, e⟩ ∧ (tcp x).Returns t a ⟨{ t.self with toTCPClient := c }, e⟩ := by
  obtain ⟨u, hu, rfl⟩ := Prog.returns_zoom.mp h
  refine ⟨u.self, u.env, rfl, Prog.returns_zoom.mpr ⟨u, ?_, rfl⟩⟩
  rw [← htcp, ← henv]
  exact hu

theorem refill_alike {l l' : LineState} (hl : LineAlike empty w l l') :
    Follows (fun s t => Alike empty w s t ∧ SameBuffer s.self t.self) (refill p l) (refill p l') (TurnAlike empty w) := by
  intro s t ⟨hA, hs⟩ r s' h
  rw [refill, returns_obj_bind] at h
  obtain ⟨⟨x, got⟩, u, hread, h⟩ := Prog.returns_bind.mp h
  obtain ⟨c, e, rfl, hread'⟩ := tcp_same hA.env hA.tcp hread
  rw [hs.cleft] at hread'
  dsimp only at h hread'
  have hA' : Alike empty w ⟨{ s.self with toTCPClient := c }, e⟩ ⟨{ t.self with toTCPClient := c }, e⟩ :=
    ⟨rfl, rfl, hA.dir, ⟨hA.sized.buf, hA.sized.cput⟩, ⟨hA.sized'.buf, hA.sized'.cput⟩,
      .inr ⟨hs.cget, hs.cavail, hs.cleft, hs.buf⟩, hA.response⟩
  by_cases hx : x = -1
  · rw [if_pos hx] at h
    obtain ⟨rfl, rfl⟩ := Prog.returns_pure.mp h
    refine ⟨.exit (-1, l'.out), ⟨{ t.self with toTCPClient := c }, e⟩, ?_, ⟨rfl, hl.out, fun n hn hr => by cases hr⟩, hA'⟩
    rw [refill, returns_obj_bind, Prog.returns_bind_of hread']
    dsimp only
    rw [if_pos hx]
    exact Prog.returns_pure.mpr ⟨rfl, rfl⟩
  · rw [if_neg hx, returns_obj_bind] at h
    cases hstored : stored { s.self with toTCPClient := c } got with
    | none =>
      dsimp only at h hstored
      rw [hstored] at h
      exact absurd h Prog.returns_undefined
    | some c₁ =>
      obtain ⟨c₂, hstored', hz, hz', hsame, htcp, htcp', hdir, hdir', hresp, hresp'⟩ :=
        stored_alike hA'.sized hA'.sized' ⟨hs.cget, hs.cavail, hs.cleft, hs.buf⟩ hstored
      dsimp only at h hstored hstored'
      rw [hstored] at h
      dsimp only at h
      rw [returns_set_bind] at h
      obtain ⟨rfl, rfl⟩ := Prog.returns_pure.mp h
      refine ⟨.next { l' with eof := decide (x = 0) }, ⟨c₂, e⟩, ?_, ⟨hl.max, hl.retval, rfl, hl.out, hl.line⟩, ?_⟩
      · rw [refill, returns_obj_bind, Prog.returns_bind_of hread']
        dsimp only
        rw [if_neg hx, returns_obj_bind]
        dsimp only
        rw [hstored']
        exact returns_set_bind.mpr (Prog.returns_pure.mpr ⟨rfl, rfl⟩)
      · refine ⟨rfl, htcp.trans htcp'.symm, (hdir.trans hA.dir).trans hdir'.symm, hz, hz', .inr hsame, ?_⟩
        show Known empty w c₁.response c₂.response
        rw [hresp, hresp']
        exact hA.response

/-- The cursors go back to the start when nothing is unread. -/
theorem Alike.reset {s t : Live σ FTPClientBase} (h : Alike empty w s t) :
    Alike empty w ⟨{ s.self with cput := 0, cget := 0, cavail := 0, cleft := ftplibBufsiz }, s.env⟩
      ⟨{ t.self with cput := 0, cget := 0, cavail := 0, cleft := ftplibBufsiz }, t.env⟩ :=
  ⟨h.env, h.tcp, h.dir, ⟨h.sized.buf, rfl⟩, ⟨h.sized'.buf, rfl⟩, .inl ⟨rfl, rfl⟩, h.response⟩

theorem fill_alike {l l' : LineState} (hl : LineAlike empty w l l') :
    Follows (Alike empty w) (fill p l) (fill p l') (TurnAlike empty w) := by
  have rest : Follows (fun s t => Alike empty w s t ∧ SameBuffer s.self t.self)
      (if l.eof then pure (.exit (if l.retval = 0 then -1 else (l.retval : Int), l.out)) else refill p l)
      (if l'.eof then pure (.exit (if l'.retval = 0 then -1 else (l'.retval : Int), l'.out)) else refill p l')
      (TurnAlike empty w) := by
    refine .ite (by rw [hl.eof]) (fun _ => .pure fun s t h => ⟨?_, h.1⟩) fun _ => refill_alike hl
    rw [← hl.retval]
    by_cases hz : l.retval = 0
    · rw [if_pos hz]
      exact ⟨rfl, hl.out, fun n hn hr => nomatch hr⟩
    · rw [if_neg hz]
      have hres := hl.result
      rw [← hl.retval] at hres
      exact hres
  rw [fill, fill]
  refine .ite (by rw [hl.max]) (fun _ => ?_) fun _ => ?_
  · cases hp : poke l.out 0 [0] with
    | none => exact .undefined
    | some out =>
      have hp' : poke l.out 0 ([] ++ [0]) = some out := hp
      obtain ⟨out', hout', hw, _⟩ := hl.out.poke (.inl rfl) hp'
      have hpoke : poke l'.out 0 [0] = some out' := hout'
      rw [hpoke]
      refine .pure fun s t h => ⟨⟨congrArg Int.ofNat hl.retval, hw, fun n hn hr => ?_⟩, h⟩
      obtain rfl : l.retval = n := Int.ofNat_inj.mp hr
      obtain ⟨out'', hout'', hline, _⟩ := (hl.line.resolve_left (by omega)).poke (.inl rfl) hp'
      obtain rfl : out'' = out' := Option.some.inj (hout''.symm.trans hout')
      exact hline
  · intro s t hA r s' h
    have hempty : s.self.cavail = 0 ↔ t.self.cavail = 0 := by
      rcases hA.unread with ⟨hs, ht⟩ | hsame
      · simp [hs, ht]
      · rw [hsame.cavail]
    have hcursors := hA.sized.cput
    have hcursors' := hA.sized'.cput
    rw [returns_obj_bind, returns_obj_bind] at h
    by_cases hc : s.self.cavail = 0
    · have hc' := hempty.mp hc
      rw [if_pos (by omega), returns_set_bind] at h
      have hsame : SameBuffer { s.self with cput := 0, cget := 0, cavail := 0, cleft := ftplibBufsiz }
          { t.self with cput := 0, cget := 0, cavail := 0, cleft := ftplibBufsiz } :=
        ⟨rfl, rfl, rfl, fun i hi => absurd hi (Nat.not_lt_zero i)⟩
      obtain ⟨r', t', ht', hturn⟩ := rest _ _ ⟨hA.reset, hsame⟩ r s' h
      refine ⟨r', t', ?_, hturn⟩
      rw [returns_obj_bind, returns_obj_bind, if_pos (by omega), returns_set_bind]
      exact ht'
    · have hc' : t.self.cavail ≠ 0 := fun ht => hc (hempty.mpr ht)
      rw [if_neg (by omega)] at h
      obtain ⟨r', t', ht', hturn⟩ := rest s t ⟨hA, hA.unread.resolve_left fun h => hc h.1⟩ r s' h
      refine ⟨r', t', ?_, hturn⟩
      rw [returns_obj_bind, returns_obj_bind, if_neg (by omega)]
      exact ht'

theorem readLineTurn_alike {l l' : LineState} (hl : LineAlike empty w l l') :
    Follows (Alike empty w) (readLineTurn p l) (readLineTurn p l') (TurnAlike empty w) := by
  intro s t hA r s' h
  rw [readLineTurn, returns_obj_bind] at h
  by_cases hc : s.self.cavail > 0
  · have hsame : SameBuffer s.self t.self := hA.unread.resolve_left fun h => by omega
    have hc' : t.self.cavail > 0 := hsame.cavail ▸ hc
    rw [if_pos hc] at h
    cases htake : takeLine s.self l with
    | none =>
      rw [htake] at h
      exact absurd h Prog.returns_undefined
    | some taken =>
      obtain ⟨taken', htake', hdone, hl', n, hn, hc₁, hc₂⟩ := takeLine_alike hA.sized hA.sized' hsame hl htake
      obtain ⟨c₁, l₁, done⟩ := taken
      obtain ⟨c₂, l₂, done'⟩ := taken'
      dsimp only at hdone hl' hc₁ hc₂
      subst hdone
      rw [htake] at h
      dsimp only at h
      rw [returns_set_bind] at h
      have hcursors := hA.sized.cput
      have hcursors' := hA.sized'.cput
      have hcavail := hsame.cavail
      have hA' : Alike empty w ⟨c₁, s.env⟩ ⟨c₂, t.env⟩ := by
        rw [hc₁, hc₂]
        refine ⟨hA.env, hA.tcp, hA.dir, ⟨hA.sized.buf, ?_⟩, ⟨hA.sized'.buf, ?_⟩, .inr ⟨?_, ?_, ?_, hsame.buf⟩,
          hA.response⟩
        · show s.self.cput = s.self.cget + n + (s.self.cavail - n)
          omega
        · show t.self.cput = t.self.cget + n + (t.self.cavail - n)
          omega
        · show s.self.cget + n = t.self.cget + n
          rw [hsame.cget]
        · show s.self.cavail - n = t.self.cavail - n
          rw [hsame.cavail]
        · exact hsame.cleft
      have rest : Follows (Alike empty w) (if done then pure (.exit ((l₁.retval : Int), l₁.out)) else fill p l₁)
          (if done then pure (.exit ((l₂.retval : Int), l₂.out)) else fill p l₂) (TurnAlike empty w) :=
        .ite Iff.rfl (fun _ => .pure fun s t h => ⟨hl'.result, h⟩) fun _ => fill_alike hl'
      obtain ⟨r', t', ht', hturn⟩ := rest _ _ hA' r s' h
      refine ⟨r', t', ?_, hturn⟩
      rw [readLineTurn, returns_obj_bind, if_pos hc', htake']
      exact returns_set_bind.mpr ht'
  · have hc' : ¬ t.self.cavail > 0 := by
      rcases hA.unread with ⟨_, ht⟩ | hsame
      · omega
      · rw [← hsame.cavail]
        exact hc
    rw [if_neg hc] at h
    obtain ⟨r', t', ht', hturn⟩ := fill_alike hl s t hA r s' h
    refine ⟨r', t', ?_, hturn⟩
    rw [readLineTurn, returns_obj_bind, if_neg hc']
    exact ht'

theorem readLine_alike {out out' : Bytes} (hout : Known empty w out out') (max : Nat) :
    Follows (Alike empty w) (readLine p out max) (readLine p out' max) fun r r' s t => LineResult empty w r r' ∧ Alike empty w s t := by
  intro s t hA r s' h
  have hres (v : Int) (hv : v ≤ 0) : LineResult empty w (v, out) (v, out') :=
    ⟨rfl, hout, fun n hn hr => by dsimp only at hr; omega⟩
  have hl : LineAlike empty w { out := out, max := max } { out := out', max := max } := ⟨rfl, rfl, rfl, hout, .inl rfl⟩
  have turns (l l' : LineState) : Follows (fun s t => LineAlike empty w l l' ∧ Alike empty w s t)
      (Prog.loop (readLineTurn p) l) (Prog.loop (readLineTurn p) l')
      fun r r' s t => LineResult empty w r r' ∧ Alike empty w s t := by
    refine Follows.loop (fun l l' s t => LineAlike empty w l l' ∧ Alike empty w s t) (fun l l' s t hI r s' h => ?_) l l'
    obtain ⟨r', t', ht', hturn⟩ := readLineTurn_alike hI.1 s t hI.2 r s' h
    refine ⟨r', t', ht', ?_⟩
    cases r <;> cases r' <;> exact hturn
  have loop : Follows (Alike empty w) (Prog.loop (readLineTurn p) { out := out, max := max })
      (Prog.loop (readLineTurn p) { out := out', max := max }) fun r r' s t => LineResult empty w r r' ∧ Alike empty w s t :=
    fun s t hA => turns _ _ s t ⟨hl, hA⟩
  have both : Follows (Alike empty w)
      (if max = 0 then pure (0, out) else Prog.loop (readLineTurn p) { out := out, max := max })
      (if max = 0 then pure (0, out') else Prog.loop (readLineTurn p) { out := out', max := max })
      fun r r' s t => LineResult empty w r r' ∧ Alike empty w s t :=
    .ite Iff.rfl (fun _ => .pure fun s t h => ⟨hres 0 (Int.le_refl 0), h⟩) fun _ => loop
  rw [readLine, returns_obj_bind] at h
  by_cases hdir : s.self.dir = .write
  · rw [if_pos hdir] at h
    obtain ⟨rfl, rfl⟩ := Prog.returns_pure.mp h
    refine ⟨(-1, out'), t, ?_, hres (-1) (by decide), hA⟩
    rw [readLine, returns_obj_bind, if_pos (hA.dir ▸ hdir)]
    exact Prog.returns_pure.mpr ⟨rfl, rfl⟩
  · rw [if_neg hdir] at h
    obtain ⟨r', t', ht', hr⟩ := both s t hA r s' h
    refine ⟨r', t', ?_, hr⟩
    rw [readLine, returns_obj_bind, if_neg (hA.dir ▸ hdir)]
    exact ht'

/-- A line in `response` is known to its end. -/
theorem readLineResponse_alike : Follows (Alike empty w) (readLineResponse p) (readLineResponse p) fun r r' s t =>
    r = r' ∧ Alike empty w s t ∧ ∀ n : Nat, 0 < n → r = n → Alike empty (n + 1) s t := by
  intro s t hA v s' h
  rw [readLineResponse, returns_obj_bind] at h
  obtain ⟨⟨r, out⟩, u, hread, h⟩ := Prog.returns_bind.mp h
  obtain ⟨⟨r', out'⟩, u', hread', hres, hA'⟩ := readLine_alike hA.response _ s t hA _ u hread
  dsimp only at h
  rw [returns_set_bind] at h
  obtain ⟨rfl, rfl⟩ := Prog.returns_pure.mp h
  have hr : v = r' := hres.value
  refine ⟨r', ⟨{ u'.self with response := out' }, u'.env⟩, ?_, hr, hA'.withResponse hres.out,
    fun n hn hv => hA'.withResponse (hres.line n hn hv)⟩
  rw [readLineResponse, returns_obj_bind, Prog.returns_bind_of hread']
  exact returns_set_bind.mpr (Prog.returns_pure.mpr ⟨rfl, rfl⟩)

end Line

/-! ## Replies to commands -/

variable {empty : Prop}

theorem readLineResponse_blind {w : Nat} : Blind (Alike empty w) (readLineResponse p) :=
  readLineResponse_alike.post fun _ _ _ _ h => ⟨h.1, h.2.1⟩

theorem readRest_blind {code : Bytes} : Blind (Alike empty 5) (readRest p code) := by
  refine .loop (fun _ => .bind readLineResponse_blind fun r => .ite .pure ?_) ()
  refine .gets_bind (fun s t h => ?_) fun c => .ite .pure .pure
  have hfront := h.response.take (show 4 ≤ 5 by decide)
  rw [strncmpEq_take, hfront, ← strncmpEq_take]

/-- The first line of a reply, and what is done with it. -/
theorem readResp_cut (p : Platform σ) (empty : Prop) (c : UInt8) :
    ∃ f, readResp p c = readLineResponse p >>= f ∧ ∀ r, Blind (Alike empty 5) (f r) := by
  have last : Blind (Alike empty 5) (do
      return if (← obj).response.getD 0 0 = c then (1 : Int) else 0 : Prog (Live σ FTPClientBase) Int) := by
    refine .gets_bind (fun s t h => ?_) fun _ => .pure
    rw [h.response.getD (by decide)]
  refine ⟨_, rfl, fun r => .ite .pure (.gets_bind (fun s t h => ?_) fun c => .ite ?_ last)⟩
  · rw [h.response.getD (by decide)]
  · refine .gets_bind (fun s t h => ?_) fun c => .bind readRest_blind fun b => .ite .pure last
    rw [strncpy_take, h.response.take (show 3 ≤ 5 by decide), ← strncpy_take]

theorem readResp_blind {c : UInt8} : Blind (Alike empty 5) (readResp p c) := by
  obtain ⟨f, hf, hblind⟩ := readResp_cut p empty c
  rw [hf]
  exact .bind readLineResponse_blind hblind

/-- A first line of four bytes makes the whole reply known. -/
theorem readResp_first {c : UInt8} {s t s' : Live σ FTPClientBase} {v : Int} (h : Alike empty 0 s t)
    (hfirst : ∃ r u, 4 ≤ r ∧ ((readLineResponse p).Returns s r u ∨ (readLineResponse p).Returns t r u))
    (hr : (readResp p c).Returns s v s') : ∃ t', (readResp p c).Returns t v t' ∧ Alike empty 5 s' t' := by
  obtain ⟨f, hf, hblind⟩ := readResp_cut p empty c
  rw [hf] at hr ⊢
  obtain ⟨r, u, hline, hrest⟩ := Prog.returns_bind.mp hr
  obtain ⟨_, u', hline', rfl, _, hknown⟩ := readLineResponse_alike s t h r u hline
  have hlong : 4 ≤ r := by
    obtain ⟨r₀, _, hle, h₀ | h₀⟩ := hfirst
    · exact (hline.det h₀).1 ▸ hle
    · exact (hline'.det h₀).1 ▸ hle
  obtain ⟨n, rfl⟩ := Int.eq_ofNat_of_zero_le (show 0 ≤ r by omega)
  have hA := hknown n (by omega) rfl
  have hA5 : Alike empty 5 u u' := { hA with response := hA.response.mono (by omega) }
  obtain ⟨_, t', ht', rfl, hA'⟩ := hblind n u u' hA5 v s' hrest
  exact ⟨t', Prog.returns_bind.mpr ⟨n, u', hline', ht'⟩, hA'⟩

theorem tcp_blind {α : Type} {w : Nat} {x : Prog (Live σ TCPClient) α} : Blind (Alike empty w) (tcp x) := by
  refine .zoom_same (fun s t h => ?_) fun s t u h => ?_
  · rw [h.env, h.tcp]
  · refine ⟨rfl, rfl, h.dir, ⟨h.sized.buf, h.sized.cput⟩, ⟨h.sized'.buf, h.sized'.cput⟩, ?_, h.response⟩
    exact h.unread.imp id fun h => ⟨h.cget, h.cavail, h.cleft, h.buf⟩

theorem printf_blind {w : Nat} {text : Bytes} : Blind (Alike empty w) (printf p text) := .bind tcp_blind fun _ => .pure

end FTPClientBase

namespace FTPClient

variable {σ : Type} {p : Platform σ} {fs : FTPClientDataCallback σ} {empty : Prop}

/-- Two clients that differ only in their control connections, and there only
in what no reply comes from. -/
structure Unaware (empty : Prop) (w : Nat) (s t : Live σ FTPClient) : Prop where
  control : FTPClientBase.Alike empty w (control s) (control t)
  m_fs_cb : s.self.m_fs_cb = t.self.m_fs_cb
  nData : s.self.nData = t.self.nData
  hist : s.self.hist = t.self.hist

theorem Unaware.env {w : Nat} {s t : Live σ FTPClient} (h : Unaware empty w s t) : s.env = t.env := h.control.env

theorem Unaware.response {w : Nat} {s t : Live σ FTPClient} (h : Unaware empty w s t) :
    Known empty w s.self.response t.self.response := h.control.response

/-- What is assigned is not of the control connection. -/
theorem Unaware.same {w : Nat} {s t s' t' : Live σ FTPClient} (h : Unaware empty w s t)
    (hs : s'.self.toFTPClientBase = s.self.toFTPClientBase) (ht : t'.self.toFTPClientBase = t.self.toFTPClientBase)
    (henv : s'.env = t'.env) (hcb : s'.self.m_fs_cb = t'.self.m_fs_cb) (hd : s'.self.nData = t'.self.nData)
    (hh : s'.self.hist = t'.self.hist) : Unaware empty w s' t' := by
  have hc := h.control
  refine ⟨⟨henv, ?_, ?_, ?_, ?_, ?_, ?_⟩, hcb, hd, hh⟩
  · show s'.self.toTCPClient = t'.self.toTCPClient
    rw [hs, ht]
    exact hc.tcp
  · show s'.self.dir = t'.self.dir
    rw [hs, ht]
    exact hc.dir
  · show FTPClientBase.Sized s'.self.toFTPClientBase
    rw [hs]
    exact hc.sized
  · show FTPClientBase.Sized t'.self.toFTPClientBase
    rw [ht]
    exact hc.sized'
  · show (s'.self.cavail = 0 ∧ t'.self.cavail = 0) ∨ FTPClientBase.SameBuffer s'.self.toFTPClientBase t'.self.toFTPClientBase
    rw [hs, ht]
    exact hc.unread
  · show Known empty w s'.self.response t'.self.response
    rw [hs, ht]
    exact hc.response

theorem ctrl_blind {α : Type} {w : Nat} {x : Prog (Live σ FTPClientBase) α} (hx : Blind (FTPClientBase.Alike empty w) x) :
    Blind (Unaware empty w) (ctrl x) :=
  .zoom hx (fun _ _ h => h.control) fun _ _ _ _ h hu => ⟨hu, h.m_fs_cb, h.nData, h.hist⟩

theorem data_blind {α : Type} {w : Nat} {x : Prog (Live σ TCPClient) α} : Blind (Unaware empty w) (data x) := by
  refine .zoom_same (fun s t h => ?_) fun s t u h => h.same rfl rfl rfl h.m_fs_cb ?_ h.hist
  · rw [h.nData, h.env]
  · show { s.self.nData with toTCPClient := u.self } = { t.self.nData with toTCPClient := u.self }
    rw [h.nData]

theorem call_blind {α : Type} {w : Nat} {f : σ → α × σ} : Blind (Unaware empty w) (call f) := by
  refine .step fun s t h => ⟨by rw [h.env], h.same rfl rfl ?_ h.m_fs_cb h.nData h.hist⟩
  show (f s.env).2 = (f t.env).2
  rw [h.env]

theorem tell_blind {w : Nat} {f : σ → σ} : Blind (Unaware empty w) (tell f) := by
  refine .modify fun s t h => h.same rfl rfl ?_ h.m_fs_cb h.nData h.hist
  show f s.env = f t.env
  rw [h.env]

theorem record_blind {w : Nat} {e : FTPEvent} : Blind (Unaware empty w) (record e : Prog (Live σ FTPClient) Unit) := by
  refine .modify fun s t h => h.same rfl rfl h.env h.m_fs_cb h.nData ?_
  show s.self.hist ++ [e] = t.self.hist ++ [e]
  rw [h.hist]

theorem setData_blind {w : Nat} (f : FTPClientBase → FTPClientBase) :
    Blind (Unaware empty w) (set fun c => { c with nData := f c.nData } : Prog (Live σ FTPClient) Unit) := by
  refine .modify fun s t h => h.same rfl rfl h.env h.m_fs_cb ?_ h.hist
  show f s.self.nData = f t.self.nData
  rw [h.nData]

/-! ## Commands -/

theorem exchange_blind {line : Bytes} {c : UInt8} : Blind (Unaware empty 5) (exchange p line c) :=
  .bind (ctrl_blind FTPClientBase.printf_blind) fun _ => ctrl_blind FTPClientBase.readResp_blind

theorem login_blind {user password : Option Bytes} : Blind (Unaware empty 5) (login p user password) := by
  refine .bind exchange_blind fun _ => .ite (.gets_bind (fun s t h => ?_) fun _ => .pure) exchange_blind
  rw [h.response.getD (by decide)]

theorem rename_blind {oldName newName : Option Bytes} : Blind (Unaware empty 5) (rename p oldName newName) :=
  .bind exchange_blind fun _ => .ite .pure exchange_blind

theorem size_blind {path : Option Bytes} {mode : FTPTransferMode} : Blind (Unaware empty 5) (size p path mode) := by
  refine .bind exchange_blind fun _ => .ite .pure (.bind exchange_blind fun _ => .ite .pure (.gets_bind (fun s t h => ?_) fun c => ?_))
  · have htext := h.response.cString (show 0 < 5 by decide)
    rw [List.drop_zero, List.drop_zero] at htext
    rw [htext]
  · split
    · exact .pure
    · split <;> exact .pure

theorem modDate_blind {path : Option Bytes} : Blind (Unaware empty 5) (modDate p path) := by
  refine .bind exchange_blind fun _ => .ite .undefined (.gets_bind (fun s t h => ?_) fun c => .pure)
  rw [h.response.cString (by decide)]

/-! ## Words of a reply

Their scans may run past the end of the reply, where a backslash is in front of
it: what is behind must be empty then. -/

theorem wordEnd_known {stop : UInt8} {a b : Bytes} {n : Nat} (hagree : AgreeTo n a b) (hnul : a[n - 1]? = some 0)
    (hempty : ∀ i, n ≤ i → i < b.length → b[i]? = some 0) (fuel i : Nat) (hi : i < n) :
    (wordEnd stop a fuel i = wordEnd stop b fuel i ∧ wordEnd stop a fuel i < n) ∨
    (n ≤ wordEnd stop a fuel i ∧ wordEnd stop b fuel i = n) := by
  induction fuel generalizing i with
  | zero => exact .inl ⟨rfl, hi⟩
  | succ fuel ih =>
    have hbyte : a.getD i 0 = b.getD i 0 := by
      rw [List.getD_eq_getElem?_getD, List.getD_eq_getElem?_getD, hagree i hi]
    rw [wordEnd, wordEnd, ← hbyte]
    by_cases hgo : i < ftplibResponseBufsiz - 1 ∧ a.getD i 0 ≠ 0 ∧ a.getD i 0 ≠ stop
    · rw [if_pos hgo, if_pos hgo]
      have hlast : i ≠ n - 1 := by
        rintro rfl
        exact hgo.2.1 (by rw [List.getD_eq_getElem?_getD, hnul]; rfl)
      by_cases hesc : a.getD i 0 = 92
      · rw [if_pos hesc]
        by_cases hin : i + 2 < n
        · exact ih (i + 2) hin
        · obtain rfl : i + 2 = n := by omega
          refine .inr ⟨le_wordEnd stop a fuel _, ?_⟩
          have hzero : b.getD (i + 2) 0 = 0 := by
            rw [List.getD_eq_getElem?_getD]
            by_cases hlt : i + 2 < b.length
            · rw [hempty _ (Nat.le_refl _) hlt]
              rfl
            · rw [List.getElem?_eq_none (by omega)]
              rfl
          cases fuel with
          | zero => rfl
          | succ fuel => rw [wordEnd, if_neg fun h => h.2.1 hzero]
      · rw [if_neg hesc]
        exact ih (i + 1) (by omega)
    · rw [if_neg hgo, if_neg hgo]
      exact .inl ⟨rfl, hi⟩

/-- The word is cut out of the known part, or ends behind it. -/
theorem word_known {stop : UInt8} {a b a' : Bytes} {i n : Nat} (hk : Known empty n a b) (hnul : a[n - 1]? = some 0)
    (hempty : ∀ i, n ≤ i → i < b.length → b[i]? = some 0) (hi : i < n)
    (hp : poke a (wordEnd stop a ftplibResponseBufsiz i) [0] = some a') :
    ∃ b', poke b (wordEnd stop b ftplibResponseBufsiz i) [0] = some b' ∧ Known empty n a' b' := by
  rcases wordEnd_known hk.agree hnul hempty ftplibResponseBufsiz i hi with ⟨heq, hlt⟩ | ⟨hge, heq⟩
  · have hp' : poke a (wordEnd stop a ftplibResponseBufsiz i) ([] ++ [0]) = some a' := hp
    obtain ⟨b', hb', hw, _⟩ := hk.poke (.inr (hk.mono (Nat.succ_le_of_lt hlt))) hp'
    exact ⟨b', heq ▸ hb', hw⟩
  · have hle := (poke_some hp).1
    have hfit : n + [(0 : UInt8)].length ≤ b.length := by
      have := hk.1
      have := hk.2.1
      simp only [List.length_cons, List.length_nil] at hle ⊢
      omega
    rw [heq]
    refine ⟨_, poke_eq_some hfit, (poke_length hp).trans hk.1, (poke_length (poke_eq_some hfit)).trans hk.2.1, n, Nat.le_refl n,
      fun j hj => ?_, .inr ?_, fun _ j hj hlt => ?_⟩
    · rw [poke_getElem? hp, poke_getElem? (poke_eq_some hfit), if_pos (by omega), if_pos hj]
      exact hk.agree j hj
    · rw [poke_getElem? hp, if_pos (by omega)]
      exact hnul
    · rw [poke_length (poke_eq_some hfit)] at hlt
      rw [poke_getElem? (poke_eq_some hfit), if_neg (by omega)]
      split
      · rename_i hone
        obtain rfl : j = n := by simp at hone; omega
        simp
      · exact hempty j hj hlt

theorem cString_length_lt {a : Bytes} {n : Nat} (hnul : a[n - 1]? = some 0) (hn : 0 < n) : (cString a).length < n := by
  have hmem : (0 : UInt8) ∈ a.take n :=
    List.mem_iff_getElem?.mpr ⟨n - 1, by rw [List.getElem?_take_of_lt (by omega), hnul]⟩
  rw [cString, takeWhile_take ⟨0, hmem, rfl⟩]
  have hle := (List.takeWhile_prefix (p := (· != (0 : UInt8))) (l := a.take n)).length_le
  have hlen : (a.take n).length ≤ n := List.length_take_le n a
  by_contra hge
  have hall : (a.take n).takeWhile (· != 0) = a.take n :=
    (List.takeWhile_prefix _).eq_of_length (by omega)
  have := List.takeWhile_eq_self_iff.mp hall 0 hmem
  simp at this

theorem responseWord_follows (he : empty) {start : Nat} {stop : UInt8} :
    Follows (fun s t => Unaware empty 5 s t ∧ (start < 5 ∨ start ≤ (cString s.self.response).length))
      (responseWord start stop : Prog (Live σ FTPClient) Bytes) (responseWord start stop) fun a b s t => a = b ∧ Unaware empty 5 s t := by
  intro s t ⟨h, hstart⟩ word s' hr
  obtain ⟨ha, hb, n, hn, hagree, hnul, hempty⟩ := h.response
  have hlast := hnul.resolve_left (by omega)
  have hlt : start < n := by
    have := cString_length_lt hlast (by omega)
    omega
  have hk : Known empty n s.self.response t.self.response := ⟨ha, hb, n, Nat.le_refl n, hagree, hnul, hempty⟩
  rw [responseWord, returns_obj_bind] at hr
  cases hp : poke s.self.response (wordEnd stop s.self.response ftplibResponseBufsiz start) [0] with
  | none =>
    rw [hp] at hr
    exact absurd hr Prog.returns_undefined
  | some response =>
    obtain ⟨response', hp', hw⟩ := word_known hk hlast (hempty he) hlt hp
    rw [hp] at hr
    dsimp only at hr
    rw [returns_set_bind] at hr
    obtain ⟨rfl, rfl⟩ := Prog.returns_pure.mp hr
    refine ⟨_, ⟨{ t.self with response := response' }, t.env⟩, ?_, hw.cString hlt, ?_⟩
    · rw [responseWord, returns_obj_bind, hp']
      exact returns_set_bind.mpr (Prog.returns_pure.mpr ⟨rfl, rfl⟩)
    · exact ⟨h.control.withResponse (hw.mono hn), h.m_fs_cb, h.nData, h.hist⟩

theorem getSystemType_blind (he : empty) : Blind (Unaware empty 5) (getSystemType p) :=
  .bind exchange_blind fun _ => .ite .undefined fun s t h => responseWord_follows he s t ⟨h, .inl (by decide)⟩

theorem getDirectory_blind (he : empty) : Blind (Unaware empty 5) (getDirectory p) := by
  refine .bind exchange_blind fun _ => .ite .undefined fun s t h word s' hr => ?_
  have htext : cString s.self.response = cString t.self.response := by
    have htext := h.response.cString (show 0 < 5 by decide)
    rwa [List.drop_zero, List.drop_zero] at htext
  rw [returns_obj_bind] at hr
  dsimp only at hr
  by_cases hquote : 34 ∉ cString s.self.response
  · rw [if_pos hquote] at hr
    exact absurd hr Prog.returns_undefined
  · rw [if_neg hquote] at hr
    have hin : ((cString s.self.response).takeWhile (· != 34)).length.succ ≤ (cString s.self.response).length := by
      obtain ⟨pre, post, htext, hpre⟩ := List.eq_append_cons_of_mem (not_not.mp hquote)
      have hfront : (cString s.self.response).takeWhile (· != 34) = pre := by
        rw [htext, List.takeWhile_append_of_pos fun b hb => bne_iff_ne.mpr fun (hbq : b = 34) => hpre (hbq ▸ hb)]
        simp
      rw [hfront, htext]
      simp
    obtain ⟨word', t', ht', hw⟩ := responseWord_follows he s t ⟨h, .inr hin⟩ word s' hr
    refine ⟨word', t', ?_, hw⟩
    rw [returns_obj_bind, ← htext]
    dsimp only
    rw [if_neg hquote]
    exact ht'

/-! ## Transfers -/

theorem openDataConn_blind {dir : FTPDir} : Blind (Unaware empty 5) (openDataConn p dir) := by
  have connect (ip port : Nat) : Blind (Unaware empty 5) (do
      let rc ← data (TCPClient.connectV4 p.lwip ip port 5000)
      record (.dataConn rc)
      set fun c => { c with nData := { c.nData with dir := dir } }
      return 1 : Prog (Live σ FTPClient) Int) :=
    .bind data_blind fun _ => .bind record_blind fun _ => .bind (setData_blind fun d => { d with dir := dir }) fun _ => .pure
  refine .gets_bind (fun s t h => ?_) fun c => .ite .pure (.bind exchange_blind fun _ => .ite .pure ?_)
  · have hdir : s.self.dir = t.self.dir := h.control.dir
    rw [hdir]
  · refine .gets_bind (fun s t h => ?_) fun c => .ite .pure ?_
    · have htext := h.response.cString (show 0 < 5 by decide)
      rw [List.drop_zero, List.drop_zero] at htext
      rw [htext]
    · split
      · exact .undefined
      · exact connect _ _

theorem setResponse_blind {text : Bytes} : Blind (Unaware empty 5) (setResponse text : Prog (Live σ FTPClient) Unit) := by
  intro s t h u s' hr
  rw [setResponse, returns_obj_bind] at hr
  cases hp : poke s.self.response 0 (text ++ [0]) with
  | none =>
    rw [hp] at hr
    exact absurd hr Prog.returns_undefined
  | some response =>
    obtain ⟨response', hp', hw, _⟩ := h.response.poke (.inl rfl) hp
    rw [hp] at hr
    obtain rfl := returns_set.mp hr
    refine ⟨(), ⟨{ t.self with response := response' }, t.env⟩, ?_, rfl, ?_⟩
    · rw [setResponse, returns_obj_bind, hp']
      exact returns_set.mpr rfl
    · exact ⟨h.control.withResponse hw, h.m_fs_cb, h.nData, h.hist⟩

theorem openTransfer_blind {path : Option Bytes} {typ : FTPType} {mode : FTPTransferMode} :
    Blind (Unaware empty 5) (openTransfer p path typ mode) := by
  refine .bind (setData_blind fun _ => {}) fun _ => .ite (.bind setResponse_blind fun _ => .pure) (.bind exchange_blind fun _ => .ite .pure ?_)
  refine .bind openDataConn_blind fun _ => .ite .pure (.bind (ctrl_blind FTPClientBase.printf_blind) fun _ => ?_)
  refine .bind exchange_blind fun ok => .gets_bind (fun s t h => ?_) fun c => .bind record_blind fun _ => .ite data_blind .pure
  rw [h.nData]

theorem upload_blind : Blind (Unaware empty 5) (upload p fs) := by
  refine .loop (fun _ => .bind call_blind fun l => .bind record_blind fun _ => .ite .pure (.ite .undefined ?_)) ()
  exact .bind data_blind fun _ => .bind record_blind fun _ => .ite .pure .pure

theorem download_blind : Blind (Unaware empty 5) (download p fs) := by
  refine .loop (fun _ => .bind data_blind fun x => .bind record_blind fun _ => .ite (.bind call_blind fun n => ?_) .pure) ()
  exact .bind record_blind fun _ => .ite .pure .pure

theorem closeTransfer_blind : Blind (Unaware empty 5) (closeTransfer p fs) := by
  refine .bind tell_blind fun _ => .gets_bind (fun s t h => ?_) fun c => .ite ?_ data_blind
  · rw [h.nData]
  · exact .bind data_blind fun _ => .bind (ctrl_blind FTPClientBase.readResp_blind) fun _ => .bind record_blind fun _ => data_blind

theorem transfer_blind {path : Option Bytes} {typ : FTPType} {mode : FTPTransferMode} :
    Blind (Unaware empty 5) (transfer p fs path typ mode) := by
  refine .bind openTransfer_blind fun _ => .bind call_blind fun _ => .gets_bind (fun s t h => ?_) fun c => .ite .undefined ?_
  · rw [h.m_fs_cb]
  · exact .ite (.bind upload_blind fun _ => .bind closeTransfer_blind fun _ => .pure)
      (.bind download_blind fun _ => .bind closeTransfer_blind fun _ => .pure)

theorem xfer_blind {localfile path : Option Bytes} {typ : FTPType} {mode : FTPTransferMode} :
    Blind (Unaware empty 5) (xfer p fs localfile path typ mode) := by
  cases localfile with
  | none => exact transfer_blind
  | some file =>
    refine .gets_bind (fun s t h => ?_) fun c => .ite .pure (.bind tell_blind fun _ => transfer_blind)
    rw [h.m_fs_cb]

/-! ## Connecting -/

/-- What `connectHost` makes of its argument. -/
def hostPart (host : Bytes) : Bytes := host.takeWhile (· != 58)

def portPart (host : Bytes) : Bytes := if 58 ∈ host then host.drop ((hostPart host).length + 1) else bytes "21"

/-- The connection of `connectHost`. -/
def dial (p : Platform σ) (host : Bytes) : Prog (Live σ FTPClient) Int :=
  ctrl (FTPClientBase.tcp (TCPClient.connect p.lwip (hostPart host) (sizeT (strtol 10 (portPart host)) % 2 ^ 16) 5000))

/-- What a new control connection starts with. -/
def connectedAnew (c : FTPClient) : FTPClient := { c with dir := .control, nData := {} }

/-- The host is connected to, and what comes first from there is a line of at
least three bytes and a line feed. -/
def Greets (p : Platform σ) (host : Bytes) (s : Live σ FTPClient) : Prop :=
  isDigit 10 ((portPart host).headD 0) ∧ ∃ rc t r u, rc ≠ -1 ∧ 4 ≤ r ∧
    (dial p host).Returns s rc t ∧
    (FTPClientBase.readLineResponse p).Returns (control ⟨connectedAnew t.self, t.env⟩) r u

theorem Unaware.connectedAnew {w : Nat} {s t : Live σ FTPClient} (h : Unaware empty w s t) :
    Unaware empty w ⟨connectedAnew s.self, s.env⟩ ⟨FTPClient.connectedAnew t.self, t.env⟩ := by
  have hc := h.control
  refine ⟨⟨hc.env, hc.tcp, rfl, ⟨hc.sized.buf, hc.sized.cput⟩, ⟨hc.sized'.buf, hc.sized'.cput⟩, ?_, hc.response⟩,
    h.m_fs_cb, rfl, h.hist⟩
  exact hc.unread.imp id fun h => ⟨h.cget, h.cavail, h.cleft, h.buf⟩

theorem connectHost_blind {host : Bytes} : Blind (Unaware empty 5) (connectHost p host) := by
  refine .ite .pure (.bind (ctrl_blind FTPClientBase.tcp_blind) fun rc => .ite .pure ?_)
  refine .bind (.modify fun s t h => h.connectedAnew) fun _ => .bind (ctrl_blind FTPClientBase.readResp_blind) fun ok => ?_
  exact .ite (.bind (ctrl_blind FTPClientBase.tcp_blind) fun _ => .pure) .pure

theorem dial_blind {w : Nat} {host : Bytes} : Blind (Unaware empty w) (dial p host) := ctrl_blind FTPClientBase.tcp_blind

theorem connectHost_eq (host : Bytes) : connectHost p host =
    if ¬ isDigit 10 ((portPart host).headD 0) then pure false
    else do
      if (← dial p host) = -1 then
        return false
      set connectedAnew
      if (← ctrl (FTPClientBase.readResp p 50)) = 0 then
        ctrl (FTPClientBase.tcp (TCPClient.stop p.lwip))
        return false
      return true := rfl

/-- A greeting makes what the client knows that of the new connection. -/
theorem connectHost_follows {host : Bytes} {s t s' : Live σ FTPClient} {ok : Bool} (h : Unaware empty 0 s t)
    (hg : Greets p host s ∨ Greets p host t) (hr : (connectHost p host).Returns s ok s') :
    ∃ t', (connectHost p host).Returns t ok t' ∧ Unaware empty 5 s' t' := by
  have hdigit : isDigit 10 ((portPart host).headD 0) := hg.elim (·.1) (·.1)
  rw [connectHost_eq, if_neg (not_not.mpr hdigit)] at hr ⊢
  obtain ⟨rc, u, hdial, hr⟩ := Prog.returns_bind.mp hr
  obtain ⟨_, u', hdial', rfl, hu⟩ := dial_blind s t h rc u hdial
  have hgreeting : rc ≠ -1 ∧ ∃ r v, 4 ≤ r ∧
      ((FTPClientBase.readLineResponse p).Returns (control ⟨connectedAnew u.self, u.env⟩) r v ∨
        (FTPClientBase.readLineResponse p).Returns (control ⟨connectedAnew u'.self, u'.env⟩) r v) := by
    rcases hg with ⟨_, rc₀, t₀, r, v, hrc, hle, hd, hline⟩ | ⟨_, rc₀, t₀, r, v, hrc, hle, hd, hline⟩
    · obtain ⟨rfl, rfl⟩ := hdial.det hd
      exact ⟨hrc, r, v, hle, .inl hline⟩
    · obtain ⟨rfl, rfl⟩ := hdial'.det hd
      exact ⟨hrc, r, v, hle, .inr hline⟩
  rw [if_neg hgreeting.1, returns_set_bind] at hr
  obtain ⟨v, w, hresp, hr⟩ := Prog.returns_bind.mp hr
  obtain ⟨x, hx, rfl⟩ := Prog.returns_zoom.mp hresp
  have hanew := hu.connectedAnew
  obtain ⟨x', hx', hA⟩ := FTPClientBase.readResp_first hanew.control hgreeting.2 hx
  have hw : Unaware empty 5 ⟨{ connectedAnew u.self with toFTPClientBase := x.self }, x.env⟩
      ⟨{ connectedAnew u'.self with toFTPClientBase := x'.self }, x'.env⟩ := ⟨hA, hanew.m_fs_cb, hanew.nData, hanew.hist⟩
  have last : Blind (Unaware empty 5) (if v = 0 then do
      ctrl (FTPClientBase.tcp (TCPClient.stop p.lwip))
      return false
    else return true) :=
    .ite (.bind (ctrl_blind FTPClientBase.tcp_blind) fun _ => .pure) .pure
  obtain ⟨_, t', ht', rfl, hA'⟩ := last _ _ hw ok s' hr
  refine ⟨t', ?_, hA'⟩
  rw [Prog.returns_bind_of hdial', if_neg hgreeting.1, returns_set_bind]
  exact Prog.returns_bind.mpr ⟨v, _, Prog.returns_zoom.mpr ⟨x', hx', rfl⟩, ht'⟩

end FTPClient

/-! ## Sessions -/

/-- What a command returns. -/
inductive FTPResult where
  | number (v : Int)
  | text (s : Bytes)
  deriving DecidableEq, Repr

inductive FTPCommand where
  | op (op : FTPOp)
  | getSystemType
  | getDirectory

section Sessions

variable {σ : Type} (p : Platform σ) (fs : FTPClientDataCallback σ)

def FTPOp.result : FTPOp → Prog (Live σ FTPClient) FTPResult
  | login user password => do return .number (← FTPClient.login p user password)
  | cd a => do return .number (← FTPClient.cd p a)
  | cdup => do return .number (← FTPClient.cdup p)
  | mkdir a => do return .number (← FTPClient.mkdir p a)
  | rmdir a => do return .number (← FTPClient.rmdir p a)
  | rename a b => do return .number (← FTPClient.rename p a b)
  | unlink a => do return .number (← FTPClient.unlink p a)
  | size a mode => do return .number (← FTPClient.size p a mode)
  | modDate a => do return .text (← FTPClient.modDate p a)
  | site a => do return .number (← FTPClient.site p a)
  | get f a mode => do return .number (← FTPClient.get p fs f a mode)
  | put f a mode => do return .number (← FTPClient.put p fs f a mode)
  | getList f a => do return .number (← FTPClient.getList p fs f a)
  | getFullList f a => do return .number (← FTPClient.getFullList p fs f a)

def FTPCommand.result : FTPCommand → Prog (Live σ FTPClient) FTPResult
  | op o => o.result p fs
  | getSystemType => do return .text (← FTPClient.getSystemType p)
  | getDirectory => do return .text (← FTPClient.getDirectory p)

/-- Commands, one after the other. -/
def FTPCommand.results : List FTPCommand → Prog (Live σ FTPClient) (List FTPResult)
  | [] => return []
  | c :: cs => do
    let r ← c.result p fs
    let rs ← results cs
    return r :: rs

/-- `connectHost`, and what follows. -/
def session (host : Bytes) (cs : List FTPCommand) : Prog (Live σ FTPClient) (Bool × List FTPResult) := do
  let ok ← FTPClient.connectHost p host
  let rs ← FTPCommand.results p fs cs
  return (ok, rs)

/-- A client at any time of its life. The socket may be used directly. -/
inductive FTPHistory : Live σ FTPClient → Prop
  | construct (e : σ) : FTPHistory ⟨{}, e⟩
  | setFSCallback {s} (cb : Bool) (before : FTPHistory s) : FTPHistory ⟨{ s.self with m_fs_cb := cb }, s.env⟩
  | connectHost {s host ok s'} (before : FTPHistory s) (h : (FTPClient.connectHost p host).Returns s ok s') : FTPHistory s'
  | command {s c r s'} (before : FTPHistory s) (h : (FTPCommand.result p fs c).Returns s r s') : FTPHistory s'
  | socket {s s'} {α : Type} {x : Prog (Live σ TCPClient) α} {a : α} (before : FTPHistory s)
      (h : (FTPClient.ctrl (FTPClientBase.tcp x)).Returns s a s') : FTPHistory s'

/-- The client as if it had received nothing so far. -/
def FTPClient.unheard (c : FTPClient) : FTPClient :=
  { c with
    cput := 0
    cget := 0
    cavail := 0
    cleft := 0
    buf := List.replicate 512 0
    response := List.replicate 512 0 }

/-- A session returns, and does outside, what it would if the client had
received nothing before. The words of `getSystemType` and `getDirectory` may be
looked for beyond the end of memory. -/
structure Isolated (host : Bytes) (cs : List FTPCommand) (s : Live σ FTPClient) : Prop where
  same : ∀ r s', (session p fs host cs).Returns s r s' →
    ∃ t', (session p fs host cs).Returns ⟨s.self.unheard, s.env⟩ r t' ∧ s'.env = t'.env
  returns : FTPCommand.getSystemType ∉ cs → FTPCommand.getDirectory ∉ cs → ∀ r t',
    (session p fs host cs).Returns ⟨s.self.unheard, s.env⟩ r t' → ∃ s', (session p fs host cs).Returns s r s' ∧ t'.env = s'.env

end Sessions

section Isolation

variable {σ : Type} {p : Platform σ} {fs : FTPClientDataCallback σ} {empty : Prop}

open FTPClient (Unaware Greets)

theorem FTPOp.result_blind {o : FTPOp} : Blind (Unaware empty 5) (o.result p fs) := by
  cases o with
  | login user password => exact .bind FTPClient.login_blind fun _ => .pure
  | rename a b => exact .bind FTPClient.rename_blind fun _ => .pure
  | size a mode => exact .bind FTPClient.size_blind fun _ => .pure
  | modDate a => exact .bind FTPClient.modDate_blind fun _ => .pure
  | get | put | getList | getFullList => exact .bind FTPClient.xfer_blind fun _ => .pure
  | cd | cdup | mkdir | rmdir | unlink | site => exact .bind FTPClient.exchange_blind fun _ => .pure

theorem FTPCommand.result_blind {c : FTPCommand} (hc : empty ∨ (c ≠ .getSystemType ∧ c ≠ .getDirectory)) :
    Blind (Unaware empty 5) (c.result p fs) := by
  cases c with
  | op o => exact FTPOp.result_blind
  | getSystemType => exact .bind (FTPClient.getSystemType_blind (hc.resolve_right fun h => h.1 rfl)) fun _ => .pure
  | getDirectory => exact .bind (FTPClient.getDirectory_blind (hc.resolve_right fun h => h.2 rfl)) fun _ => .pure

theorem FTPCommand.results_blind {cs : List FTPCommand} (hc : empty ∨ (FTPCommand.getSystemType ∉ cs ∧ FTPCommand.getDirectory ∉ cs)) :
    Blind (Unaware empty 5) (FTPCommand.results p fs cs) := by
  induction cs with
  | nil => exact .pure
  | cons c cs ih =>
    have hhead : empty ∨ (c ≠ .getSystemType ∧ c ≠ .getDirectory) := by
      refine hc.imp id fun h => ?_
      simp only [List.mem_cons, not_or] at h
      exact ⟨fun heq => h.1.1 heq.symm, fun heq => h.2.1 heq.symm⟩
    have htail : empty ∨ (FTPCommand.getSystemType ∉ cs ∧ FTPCommand.getDirectory ∉ cs) := by
      refine hc.imp id fun h => ?_
      simp only [List.mem_cons, not_or] at h
      exact ⟨h.1.2, h.2.2⟩
    exact .bind (FTPCommand.result_blind hhead) fun r => .bind (ih htail) fun rs => .pure

theorem session_follows {host : Bytes} {cs : List FTPCommand} {s t : Live σ FTPClient} (h : Unaware empty 0 s t)
    (hg : Greets p host s ∨ Greets p host t) (hc : empty ∨ (FTPCommand.getSystemType ∉ cs ∧ FTPCommand.getDirectory ∉ cs))
    {r : Bool × List FTPResult} {s' : Live σ FTPClient} (hr : (session p fs host cs).Returns s r s') :
    ∃ t', (session p fs host cs).Returns t r t' ∧ s'.env = t'.env := by
  obtain ⟨ok, u, hconn, hr⟩ := Prog.returns_bind.mp hr
  obtain ⟨u', hconn', hu⟩ := FTPClient.connectHost_follows h hg hconn
  have last : Blind (Unaware empty 5) (do
      let rs ← FTPCommand.results p fs cs
      return (ok, rs) : Prog (Live σ FTPClient) (Bool × List FTPResult)) :=
    .bind (FTPCommand.results_blind hc) fun _ => .pure
  obtain ⟨_, t', ht', rfl, hA⟩ := last u u' hu r s' hr
  exact ⟨t', Prog.returns_bind.mpr ⟨ok, u', hconn', ht'⟩, hA.env⟩

/-- At any time the buffers have their sizes, and the cursors delimit what is unread. -/
theorem FTPHistory.sized {s : Live σ FTPClient} (h : FTPHistory p fs s) : Unaware True 5 s s := by
  induction h with
  | construct e =>
    have hlen : (List.replicate 512 (0 : UInt8)).length = 512 := List.length_replicate
    have hlast : (List.replicate 512 (0 : UInt8))[512 - 1]? = some 0 := List.getElem?_replicate_of_lt (by decide)
    refine ⟨⟨rfl, rfl, rfl, ⟨hlen, rfl⟩, ⟨hlen, rfl⟩, .inl ⟨rfl, rfl⟩, hlen, hlen, 512, by decide, fun _ _ => rfl, .inr hlast, ?_⟩,
      rfl, rfl, rfl⟩
    intro _ i hi hlt
    exact absurd (show i < 512 from hlen ▸ hlt) (Nat.not_lt.mpr hi)
  | setFSCallback cb before ih => exact ih.same rfl rfl rfl rfl rfl rfl
  | connectHost before h ih => exact FTPClient.connectHost_blind.keeps h ih
  | command before h ih => exact (FTPCommand.result_blind (.inl trivial)).keeps h ih
  | socket before h ih => exact (FTPClient.ctrl_blind FTPClientBase.tcp_blind).keeps h ih

/-- **A new control connection is heard alone** if nothing of an earlier one is
unread, and it begins with a line that covers a reply code. -/
theorem isolated_of_read {s : Live σ FTPClient} (h : FTPHistory p fs s) (hread : s.self.cavail = 0) {host : Bytes}
    (hg : Greets p host ⟨s.self.unheard, s.env⟩) (cs : List FTPCommand) : Isolated p fs host cs s := by
  have hs := h.sized
  have hbuf : s.self.buf.length = ftplibBufsiz := hs.control.sized.buf
  have hresp : s.self.response.length = ftplibResponseBufsiz := hs.response.1
  have hlen : (List.replicate 512 (0 : UInt8)).length = 512 := List.length_replicate
  have forth : Unaware True 0 s ⟨s.self.unheard, s.env⟩ := by
    refine ⟨⟨rfl, rfl, rfl, hs.control.sized, ⟨hlen, rfl⟩, .inl ⟨hread, rfl⟩, hresp, hlen, 0, Nat.le_refl 0, ?_, .inl rfl, ?_⟩,
      rfl, rfl, rfl⟩
    · exact fun i hi => absurd hi (Nat.not_lt_zero i)
    · intro _ i _ hlt
      exact List.getElem?_replicate_of_lt (show i < 512 from hlen ▸ hlt)
  have back : Unaware False 0 ⟨s.self.unheard, s.env⟩ s := by
    refine ⟨⟨rfl, rfl, rfl, ⟨hlen, rfl⟩, hs.control.sized, .inl ⟨rfl, hread⟩, hlen, hresp, 0, Nat.le_refl 0, ?_, .inl rfl, ?_⟩,
      rfl, rfl, rfl⟩
    · exact fun i hi => absurd hi (Nat.not_lt_zero i)
    · exact fun hf => hf.elim
  exact ⟨fun r s' => session_follows forth (.inr hg) (.inl trivial),
    fun hsys hdir r t' => session_follows back (.inl hg) (.inr ⟨hsys, hdir⟩)⟩

end Isolation

/-! ## Two servers -/

namespace ReconnectDemo

/-- What is to be received, and the greetings of the servers to come. -/
structure Peers where
  unread : Bytes := []
  greetings : List Bytes
  deriving DecidableEq, Repr

/-- Every call succeeds, and a server closes after its greeting. -/
def lwip : Lwip Peers where
  inetAddr _ := 1
  getaddrinfo _ e := (none, e)
  socket e := (3, e)
  setsockopt _ _ e := (0, e)
  connect _ _ e := (0, { unread := e.greetings.headD [], greetings := e.greetings.tail })
  shutdown _ e := e
  close _ e := { e with unread := [] }
  ioctl _ e := (some e.unread.length, e)
  select _ e := (1, e)
  recv _ n e :=
    match e.unread, n with
    | b :: bs, n + 1 => (.data b (bs.take n), { e with unread := bs.drop n })
    | _, _ => (.eof, e)
  write _ bs e := (bs.length, e)
  fcntlNonblock _ e := e

def platform : Platform Peers where
  lwip := lwip
  tls := .steady 0
  malloc _ e := (true, e)
  millis e := (0, e)
  delay _ e := e

def files : FTPClientDataCallback Peers where
  openFile _ _ e := e
  read _ e := (some [], e)
  write bs e := (bs.length, e)
  close e := e

/-- A new client, one server that says `220` twice, and one that refuses. -/
def fresh : Live Peers FTPClient := ⟨{}, { greetings := [bytes "220 a\r\n220 b\r\n", bytes "500 no\r\n"] }⟩

/-- After the first server. -/
def connected : Live Peers FTPClient := ((FTPClient.connectHost platform [97]).run 5 fresh).2

/-- As if it had not heard that one; and what it makes of the second server. -/
def unheard : Live Peers FTPClient := ⟨connected.self.unheard, connected.env⟩

def accepted : Live Peers FTPClient := ((session platform files [98] []).run 5 connected).2

/-- A new client, and two servers that say what they have to. -/
def newClient : Live Peers FTPClient := ⟨{}, { greetings := [bytes "220 a\r\n", bytes "220 bb\r\n250 ok\r\n"] }⟩

/-- After the first server, whose greeting was read. -/
def greeted : Live Peers FTPClient := ((FTPClient.connectHost platform [97]).run 5 newClient).2

/-- As if it had heard nothing, with the second server dialed. -/
def dialed : Live Peers FTPClient := ((FTPClient.dial platform [98]).run 1 ⟨greeted.self.unheard, greeted.env⟩).2

/-- The first greeting is still in the buffer and in `response`, and the second
server is heard alone. -/
theorem greeted_isolated :
    ((FTPClient.connectHost platform [97]).Returns newClient true greeted ∧ greeted.self.cavail = 0 ∧
      greeted.self.buf.take 7 = bytes "220 a\r\n" ∧ cString greeted.self.response = bytes "220 a\n") ∧
      Isolated platform files [98] [.op .cdup] greeted := by
  have hruns : ((FTPClient.connectHost platform [97]).run 5 newClient).1 = .done true ∧ greeted.self.cavail = 0 ∧
      greeted.self.buf.take 7 = bytes "220 a\r\n" ∧ cString greeted.self.response = bytes "220 a\n" := by decide +kernel
  obtain ⟨hconn, hread, hbuf, hresponse⟩ := hruns
  have hconn : (FTPClient.connectHost platform [97]).Returns newClient true greeted := .of_run 5 hconn
  have hdial : (FTPClient.dial platform [98]).Returns ⟨greeted.self.unheard, greeted.env⟩ 3 dialed := .of_run 1 (by decide +kernel)
  have hline : (FTPClientBase.readLineResponse platform).Returns
      (FTPClient.control ⟨FTPClient.connectedAnew dialed.self, dialed.env⟩) 7 _ := .of_run 5 (by decide +kernel)
  refine ⟨⟨hconn, hread, hbuf, hresponse⟩, ?_⟩
  exact isolated_of_read (.connectHost (.construct _) hconn) hread
    ⟨by decide, 3, dialed, 7, _, by decide, by decide, hdial, hline⟩ _

end ReconnectDemo

open ReconnectDemo in
theorem leftover_heard : ¬ ∀ s, FTPHistory platform files s → ∀ host cs, Isolated platform files host cs s := by
  intro h
  have hconn : (FTPClient.connectHost platform [97]).Returns fresh true connected := .of_run 5 (by decide +kernel)
  have haccepted : (session platform files [98] []).Returns connected (true, []) accepted := .of_run 5 (by decide +kernel)
  have hresult : ((session platform files [98] []).run 5 unheard).1 = .done (false, []) := by decide +kernel
  have hrefused : (session platform files [98] []).Returns unheard (false, []) ((session platform files [98] []).run 5 unheard).2 :=
    .of_run 5 hresult
  obtain ⟨t, ht, _⟩ := (h connected (.connectHost (.construct _) hconn) [98] []).same _ _ haccepted
  exact absurd (ht.det hrefused).1 (by simp)

end FEmbed
