/-
`getDirectory` against the reply to `PWD`: a path in quotes, with each quote in
it doubled.

The scan knows nothing of doubled quotes; it takes a backslash together with
the byte behind it, which RFC 959 does not know. So a path with a quote ends
at it, a backslash at the end of a path takes the closing quote with it, and
one at the end of a reply takes the NUL. A failure makes a `std::string` of a null
pointer.
-/
import FEmbedLwip.FTPPasv

namespace FEmbed

open Live

variable {σ : Type} {p : Platform σ}

/-! ## What a scan passes over -/

/-- Bytes that a scan for `stop` passes over: a backslash counts with the byte behind it. -/
inductive Units (stop : UInt8) : Bytes → Prop
  | nil : Units stop []
  | byte {b w} : b ≠ stop → b ≠ 92 → Units stop w → Units stop (b :: w)
  | pair {w} (b) : Units stop w → Units stop (92 :: b :: w)

/-- Where a scan may stop: at the end, or before `stop`. -/
def Closes (stop : UInt8) (after : Bytes) : Prop := ∀ b ∈ after.head?, b = stop

/-- A text is passed over up to its end or `stop`, or ends in a backslash. -/
theorem units_cases (stop : UInt8) : ∀ t : Bytes,
    (∃ w after, Units stop w ∧ t = w ++ after ∧ Closes stop after) ∨ ∃ w, Units stop w ∧ t = w ++ [92]
  | [] => .inl ⟨[], [], .nil, rfl, nofun⟩
  | b :: t => by
    by_cases hstop : b = stop
    · exact .inl ⟨[], b :: t, .nil, rfl, fun _ h => Option.some.inj h ▸ hstop⟩
    by_cases hslash : b = 92
    · subst hslash
      match t with
      | [] => exact .inr ⟨[], .nil, rfl⟩
      | c :: t =>
        rcases units_cases stop t with ⟨w, after, hw, rfl, hafter⟩ | ⟨w, hw, rfl⟩
        · exact .inl ⟨92 :: c :: w, after, .pair c hw, rfl, hafter⟩
        · exact .inr ⟨92 :: c :: w, .pair c hw, rfl⟩
    · rcases units_cases stop t with ⟨w, after, hw, rfl, hafter⟩ | ⟨w, hw, rfl⟩
      · exact .inl ⟨b :: w, after, .byte hstop hslash hw, rfl, hafter⟩
      · exact .inr ⟨b :: w, .byte hstop hslash hw, rfl⟩

/-- What is passed over is determined. -/
theorem Units.unique {stop : UInt8} (hstop : stop ≠ 92) {w w' after after' : Bytes} (hw : Units stop w) (hw' : Units stop w')
    (hafter : Closes stop after) (hafter' : Closes stop after') (h : w ++ after = w' ++ after') : w = w' := by
  induction hw generalizing w' with
  | nil =>
    cases hw' with
    | nil => rfl
    | byte hne _ _ => exact absurd (hafter _ (by rw [← List.nil_append after, h]; rfl)) hne
    | pair b _ => exact absurd (hafter 92 (by rw [← List.nil_append after, h]; rfl)) hstop.symm
  | byte hne hslash _ ih =>
    cases hw' with
    | nil => exact absurd (hafter' _ (by rw [← List.nil_append after', ← h]; rfl)) hne
    | byte _ _ hw' =>
      obtain ⟨rfl, hrest⟩ := List.cons.inj h
      rw [ih hw' hrest]
    | pair b _ => exact absurd (List.cons.inj h).1 hslash
  | pair b _ ih =>
    cases hw' with
    | nil => exact absurd (hafter' 92 (by rw [← List.nil_append after', ← h]; rfl)) hstop.symm
    | byte _ hslash _ => exact absurd (List.cons.inj h).1.symm hslash
    | pair b' hw' =>
      obtain ⟨rfl, hrest⟩ := List.cons.inj (List.cons.inj h).2
      rw [ih hw' hrest]

/-- A text that ends in a backslash has no end to stop at. -/
theorem Units.not_slash {stop : UInt8} (hstop : stop ≠ 92) {w w' after : Bytes} (hw : Units stop w) (hw' : Units stop w')
    (hafter : Closes stop after) : w ++ after ≠ w' ++ [92] := by
  induction hw generalizing w' with
  | nil =>
    intro h
    cases hw' with
    | nil => exact hstop (hafter 92 (by rw [← List.nil_append after, h]; rfl)).symm
    | byte hne _ _ => exact hne (hafter _ (by rw [← List.nil_append after, h]; rfl))
    | pair b _ => exact hstop (hafter 92 (by rw [← List.nil_append after, h]; rfl)).symm
  | byte hne hslash _ ih =>
    intro h
    cases hw' with
    | nil => exact hslash (List.cons.inj h).1
    | byte _ _ hw' => exact ih hw' (List.cons.inj h).2
    | pair b _ => exact hslash (List.cons.inj h).1
  | pair b _ ih =>
    intro h
    cases hw' with
    | nil => exact nomatch (List.cons.inj h).2
    | byte _ hslash _ => exact hslash (List.cons.inj h).1.symm
    | pair b' hw' => exact ih hw' (List.cons.inj (List.cons.inj h).2).2

namespace FTPClient

theorem getD_of_drop {a t : Bytes} {s : Nat} {b : UInt8} (h : a.drop s = b :: t) : a.getD s 0 = b ∧ a.drop (s + 1) = t := by
  constructor
  · have := congrArg List.head? h
    rw [List.head?_drop] at this
    rw [List.getD_eq_getElem?_getD, this]
    rfl
  · rw [← List.drop_drop, h]
    rfl

/-- One step of the scan. -/
theorem wordEnd_cons {stop b : UInt8} {a t : Bytes} {fuel s : Nat} (ha : a.drop s = b :: t) (hb : b ≠ 0) (hne : b ≠ stop)
    (hs : s < ftplibResponseBufsiz - 1) :
    wordEnd stop a (fuel + 1) s = wordEnd stop a fuel (if b = 92 then s + 2 else s + 1) := by
  obtain ⟨hget, _⟩ := getD_of_drop ha
  rw [wordEnd, hget, if_pos ⟨hs, hb, hne⟩]

/-- The scan stops behind what it passes over. -/
theorem wordEnd_units {stop x : UInt8} (hstop : stop ≠ 92) {a w rest : Bytes} {fuel s : Nat} (hw : Units stop w) (hnul : 0 ∉ w)
    (ha : a.drop s = w ++ x :: rest) (hx : x = 0 ∨ x = stop) (hroom : s + w.length < ftplibResponseBufsiz) (hfuel : w.length < fuel) :
    wordEnd stop a fuel s = s + w.length := by
  induction hw generalizing s fuel with
  | nil =>
    obtain ⟨fuel, rfl⟩ : ∃ k, fuel = k + 1 := ⟨fuel - 1, by simp at hfuel; omega⟩
    obtain ⟨hget, _⟩ := getD_of_drop ha
    rw [wordEnd, hget, if_neg (by tauto)]
    rfl
  | @byte b w hne hslash _ ih =>
    obtain ⟨fuel, rfl⟩ : ∃ k, fuel = k + 1 := ⟨fuel - 1, by simp at hfuel; omega⟩
    rw [List.mem_cons, not_or] at hnul
    rw [List.length_cons] at hroom hfuel ⊢
    have hs : s < ftplibResponseBufsiz - 1 := by omega
    rw [wordEnd_cons ha (fun h => hnul.1 h.symm) hne hs, if_neg hslash,
      ih hnul.2 (getD_of_drop ha).2 (by omega) (by omega)]
    omega
  | @pair w b _ ih =>
    obtain ⟨fuel, rfl⟩ : ∃ k, fuel = k + 1 := ⟨fuel - 1, by simp at hfuel; omega⟩
    rw [List.mem_cons, List.mem_cons, not_or, not_or] at hnul
    rw [List.length_cons, List.length_cons] at hroom hfuel ⊢
    have hs : s < ftplibResponseBufsiz - 1 := by omega
    have hdrop := (getD_of_drop (getD_of_drop ha).2).2
    rw [wordEnd_cons ha (by decide) hstop.symm hs, if_pos rfl, ih hnul.2.2 hdrop (by omega) (by omega)]
    omega

/-- A backslash before the NUL takes the scan past it. -/
theorem wordEnd_slash {stop : UInt8} (hstop : stop ≠ 92) {a w rest : Bytes} {fuel s : Nat} (hw : Units stop w) (hnul : 0 ∉ w)
    (ha : a.drop s = w ++ 92 :: rest) (hroom : s + w.length + 1 < ftplibResponseBufsiz) (hfuel : w.length < fuel) :
    s + w.length + 2 ≤ wordEnd stop a fuel s := by
  induction hw generalizing s fuel with
  | nil =>
    obtain ⟨fuel, rfl⟩ : ∃ k, fuel = k + 1 := ⟨fuel - 1, by simp at hfuel; omega⟩
    rw [List.length_nil] at hroom ⊢
    have hs : s < ftplibResponseBufsiz - 1 := by omega
    rw [wordEnd_cons ha (by decide) hstop.symm hs, if_pos rfl]
    exact le_wordEnd ..
  | @byte b w hne hslash _ ih =>
    obtain ⟨fuel, rfl⟩ : ∃ k, fuel = k + 1 := ⟨fuel - 1, by simp at hfuel; omega⟩
    rw [List.mem_cons, not_or] at hnul
    rw [List.length_cons] at hroom hfuel ⊢
    have hs : s < ftplibResponseBufsiz - 1 := by omega
    rw [wordEnd_cons ha (fun h => hnul.1 h.symm) hne hs, if_neg hslash]
    have := @ih fuel _ hnul.2 (getD_of_drop ha).2 (by omega) (by omega)
    omega
  | @pair w b _ ih =>
    obtain ⟨fuel, rfl⟩ : ∃ k, fuel = k + 1 := ⟨fuel - 1, by simp at hfuel; omega⟩
    rw [List.mem_cons, List.mem_cons, not_or, not_or] at hnul
    rw [List.length_cons, List.length_cons] at hroom hfuel ⊢
    have hs : s < ftplibResponseBufsiz - 1 := by omega
    have hdrop : a.drop (s + 2) = w ++ 92 :: rest := (getD_of_drop (getD_of_drop ha).2).2
    rw [wordEnd_cons ha (by decide) hstop.symm hs, if_pos rfl]
    have := @ih fuel _ hnul.2.2 hdrop (by omega) (by omega)
    omega

end FTPClient

/-! ## Paths in quotes -/

/-- A path as the server quotes it. -/
def quoted (path : Bytes) : Bytes := path.flatMap fun b => if b = 34 then [34, 34] else [b]

theorem quoted_append (a b : Bytes) : quoted (a ++ b) = quoted a ++ quoted b := List.flatMap_append

theorem quoted_of_not_mem {path : Bytes} (h : 34 ∉ path) : quoted path = path := by
  induction path with
  | nil => rfl
  | cons b path ih =>
    rw [List.mem_cons, not_or] at h
    rw [quoted, List.flatMap_cons, if_neg (fun hb => h.1 hb.symm)]
    exact congrArg (List.cons b) (ih h.2)

/-- The reply quotes a path. -/
structure Quotes (reply path : Bytes) : Prop where
  text : ∃ rest, reply = bytes "257 \"" ++ quoted path ++ 34 :: rest ∧ rest.head? ≠ some 34
  noLF : 10 ∉ path
  noCR : 13 ∉ path

/-- What is between the first two quotes is the path, when they are not doubled. -/
theorem Quotes.path_eq {reply path w rest : Bytes} (h : Quotes reply path) (heq : reply = bytes "257 \"" ++ w ++ 34 :: rest) (hw : 34 ∉ w)
    (hrest : rest.head? ≠ some 34) : path = w := by
  obtain ⟨⟨rest', heq', _⟩, _, _⟩ := h
  rw [heq, List.append_assoc, List.append_assoc] at heq'
  have hsame := List.append_cancel_left heq'
  by_cases hquote : 34 ∈ path
  · obtain ⟨a, b, rfl, ha⟩ := List.eq_append_cons_of_mem hquote
    rw [quoted_append, quoted_of_not_mem ha, List.append_assoc] at hsame
    rw [(cut_inj hw ha hsame).2] at hrest
    exact absurd rfl hrest
  · rw [quoted_of_not_mem hquote] at hsame
    exact (cut_inj hw hquote hsame).1.symm

/-- A path that the scan takes as it is: without quotes, apart from one at its
end behind a backslash. -/
def Plain (path : Bytes) : Prop := ∃ q, Units 34 q ∧ 34 ∉ q ∧ (path = q ∨ path = q ++ [92, 34])

theorem Units.append {stop : UInt8} {w w' : Bytes} (hw : Units stop w) (hw' : Units stop w') : Units stop (w ++ w') := by
  induction hw with
  | nil => exact hw'
  | byte hne hslash _ ih => exact .byte hne hslash ih
  | pair b _ ih => exact .pair b ih

/-- `stop` is behind a backslash where the scan passes over it. -/
theorem Units.split {stop : UInt8} (hstop : stop ≠ 92) {w a b : Bytes} (hw : Units stop w) (h : w = a ++ stop :: b) (ha : stop ∉ a) :
    ∃ q, a = q ++ [92] ∧ Units stop q ∧ Units stop b := by
  induction hw generalizing a with
  | nil => exact absurd h.symm (by simp)
  | byte hne hslash _ ih =>
    cases a with
    | nil => exact absurd (List.cons.inj h).1 hne
    | cons c a =>
      obtain ⟨rfl, hrest⟩ := List.cons.inj h
      obtain ⟨q, rfl, hq, hb⟩ := ih hrest (fun hmem => ha (List.mem_cons_of_mem _ hmem))
      exact ⟨_ :: q, rfl, .byte hne hslash hq, hb⟩
  | pair c hw ih =>
    cases a with
    | nil => exact absurd (List.cons.inj h).1.symm hstop
    | cons d a =>
      obtain ⟨rfl, hsecond⟩ := List.cons.inj h
      cases a with
      | nil =>
        obtain ⟨_, rfl⟩ := List.cons.inj hsecond
        exact ⟨[], rfl, .nil, hw⟩
      | cons e a =>
        obtain ⟨rfl, hrest⟩ := List.cons.inj hsecond
        obtain ⟨q, rfl, hq, hb⟩ := ih hrest (fun hmem => ha (List.mem_cons_of_mem _ (List.mem_cons_of_mem _ hmem)))
        exact ⟨92 :: _ :: q, rfl, .pair _ hq, hb⟩

/-- What the scan passes over is the path when that is plain. -/
theorem plain_iff {path rest w after : Bytes} (h : quoted path ++ 34 :: rest = w ++ after) (hw : Units 34 w) (hafter : Closes 34 after) :
    w = path ↔ Plain path := by
  have hclosed (rest : Bytes) : Closes 34 (34 :: rest) := fun _ h => (Option.some.inj h).symm
  constructor
  · rintro rfl
    by_cases hquote : 34 ∈ w
    · obtain ⟨a, b, rfl, ha⟩ := List.eq_append_cons_of_mem hquote
      obtain ⟨q, rfl, hq, hb⟩ := hw.split (by decide) rfl ha
      rw [quoted_append, quoted_of_not_mem ha, List.append_assoc, List.append_assoc (q ++ [92])] at h
      have htail : 34 :: (quoted b ++ 34 :: rest) = b ++ after := (List.cons.inj (List.append_cancel_left h)).2
      cases hb with
      | nil =>
        rw [List.mem_append, not_or] at ha
        exact ⟨q, hq, ha.1, .inr (List.append_assoc ..)⟩
      | byte hne _ _ => exact absurd (List.cons.inj htail).1.symm hne
      | pair c _ => exact absurd (List.cons.inj htail).1 (by decide)
    · exact ⟨w, hw, hquote, .inl rfl⟩
  · rintro ⟨q, hq, hquote, rfl | rfl⟩
    · rw [quoted_of_not_mem hquote] at h
      exact (hq.unique (by decide) hw (hclosed rest) hafter h).symm
    · have hpair : Units 34 (q ++ [92, 34]) := hq.append (.pair 34 .nil)
      rw [quoted_append, quoted_of_not_mem hquote] at h
      refine (hpair.unique (by decide) hw (hclosed (34 :: rest)) hafter ?_).symm
      rw [← h]
      simp [quoted]

/-! ## The reply has its NUL -/

namespace FTPClientBase

theorem endLine_nul {out out' : Bytes} {retval n : Nat} (h : endLine out retval = some (out', n)) (hnul : 0 ∈ out) :
    out'.length = out.length ∧ 0 ∈ out' := by
  rw [endLine] at h
  split at h
  · cases h
  · split at h
    · obtain ⟨o, ho, heq⟩ := Option.map_eq_some_iff.mp h
      obtain ⟨rfl, _⟩ := Prod.mk.inj heq
      refine ⟨poke_length ho, ?_⟩
      obtain ⟨_, rfl⟩ := poke_some ho
      simp
    · obtain ⟨rfl, _⟩ := Prod.mk.inj (Option.some.inj h)
      exact ⟨rfl, hnul⟩

theorem takeLine_nul {c c' : FTPClientBase} {l l' : LineState} {done : Bool} (h : takeLine c l = some (c', l', done)) :
    l'.out.length = l.out.length ∧ 0 ∈ l'.out := by
  rw [takeLine, Option.bind_eq_bind, Option.bind_eq_some_iff] at h
  obtain ⟨x, _, h⟩ := h
  generalize memccpy (c.buf.drop c.cget) 10 x = copy at h
  obtain ⟨bs, found⟩ := copy
  dsimp only at h
  rw [Option.bind_eq_bind, Option.bind_eq_some_iff] at h
  obtain ⟨out, hout, h⟩ := h
  have hnul : 0 ∈ out := by
    obtain ⟨_, rfl⟩ := poke_some hout
    simp
  cases found with
  | false =>
    obtain ⟨rfl, rfl, rfl⟩ := Option.some.inj h
    exact ⟨poke_length hout, hnul⟩
  | true =>
    rw [if_pos rfl, Option.bind_eq_bind, Option.bind_eq_some_iff] at h
    obtain ⟨e, he, h⟩ := h
    obtain ⟨rfl, rfl, rfl⟩ := Option.some.inj h
    obtain ⟨hlen, hnul'⟩ := endLine_nul he hnul
    exact ⟨hlen.trans (poke_length hout), hnul'⟩

/-- What a call that does not fail leaves in the caller's buffer has a NUL. -/
def TurnNul (n : Nat) : Turn LineState (Int × Bytes) → Prop
  | .next l => l.out.length = n ∧ (l.retval ≠ 0 → 0 ∈ l.out)
  | .exit (r, out) => out.length = n ∧ (r ≠ -1 → 0 ∈ out)

theorem refill_nul {n : Nat} {l : LineState} {s : Live σ FTPClientBase} {r s'} (hl : TurnNul n (.next l))
    (h : (refill p l).Returns s r s') : TurnNul n r := by
  rw [refill, returns_obj_bind] at h
  obtain ⟨⟨x, got⟩, t, _, h⟩ := Prog.returns_bind.mp h
  dsimp only at h
  rw [Prog.returns_ite] at h
  rcases h with ⟨_, h⟩ | ⟨_, h⟩
  · obtain ⟨rfl, _⟩ := Prog.returns_pure.mp h
    exact ⟨hl.1, fun h => absurd rfl h⟩
  · rw [returns_obj_bind] at h
    split at h
    · exact absurd h Prog.returns_undefined
    · rw [returns_set_bind] at h
      obtain ⟨rfl, _⟩ := Prog.returns_pure.mp h
      exact hl

theorem fill_nul {n : Nat} {l : LineState} {s : Live σ FTPClientBase} {r s'} (hl : TurnNul n (.next l))
    (h : (fill p l).Returns s r s') : TurnNul n r := by
  have rest {u : Live σ FTPClientBase} (h : (if l.eof then return .exit (if l.retval = 0 then -1 else l.retval, l.out) else refill p l :
      Prog (Live σ FTPClientBase) (Turn LineState (Int × Bytes))).Returns u r s') : TurnNul n r := by
    rw [Prog.returns_ite] at h
    rcases h with ⟨_, h⟩ | ⟨_, h⟩
    · obtain ⟨rfl, _⟩ := Prog.returns_pure.mp h
      refine ⟨hl.1, fun hr => hl.2 fun hz => hr ?_⟩
      rw [if_pos hz]
    · exact refill_nul hl h
  rw [fill, Prog.returns_ite] at h
  rcases h with ⟨_, h⟩ | ⟨_, h⟩
  · split at h
    · exact absurd h Prog.returns_undefined
    · rename_i out hout
      obtain ⟨rfl, _⟩ := Prog.returns_pure.mp h
      refine ⟨(poke_length hout).trans hl.1, fun _ => ?_⟩
      obtain ⟨_, rfl⟩ := poke_some hout
      simp
  · rw [returns_obj_bind, returns_obj_bind, Prog.returns_ite] at h
    rcases h with ⟨_, h⟩ | ⟨_, h⟩
    · rw [returns_set_bind] at h
      exact rest h
    · exact rest h

theorem readLine_nul {out : Bytes} {max : Nat} {s : Live σ FTPClientBase} {r s'} (hmax : 0 < max) (h : (readLine p out max).Returns s r s') :
    TurnNul out.length (.exit r) := by
  rw [readLine, returns_obj_bind, Prog.returns_ite] at h
  rcases h with ⟨_, h⟩ | ⟨_, h⟩
  · obtain ⟨rfl, _⟩ := Prog.returns_pure.mp h
    exact ⟨rfl, fun h => absurd rfl h⟩
  rw [if_neg (Nat.pos_iff_ne_zero.mp hmax)] at h
  refine Prog.Returns.loop_inv (fun l _ => TurnNul out.length (.next l)) (fun r _ => TurnNul out.length (.exit r)) ?_ h
    ⟨rfl, fun h => absurd rfl h⟩
  rintro l t x t' hl h
  have hturn : TurnNul out.length x := by
    rw [readLineTurn, returns_obj_bind, Prog.returns_ite] at h
    rcases h with ⟨_, h⟩ | ⟨_, h⟩
    · split at h
      · exact absurd h Prog.returns_undefined
      · rename_i c l' done htake
        obtain ⟨hlen', hnul'⟩ := takeLine_nul htake
        rw [returns_set_bind, Prog.returns_ite] at h
        rcases h with ⟨_, h⟩ | ⟨_, h⟩
        · obtain ⟨rfl, _⟩ := Prog.returns_pure.mp h
          exact ⟨hlen'.trans hl.1, fun _ => hnul'⟩
        · exact fill_nul ⟨hlen'.trans hl.1, fun _ => hnul'⟩ h
    · exact fill_nul hl h
  cases x with
  | next l' => exact hturn
  | exit r => exact hturn

theorem readLineResponse_nul {s : Live σ FTPClientBase} {n : Int} {s'} (h : (readLineResponse p).Returns s n s') :
    s'.self.response.length = s.self.response.length ∧ (n ≠ -1 → 0 ∈ s'.self.response) := by
  rw [readLineResponse, returns_obj_bind] at h
  obtain ⟨⟨n', out⟩, t, hread, h⟩ := Prog.returns_bind.mp h
  dsimp only at h
  rw [returns_set_bind] at h
  obtain ⟨rfl, rfl⟩ := Prog.returns_pure.mp h
  exact readLine_nul (by decide) hread

theorem readRest_nul {code : Bytes} {s : Live σ FTPClientBase} {b : Bool} {s'} (h : (readRest p code).Returns s b s') :
    s'.self.response.length = s.self.response.length ∧ (b = true → 0 ∈ s'.self.response) := by
  refine Prog.Returns.loop_inv (fun _ t => t.self.response.length = s.self.response.length)
    (fun b t => t.self.response.length = s.self.response.length ∧ (b = true → 0 ∈ t.self.response)) ?_ h rfl
  rintro _ t x t' hlen h
  obtain ⟨n, u, hread, h⟩ := Prog.returns_bind.mp h
  obtain ⟨hlen', hnul⟩ := readLineResponse_nul hread
  simp only [Prog.returns_ite, returns_obj_bind, Prog.returns_pure] at h
  rcases h with ⟨_, rfl, rfl⟩ | ⟨hn, ⟨_, rfl, rfl⟩ | ⟨_, rfl, rfl⟩⟩
  · exact ⟨hlen'.trans hlen, fun h => by cases h⟩
  · exact ⟨hlen'.trans hlen, fun _ => hnul hn⟩
  · exact hlen'.trans hlen

/-- A reply that is not a failure is a string in `response`. -/
theorem readResp_nul {c : UInt8} {s : Live σ FTPClientBase} {v : Int} {s'} (h : (readResp p c).Returns s v s') :
    s'.self.response.length = s.self.response.length ∧ (v ≠ 0 → 0 ∈ s'.self.response) := by
  obtain ⟨n, t, hread, h⟩ := Prog.returns_bind.mp h
  obtain ⟨hlen, hnul⟩ := readLineResponse_nul hread
  simp only [Prog.returns_ite, returns_obj_bind, Prog.returns_pure] at h
  rcases h with ⟨_, rfl, rfl⟩ | ⟨hn, ⟨_, h⟩ | ⟨_, _, rfl⟩⟩
  · exact ⟨hlen, fun h => absurd rfl h⟩
  · obtain ⟨b, u, hb, h⟩ := Prog.returns_bind.mp h
    obtain ⟨hlen', hnul'⟩ := readRest_nul hb
    simp only [Prog.returns_ite, returns_obj_bind, Prog.returns_pure] at h
    rcases h with ⟨_, rfl, rfl⟩ | ⟨hset, _, rfl⟩
    · exact ⟨hlen'.trans hlen, fun h => absurd rfl h⟩
    · exact ⟨hlen'.trans hlen, fun _ => hnul' (not_not.mp hset)⟩
  · exact ⟨hlen, fun _ => hnul hn⟩

end FTPClientBase

/-! ## The call -/

namespace FTPClient

theorem exchange_nul {line : Bytes} {c : UInt8} {s : Live σ FTPClient} {v : Int} {s'} (h : (exchange p line c).Returns s v s') :
    s'.self.response.length = s.self.response.length ∧ (v ≠ 0 → 0 ∈ s'.self.response) := by
  obtain ⟨_, t, hprint, hread⟩ := Prog.returns_bind.mp h
  obtain ⟨u, hu, rfl⟩ := Prog.returns_zoom.mp hprint
  obtain ⟨_, w, hw, hdone⟩ := Prog.returns_bind.mp hu
  obtain ⟨x, _, rfl⟩ := Prog.returns_zoom.mp hw
  obtain ⟨_, rfl⟩ := Prog.returns_pure.mp hdone
  obtain ⟨y, hy, rfl⟩ := Prog.returns_zoom.mp hread
  exact FTPClientBase.readResp_nul hy

/-- A call of `getDirectory` whose reply was read, in the state `s₁` then: it
returns a string, the scan stays in front of the NUL of the reply or at it, and a path that
the reply quotes is the string. -/
def Unquotes (p : Platform σ) (s s₁ : Live σ FTPClient) : Prop :=
  ∃ word t, (getDirectory p).Returns s word t ∧
    (34 ∈ replyText s₁ → wordEnd 34 s₁.self.response ftplibResponseBufsiz ((replyText s₁).takeWhile (· != 34)).length.succ ≤
      (replyText s₁).length) ∧
    ∀ path, Quotes (replyText s₁) path → word = path

/-- A reply that `getDirectory` reads right: it has a quote, what is behind it is closed by
another or does not end in a lone backslash, and a path that it quotes is plain. -/
structure Legible (reply : Bytes) : Prop where
  closed : ∃ before w after, reply = before ++ 34 :: (w ++ after) ∧ 34 ∉ before ∧ Units 34 w ∧ Closes 34 after
  plain : ∀ path, Quotes reply path → Plain path

/-- The response array, once a reply is read. -/
theorem response_eq {s : Live σ FTPClient} (hnul : 0 ∈ s.self.response) :
    ∃ rest, s.self.response = replyText s ++ 0 :: rest ∧ 0 ∉ replyText s := by
  obtain ⟨text, rest, heq, htext⟩ := List.eq_append_cons_of_mem hnul
  have hcut : replyText s = text := by
    rw [replyText, cString, heq, List.takeWhile_append_of_pos fun b hb => bne_iff_ne.mpr (ne_of_mem_of_not_mem hb htext)]
    simp
  rw [hcut]
  exact ⟨rest, heq, htext⟩

section Replied

variable {s s₁ : Live σ FTPClient} {c : Int} (hreply : (exchange p (bytes "PWD\r\n") 50).Returns s c s₁)

include hreply

theorem getDirectory_failed (hc : c = 0) {word t} : ¬ (getDirectory p).Returns s word t := by
  rw [getDirectory, Prog.returns_bind_of hreply, if_pos hc]
  exact Prog.returns_undefined

theorem getDirectory_unquoted (hc : c ≠ 0) (hquote : 34 ∉ replyText s₁) {word t} : ¬ (getDirectory p).Returns s word t := by
  rw [getDirectory, Prog.returns_bind_of hreply, if_neg hc, returns_obj_bind]
  dsimp only
  rw [if_pos (show 34 ∉ cString s₁.self.response from hquote)]
  exact Prog.returns_undefined

theorem getDirectory_quoted (hc : c ≠ 0) (hquote : 34 ∈ replyText s₁) {word t} : (getDirectory p).Returns s word t ↔
    (responseWord ((replyText s₁).takeWhile (· != 34)).length.succ 34 : Prog (Live σ FTPClient) Bytes).Returns s₁ word t := by
  rw [getDirectory, Prog.returns_bind_of hreply, if_neg hc, returns_obj_bind]
  dsimp only
  rw [if_neg (not_not.mpr (show 34 ∈ cString s₁.self.response from hquote))]
  rfl

/-- The text behind the first quote is closed: the call returns what is before that. -/
theorem getDirectory_closed (hsize : s.self.response.length = ftplibResponseBufsiz) (hc : c ≠ 0) {before w after : Bytes}
    (htext : replyText s₁ = before ++ 34 :: (w ++ after)) (hbefore : 34 ∉ before) (hw : Units 34 w) (hafter : Closes 34 after) :
    (∃ t, (getDirectory p).Returns s w t) ∧ wordEnd 34 s₁.self.response ftplibResponseBufsiz ((replyText s₁).takeWhile (· != 34)).length.succ ≤
      (replyText s₁).length := by
  obtain ⟨hlen, hnul⟩ := exchange_nul hreply
  obtain ⟨rest, hresp, hnul⟩ := response_eq (hnul hc)
  have hquote : 34 ∈ replyText s₁ := by simp [htext]
  have hword {t} := @getDirectory_quoted _ _ _ _ _ hreply hc hquote w t
  rw [htext, takeWhile_front hbefore] at hword ⊢
  rw [htext] at hresp hnul
  have hfront : s₁.self.response = (before ++ [34]) ++ w ++ (after ++ 0 :: rest) := by simp [hresp]
  have hroom := hlen.trans hsize
  rw [hfront] at hroom
  simp only [List.length_append, List.length_cons, List.length_nil] at hroom
  have hdrop : s₁.self.response.drop before.length.succ = w ++ (after ++ 0 :: rest) := by
    rw [hfront, List.append_assoc]
    exact List.drop_left' (by simp)
  obtain ⟨x, tail, htail, hx⟩ : ∃ x tail, after ++ 0 :: rest = x :: tail ∧ (x = 0 ∨ x = 34) := by
    cases after with
    | nil => exact ⟨0, rest, rfl, .inl rfl⟩
    | cons b after => exact ⟨b, after ++ 0 :: rest, rfl, .inr (hafter b rfl)⟩
  have hnul' : 0 ∉ w := fun h => hnul (by simp [h])
  have hend : wordEnd 34 s₁.self.response ftplibResponseBufsiz before.length.succ = before.length.succ + w.length :=
    wordEnd_units (by decide) hw hnul' (hdrop.trans (by rw [htail])) hx (by omega) (by omega)
  have hpoke : poke s₁.self.response (before.length.succ + w.length) [0] = some (before ++ [34] ++ w ++ 0 :: tail) := by
    have hcut : s₁.self.response = (before ++ [34] ++ w) ++ x :: tail := by rw [hfront, htail]
    have hfirst : (before ++ [34] ++ w).length = before.length.succ + w.length := by
      simp only [List.length_append, List.length_singleton]
    rw [poke_eq_some (by rw [hfront]; simp; omega), hcut, List.take_left' hfirst, ← List.drop_drop, List.drop_left' hfirst]
    simp
  refine ⟨⟨⟨{ s₁.self with response := before ++ [34] ++ w ++ 0 :: tail }, s₁.env⟩, hword.mpr ?_⟩, ?_⟩
  · rw [responseWord, returns_obj_bind, hend, hpoke]
    dsimp only
    rw [returns_set_bind]
    refine Prog.returns_pure.mpr ⟨?_, rfl⟩
    have hdrop' : (before ++ [34] ++ w ++ 0 :: tail).drop before.length.succ = w ++ 0 :: tail := by
      rw [List.append_assoc]
      exact List.drop_left' (by simp)
    rw [hdrop', cString, takeWhile_front hnul']
  · rw [hend]
    simp only [List.length_append, List.length_cons]
    omega

/-- The text behind the first quote ends in a lone backslash: the scan goes past the NUL. -/
theorem wordEnd_past (hsize : s.self.response.length = ftplibResponseBufsiz) (hc : c ≠ 0) {before w : Bytes}
    (htext : replyText s₁ = before ++ 34 :: (w ++ [92])) (hbefore : 34 ∉ before) (hw : Units 34 w) :
    (replyText s₁).length < wordEnd 34 s₁.self.response ftplibResponseBufsiz ((replyText s₁).takeWhile (· != 34)).length.succ := by
  obtain ⟨hlen, hnul⟩ := exchange_nul hreply
  obtain ⟨rest, hresp, hnul⟩ := response_eq (hnul hc)
  rw [htext] at hresp hnul
  have hroom := hlen.trans hsize
  rw [hresp] at hroom
  simp only [List.length_append, List.length_cons, List.length_nil] at hroom
  have hdrop : s₁.self.response.drop before.length.succ = w ++ 92 :: 0 :: rest := by
    have hfront : s₁.self.response = (before ++ [34]) ++ (w ++ 92 :: 0 :: rest) := by simp [hresp]
    rw [hfront]
    exact List.drop_left' (by simp)
  have hnul' : 0 ∉ w := fun h => hnul (by simp [h])
  have hpast := wordEnd_slash (by decide) hw hnul' hdrop (by omega) (show w.length < ftplibResponseBufsiz by omega)
  rw [htext, takeWhile_front hbefore]
  simp only [List.length_append, List.length_cons, List.length_nil]
  omega

/-- **`getDirectory` reads a reply right** exactly when the reply is legible. -/
theorem unquotes_iff (hsize : s.self.response.length = ftplibResponseBufsiz) :
    Unquotes p s s₁ ↔ c ≠ 0 ∧ Legible (replyText s₁) := by
  by_cases hc : c = 0
  · exact ⟨fun ⟨_, _, h, _⟩ => absurd h (getDirectory_failed hreply hc), fun h => absurd hc h.1⟩
  by_cases hquote : 34 ∉ replyText s₁
  · refine ⟨fun ⟨_, _, h, _⟩ => absurd h (getDirectory_unquoted hreply hc hquote), fun h => ?_⟩
    obtain ⟨_, _, _, htext, _⟩ := h.2.closed
    exact absurd (by simp [htext]) hquote
  obtain ⟨before, tail, htext, hbefore⟩ := List.eq_append_cons_of_mem (not_not.mp hquote)
  have hpath {path : Bytes} (h : Quotes (replyText s₁) path) : ∃ rest, tail = quoted path ++ 34 :: rest := by
    obtain ⟨⟨rest, heq, _⟩, _, _⟩ := h
    refine ⟨rest, ?_⟩
    have hsame : before ++ 34 :: tail = bytes "257 " ++ 34 :: (quoted path ++ 34 :: rest) := by
      rw [← htext, heq]
      rfl
    exact (cut_inj hbefore (by decide) hsame).2
  rcases units_cases 34 tail with ⟨w, after, hw, rfl, hafter⟩ | ⟨w, hw, rfl⟩
  · obtain ⟨⟨t, hcall⟩, hend⟩ := getDirectory_closed hreply hsize hc htext hbefore hw hafter
    constructor
    · rintro ⟨word, t', hcall', _, hpaths⟩
      obtain ⟨rfl, _⟩ := hcall.det hcall'
      refine ⟨hc, ⟨before, w, after, htext, hbefore, hw, hafter⟩, fun path h => ?_⟩
      obtain ⟨rest, htail⟩ := hpath h
      exact (plain_iff htail.symm hw hafter).mp (hpaths path h)
    · rintro ⟨_, _, hplain⟩
      refine ⟨w, t, hcall, fun _ => hend, fun path h => ?_⟩
      obtain ⟨rest, htail⟩ := hpath h
      exact (plain_iff htail.symm hw hafter).mpr (hplain path h)
  · have hpast := wordEnd_past hreply hsize hc htext hbefore hw
    constructor
    · rintro ⟨_, _, _, hend, _⟩
      have := hend (not_not.mp hquote)
      omega
    · rintro ⟨_, ⟨before', w', after, htext', hbefore', hw', hafter⟩, _⟩
      rw [htext] at htext'
      exact absurd (cut_inj hbefore hbefore' htext').2.symm (hw'.not_slash (by decide) hw hafter)

end Replied

/-! ## On the wire -/

namespace Wire

open FTPClientBase.Wire

/-- Once the reply to `PWD` is read. -/
def located (reply : Bytes) : Live Peer FTPClient := ((exchange (peer 63) (bytes "PWD\r\n") 50).run 3 (caller reply)).2

/-- A path with a backslash. -/
theorem unquotes_slash : Unquotes (peer 63) (caller (bytes "257 \"/a\\b\" here\r\n")) (located (bytes "257 \"/a\\b\" here\r\n")) := by
  have hreply : (exchange (peer 63) (bytes "PWD\r\n") 50).Returns (caller (bytes "257 \"/a\\b\" here\r\n")) 1
      (located (bytes "257 \"/a\\b\" here\r\n")) := .of_run 3 (by decide +kernel)
  have htext : replyText (located (bytes "257 \"/a\\b\" here\r\n")) = bytes "257 \"" ++ bytes "/a\\b" ++ 34 :: bytes " here\n" := by decide +kernel
  have hunits : Units 34 (bytes "/a\\b") := .byte (by decide) (by decide) (.byte (by decide) (by decide) (.pair 98 .nil))
  refine (unquotes_iff hreply (by decide +kernel)).mpr ⟨by decide, ⟨bytes "257 ", bytes "/a\\b", 34 :: bytes " here\n", htext, by decide, hunits, ?_⟩, fun path h => ?_⟩
  · exact fun b hb => (Option.some.inj hb).symm
  · rw [h.path_eq htext (by decide) (by decide)]
    exact ⟨_, hunits, by decide, .inl rfl⟩

/-- A path with a quote. -/
theorem not_unquotes_quote : ¬ Unquotes (peer 63) (caller (bytes "257 \"/a\"\"b\"\r\n")) (located (bytes "257 \"/a\"\"b\"\r\n")) := by
  rintro ⟨word, t, hcall, _, hpaths⟩
  have hrun : (getDirectory (peer 63)).Returns (caller (bytes "257 \"/a\"\"b\"\r\n")) (bytes "/a") _ := .of_run 3 (by decide +kernel)
  obtain ⟨rfl, _⟩ := hcall.det hrun
  have htext : replyText (located (bytes "257 \"/a\"\"b\"\r\n")) = bytes "257 \"" ++ quoted (bytes "/a\"b") ++ 34 :: [10] := by decide +kernel
  exact absurd (hpaths (bytes "/a\"b") ⟨⟨[10], htext, by decide⟩, by decide, by decide⟩) (by decide)

end Wire

end FTPClient

end FEmbed
