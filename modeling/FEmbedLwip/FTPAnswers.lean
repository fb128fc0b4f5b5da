/-
`readResp` on a stream: it takes one reply, and leaves what comes after it.
-/
import FEmbedLwip.FTPLines

namespace FEmbed.FTPClientBase

open Live

variable {σ : Type} {p : Platform σ} {fd : Int} {unread : σ → Bytes}

/-! ## Lines into `response` -/

theorem readLineResponse_returns (hp : Feeds p.lwip fd unread) {t rest : Bytes} {s : Live σ FTPClientBase} (ht : FitLine t)
    (hs : Reader fd unread (t ++ 13 :: 10 :: rest) s) :
    ∃ n s', (readLineResponse p).Returns s n s' ∧ n ≠ -1 ∧ Reader fd unread rest s' ∧
      s'.self.response.take (t.length + 2) = t ++ [10, 0] := by
  obtain ⟨hno, hroom⟩ := ht
  have hstream : t ++ 13 :: 10 :: rest = (t ++ [13]) ++ 10 :: rest := by simp
  have hno' : 10 ∉ t ++ [13] := by simp [hno]
  have hline : t ++ [13] ++ [10] = t ++ [13, 10] := by simp
  rw [hstream] at hs
  obtain ⟨out, s', hcall, hs', hsize, htaken⟩ := readLine_lf hp hs hno' (by simp)
    (by rw [List.length_append, List.length_singleton]; exact hroom) hs.response
  rw [hline, shown_crlf, List.length_append, List.length_singleton] at hcall htaken
  rw [List.append_assoc] at htaken
  refine ⟨((t.length + 1 : Nat) : Int), ⟨{ s'.self with response := out }, s'.env⟩, ?_, by omega, ⟨hs'.socketFd, hs'.dir,
    ⟨hs'.cursor.buf, hs'.cursor.cput, hs'.cursor.bound⟩, hsize, hs'.stream⟩, htaken⟩
  rw [readLineResponse, returns_obj_bind, Prog.returns_bind_of hcall, returns_set_bind]
  exact Prog.returns_pure.mpr ⟨rfl, rfl⟩

/-- The lines after the first of a reply, up to its last. -/
theorem readRest_returns (hp : Feeds p.lwip fd unread) {d₁ d₂ d₃ : UInt8} {last rest : Bytes} {ts : List Bytes}
    {s : Live σ FTPClientBase} (hd : isDigit 10 d₁ ∧ isDigit 10 d₂ ∧ isDigit 10 d₃) (hlast : [d₁, d₂, d₃, 32] <+: last)
    (hinner : ∀ t ∈ ts, ¬ [d₁, d₂, d₃, 32] <+: t) (hlines : ∀ t ∈ ts ++ [last], FitLine t)
    (hs : Reader fd unread (((ts ++ [last]).map Reply.renderLine).flatten ++ rest) s) :
    ∃ s', (readRest p [d₁, d₂, d₃, 32]).Returns s true s' ∧ Reader fd unread rest s' ∧
      s'.self.response.take (last.length + 2) = last ++ [10, 0] := by
  induction ts generalizing s with
  | nil =>
    rw [List.nil_append, renderLines_cons] at hs
    obtain ⟨n, s', hcall, hn, hs', htaken⟩ := readLineResponse_returns hp (hlines last (by simp)) hs
    have hcode := (strncmpEq_code hd).mpr ((code_prefix_iff hd htaken).mpr hlast)
    refine ⟨s', Prog.returns_loop.mpr (.inl ?_), hs', htaken⟩
    rw [Prog.returns_bind_of hcall, if_neg hn, returns_obj_bind, if_pos hcode]
    exact Prog.returns_pure.mpr ⟨rfl, rfl⟩
  | cons t ts ih =>
    rw [List.cons_append, renderLines_cons] at hs
    obtain ⟨n, u, hcall, hn, hu, htaken⟩ := readLineResponse_returns hp (hlines t (by simp)) hs
    obtain ⟨s', hrest, hs', hlastTaken⟩ := ih (fun t ht => hinner t (List.mem_cons_of_mem _ ht))
      (fun t ht => hlines t (List.mem_cons_of_mem _ ht)) hu
    have hcode : ¬ strncmpEq 4 u.self.response [d₁, d₂, d₃, 32] = true := by
      rw [strncmpEq_code hd, code_prefix_iff hd htaken]
      exact hinner t List.mem_cons_self
    refine ⟨s', Prog.returns_loop.mpr (.inr ⟨(), u, ?_, hrest⟩), hs', hlastTaken⟩
    rw [Prog.returns_bind_of hcall, if_neg hn, returns_obj_bind, if_neg hcode]
    exact Prog.returns_pure.mpr ⟨rfl, rfl⟩

/-! ## One reply -/

/-- **`readResp` takes exactly one reply**, and tells whether it starts with `c`. -/
theorem readResp_consumes (hp : Feeds p.lwip fd unread) {r : Reply} {c : UInt8} {rest : Bytes} {s : Live σ FTPClientBase}
    (hfits : ∀ line ∈ r.lines, (Reply.renderLine line).length ≤ ftplibResponseBufsiz - 2)
    (hs : Reader fd unread (r.render ++ rest) s) :
    ∃ s', (readResp p c).Returns s (if r.d₁ = c then 1 else 0) s' ∧ Reader fd unread rest s' ∧
      s'.self.response.take (r.last.length + 2) = r.last ++ [10, 0] := by
  have hfit : ∀ t ∈ r.lines, FitLine t := fitLine_of_fits fun line hline => Nat.lt_of_le_of_lt (hfits line hline) (by decide)
  cases hmore : r.more with
  | nil =>
    have hlines : r.lines = [r.last] := by simp [Reply.lines, hmore]
    rw [Reply.render, hlines, renderLines_cons] at hs
    obtain ⟨n, s', hcall, hn, hs', htaken⟩ := readLineResponse_returns hp (hfit r.last (by simp [hlines])) hs
    obtain ⟨hfirst, hfourth, _⟩ := response_start htaken
    refine ⟨s', ?_, hs', htaken⟩
    rw [readResp, Prog.returns_bind_of hcall, if_neg hn, returns_obj_bind, if_neg (by rw [hfourth]; decide), returns_obj_bind, hfirst]
    exact Prog.returns_pure.mpr ⟨rfl, rfl⟩
  | cons first ts =>
    have hlines : r.lines = (r.code ++ 45 :: first) :: (ts ++ [r.last]) := by simp [Reply.lines, hmore]
    rw [Reply.render, hlines, renderLines_cons] at hs
    rw [hlines] at hfit
    obtain ⟨n, u, hcall, hn, hu, htaken⟩ := readLineResponse_returns hp (hfit _ List.mem_cons_self) hs
    obtain ⟨_, hdash, hcode⟩ := response_start htaken
    obtain ⟨s', hrest, hs', hlastTaken⟩ := readRest_returns hp r.digits ⟨r.text, by simp [Reply.last, Reply.code]⟩
      (fun t ht => r.inner t (by simp [hmore, ht])) (fun t ht => hfit t (List.mem_cons_of_mem _ ht)) hu
    rw [← strncpy_code r.digits hcode] at hrest
    refine ⟨s', ?_, hs', hlastTaken⟩
    rw [readResp, Prog.returns_bind_of hcall, if_neg hn, returns_obj_bind, if_pos hdash, returns_obj_bind,
      Prog.returns_bind_of hrest, if_neg (by decide), returns_obj_bind, (response_start hlastTaken).1]
    exact Prog.returns_pure.mpr ⟨rfl, rfl⟩

namespace Wire

/-- A reply of several lines: an empty one and one shorter than a code are among them. -/
def greeting : Reply := ⟨50, 50, 48, [bytes "Hello", [], bytes "22", bytes "221 no"], bytes "ready", by decide, by decide, by decide⟩

theorem readResp_greeting : ∃ s', (readResp (peer 2) 50).Returns (control (greeting.render ++ bytes "331 name\r\n")) 1 s' ∧
    Reader 3 Peer.unread (bytes "331 name\r\n") s' ∧ s'.self.response.take (greeting.last.length + 2) = greeting.last ++ [10, 0] :=
  readResp_consumes (r := greeting) (c := 50) (peer_feeds (by decide)) (by decide) (control_reader _)

end Wire

end FEmbed.FTPClientBase
