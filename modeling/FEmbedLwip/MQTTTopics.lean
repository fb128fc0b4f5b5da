/-
Topic filters and topic names: when the test of `deliverMessage` is the
matching of MQTT.

The loop of `isTopicMatched` takes a character of the name for each of the
filter. A `+` takes a level from its first character to its last, a `#` the
rest of the name from its first character, so neither takes a level that has
no character, and `#` not the level in front of it (`Filled`).
-/
import FEmbedLwip.MQTTClient
import Mathlib.Data.List.Forall2
import Mathlib.Tactic.Tauto

namespace FEmbed

namespace MQTTClient

/-! ## Levels -/

/-- The levels of a filter or name: what stands between the separators. -/
def levels (s : Bytes) : List Bytes := s.splitOn 47

/-- `+`, as a level. -/
def singleLevel : Bytes := [43]

/-- `#`, as a level. -/
def multiLevel : Bytes := [35]

/-- The levels of a filter: wildcards are whole levels, and `#` only the last one. -/
structure FilterLevels (F : List Bytes) : Prop where
  single : ∀ f ∈ F, 43 ∈ f → f = singleLevel
  multi : ∀ f ∈ F, 35 ∈ f → f = multiLevel
  last : multiLevel ∉ F.dropLast

structure TopicFilter where
  text : Bytes
  nonempty : text ≠ []
  valid : FilterLevels (levels text)

/-- A topic name, of a topic that is none of the server's own. -/
structure TopicName where
  text : Bytes
  nonempty : text ≠ []
  noSingle : 43 ∉ text
  noMulti : 35 ∉ text
  notServer : text.head? ≠ some 36

/-- The name in a packet. -/
def TopicName.lenString (n : TopicName) : MQTTLenString := { len := n.text.length, data := some n.text }

/-- A level of a filter without `#`, and a level of a name. -/
def LevelMatches (f n : Bytes) : Prop := f = n ∨ f = singleLevel

/-- Matching by levels: of as many levels, or of any number from those in
front of a `#` on. -/
def Matches (F N : List Bytes) : Prop :=
  List.Forall₂ LevelMatches F N ∨
    ∃ G N₁ N₂, F = G ++ [multiLevel] ∧ N = N₁ ++ N₂ ∧ List.Forall₂ LevelMatches G N₁

/-- No `+` stands at an empty level of the name, and a `#` at a level of the
name that is not empty. -/
def Filled : List Bytes → List Bytes → Prop
  | [], _ => True
  | f :: F, [] => f ≠ multiLevel ∧ Filled F []
  | f :: F, n :: N => (f = singleLevel ∨ f = multiLevel → n ≠ []) ∧ Filled F N

/-- A level has characters of the text, and none of them is a separator. -/
theorem mem_levels {s l : Bytes} (h : l ∈ levels s) {b : UInt8} (hb : b ∈ l) : b ∈ s ∧ b ≠ 47 := by
  induction s generalizing l with
  | nil =>
    rw [levels, List.splitOn_nil, List.mem_singleton] at h
    rw [h] at hb
    exact absurd hb List.not_mem_nil
  | cons c s ih =>
    rw [levels, List.splitOn_cons_eq_if_modifyHead] at h
    have key (hl : l ∈ levels s) : b ∈ c :: s ∧ b ≠ 47 := (ih hl hb).imp_left (List.mem_cons_of_mem c)
    split at h
    · rcases List.mem_cons.mp h with rfl | h
      · exact absurd hb List.not_mem_nil
      · exact key h
    · rename_i hc
      obtain ⟨m, ms, hm⟩ := List.exists_cons_of_ne_nil (List.splitOn_ne_nil 47 s)
      have hlevels : levels s = m :: ms := hm
      rw [hm, List.modifyHead_cons] at h
      rcases List.mem_cons.mp h with rfl | h
      · rcases List.mem_cons.mp hb with rfl | hb
        · exact ⟨List.mem_cons_self, fun he => hc (by simp [he])⟩
        · exact (ih (hlevels ▸ List.mem_cons_self) hb).imp_left (List.mem_cons_of_mem c)
      · exact key (hlevels ▸ List.mem_cons_of_mem m h)

theorem levels_sep {s l : Bytes} (h : l ∈ levels s) : 47 ∉ l := fun hb => (mem_levels h hb).2 rfl

theorem levels_exists (s : Bytes) : ∃ l ls, levels s = l :: ls := List.exists_cons_of_ne_nil (List.splitOn_ne_nil 47 s)

/-- What follows a level in a text. -/
def behind : List Bytes → Bytes
  | [] => []
  | L => 47 :: [47].intercalate L

/-- Whether a text is what follows a level. -/
def Behind (r : Bytes) : Prop := ∀ b ∈ r.head?, b = 47

theorem intercalate_cons (l : Bytes) (L : List Bytes) : [47].intercalate (l :: L) = l ++ behind L := by
  cases L with
  | nil => simp [behind]
  | cons l' L => simp [behind, List.intercalate_cons_cons]

theorem behind_behind (L : List Bytes) : Behind (behind L) := by
  cases L with
  | nil => exact nofun
  | cons l L =>
    intro b hb
    exact (Option.some.inj hb).symm

/-! ## The loop -/

/-- A filter that goes on takes no more of a name that does not. -/
theorem topicLoop_behind {c : UInt8} {f r : Bytes} (hc : c ≠ 47) (hr : Behind r) : topicLoop (c :: f) r = false := by
  cases r with
  | nil => rfl
  | cons b r =>
    obtain rfl : b = 47 := hr b rfl
    rw [topicLoop, if_pos ⟨rfl, hc⟩]

/-- Characters that are no wildcards take themselves. -/
theorem topicLoop_plain {f n r r' : Bytes} (hsingle : 43 ∉ f) (hmulti : 35 ∉ f) (hf : 47 ∉ f) (hn : 47 ∉ n)
    (hr : Behind r) (hr' : Behind r') : topicLoop (f ++ r) (n ++ r') = true ↔ f = n ∧ topicLoop r r' = true := by
  induction f generalizing n with
  | nil =>
    cases n with
    | nil => simp
    | cons b n =>
      have hb : 47 ≠ b := fun h => hn (h ▸ List.mem_cons_self)
      cases r with
      | nil => simp [topicLoop]
      | cons c r =>
        obtain rfl : c = 47 := hr c rfl
        simp [topicLoop, hb, Ne.symm hb]
  | cons c f ih =>
    simp only [List.mem_cons, not_or] at hsingle hmulti hf
    cases n with
    | nil =>
      rw [List.nil_append, List.cons_append, topicLoop_behind (Ne.symm hf.1) hr']
      simp
    | cons b n =>
      simp only [List.mem_cons, not_or] at hn
      rw [List.cons_append, List.cons_append, topicLoop, if_neg fun h => hn.1 h.1.symm]
      by_cases hcb : c = b
      · rw [if_neg fun h => h.2.2 hcb, if_neg (Ne.symm hsingle.1), if_neg (Ne.symm hmulti.1),
          ih hsingle.2 hmulti.2 hf.2 hn.2]
        simp [hcb]
      · rw [if_pos ⟨Ne.symm hsingle.1, Ne.symm hmulti.1, hcb⟩]
        simp [hcb]

/-- A `+` takes a level that has a character. -/
theorem topicLoop_single {n r r' : Bytes} (hn : 47 ∉ n) (hr' : Behind r') :
    topicLoop (singleLevel ++ r) (n ++ r') = true ↔ n ≠ [] ∧ topicLoop r r' = true := by
  cases n with
  | nil =>
    rw [List.nil_append, show singleLevel ++ r = 43 :: r from rfl, topicLoop_behind (by decide) hr']
    simp
  | cons b n =>
    simp only [List.mem_cons, not_or] at hn
    have hskip : (n ++ r').dropWhile (· != 47) = r' := by
      rw [List.dropWhile_append_of_pos fun c hc => bne_iff_ne.mpr (ne_of_mem_of_not_mem hc hn.2)]
      cases r' with
      | nil => rfl
      | cons c r' =>
        obtain rfl : c = 47 := hr' c rfl
        rfl
    rw [show singleLevel ++ r = 43 :: r from rfl, List.cons_append, topicLoop, if_neg fun h => hn.1 h.1.symm,
      if_neg fun h => h.1 rfl, if_pos rfl, hskip]
    simp

/-- A level of a filter that is not `#`, in front of what follows it. -/
theorem topicLoop_level {f n r r' : Bytes} (hsingle : 43 ∈ f → f = singleLevel) (hmulti : 35 ∉ f) (hf : 47 ∉ f) (hn : 47 ∉ n)
    (hr : Behind r) (hr' : Behind r') :
    topicLoop (f ++ r) (n ++ r') = true ↔ (LevelMatches f n ∧ (f = singleLevel → n ≠ [])) ∧ topicLoop r r' = true := by
  by_cases hplus : 43 ∈ f
  · obtain rfl := hsingle hplus
    rw [topicLoop_single hn hr']
    simp [LevelMatches]
  · have hne : f ≠ singleLevel := by
      rintro rfl
      exact hplus List.mem_cons_self
    rw [topicLoop_plain hplus hmulti hf hn hr hr']
    simp [LevelMatches, hne]

/-- A last `#` takes what is left of a name from a character on. -/
theorem topicLoop_multi {n r' : Bytes} (hn : 47 ∉ n) (hr' : Behind r') :
    topicLoop multiLevel (n ++ r') = true ↔ n ≠ [] := by
  cases n with
  | nil =>
    rw [List.nil_append, multiLevel, topicLoop_behind (by decide) hr']
    simp
  | cons b n =>
    simp only [List.mem_cons, not_or] at hn
    simp [multiLevel, topicLoop, Ne.symm hn.1]

/-! ## Matching by levels -/

theorem matches_cons {f n : Bytes} {F N : List Bytes} (hmulti : f = multiLevel → F ≠ []) :
    Matches (f :: F) (n :: N) ↔ LevelMatches f n ∧ Matches F N := by
  constructor
  · rintro (hall | ⟨G, N₁, N₂, hF, hN, hG⟩)
    · obtain ⟨hfn, hall⟩ := List.forall₂_cons.mp hall
      exact ⟨hfn, .inl hall⟩
    · cases hG with
      | nil =>
        obtain ⟨rfl, rfl⟩ := List.cons.inj hF
        exact absurd rfl (hmulti rfl)
      | cons hgn hG =>
        obtain ⟨rfl, rfl⟩ := List.cons.inj hF
        obtain ⟨rfl, rfl⟩ := List.cons.inj hN
        exact ⟨hgn, .inr ⟨_, _, N₂, rfl, rfl, hG⟩⟩
  · rintro ⟨hfn, hall | ⟨G, N₁, N₂, rfl, rfl, hG⟩⟩
    · exact .inl (.cons hfn hall)
    · exact .inr ⟨f :: G, n :: N₁, N₂, rfl, rfl, .cons hfn hG⟩

theorem matches_nil_left {N : List Bytes} : Matches [] N ↔ N = [] := by
  constructor
  · rintro (hall | ⟨G, N₁, N₂, hF, -⟩)
    · cases hall
      rfl
    · simp at hF
  · rintro rfl
    exact .inl .nil

theorem matches_nil_right {F : List Bytes} (h : Matches F []) : F = [] ∨ F = [multiLevel] := by
  rcases h with hall | ⟨G, N₁, N₂, rfl, hN, hG⟩
  · cases hall
    exact .inl rfl
  · obtain ⟨rfl, -⟩ := List.append_eq_nil_iff.mp hN.symm
    cases hG
    exact .inr rfl

theorem matches_multi (N : List Bytes) : Matches [multiLevel] N := .inr ⟨[], [], N, rfl, rfl, .nil⟩

theorem FilterLevels.tail {f g : Bytes} {F : List Bytes} (h : FilterLevels (f :: g :: F)) :
    f ≠ multiLevel ∧ FilterLevels (g :: F) := by
  have hlast := h.last
  rw [List.dropLast_cons_cons, List.mem_cons, not_or] at hlast
  exact ⟨Ne.symm hlast.1, fun l hl => h.single l (List.mem_cons_of_mem f hl), fun l hl => h.multi l (List.mem_cons_of_mem f hl),
    hlast.2⟩

/-- The loop decides by levels, but for levels that are not filled. By
induction on the levels of the filter. -/
theorem topicLoop_intercalate {f n : Bytes} {F N : List Bytes} (hvalid : FilterLevels (f :: F))
    (hF : ∀ l ∈ f :: F, 47 ∉ l) (hN : ∀ l ∈ n :: N, 47 ∉ l) :
    topicLoop ([47].intercalate (f :: F)) ([47].intercalate (n :: N)) = true ↔
      Matches (f :: F) (n :: N) ∧ Filled (f :: F) (n :: N) := by
  induction F generalizing f n N with
  | nil =>
    have hn : 47 ∉ n := hN n List.mem_cons_self
    rw [intercalate_cons, intercalate_cons]
    by_cases hfm : f = multiLevel
    · subst hfm
      rw [show multiLevel ++ behind [] = multiLevel from rfl, topicLoop_multi hn (behind_behind N)]
      simp [matches_multi, Filled]
    · have hplain : 35 ∉ f := fun h => hfm (hvalid.multi f List.mem_cons_self h)
      have hend : topicLoop (behind []) (behind N) = true ↔ N = [] := by
        cases N <;> simp [behind, topicLoop]
      rw [topicLoop_level (hvalid.single f List.mem_cons_self) hplain (hF f List.mem_cons_self) hn (behind_behind [])
        (behind_behind N), hend, matches_cons fun h => absurd h hfm, matches_nil_left]
      simp only [Filled, hfm, or_false, and_true]
      tauto
  | cons g F ih =>
    obtain ⟨hfm, htail⟩ := hvalid.tail
    have hplain : 35 ∉ f := fun h => hfm (hvalid.multi f List.mem_cons_self h)
    rw [intercalate_cons, intercalate_cons, topicLoop_level (hvalid.single f List.mem_cons_self) hplain
      (hF f List.mem_cons_self) (hN n List.mem_cons_self) (behind_behind _) (behind_behind N), matches_cons fun h => absurd h hfm]
    simp only [Filled, hfm, or_false]
    cases N with
    | nil =>
      -- Only a `#` is left that could match, and there is no level for it.
      have hno : ¬ (Matches (g :: F) [] ∧ Filled (g :: F) []) := by
        rintro ⟨hmatch, hfilled⟩
        rcases matches_nil_right hmatch with h | h
        · exact nomatch h
        · exact hfilled.1 (List.cons.inj h).1
      have hstop : ¬ topicLoop (behind (g :: F)) (behind []) = true := by simp [behind, topicLoop]
      tauto
    | cons m N =>
      have hnext : topicLoop (behind (g :: F)) (behind (m :: N)) =
          topicLoop ([47].intercalate (g :: F)) ([47].intercalate (m :: N)) := by
        simp [behind, topicLoop]
      rw [hnext, ih htail (fun l hl => hF l (List.mem_cons_of_mem f hl)) fun l hl => hN l (List.mem_cons_of_mem n hl)]
      tauto

theorem topicLoop_levels {f n : Bytes} (hvalid : FilterLevels (levels f)) :
    topicLoop f n = true ↔ Matches (levels f) (levels n) ∧ Filled (levels f) (levels n) := by
  obtain ⟨l, F, hF⟩ := levels_exists f
  obtain ⟨m, N, hN⟩ := levels_exists n
  have hjoin (s : Bytes) : [47].intercalate (levels s) = s := List.intercalate_splitOn 47
  have hloop := topicLoop_intercalate (hF ▸ hvalid) (fun l hl => levels_sep (hF ▸ hl)) fun l hl => levels_sep (hN ▸ hl)
  rwa [← hF, ← hN, hjoin, hjoin] at hloop

/-- A name without wildcards, taken as a filter, matches itself. -/
theorem TopicName.matches_self (n : TopicName) : Matches (levels n.text) (levels n.text) ∧ Filled (levels n.text) (levels n.text) := by
  have hsingle : singleLevel ∉ levels n.text := fun h => n.noSingle (mem_levels h List.mem_cons_self).1
  have hmulti : multiLevel ∉ levels n.text := fun h => n.noMulti (mem_levels h List.mem_cons_self).1
  generalize levels n.text = L at hsingle hmulti
  constructor
  · exact .inl (List.forall₂_same.mpr fun l _ => .inl rfl)
  · induction L with
    | nil => trivial
    | cons l L ih =>
      simp only [List.mem_cons, not_or] at hsingle hmulti
      refine ⟨?_, ih hsingle.2 hmulti.2⟩
      rintro (h | h)
      · exact absurd h.symm hsingle.1
      · exact absurd h.symm hmulti.1

/-- The test of `deliverMessage` is matching by levels exactly where the levels
of a name that matches are filled. -/
theorem topicMatches_iff (f : TopicFilter) (n : TopicName) :
    (topicMatches f.text n.lenString = some true ↔ Matches (levels f.text) (levels n.text)) ↔
      (Matches (levels f.text) (levels n.text) → Filled (levels f.text) (levels n.text)) := by
  have htest : topicMatches f.text n.lenString = some true ↔
      Matches (levels f.text) (levels n.text) ∧ Filled (levels f.text) (levels n.text) := by
    rw [← topicLoop_levels f.valid]
    by_cases heq : n.text = f.text
    · have hself : topicLoop f.text f.text = true := by
        rw [topicLoop_levels f.valid, ← heq]
        exact n.matches_self
      simp [topicMatches, MQTTPacket.equals, TopicName.lenString, heq, hself]
    · have hdiff : MQTTPacket.equals n.lenString f.text = some false := by
        simp [MQTTPacket.equals, TopicName.lenString, heq]
      rw [topicMatches, hdiff]
      simp [isTopicMatched, TopicName.lenString]
  rw [htest, and_iff_left_iff_imp]

def parentFilter : TopicFilter where
  text := bytes "a/#"
  nonempty := by decide
  valid := ⟨by decide, by decide, by decide⟩

def parentName : TopicName where
  text := bytes "a"
  nonempty := by decide
  noSingle := by decide
  noMulti := by decide
  notServer := by decide

theorem parent_not_matched :
    ¬ ∀ (f : TopicFilter) (n : TopicName),
      topicMatches f.text n.lenString = some true ↔ Matches (levels f.text) (levels n.text) := by
  intro h
  have hparent : Matches (levels parentFilter.text) (levels parentName.text) :=
    .inr ⟨[bytes "a"], [bytes "a"], [], by decide, by decide, .cons (.inl rfl) .nil⟩
  exact absurd ((h parentFilter parentName).mpr hparent) (by decide)

end MQTTClient

end FEmbed
