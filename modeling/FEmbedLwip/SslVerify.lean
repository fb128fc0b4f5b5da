/-
The checks of a peer certificate in `ssl_client.cpp`: its names against a
domain (`verify_ssl_dn`), its fingerprint against a text
(`verify_ssl_fingerprint`).

The certificate is what `mbedtls_ssl_get_peer_cert` gives. Its lists have
their first node inside it, so a certificate without alternative names is
searched too: for the empty name.
-/
import FEmbedLwip.Arduino
import Mathlib.Data.List.Infix

namespace FEmbed

namespace SslVerify

/-! ## `matchName` -/

/-- `s.find(c)`; `none` is `npos`. -/
def find (s : Bytes) (c : UInt8) : Option Nat := s.findIdx? (· == c)

theorem find_eq_none {s : Bytes} {c : UInt8} : find s c = none ↔ c ∉ s := by
  simp only [find, List.findIdx?_eq_none_iff, beq_eq_false_iff_ne]
  exact ⟨fun h hc => h c hc rfl, fun h b hb => ne_of_mem_of_not_mem hb h⟩

theorem find_eq_some {s : Bytes} {c : UInt8} {i : Nat} :
    find s c = some i ↔ ∃ l r, s = l ++ c :: r ∧ c ∉ l ∧ l.length = i := by
  induction s generalizing i with
  | nil => simp [find]
  | cons b s ih =>
    rw [find, List.findIdx?_cons]
    by_cases hb : b = c
    · subst hb
      simp only [beq_self_eq_true, if_true, Option.some.injEq]
      constructor
      · rintro rfl
        exact ⟨[], s, rfl, List.not_mem_nil, rfl⟩
      · rintro ⟨l, r, hs, hl, rfl⟩
        cases l with
        | nil => rfl
        | cons a l => exact absurd ((List.cons.inj hs).1 ▸ List.mem_cons_self) hl
    · simp only [beq_iff_eq, hb, if_false, Option.map_eq_some_iff]
      constructor
      · rintro ⟨j, hj, rfl⟩
        obtain ⟨l, r, rfl, hl, rfl⟩ := ih.mp hj
        exact ⟨b :: l, r, rfl, by simpa [Ne.symm hb] using hl, rfl⟩
      · rintro ⟨l, r, hs, hl, rfl⟩
        cases l with
        | nil => exact absurd (List.cons.inj hs).1 hb
        | cons a l =>
          obtain ⟨rfl, rfl⟩ := List.cons.inj hs
          exact ⟨l.length, ih.mpr ⟨l, r, rfl, fun h => hl (List.mem_cons_of_mem _ h), rfl⟩, rfl⟩

/-- The characters in front of the first one. -/
theorem find_append {l r : Bytes} {c : UInt8} (hl : c ∉ l) : find (l ++ c :: r) c = some l.length :=
  find_eq_some.mpr ⟨l, r, rfl, hl, rfl⟩

/-- `matchName`: `*` is 42, `.` is 46. -/
def matchName (name domainName : Bytes) : Bool :=
  match find name 42 with
  | none => name == domainName
  | some wildcardPos =>
    match find name 46 with
    | none => false -- `npos` is not exceeded, and not 1
    | some firstDotPos =>
      if wildcardPos > firstDotPos then false
      else if wildcardPos ≠ 0 ∨ firstDotPos ≠ 1 then false
      else match find domainName 46 with
        | none => false
        | some domainNameFirstDotPos => domainName.drop domainNameFirstDotPos == name.drop firstDotPos

/-- The name `*.s` of all domains that have one label in front of `s`. -/
def wildcard (s : Bytes) : Bytes := bytes "*." ++ s

theorem matchName_exact {name domainName : Bytes} (h : 42 ∉ name) : matchName name domainName = true ↔ name = domainName := by
  rw [matchName, find_eq_none.mpr h, beq_iff_eq]

/-- A name with a wildcard matches nothing unless it is a wildcard label and a rest. -/
theorem matchName_wildcard {name domainName : Bytes} (h : 42 ∈ name) :
    matchName name domainName = true ↔ ∃ l s, name = wildcard s ∧ 46 ∉ l ∧ domainName = l ++ 46 :: s := by
  constructor
  · intro hmatch
    rw [matchName] at hmatch
    split at hmatch
    · exact absurd h (find_eq_none.mp ‹_›)
    rename_i w hw
    split at hmatch
    · exact absurd hmatch (by decide)
    rename_i f hf
    split at hmatch
    · exact absurd hmatch (by decide)
    split at hmatch
    · exact absurd hmatch (by decide)
    rename_i hpos
    obtain ⟨rfl, rfl⟩ : w = 0 ∧ f = 1 := by omega
    split at hmatch
    · exact absurd hmatch (by decide)
    rename_i d hd
    -- The star is the first character, the dot is the second.
    obtain ⟨l₁, r₁, rfl, -, hl₁⟩ := find_eq_some.mp hw
    obtain rfl := List.eq_nil_of_length_eq_zero hl₁
    obtain ⟨l₂, s, hname, -, hl₂⟩ := find_eq_some.mp hf
    obtain ⟨b, rfl⟩ := List.length_eq_one_iff.mp hl₂
    obtain ⟨rfl, rfl⟩ := List.cons.inj hname
    obtain ⟨l, t, rfl, hl, rfl⟩ := find_eq_some.mp hd
    have hrest : 46 :: t = 46 :: s := by simpa using hmatch
    rw [hrest]
    exact ⟨l, s, rfl, hl, rfl⟩
  · rintro ⟨l, s, rfl, hl, rfl⟩
    have hw : find (wildcard s) 42 = some 0 := rfl
    have hf : find (wildcard s) 46 = some 1 := rfl
    rw [matchName, hw, hf, find_append hl]
    simp [wildcard, bytes]

/-- Matching is equality for a name without wildcard, and for a wildcard label
it is a domain with exactly one label in its place. -/
theorem matchName_iff (name domainName : Bytes) :
    matchName name domainName = true ↔
      (42 ∉ name ∧ name = domainName) ∨
        ∃ l s, name = wildcard s ∧ 46 ∉ l ∧ domainName = l ++ 46 :: s := by
  by_cases h : 42 ∈ name
  · rw [matchName_wildcard h]
    simp [h]
  · rw [matchName_exact h]
    constructor
    · exact fun heq => .inl ⟨h, heq⟩
    · rintro (⟨-, heq⟩ | ⟨l, s, rfl, -⟩)
      · exact heq
      · exact absurd List.mem_cons_self h

/-! ## `verify_ssl_dn` -/

/-- `mbedtls_asn1_named_data`: an attribute of the subject. -/
structure NamedData where
  oid : Bytes
  val : Bytes
  deriving DecidableEq, Repr

/-- What `mbedtls_x509_crt` says of a certificate. -/
structure Certificate where
  raw : Bytes
  subjectAltNames : List Bytes
  subject : List NamedData
  deriving DecidableEq, Repr

/-- `MBEDTLS_OID_AT_CN`. -/
def oidAtCN : Bytes := [0x55, 0x04, 0x03]

/-- The nodes of a list whose first one is part of the certificate: it is
there, zeroed, for an empty list. -/
def nodes {α : Type} (zero : α) : List α → List α
  | [] => [zero]
  | l => l

def lower (s : Bytes) : Bytes := s.map Str.toLower

/-- `verify_ssl_dn`. The certificate is not checked to be there. -/
def verifySslDn (crt : Certificate) (domainName : Bytes) : Bool :=
  let domainNameStr := lower domainName
  (nodes [] crt.subjectAltNames).any (fun san => matchName (lower san) domainNameStr) ||
    (nodes ⟨[], []⟩ crt.subject).any fun commonName =>
      commonName.oid == oidAtCN && matchName commonName.val domainNameStr

/-- The values of the CN attributes. -/
def Certificate.commonNames (crt : Certificate) : List Bytes := (crt.subject.filter (·.oid == oidAtCN)).map (·.val)

/-- Matching without regard to case. -/
def Names (name domainName : Bytes) : Prop := matchName (lower name) (lower domainName) = true

theorem toLower_toLower (b : UInt8) : Str.toLower (Str.toLower b) = Str.toLower b :=
  forall_byte (P := fun b => Str.toLower (Str.toLower b) = Str.toLower b) (by decide +kernel) b

@[simp] theorem lower_lower (s : Bytes) : lower (lower s) = lower s := by
  simp only [lower, List.map_map]
  exact List.map_congr_left fun b _ => toLower_toLower b

theorem lower_append (s t : Bytes) : lower (s ++ t) = lower s ++ lower t := List.map_append

theorem lower_eq_nil {s : Bytes} : lower s = [] ↔ s = [] := List.map_eq_nil_iff

theorem matchName_nil_left {domainName : Bytes} : matchName [] domainName = true ↔ domainName = [] := by
  rw [matchName_exact List.not_mem_nil]
  exact eq_comm

theorem matchName_nil_right {name : Bytes} : matchName name [] = true ↔ name = [] := by
  rw [matchName_iff]
  constructor
  · rintro (⟨-, h⟩ | ⟨l, s, -, -, h⟩)
    · exact h
    · simp at h
  · rintro rfl
    exact .inl ⟨List.not_mem_nil, rfl⟩

/-- Only a name in lower case matches a domain in lower case. -/
theorem matchName_lower {name domainName : Bytes} (h : matchName name (lower domainName) = true) : lower name = name := by
  rcases (matchName_iff _ _).mp h with ⟨-, rfl⟩ | ⟨l, s, rfl, -, hdomain⟩
  · exact lower_lower _
  · have hall : lower (l ++ 46 :: s) = l ++ 46 :: s := by
      rw [← hdomain, lower_lower]
    rw [lower_append] at hall
    obtain ⟨-, hs⟩ := List.append_inj hall (List.length_map _)
    exact congrArg (bytes "*" ++ ·) hs

theorem any_nodes_san (sans : List Bytes) (domainName : Bytes) :
    (nodes [] sans).any (fun san => matchName (lower san) (lower domainName)) = true ↔
      (∃ san ∈ sans, Names san domainName) ∨ (sans = [] ∧ domainName = []) := by
  cases sans with
  | nil =>
    have h : matchName (lower []) (lower domainName) = true ↔ lower domainName = [] := matchName_nil_left
    simp [nodes, h, lower_eq_nil]
  | cons san sans => simp [nodes, Names]

theorem any_nodes_subject (crt : Certificate) (domainName : Bytes) :
    (nodes ⟨[], []⟩ crt.subject).any (fun cn => cn.oid == oidAtCN && matchName cn.val domainName) = true ↔
      ∃ cn ∈ crt.commonNames, matchName cn domainName = true := by
  have hnames : (∃ cn ∈ crt.commonNames, matchName cn domainName = true) ↔
      ∃ cn ∈ crt.subject, cn.oid = oidAtCN ∧ matchName cn.val domainName = true := by
    simp [Certificate.commonNames, and_assoc]
  rw [hnames]
  cases crt.subject with
  | nil => simp [nodes, oidAtCN]
  | cons cn subject => simp [nodes]

/-- What the function accepts: alternative names in any case, common names in
lower case, and the empty name of a certificate without alternative names. -/
theorem verifySslDn_accepts (crt : Certificate) (domainName : Bytes) :
    verifySslDn crt domainName = true ↔
      (∃ san ∈ crt.subjectAltNames, Names san domainName) ∨ (crt.subjectAltNames = [] ∧ domainName = []) ∨
        ∃ cn ∈ crt.commonNames, lower cn = cn ∧ Names cn domainName := by
  have hcn : (∃ cn ∈ crt.commonNames, matchName cn (lower domainName) = true) ↔
      ∃ cn ∈ crt.commonNames, lower cn = cn ∧ Names cn domainName := by
    constructor
    · rintro ⟨cn, hmem, h⟩
      have hlower := matchName_lower h
      exact ⟨cn, hmem, hlower, by rwa [Names, hlower]⟩
    · rintro ⟨cn, hmem, hlower, h⟩
      exact ⟨cn, hmem, by rwa [Names, hlower] at h⟩
  rw [verifySslDn, Bool.or_eq_true, any_nodes_san, any_nodes_subject, hcn, or_assoc]

/-- A certificate that the function reads as it is meant: if only common names
match, one of them is in lower case; and the empty domain is asked of
alternative names, if it is not a common name. -/
structure PlainNames (crt : Certificate) (domainName : Bytes) : Prop where
  common : (∀ san ∈ crt.subjectAltNames, ¬ Names san domainName) → ∀ cn ∈ crt.commonNames, Names cn domainName →
    ∃ cn' ∈ crt.commonNames, lower cn' = cn' ∧ Names cn' domainName
  empty : crt.subjectAltNames = [] → domainName = [] → [] ∈ crt.commonNames

/-- The names of a certificate match when one of any kind does, in any case. -/
def NamesMatch (crt : Certificate) (domainName : Bytes) : Prop :=
  (∃ san ∈ crt.subjectAltNames, Names san domainName) ∨ ∃ cn ∈ crt.commonNames, Names cn domainName

theorem PlainNames.accepts {crt : Certificate} {domainName : Bytes} (h : PlainNames crt domainName) :
    verifySslDn crt domainName = true ↔ NamesMatch crt domainName := by
  rw [verifySslDn_accepts, NamesMatch]
  constructor
  · rintro (hsan | ⟨hnone, hempty⟩ | ⟨cn, hmem, -, hcn⟩)
    · exact .inl hsan
    · refine .inr ⟨[], h.empty hnone hempty, ?_⟩
      rw [hempty, Names]
      exact matchName_nil_left.mpr rfl
    · exact .inr ⟨cn, hmem, hcn⟩
  · intro hmatch
    by_cases hsan : ∃ san ∈ crt.subjectAltNames, Names san domainName
    · exact .inl hsan
    · obtain ⟨cn, hmem, hcn⟩ := hmatch.resolve_left hsan
      exact .inr (.inr (h.common (fun san hm hs => hsan ⟨san, hm, hs⟩) cn hmem hcn))

theorem PlainNames.of_accepts {crt : Certificate} {domainName : Bytes}
    (h : verifySslDn crt domainName = true ↔ NamesMatch crt domainName) : PlainNames crt domainName where
  common hsan cn hmem hcn := by
    rcases (verifySslDn_accepts crt domainName).mp (h.mpr (.inr ⟨cn, hmem, hcn⟩)) with ⟨san, hm, hs⟩ | ⟨hnone, hempty⟩ | hlow
    · exact absurd hs (hsan san hm)
    · -- The name that matches the empty domain is empty.
      subst hempty
      obtain rfl : cn = [] := lower_eq_nil.mp (matchName_nil_right.mp hcn)
      exact ⟨[], hmem, rfl, hcn⟩
    · exact hlow
  empty hnone hempty := by
    subst hempty
    have hmatch : NamesMatch crt [] := h.mp ((verifySslDn_accepts crt []).mpr (.inr (.inl ⟨hnone, rfl⟩)))
    rcases hmatch with ⟨san, hm, -⟩ | ⟨cn, hmem, hcn⟩
    · exact absurd (hnone ▸ hm) List.not_mem_nil
    · rwa [lower_eq_nil.mp (matchName_nil_right.mp hcn)] at hmem

/-- Certificates whose names differ in the case of letters at most. -/
structure SameNames (crt crt' : Certificate) : Prop where
  sans : crt.subjectAltNames.map lower = crt'.subjectAltNames.map lower
  commonNames : crt.commonNames.map lower = crt'.commonNames.map lower

theorem exists_names_congr {l l' : List Bytes} {d d' : Bytes} (hl : l.map lower = l'.map lower) (hd : lower d = lower d') :
    (∃ n ∈ l, Names n d) ↔ ∃ n ∈ l', Names n d' := by
  have hmap (l : List Bytes) (d : Bytes) : (∃ n ∈ l, Names n d) ↔ ∃ n ∈ l.map lower, matchName n (lower d) = true := by
    simp [Names]
  rw [hmap, hmap, hl, hd]

theorem SameNames.namesMatch {crt crt' : Certificate} (h : SameNames crt crt') {d d' : Bytes} (hd : lower d = lower d') :
    NamesMatch crt d ↔ NamesMatch crt' d' :=
  or_congr (exists_names_congr h.sans hd) (exists_names_congr h.commonNames hd)

/-- The check is the search over all names without regard to case exactly for
certificates with plain names, and among these it does not depend on case. -/
theorem verifySslDn_caseless_iff (crt : Certificate) (domainName : Bytes) :
    ((verifySslDn crt domainName = true ↔ NamesMatch crt domainName) ↔ PlainNames crt domainName) ∧
      ∀ crt' domainName', SameNames crt crt' → lower domainName = lower domainName' →
        PlainNames crt domainName → PlainNames crt' domainName' →
          verifySslDn crt domainName = verifySslDn crt' domainName' := by
  refine ⟨⟨PlainNames.of_accepts, PlainNames.accepts⟩, ?_⟩
  intro crt' domainName' hcrt hdomain hplain hplain'
  rw [Bool.eq_iff_iff, hplain.accepts, hplain'.accepts]
  exact hcrt.namesMatch hdomain

/-- A certificate with an alternative name. -/
def named (name : Bytes) : Certificate where
  raw := []
  subjectAltNames := [name]
  subject := [⟨oidAtCN, bytes "Example.com"⟩]

theorem named_plain {name domainName : Bytes} (h : Names name domainName) : PlainNames (named name) domainName where
  common hnone _ _ _ := absurd h (hnone name (List.mem_singleton_self name))
  empty hnil := nomatch hnil

/-- Neither the case of the alternative name counts, nor that of the domain. -/
theorem uppercase_accepted : verifySslDn (named (bytes "WWW.EXAMPLE.COM")) (bytes "www.example.com") =
    verifySslDn (named (bytes "www.example.com")) (bytes "Www.Example.com") :=
  (verifySslDn_caseless_iff (named (bytes "WWW.EXAMPLE.COM")) (bytes "www.example.com")).2 (named (bytes "www.example.com"))
    (bytes "Www.Example.com") ⟨by decide +kernel, by decide +kernel⟩ (by decide +kernel)
    (named_plain (show matchName _ _ = true by decide +kernel)) (named_plain (show matchName _ _ = true by decide +kernel))

/-- The certificate of `Example.com`, and of no alternative name but `www.example.com`. -/
def capitalised : Certificate := named (bytes "www.example.com")

theorem capitalised_refused :
    ¬ ∀ crt domainName, verifySslDn crt domainName = true ↔ NamesMatch crt domainName := by
  intro h
  have hname : NamesMatch capitalised (bytes "example.com") :=
    .inr ⟨bytes "Example.com", by decide +kernel, show matchName _ _ = true by decide +kernel⟩
  exact absurd ((h _ _).mpr hname) (by decide +kernel)

/-! ## `verify_ssl_fingerprint` -/

/-- A C string: no zero in it, and as long as an object of a 32-bit target can
be, so its `strlen` is an `int` too. -/
structure CString where
  chars : Bytes
  noZero : 0 ∉ chars
  fits : chars.length < 2 ^ 31
  deriving DecidableEq, Repr

/-- Why a fingerprint is not read: the text is none, or it is looked at where
its characters have ended. -/
inductive Unread where
  | rejected
  | outside (index : Nat)
  deriving DecidableEq, Repr

variable (fp : CString) (len : Int)

/-- `fp[pos]`. -/
def inspect (pos : Nat) : Except Unread UInt8 :=
  match fp.chars[pos]? with
  | some c => .ok c
  | none => .error (.outside pos)

/-- `parseHexNibble`. -/
def parseHexNibble (pb : UInt8) : Option UInt8 :=
  if 48 ≤ pb ∧ pb ≤ 57 then some (pb - 48)
  else if 97 ≤ pb ∧ pb ≤ 102 then some (pb - 97 + 10)
  else if 65 ≤ pb ∧ pb ≤ 70 then some (pb - 65 + 10)
  else none

/-- Blanks are spaces and colons. -/
def isBlank (c : UInt8) : Bool := c == 32 || c == 58

/-- The inner loop. -/
def skipBlanks (pos : Nat) : Except Unread Nat :=
  if pos < len then
    match h : fp.chars[pos]? with
    | none => .error (.outside pos)
    | some c => if isBlank c then skipBlanks (pos + 1) else .ok pos
  else .ok pos
termination_by fp.chars.length - pos
decreasing_by
  have := (List.getElem?_eq_some_iff.mp h).1
  omega

/-- One turn of the outer loop: the byte, and the position behind it. The log
message of a pair that is not hexadecimal shows both characters. -/
def parseByte (pos : Nat) : Except Unread (UInt8 × Nat) := do
  let pos ← skipBlanks fp len pos
  if (pos : Int) > len - 2 then
    throw .rejected
  match parseHexNibble (← inspect fp pos) with
  | none =>
    let _ ← inspect fp (pos + 1)
    throw .rejected
  | some high =>
    match parseHexNibble (← inspect fp (pos + 1)) with
    | none => throw .rejected
    | some low => return (low ||| (high <<< 4), pos + 2)

/-- The outer loop, for the turns that are left. -/
def parseBytes : Nat → Nat → Except Unread Bytes
  | 0, _ => return []
  | n + 1, pos => do
    let (b, pos) ← parseByte fp len pos
    return b :: (← parseBytes n pos)

/-- `fingerprint_local`. -/
def fingerprintLocal : Except Unread Bytes := parseBytes fp (int32 fp.chars.length) 32 0

/-- `verify_ssl_fingerprint`, for what `mbedtls_ssl_get_peer_cert` gives. -/
def verifySslFingerprint (sha256 : Bytes → Vector UInt8 32) (crt : Option Certificate) (domainName : Option Bytes) :
    Except Unread Bool := do
  match fingerprintLocal fp with
  | .error .rejected => return false
  | .error (.outside i) => throw (.outside i)
  | .ok D =>
    match crt with
    | none => return false
    | some crt =>
      if D ≠ (sha256 crt.raw).toList then
        return false
      match domainName with
      | some domainName => return verifySslDn crt domainName
      | none => return true

/-! ### The grammar -/

/-- A hexadecimal digit of either case. -/
structure HexDigit where
  value : Fin 16
  upper : Bool
  deriving DecidableEq, Repr

def HexDigit.char (d : HexDigit) : UInt8 :=
  (bytes (if d.upper then "0123456789ABCDEF" else "0123456789abcdef")).getD d.value 0

/-- Blanks and the two digits of a byte. -/
structure Group where
  blanks : Bytes
  blank : ∀ c ∈ blanks, isBlank c = true
  high : HexDigit
  low : HexDigit

def Group.text (g : Group) : Bytes := g.blanks ++ [g.high.char, g.low.char]

def Group.value (g : Group) : UInt8 := UInt8.ofNat (16 * g.high.value + g.low.value)

/-- A text begins with `n` groups that denote the bytes `D`. -/
def BeginsWith (s : Bytes) (n : Nat) (D : Bytes) : Prop :=
  ∃ gs : List Group, gs.length = n ∧ gs.map Group.value = D ∧ gs.flatMap Group.text <+: s

theorem parseHexNibble_char (d : HexDigit) : parseHexNibble d.char = some (UInt8.ofNat d.value) := by
  obtain ⟨v, u⟩ := d
  revert v u
  decide +kernel

theorem parseHexNibble_some {c v : UInt8} (h : parseHexNibble c = some v) :
    ∃ d : HexDigit, d.char = c ∧ UInt8.ofNat d.value = v := by
  have hall : ∀ v ∈ parseHexNibble c, ∃ x : Fin 16, ∃ u, (HexDigit.mk x u).char = c ∧ UInt8.ofNat x = v :=
    forall_byte (P := fun c => ∀ v ∈ parseHexNibble c, ∃ x : Fin 16, ∃ u, (HexDigit.mk x u).char = c ∧ UInt8.ofNat x = v)
      (by decide +kernel) c
  obtain ⟨x, u, hc, hv⟩ := hall v h
  exact ⟨⟨x, u⟩, hc, hv⟩

theorem char_not_blank (d : HexDigit) : isBlank d.char = false := by
  obtain ⟨v, u⟩ := d
  revert v u
  decide +kernel

theorem nibbles_value (high low : Fin 16) :
    UInt8.ofNat low ||| (UInt8.ofNat high <<< 4) = UInt8.ofNat (16 * high + low) := by
  revert high low
  decide +kernel

/-! ### The loops -/

variable {fp len}

theorem skipBlanks_eq (hlen : len = fp.chars.length) (pos : Nat) :
    skipBlanks fp len pos = .ok (pos + ((fp.chars.drop pos).takeWhile isBlank).length) := by
  fun_induction skipBlanks fp len pos with
  | case1 pos hpos hnone =>
    rw [List.getElem?_eq_none_iff] at hnone
    omega
  | case2 pos hpos c hc hblank ih =>
    obtain ⟨hlt, rfl⟩ := List.getElem?_eq_some_iff.mp hc
    rw [ih, List.drop_eq_getElem_cons hlt, List.takeWhile_cons_of_pos hblank, List.length_cons]
    congr 1
    omega
  | case3 pos hpos c hc hblank =>
    obtain ⟨hlt, rfl⟩ := List.getElem?_eq_some_iff.mp hc
    rw [List.drop_eq_getElem_cons hlt, List.takeWhile_cons_of_neg hblank]
    rfl
  | case4 pos hpos =>
    rw [List.drop_eq_nil_of_le (by omega)]
    rfl

/-- What a turn makes of the characters that are left. -/
theorem parseByte_eq (hlen : len = fp.chars.length) {pos : Nat} {m : Bytes} (hm : (fp.chars.drop pos).takeWhile isBlank = m) :
    parseByte fp len pos =
      match fp.chars.drop (pos + m.length) with
      | c :: c' :: _ =>
        match parseHexNibble c, parseHexNibble c' with
        | some high, some low => .ok (low ||| (high <<< 4), pos + m.length + 2)
        | _, _ => .error .rejected
      | _ => .error .rejected := by
  rw [parseByte, skipBlanks_eq hlen, hm]
  generalize pos + m.length = q
  show (if (q : Int) > len - 2 then _ else _) = _
  match hq : fp.chars.drop q with
  | [] | [_] =>
    have hle : fp.chars.length ≤ q + 1 := by
      have := congrArg List.length hq
      simp at this
      omega
    rw [if_pos (by omega)]
    rfl
  | c :: c' :: rest =>
    have hle : q + 2 ≤ fp.chars.length := by
      have := congrArg List.length hq
      simp at this
      omega
    have h₀ : inspect fp q = .ok c := by
      have : fp.chars[q]? = some c := by rw [← List.head?_drop, hq]; rfl
      rw [inspect, this]
    have h₁ : inspect fp (q + 1) = .ok c' := by
      have : fp.chars[q + 1]? = some c' := by rw [← List.head?_drop, ← List.drop_drop, hq]; rfl
      rw [inspect, this]
    rw [if_neg (by omega), h₀, h₁]
    cases hc : parseHexNibble c <;> cases hc' : parseHexNibble c' <;> simp [hc, hc', bind, Except.bind] <;> rfl

theorem parseByte_inside (hlen : len = fp.chars.length) (pos i : Nat) : parseByte fp len pos ≠ .error (.outside i) := by
  intro h
  rw [parseByte_eq hlen rfl] at h
  split at h
  · split at h
    · cases h
    · cases h
  · cases h

theorem parseByte_ok (hlen : len = fp.chars.length) {pos pos' : Nat} {b : UInt8} (h : parseByte fp len pos = .ok (b, pos')) :
    ∃ g : Group, g.text <+: fp.chars.drop pos ∧ g.value = b ∧ pos' = pos + g.text.length := by
  obtain ⟨m, hm⟩ : ∃ m, (fp.chars.drop pos).takeWhile isBlank = m := ⟨_, rfl⟩
  rw [parseByte_eq hlen hm] at h
  split at h
  · rename_i c c' rest hrest
    split at h
    · rename_i high low hhigh hlow
      obtain ⟨rfl, rfl⟩ := Prod.mk.inj (Except.ok.inj h)
      obtain ⟨dh, rfl, rfl⟩ := parseHexNibble_some hhigh
      obtain ⟨dl, rfl, rfl⟩ := parseHexNibble_some hlow
      have hsplit : m ++ fp.chars.drop (pos + m.length) = fp.chars.drop pos := by
        rw [← List.drop_drop]
        exact (List.prefix_iff_eq_append.mp (hm ▸ List.takeWhile_prefix _))
      have hblank : ∀ x ∈ m, isBlank x = true := fun x hx => List.mem_takeWhile_imp (hm ▸ hx)
      refine ⟨⟨m, hblank, dh, dl⟩, ⟨rest, ?_⟩, (nibbles_value _ _).symm, ?_⟩
      · show m ++ [dh.char, dl.char] ++ rest = fp.chars.drop pos
        rw [← hsplit, hrest, List.append_assoc]
        rfl
      · simp [Group.text]
        omega
    · cases h
  · cases h

theorem parseByte_group (hlen : len = fp.chars.length) {pos : Nat} {g : Group} (h : g.text <+: fp.chars.drop pos) :
    parseByte fp len pos = .ok (g.value, pos + g.text.length) := by
  obtain ⟨rest, hrest⟩ := h
  have hdrop : fp.chars.drop pos = g.blanks ++ g.high.char :: g.low.char :: rest := by
    rw [← hrest, Group.text, List.append_assoc]
    rfl
  have hm : (fp.chars.drop pos).takeWhile isBlank = g.blanks := by
    rw [hdrop, List.takeWhile_append_of_pos g.blank, List.takeWhile_cons_of_neg (by simp [char_not_blank]), List.append_nil]
  have htail : fp.chars.drop (pos + g.blanks.length) = g.high.char :: g.low.char :: rest := by
    rw [← List.drop_drop, hdrop, List.drop_left]
  have hpos : pos + g.text.length = pos + g.blanks.length + 2 := by
    simp [Group.text]
    omega
  rw [parseByte_eq hlen hm, htail, hpos]
  simp only [parseHexNibble_char, nibbles_value]
  rfl

theorem parseBytes_inside (hlen : len = fp.chars.length) (n pos i : Nat) : parseBytes fp len n pos ≠ .error (.outside i) := by
  induction n generalizing pos with
  | zero => exact nofun
  | succ n ih =>
    intro h
    rw [parseBytes] at h
    cases hb : parseByte fp len pos with
    | error e =>
      rw [hb] at h
      obtain rfl : e = .outside i := Except.error.inj h
      exact parseByte_inside hlen pos i hb
    | ok r =>
      obtain ⟨b, pos'⟩ := r
      rw [hb] at h
      cases hbs : parseBytes fp len n pos' with
      | error e =>
        refine ih pos' ?_
        simp only [bind, Except.bind, hbs] at h
        rw [hbs, Except.error.inj h]
      | ok bs =>
        simp only [bind, Except.bind, hbs] at h
        cases h

theorem parseBytes_succ {n pos : Nat} {D : Bytes} :
    parseBytes fp len (n + 1) pos = .ok D ↔
      ∃ b pos' bs, parseByte fp len pos = .ok (b, pos') ∧ parseBytes fp len n pos' = .ok bs ∧ D = b :: bs := by
  rw [parseBytes]
  cases hb : parseByte fp len pos with
  | error e => simp [bind, Except.bind]
  | ok r =>
    obtain ⟨b, pos'⟩ := r
    cases hbs : parseBytes fp len n pos' with
    | error e =>
      have hno : ¬ ∃ b' p bs, (b, pos') = (b', p) ∧ parseBytes fp len n p = .ok bs ∧ D = b' :: bs := by
        rintro ⟨b', p, bs, heq, h, -⟩
        obtain ⟨rfl, rfl⟩ := Prod.mk.inj heq
        exact nomatch hbs.symm.trans h
      simp only [bind, Except.bind, hbs, Except.ok.injEq]
      exact iff_of_false nofun hno
    | ok bs =>
      simp only [bind, Except.bind, hbs, pure, Except.pure, Except.ok.injEq]
      constructor
      · rintro rfl
        exact ⟨b, pos', bs, rfl, hbs, rfl⟩
      · rintro ⟨b', p, bs', heq, h, rfl⟩
        obtain ⟨rfl, rfl⟩ := Prod.mk.inj heq
        rw [Except.ok.inj (hbs.symm.trans h)]

/-- The turns that are left read the groups that are left. -/
theorem parseBytes_iff (hlen : len = fp.chars.length) {n pos : Nat} {D : Bytes} :
    parseBytes fp len n pos = .ok D ↔ BeginsWith (fp.chars.drop pos) n D := by
  induction n generalizing pos D with
  | zero =>
    constructor
    · intro h
      obtain rfl : [] = D := Except.ok.inj h
      exact ⟨[], rfl, rfl, List.nil_prefix⟩
    · rintro ⟨gs, hn, rfl, -⟩
      rw [List.eq_nil_of_length_eq_zero hn]
      rfl
  | succ n ih =>
    rw [parseBytes_succ]
    constructor
    · rintro ⟨b, pos', bs, hb, hbs, rfl⟩
      obtain ⟨g, ⟨rest, hg⟩, rfl, rfl⟩ := parseByte_ok hlen hb
      obtain ⟨gs, rfl, rfl, hgs⟩ := ih.mp hbs
      refine ⟨g :: gs, rfl, rfl, ?_⟩
      rw [← List.drop_drop, ← hg, List.drop_left] at hgs
      rw [List.flatMap_cons, ← hg]
      exact (List.prefix_append_right_inj _).mpr hgs
    · rintro ⟨gs, hn, rfl, hgs⟩
      obtain ⟨g, gs, rfl⟩ := List.exists_cons_of_ne_nil (List.ne_nil_of_length_eq_add_one hn)
      rw [List.flatMap_cons] at hgs
      have hg : g.text <+: fp.chars.drop pos := (List.prefix_append _ _).trans hgs
      refine ⟨_, _, _, parseByte_group hlen hg, ih.mpr ⟨gs, Nat.succ.inj hn, rfl, ?_⟩, rfl⟩
      obtain ⟨rest, hrest⟩ := hg
      rw [← hrest] at hgs
      rw [← List.drop_drop, ← hrest, List.drop_left]
      exact (List.prefix_append_right_inj _).mp hgs

theorem strlen_int (fp : CString) : int32 fp.chars.length = fp.chars.length := by
  have hlt := fp.fits
  exact int32_eq (by omega) (by omega)

theorem fingerprintLocal_iff (fp : CString) (D : Bytes) : fingerprintLocal fp = .ok D ↔ BeginsWith fp.chars 32 D := by
  rw [fingerprintLocal, parseBytes_iff (strlen_int fp), List.drop_zero]

/-- The text is read exactly by its grammar and never at its end or beyond;
what is accepted denotes the fingerprint of the certificate there is, of a
certificate whose names are accepted too if a domain is given. -/
theorem verifySslFingerprint_exact (fp : CString) (sha256 : Bytes → Vector UInt8 32) (crt : Option Certificate)
    (domainName : Option Bytes) :
    (∀ D, fingerprintLocal fp = .ok D ↔ BeginsWith fp.chars 32 D) ∧
      (∀ i, fingerprintLocal fp ≠ .error (.outside i)) ∧
      (verifySslFingerprint fp sha256 crt domainName = .ok true ↔
        ∃ crt', crt = some crt' ∧ BeginsWith fp.chars 32 (sha256 crt'.raw).toList ∧
          ∀ name ∈ domainName, verifySslDn crt' name = true) := by
  refine ⟨fingerprintLocal_iff fp, parseBytes_inside (strlen_int fp) 32 0, ?_⟩
  rw [verifySslFingerprint]
  cases hD : fingerprintLocal fp with
  | error e =>
    have hnot (D : Bytes) : ¬ BeginsWith fp.chars 32 D := by
      rw [← fingerprintLocal_iff, hD]
      exact nofun
    cases e with
    | rejected => simp [hnot, pure, Except.pure]
    | outside i => exact absurd hD (parseBytes_inside (strlen_int fp) 32 0 i)
  | ok D =>
    have honly (D' : Bytes) : BeginsWith fp.chars 32 D' ↔ D = D' := by
      rw [← fingerprintLocal_iff, hD, Except.ok.injEq]
    cases crt with
    | none => simp [pure, Except.pure]
    | some crt =>
      by_cases heq : D = (sha256 crt.raw).toList
      · cases domainName <;> simp [honly, ← heq, pure, Except.pure]
      · simp [honly, heq, pure, Except.pure]

/-- A fingerprint of sixteen times two bytes, with both separators and digits of
either case. -/
def pinned : CString := ⟨(List.replicate 16 (bytes ":A9 0f")).flatten, by decide +kernel, by decide +kernel⟩

def digest : Vector UInt8 32 := ⟨(List.replicate 16 [0xA9, 0x0F]).flatten.toArray, by decide⟩

theorem pinned_exact : BeginsWith pinned.chars 32 digest.toList ∧
    verifySslFingerprint pinned (fun _ => digest) (some capitalised) (some (bytes "www.example.com")) = .ok true := by
  obtain ⟨hgrammar, -, haccepts⟩ :=
    verifySslFingerprint_exact pinned (fun _ => digest) (some capitalised) (some (bytes "www.example.com"))
  have hbegins := (hgrammar digest.toList).mp (by decide +kernel)
  refine ⟨hbegins, haccepts.mpr ⟨capitalised, rfl, hbegins, ?_⟩⟩
  rintro _ ⟨⟩
  decide +kernel

end SslVerify

end FEmbed
