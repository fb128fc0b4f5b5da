/-
Response heads, and what `handleHeaderResponse` makes of them.

`ResponseHead` is the grammar: a status line, header fields in any order and
any number, and an empty line. What it means is said field by field, by the
last one with a name (`lastValue`). The client reads exactly the head and
takes this from it, whenever the lines arrive (`HeadDelivery`).
-/
import FEmbedLwip.ChunkedBody
import FEmbedLwip.HTTPCredentials
import Mathlib.Data.List.Forall2

namespace FEmbed

open Live

/-! ## Space and numbers -/

theorem rdropWhile_append_neg {α : Type} {p : α → Bool} (xs : List α) {x : α} (h : p x = false) (ys : List α) :
    (xs ++ x :: ys).rdropWhile p = xs ++ x :: ys.rdropWhile p := by
  have hkeep : (x :: xs.reverse).dropWhile p = x :: xs.reverse := List.dropWhile_cons_of_neg (by simp [h])
  simp only [List.rdropWhile, List.reverse_append, List.reverse_cons, List.append_assoc, List.singleton_append,
    List.dropWhile_append, hkeep]
  split
  · rename_i hys
    rw [List.isEmpty_iff] at hys
    simp [hys]
  · simp

namespace Str

/-- The space in front of a line feed goes with it. -/
theorem trim_cr (s : Bytes) : trim (s ++ [13]) = trim s := by
  rw [trim, List.rdropWhile_concat_pos _ _ _ (by decide), trim]

theorem trim_rdropWhile (s : Bytes) : trim (s.rdropWhile isSpace) = trim s := by
  rw [trim, List.rdropWhile_idempotent, trim]

/-- What starts and goes on with other bytes than space is trimmed behind them. -/
theorem trim_append (xs : Bytes) {b x : UInt8} (hb : (xs ++ [x]).head? = some b) (hspace : isSpace b = false)
    (hx : isSpace x = false) (ys : Bytes) : trim (xs ++ x :: ys) = xs ++ x :: ys.rdropWhile isSpace := by
  rw [trim, rdropWhile_append_neg xs hx]
  cases xs with
  | nil => exact List.dropWhile_cons_of_neg (by simp [hx])
  | cons c xs =>
    obtain rfl : c = b := Option.some.inj hb
    exact List.dropWhile_cons_of_neg (by simp [hspace])

theorem equalsIgnoreCase_symm (s t : Bytes) : equalsIgnoreCase s t = equalsIgnoreCase t s := by
  rw [Bool.eq_iff_iff, equalsIgnoreCase, equalsIgnoreCase, beq_iff_eq, beq_iff_eq]
  exact eq_comm

/-- The number that a string of digits is. -/
theorem toInt_number {ds : Bytes} (hne : ds ≠ []) (hdigit : ∀ b ∈ ds, isDigit 10 b = true) (hlt : ofDigits 10 ds < 2 ^ 31) :
    toInt ds = ofDigits 10 ds := by
  have hnul : ds.takeWhile (· != 0) = ds := by
    refine List.takeWhile_eq_self_iff.mpr fun b hb => ?_
    exact bne_iff_ne.mpr (isDigit_ne (hdigit b hb) (by decide))
  have hall : digits 10 ds = ds := List.takeWhile_eq_self_iff.mpr hdigit
  rw [toInt, hnul, strtol_digits (by rwa [hall]) (fun h => absurd h (by decide)), hall]
  exact clampLong_eq (by omega) (by omega)

end Str

theorem digitVal_lt {base : Nat} {b : UInt8} (h : isDigit base b = true) : (digitVal b).getD 0 < base := by
  rw [isDigit] at h
  split at h
  · rename_i d hd
    rw [hd]
    simpa using h
  · cases h

theorem ofDigits_lt {base : Nat} {ds : Bytes} (h : ∀ b ∈ ds, isDigit base b = true) : ofDigits base ds < base ^ ds.length := by
  rw [ofDigits]
  induction ds using List.reverseRecOn with
  | nil => simp
  | append_singleton ds d ih =>
    have hd := digitVal_lt (h d (by simp))
    have ih := ih fun b hb => h b (by simp [hb])
    rw [List.foldl_append, List.length_append, List.length_singleton, Nat.pow_succ]
    calc _ < ds.foldl (fun v b => v * base + (digitVal b).getD 0) 0 * base + base := by simpa using hd
      _ = (ds.foldl (fun v b => v * base + (digitVal b).getD 0) 0 + 1) * base := (Nat.succ_mul _ _).symm
      _ ≤ base ^ ds.length * base := Nat.mul_le_mul_right base ih

/-! ## Response heads -/

/-- A byte of a token, such as the name of a header field. -/
def isToken (b : UInt8) : Bool :=
  isDigit 36 b || [33, 35, 36, 37, 38, 39, 42, 43, 45, 46, 94, 95, 96, 124, 126].contains b

theorem isToken_spec {b : UInt8} (h : isToken b = true) : isSpace b = false ∧ b ≠ 58 ∧ b ≠ 47 ∧ b ≠ 10 := by
  have hall := forall_byte (P := fun b => isToken b = true → isSpace b = false ∧ b ≠ 58 ∧ b ≠ 47 ∧ b ≠ 10) (by decide +kernel) b
  exact hall h

/-- A header field. The value is what stands behind the colon, with the space
around it; the name fits a `String`, with the colon. -/
structure HeaderField where
  name : Bytes
  value : Bytes
  nonempty : name ≠ []
  token : ∀ b ∈ name, isToken b = true
  line : 10 ∉ value
  fits : name.length + 1 < 2 ^ 32

namespace HeaderField

/-- The line, without its line feed. -/
def text (f : HeaderField) : Bytes := f.name ++ 58 :: (f.value ++ [13])

def render (f : HeaderField) : Bytes := f.text ++ [10]

/-- Whether the name is this one, in whatever case. -/
def named (name : Bytes) (f : HeaderField) : Bool := Str.equalsIgnoreCase f.name name

/-- A line that ends the connection with the response. -/
def closes (f : HeaderField) : Bool :=
  f.named (bytes "Connection") && decide (Str.indexOfStr (Str.trim f.value) (bytes "close") ≥ 0) &&
    decide (Str.indexOfStr (Str.trim f.value) (bytes "keep-alive") < 0)

end HeaderField

/-- The trimmed value of the last field with the name. -/
def lastValue (name : Bytes) (fields : List HeaderField) : Option Bytes :=
  (fields.reverse.find? (·.named name)).map fun f => Str.trim f.value

theorem lastValue_concat (name : Bytes) (fields : List HeaderField) (f : HeaderField) :
    lastValue name (fields ++ [f]) = if f.named name then some (Str.trim f.value) else lastValue name fields := by
  rw [lastValue, List.reverse_append, List.reverse_singleton, List.singleton_append, List.find?_cons, lastValue]
  cases f.named name <;> rfl

/-- A decimal number that fits an `int`. -/
structure IsNumber (ds : Bytes) : Prop where
  nonempty : ds ≠ []
  digit : ∀ b ∈ ds, isDigit 10 b = true
  lt : ofDigits 10 ds < 2 ^ 31

theorem isNumber_iff {ds : Bytes} :
    (!ds.isEmpty && ds.all (isDigit 10) && decide (ofDigits 10 ds < 2 ^ 31)) = true ↔ IsNumber ds := by
  simp only [Bool.and_eq_true, Bool.not_eq_true', List.isEmpty_eq_false_iff, List.all_eq_true, decide_eq_true_eq]
  constructor
  · rintro ⟨⟨hnonempty, hdigit⟩, hlt⟩
    exact ⟨hnonempty, hdigit, hlt⟩
  · intro h
    exact ⟨⟨h.nonempty, h.digit⟩, h.lt⟩

instance {ds : Bytes} : Decidable (IsNumber ds) := decidable_of_iff _ isNumber_iff

/-- The head of a response. -/
structure ResponseHead where
  minor : UInt8
  code : Bytes
  reason : Bytes
  fields : List HeaderField
  minor_digit : isDigit 10 minor = true
  code_length : code.length = 3
  code_digit : ∀ b ∈ code, isDigit 10 b = true
  code_pos : 0 < ofDigits 10 code
  reason_line : 10 ∉ reason
  lengths : ∀ f ∈ fields, f.named (bytes "Content-Length") = true → IsNumber (Str.trim f.value)

namespace ResponseHead

/-- The status line, without its line feed. -/
def status (h : ResponseHead) : Bytes := bytes "HTTP/1." ++ h.minor :: 32 :: (h.code ++ 32 :: (h.reason ++ [13]))

def render (h : ResponseHead) : Bytes := h.status ++ [10] ++ h.fields.flatMap HeaderField.render ++ [13, 10]

/-! What the head says. -/

def encoding (h : ResponseHead) : Option Bytes := lastValue (bytes "Transfer-Encoding") h.fields

/-- The last Transfer-Encoding is "chunked", in whatever case. -/
def chunked (h : ResponseHead) : Bool := h.encoding.any fun value => Str.equalsIgnoreCase value (bytes "chunked")

/-- An empty Transfer-Encoding is taken for none. -/
def result (h : ResponseHead) : Int :=
  if h.encoding.getD [] = [] ∨ h.chunked then ofDigits 10 h.code else HTTPClient.errorEncoding

def sizeOf (fields : List HeaderField) : Int :=
  match lastValue (bytes "Content-Length") fields with
  | some ds => ofDigits 10 ds
  | none => -1

def size (h : ResponseHead) : Int := sizeOf h.fields

/-- The connection may be kept for another request. -/
def keeps (h : ResponseHead) : Bool := h.minor != 48 && h.fields.all fun f => !f.closes

end ResponseHead

/-- A collected header before and after the head. The empty key, which no field
has, is that of the empty line. -/
structure Collected (fields : List HeaderField) (a a' : RequestArgument) : Prop where
  key : a'.key = a.key
  value : a.key ≠ [] → a'.value = (lastValue a.key fields).getD a.value

/-- No two of the collected keys are the same in whatever case. -/
def DistinctKeys (as : List RequestArgument) : Prop := (as.map fun a => a.key.map Str.toLower).Nodup

instance {as : List RequestArgument} : Decidable (DistinctKeys as) := inferInstanceAs (Decidable (List.Nodup _))

/-! ## Lines -/

theorem HeaderField.not_mem_text (f : HeaderField) : 10 ∉ f.text := by
  have hname : 10 ∉ f.name := fun h => (isToken_spec (f.token 10 h)).2.2.2 rfl
  simp [HeaderField.text, hname, f.line]

/-- A header line as it is parsed. -/
theorem HeaderField.trim_text (f : HeaderField) :
    Str.trim f.text = f.name ++ 58 :: (f.value ++ [13]).rdropWhile isSpace := by
  obtain ⟨b, name, hname⟩ := List.exists_cons_of_ne_nil f.nonempty
  refine Str.trim_append _ (b := b) (by rw [hname]; rfl) ?_ (by decide) _
  exact (isToken_spec (f.token b (by simp [hname]))).1

theorem ResponseHead.not_mem_status (h : ResponseHead) : 10 ∉ h.status := by
  have hminor : ¬ 10 = h.minor := (isDigit_ne h.minor_digit (by decide)).symm
  have hcode : 10 ∉ h.code := fun hm => absurd (h.code_digit 10 hm) (by decide)
  have hversion : 10 ∉ bytes "HTTP/1." := by decide
  simp [ResponseHead.status, hminor, hcode, hversion, h.reason_line]

/-- The status line as it is parsed. -/
theorem ResponseHead.trim_status (h : ResponseHead) :
    Str.trim h.status = bytes "HTTP/1." ++ h.minor :: 32 :: (h.code ++ (32 :: (h.reason ++ [13])).rdropWhile isSpace) := by
  obtain hnil | ⟨ds, d, hcode⟩ := List.eq_nil_or_concat h.code
  · have hlen := h.code_length
    rw [hnil] at hlen
    exact nomatch hlen
  · have hd : isSpace d = false := isDigit_not_space (h.code_digit d (by simp [hcode]))
    have htrim := Str.trim_append (bytes "HTTP/1." ++ h.minor :: 32 :: ds) (b := 72) rfl (by decide) hd
      (32 :: (h.reason ++ [13]))
    rw [ResponseHead.status, hcode]
    simpa using htrim

namespace HTTPClient

variable {C : Type}

/-- A token has no slash, so no header line is taken for a status line. -/
theorem startsWith_field (f : HeaderField) (rest : Bytes) : Str.startsWith (f.name ++ 58 :: rest) (bytes "HTTP/1.") = false := by
  by_contra hstart
  obtain ⟨t, ht⟩ := List.isPrefixOf_iff_prefix.mp (Bool.not_eq_false _ ▸ hstart)
  have hname : 58 ∉ f.name := fun h => (isToken_spec (f.token 58 h)).2.1 rfl
  have hversion : 47 ∈ f.name := by
    rw [← @takeWhile_front f.name rest 58 hname, ← ht]
    rw [show bytes "HTTP/1." = [72, 84, 84, 80, 47, 49, 46] from by decide]
    simp
  exact (isToken_spec (f.token 47 hversion)).2.2.1 rfl

theorem headerLine_field (f : HeaderField) (te : Bytes) (c : HTTPClient C) :
    headerLine (Str.trim f.text) te c =
      ({ c with
          _size := if f.named (bytes "Content-Length") then Str.toInt (Str.trim f.value) else c._size
          _canReuse := c._canReuse && !(f.named (bytes "Connection") &&
            decide (Str.indexOfStr (Str.trim f.value) (bytes "close") ≥ 0) &&
            decide (Str.indexOfStr (Str.trim f.value) (bytes "keep-alive") < 0))
          _currentHeaders := collect f.name (Str.trim f.value) c._currentHeaders },
        if f.named (bytes "Transfer-Encoding") then Str.trim f.value else te) := by
  rw [f.trim_text]
  generalize hvalue : (f.value ++ [13]).rdropWhile isSpace = value
  have htrim : Str.trim value = Str.trim f.value := by rw [← hvalue, Str.trim_rdropWhile, Str.trim_cr]
  have hname : 58 ∉ f.name := fun h => (isToken_spec (f.token 58 h)).2.1 rfl
  have hcolon : Str.indexOf (f.name ++ 58 :: value) 58 = (f.name.length : Int) := by
    rw [Str.indexOf_eq, if_pos (by simp), takeWhile_front hname]
  have hfits := f.fits
  have hpos : 0 < f.name.length := List.length_pos_of_ne_nil f.nonempty
  have hleft : Str.substring (f.name ++ 58 :: value) 0 f.name.length = f.name := by
    rw [Str.substring, if_pos (Nat.zero_le _), List.take_left, List.drop_zero]
  have hright : Str.substringFrom (f.name ++ 58 :: value) (f.name.length + 1) = value := by
    rw [Str.substringFrom, Str.substring, if_pos (by simp), List.take_length]
    simp
  rw [headerLine, startsWith_field, if_neg (by decide), hcolon, if_pos (by omega), headerField]
  rw [hcolon, sizeT_natCast (by omega), show ((f.name.length : Int) + 1) = ((f.name.length + 1 : Nat) : Int) from rfl,
    sizeT_natCast hfits, hleft, hright, htrim]
  rfl

/-- The empty line sets the value of an empty key, and no other. -/
theorem headerLine_empty (te : Bytes) (c : HTTPClient C) :
    headerLine [] te c = ({ c with _currentHeaders := collect [] [] c._currentHeaders }, te) := by
  rw [headerLine, if_neg (by decide), if_pos (by decide), headerField]
  simp only [show Str.substring [] 0 (sizeT (Str.indexOf [] 58)) = [] from by decide,
    show Str.trim (Str.substringFrom [] (sizeT (Str.indexOf [] 58 + 1))) = [] from by decide,
    show Str.equalsIgnoreCase [] (bytes "Content-Length") = false from by decide,
    show Str.equalsIgnoreCase [] (bytes "Connection") = false from by decide,
    show Str.equalsIgnoreCase [] (bytes "Transfer-Encoding") = false from by decide]
  simp

/-- The code is what stands behind the version, up to a space or the end. -/
theorem statusLine_code {minor : UInt8} {code rest : Bytes} (hlen : code.length = 3) (hspace : 32 ∉ code)
    (hrest : rest = [] ∨ ∃ t, rest = 32 :: t) (line : Bytes) (hline : line = bytes "HTTP/1." ++ minor :: 32 :: (code ++ rest)) :
    Str.substring line 9 (sizeT (Str.indexOfFrom line 32 9)) = code := by
  have hdrop : line.drop 9 = code ++ rest := by rw [hline]; rfl
  have hbehind : (line.drop 9).findIdx? (· == 32) = if rest = [] then none else some 3 := by
    have hcode : code.findIdx? (· == 32) = none := by
      rw [List.findIdx?_eq_none_iff]
      exact fun b hb => beq_eq_false_iff_ne.mpr fun h => hspace (h ▸ hb)
    rw [hdrop, List.findIdx?_append, hcode]
    rcases hrest with rfl | ⟨t, rfl⟩
    · rfl
    · have hfirst : (32 :: t).findIdx? (· == 32) = some 0 := rfl
      simp [hlen, hfirst]
  rw [Str.indexOfFrom, hbehind]
  rcases hrest with rfl | ⟨t, rfl⟩
  · have hshort : line.length = 12 := by rw [hline]; simp [hlen]; decide
    have hend : sizeT (-1) = 2 ^ 32 - 1 := by decide
    rw [if_pos rfl]
    dsimp only
    rw [hend, Str.substring, if_pos (by decide), List.take_of_length_le (by omega), hdrop, List.append_nil]
  · rw [if_neg (by simp)]
    dsimp only
    rw [sizeT_natCast (by decide), Str.substring, if_pos (by decide), List.drop_take, hdrop]
    exact List.take_left' hlen

theorem headerLine_status (h : ResponseHead) (te : Bytes) (c : HTTPClient C) :
    headerLine (Str.trim h.status) te c =
      ({ c with _canReuse := c._canReuse && h.minor != 48, _returnCode := ofDigits 10 h.code }, te) := by
  rw [h.trim_status]
  generalize hrest : (32 :: (h.reason ++ [13])).rdropWhile isSpace = rest
  have hspaced : rest = [] ∨ ∃ t, rest = 32 :: t := by
    have hpre := hrest ▸ List.rdropWhile_prefix isSpace (32 :: (h.reason ++ [13]))
    cases rest with
    | nil => exact .inl rfl
    | cons b t => exact .inr ⟨t, by rw [(List.cons_prefix_cons.mp hpre).1]⟩
  have hcode : 32 ∉ h.code := fun hm => absurd (h.code_digit 32 hm) (by decide)
  have hlt : ofDigits 10 h.code < 2 ^ 31 :=
    Nat.lt_trans (ofDigits_lt h.code_digit) (by rw [h.code_length]; decide)
  have hne : h.code ≠ [] := fun hnil => by simpa [hnil] using h.code_length
  generalize hline : bytes "HTTP/1." ++ h.minor :: 32 :: (h.code ++ rest) = line
  have hstart : Str.startsWith line (bytes "HTTP/1.") = true := by
    rw [← hline, Str.startsWith, List.isPrefixOf_iff_prefix]
    exact List.prefix_append _ _
  have hminor : Str.charAt line 7 = h.minor := by rw [← hline]; rfl
  rw [headerLine, if_pos hstart, statusLine, hminor, statusLine_code h.code_length hcode hspaced line hline.symm,
    Str.toInt_number hne h.code_digit hlt]

/-! ## Collected headers -/

/-- With distinct keys the first collected header with a name is the only one. -/
theorem collect_eq {as : List RequestArgument} (h : DistinctKeys as) (name value : Bytes) :
    collect name value as = as.map fun a => if Str.equalsIgnoreCase a.key name then { a with value := value } else a := by
  induction as with
  | nil => rfl
  | cons a as ih =>
    rw [DistinctKeys, List.map_cons, List.nodup_cons] at h
    rw [collect, List.map_cons]
    by_cases hname : Str.equalsIgnoreCase a.key name = true
    · rw [if_pos hname, if_pos hname]
      congr 1
      refine (List.map_id as).symm.trans (List.map_congr_left fun b hb => (if_neg fun hbname => h.1 ?_).symm)
      rw [Str.equalsIgnoreCase, beq_iff_eq] at hname hbname
      exact List.mem_map.mpr ⟨b, hb, hbname.trans hname.symm⟩
    · rw [if_neg hname, if_neg hname, ih h.2]

/-- A collected header after some fields. -/
def collected (fields : List HeaderField) (a : RequestArgument) : RequestArgument :=
  { a with value := (lastValue a.key fields).getD a.value }

theorem distinctKeys_collected {as : List RequestArgument} (h : DistinctKeys as) (fields : List HeaderField) :
    DistinctKeys (as.map (collected fields)) := by
  rw [DistinctKeys, List.map_map]
  exact h

/-- One more field is collected. -/
theorem collect_collected {as : List RequestArgument} (h : DistinctKeys as) (fields : List HeaderField) (f : HeaderField) :
    collect f.name (Str.trim f.value) (as.map (collected fields)) = as.map (collected (fields ++ [f])) := by
  rw [collect_eq (distinctKeys_collected h fields), List.map_map]
  refine List.map_congr_left fun a _ => ?_
  have hkey : Str.equalsIgnoreCase (collected fields a).key f.name = f.named a.key := Str.equalsIgnoreCase_symm _ _
  rw [Function.comp_apply, hkey, collected, collected, lastValue_concat]
  split <;> rfl

/-- The empty line leaves what is collected as it is, but for an empty key. -/
theorem collect_empty {as : List RequestArgument} (h : DistinctKeys as) (fields : List HeaderField) :
    List.Forall₂ (Collected fields) as (collect [] [] (as.map (collected fields))) := by
  rw [collect_eq (distinctKeys_collected h fields), List.map_map, List.forall₂_map_right_iff, List.forall₂_same]
  intro a _
  rw [Function.comp_apply]
  split
  · rename_i hempty
    refine ⟨rfl, fun hne => absurd ?_ hne⟩
    simpa [Str.equalsIgnoreCase, collected] using hempty
  · exact ⟨rfl, fun _ => rfl⟩

/-! ## A head in the client -/

/-- The client that is told by the status line and some fields, and the
Transfer-Encoding so far. -/
structure HeadRead (c₀ : HTTPClient C) (h : ResponseHead) (fields : List HeaderField) (te : Bytes) (c : HTTPClient C) : Prop where
  client : c._client = c₀._client
  tcpTimeout : c._tcpTimeout = c₀._tcpTimeout
  returnCode : c._returnCode = ofDigits 10 h.code
  size : c._size = ResponseHead.sizeOf fields
  transferEncoding : c._transferEncoding = .identity
  encoding : te = (lastValue (bytes "Transfer-Encoding") fields).getD []
  currentHeaders : c._currentHeaders = c₀._currentHeaders.map (collected fields)

theorem HeadRead.field {c₀ c : HTTPClient C} {h : ResponseHead} {fields : List HeaderField} {te : Bytes} {f : HeaderField}
    (hkeys : DistinctKeys c₀._currentHeaders)
    (hlength : f.named (bytes "Content-Length") = true → IsNumber (Str.trim f.value)) (ht : HeadRead c₀ h fields te c) :
    HeadRead c₀ h (fields ++ [f]) (headerLine (Str.trim f.text) te c).2 (headerLine (Str.trim f.text) te c).1 := by
  rw [headerLine_field]
  refine ⟨ht.client, ht.tcpTimeout, ht.returnCode, ?_, ht.transferEncoding, ?_, ?_⟩
  · rw [ResponseHead.sizeOf, lastValue_concat]
    cases hname : f.named (bytes "Content-Length") with
    | true =>
      obtain ⟨hne, hdigit, hlt⟩ := hlength hname
      exact Str.toInt_number hne hdigit hlt
    | false => exact ht.size
  · rw [lastValue_concat]
    cases f.named (bytes "Transfer-Encoding") with
    | true => rfl
    | false => exact ht.encoding
  · rw [← collect_collected hkeys, ← ht.currentHeaders]

/-- The client and the Transfer-Encoding after some fields. -/
def taken (fields : List HeaderField) (te : Bytes) (c : HTTPClient C) : HTTPClient C × Bytes :=
  fields.foldl (fun x f => headerLine (Str.trim f.text) x.2 x.1) (c, te)

theorem taken_cons (f : HeaderField) (fields : List HeaderField) (te : Bytes) (c : HTTPClient C) :
    taken (f :: fields) te c = taken fields (headerLine (Str.trim f.text) te c).2 (headerLine (Str.trim f.text) te c).1 := rfl

/-- The fields of a head change the size, the collected headers, and whether
the connection is kept. -/
theorem taken_changes (fields : List HeaderField) (te : Bytes) (c : HTTPClient C) :
    ∃ size headers, (taken fields te c).1 = { c with
      _size := size, _currentHeaders := headers, _canReuse := c._canReuse && fields.all fun f => !f.closes } := by
  induction fields generalizing te c with
  | nil => exact ⟨c._size, c._currentHeaders, by rw [taken, List.foldl_nil, List.all_nil, Bool.and_true]⟩
  | cons f fields ih =>
    rw [taken_cons, headerLine_field]
    obtain ⟨size, headers, h⟩ := ih (if f.named (bytes "Transfer-Encoding") then Str.trim f.value else te) { c with
      _size := if f.named (bytes "Content-Length") then Str.toInt (Str.trim f.value) else c._size
      _canReuse := c._canReuse && !f.closes
      _currentHeaders := collect f.name (Str.trim f.value) c._currentHeaders }
    refine ⟨size, headers, h.trans ?_⟩
    rw [List.all_cons, Bool.and_assoc]

theorem taken_read {c₀ : HTTPClient C} {h : ResponseHead} (hkeys : DistinctKeys c₀._currentHeaders) {todo done : List HeaderField}
    (hfields : h.fields = done ++ todo) {te : Bytes} {c : HTTPClient C} (hread : HeadRead c₀ h done te c) :
    HeadRead c₀ h h.fields (taken todo te c).2 (taken todo te c).1 := by
  induction todo generalizing done te c with
  | nil =>
    rw [List.append_nil] at hfields
    exact hfields ▸ hread
  | cons f todo ih =>
    have hlength := h.lengths f (by rw [hfields]; simp)
    rw [taken_cons]
    exact ih (by rw [hfields, List.append_assoc, List.singleton_append]) (hread.field hkeys hlength)

/-- What the client takes from a head. -/
structure HeadTaken (h : ResponseHead) (c c' : HTTPClient C) : Prop where
  size : c'._size = h.size
  transferEncoding : c'._transferEncoding = .chunked ↔ h.chunked
  currentHeaders : List.Forall₂ (Collected h.fields) c._currentHeaders c'._currentHeaders

/-- What the empty line concludes. -/
theorem HeadRead.concludes {c₀ c : HTTPClient C} {h : ResponseHead} {te : Bytes} (hkeys : DistinctKeys c₀._currentHeaders)
    (ht : HeadRead c₀ h h.fields te c) (e : C) :
    ∃ c', (endOfHead te).Returns ⟨(headerLine [] te c).1, e⟩ h.result ⟨c', e⟩ ∧ HeadTaken h c₀ c' := by
  rw [headerLine_empty]
  set c₁ : HTTPClient C := { c with _currentHeaders := collect [] [] c._currentHeaders } with hc₁
  have hheaders : List.Forall₂ (Collected h.fields) c₀._currentHeaders c₁._currentHeaders := by
    rw [hc₁, ht.currentHeaders]
    exact collect_empty hkeys h.fields
  have hcode : c₁._returnCode ≠ 0 := by
    have hpos := h.code_pos
    rw [show c₁._returnCode = c._returnCode from rfl, ht.returnCode]
    omega
  have hte : te = h.encoding.getD [] := ht.encoding
  rw [endOfHead]
  by_cases hempty : te = []
  · -- An absent Transfer-Encoding, or an empty one.
    have hchunked : h.chunked = false := by
      rw [hte] at hempty
      rw [ResponseHead.chunked]
      cases henc : h.encoding with
      | none => rfl
      | some value =>
        rw [henc] at hempty
        obtain rfl : value = [] := hempty
        decide
    refine ⟨{ c₁ with _transferEncoding := .identity }, ?_, ⟨ht.size, by simp [hchunked], hheaders⟩⟩
    rw [if_neg (fun hne => hne hempty), returns_set_bind, returns_obj_bind, Prog.returns_pure, if_pos hcode,
      ResponseHead.result, if_pos (.inl (hte ▸ hempty))]
    exact ⟨ht.returnCode.symm, rfl⟩
  · obtain ⟨value, henc⟩ : ∃ value, h.encoding = some value := by
      cases henc : h.encoding with
      | none => exact absurd (by rw [hte, henc]; rfl) hempty
      | some value => exact ⟨value, rfl⟩
    have hvalue : te = value := by rw [hte, henc]; rfl
    have hchunked : h.chunked = Str.equalsIgnoreCase te (bytes "chunked") := by
      rw [ResponseHead.chunked, henc, hvalue]
      rfl
    rw [if_pos hempty]
    by_cases hch : Str.equalsIgnoreCase te (bytes "chunked") = true
    · refine ⟨{ c₁ with _transferEncoding := .chunked }, ?_, ⟨ht.size, by simp [hchunked, hch], hheaders⟩⟩
      rw [if_pos hch, returns_set_bind, returns_obj_bind, Prog.returns_pure, if_pos hcode, ResponseHead.result,
        if_pos (.inr (hchunked.trans hch))]
      exact ⟨ht.returnCode.symm, rfl⟩
    · refine ⟨c₁, ?_, ⟨ht.size, ?_, hheaders⟩⟩
      · rw [if_neg hch, Prog.returns_pure, ResponseHead.result, if_neg]
        · exact ⟨rfl, rfl⟩
        · rintro (hnil | hyes)
          · exact hempty (hte.trans hnil)
          · exact hch (hchunked.symm.trans hyes)
      · rw [hchunked, show c₁._transferEncoding = .identity from ht.transferEncoding]
        exact ⟨nofun, fun hyes => absurd hyes hch⟩

/-- The client that has the status line of a response. -/
def answered (h : ResponseHead) (c : HTTPClient C) : HTTPClient C := { c with
  _returnCode := ofDigits 10 h.code
  _size := -1
  _headers := []
  _canReuse := c._reuse && h.minor != 48
  _transferEncoding := .identity }

theorem answered_read (h : ResponseHead) (c : HTTPClient C) : HeadRead c h [] [] (answered h c) :=
  ⟨rfl, rfl, rfl, rfl, rfl, rfl, (List.map_id _).symm⟩

/-- What the client has of a response whose head was read. -/
structure Answered (h : ResponseHead) (c c' : HTTPClient C) : Prop where
  taken : HeadTaken h c c'
  client : c'._client = c._client
  reuse : c'._reuse = c._reuse
  tcpTimeout : c'._tcpTimeout = c._tcpTimeout
  canReuse : c'._canReuse = (c._reuse && h.keeps)

theorem endOfHead_same (te : Bytes) : (endOfHead te : Prog (Live C (HTTPClient C)) Int).Guarantees
    (.same fun s => (s.self._client, s.self._reuse, s.self._tcpTimeout, s.self._canReuse)) := by
  refine .ite (.ite (.bind (guarantees_set fun _ => rfl) fun _ => ?_) .pure) (.bind (guarantees_set fun _ => rfl) fun _ => ?_)
  · exact .bind guarantees_obj fun _ => .pure
  · exact .bind guarantees_obj fun _ => .pure

/-- The end of a head: the result, and what the client has then. -/
theorem endOfHead_answers {h : ResponseHead} {c : HTTPClient C} (hkeys : DistinctKeys c._currentHeaders) (e : C) :
    ∃ c', (endOfHead (taken h.fields [] (answered h c)).2).Returns
      ⟨(headerLine [] (taken h.fields [] (answered h c)).2 (taken h.fields [] (answered h c)).1).1, e⟩ h.result ⟨c', e⟩ ∧
      Answered h c c' := by
  obtain ⟨c', hend, htaken⟩ := (taken_read hkeys rfl (answered_read h c)).concludes hkeys e
  obtain ⟨size, headers, hchanges⟩ := taken_changes h.fields [] (answered h c)
  have hsame := endOfHead_same _ _ _ _ hend
  rw [headerLine_empty, hchanges] at hsame
  obtain ⟨hclient, hreuse, htimeout, hcan⟩ : c'._client = c._client ∧ c'._reuse = c._reuse ∧ c'._tcpTimeout = c._tcpTimeout ∧
      c'._canReuse = (c._reuse && h.minor != 48 && h.fields.all fun f => !f.closes) := by
    simpa [Prog.Guarantee.same, answered] using hsame
  refine ⟨c', hend, ⟨htaken.size, htaken.transferEncoding, htaken.currentHeaders⟩, hclient, hreuse, htimeout, ?_⟩
  rw [hcan, ResponseHead.keeps, Bool.and_assoc]

end HTTPClient

/-! ## A head that arrives -/

/-- What is looked at: whether the connection is up, the bytes of the peer that
are still to be read, the time in milliseconds, and the time by which the next
of the bytes are there. -/
structure HeadView (C : Type) where
  up : C → Prop
  unread : C → Bytes
  clock : C → Nat
  due : C → Nat

/-- Nothing is read; time may pass. -/
structure HeadView.Still {C : Type} (v : HeadView C) (e e' : C) : Prop where
  up : v.up e'
  unread : v.unread e' = v.unread e
  due : v.due e' = v.due e
  clock : v.clock e ≤ v.clock e'

theorem HeadView.Still.trans {C : Type} {v : HeadView C} {e e' e'' : C} (h : v.Still e e') (h' : v.Still e' e'') :
    v.Still e e'' :=
  ⟨h'.up, h'.unread.trans h.unread, h'.due.trans h.due, Nat.le_trans h.clock h'.clock⟩

/-- The connection `r` stays up and delivers the lines of a head in any pieces.
There is something to read unless the next bytes are not due; a line is read
completely; and the next one is due within the timeout, if there is one. -/
structure HeadDelivery {C : Type} (net : Connection C) (r : Ref) (timeout : Nat) extends HeadView C where
  available : ∀ e, up e → ∃ a e', (net.available r).Returns e a e' ∧ toHeadView.Still e e' ∧
    (sizeT a = 0 → unread e ≠ [] → clock e' < due e')
  connected : ∀ e, up e → ∃ e', (net.connected r).Returns e true e' ∧ toHeadView.Still e e'
  readLine : ∀ e line rest, up e → unread e = line ++ 10 :: rest → 10 ∉ line →
    ∃ e', (net.readStringUntil r 10).Returns e line e' ∧ up e' ∧ unread e' = rest ∧ clock e ≤ clock e' ∧
      (Str.trim line ≠ [] → due e' ≤ clock e' + timeout)
  millis : ∀ e, up e → ∃ e', net.millis.Returns e (clock e % 2 ^ 32) e' ∧ toHeadView.Still e e'
  delay : ∀ n e, up e → ∃ e', (net.delay n).Returns e () e' ∧ toHeadView.Still e e' ∧ clock e + n ≤ clock e'

namespace HTTPClient

variable {C : Type} {net : Connection C} {r : Ref} {timeout : Nat} (D : HeadDelivery net r timeout) {c : HTTPClient C}

include D

theorem connected_still (hc : c._client = some r) {e : C} (hup : D.up e) :
    ∃ e', (connected net).Returns ⟨c, e⟩ true ⟨c, e'⟩ ∧ D.Still e e' := by
  obtain ⟨a, e₁, ha, hs, -⟩ := D.available e hup
  rw [connected]
  simp only [returns_obj_bind, hc]
  by_cases hpos : a > 0
  · refine ⟨e₁, ?_, hs⟩
    rw [returns_outside_bind ha, if_pos hpos]
    simp
  · obtain ⟨e₂, hcon, hs'⟩ := D.connected e₁ hs.up
    refine ⟨e₂, ?_, hs.trans hs'⟩
    rw [returns_outside_bind ha, if_neg hpos, returns_outside]
    exact ⟨e₂, hcon, rfl⟩

/-- What is waited for comes in time: `start` is when the last data was seen. -/
structure InTime (e : C) (l : HeadState) : Prop where
  up : D.up e
  seen : ∃ start, l.lastDataTime = start % 2 ^ 32 ∧ start ≤ D.clock e ∧ D.due e ≤ start + timeout

omit D in
/-- A time is not over if the clock did not pass it, however it wraps. -/
theorem elapsed_le {start now timeout : Nat} (hle : start ≤ now) (hlt : now ≤ start + timeout) :
    ¬ sizeT (((now % 2 ^ 32 : Nat) : Int) - ((start % 2 ^ 32 : Nat) : Int)) > timeout := by
  rw [sizeT]
  omega

/-- A line is waited for and read: the loop goes on behind it, or ends with the
empty one. -/
theorem headLoop_reads (line : Bytes) (hc : c._client = some r) (htimeout : c._tcpTimeout = timeout) {l : HeadState} {e : C}
    (ht : InTime D e l) {rest : Bytes} (hun : D.unread e = line ++ 10 :: rest) (hline : 10 ∉ line) :
    ∃ now e', D.up e' ∧ D.unread e' = rest ∧
      (Str.trim line ≠ [] → InTime D e' { transferEncoding := (headerLine (Str.trim line) l.transferEncoding c).2, lastDataTime := now }) ∧
      ∀ out s', (if Str.trim line = [] then
            (endOfHead (headerLine (Str.trim line) l.transferEncoding c).2).Returns
              ⟨(headerLine (Str.trim line) l.transferEncoding c).1, e'⟩ out s'
          else (Prog.loop (headTurn net)
              { transferEncoding := (headerLine (Str.trim line) l.transferEncoding c).2, lastDataTime := now }).Returns
              ⟨(headerLine (Str.trim line) l.transferEncoding c).1, e'⟩ out s') →
        (Prog.loop (headTurn net) l).Returns ⟨c, e⟩ out s' := by
  -- By induction on the time that is left.
  generalize hleft : D.due e - D.clock e = left
  induction left using Nat.strongRecOn generalizing e with
  | _ left ih =>
    obtain ⟨start, hseen, hstart, hdue⟩ := ht.seen
    obtain ⟨e₁, hcon, hs₁⟩ := connected_still D hc ht.up
    obtain ⟨a, e₂, ha, hs₂, hwait⟩ := D.available e₁ hs₁.up
    have hs := hs₁.trans hs₂
    by_cases hnone : sizeT a = 0
    · have hearly : D.clock e₂ < D.due e := by
        rw [← hs.due]
        exact hwait hnone (by rw [hs₁.unread, hun]; simp)
      obtain ⟨e₃, hmillis, hs₃⟩ := D.millis e₂ hs.up
      obtain ⟨e₄, hdelay, hs₄, hpassed⟩ := D.delay 10 e₃ hs₃.up
      have hstill := (hs.trans hs₃).trans hs₄
      have hclock : D.clock e + 10 ≤ D.clock e₄ := Nat.le_trans (Nat.add_le_add_right (hs.trans hs₃).clock 10) hpassed
      have hdue' : D.due e₄ = D.due e := hstill.due
      have hclock₂ := hs.clock
      obtain ⟨now, e', hup', hun', hin', hgo⟩ := ih (D.due e₄ - D.clock e₄) (by omega)
        ⟨hstill.up, start, hseen, by omega, by omega⟩ (hstill.unread.trans hun) rfl
      refine ⟨now, e', hup', hun', hin', fun out s' hout => Prog.returns_loop.mpr (.inr ⟨l, ⟨c, e₄⟩, ?_, hgo out s' hout⟩)⟩
      rw [headTurn, Prog.returns_bind_of hcon, if_neg (fun h => h rfl), returns_onClient_bind hc ha, if_neg (by omega),
        returns_outside_bind hmillis, returns_obj_bind, hseen, htimeout, if_neg (elapsed_le (by omega) (by omega)),
        returns_outside_bind hdelay]
      simp
    · obtain ⟨e₃, hread, hup₃, hun₃, -, hnext⟩ := D.readLine e₂ line rest hs.up (hs.unread.trans hun) hline
      obtain ⟨e₄, hmillis, hs₄⟩ := D.millis e₃ hup₃
      have hclock₄ := hs₄.clock
      refine ⟨D.clock e₃ % 2 ^ 32, e₄, hs₄.up, hs₄.unread.trans hun₃, fun hne => ⟨hs₄.up, D.clock e₃, rfl, hclock₄, ?_⟩,
        fun out s' hout => Prog.returns_loop.mpr ?_⟩
      · rw [hs₄.due]
        exact hnext hne
      · have hturn : ∀ x t, (headTurn net l).Returns ⟨c, e⟩ x t ↔ _ := fun x t => by
          rw [headTurn, Prog.returns_bind_of hcon, if_neg (fun h => h rfl), returns_onClient_bind hc ha,
            if_pos (Nat.pos_of_ne_zero hnone), returns_onClient_bind hc hread, returns_outside_bind hmillis,
            returns_obj_bind, returns_set_bind]
        split at hout
        · rename_i hempty
          refine .inl ((hturn _ _).mpr ?_)
          rw [if_pos hempty, Prog.returns_bind]
          exact ⟨out, s', hout, by simp⟩
        · rename_i hne
          refine .inr ⟨_, _, (hturn _ _).mpr ?_, hout⟩
          rw [if_neg hne, Prog.returns_pure]
          exact ⟨rfl, rfl⟩

/-- Fields are taken one after the other, up to the empty line. -/
theorem headLoop_takes {rest : Bytes} {todo : List HeaderField} {te : Bytes} {now : Nat} {c : HTTPClient C} {e : C}
    (hc : c._client = some r) (htimeout : c._tcpTimeout = timeout)
    (ht : InTime D e { transferEncoding := te, lastDataTime := now }) (hun : D.unread e = todo.flatMap HeaderField.render ++ [13, 10] ++ rest) :
    ∃ e', D.up e' ∧ D.unread e' = rest ∧ ∀ out s',
      (endOfHead (taken todo te c).2).Returns ⟨(headerLine [] (taken todo te c).2 (taken todo te c).1).1, e'⟩ out s' →
      (Prog.loop (headTurn net) { transferEncoding := te, lastDataTime := now }).Returns ⟨c, e⟩ out s' := by
  induction todo generalizing te now c e with
  | nil =>
    obtain ⟨_, e', hup', hun', -, hgo⟩ := headLoop_reads D [13] hc htimeout ht hun (by decide)
    have hempty : Str.trim [13] = [] := rfl
    refine ⟨e', hup', hun', fun out s' hout => hgo out s' ?_⟩
    have hte : (headerLine [] te c).2 = te := by rw [headerLine_empty]
    rw [if_pos hempty, hempty, hte]
    exact hout
  | cons f todo ih =>
    have hsplit : D.unread e = f.text ++ 10 :: (todo.flatMap HeaderField.render ++ [13, 10] ++ rest) := by
      rw [hun, List.flatMap_cons, HeaderField.render]
      simp
    obtain ⟨now', e₁, hup₁, hun₁, hin₁, hgo⟩ := headLoop_reads D _ hc htimeout ht hsplit f.not_mem_text
    have hne : Str.trim f.text ≠ [] := by rw [f.trim_text]; simp
    have hsame : (headerLine (Str.trim f.text) te c).1._client = c._client ∧
        (headerLine (Str.trim f.text) te c).1._tcpTimeout = c._tcpTimeout := by
      rw [headerLine_field]
      exact ⟨rfl, rfl⟩
    obtain ⟨e', hup', hun', hloop⟩ := ih (hsame.1.trans hc) (hsame.2.trans htimeout) (hin₁ hne) hun₁
    refine ⟨e', hup', hun', fun out s' hout => hgo out s' ?_⟩
    rw [if_neg hne]
    exact hloop out s' hout

theorem handleHeaderResponse_answers (h : ResponseHead) (rest : Bytes)
    (hc : c._client = some r) (htimeout : c._tcpTimeout = timeout) (hkeys : DistinctKeys c._currentHeaders) {e : C} (hup : D.up e)
    (hun : D.unread e = h.render ++ rest) (hdue : D.due e ≤ D.clock e + timeout) :
    ∃ c' e', (handleHeaderResponse net).Returns ⟨c, e⟩ h.result ⟨c', e'⟩ ∧ Answered h c c' ∧ D.up e' ∧ D.unread e' = rest := by
  obtain ⟨e₁, hcon, hs₁⟩ := connected_still D hc hup
  obtain ⟨e₂, hmillis, hs₂⟩ := D.millis e₁ hs₁.up
  let c₁ : HTTPClient C := { c with
    _returnCode := 0, _size := -1, _headers := [], _canReuse := c._reuse, _transferEncoding := .identity }
  have hclock := hs₁.clock
  have hclock₂ := hs₂.clock
  have hdue₂ : D.due e₂ = D.due e := (hs₁.trans hs₂).due
  have hin : InTime D e₂ { lastDataTime := D.clock e₁ % 2 ^ 32 } := ⟨hs₂.up, D.clock e₁, rfl, hclock₂, by omega⟩
  have hsplit : D.unread e₂ = h.status ++ 10 :: (h.fields.flatMap HeaderField.render ++ [13, 10] ++ rest) := by
    rw [(hs₁.trans hs₂).unread, hun, ResponseHead.render]
    simp
  obtain ⟨now, e₃, hup₃, hun₃, hin₃, hgo⟩ := headLoop_reads D h.status (c := c₁) hc htimeout hin hsplit h.not_mem_status
  have hne : Str.trim h.status ≠ [] := by rw [h.trim_status]; simp
  rw [headerLine_status] at hin₃ hgo
  obtain ⟨e₄, hup₄, hun₄, hloop⟩ := headLoop_takes D (c := answered h c) hc htimeout (hin₃ hne) hun₃
  obtain ⟨c', hend, hanswered⟩ := endOfHead_answers (h := h) hkeys e₄
  refine ⟨c', e₄, ?_, hanswered, hup₄, hun₄⟩
  rw [handleHeaderResponse, Prog.returns_bind_of hcon, if_neg (fun h => h rfl), clear, returns_set_bind, returns_set_bind,
    returns_outside_bind hmillis]
  refine hgo _ _ ?_
  rw [if_neg hne]
  exact hloop _ _ hend

/-- **A response head is read exactly, and taken for what it says**, whenever
its lines arrive in time. -/
theorem handleHeaderResponse_parses (h : ResponseHead) (rest : Bytes) (hc : c._client = some r)
    (htimeout : c._tcpTimeout = timeout) (hkeys : DistinctKeys c._currentHeaders) {e : C} (hup : D.up e)
    (hun : D.unread e = h.render ++ rest) (hdue : D.due e ≤ D.clock e + timeout) :
    ∃ c' e', (handleHeaderResponse net).Returns ⟨c, e⟩ h.result ⟨c', e'⟩ ∧ HeadTaken h c c' ∧ D.up e' ∧ D.unread e' = rest := by
  obtain ⟨c', e', hparse, hanswered, hup', hun'⟩ := handleHeaderResponse_answers D h rest hc htimeout hkeys hup hun hdue
  exact ⟨c', e', hparse, hanswered.taken, hup', hun'⟩

end HTTPClient

namespace HeadDemo

open Prog (step)

/-- The outside of the example: a peer's lines, each 15 ms after the one before
it was read, and a clock that wraps while they come. -/
structure Host where
  unread : Bytes
  clock : Nat := 2 ^ 32 - 20
  due : Nat := 2 ^ 32
  deriving DecidableEq, Repr

def poll (e : Host) : Int := if e.clock < e.due then 0 else (min 3 e.unread.length : Nat)

def connection : Connection Host where
  create _ := pure 0
  release _ := pure ()
  setCACert _ _ := pure ()
  setCertificate _ _ := pure ()
  setPrivateKey _ _ := pure ()
  connect _ _ _ _ := pure 0
  setTimeout _ _ := pure ()
  write _ bs := pure bs.length
  getWriteError _ := pure 0
  clearWriteError _ := pure ()
  available _ := step fun e => (poll e, e)
  read _ := pure (-1)
  readBytes _ _ := pure []
  readStringUntil _ c := step fun e =>
    (e.unread.takeWhile (· != c), { e with unread := (e.unread.dropWhile (· != c)).tail, due := e.clock + 15 })
  connected _ := pure true
  stop _ := pure ()
  malloc n := pure (some (List.replicate n 0))
  millis := step fun e => (e.clock % 2 ^ 32, e)
  delay n := step fun e => ((), { e with clock := e.clock + n })
  base64Encode bs := bs

def delivery : HeadDelivery connection 0 60000 where
  up _ := True
  unread := Host.unread
  clock := Host.clock
  due := Host.due
  available e _ := by
    refine ⟨poll e, e, Prog.returns_step.mpr rfl, ⟨trivial, rfl, rfl, Nat.le_refl _⟩, fun hzero hne => ?_⟩
    by_contra hlate
    have hpos := List.length_pos_of_ne_nil hne
    rw [poll, if_neg hlate, sizeT_natCast (by omega)] at hzero
    omega
  connected e _ := ⟨e, by simp [connection], trivial, rfl, rfl, Nat.le_refl _⟩
  readLine e line rest _ hun hline := by
    refine ⟨{ e with unread := rest, due := e.clock + 15 }, ?_, trivial, rfl, Nat.le_refl _, fun _ => Nat.add_le_add_left (by decide) _⟩
    have hdrop : (line ++ 10 :: rest).dropWhile (· != 10) = 10 :: rest := by
      rw [List.dropWhile_append_of_pos fun b hb => bne_iff_ne.mpr (ne_of_mem_of_not_mem hb hline)]
      rfl
    refine Prog.returns_step.mpr ?_
    rw [hun, takeWhile_front hline, hdrop]
    rfl
  millis e _ := ⟨e, Prog.returns_step.mpr rfl, trivial, rfl, rfl, Nat.le_refl _⟩
  delay n e _ := ⟨_, Prog.returns_step.mpr rfl, ⟨trivial, rfl, rfl, Nat.le_add_right _ _⟩, Nat.le_refl _⟩

/-- A field with a short name and value. -/
def field (name value : Bytes) (hname : name ≠ [] ∧ (∀ b ∈ name, isToken b = true) ∧ name.length < 100 := by decide +kernel)
    (hvalue : 10 ∉ value := by decide +kernel) : HeaderField where
  name := name
  value := value
  nonempty := hname.1
  token := hname.2.1
  line := hvalue
  fits := by have := hname.2.2; omega

def head (fields : List HeaderField)
    (h : ∀ f ∈ fields, f.named (bytes "Content-Length") = true → IsNumber (Str.trim f.value) := by decide +kernel) : ResponseHead where
  minor := 49
  code := bytes "200"
  reason := bytes "OK"
  fields := fields
  minor_digit := by decide
  code_length := by decide
  code_digit := by decide +kernel
  code_pos := by decide
  reason_line := by decide
  lengths := h

def twice : ResponseHead :=
  head [field (bytes "X-A") (bytes " 1"), field (bytes "content-length") (bytes " 5"),
    field (bytes "Transfer-Encoding") (bytes " Chunked"), field (bytes "x-a") (bytes " 2")]

def unencoded : ResponseHead := head [field (bytes "Transfer-Encoding") [] (by decide +kernel) List.not_mem_nil]

def client : HTTPClient Host := { _client := some 0, _currentHeaders := [{ key := bytes "X-A" }] }

end HeadDemo

/-- The clock wraps while the lines come; of two fields with the name of the
collected header the last counts. -/
theorem HTTPClient.twice_parses : ∃ c' e', (handleHeaderResponse HeadDemo.connection).Returns
    ⟨HeadDemo.client, { unread := HeadDemo.twice.render ++ bytes "body" }⟩ 200 ⟨c', e'⟩ ∧ c'._size = 5 ∧
    c'._transferEncoding = .chunked ∧ c'._currentHeaders.map (·.value) = [bytes "2"] ∧ e'.unread = bytes "body" := by
  obtain ⟨c', e', h, htaken, -, hun⟩ := handleHeaderResponse_parses HeadDemo.delivery HeadDemo.twice (bytes "body")
    (c := HeadDemo.client) rfl rfl (by decide +kernel) (e := { unread := HeadDemo.twice.render ++ bytes "body" }) trivial rfl
    (by decide)
  have hresult : HeadDemo.twice.result = 200 := by decide +kernel
  have hsize : HeadDemo.twice.size = 5 := by decide +kernel
  refine ⟨c', e', hresult ▸ h, htaken.size.trans hsize, htaken.transferEncoding.mpr (by decide +kernel), ?_, hun⟩
  obtain ⟨a, as, ha, has, hcurrent⟩ := List.forall₂_cons_left_iff.mp htaken.currentHeaders
  obtain rfl := List.forall₂_nil_left_iff.mp has
  rw [hcurrent, List.map_singleton, ha.value (by decide)]
  congr 1

/-- An empty Transfer-Encoding is present and not "chunked", and the response is taken. -/
theorem HTTPClient.not_rejects_empty : ¬ ∀ (h : ResponseHead) (e : HeadDemo.Host), e.unread = h.render →
    e.due ≤ e.clock + 60000 → h.encoding.isSome = true → h.chunked = false →
    ∃ s', (handleHeaderResponse HeadDemo.connection).Returns ⟨HeadDemo.client, e⟩ errorEncoding s' := by
  intro hall
  obtain ⟨s', h⟩ := hall HeadDemo.unencoded { unread := HeadDemo.unencoded.render } rfl (by decide) (by decide +kernel)
    (by decide +kernel)
  have hrun : (handleHeaderResponse HeadDemo.connection).Returns
      ⟨HeadDemo.client, { unread := HeadDemo.unencoded.render }⟩ 200 _ := .of_run 40 (by decide +kernel)
  exact absurd (h.det hrun).1 (by decide)

end FEmbed
