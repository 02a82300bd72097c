import Formulary.Proofs.Number.Hexadecimal
import Formulary.Proofs.Source.Rescanning
import Formulary.Source.Grammar

/-!
# What the bodies of strings denote

* `Denotes`, `Undenoting` : what a body denotes, sequence by sequence, and what no sequence begins;
* `WritesCode`, `CodePlaces` : the digits of a code point, and what is taken for them;
* `decode_eq_ok_iff`, `decode_eq_error_iff` : bodies are decoded as what they denote;
* `stringValue_denotes` : the value of a string, or the error that names the sequence;
* `decode_encode`, `scanQuoted_encode` : what is encoded for a quote is scanned and decoded again.
-/

namespace Formulary.Source

open Number (IsHexDigit hexNumber)

namespace Escape

/-- The letters with a meaning of their own behind a backslash, and what they denote. -/
def letters : List (Char × Char) :=
  [('n', '\n'), ('t', '\t'), ('r', '\r'), ('b', Char.ofNat 8), ('f', Char.ofNat 12),
   ('v', Char.ofNat 11), ('0', Char.ofNat 0)]

/-- What a body denotes, from its first character on, where `code` says which places behind the mark
of a code point denote which character. -/
inductive Denotes (code : List Char → Char → Prop) : List Char → List Char → Prop
  | nil : Denotes code [] []
  | plain {c : Char} {raw text : List Char} (plain : c ≠ '\\') (rest : Denotes code raw text) :
    Denotes code (c :: raw) (c :: text)
  | letter {c : Char} {raw text : List Char} (letter : c ≠ 'u') (rest : Denotes code raw text) :
    Denotes code ('\\' :: c :: raw) ((letters.lookup c).getD c :: text)
  | code {places raw text : List Char} {c : Char} (writes : code places c)
    (rest : Denotes code raw text) : Denotes code ('\\' :: 'u' :: places ++ raw) (c :: text)

/-- Whether a text begins with a backslash that denotes nothing: no character stands behind it, or
the mark of a code point with no places that denote one. -/
def Undenoting (code : List Char → Char → Prop) (text : List Char) : Prop :=
  text = ['\\'] ∨ ∃ rest, text = '\\' :: 'u' :: rest ∧ ∀ places c, places <+: rest → ¬ code places c

/-- Whether `count` digits in base sixteen write the code point of a character. A surrogate is the
code point of none. -/
structure WritesCode (count : Nat) (digits : List Char) (c : Char) : Prop where
  length : digits.length = count
  digit : ∀ d ∈ digits, IsHexDigit d
  code : hexNumber digits = c.toNat

/-- What is taken for the four places of a code point: four digits, or three behind a plus sign. -/
def CodePlaces (places : List Char) (c : Char) : Prop :=
  WritesCode 4 places c ∨ ∃ digits, places = '+' :: digits ∧ WritesCode 3 digits c

variable {code : List Char → Char → Prop} {quote c d : Char} {raw text places rest : List Char}

/-! ## Code points -/

theorem CodePlaces.length (h : CodePlaces places c) : places.length = 4 := by
  obtain h | ⟨digits, rfl, h⟩ := h
  · exact h.length
  · rw [List.length_cons, h.length]

/-- Where four places write a code point, the sign is not among the digits. -/
theorem codePlaces_iff (length : places.length = 4) :
    CodePlaces places c ↔
      (∀ d ∈ codeDigits places, IsHexDigit d) ∧ hexNumber (codeDigits places) = c.toNat := by
  have hplus : ¬ IsHexDigit '+' := by decide
  unfold codeDigits
  split
  · next digits =>
    constructor
    · rintro (h | ⟨_, heq, h⟩)
      · exact absurd (h.digit _ List.mem_cons_self) hplus
      · obtain ⟨-, rfl⟩ := List.cons.inj heq
        exact ⟨h.digit, h.code⟩
    · rintro ⟨hdigit, hcode⟩
      exact .inr ⟨digits, rfl, Nat.succ.inj length, hdigit, hcode⟩
  · next hsign =>
    constructor
    · rintro (h | ⟨digits, rfl, -⟩)
      · exact ⟨h.digit, h.code⟩
      · exact absurd rfl (hsign digits)
    · rintro ⟨hdigit, hcode⟩
      exact .inl ⟨length, hdigit, hcode⟩

/-- A code point that is no surrogate is that of one character. -/
theorem ofNat_of_isValidChar {n : Nat} :
    (if n.isValidChar then some (Char.ofNat n) else none) = some c ↔ n = c.toNat := by
  constructor
  · intro h
    split at h
    · next valid =>
      cases h
      unfold Char.ofNat
      rw [dif_pos valid]
      rfl
    · cases h
  · rintro rfl
    rw [if_pos (show c.toNat.isValidChar from c.valid), Char.ofNat_toNat]

theorem codePoint?_eq_some_iff (length : places.length = 4) :
    codePoint? places = some c ↔ CodePlaces places c := by
  have hall : ((codeDigits places).all (Number.digitIn? 16 · |>.isSome)) = true ↔
      ∀ d ∈ codeDigits places, IsHexDigit d := by
    simp only [List.all_eq_true, Number.isSome_digitIn?_sixteen]
  rw [codePlaces_iff length]
  unfold codePoint?
  dsimp only
  split
  · next h =>
    rw [ofNat_of_isValidChar, Number.natOfDigits_eq_hexNumber (hall.mp h)]
    exact (and_iff_right (hall.mp h)).symm
  · next h =>
    constructor
    · intro h
      cases h
    · exact fun hcode => absurd (hall.mpr hcode.1) h

/-! ## Decoding -/

theorem getD_lookup_cons (c a b d : Char) (table : List (Char × Char)) :
    (((a, b) :: table).lookup c).getD d = if c = a then b else (table.lookup c).getD d := by
  by_cases h : c = a
  · rw [if_pos h, List.lookup_cons, beq_iff_eq.mpr h]
    rfl
  · rw [if_neg h, List.lookup_cons, beq_eq_false_iff_ne.mpr h]

theorem denoted_eq (c : Char) : denoted c = (letters.lookup c).getD c := by
  simp only [denoted, letters, getD_lookup_cons, List.lookup_nil, Option.getD_none]

theorem decode_cons (h : c ≠ '\\') (raw : List Char) :
    decode (c :: raw) = (decode raw).map (c :: ·) := by
  rw [decode]
  all_goals intros; simp_all

/-- A backslash takes the character behind it, unless that is the mark of a code point. -/
theorem decode_escaped (h : c ≠ 'u') (raw : List Char) :
    decode ('\\' :: c :: raw) = (decode raw).map (denoted c :: ·) := by
  rw [decode]
  all_goals intros; simp_all

theorem decode_nil : decode [] = .ok [] := rfl

/-- Four places behind the mark of a code point denote its character, if they write one. -/
theorem decode_places (a₁ a₂ a₃ a₄ : Char) (raw : List Char) :
    decode ('\\' :: 'u' :: a₁ :: a₂ :: a₃ :: a₄ :: raw) =
      match codePoint? [a₁, a₂, a₃, a₄] with
      | some c => (decode raw).map (c :: ·)
      | none => .error (String.ofList ['\\', 'u', a₁, a₂, a₃, a₄]) := rfl

/-- The mark of a code point takes the four places behind it. -/
theorem decode_code (h : CodePlaces places c) (raw : List Char) :
    decode ('\\' :: 'u' :: places ++ raw) = (decode raw).map (c :: ·) := by
  have hcode := (codePoint?_eq_some_iff h.length).mpr h
  match places, h.length with
  | [a₁, a₂, a₃, a₄], _ =>
    simp only [List.cons_append, List.nil_append]
    rw [decode_places, hcode]

/-- **What a body denotes is decoded,** and the decoding goes on behind it. -/
theorem Denotes.decode_append (h : Denotes CodePlaces raw text) (rest : List Char) :
    decode (raw ++ rest) = (decode rest).map (text ++ ·) := by
  have hmap {f g : List Char → List Char} (x : Except String (List Char)) :
      (x.map f).map g = x.map fun text => g (f text) := by
    cases x <;> rfl
  induction h with
  | nil =>
    cases hrest : decode rest <;> simp [hrest, Except.map]
  | plain hplain _ ih => rw [List.cons_append, decode_cons hplain, ih, hmap]; rfl
  | letter hletter _ ih =>
    rw [List.cons_append, List.cons_append, decode_escaped hletter, ih, hmap, denoted_eq]; rfl
  | code hcode _ ih => rw [List.append_assoc, decode_code hcode, ih, hmap]; rfl

theorem decode_undenoting (h : Undenoting CodePlaces raw) :
    decode raw = .error (String.ofList (raw.take 6)) := by
  obtain rfl | ⟨rest, rfl, hnone⟩ := h
  · rfl
  match rest with
  | a :: b :: c :: d :: rest =>
    have hcode : codePoint? [a, b, c, d] = none := by
      refine Option.eq_none_iff_forall_ne_some.mpr fun code hcode => ?_
      exact hnone [a, b, c, d] code ⟨rest, rfl⟩ ((codePoint?_eq_some_iff rfl).mp hcode)
    rw [decode_places, hcode]
    rfl
  | [] | [_] | [_, _] | [_, _, _] => rfl

/-- Every body denotes a text up to its end or to a place where no sequence begins. -/
theorem exists_denotes (raw : List Char) :
    ∃ read text rest, raw = read ++ rest ∧ Denotes CodePlaces read text ∧
      (rest = [] ∨ Undenoting CodePlaces rest) := by
  fun_induction decode raw with
  | case1 => exact ⟨[], [], [], rfl, .nil, .inl rfl⟩
  | case2 => exact ⟨[], [], ['\\'], rfl, .nil, .inr (.inl rfl)⟩
  | case3 a b c d raw code hcode ih =>
    obtain ⟨read, text, rest, rfl, hread, hrest⟩ := ih
    have hplaces := (codePoint?_eq_some_iff rfl).mp hcode
    exact ⟨_, _, rest, rfl, .code hplaces hread, hrest⟩
  | case4 a b c d rest hcode =>
    refine ⟨[], [], _, rfl, .nil, .inr (.inr ⟨_, rfl, fun places code hprefix hplaces => ?_⟩)⟩
    rw [List.prefix_iff_eq_take, hplaces.length] at hprefix
    cases hprefix
    cases ((codePoint?_eq_some_iff rfl).mpr hplaces).symm.trans hcode
  | case5 rest hshort =>
    refine ⟨[], [], _, rfl, .nil, .inr (.inr ⟨_, rfl, fun places code hprefix hplaces => ?_⟩)⟩
    obtain ⟨behind, rfl⟩ := hprefix
    match places, hplaces.length with
    | [a, b, c, d], _ => exact hshort a b c d behind rfl
  | case6 c raw _ hmark ih =>
    obtain ⟨read, text, rest, rfl, hread, hrest⟩ := ih
    exact ⟨_, _, rest, rfl, .letter hmark hread, hrest⟩
  | case7 c raw hend _ _ hbackslash ih =>
    obtain ⟨read, text, rest, rfl, hread, hrest⟩ := ih
    refine ⟨_, _, rest, rfl, .plain (fun hc => ?_) hread, hrest⟩
    cases h : read ++ rest with
    | nil => exact hend hc h
    | cons d raw => exact hbackslash d raw hc h

/-- **A body is decoded as exactly the text it denotes.** -/
theorem decode_eq_ok_iff : decode raw = .ok text ↔ Denotes CodePlaces raw text := by
  constructor
  · obtain ⟨read, before, rest, rfl, hread, hrest⟩ := exists_denotes raw
    rw [hread.decode_append]
    obtain rfl | hrest := hrest
    · intro h
      cases h
      simpa using hread
    · rw [decode_undenoting hrest]
      intro h
      cases h
  · intro h
    have hdecode := h.decode_append []
    rwa [List.append_nil, decode_nil, Except.map, List.append_nil] at hdecode

/-- **A body is rejected exactly where it denotes a text up to a backslash that denotes nothing.**
The error names at most six characters from there on. -/
theorem decode_eq_error_iff {sequence : String} :
    decode raw = .error sequence ↔
      ∃ read text rest, raw = read ++ rest ∧ Denotes CodePlaces read text ∧
        Undenoting CodePlaces rest ∧ sequence = String.ofList (rest.take 6) := by
  constructor
  · obtain ⟨read, text, rest, rfl, hread, hrest⟩ := exists_denotes raw
    rw [hread.decode_append]
    obtain rfl | hrest := hrest
    · intro h
      cases h
    · rw [decode_undenoting hrest]
      intro h
      cases h
      exact ⟨read, text, rest, rfl, hread, hrest, rfl⟩
  · rintro ⟨read, text, rest, rfl, hread, hrest, rfl⟩
    rw [hread.decode_append, decode_undenoting hrest]
    rfl

/-! ## Signed digits -/

/-- Whether a plus sign stands behind the mark of a code point. -/
def Signed (raw : List Char) : Prop :=
  ∃ read text rest, raw = read ++ '\\' :: 'u' :: '+' :: rest ∧ Denotes (WritesCode 4) read text

theorem Denotes.of_plain (h : Denotes code (c :: raw) text) (hplain : c ≠ '\\') :
    ∃ text, Denotes code raw text := by
  cases h with
  | plain _ hrest => exact ⟨_, hrest⟩
  | letter => cases hplain rfl
  | code => cases hplain rfl

theorem Denotes.of_letter (h : Denotes code ('\\' :: c :: raw) text) (hletter : c ≠ 'u') :
    ∃ text, Denotes code raw text := by
  cases h with
  | plain hplain => cases hplain rfl
  | letter _ hrest => exact ⟨_, hrest⟩
  | code => cases hletter rfl

theorem Denotes.of_code (h : Denotes code ('\\' :: 'u' :: raw) text) :
    ∃ places c rest text, raw = places ++ rest ∧ code places c ∧ Denotes code rest text := by
  generalize hwhole : '\\' :: 'u' :: raw = whole at h
  cases h with
  | nil => cases hwhole
  | plain hplain =>
    cases hwhole
    cases hplain rfl
  | letter hletter =>
    cases hwhole
    cases hletter rfl
  | code hcode hrest =>
    cases hwhole
    exact ⟨_, _, _, _, rfl, hcode, hrest⟩

/-- What is behind a part that denotes something denotes something too, when all of it does. -/
theorem Denotes.of_append {before : List Char} (h : Denotes (WritesCode 4) raw before)
    (whole : Denotes (WritesCode 4) (raw ++ rest) text) :
    ∃ text, Denotes (WritesCode 4) rest text := by
  induction h generalizing text with
  | nil => exact ⟨text, whole⟩
  | plain hplain _ ih =>
    obtain ⟨_, hrest⟩ := whole.of_plain hplain
    exact ih hrest
  | letter hletter _ ih =>
    obtain ⟨_, hrest⟩ := whole.of_letter hletter
    exact ih hrest
  | code hcode _ ih =>
    rw [List.append_assoc] at whole
    obtain ⟨_, _, _, _, heq, hcode', hrest⟩ := whole.of_code
    obtain ⟨-, rfl⟩ := List.append_inj heq (hcode.length.trans hcode'.length.symm)
    exact ih hrest

/-- **The rule of four digits denotes what is denoted where no plus sign stands behind the mark of a
code point,** and nothing else. -/
theorem denotes_writesCode_iff :
    Denotes (WritesCode 4) raw text ↔ Denotes CodePlaces raw text ∧ ¬ Signed raw := by
  constructor
  · intro h
    constructor
    · induction h with
      | nil => exact .nil
      | plain hplain _ ih => exact .plain hplain ih
      | letter hletter _ ih => exact .letter hletter ih
      | code hcode _ ih => exact .code (.inl hcode) ih
    · rintro ⟨read, before, rest, rfl, hread⟩
      obtain ⟨_, hrest⟩ := hread.of_append h
      obtain ⟨places, _, _, _, heq, hcode, -⟩ := hrest.of_code
      cases places with
      | nil => cases hcode.length
      | cons d places =>
        obtain ⟨rfl, -⟩ := List.cons.inj heq
        exact absurd (hcode.digit '+' List.mem_cons_self) (by decide)
  · rintro ⟨h, hunsigned⟩
    induction h with
    | nil => exact .nil
    | plain hplain _ ih =>
      refine .plain hplain (ih ?_)
      rintro ⟨read, before, rest, rfl, hread⟩
      exact hunsigned ⟨_, _, rest, rfl, .plain hplain hread⟩
    | letter hletter _ ih =>
      refine .letter hletter (ih ?_)
      rintro ⟨read, before, rest, rfl, hread⟩
      exact hunsigned ⟨_, _, rest, rfl, .letter hletter hread⟩
    | code hcode _ ih =>
      obtain hcode | ⟨digits, rfl, -⟩ := hcode
      · refine .code hcode (ih ?_)
        rintro ⟨read, before, rest, rfl, hread⟩
        exact hunsigned ⟨_, _, rest, by simp, .code hcode hread⟩
      · exact absurd ⟨[], [], _, rfl, .nil⟩ hunsigned

/-! ## Encoding -/

theorem encode_cons (quote c : Char) (text : List Char) :
    encode quote (c :: text) =
      (if c = '\n' then ['\\', 'n'] else if c = '\\' ∨ c = quote then ['\\', c] else [c]) ++
        encode quote text :=
  List.flatMap_cons

/-- What is encoded for a quote denotes what it was encoded from. -/
theorem denotes_encode (hquote : quote = '\'' ∨ quote = '"') (text : List Char) :
    Denotes code (encode quote text) text := by
  induction text with
  | nil => exact .nil
  | cons c text ih =>
    rw [encode_cons]
    split
    · next hfeed =>
      subst hfeed
      exact .letter (by decide) ih
    · split
      · next hmark =>
        rcases hmark with rfl | rfl
        · exact .letter (by decide) ih
        · rcases hquote with rfl | rfl <;> exact .letter (by decide) ih
      · next hplain => exact .plain (fun heq => hplain (.inl heq)) ih

/-- **What is encoded is decoded again.** -/
theorem decode_encode (hquote : quote = '\'' ∨ quote = '"') (text : List Char) :
    decode (encode quote text) = .ok text :=
  decode_eq_ok_iff.mpr (denotes_encode hquote text)

end Escape

theorem scanQuoted_encode {quote : Char} (hquote : quote = '\'' ∨ quote = '"')
    (text rest : List Char) :
    scanQuoted quote (Escape.encode quote text ++ quote :: rest) =
      some (Escape.encode quote text, rest) := by
  have hback : quote ≠ '\\' := by rcases hquote with rfl | rfl <;> decide
  induction text with
  | nil => simp [Escape.encode, scanQuoted_cons hback]
  | cons c text ih =>
    rw [Escape.encode_cons, List.append_assoc]
    split
    · simp [scanQuoted, ih]
    · split
      · next hmark => simp [scanQuoted, ih]
      · next hfeed hplain =>
        rw [not_or] at hplain
        simp [scanQuoted_cons hplain.1, hplain.2, hfeed, ih]

/-! ## The values of strings -/

section Value

variable {quote : Char} {s value : String} {cursor after : Cursor}

theorem stringValue_eq_ok_iff :
    stringValue s cursor = .ok value after ↔
      after = cursor ∧ Escape.decode s.toList = .ok value.toList := by
  unfold stringValue
  cases Escape.decode s.toList with
  | error sequence => exact ⟨nofun, nofun⟩
  | ok chars =>
    constructor
    · rintro ⟨⟩
      exact ⟨rfl, by rw [String.toList_ofList]⟩
    · rintro ⟨rfl, ⟨⟩⟩
      change EStateM.Result.ok (String.ofList value.toList) after = _
      rw [String.ofList_toList]

theorem stringValue_eq_error_iff {e : SyntaxError} :
    stringValue s cursor = .error e after ↔
      after = cursor ∧ ∃ sequence, Escape.decode s.toList = .error sequence ∧
        e = .invalidEscape sequence cursor.position := by
  unfold stringValue
  cases Escape.decode s.toList with
  | error sequence =>
    constructor
    · rintro ⟨⟩
      exact ⟨rfl, sequence, rfl, rfl⟩
    · rintro ⟨rfl, _, ⟨⟩, rfl⟩
      rfl
  | ok chars => exact ⟨nofun, nofun⟩

/-- The value of a string that was encoded is what it was encoded from. -/
theorem stringValue_encode (hquote : quote = '\'' ∨ quote = '"') (s : String) :
    stringValue (String.ofList (Escape.encode quote s.toList)) = pure s := by
  funext cursor
  refine stringValue_eq_ok_iff.mpr ⟨rfl, ?_⟩
  rw [String.toList_ofList, Escape.decode_encode hquote]

/-- **The value of a string is what its body denotes,** sequence by sequence; where a backslash
denotes nothing, the error names the sequence that it begins, and nothing is read. Apart from bodies
with a plus sign behind the mark of a code point, the sequences are those of four digits. -/
theorem stringValue_denotes (raw : String) (cursor : Cursor) :
    (∀ text after, stringValue raw cursor = .ok text after ↔
      after = cursor ∧ Escape.Denotes Escape.CodePlaces raw.toList text.toList) ∧
    (∀ e after, stringValue raw cursor = .error e after ↔
      after = cursor ∧ ∃ read text rest, raw.toList = read ++ rest ∧
        Escape.Denotes Escape.CodePlaces read text ∧ Escape.Undenoting Escape.CodePlaces rest ∧
        e = .invalidEscape (String.ofList (rest.take 6)) cursor.position) ∧
    ∀ text, Escape.Denotes (Escape.WritesCode 4) raw.toList text ↔
      Escape.Denotes Escape.CodePlaces raw.toList text ∧ ¬ Escape.Signed raw.toList := by
  refine ⟨fun text after => ?_, fun e after => ?_, fun text => Escape.denotes_writesCode_iff⟩
  · rw [stringValue_eq_ok_iff, Escape.decode_eq_ok_iff]
  · rw [stringValue_eq_error_iff]
    constructor
    · rintro ⟨rfl, sequence, hdecode, rfl⟩
      obtain ⟨read, text, rest, hraw, hread, hrest, rfl⟩ := Escape.decode_eq_error_iff.mp hdecode
      exact ⟨rfl, read, text, rest, hraw, hread, hrest, rfl⟩
    · rintro ⟨rfl, read, text, rest, hraw, hread, hrest, rfl⟩
      have hdecode := Escape.decode_eq_error_iff.mpr ⟨read, text, rest, hraw, hread, hrest, rfl⟩
      exact ⟨rfl, _, hdecode, rfl⟩

/-- Three digits behind a plus sign are taken for four. -/
example : Escape.decode "\\u+041".toList = .ok ['A'] ∧
    Escape.decode "\\u041".toList = .error "\\u041" := by
  decide

end Value

end Formulary.Source
