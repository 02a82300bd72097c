import Formulary.Proofs.Number.Digits
import Formulary.Proofs.Number.Hexadecimal
import Formulary.Proofs.Number.Scientific
import Formulary.Proofs.Source.Rescanning

/-!
# Texts as numbers

* `Numeral.number`, `Numeral.rounds_value` : the number that a numeral writes, and that its value is
  the double nearest to it;
* `Signs`, `exists_signs` : optional signs, and how they are taken from a text;
* `Spells` : complete literals and their values;
* `Misread` : other texts that have a value, and literals that have not theirs;
* `ofText_spells` : every text is read as one of these, as zero, or as NaN.
-/

namespace Formulary.Number

variable {text mark digits : List Char} {negative : Bool} {n : Numeral} {x : Float}

/-! ## The number that a numeral writes -/

/-- The number that decimal digits write, the last one at the place of ones. -/
def decimalNumber (digits : List Char) : Nat :=
  Nat.ofDigits 10 (digits.reverse.map fun c => c.toNat - '0'.toNat)

theorem natOfDigits_eq_decimalNumber (h : ∀ c ∈ digits, c.isDigit = true) :
    natOfDigits 10 digits = decimalNumber digits := by
  rw [natOfDigits_eq_ofDigits, decimalNumber]
  congr 1
  refine List.map_congr_left fun c hc => ?_
  obtain ⟨hle, hge⟩ := Char.isDigit_iff_toNat.mp (h c (List.mem_reverse.mp hc))
  rw [digitValue?, if_pos ⟨hle, hge⟩, Option.getD_some]

theorem decimalNumber_append (digits digits' : List Char) :
    decimalNumber (digits ++ digits') =
      decimalNumber digits * 10 ^ digits'.length + decimalNumber digits' := by
  rw [decimalNumber, List.reverse_append, List.map_append, Nat.ofDigits_append, List.length_map,
    List.length_reverse, decimalNumber, decimalNumber]
  ring

/-- The power of ten that an exponent writes. -/
def Numeral.tens (n : Numeral) : Int :=
  match n.exponent with
  | some (mark, digits) =>
    if '-' ∈ mark then -(decimalNumber digits : Int) else decimalNumber digits
  | none => 0

/-- The number that a numeral writes: digits before and behind the point, and a power of ten. -/
def Numeral.number (n : Numeral) : ℚ :=
  (decimalNumber n.whole +
    decimalNumber (n.fraction.getD []) / 10 ^ (n.fraction.getD []).length) * 10 ^ n.tens

/-- The same from all its digits in a row. -/
theorem Numeral.number_eq (n : Numeral) :
    n.number = decimalNumber (n.whole ++ n.fraction.getD []) *
      10 ^ (n.tens - ((n.fraction.getD []).length : Int)) := by
  rw [decimalNumber_append, Numeral.number, zpow_sub₀ (by norm_num), zpow_natCast]
  push_cast
  field_simp

theorem Numeral.Written.power_eq (written : n.Written) : n.power = n.tens := by
  unfold Numeral.power Numeral.tens
  cases h : n.exponent with
  | none => rfl
  | some parts =>
    obtain ⟨mark, digits⟩ := parts
    have hdigits := (written.exponent _ h).2.2
    dsimp only at hdigits ⊢
    rw [natOfDigits_eq_decimalNumber hdigits]
    simp only [List.contains_iff_mem]

/-- **The value of a numeral is the double nearest to the number that it writes.** -/
theorem Numeral.Written.rounds_value (written : n.Written) : Rounds n.number n.value := by
  have hfraction : ∀ c ∈ n.fraction.getD [], c.isDigit = true := by
    cases h : n.fraction with
    | none => simp
    | some digits => exact written.fraction digits h
  have hdigits : ∀ c ∈ n.whole ++ n.fraction.getD [], c.isDigit = true :=
    List.forall_mem_append.mpr ⟨written.whole, hfraction⟩
  have h := rounds_ofDecimal (natOfDigits 10 (n.whole ++ n.fraction.getD []))
    (n.power - (n.fraction.getD []).length)
  rwa [natOfDigits_eq_decimalNumber hdigits, written.power_eq, ← n.number_eq,
    ← natOfDigits_eq_decimalNumber hdigits, ← written.power_eq] at h

/-! ## Signs -/

/-- An optional sign, and whether it is a minus. -/
inductive Signs : List Char → Bool → Prop where
  | none : Signs [] false
  | plus : Signs ['+'] false
  | minus : Signs ['-'] true

/-- Whether a text does not begin with a sign. -/
def Unsigned (text : List Char) : Prop :=
  takeSign text = (false, text)

theorem Unsigned.takeSign_append (h : Unsigned text) (sign : Signs mark negative) :
    takeSign (mark ++ text) = (negative, text) := by
  cases sign with
  | none => exact h
  | plus => rfl
  | minus => rfl

theorem Signs.takeSign_append (sign : Signs mark negative) (nonempty : mark ≠ []) :
    takeSign (mark ++ text) = (negative, text) := by
  cases sign with
  | none => cases nonempty rfl
  | plus => rfl
  | minus => rfl

/-- What is taken from a text is a sign, and nothing only where it begins with none. -/
theorem exists_signs (text : List Char) :
    ∃ mark, Signs mark (takeSign text).1 ∧ text = mark ++ (takeSign text).2 ∧
      (mark = [] → Unsigned text) := by
  unfold Unsigned
  fun_cases takeSign text with
  | case1 rest => exact ⟨['-'], .minus, rfl, nofun⟩
  | case2 rest => exact ⟨['+'], .plus, rfl, nofun⟩
  | case3 => exact ⟨[], .none, rfl, fun _ => rfl⟩

/-! ## Literals -/

/-- Whether characters are the mark of digits in base sixteen. -/
def HexMark (mark : List Char) : Prop :=
  mark = ['0', 'x'] ∨ mark = ['0', 'X']

/-- The complete literals and their values: an optional sign before the word for infinity or before
a numeral, and digits in base sixteen behind their mark. -/
inductive Spells : List Char → Float → Prop where
  | infinity {mark : List Char} {negative : Bool} (sign : Signs mark negative) :
    Spells (mark ++ infinityWord) (signed negative infinity)
  | decimal {mark : List Char} {negative : Bool} {n : Numeral} {x : Float}
    (sign : Signs mark negative) (written : n.Written) (hasDigit : n.hasDigit = true)
    (nearest : Nearest n.number x) : Spells (mark ++ n.chars) (signed negative x)
  | hexadecimal {mark digits : List Char} {x : Float} (isMark : HexMark mark)
    (nonempty : digits ≠ []) (isDigit : ∀ c ∈ digits, IsHexDigit c)
    (nearest : Nearest (hexNumber digits) x) : Spells (mark ++ digits) x

/-- The texts whose value is not that of a literal: a numeral behind two signs, digits in base
sixteen with a sign behind their mark, and such digits for a number from `2 ^ 63` on. -/
inductive Misread : List Char → Float → Prop where
  | twice {mark mark' : List Char} {negative negative' : Bool} {n : Numeral} {x : Float}
    (outer : Signs mark negative) (inner : Signs mark' negative') (both : mark ≠ [] ∧ mark' ≠ [])
    (written : n.Written) (hasDigit : n.hasDigit = true) (nearest : Nearest n.number x) :
    Misread (mark ++ (mark' ++ n.chars)) (signed negative (signed negative' x))
  | inside {mark mark' digits : List Char} {negative : Bool} {x : Float} (isMark : HexMark mark)
    (sign : Signs mark' negative) (inside : mark' ≠ []) (nonempty : digits ≠ [])
    (isDigit : ∀ c ∈ digits, IsHexDigit c)
    (range : hexNumber digits < 2 ^ 63 + if negative then 1 else 0)
    (nearest : Nearest (hexNumber digits) x) :
    Misread (mark ++ (mark' ++ digits)) (signed (negative && decide (0 < hexNumber digits)) x)
  | beyond {mark digits : List Char} (isMark : HexMark mark)
    (isDigit : ∀ c ∈ digits, IsHexDigit c) (beyond : 2 ^ 63 ≤ hexNumber digits) :
    Misread (mark ++ digits) nan

/-! ## Reading -/

theorem hexDigits?_eq_some_iff :
    hexDigits? text = some digits ↔ ∃ mark, HexMark mark ∧ text = mark ++ digits := by
  unfold HexMark
  constructor
  · intro h
    fun_cases hexDigits? text with
    | case1 rest =>
      cases h
      exact ⟨_, .inl rfl, rfl⟩
    | case2 rest =>
      cases h
      exact ⟨_, .inr rfl, rfl⟩
    | case3 => simp_all [hexDigits?]
  · rintro ⟨mark, rfl | rfl, rfl⟩ <;> rfl

/-- A numeral begins with a digit or a point. -/
theorem exists_chars (written : n.Written) (hasDigit : n.hasDigit = true) :
    ∃ c rest, n.chars = c :: rest ∧ (c.isDigit = true ∨ c = '.') := by
  obtain ⟨c, rest, htext, -, hc⟩ :=
    Source.exists_of_startsNumber (Source.startsNumber_chars written hasDigit [])
  rw [List.append_nil] at htext
  exact ⟨c, rest, htext, by simpa using hc⟩

theorem unsigned_of_ne {c : Char} (hminus : c ≠ '-') (hplus : c ≠ '+') (rest : List Char) :
    Unsigned (c :: rest) := by
  unfold Unsigned takeSign
  split <;> simp_all

theorem unsigned_chars_append (written : n.Written) (hasDigit : n.hasDigit = true)
    (rest : List Char) : Unsigned (n.chars ++ rest) := by
  obtain ⟨c, tail, htext, hc⟩ := exists_chars written hasDigit
  rw [htext]
  refine unsigned_of_ne ?_ ?_ (tail ++ rest)
  · rintro rfl
    revert hc
    decide
  · rintro rfl
    revert hc
    decide

theorem unsigned_chars (written : n.Written) (hasDigit : n.hasDigit = true) :
    Unsigned n.chars := by
  have hunsigned := unsigned_chars_append written hasDigit []
  rwa [List.append_nil] at hunsigned

theorem decimalOfText?_eq_some_iff :
    decimalOfText? text = some x ↔ ∃ mark negative, ∃ n : Numeral, Signs mark negative ∧
      n.Written ∧ n.hasDigit = true ∧ text = mark ++ n.chars ∧ x = signed negative n.value := by
  constructor
  · intro h
    obtain ⟨n, hn, rfl⟩ := Option.map_eq_some_iff.mp h
    obtain ⟨mark, sign, htext, -⟩ := exists_signs text
    obtain ⟨hchars, written, hasDigit⟩ := Numeral.ofText?_eq_some_iff.mp hn
    exact ⟨mark, _, n, sign, written, hasDigit, hchars ▸ htext, rfl⟩
  · rintro ⟨mark, negative, n, sign, written, hasDigit, rfl, rfl⟩
    have hn := Numeral.ofText?_eq_some_iff.mpr ⟨rfl, written, hasDigit⟩
    unfold decimalOfText?
    rw [(unsigned_chars written hasDigit).takeSign_append sign]
    dsimp only
    rw [hn]
    rfl

/-- Digits in base sixteen behind a sign are read as their number when that is one of 64 bits. -/
theorem hexOfText?_eq (h : takeSign text = (negative, digits)) :
    hexOfText? text =
      if digits ≠ [] ∧ (∀ c ∈ digits, IsHexDigit c) ∧
          hexNumber digits < 2 ^ 63 + if negative then 1 else 0 then
        some (if negative then -(hexNumber digits : Int) else hexNumber digits)
      else none := by
  have hany : (digits.any (digitIn? 16 · |>.isNone)) = true ↔ ¬ ∀ c ∈ digits, IsHexDigit c := by
    simp only [List.any_eq_true, not_forall, ← isSome_digitIn?_sixteen, Option.isNone_iff_eq_none,
      Option.isSome_iff_ne_none, exists_prop, not_not]
  unfold hexOfText?
  rw [h]
  dsimp only
  split
  · next hnone =>
    rw [Bool.or_eq_true, List.isEmpty_iff, hany] at hnone
    rw [if_neg]
    tauto
  · next hsome =>
    rw [Bool.or_eq_true, List.isEmpty_iff, hany, not_or, not_not] at hsome
    have hrange : (int64Least ≤ (if negative then -(hexNumber digits : Int) else hexNumber digits) ∧
        (if negative then -(hexNumber digits : Int) else hexNumber digits) ≤ int64Greatest) ↔
        hexNumber digits < 2 ^ 63 + if negative then 1 else 0 := by
      unfold int64Least int64Greatest
      cases negative <;> simp only [if_true, if_false, Bool.false_eq_true] <;> omega
    rw [natOfDigits_eq_hexNumber hsome.2]
    exact if_congr (hrange.trans ⟨fun h => ⟨hsome.1, hsome.2, h⟩, fun h => h.2.2⟩) rfl rfl

theorem ofInt_eq_of_nearest {N : Nat} (nearest : Nearest N x) (negative : Bool) :
    ofInt (if negative then -(N : Int) else N) = signed (negative && decide (0 < N)) x := by
  rw [← (rounds_ofNat N).eq_of_nearest nearest]
  cases negative with
  | false => rfl
  | true => cases N <;> rfl

/-- How a text that is not blank is read, by what is behind its sign. -/
theorem ofText_eq {trimmed rest : List Char} (trim : Text.trim text = trimmed)
    (nonblank : trimmed ≠ []) (sign : takeSign trimmed = (negative, rest)) :
    ofText text =
      if rest = infinityWord then signed negative infinity
      else
        (hexDigits? rest).elim (((decimalOfText? rest).map (signed negative)).getD nan)
          fun digits =>
            if rest.length = trimmed.length then ((hexOfText? digits).map ofInt).getD nan
            else nan := by
  simp only [ofText, trim, sign, List.isEmpty_iff, nonblank, if_false]
  cases hexDigits? rest <;> rfl

/-- The characters of a numeral behind a sign. -/
theorem isDigit_or_mem (written : n.Written) (sign : Signs mark negative) :
    ∀ c ∈ mark ++ n.chars, c.isDigit = true ∨ c ∈ ['.', 'e', 'E', '+', '-'] := by
  obtain ⟨whole, fraction, exponent⟩ := n
  obtain ⟨hwhole, hfraction, hexponent⟩ := written
  rw [Numeral.chars_eq, List.forall_mem_append, List.forall_mem_append, List.forall_mem_append]
  refine ⟨?_, ⟨fun c hc => .inl (hwhole c hc), ?_⟩, ?_⟩
  · cases sign <;> simp
  · cases fraction with
    | none => simp [fractionChars]
    | some digits =>
      exact List.forall_mem_cons.mpr ⟨.inr (by simp), fun c hc => .inl (hfraction _ rfl c hc)⟩
  · cases exponent with
    | none => simp [exponentChars]
    | some parts =>
      obtain ⟨⟨letter, hletter, hmark⟩, -, hdigits⟩ := hexponent _ rfl
      refine List.forall_mem_append.mpr ⟨?_, fun c hc => .inl (hdigits c hc)⟩
      rcases hmark with hmark | hmark | hmark <;> rcases hletter with rfl | rfl <;> simp [hmark]

theorem hexDigits?_chars (written : n.Written) (sign : Signs mark negative) :
    hexDigits? (mark ++ n.chars) = none := by
  have hmem := isDigit_or_mem written sign
  rw [Option.eq_none_iff_forall_ne_some]
  intro digits h
  obtain ⟨hexMark, isMark, htext⟩ := hexDigits?_eq_some_iff.mp h
  rw [htext] at hmem
  rcases isMark with rfl | rfl
  · exact absurd (hmem 'x' (by simp)) (by decide)
  · exact absurd (hmem 'X' (by simp)) (by decide)

theorem chars_ne_infinityWord (written : n.Written) (sign : Signs mark negative) :
    mark ++ n.chars ≠ infinityWord := by
  have hmem := isDigit_or_mem written sign
  intro h
  rw [h] at hmem
  exact absurd (hmem 'I' (by decide)) (by decide)

theorem infinityWord_eq : infinityWord = ['I', 'n', 'f', 'i', 'n', 'i', 't', 'y'] := by decide

theorem unsigned_infinityWord (rest : List Char) : Unsigned (infinityWord ++ rest) := by
  rw [infinityWord_eq]
  exact unsigned_of_ne (by decide) (by decide) _

/-- Behind the mark of base sixteen a text is read as an integer. -/
theorem ofText_hex (isMark : HexMark mark) (trim : Text.trim text = mark ++ digits) :
    ofText text = ((hexOfText? digits).map ofInt).getD nan := by
  have hdigits : hexDigits? (mark ++ digits) = some digits :=
    hexDigits?_eq_some_iff.mpr ⟨mark, isMark, rfl⟩
  obtain ⟨rest, htext⟩ : ∃ rest, mark ++ digits = '0' :: rest := by
    rcases isMark with rfl | rfl
    · exact ⟨'x' :: digits, rfl⟩
    · exact ⟨'X' :: digits, rfl⟩
  rw [htext] at trim hdigits
  rw [ofText_eq trim (by simp) (unsigned_of_ne (by decide) (by decide) rest),
    if_neg (by simp [infinityWord_eq]), hdigits, Option.elim_some, if_pos rfl]

theorem unsigned_of_isHexDigit (isDigit : ∀ c ∈ digits, IsHexDigit c) : Unsigned digits := by
  cases digits with
  | nil => rfl
  | cons c rest =>
    have hc := isDigit c List.mem_cons_self
    refine unsigned_of_ne ?_ ?_ rest
    · rintro rfl
      exact absurd hc (by decide)
    · rintro rfl
      exact absurd hc (by decide)

/-- A numeral behind a sign is read as its value with that sign. -/
theorem ofText_numeral (sign : Signs mark negative) (written : n.Written)
    (hasDigit : n.hasDigit = true) (trim : Text.trim text = mark ++ n.chars) :
    ofText text = signed negative n.value := by
  have hunsigned := unsigned_chars written hasDigit
  have hne := chars_ne_infinityWord written .none
  have hmark := hexDigits?_chars written .none
  have hvalue := decimalOfText?_eq_some_iff.mpr
    ⟨[], false, _, .none, written, hasDigit, rfl, rfl⟩
  rw [List.nil_append] at hne hmark hvalue
  obtain ⟨c, rest, hchars, -⟩ := exists_chars written hasDigit
  rw [ofText_eq trim (by simp [hchars]) (hunsigned.takeSign_append sign), if_neg hne, hmark,
    Option.elim_none, hvalue]
  rfl

/-- The word for infinity behind a sign is read as infinity with that sign. -/
theorem ofText_infinity (sign : Signs mark negative)
    (trim : Text.trim text = mark ++ infinityWord) : ofText text = signed negative infinity := by
  have hunsigned : Unsigned infinityWord := by simpa using unsigned_infinityWord []
  have hne : infinityWord ≠ [] := by simp [infinityWord_eq]
  rw [ofText_eq trim (List.append_ne_nil_of_right_ne_nil _ hne) (hunsigned.takeSign_append sign),
    if_pos rfl]

/-- **Complete literals have their values,** unless they are misread. -/
theorem Spells.ofText_eq (h : Spells (Text.trim text) x)
    (read : ∀ y, ¬ Misread (Text.trim text) y) : ofText text = x := by
  generalize htrim : Text.trim text = trimmed at *
  cases h with
  | infinity sign => exact ofText_infinity sign htrim
  | decimal sign written hasDigit nearest =>
    rw [ofText_numeral sign written hasDigit htrim, written.rounds_value.eq_of_nearest nearest]
  | hexadecimal isMark nonempty isDigit nearest =>
    rename_i mark digits
    have range : hexNumber digits < 2 ^ 63 :=
      not_le.mp fun beyond => read nan (.beyond isMark isDigit beyond)
    rw [ofText_hex isMark htrim, hexOfText?_eq (unsigned_of_isHexDigit isDigit),
      if_pos ⟨nonempty, isDigit, range⟩]
    exact ofInt_eq_of_nearest nearest false

/-- **Texts that are misread have the values of what they are read as.** -/
theorem Misread.ofText_eq (h : Misread (Text.trim text) x) : ofText text = x := by
  generalize htrim : Text.trim text = trimmed at *
  cases h with
  | twice outer inner both written hasDigit nearest =>
    have hvalue := decimalOfText?_eq_some_iff.mpr ⟨_, _, _, inner, written, hasDigit, rfl, rfl⟩
    rw [Number.ofText_eq htrim (List.append_ne_nil_of_left_ne_nil both.1 _)
      (outer.takeSign_append both.1), if_neg (chars_ne_infinityWord written inner),
      hexDigits?_chars written inner, Option.elim_none, hvalue,
      written.rounds_value.eq_of_nearest nearest]
    rfl
  | inside isMark sign inside nonempty isDigit range nearest =>
    rename_i negative _
    rw [ofText_hex isMark htrim, hexOfText?_eq (sign.takeSign_append inside),
      if_pos ⟨nonempty, isDigit, range⟩]
    exact ofInt_eq_of_nearest nearest negative
  | beyond isMark isDigit beyond =>
    rw [ofText_hex isMark htrim, hexOfText?_eq (unsigned_of_isHexDigit isDigit),
      if_neg fun h => not_lt.mpr beyond h.2.2]
    rfl

/-- What is read as an integer behind the mark of base sixteen is a literal or misread. -/
theorem spells_or_misread_of_hex {value : Int} (isMark : HexMark mark)
    (h : hexOfText? digits = some value) :
    (∃ x, Spells (mark ++ digits) x) ∨ ∃ x, Misread (mark ++ digits) x := by
  obtain ⟨mark', sign, htext, -⟩ := exists_signs digits
  rcases htaken : takeSign digits with ⟨negative, digits'⟩
  rw [htaken] at sign htext
  dsimp only at sign htext
  rw [hexOfText?_eq htaken, Option.ite_none_right_eq_some] at h
  obtain ⟨⟨nonempty, isDigit, range⟩, -⟩ := h
  have nearest := (rounds_ofNat (hexNumber digits')).nearest
  rw [htext]
  by_cases hmark : mark' = []
  · subst hmark
    exact .inl ⟨_, .hexadecimal isMark nonempty isDigit nearest⟩
  · exact .inr ⟨_, .inside isMark sign hmark nonempty isDigit range nearest⟩

/-- What is read as a decimal behind a sign is a literal or misread. -/
theorem spells_or_misread_of_decimal {rest : List Char} (sign : Signs mark negative)
    (unsigned : mark = [] → Unsigned (mark ++ rest)) (h : decimalOfText? rest = some x) :
    (∃ x, Spells (mark ++ rest) x) ∨ ∃ x, Misread (mark ++ rest) x := by
  obtain ⟨mark', negative', n, sign', written, hasDigit, rfl, -⟩ := decimalOfText?_eq_some_iff.mp h
  have nearest := written.rounds_value.nearest
  by_cases hmark' : mark' = []
  · subst hmark'
    exact .inl ⟨_, .decimal sign written hasDigit nearest⟩
  · have hmark : mark ≠ [] := by
      rintro rfl
      have hnone : takeSign (mark' ++ n.chars) = (false, mark' ++ n.chars) := unsigned rfl
      rw [sign'.takeSign_append hmark', Prod.mk.injEq] at hnone
      exact hmark' (List.self_eq_append_left.mp hnone.2)
    exact .inr ⟨_, .twice sign sign' ⟨hmark, hmark'⟩ written hasDigit nearest⟩

/-- **All other texts are NaN,** unless they are blank. -/
theorem ofText_eq_nan (nonblank : Text.trim text ≠ []) (h : ∀ x, ¬ Spells (Text.trim text) x)
    (h' : ∀ x, ¬ Misread (Text.trim text) x) : ofText text = nan := by
  generalize htrim : Text.trim text = trimmed at *
  have hneither : ¬ ((∃ x, Spells trimmed x) ∨ ∃ x, Misread trimmed x) :=
    not_or.mpr ⟨not_exists.mpr h, not_exists.mpr h'⟩
  obtain ⟨mark, sign, htext, hunsigned⟩ := exists_signs trimmed
  rcases htaken : takeSign trimmed with ⟨negative, rest⟩
  rw [htaken] at sign htext
  dsimp only at sign htext
  rw [ofText_eq htrim nonblank htaken]
  split
  · next hword =>
    rw [htext, hword] at h
    exact absurd (.infinity sign) (h _)
  cases hdigits : hexDigits? rest with
  | some digits =>
    rw [Option.elim_some]
    split
    · next hlength =>
      -- Nothing was taken for a sign, so the mark of base sixteen begins the text.
      obtain rfl : mark = [] := by
        have := congrArg List.length htext
        rw [List.length_append] at this
        exact List.length_eq_zero_iff.mp (by omega)
      obtain ⟨hexMark, isMark, rfl⟩ := hexDigits?_eq_some_iff.mp hdigits
      rw [List.nil_append] at htext
      subst htext
      cases hvalue : hexOfText? digits with
      | none => rfl
      | some value => exact absurd (spells_or_misread_of_hex isMark hvalue) hneither
    · rfl
  | none =>
    rw [Option.elim_none]
    cases hvalue : decimalOfText? rest with
    | none => rfl
    | some y =>
      subst htext
      exact absurd (spells_or_misread_of_decimal sign hunsigned hvalue) hneither

/-- **How every text is read.** A blank text is zero; a complete literal has its value, which is the
nearest double; other texts are NaN. That holds but for the texts that are misread. -/
theorem ofText_spells (text : List Char) :
    (Text.trim text = [] → ofText text = 0) ∧
    (∀ x, Spells (Text.trim text) x → (∀ y, ¬ Misread (Text.trim text) y) → ofText text = x) ∧
    (∀ x, Misread (Text.trim text) x → ofText text = x) ∧
    (Text.trim text ≠ [] → (∀ x, ¬ Spells (Text.trim text) x) →
      (∀ x, ¬ Misread (Text.trim text) x) → ofText text = nan) := by
  refine ⟨fun blank => ?_, fun x => Spells.ofText_eq, fun x => Misread.ofText_eq, ofText_eq_nan⟩
  unfold ofText
  dsimp only
  rw [blank]
  rfl

example : ofText "--5".toList = 5 ∧ ofText "0x-5".toList = -5 ∧
    ofText "0x8000000000000000".toList = nan := by decide

end Formulary.Number
