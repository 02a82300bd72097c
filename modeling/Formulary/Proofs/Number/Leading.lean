import Formulary.Proofs.Number.Signed
import Formulary.Proofs.Number.Text
import Formulary.Proofs.Number.Trimming

/-!
# The number that a text begins with

* `Numeral.scan_longest` : no numeral at the head of a text goes on where the scanned one has ended;
* `Leads`, `LongestLead` : the literals that a text may begin with, and the longest one of a text;
* `leadingNumber_longest` : the number that a text begins with is that of its longest literal, and
  NaN where it begins with none.
-/

namespace Formulary.Number

variable {text unsigned rest mark literal : List Char} {negative : Bool} {n : Numeral} {x y : Float}

/-! ## The longest numeral -/

theorem scanExponent_longest {exponent : Option (List Char × List Char)}
    (h : ∀ parts ∈ exponent, IsMark parts.1 ∧ parts.2 ≠ [] ∧ ∀ c ∈ parts.2, c.isDigit = true)
    (rest : List Char) : (scanExponent (exponentChars exponent ++ rest)).2 <:+ rest := by
  cases exponent with
  | none => exact scanExponent_suffix rest
  | some parts =>
    obtain ⟨mark, digits⟩ := parts
    obtain ⟨isMark, nonempty, hdigits⟩ := h _ rfl
    obtain ⟨digit, digits, rfl⟩ := List.exists_cons_of_ne_nil nonempty
    unfold scanExponent exponentChars
    rw [isMark.scan nonempty hdigits]
    dsimp only
    rw [List.takeWhile_append_of_pos hdigits, List.dropWhile_append_of_pos hdigits]
    exact List.dropWhile_suffix _

/-- Behind a point its digits are taken, and those that follow them. -/
theorem scanFraction_longest {fraction : Option (List Char)}
    (h : ∀ digits ∈ fraction, ∀ c ∈ digits, c.isDigit = true) (rest : List Char) :
    (scanFraction ((fractionChars fraction ++ rest).dropWhile Char.isDigit)).2 <:+ rest := by
  cases fraction with
  | none => exact (scanFraction_suffix _).trans (List.dropWhile_suffix _)
  | some digits =>
    rw [fractionChars, List.cons_append, (stops_of_head (by decide)).2, scanFraction,
      List.dropWhile_append_of_pos (h digits rfl)]
    exact List.dropWhile_suffix _

/-- **A numeral at the head of a text ends no later than the scanned one:** what is left behind the
scanned numeral is an end of what follows the other one. -/
theorem Numeral.scan_longest (written : n.Written) (rest : List Char) :
    (Numeral.scan (n.chars ++ rest)).2 <:+ rest := by
  obtain ⟨whole, fraction, exponent⟩ := n
  obtain ⟨hwhole, hfraction, hexponent⟩ := written
  have hdrop : (Numeral.mk whole fraction exponent).chars ++ rest
      = whole ++ (fractionChars fraction ++ (exponentChars exponent ++ rest)) := by
    rw [Numeral.chars_eq, List.append_assoc, List.append_assoc]
  rw [hdrop]
  unfold Numeral.scan
  dsimp only
  rw [List.dropWhile_append_of_pos hwhole]
  cases exponent with
  | none => exact (scanExponent_suffix _).trans (scanFraction_longest hfraction rest)
  | some parts =>
    -- The mark of an exponent ends the digits before it, so that the exponent is scanned whole.
    obtain ⟨c, mark, hmark, hc⟩ := (hexponent _ rfl).1.head
    have hends : exponentChars (some parts) ++ rest = [] ∨ ∃ c rest',
        exponentChars (some parts) ++ rest = c :: rest' ∧ c.isDigit = false ∧ c ≠ '.' :=
      .inr ⟨c, mark ++ parts.2 ++ rest, by rw [exponentChars, hmark]; rfl, hc⟩
    rw [(fractionChars_stops fraction hends).2, scanFraction_chars hfraction hends]
    exact scanExponent_longest hexponent rest

/-! ## Literals at the head of a text -/

/-- The literals that a text may begin with, and their values: an optional sign before the word for
infinity, or before a decimal numeral with a digit before its exponent. -/
inductive Leads : List Char → Float → Prop where
  | infinity {mark : List Char} {negative : Bool} (sign : Signs mark negative) :
    Leads (mark ++ infinityWord) (signed negative infinity)
  | decimal {mark : List Char} {negative : Bool} {n : Numeral} {x : Float}
    (sign : Signs mark negative) (written : n.Written) (hasDigit : n.hasDigit = true)
    (nearest : Nearest n.number x) : Leads (mark ++ n.chars) (signed negative x)

/-- Whether a literal with a value is the longest one that a text begins with. -/
structure LongestLead (text literal : List Char) (x : Float) : Prop where
  leads : Leads literal x
  begins : literal <+: text
  longest : ∀ literal' y, Leads literal' y → literal' <+: text → literal'.length ≤ literal.length

/-- A literal at the head of a text is the sign of the text before the word for infinity or before a
numeral at the head of the rest. -/
theorem Leads.behind_sign (h : Leads literal x) (begins : literal <+: mark ++ unsigned)
    (taken : takeSign (mark ++ unsigned) = (negative, unsigned)) :
    (literal = mark ++ infinityWord ∧ infinityWord <+: unsigned) ∨
      ∃ n : Numeral, n.Written ∧ n.hasDigit = true ∧
        literal = mark ++ n.chars ∧ n.chars <+: unsigned := by
  obtain ⟨rest, hrest⟩ := begins
  have hbody {mark' body : List Char} {negative' : Bool} (sign : Signs mark' negative')
      (hunsigned : Unsigned (body ++ rest)) (heq : mark' ++ body ++ rest = mark ++ unsigned) :
      mark' ++ body = mark ++ body ∧ body <+: unsigned := by
    rw [← heq, List.append_assoc, hunsigned.takeSign_append sign] at taken
    obtain ⟨-, rfl⟩ := Prod.mk.inj taken
    rw [List.append_assoc] at heq
    rw [List.append_cancel_right heq]
    exact ⟨rfl, List.prefix_append _ _⟩
  cases h with
  | infinity sign => exact .inl (hbody sign (unsigned_infinityWord rest) hrest)
  | decimal sign written hasDigit nearest =>
    exact .inr ⟨_, written, hasDigit,
      hbody sign (unsigned_chars_append written hasDigit rest) hrest⟩

/-- A literal behind blanks is read as its value. -/
theorem Leads.ofText_eq (h : Leads (Text.trimStart text) x) : ofText text = x := by
  generalize htext : Text.trimStart text = literal at h
  cases h with
  | infinity sign => exact ofText_infinityWord sign htext
  | decimal sign written hasDigit nearest =>
    rw [ofText_chars sign written hasDigit htext, written.rounds_value.eq_of_nearest nearest]

/-- A literal begins with no blank. -/
theorem Leads.trimStart_eq (h : Leads literal x) : Text.trimStart literal = literal := by
  cases h with
  | infinity sign => exact Text.dropWhile_of_not_isBlank (not_isBlank_infinityWord sign)
  | decimal sign written _ _ => exact Text.dropWhile_of_not_isBlank (not_isBlank_chars written sign)

/-- A literal has one value. -/
theorem Leads.unique (hx : Leads literal x) (hy : Leads literal y) : x = y := by
  have htrim := hx.trimStart_eq
  calc x = ofText literal := (Leads.ofText_eq (htrim.symm ▸ hx)).symm
    _ = y := Leads.ofText_eq (htrim.symm ▸ hy)

/-- The value of a literal is a number. -/
theorem Leads.isNaN_eq (h : Leads literal x) : x.isNaN = false := by
  have hinfinity (negative : Bool) : (signed negative Number.infinity).isNaN = false := by
    cases negative <;> decide
  cases h with
  | infinity sign => exact hinfinity _
  | decimal sign written hasDigit nearest =>
    rename_i mark negative n x
    obtain hlt | hle := lt_or_ge n.number overflow
    · have hfinite := (nearest.finite hlt).1
      cases negative with
      | false => exact (isFinite_iff.mp hfinite).1
      | true => exact (isFinite_iff.mp (ofFloat_neg hfinite).1).1
    · rw [nearest.infinite hle]
      exact hinfinity negative

/-- A text has at most one longest literal, with one value. -/
theorem LongestLead.unique {literal' : List Char} (hx : LongestLead text literal x)
    (hy : LongestLead text literal' y) : x = y := by
  have hlength : literal.length = literal'.length :=
    le_antisymm (hy.longest _ _ hx.leads hx.begins) (hx.longest _ _ hy.leads hy.begins)
  have hliteral : literal = literal' :=
    (List.prefix_of_prefix_length_le hx.begins hy.begins hlength.le).eq_of_length hlength
  subst hliteral
  exact hx.leads.unique hy.leads

/-! ## Reading -/

/-- The word for infinity begins no text that a numeral begins. -/
theorem not_infinityWord_of_chars (written : n.Written) (hasDigit : n.hasDigit = true)
    (begins : n.chars <+: text) : ¬ infinityWord <+: text := by
  rintro ⟨rest, hrest⟩
  obtain ⟨rest', rfl⟩ := begins
  obtain ⟨c, tail, htext, hc⟩ := exists_chars written hasDigit
  rw [htext, infinityWord_eq] at hrest
  obtain ⟨rfl, -⟩ := List.cons.inj hrest
  revert hc
  decide

section Behind

variable (sign : Signs mark negative) (taken : takeSign (mark ++ unsigned) = (negative, unsigned))
include taken

include sign in
theorem longestLead_infinityWord (word : infinityWord <+: unsigned) :
    LongestLead (mark ++ unsigned) (mark ++ infinityWord) (signed negative infinity) := by
  refine ⟨.infinity sign, (List.prefix_append_right_inj mark).mpr word,
    fun literal x leads begins => ?_⟩
  obtain ⟨rfl, -⟩ | ⟨n, written, hasDigit, -, hchars⟩ := leads.behind_sign begins taken
  · exact le_rfl
  · exact absurd word (not_infinityWord_of_chars written hasDigit hchars)

include sign in
theorem longestLead_scan (word : ¬ infinityWord <+: unsigned)
    (hasDigit : (Numeral.scan unsigned).1.hasDigit = true) :
    LongestLead (mark ++ unsigned) (mark ++ (Numeral.scan unsigned).1.chars)
      (signed negative (Numeral.scan unsigned).1.value) := by
  obtain ⟨hscan, written⟩ := Numeral.scan_eq unsigned
  refine ⟨.decimal sign written hasDigit written.rounds_value.nearest,
    (List.prefix_append_right_inj mark).mpr ⟨_, hscan.symm⟩, fun literal x leads begins => ?_⟩
  obtain ⟨-, hword⟩ | ⟨n, written', -, rfl, rest, hrest⟩ := leads.behind_sign begins taken
  · exact absurd hword word
  · have hle := (Numeral.scan_longest written' rest).length_le
    rw [hrest] at hle
    have hlength := congrArg List.length (hrest.trans hscan)
    rw [List.length_append, List.length_append] at hlength ⊢
    omega

theorem not_leads_of_scan (word : ¬ infinityWord <+: unsigned)
    (noDigit : (Numeral.scan unsigned).1.hasDigit ≠ true) (leads : Leads literal x) :
    ¬ literal <+: mark ++ unsigned := by
  intro begins
  obtain ⟨-, hword⟩ | ⟨n, written, hasDigit, -, rest, rfl⟩ := leads.behind_sign begins taken
  · exact word hword
  · exact noDigit (Source.hasDigit_of_startsNumber
      (Source.startsNumber_chars written hasDigit rest))

end Behind

/-- **What a text begins with is read up to the end of its longest literal,** and there is none
where NaN is read. -/
theorem leadingNumber_cases (text : List Char) :
    (∃ literal, LongestLead (Text.trimStart text) literal (leadingNumber text)) ∨
      leadingNumber text = nan ∧
        ∀ literal x, Leads literal x → ¬ literal <+: Text.trimStart text := by
  unfold leadingNumber
  generalize Text.trimStart text = head
  obtain ⟨mark, sign, hhead, -⟩ := exists_signs head
  generalize htaken : takeSign head = parts at sign hhead ⊢
  obtain ⟨negative, unsigned⟩ := parts
  dsimp only at sign hhead ⊢
  subst hhead
  simp only [List.isPrefixOf_iff_prefix]
  split
  · next word => exact .inl ⟨_, longestLead_infinityWord sign htaken word⟩
  · next word =>
    split
    · next hasDigit => exact .inl ⟨_, longestLead_scan sign htaken word hasDigit⟩
    · next noDigit =>
      exact .inr ⟨rfl, fun _ _ leads => not_leads_of_scan htaken word noDigit leads⟩

/-- **The number that a text begins with.** It is NaN when, behind its blanks, the text begins with
no sign and word for infinity and with no numeral; otherwise it is the value of the longest such
literal. A text that is one literal as a whole is read as its value, and converted to the same. -/
theorem leadingNumber_longest (text : List Char) :
    ((leadingNumber text).isNaN = true ↔
      ¬ ∃ literal x, Leads literal x ∧ literal <+: Text.trimStart text) ∧
    ((leadingNumber text).isNaN = false →
      ∃ literal, LongestLead (Text.trimStart text) literal (leadingNumber text)) ∧
    (∀ literal x, LongestLead (Text.trimStart text) literal x → leadingNumber text = x) ∧
    (∀ x, Leads text x → leadingNumber text = x ∧ ofText text = x) := by
  have hvalue : ∀ literal x, LongestLead (Text.trimStart text) literal x →
      leadingNumber text = x := by
    intro literal x longest
    obtain ⟨literal', hlongest⟩ | ⟨-, hnone⟩ := leadingNumber_cases text
    · exact hlongest.unique longest
    · exact absurd longest.begins (hnone literal x longest.leads)
  have hwhole : ∀ x, Leads text x → LongestLead (Text.trimStart text) text x := by
    intro x leads
    rw [leads.trimStart_eq]
    exact ⟨leads, List.prefix_refl text, fun _ _ _ begins => begins.length_le⟩
  refine ⟨?_, fun hnumber => ?_, hvalue, fun x leads => ?_⟩
  · obtain ⟨literal, longest⟩ | ⟨heq, hnone⟩ := leadingNumber_cases text
    · rw [longest.leads.isNaN_eq]
      simpa using ⟨literal, ⟨_, longest.leads⟩, longest.begins⟩
    · rw [heq]
      exact ⟨fun _ ⟨literal, x, leads, begins⟩ => hnone literal x leads begins, fun _ => by decide⟩
  · obtain hlongest | ⟨heq, -⟩ := leadingNumber_cases text
    · exact hlongest
    · rw [heq] at hnumber
      exact absurd hnumber (by decide)
  · exact ⟨hvalue text x (hwhole x leads), Leads.ofText_eq (leads.trimStart_eq.symm ▸ leads)⟩

example : leadingNumber " -5e+".toList = -5 := by decide

end Formulary.Number
