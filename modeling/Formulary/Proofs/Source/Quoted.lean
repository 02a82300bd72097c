import Formulary.Proofs.Source.Affording

/-!
# Texts that are one quoted string

* `parse_quoted` : what is encoded for a quote and put between two of them is read as the string.
-/

namespace Formulary.Source

/-- A string is a program when it is the only token. -/
theorem program_of_string {quote : Char} {raw s : String} {lexed : Lexed}
    (value : stringValue raw = pure s)
    (aspects : lexed.tokens.map Token.aspect = [(.string quote raw, false)])
    (ending : lexed.ending.fault? = none) :
    program lexed = .ok ⟨[.expression (.literal (.string s))]⟩ := by
  have hstatement : Affords (0 + descentCost + descentCost) (statement recursionFuel)
      [.string quote raw] [] (.expression (.literal (.string s))) :=
    affords_statement (.string value)
  exact program_of_statement hstatement (by decide) aspects ending

/-- **What is encoded for a quote and put between two of them is read as the string it was encoded
from,** and as nothing else. -/
theorem parse_quoted (quote : Char) (hquote : quote = '\'' ∨ quote = '"') (s : String) :
    Program.parse (String.ofList (quote :: Escape.encode quote s.toList ++ [quote])) =
      .ok ⟨[.expression (.literal (.string s))]⟩ := by
  let kind : TokenKind := .string quote (String.ofList (Escape.encode quote s.toList))
  have hstandalone : ∀ aspect ∈ [(kind, false)], aspect.1.Standalone :=
    List.forall_mem_singleton.mpr (standalone_string hquote (scanQuoted_encode hquote s.toList))
  obtain ⟨haspects, hcomplete⟩ := tokenize_spaced hstandalone
  have htext : spaced [(kind, false)] = quote :: Escape.encode quote s.toList ++ [quote] := by
    simp [spaced, spacedFrom, kind, TokenKind.lexeme]
  rw [Program.parse, String.toList_ofList, ← htext]
  exact program_of_string (stringValue_encode hquote s) haspects hcomplete.fault?

/-- A string of quotes, backslashes and line feeds, and the end of a code point. -/
theorem parse_quoted_marks :
    ('\'' = '\'' ∨ '\'' = '"') ∧ Program.parse "'\\'\"\\\\u\\n\\\\'" =
      .ok ⟨[.expression (.literal (.string "'\"\\u\n\\"))]⟩ :=
  ⟨.inl rfl, parse_quoted '\'' (.inl rfl) "'\"\\u\n\\"⟩

end Formulary.Source
