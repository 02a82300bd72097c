import Mathlib.Data.String.Basic
import Mathlib.Order.RelClasses

/-!
# The byte order of texts

* `Text.bytes` : the bytes of a text in UTF-8;
* `Text.encode_lt_encode` : characters in order begin with bytes in order, whatever follows them;
* `Text.bytes_le_iff` : texts are in order exactly when their bytes are.
-/

namespace Formulary.Text

/-- The bytes of a text in UTF-8. -/
def bytes (s : String) : List UInt8 :=
  s.toUTF8.data.toList

theorem bytes_eq (s : String) : bytes s = s.toList.flatMap String.utf8EncodeChar := by
  have hencode : s.toUTF8 = s.toList.utf8Encode := String.utf8Encode_toList.symm
  rw [bytes, hencode, List.utf8Encode, List.toList_data_toByteArray]

/-! ## One character -/

section Character

variable {k m n : Nat} {x y : List UInt8}

theorem ofNat_lt_ofNat (hn : n < 256) (h : m < n) : UInt8.ofNat m < UInt8.ofNat n := by
  rw [UInt8.lt_iff_toNat_lt, UInt8.toNat_ofNat', UInt8.toNat_ofNat']
  omega

theorem cons_lt_cons_of_lt (hn : n < 256) (h : m < n) :
    UInt8.ofNat m :: x < UInt8.ofNat n :: y :=
  List.cons_lt_cons_iff.mpr (.inl (ofNat_lt_ofNat hn h))

/-- The last `k` bytes of a code, which carry six bits each. -/
def continuation : Nat → Nat → List UInt8
  | 0, _ => []
  | k + 1, n => UInt8.ofNat (n / 64 ^ k % 64 + 128) :: continuation k n

theorem continuation_lt (same : m / 64 ^ k = n / 64 ^ k) (h : m < n) :
    continuation k m ++ x < continuation k n ++ y := by
  induction k with
  | zero =>
    simp only [pow_zero, Nat.div_one] at same
    omega
  | succ k ih =>
    have hle : m / 64 ^ k ≤ n / 64 ^ k := Nat.div_le_div_right h.le
    rw [pow_succ, ← Nat.div_div_eq_div_mul, ← Nat.div_div_eq_div_mul] at same
    rcases hle.eq_or_lt with heq | hlt
    · rw [continuation, continuation, heq, List.cons_append, List.cons_append]
      exact List.cons_lt_cons_iff.mpr (.inr ⟨rfl, ih heq⟩)
    · exact cons_lt_cons_of_lt (by omega) (by omega)

/-- Codes of one length are in the order of what they encode. -/
theorem code_lt (mark : Nat) (bound : n / 64 ^ k + mark < 256) (h : m < n) :
    UInt8.ofNat (m / 64 ^ k + mark) :: continuation k m ++ x <
      UInt8.ofNat (n / 64 ^ k + mark) :: continuation k n ++ y := by
  have hle : m / 64 ^ k ≤ n / 64 ^ k := Nat.div_le_div_right h.le
  rw [List.cons_append, List.cons_append]
  rcases hle.eq_or_lt with heq | hlt
  · rw [heq]
    exact List.cons_lt_cons_iff.mpr (.inr ⟨rfl, continuation_lt heq h⟩)
  · exact cons_lt_cons_of_lt bound (by omega)

/-- The mark in the first byte of a code, and the number of bytes behind it. -/
def codeShape (n : Nat) : Nat × Nat :=
  if n ≤ 127 then (0, 0)
  else if n ≤ 2047 then (192, 1)
  else if n ≤ 65535 then (224, 2)
  else (240, 3)

/-- The first byte of a code. -/
def lead (n : Nat) : Nat :=
  n / 64 ^ (codeShape n).2 + (codeShape n).1

theorem toNat_lt (c : Char) : c.toNat < 0x110000 := by
  have hvalid : c.toNat.isValidChar := c.valid
  unfold Nat.isValidChar at hvalid
  omega

theorem encode_eq (c : Char) :
    String.utf8EncodeChar c =
      UInt8.ofNat (lead c.toNat) :: continuation (codeShape c.toNat).2 c.toNat := by
  have hlt := toNat_lt c
  have hval : c.val.toNat = c.toNat := rfl
  unfold String.utf8EncodeChar lead codeShape
  dsimp only
  rw [hval]
  generalize c.toNat = n at *
  split
  · simp [continuation]
  split
  · have hdigit : n / 64 % 32 = n / 64 := by omega
    simp [continuation, hdigit]
  split
  · have hdigit : n / 4096 % 16 = n / 4096 := by omega
    simp [continuation, hdigit]
  · have hdigit : n / 262144 % 8 = n / 262144 := by omega
    simp [continuation, hdigit]

theorem lead_lt (h : n < 0x110000) : lead n < 256 := by
  unfold lead codeShape
  split_ifs <;> simp only [Nat.reducePow] <;> omega

/-- A longer code begins with a greater byte. -/
theorem lead_lt_lead (h : m < n) (longer : codeShape m ≠ codeShape n) : lead m < lead n := by
  unfold lead
  unfold codeShape at longer ⊢
  split_ifs at longer ⊢ <;> simp only [ne_eq, not_true_eq_false, Nat.reducePow] at longer ⊢ <;>
    omega

end Character

/-- **Characters in order begin with bytes in order,** whatever follows them. -/
theorem encode_lt_encode {c d : Char} (h : c < d) (x y : List UInt8) :
    String.utf8EncodeChar c ++ x < String.utf8EncodeChar d ++ y := by
  have hlt : c.toNat < d.toNat := UInt32.lt_iff_toNat_lt.mp h
  have hbound := lead_lt (toNat_lt d)
  rw [encode_eq, encode_eq]
  by_cases hshape : codeShape c.toNat = codeShape d.toNat
  · unfold lead at hbound ⊢
    rw [hshape]
    exact code_lt _ hbound hlt
  · exact cons_lt_cons_of_lt hbound (lead_lt_lead hlt hshape)

/-! ## Texts -/

theorem append_lt_append {first x y : List UInt8} (h : x < y) : first ++ x < first ++ y := by
  induction first with
  | nil => exact h
  | cons byte first ih => exact List.cons_lt_cons_iff.mpr (.inr ⟨rfl, ih⟩)

theorem flatMap_encode_lt {s t : List Char} (h : s < t) :
    s.flatMap String.utf8EncodeChar < t.flatMap String.utf8EncodeChar := by
  induction s generalizing t with
  | nil =>
    cases t with
    | nil => exact absurd h (lt_irrefl _)
    | cons d t =>
      rw [List.flatMap_nil, List.flatMap_cons, encode_eq]
      exact List.nil_lt_cons _ _
  | cons c s ih =>
    cases t with
    | nil => exact absurd h (List.not_lt_nil _)
    | cons d t =>
      rw [List.flatMap_cons, List.flatMap_cons]
      rcases List.cons_lt_cons_iff.mp h with hlt | ⟨rfl, hrest⟩
      · exact encode_lt_encode hlt _ _
      · exact append_lt_append (ih hrest)

theorem bytes_lt_bytes {s t : String} (h : s < t) : bytes s < bytes t := by
  rw [bytes_eq, bytes_eq]
  exact flatMap_encode_lt (String.lt_iff_toList_lt.mp h)

/-- **Texts are in order exactly when their bytes are.** -/
theorem bytes_le_iff {s t : String} : bytes s ≤ bytes t ↔ s ≤ t := by
  constructor
  · intro h
    refine not_lt.mp fun hlt => ?_
    exact List.not_lt.mpr h (bytes_lt_bytes hlt)
  · intro h
    rw [← List.not_lt]
    rcases h.lt_or_eq with hlt | rfl
    · exact List.lt_asymm (bytes_lt_bytes hlt)
    · exact List.lt_irrefl _

end Formulary.Text
