import Formulary.Function.Standard
import Formulary.Proofs.Number.Held
import Formulary.Proofs.Number.Operations
import Formulary.Value.Conversion

/-!
# The arithmetic mean

* `Spans` : what lies between so many of one decimal and so many of another, which sums, quotients
  and rounding keep;
* `spans_decimalSum?`, `exists_decimalSum?` : the sum of doubles in decimal arithmetic, one by one;
* `isSome_decimalMean?` : numbers that are small enough have a mean in decimal arithmetic;
* `roundsTo_sum` : the sum of at most two doubles in the arithmetic of doubles;
* `Ranges`, `Carried`, `Builtin.mean_between` : the mean lies between the smallest and the largest
  number, as long as decimal arithmetic keeps these two, or doubles add at most two numbers.
-/

namespace Formulary

namespace Number

variable {lower upper start total next r : Scaled} {count : Nat} {q p : ℚ} {x y : Float}
variable {xs : List Float}

/-! ## Between two decimals -/

/-- Whether a number lies between so many of the lower and so many of the upper decimal. -/
structure Spans (lower upper : Scaled) (count : Nat) (q : ℚ) : Prop where
  low : (lower.times count).value ≤ q
  high : q ≤ (upper.times count).value

/-- Whether both decimals are short, and all sums of so many of them. -/
def ShortUpTo (lower upper : Scaled) (count : Nat) : Prop :=
  ∀ n ≤ count, (lower.times n).Short ∧ (upper.times n).Short

namespace Spans

/-- **What a number comes to lies between short decimals where the number does.** -/
theorem fits (h : Spans lower upper count q) (short : ShortUpTo lower upper count)
    (fits : r.Fits q) : Spans lower upper count r.value := by
  obtain ⟨hlower, hupper⟩ := short count (Nat.le_refl count)
  exact ⟨fits.ge_of_ge hlower h.low, fits.le_of_le hupper h.high⟩

theorem add (h : Spans lower upper count q) (h' : Spans lower upper 1 p) :
    Spans lower upper (count + 1) (q + p) := by
  have htimes (k : Scaled) :
      (k.times (count + 1)).value = (k.times count).value + (k.times 1).value := by
    rw [Scaled.value_times, Scaled.value_times, Scaled.value_times]
    push_cast
    ring
  constructor
  · rw [htimes]
    exact add_le_add h.low h'.low
  · rw [htimes]
    exact add_le_add h.high h'.high

theorem divide (h : Spans lower upper count q) (pos : 0 < count) :
    Spans lower upper 1 (q / count) := by
  have hpos : (0 : ℚ) < count := by exact_mod_cast pos
  have hlow := h.low
  have hhigh := h.high
  rw [Scaled.value_times] at hlow hhigh
  constructor
  · rw [Scaled.value_times, Nat.cast_one, one_mul, le_div_iff₀ hpos, mul_comm]
    exact hlow
  · rw [Scaled.value_times, Nat.cast_one, one_mul, div_le_iff₀ hpos, mul_comm]
    exact hhigh

end Spans

/-! ## Sums of doubles -/

theorem ShortUpTo.mono {count' : Nat} (short : ShortUpTo lower upper count) (h : count' ≤ count) :
    ShortUpTo lower upper count' :=
  fun n hn => short n (hn.trans h)

theorem decimalSum?_cons (start : Scaled) (x : Float) (xs : List Float) :
    decimalSum? start (x :: xs) =
      (Scaled.ofFloat? x).bind fun s => (start.add? s).bind fun next => decimalSum? next xs := rfl

/-- One double more. -/
theorem Spans.add? (h : Spans lower upper count start.value) (hx : Spans lower upper 1 (written x))
    (short : ShortUpTo lower upper (count + 1))
    (hnext : start.add? (Scaled.ofFloat x) = some next) :
    Spans lower upper (count + 1) next.value := by
  have hdecimal := hx.fits (short.mono (by omega)) (Scaled.fits_ofFloat x)
  exact (h.add hdecimal).fits short (Scaled.fits_add? hnext)

/-- **The sum of doubles lies between the sums of the bounds,** however it is rounded. -/
theorem spans_decimalSum? (finite : ∀ x ∈ xs, x.isFinite = true)
    (hxs : ∀ x ∈ xs, Spans lower upper 1 (written x))
    (short : ShortUpTo lower upper (count + xs.length))
    (hstart : Spans lower upper count start.value) (h : decimalSum? start xs = some total) :
    Spans lower upper (count + xs.length) total.value := by
  induction xs generalizing start count with
  | nil =>
    cases h
    exact hstart
  | cons x xs ih =>
    rw [decimalSum?_cons, Option.bind_eq_some_iff] at h
    obtain ⟨s, hs, h⟩ := h
    rw [Option.bind_eq_some_iff] at h
    obtain ⟨next, hnext, hrest⟩ := h
    rw [Scaled.ofFloat?_eq_some (finite x List.mem_cons_self) hs] at hnext
    rw [List.length_cons] at short ⊢
    rw [show count + (xs.length + 1) = count + 1 + xs.length by omega] at short ⊢
    have hspans := hstart.add? (hxs x List.mem_cons_self) (short.mono (by omega)) hnext
    exact ih (fun y hy => finite y (List.mem_cons_of_mem x hy))
      (fun y hy => hxs y (List.mem_cons_of_mem x hy)) short hspans hrest

/-- **There is a sum in decimal arithmetic as long as the sums of the bounds are inside the limit.**
-/
theorem exists_decimalSum? (finite : ∀ x ∈ xs, x.isFinite = true)
    (hxs : ∀ x ∈ xs, Spans lower upper 1 (written x))
    (short : ShortUpTo lower upper (count + xs.length))
    (inside : ∀ n ≤ count + xs.length, ∀ q, Spans lower upper n q → |q| ≤ Scaled.limit)
    (hstart : Spans lower upper count start.value) : ∃ total, decimalSum? start xs = some total := by
  induction xs generalizing start count with
  | nil => exact ⟨start, rfl⟩
  | cons x xs ih =>
    have hx := hxs x List.mem_cons_self
    rw [List.length_cons, show count + (xs.length + 1) = count + 1 + xs.length by omega]
      at short inside
    have hdecimal := hx.fits (short.mono (by omega)) (Scaled.fits_ofFloat x)
    obtain ⟨s, hs⟩ := Scaled.exists_ofFloat? (finite x List.mem_cons_self)
      (inside 1 (by omega) _ hx)
    obtain rfl := Scaled.ofFloat?_eq_some (finite x List.mem_cons_self) hs
    obtain ⟨next, hnext⟩ := Scaled.exists_add? (inside (count + 1) (by omega) _ (hstart.add hdecimal))
    have hspans := hstart.add? hx (short.mono (by omega)) hnext
    obtain ⟨total, htotal⟩ := ih (fun y hy => finite y (List.mem_cons_of_mem x hy))
      (fun y hy => hxs y (List.mem_cons_of_mem x hy)) short inside hspans
    refine ⟨total, ?_⟩
    rw [decimalSum?_cons, hs, Option.bind_some, hnext]
    exact htotal

/-! ## Means of doubles -/

theorem spans_zero (lower upper : Scaled) : Spans lower upper 0 (⟨0, 0⟩ : Scaled).value := by
  constructor <;> simp [Scaled.value, Scaled.times]

/-- **The mean in decimal arithmetic is what a number between the bounds rounds to.** -/
theorem roundsTo_decimalMean? (finite : ∀ x ∈ xs, x.isFinite = true)
    (hxs : ∀ x ∈ xs, Spans lower upper 1 (written x)) (short : ShortUpTo lower upper xs.length)
    (small : |lower.value| < overflow ∧ |upper.value| < overflow) (nonempty : 0 < xs.length)
    (h : decimalMean? xs = some x) :
    ∃ q, RoundsTo q x ∧ lower.value ≤ q ∧ q ≤ upper.value := by
  obtain ⟨total, htotal, rfl⟩ := Option.map_eq_some_iff.mp h
  have hsum : Spans lower upper (0 + xs.length) total.value :=
    spans_decimalSum? finite hxs (by rwa [Nat.zero_add]) (spans_zero lower upper) htotal
  rw [Nat.zero_add] at hsum
  have hmean := (hsum.divide nonempty).fits (short.mono nonempty)
    (Scaled.fits_divide total nonempty)
  obtain ⟨hlow, hhigh⟩ := hmean
  rw [Scaled.value_times, Nat.cast_one, one_mul] at hlow hhigh
  refine ⟨_, Scaled.roundsTo_toFloat ?_, hlow, hhigh⟩
  exact (abs_le_max_abs_abs hlow hhigh).trans_lt (max_lt small.1 small.2)

theorem spans_whole {most : Nat} : Spans ⟨-most, 0⟩ ⟨most, 0⟩ count q ↔ |q| ≤ count * most := by
  have hvalue (n : Int) : ((⟨n, 0⟩ : Scaled).times count).value = count * n := by
    rw [Scaled.value_times, Scaled.value, pow_zero, div_one]
  rw [abs_le]
  constructor
  · rintro ⟨hlow, hhigh⟩
    rw [hvalue] at hlow hhigh
    push_cast at hlow hhigh
    exact ⟨by linarith, hhigh⟩
  · rintro ⟨hlow, hhigh⟩
    constructor <;> rw [hvalue] <;> push_cast
    · linarith
    · exact hhigh

/-- **Numbers that are small enough have a mean in decimal arithmetic.** -/
theorem isSome_decimalMean? (finite : ∀ x ∈ xs, x.isFinite = true) (hcount : xs.length ≤ 10 ^ 11)
    (small : ∀ x ∈ xs, xs.length * |(Binary.ofFloat x).number| ≤ 10 ^ 28) :
    (decimalMean? xs).isSome = true := by
  -- all numbers are between whole numbers, the sums of which stay inside the limit
  obtain ⟨most, hmost⟩ : ∃ most, most = Scaled.limit / xs.length := ⟨_, rfl⟩
  have hlimit := Scaled.seven_mul_le_limit
  have hxs : ∀ x ∈ xs, Spans ⟨-most, 0⟩ ⟨most, 0⟩ 1 (written x) := by
    intro x hx
    have hpos := List.length_pos_of_mem hx
    have hlength : (0 : ℚ) < xs.length := by exact_mod_cast hpos
    have hroom : (Scaled.limit : ℚ) < xs.length * (most + 1) := by
      rw [hmost]
      exact_mod_cast Nat.lt_mul_div_succ Scaled.limit hpos
    have hcount' : (xs.length : ℚ) ≤ 10 ^ 11 := by exact_mod_cast hcount
    have hwritten := mul_le_mul_of_nonneg_left (abs_written_le (finite x hx)) hlength.le
    have hsmall := small x hx
    rw [spans_whole, Nat.cast_one, one_mul]
    refine le_of_mul_le_mul_left ?_ hlength
    linarith
  have short : ShortUpTo ⟨-most, 0⟩ ⟨most, 0⟩ (0 + xs.length) := fun n _ =>
    ⟨⟨Nat.zero_le _, .inl rfl⟩, ⟨Nat.zero_le _, .inl rfl⟩⟩
  have inside : ∀ n ≤ 0 + xs.length, ∀ q, Spans ⟨-most, 0⟩ ⟨most, 0⟩ n q → |q| ≤ Scaled.limit := by
    intro n hn q hspans
    have hle : n * most ≤ Scaled.limit := by
      rw [Nat.zero_add] at hn
      exact (Nat.mul_le_mul_right most hn).trans (hmost ▸ Nat.mul_div_le Scaled.limit xs.length)
    exact (spans_whole.mp hspans).trans (by exact_mod_cast hle)
  obtain ⟨total, htotal⟩ := exists_decimalSum? finite hxs short inside (spans_zero _ _)
  rw [decimalMean?, htotal]
  rfl

/-! ## Sums of at most two doubles -/

theorem number_neg_zero : (Binary.ofFloat (-0.0)).number = 0 :=
  Binary.number_of_significand (by decide +kernel)

/-- Zero and a double are the double, up to the sign of zero. -/
theorem number_neg_zero_add (hx : x.isFinite = true) :
    (-0.0 + x).isFinite = true ∧ (Binary.ofFloat (-0.0 + x)).number = (Binary.ofFloat x).number := by
  have hself := roundsTo_self hx
  have hadd := (roundsTo_add (x := -0.0) (by decide +kernel) hx).1
  rw [number_neg_zero, zero_add] at hadd
  have hrounds := hadd hself.lt_overflow
  exact ⟨hrounds.finite, le_antisymm (hrounds.parts.number_le hself.parts le_rfl)
    (hself.parts.number_le hrounds.parts le_rfl)⟩

/-- **The sum of at most two doubles is what the exact sum rounds to.** -/
theorem roundsTo_sum (finite : ∀ x ∈ xs, x.isFinite = true) (few : xs.length ≤ 2)
    (hsum : (sum xs).isFinite = true) :
    RoundsTo (xs.map fun x => (Binary.ofFloat x).number).sum (sum xs) := by
  match xs, few with
  | [], _ =>
    have hzero : RoundsTo (Binary.ofFloat (-0.0)).number (-0.0) := roundsTo_self hsum
    rw [number_neg_zero] at hzero
    exact hzero
  | [x], _ =>
    obtain ⟨hfinite, hnumber⟩ := number_neg_zero_add (finite x List.mem_cons_self)
    rw [List.map_singleton, List.sum_singleton, ← hnumber]
    exact roundsTo_self hfinite
  | [x, y], _ =>
    obtain ⟨hfinite, hnumber⟩ := number_neg_zero_add (finite x List.mem_cons_self)
    have hadd := (roundsTo_add hfinite (finite y (.tail _ (.head _)))).2 hsum
    rw [hnumber] at hadd
    rw [List.map_cons, List.map_singleton, List.sum_cons, List.sum_singleton]
    exact hadd

/-! ## Between the smallest and the largest number -/

/-- Whether numbers are finite and range from the least to the greatest of them. -/
structure Ranges (numbers : List Float) (least greatest : Float) : Prop where
  finite : ∀ x ∈ numbers, x.isFinite = true
  least_mem : least ∈ numbers
  greatest_mem : greatest ∈ numbers
  bounds : ∀ x ∈ numbers, least ≤ x ∧ x ≤ greatest

namespace Ranges

variable {least greatest : Float}

/-- **A mean in decimal arithmetic lies between the least and the greatest number,** as long as
these two have at most 28 places. -/
theorem mean_mem_of_decimal (ranges : Ranges xs least greatest)
    (held : Held least ∧ Held greatest) (hcount : xs.length ≤ 10 ^ 11)
    (decimal : (decimalMean? xs).isSome = true) :
    (mean xs).isFinite = true ∧ least ≤ mean xs ∧ mean xs ≤ greatest := by
  obtain ⟨x, hx⟩ := Option.isSome_iff_exists.mp decimal
  have hmean : mean xs = x := by rw [mean, hx, Option.getD_some]
  have hleast := ranges.finite least ranges.least_mem
  have hgreatest := ranges.finite greatest ranges.greatest_mem
  have hxs : ∀ y ∈ xs, Spans (Scaled.ofFloat least) (Scaled.ofFloat greatest) 1 (written y) := by
    intro y hy
    obtain ⟨hlow, hhigh⟩ := ranges.bounds y hy
    have hfinite := ranges.finite y hy
    constructor
    · rw [Scaled.value_times, Nat.cast_one, one_mul, held.1.value_eq]
      exact written_mono hleast hfinite hlow
    · rw [Scaled.value_times, Nat.cast_one, one_mul, held.2.value_eq]
      exact written_mono hfinite hgreatest hhigh
  have short : ShortUpTo (Scaled.ofFloat least) (Scaled.ofFloat greatest) xs.length := fun n hn =>
    ⟨held.1.short hleast (hn.trans hcount), held.2.short hgreatest (hn.trans hcount)⟩
  have hlower := roundsTo_written hleast
  have hupper := roundsTo_written hgreatest
  have small : |(Scaled.ofFloat least).value| < overflow ∧
      |(Scaled.ofFloat greatest).value| < overflow := by
    rw [held.1.value_eq, held.2.value_eq]
    exact ⟨hlower.lt_overflow, hupper.lt_overflow⟩
  obtain ⟨q, hq, hlow, hhigh⟩ := roundsTo_decimalMean? ranges.finite hxs short small
    (List.length_pos_of_mem ranges.least_mem) hx
  rw [held.1.value_eq] at hlow
  rw [held.2.value_eq] at hhigh
  rw [hmean]
  exact ⟨hq.finite, hlower.le hq hlow, hq.le hupper hhigh⟩

/-- **A mean of at most two numbers in the arithmetic of doubles lies between them,** as long as
their sum does not overflow. -/
theorem mean_mem_of_doubles (ranges : Ranges xs least greatest) (few : xs.length ≤ 2)
    (hsum : (sum xs).isFinite = true) (doubles : decimalMean? xs = none) :
    (mean xs).isFinite = true ∧ least ≤ mean xs ∧ mean xs ≤ greatest := by
  have hleast := ranges.finite least ranges.least_mem
  have hgreatest := ranges.finite greatest ranges.greatest_mem
  have hmean : mean xs = sum xs / Float.ofNat xs.length := by rw [mean, doubles, Option.getD_none]
  have hlow : xs.length * (Binary.ofFloat least).number ≤
      (xs.map fun x => (Binary.ofFloat x).number).sum := by
    rw [← List.length_map (fun x => (Binary.ofFloat x).number), ← nsmul_eq_mul]
    refine List.card_nsmul_le_sum _ _ fun q hq => ?_
    obtain ⟨y, hy, rfl⟩ := List.mem_map.mp hq
    exact (le_iff_number hleast (ranges.finite y hy)).mp (ranges.bounds y hy).1
  have hhigh : (xs.map fun x => (Binary.ofFloat x).number).sum ≤
      xs.length * (Binary.ofFloat greatest).number := by
    rw [← List.length_map (fun x => (Binary.ofFloat x).number), ← nsmul_eq_mul]
    refine List.sum_le_card_nsmul _ _ fun q hq => ?_
    obtain ⟨y, hy, rfl⟩ := List.mem_map.mp hq
    exact (le_iff_number (ranges.finite y hy) hgreatest).mp (ranges.bounds y hy).2
  rw [hmean]
  exact div_ofNat_mem hleast hgreatest (List.length_pos_of_mem ranges.least_mem) few
    (roundsTo_sum ranges.finite few hsum) hlow hhigh

end Ranges

/-- What carries a mean of numbers between the least and the greatest of them. -/
inductive Carried (numbers : List Float) (least greatest : Float) : Prop
  /-- Decimal arithmetic keeps the two and carries the sum. -/
  | decimal (held : Held least ∧ Held greatest) (count : numbers.length ≤ 10 ^ 11)
      (carries : (decimalMean? numbers).isSome = true)
  /-- The numbers are small enough for decimal arithmetic to carry their sum. -/
  | small (held : Held least ∧ Held greatest) (count : numbers.length ≤ 10 ^ 11)
      (small : ∀ x ∈ numbers, numbers.length * |(Binary.ofFloat x).number| ≤ 10 ^ 28)
  /-- At most two numbers are left to doubles, with a sum that does not overflow. -/
  | doubles (few : numbers.length ≤ 2) (finite : (sum numbers).isFinite = true)
      (left : decimalMean? numbers = none)

/-- **The mean lies between the least and the greatest number.** -/
theorem Ranges.mean_mem {least greatest : Float} (ranges : Ranges xs least greatest)
    (carried : Carried xs least greatest) :
    (mean xs).isFinite = true ∧ least ≤ mean xs ∧ mean xs ≤ greatest := by
  cases carried with
  | decimal held count carries => exact ranges.mean_mem_of_decimal held count carries
  | small held count small =>
    exact ranges.mean_mem_of_decimal held count (isSome_decimalMean? ranges.finite count small)
  | doubles few finite left => exact ranges.mean_mem_of_doubles few finite left

end Number

open Number

/-- **The mean of finite numbers lies between the least and the greatest of them.** Decimal
arithmetic has to carry the sum, as it does whenever the count times every magnitude is at most
`10 ^ 28`, and the two must have at most 28 places there, however the numbers in between are
written. What it does not carry is left to doubles, which add at most two numbers well enough. -/
theorem Builtin.mean_between {store : Store} {name : String} {values : List Value}
    {least greatest : Float} (ranges : Ranges (values.map (Value.toNumber store)) least greatest)
    (carried : Carried (values.map (Value.toNumber store)) least greatest) :
    ∃ x, Builtin.mean.call (.ofValues store name values) = .ok (.number x) ∧
      x.isFinite = true ∧ least ≤ x ∧ x ≤ greatest := by
  have hcall : Builtin.mean.call (.ofValues store name values) =
      .ok (.number (Number.mean (values.map (Value.toNumber store)))) := by
    have hnumbers : (Call.ofValues store name values).numbers =
        values.map (Value.toNumber store) := by
      rw [Call.numbers, Call.ofValues, List.map_map]
      rfl
    rw [← hnumbers]
    cases values with
    | nil => cases ranges.least_mem
    | cons first rest => rfl
  exact ⟨_, hcall, ranges.mean_mem carried⟩

/-- Two magnitudes and a double with thirty places in between, and two numbers that are too large
for decimal arithmetic. Alone, the double with thirty places has a mean of zero; three of the large
one have a mean above it. -/
theorem Builtin.mean_between_tiny :
    (∃ x, Builtin.mean.call
        (.ofValues .empty "$AVG" [.number 0.2, .string "1e-30", .number (-1e10)]) =
          .ok (.number x) ∧ x.isFinite = true ∧ -1e10 ≤ x ∧ x ≤ 0.2) ∧
      (∃ x, Builtin.mean.call (.ofValues .empty "$AVG" [.number 1e30, .number 3e30]) =
          .ok (.number x) ∧ x.isFinite = true ∧ 1e30 ≤ x ∧ x ≤ 3e30) ∧
      Builtin.mean.call (.ofValues .empty "$AVG" [.number 1e-30]) = .ok (.number 0) ∧
      Builtin.mean.call (.ofValues .empty "$AVG" [.number 1e30, .number 1e30, .number 1e30]) =
        .ok (.number 1.0000000000000002e30) :=
  ⟨Builtin.mean_between
      ⟨by decide +kernel, .tail _ (.tail _ (.head _)), .head _, by decide +kernel⟩
      (.decimal (by decide +kernel) (by decide) (by decide +kernel)),
    Builtin.mean_between
      ⟨by decide +kernel, .head _, .tail _ (.head _), by decide +kernel⟩
      (.doubles (by decide) (by decide +kernel) (by decide +kernel)), by rfl,
    congrArg (Except.ok <| Value.number ·)
      (by decide +kernel : Number.mean [1e30, 1e30, 1e30] = 1.0000000000000002e30)⟩

end Formulary
