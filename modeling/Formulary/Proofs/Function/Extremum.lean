import Formulary.Function.Standard
import Formulary.Proofs.Number.Ordering
import Formulary.Value.Conversion

/-!
# The largest and the smallest argument

* `Ranks` : comparisons of doubles that rank the numbers they stand for;
* `FirstBest` : the first of the best among the items that are numbers, which `FirstBest.eq_of_perm`
  shows to be the same number in every order;
* `extremumFrom_firstBest` : the best that is kept while the arguments are gone through;
* `extremumFrom_of_isNaN` : what is not a number is kept to the end;
* `Picks`, `Builtin.largest_smallest_pick` : what the functions answer.
-/

namespace Formulary

open Number

/-! ## Ranks -/

/-- Whether a comparison of doubles ranks the numbers that they stand for, and is false for what is
not a number. -/
structure Ranks (better : Float → Float → Bool) (beats : Extended → Extended → Prop) : Prop where
  iff (x y : Float) : better x y = true ↔
    x.isNaN = false ∧ y.isNaN = false ∧ beats (extended x) (extended y)
  asymm {a b : Extended} : beats a b → ¬ beats b a
  between {a c : Extended} (b : Extended) : beats a c → beats a b ∨ beats b c
  tie {a b : Extended} : ¬ beats a b → ¬ beats b a → a = b

theorem lt_iff_numbers (x y : Float) :
    decide (x < y) = true ↔ x.isNaN = false ∧ y.isNaN = false ∧ extended x < extended y := by
  rw [decide_eq_true_iff]
  cases hx : x.isNaN with
  | true => simp [not_lt_of_isNaN (.inl hx)]
  | false =>
    cases hy : y.isNaN with
    | true => simp [not_lt_of_isNaN (.inr hy)]
    | false => simp [lt_iff_extended hx hy]

theorem ranks_smallest : Ranks (fun x best => x < best) (· < ·) where
  iff := lt_iff_numbers
  asymm h := not_lt.mpr h.le
  between b h := (lt_or_ge _ b).imp_right fun hle => hle.trans_lt h
  tie h h' := le_antisymm (not_lt.mp h') (not_lt.mp h)

theorem ranks_largest : Ranks (fun x best => best < x) (· > ·) where
  iff x y := by
    rw [lt_iff_numbers]
    tauto
  asymm h := not_lt.mpr h.le
  between b h := (lt_or_ge b _).imp_right fun hle => h.trans_le hle
  tie h h' := le_antisymm (not_lt.mp h) (not_lt.mp h')

/-! ## The first of the best -/

section Best

variable {β γ : Type} {number : β → Float} {better : Float → Float → Bool}
variable {beats : Extended → Extended → Prop} {items items' : List β} {best best' item : β}

/-- Whether an item is the first of the best among those that are numbers: it is a number, which
beats all numbers before it and is not beaten by one behind it. -/
def FirstBest (number : β → Float) (beats : Extended → Extended → Prop) (items : List β)
    (best : β) : Prop :=
  (number best).isNaN = false ∧ ∃ before after, items = before ++ best :: after ∧
    (∀ item ∈ before, (number item).isNaN = false →
      beats (extended (number best)) (extended (number item))) ∧
    ∀ item ∈ after, (number item).isNaN = false →
      ¬ beats (extended (number item)) (extended (number best))

namespace FirstBest

theorem mem (h : FirstBest number beats items best) : best ∈ items := by
  obtain ⟨-, before, after, rfl, -⟩ := h
  simp

/-- No number among the items beats the first of the best. -/
theorem unbeaten (h : FirstBest number beats items best) (ranks : Ranks better beats)
    (mem : item ∈ items) (numbered : (number item).isNaN = false) :
    ¬ beats (extended (number item)) (extended (number best)) := by
  obtain ⟨-, before, after, rfl, hbefore, hafter⟩ := h
  obtain hmem | hmem := List.mem_append.mp mem
  · exact ranks.asymm (hbefore item hmem numbered)
  · obtain rfl | hmem := List.mem_cons.mp hmem
    · exact fun hself => ranks.asymm hself hself
    · exact hafter item hmem numbered

/-- **The order of the items does not matter for the number.** -/
theorem eq_of_perm (h : FirstBest number beats items best) (ranks : Ranks better beats)
    (h' : FirstBest number beats items' best') (perm : items.Perm items') :
    extended (number best) = extended (number best') :=
  ranks.tie (h'.unbeaten ranks (perm.mem_iff.mp h.mem) h.1)
    (h.unbeaten ranks (perm.mem_iff.mpr h'.mem) h'.1)

/-- An item is not the best when the next one beats it. -/
theorem overtaken (h : FirstBest number beats (item :: items) best) (ranks : Ranks better beats)
    (numbered : (number item).isNaN = false) {former : β}
    (beaten : beats (extended (number item)) (extended (number former))) :
    FirstBest number beats (former :: item :: items) best := by
  have hunbeaten := h.unbeaten ranks List.mem_cons_self numbered
  obtain ⟨hbest, before, after, heq, hbefore, hafter⟩ := h
  refine ⟨hbest, former :: before, after, by rw [heq, List.cons_append], ?_, hafter⟩
  intro other hmem hnumbered
  obtain rfl | hmem := List.mem_cons.mp hmem
  · exact (ranks.between _ beaten).resolve_left hunbeaten
  · exact hbefore other hmem hnumbered

/-- One more item behind the first does not matter when it does not beat that. -/
theorem insert (h : FirstBest number beats (item :: items) best) (ranks : Ranks better beats)
    (numbered : (number item).isNaN = false) {other : β} (unbeaten : (number other).isNaN = false →
      ¬ beats (extended (number other)) (extended (number item))) :
    FirstBest number beats (item :: other :: items) best := by
  obtain ⟨hbest, before, after, heq, hbefore, hafter⟩ := h
  cases before with
  | nil =>
    obtain ⟨rfl, rfl⟩ := List.cons.inj heq
    refine ⟨hbest, [], other :: items, rfl, hbefore, fun third hmem hnumbered => ?_⟩
    obtain rfl | hmem := List.mem_cons.mp hmem
    · exact unbeaten hnumbered
    · exact hafter third hmem hnumbered
  | cons first before =>
    obtain ⟨rfl, rfl⟩ := List.cons.inj heq
    refine ⟨hbest, item :: other :: before, after, rfl, fun third hmem hnumbered => ?_, hafter⟩
    rw [List.mem_cons, List.mem_cons] at hmem
    obtain rfl | rfl | hmem := hmem
    · exact hbefore third List.mem_cons_self hnumbered
    · have hbeats := hbefore item List.mem_cons_self numbered
      exact (ranks.between _ hbeats).resolve_right (unbeaten hnumbered)
    · exact hbefore third (List.mem_cons_of_mem _ hmem) hnumbered

/-- The first of the best among the images of items is the image of the first of the best. -/
theorem of_map {f : γ → β} {list : List γ}
    (h : FirstBest number beats (list.map f) best) :
    ∃ first, f first = best ∧ FirstBest (number ∘ f) beats list first := by
  obtain ⟨hbest, before, after, heq, hbefore, hafter⟩ := h
  obtain ⟨list, rest, rfl, rfl, hrest⟩ := List.map_eq_append_iff.mp heq
  obtain ⟨first, tail, rfl, rfl, rfl⟩ := List.map_eq_cons_iff.mp hrest
  exact ⟨first, rfl, hbest, list, tail, rfl,
    fun item hmem => hbefore (f item) (List.mem_map_of_mem hmem),
    fun item hmem => hafter (f item) (List.mem_map_of_mem hmem)⟩

end FirstBest

/-- **The best that is kept while the arguments are gone through** is the first of the best, if it
is a number at the beginning. -/
theorem extremumFrom_firstBest (ranks : Ranks better beats) {best : Argument}
    (numbered : best.number.isNaN = false) (rest : List Argument) :
    FirstBest Argument.number beats (best :: rest) (extremumFrom better best rest) := by
  induction rest generalizing best with
  | nil => exact ⟨numbered, [], [], rfl, fun _ h => (nomatch h), fun _ h => (nomatch h)⟩
  | cons argument rest ih =>
    rw [extremumFrom]
    split
    -- The one that is kept is always a number, which the next one is compared with.
    · next hbetter =>
      obtain ⟨hnumbered, -, hbeats⟩ := (ranks.iff _ _).mp hbetter
      exact (ih hnumbered).overtaken ranks hnumbered hbeats
    · next hbetter =>
      exact (ih numbered).insert ranks numbered fun hnumbered hbeats =>
        hbetter ((ranks.iff _ _).mpr ⟨hnumbered, numbered, hbeats⟩)

/-- **What is not a number is kept to the end,** as no number is better. -/
theorem extremumFrom_of_isNaN (ranks : Ranks better beats) {best : Argument}
    (h : best.number.isNaN = true) (rest : List Argument) :
    extremumFrom better best rest = best := by
  induction rest with
  | nil => rfl
  | cons argument rest ih =>
    rw [extremumFrom, if_neg, ih]
    rw [ranks.iff, h]
    simp

end Best

/-! ## The functions -/

/-- Whether values begin with a number. -/
def BeginsWithNumber (store : Store) (values : List Value) : Prop :=
  ∃ first ∈ values.head?, (first.toNumber store).isNaN = false

/-- How a function picks one of its arguments: undefined when there is none, the first one when that
is not a number, and otherwise the first of the best among those that are numbers; the number that
it picks is then the same for every order that begins with a number. -/
structure Picks (builtin : Builtin) (beats : Extended → Extended → Prop) (store : Store)
    (name : String) (values : List Value) : Prop where
  none : values = [] → builtin.call (.ofValues store name values) = .ok .undefined
  stuck : ∀ first ∈ values.head?, (first.toNumber store).isNaN = true →
    builtin.call (.ofValues store name values) = .ok first
  best : BeginsWithNumber store values →
    ∃ value, builtin.call (.ofValues store name values) = .ok value ∧
      FirstBest (Value.toNumber store) beats values value
  order : BeginsWithNumber store values → ∀ values', values.Perm values' →
    BeginsWithNumber store values' →
      ∃ value value', builtin.call (.ofValues store name values) = .ok value ∧
        builtin.call (.ofValues store name values') = .ok value' ∧
        extended (value.toNumber store) = extended (value'.toNumber store)

section Calls

variable {better : Float → Float → Bool} {beats : Extended → Extended → Prop}
variable (title documentation : String) (store : Store) (name : String)

theorem call_extremum (better : Float → Float → Bool) (first : Value) (rest : List Value) :
    (Builtin.extremum title documentation better).call (.ofValues store name (first :: rest)) =
      .ok (extremumFrom better (.ofValue store first)
        (rest.map (Argument.ofValue store))).value := rfl

/-- The argument that is answered is the first of the best. -/
theorem call_extremum_firstBest (ranks : Ranks better beats) {values : List Value}
    (h : BeginsWithNumber store values) :
    ∃ value, (Builtin.extremum title documentation better).call (.ofValues store name values) =
        .ok value ∧ FirstBest (Value.toNumber store) beats values value := by
  obtain ⟨first, hhead, numbered⟩ := h
  obtain ⟨rest, rfl⟩ := List.head?_eq_some_iff.mp hhead
  have hnumbered : (Argument.ofValue store first).number.isNaN = false := numbered
  have hmap : FirstBest Argument.number beats ((first :: rest).map (Argument.ofValue store)) _ :=
    extremumFrom_firstBest ranks hnumbered (rest.map (Argument.ofValue store))
  obtain ⟨value, heq, hfirst⟩ := hmap.of_map
  refine ⟨value, ?_, hfirst⟩
  rw [call_extremum, ← heq]
  rfl

theorem picks_extremum (ranks : Ranks better beats) (values : List Value) :
    Picks (Builtin.extremum title documentation better) beats store name values := by
  refine ⟨?_, fun first hhead h => ?_, call_extremum_firstBest title documentation store name ranks,
    fun h values' perm h' => ?_⟩
  · rintro rfl
    rfl
  · obtain ⟨rest, rfl⟩ := List.head?_eq_some_iff.mp hhead
    have hnan : (Argument.ofValue store first).number.isNaN = true := h
    rw [call_extremum, extremumFrom_of_isNaN ranks hnan]
    rfl
  · obtain ⟨value, hvalue, hfirst⟩ :=
      call_extremum_firstBest title documentation store name ranks h
    obtain ⟨value', hvalue', hfirst'⟩ :=
      call_extremum_firstBest title documentation store name ranks h'
    exact ⟨value, value', hvalue, hvalue', hfirst.eq_of_perm ranks hfirst' perm⟩

end Calls

/-- **The largest and the smallest argument are the first of the best,** as long as the first
argument is a number. One that is not a number is answered itself, whatever follows. -/
theorem Builtin.largest_smallest_pick (store : Store) (name : String) (values : List Value) :
    Picks Builtin.largest (· > ·) store name values ∧
      Picks Builtin.smallest (· < ·) store name values :=
  ⟨picks_extremum _ _ store name ranks_largest values,
    picks_extremum _ _ store name ranks_smallest values⟩

/-- A text that spells no number is passed over, but not in the first place. -/
theorem Builtin.largest_smallest_pick_text :
    Builtin.largest.call (.ofValues .empty "$MAX" [.string "abc", .number 5]) =
        .ok (.string "abc") ∧
      Builtin.smallest.call (.ofValues .empty "$MIN" [.string "abc", .number 5]) =
        .ok (.string "abc") ∧
      ∃ value, Builtin.largest.call
          (.ofValues .empty "$MAX" [.number 5, .string "abc", .string "7", .number 7]) = .ok value ∧
        FirstBest (Value.toNumber .empty) (· > ·)
          [.number 5, .string "abc", .string "7", .number 7] value :=
  ⟨(Builtin.largest_smallest_pick .empty "$MAX" [.string "abc", .number 5]).1.stuck
      (.string "abc") rfl (by decide +kernel),
    (Builtin.largest_smallest_pick .empty "$MIN" [.string "abc", .number 5]).2.stuck
      (.string "abc") rfl (by decide +kernel),
    (Builtin.largest_smallest_pick .empty "$MAX"
      [.number 5, .string "abc", .string "7", .number 7]).1.best
      ⟨.number 5, rfl, by decide +kernel⟩⟩

end Formulary
