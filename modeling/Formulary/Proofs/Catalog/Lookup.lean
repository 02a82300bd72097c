import Formulary.Proofs.Dispatch.Selection
import Formulary.Proofs.Text.ByteOrder
import Mathlib.Data.List.Nodup
import Mathlib.Data.List.Perm.Basic
import Mathlib.Data.List.TakeWhile

/-!
# What a catalog finds

* `partitionPoint_eq` : halving finds where a test begins to fail;
* `findById_eq_find?` : among ordered entries it finds what a search from the first one on finds;
* `Arranged` : entries in the byte order of their names, those of one name in the given order
  (`arranged_orderById`);
* `orderById_eq_of_perm` : entries of different names have one order;
* `Catalog.arranged_ofDocument` : the catalog of a document is arranged, finds the first entries of
  the document, and does not depend on their order where all names differ.
-/

namespace Formulary

/-! ## Halving -/

theorem partitionWithin_eq {test : Nat → Bool} {fuel low high point : Nat} (lower : low ≤ point)
    (upper : point ≤ high) (before : ∀ index < point, test index = true)
    (behind : ∀ index, point ≤ index → index < high → test index = false)
    (enough : high - low ≤ fuel) : partitionWithin test fuel low high = point := by
  induction fuel generalizing low high with
  | zero =>
    unfold partitionWithin
    omega
  | succ fuel ih =>
    unfold partitionWithin
    split
    · omega
    · dsimp only
      -- the middle stands before the point exactly if the test holds there
      rcases Nat.lt_or_ge ((low + high) / 2) point with hbefore | hbehind
      · rw [if_pos (before _ hbefore)]
        exact ih (by omega) upper behind (by omega)
      · have hfails : test ((low + high) / 2) = false := behind _ hbehind (by omega)
        rw [if_neg (by simp [hfails])]
        refine ih lower hbehind (fun index hle hlt => behind index hle ?_) (by omega)
        omega

section Partition

variable {α : Type} {test : α → Bool} {accepted rejected : List α}

/-- **Halving finds where a test begins to fail.** -/
theorem partitionPoint_eq (accepts : ∀ entry ∈ accepted, test entry = true)
    (rejects : ∀ entry ∈ rejected, test entry = false) :
    partitionPoint test (accepted ++ rejected) = accepted.length := by
  refine partitionWithin_eq (Nat.zero_le _) (by simp) (fun index hlt => ?_)
    (fun index hle hlt => ?_) (by simp)
  · rw [List.getElem?_append_left hlt, List.getElem?_eq_getElem hlt]
    exact accepts _ (List.getElem_mem hlt)
  · have hlt' : index - accepted.length < rejected.length := by
      rw [List.length_append] at hlt
      omega
    rw [List.getElem?_append_right hle, List.getElem?_eq_getElem hlt']
    exact rejects _ (List.getElem_mem hlt')

end Partition

/-! ## Entries in order -/

section Entries

variable {α : Type} {id : α → String} {entries entries' : List α}

/-- Among entries in the order of their names, those with lesser names stand before the others. -/
theorem dropWhile_of_sorted (sorted : entries.Pairwise fun a b => id a ≤ id b) (name : String) :
    ∀ entry ∈ entries.dropWhile fun entry => decide (id entry < name), name ≤ id entry := by
  induction entries with
  | nil => exact fun _ h => nomatch h
  | cons first entries ih =>
    obtain ⟨hfirst, hrest⟩ := List.pairwise_cons.mp sorted
    by_cases hlt : id first < name
    · rw [List.dropWhile_cons_of_pos (by simpa using hlt)]
      exact ih hrest
    · rw [List.dropWhile_cons_of_neg (by simpa using hlt)]
      have hle : name ≤ id first := not_lt.mp hlt
      exact List.forall_mem_cons.mpr ⟨hle, fun entry hmem => hle.trans (hfirst entry hmem)⟩

/-- **Among ordered entries, halving finds what a search from the first one on finds.** -/
theorem findById_eq_find? (sorted : entries.Pairwise fun a b => id a ≤ id b) (name : String) :
    findById id name entries = entries.find? fun entry => id entry == name := by
  have hlesser : ∀ entry ∈ entries.takeWhile fun entry => decide (id entry < name),
      decide (id entry < name) = true := by
    intro entry hmem
    exact List.mem_takeWhile_imp (p := fun entry => decide (id entry < name)) hmem
  have hrest := dropWhile_of_sorted sorted name
  have hsorted := sorted.sublist (List.dropWhile_sublist fun entry => decide (id entry < name))
  rw [← List.takeWhile_append_dropWhile (p := fun entry => decide (id entry < name))
    (l := entries)]
  generalize entries.takeWhile (fun entry => decide (id entry < name)) = lesser at *
  generalize entries.dropWhile (fun entry => decide (id entry < name)) = rest at *
  have hnone : lesser.find? (fun entry => id entry == name) = none := by
    refine List.find?_eq_none.mpr fun entry hmem hname => ?_
    exact (of_decide_eq_true (hlesser entry hmem)).ne (beq_iff_eq.mp hname)
  have hpoint : partitionPoint (fun entry => decide (id entry < name)) (lesser ++ rest) =
      lesser.length :=
    partitionPoint_eq hlesser fun entry hmem => decide_eq_false (hrest entry hmem).not_gt
  rw [findById, hpoint, List.getElem?_append_right (Nat.le_refl _), Nat.sub_self,
    List.find?_append, hnone, Option.none_or]
  cases rest with
  | nil => rfl
  | cons first rest =>
    by_cases hname : id first = name
    · simp [hname]
    · -- the first of the rest has a greater name, and so have all entries behind it
      have hlt : name < id first := lt_of_le_of_ne (hrest first List.mem_cons_self) (Ne.symm hname)
      have hlater : rest.find? (fun entry => id entry == name) = none := by
        refine List.find?_eq_none.mpr fun entry hmem hentry => ?_
        have hle := (List.pairwise_cons.mp hsorted).1 entry hmem
        exact (hlt.trans_le hle).ne' (beq_iff_eq.mp hentry)
      simp [hname, hlater]

/-! ## Arranging entries -/

/-- Whether entries are the given ones in the byte order of their names, those of one name in the
given order. -/
structure Arranged (id : α → String) (given entries : List α) : Prop where
  perm : entries.Perm given
  sorted : entries.Pairwise fun a b => Text.bytes (id a) ≤ Text.bytes (id b)
  stable : ∀ name, entries.filter (fun entry => id entry == name) =
    given.filter fun entry => id entry == name

theorem sorted_orderById (id : α → String) (entries : List α) :
    (orderById id entries).Pairwise fun a b => id a ≤ id b := by
  refine (List.pairwise_mergeSort ?_ ?_ entries).imp fun h => of_decide_eq_true h
  · intro a b c hab hbc
    exact decide_eq_true ((of_decide_eq_true hab).trans (of_decide_eq_true hbc))
  · intro a b
    simpa using le_total (id a) (id b)

theorem filter_orderById (id : α → String) (entries : List α) (name : String) :
    (orderById id entries).filter (fun entry => id entry == name) =
      entries.filter fun entry => id entry == name := by
  have hperm : (orderById id entries).Perm entries := List.mergeSort_perm _ _
  -- the entries of one name are in order as they are given, so that sorting keeps them so
  have hsorted : (entries.filter fun entry => id entry == name).Pairwise
      fun a b => decide (id a ≤ id b) = true := by
    refine List.pairwise_of_forall_mem_list fun a ha b hb => ?_
    have ha' := beq_iff_eq.mp (List.mem_filter.mp ha).2
    have hb' := beq_iff_eq.mp (List.mem_filter.mp hb).2
    exact decide_eq_true (ha'.trans hb'.symm).le
  have hsublist : (entries.filter fun entry => id entry == name).Sublist
      (orderById id entries) := by
    refine List.sublist_mergeSort ?_ ?_ hsorted List.filter_sublist
    · intro a b c hab hbc
      exact decide_eq_true ((of_decide_eq_true hab).trans (of_decide_eq_true hbc))
    · intro a b
      simpa using le_total (id a) (id b)
  have hfilter := hsublist.filter fun entry => id entry == name
  rw [List.filter_filter] at hfilter
  simp only [Bool.and_self] at hfilter
  exact (hfilter.eq_of_length (hperm.filter _).length_eq.symm).symm

theorem arranged_orderById (id : α → String) (entries : List α) :
    Arranged id entries (orderById id entries) where
  perm := List.mergeSort_perm _ _
  sorted := (sorted_orderById id entries).imp fun h => Text.bytes_le_iff.mpr h
  stable := filter_orderById id entries

/-- **What is found in arranged entries is the first given one.** -/
theorem findById_orderById (id : α → String) (entries : List α) (name : String) :
    findById id name (orderById id entries) = entries.find? fun entry => id entry == name := by
  rw [findById_eq_find? (sorted_orderById id entries), ← List.head?_filter, filter_orderById,
    List.head?_filter]

/-- **Entries of different names have one order.** -/
theorem orderById_eq_of_perm (distinct : (entries.map id).Nodup) (perm : entries'.Perm entries) :
    orderById id entries' = orderById id entries := by
  have hperm : (orderById id entries').Perm (orderById id entries) :=
    (List.mergeSort_perm _ _).trans (perm.trans (List.mergeSort_perm _ _).symm)
  refine hperm.eq_of_pairwise (fun a b ha hb hab hba => ?_) (sorted_orderById id entries')
    (sorted_orderById id entries)
  have hmem : a ∈ entries := perm.mem_iff.mp ((List.mergeSort_perm _ _).mem_iff.mp ha)
  have hmem' : b ∈ entries := (List.mergeSort_perm _ _).mem_iff.mp hb
  exact List.inj_on_of_nodup_map distinct hmem hmem' (le_antisymm hab hba)

end Entries

/-! ## Catalogs -/

namespace Document

/-- The dispatcher of a document: its functions are registered, and its triggers are fired. -/
def dispatcher (document : Document) (formula : Formula) : Dispatcher :=
  .ofCatalog (formula.registerAll document.functions) (.ofDocument document)

/-- Whether a document has the entries of another one in any order. -/
structure Permutes (document other : Document) : Prop where
  functions : document.functions = other.functions
  formulas : document.formulas.Perm other.formulas
  triggers : document.triggers.Perm other.triggers

/-- Whether the formulas of a document have different names, and so have its triggers. -/
structure Distinct (document : Document) : Prop where
  formulas : (document.formulas.map FormulaEntry.id).Nodup
  triggers : (document.triggers.map Trigger.id).Nodup

end Document

namespace Catalog

theorem ofDocument_eq_of_permutes {document other : Document} (distinct : document.Distinct)
    (permutes : other.Permutes document) : ofDocument other = ofDocument document := by
  unfold ofDocument
  rw [orderById_eq_of_perm distinct.formulas permutes.formulas,
    orderById_eq_of_perm distinct.triggers permutes.triggers]

/-- **The catalog of a document is arranged, and finds the first entry of a name in the document.**
Where all names differ, the order of the entries makes no difference, neither to the catalog nor to
what filters accept and firings come to, also behind other firings. -/
theorem arranged_ofDocument (document : Document) :
    (Arranged FormulaEntry.id document.formulas (ofDocument document).formulas ∧
      ∀ id, (ofDocument document).formula? id =
        document.formulas.find? fun entry => entry.id == id) ∧
    (Arranged Trigger.id document.triggers (ofDocument document).triggers ∧
      ∀ id, (ofDocument document).trigger? id =
        document.triggers.find? fun trigger => trigger.id == id) ∧
    (document.Distinct → ∀ other : Document, other.Permutes document →
      ofDocument other = ofDocument document ∧
      ∀ formula fuel history input,
        (∀ trigger, ((other.dispatcher formula).after fuel history).matching fuel trigger input =
          ((document.dispatcher formula).after fuel history).matching fuel trigger input) ∧
        ∀ id, ((other.dispatcher formula).after fuel history).fire fuel id input =
          ((document.dispatcher formula).after fuel history).fire fuel id input) := by
  refine ⟨⟨arranged_orderById _ _, findById_orderById _ _⟩,
    ⟨arranged_orderById _ _, findById_orderById _ _⟩, fun distinct other permutes => ?_⟩
  have hcatalog := ofDocument_eq_of_permutes distinct permutes
  have hdispatcher : ∀ formula, other.dispatcher formula = document.dispatcher formula := by
    intro formula
    unfold Document.dispatcher
    rw [hcatalog, permutes.functions]
  refine ⟨hcatalog, fun formula fuel history input => ?_⟩
  rw [hdispatcher]
  exact ⟨fun _ => rfl, fun _ => rfl⟩

/-- Formulas with names that begin alike, and a trigger without a name. -/
def prefixed : Document :=
  ⟨[], [⟨"AB", "", "1", [], true⟩, ⟨"", "", "2", [], true⟩, ⟨"A", "", "3", [], true⟩],
    [⟨"t", "", "true", "", "", "", ""⟩, ⟨"", "", "false", "", "", "", ""⟩]⟩

/-- Names that begin alike have one order, whichever stands first in the document. -/
theorem arranged_ofDocument_prefixed :
    ofDocument ⟨[], prefixed.formulas.reverse, prefixed.triggers.reverse⟩ =
      ofDocument prefixed := by
  have distinct : prefixed.Distinct := ⟨by decide, by decide⟩
  have permutes : Document.Permutes ⟨[], prefixed.formulas.reverse, prefixed.triggers.reverse⟩
      prefixed := ⟨rfl, List.reverse_perm _, List.reverse_perm _⟩
  exact ((arranged_ofDocument prefixed).2.2 distinct _ permutes).1

end Catalog

end Formulary
