import Formulary.Proofs.Value.Growth
import Formulary.Script.Evaluation

/-!
# Names seen from a frame

* `Store.Outward` : stores where the frame around a frame is older (`Store.Outward.chain_eq`);
* `Store.Passes`, `Store.Nearest`, `Store.Unbound` : the way outwards to the first frame that has a
  name, and to an outermost frame where none has it;
* `Store.Rebound` : stores that differ in one binding;
* `Store.Outward.rebound_assign`, `Store.Outward.assign_eq` : what an assignment changes, and how it
  goes outwards frame by frame;
* `Store.Framed` : frames as they are made and changed (`Store.Framed.outward`);
* `Store.assign_nearest` : which binding an assignment changes, and what is found afterwards.
-/

namespace Formulary

namespace Store

/-! ## The way outwards -/

/-- Whether every frame that is around another one was made before it. -/
def Outward (store : Store) : Prop :=
  ∀ ref parent, (store.frame ref).parent = some parent → parent.index < ref.index

/-- The way from a frame outwards to another one, over frames that do not have a name. -/
inductive Passes (store : Store) (name : String) : FrameRef → FrameRef → Prop where
  | here (ref : FrameRef) : Passes store name ref ref
  | outwards {ref parent target : FrameRef} (lacks : store.hasOwn ref name = false)
      (inside : (store.frame ref).parent = some parent) (way : Passes store name parent target) :
      Passes store name ref target

/-- Whether a frame is the first one on the way outwards that has a name. -/
structure Nearest (store : Store) (name : String) (ref holder : FrameRef) : Prop where
  way : store.Passes name ref holder
  has : store.hasOwn holder name = true

/-- Whether no frame on the way outwards has a name, and a frame is the last one there. -/
structure Unbound (store : Store) (name : String) (ref root : FrameRef) : Prop where
  way : store.Passes name ref root
  lacks : store.hasOwn root name = false
  outermost : (store.frame root).parent = none

variable {store : Store} {name : String} {ref target : FrameRef} {value : Value}

theorem chainWithin_eq (outward : store.Outward) {fuel : Nat} (h : ref.index < fuel) :
    store.chainWithin fuel ref = store.chain ref := by
  have hsame : ∀ fuel fuel' ref, ref.index < fuel → ref.index < fuel' →
      store.chainWithin fuel ref = store.chainWithin fuel' ref := by
    intro fuel
    induction fuel with
    | zero => exact fun _ _ h => absurd h (Nat.not_lt_zero _)
    | succ fuel ih =>
      intro fuel' ref hfuel hfuel'
      obtain ⟨fuel', rfl⟩ := Nat.exists_eq_add_one_of_ne_zero (Nat.ne_zero_of_lt hfuel')
      unfold chainWithin
      cases hparent : (store.frame ref).parent with
      | none => rfl
      | some parent =>
        have := outward ref parent hparent
        exact congrArg (ref :: ·) (ih fuel' parent (by omega) (by omega))
  exact hsame _ _ ref h (Nat.lt_succ_self _)

/-- A frame, and the way outwards from the frame around it. -/
theorem Outward.chain_eq (outward : store.Outward) (ref : FrameRef) :
    store.chain ref = ref :: match (store.frame ref).parent with
      | some parent => store.chain parent
      | none => [] := by
  show store.chainWithin (ref.index + 1) ref = _
  unfold chainWithin
  cases hparent : (store.frame ref).parent with
  | none => rfl
  | some parent => exact congrArg (ref :: ·) (chainWithin_eq outward (outward ref parent hparent))

/-- The way outwards ends, at a frame that has the name or at an outermost one. -/
theorem Outward.exists_target (outward : store.Outward) (name : String) (ref : FrameRef) :
    ∃ target, store.Nearest name ref target ∨ store.Unbound name ref target := by
  obtain ⟨index⟩ := ref
  induction index using Nat.strongRecOn with
  | ind index ih =>
    cases howns : store.hasOwn ⟨index⟩ name with
    | true => exact ⟨_, .inl ⟨.here _, howns⟩⟩
    | false =>
      cases hparent : (store.frame ⟨index⟩).parent with
      | none => exact ⟨_, .inr ⟨.here _, howns, hparent⟩⟩
      | some parent =>
        obtain ⟨target, hnearest | hunbound⟩ := ih parent.index (outward _ parent hparent)
        · exact ⟨target, .inl ⟨.outwards howns hparent hnearest.way, hnearest.has⟩⟩
        · exact ⟨target, .inr ⟨.outwards howns hparent hunbound.way, hunbound.lacks,
            hunbound.outermost⟩⟩

section Passes

variable (outward : store.Outward)

include outward

/-- A frame that lacks the name is passed over. -/
theorem Outward.passed (lacks : store.hasOwn ref name = false) {parent : FrameRef}
    (inside : (store.frame ref).parent = some parent) :
    store.binding? ref name = store.binding? parent name ∧
      store.holder? ref name = store.holder? parent name ∧
      store.outermost ref = store.outermost parent := by
  have howns : store.ownBinding? ref name = none := by simpa [hasOwn] using lacks
  have hchain : store.chain ref = ref :: store.chain parent := by rw [outward.chain_eq ref, inside]
  have hparent : store.chain parent ≠ [] := by simp [outward.chain_eq parent]
  refine ⟨?_, ?_, ?_⟩
  · rw [binding?, hchain, List.findSome?_cons, howns]
    rfl
  · rw [holder?, hchain, List.find?_cons, lacks]
    rfl
  · obtain ⟨first, rest, heq⟩ := List.exists_cons_of_ne_nil hparent
    rw [outermost, outermost, hchain, heq]
    rfl

theorem Nearest.found (nearest : store.Nearest name ref target) :
    store.binding? ref name = store.ownBinding? target name ∧
      store.holder? ref name = some target := by
  obtain ⟨way, has⟩ := nearest
  induction way with
  | here ref =>
    obtain ⟨value, hvalue⟩ := Option.isSome_iff_exists.mp has
    rw [binding?, holder?, outward.chain_eq, List.findSome?_cons, List.find?_cons, hvalue, has]
    exact ⟨rfl, rfl⟩
  | outwards lacks inside _ ih =>
    obtain ⟨hbinding, hholder, -⟩ := outward.passed lacks inside
    rw [hbinding, hholder]
    exact ih has

theorem Unbound.found (unbound : store.Unbound name ref target) :
    store.binding? ref name = none ∧ store.holder? ref name = none ∧
      store.outermost ref = target := by
  obtain ⟨way, lacks, outermost⟩ := unbound
  induction way with
  | here ref =>
    have howns : store.ownBinding? ref name = none := by simpa [hasOwn] using lacks
    rw [binding?, holder?, Store.outermost, outward.chain_eq, outermost, List.findSome?_cons,
      List.find?_cons, howns, lacks]
    exact ⟨rfl, rfl, rfl⟩
  | outwards lacks' inside _ ih =>
    obtain ⟨hbinding, hholder, hlast⟩ := outward.passed lacks' inside
    rw [hbinding, hholder, hlast]
    exact ih lacks outermost

/-- A name has a value seen from a frame when some frame on the way outwards has it. -/
theorem Outward.isBound_iff :
    store.isBound ref name = true ↔ ∃ holder, store.Nearest name ref holder := by
  unfold isBound
  obtain ⟨target, hnearest | hunbound⟩ := outward.exists_target name ref
  · rw [(hnearest.found outward).1]
    exact ⟨fun _ => ⟨target, hnearest⟩, fun _ => hnearest.has⟩
  · have hnone := (hunbound.found outward).1
    rw [hnone]
    refine ⟨fun h => (nomatch h), fun ⟨holder, hnearest⟩ => ?_⟩
    rw [(hnearest.found outward).1] at hnone
    rw [← hnearest.has, hasOwn, hnone]

/-- An assignment gives the name its value in the frame at the end of the way. -/
theorem Outward.assign_target
    (h : store.Nearest name ref target ∨ store.Unbound name ref target) (value : Value) :
    store.assign ref name value = store.declare target name value := by
  unfold assign
  rcases h with hnearest | hunbound
  · rw [(hnearest.found outward).2]
    rfl
  · obtain ⟨-, hholder, hlast⟩ := hunbound.found outward
    rw [hholder, hlast]
    rfl

/-- **How an assignment goes outwards:** a frame that has the name is written to; otherwise the
assignment is that in the frame around it, or one in the outermost frame where none has the name. -/
theorem Outward.assign_eq (ref : FrameRef) (name : String) (value : Value) :
    store.assign ref name value =
      if store.hasOwn ref name then store.declare ref name value
      else match (store.frame ref).parent with
        | some parent =>
          if store.isBound parent name then store.assign parent name value
          else store.declare (store.outermost parent) name value
        | none => store.declare ref name value := by
  cases howns : store.hasOwn ref name with
  | true => exact outward.assign_target (.inl ⟨.here ref, howns⟩) value
  | false =>
    cases hparent : (store.frame ref).parent with
    | none => exact outward.assign_target (.inr ⟨.here ref, howns, hparent⟩) value
    | some parent =>
      obtain ⟨-, hholder, hlast⟩ := outward.passed howns hparent
      have hassign : store.assign ref name value = store.assign parent name value := by
        unfold assign
        rw [hholder, hlast]
      simp only [Bool.false_eq_true, if_false, hassign]
      split
      · rfl
      · next hbound =>
        obtain ⟨target, hnearest | hunbound⟩ := outward.exists_target name parent
        · exact absurd (outward.isBound_iff.mpr ⟨target, hnearest⟩) hbound
        · rw [outward.assign_target (.inr hunbound), (hunbound.found outward).2.2]

end Passes

/-! ## One binding -/

/-- Whether a store differs from another one in nothing but the value of one name in one frame. -/
structure Rebound (store later : Store) (target : FrameRef) (name : String) (value : Value) :
    Prop where
  binding : ∀ ref other, later.ownBinding? ref other =
    if ref = target ∧ other = name then some value else store.ownBinding? ref other
  parent : ∀ ref, (later.frame ref).parent = (store.frame ref).parent
  frames : later.frames.size = store.frames.size
  arrays : later.arrays = store.arrays
  objects : later.objects = store.objects
  functions : later.functions = store.functions

/-- A reference to no frame has no names, and is inside no frame. -/
theorem frame_of_le (h : store.frames.size ≤ ref.index) : store.frame ref = default := by
  unfold frame
  rw [Array.getElem?_eq_none h]
  rfl

theorem frame_declare (made : target.index < store.frames.size) (name : String) (value : Value)
    (ref : FrameRef) : (store.declare target name value).frame ref =
      if target = ref then
        { store.frame ref with bindings := (store.frame ref).bindings.put name value }
      else store.frame ref := by
  by_cases hin : ref.index < store.frames.size
  · exact store.frame_modifyFrame _ hin
  · have hsize : (store.declare target name value).frames.size ≤ ref.index := by
      simpa [declare] using hin
    have hne : target ≠ ref := fun heq => hin (heq ▸ made)
    rw [frame_of_le hsize, if_neg hne, frame_of_le (Nat.not_lt.mp hin)]

theorem rebound_declare (made : target.index < store.frames.size) (name : String)
    (value : Value) : store.Rebound (store.declare target name value) target name value := by
  refine ⟨fun ref other => ?_, fun ref => ?_, by simp [declare], rfl, rfl, rfl⟩
  · unfold ownBinding?
    rw [frame_declare made]
    by_cases heq : target = ref
    · rw [if_pos heq, Table.get?_put]
      simp [heq]
    · rw [if_neg heq, if_neg fun h => heq h.1.symm]
  · rw [frame_declare made]
    split <;> rfl

theorem Rebound.outward {later : Store} (h : store.Rebound later target name value)
    (outward : store.Outward) : later.Outward :=
  fun ref parent hparent => outward ref parent (h.parent ref ▸ hparent)

/-- The new value is found by the way that led to its frame. -/
theorem Rebound.binding? {later : Store} (h : store.Rebound later target name value)
    (outward : store.Outward) (way : store.Passes name ref target) :
    later.binding? ref name = some value := by
  have howns (ref : FrameRef) (heq : ref = target) : later.ownBinding? ref name = some value := by
    rw [h.binding, if_pos ⟨heq, rfl⟩]
  have hfound (ref : FrameRef) (heq : ref = target) : later.binding? ref name = some value := by
    rw [Store.binding?, (h.outward outward).chain_eq, List.findSome?_cons, howns ref heq]
  induction way with
  | here ref => exact hfound ref rfl
  | @outwards ref parent target lacks inside _ ih =>
    by_cases heq : ref = target
    · exact hfound ref heq
    · have hlacks : later.hasOwn ref name = false := by
        unfold hasOwn at lacks ⊢
        rw [h.binding, if_neg fun hboth => heq hboth.1]
        exact lacks
      rw [((h.outward outward).passed hlacks ((h.parent ref).trans inside)).1]
      exact ih h howns hfound

/-! ## Frames as they are made -/

/-- Frames as they are made and changed one after the other: outermost ones, and ones inside others;
names declared and assigned in them, and all names taken from them. -/
inductive Framed : Store → Prop where
  | bare {store : Store} (none : store.frames = #[]) : Framed store
  | outermost {store : Store} (framed : Framed store) : Framed (store.newFrame none).2
  | child {store : Store} {ref : FrameRef} (framed : Framed store)
      (made : ref.index < store.frames.size) : Framed (store.newFrame (some ref)).2
  | declare {store : Store} {ref : FrameRef} (framed : Framed store)
      (made : ref.index < store.frames.size) (name : String) (value : Value) :
      Framed (store.declare ref name value)
  | assign {store : Store} {ref : FrameRef} (framed : Framed store)
      (made : ref.index < store.frames.size) (name : String) (value : Value) :
      Framed (store.assign ref name value)
  | clear {store : Store} {ref : FrameRef} (framed : Framed store)
      (made : ref.index < store.frames.size) : Framed (store.clear ref)

theorem Outward.newFrame (outward : store.Outward) {parent : Option FrameRef}
    (made : ∀ ref ∈ parent, ref.index < store.frames.size) :
    (store.newFrame parent).2.Outward := by
  intro ref other hother
  rw [frame_newFrame] at hother
  split at hother
  · next heq =>
    rw [heq]
    exact made other hother
  · exact outward ref other hother

theorem Outward.clear (outward : store.Outward) (target : FrameRef) :
    (store.clear target).Outward := by
  intro ref parent hparent
  refine outward ref parent ?_
  by_cases hin : ref.index < store.frames.size
  · change ((store.modifyFrame target _).frame ref).parent = _ at hparent
    rw [frame_modifyFrame _ _ hin] at hparent
    split at hparent <;> exact hparent
  · have hsize : (store.clear target).frames.size ≤ ref.index := by simpa [Store.clear] using hin
    rwa [frame_of_le hsize, ← frame_of_le (Nat.not_lt.mp hin)] at hparent

/-- A frame that is written to is one that has been made. -/
theorem Outward.target_lt (outward : store.Outward) (made : ref.index < store.frames.size)
    (way : store.Passes name ref target) : target.index < store.frames.size := by
  induction way with
  | here ref => exact made
  | outwards _ inside _ ih => exact ih (Nat.lt_trans (outward _ _ inside) made)

/-- **An assignment changes one binding.** -/
theorem Outward.rebound_assign (outward : store.Outward) (made : ref.index < store.frames.size)
    (h : store.Nearest name ref target ∨ store.Unbound name ref target) (value : Value) :
    store.Rebound (store.assign ref name value) target name value := by
  rw [outward.assign_target h]
  exact rebound_declare (outward.target_lt made (h.elim Nearest.way Unbound.way)) name value

theorem Framed.outward (framed : store.Framed) : store.Outward := by
  induction framed with
  | bare none =>
    intro ref parent hparent
    rw [frame_of_le (by simp [none])] at hparent
    cases hparent
  | outermost _ ih => exact ih.newFrame fun _ h => nomatch h
  | child _ made ih =>
    refine ih.newFrame fun ref href => ?_
    cases href
    exact made
  | declare _ made name value ih => exact (rebound_declare made name value).outward ih
  | @assign store ref _ made name value ih =>
    obtain ⟨target, h⟩ := ih.exists_target name ref
    exact (ih.rebound_assign made h value).outward ih
  | clear _ _ ih => exact ih.clear _

/-- **What is found under a name is what the nearest frame has, and an assignment changes the
binding of that frame,** or else makes one in the outermost frame, and nothing but that; afterwards
the new value is found. -/
theorem assign_nearest (framed : store.Framed) (made : ref.index < store.frames.size)
    (name : String) (value : Value) :
    (∀ holder, store.Nearest name ref holder →
      store.binding? ref name = store.ownBinding? holder name) ∧
    (store.isBound ref name = true ↔ ∃ holder, store.Nearest name ref holder) ∧
    (∀ log calls nesting, Run.lookUp ref name ⟨store, log, calls, nesting⟩ =
      match store.binding? ref name with
      | some found => .ok found ⟨store, log, calls, nesting⟩
      | none => .error (.error (.reference name)) ⟨store, log, calls, nesting⟩) ∧
    ∃ target, (store.Nearest name ref target ∨ store.Unbound name ref target) ∧
      store.Rebound (store.assign ref name value) target name value ∧
      (store.assign ref name value).binding? ref name = some value := by
  have outward := framed.outward
  obtain ⟨target, h⟩ := outward.exists_target name ref
  have hrebound := outward.rebound_assign made h value
  refine ⟨fun holder hnearest => (hnearest.found outward).1, outward.isBound_iff, ?_, target, h,
    hrebound, hrebound.binding? outward (h.elim Nearest.way Unbound.way)⟩
  intro log calls nesting
  change (match store.binding? ref name with
    | some found => pure found
    | none => Run.fail (.reference name) : Run Value) ⟨store, log, calls, nesting⟩ = _
  cases store.binding? ref name <;> rfl

/-- Three frames, one inside the other. The name is taken from the middle one again. -/
def threeFrames : Store :=
  let outer := (empty.newFrame none).2.declare ⟨0⟩ "x" (.string "outer")
  let middle := (outer.newFrame (some ⟨0⟩)).2.declare ⟨1⟩ "x" (.string "middle")
  (middle.newFrame (some ⟨1⟩)).2.clear ⟨1⟩

theorem framed_threeFrames : threeFrames.Framed :=
  .clear (.child (.declare (.child (.declare (.outermost (.bare rfl)) (by decide) _ _)
    (by decide)) (by decide) _ _) (by decide)) (by decide)

/-- The outermost of the three frames is written to. -/
theorem assign_nearest_cleared :
    threeFrames.Framed ∧ threeFrames.Nearest "x" ⟨2⟩ ⟨0⟩ ∧
      threeFrames.binding? ⟨2⟩ "x" = some (.string "outer") ∧
      threeFrames.Rebound (threeFrames.assign ⟨2⟩ "x" .null) ⟨0⟩ "x" .null ∧
      (threeFrames.assign ⟨2⟩ "x" .null).binding? ⟨2⟩ "x" = some .null := by
  have nearest : threeFrames.Nearest "x" ⟨2⟩ ⟨0⟩ :=
    ⟨.outwards (by decide) rfl (.outwards (by decide) rfl (.here _)), by decide⟩
  have made : (⟨2⟩ : FrameRef).index < threeFrames.frames.size := by decide
  obtain ⟨hfound, -, -, target, h, hrebound, hbinding⟩ :=
    assign_nearest framed_threeFrames made "x" .null
  have outward := framed_threeFrames.outward
  have htarget : target = ⟨0⟩ := by
    rcases h with hnearest | hunbound
    · have heq := (hnearest.found outward).2
      rw [(nearest.found outward).2] at heq
      exact (Option.some.inj heq).symm
    · have hnone := (hunbound.found outward).2.1
      rw [(nearest.found outward).2] at hnone
      cases hnone
  exact ⟨framed_threeFrames, nearest, hfound _ nearest, htarget ▸ hrebound, hbinding⟩

end Store

end Formulary
