import Formulary.Source.Cache

/-!
# Kept programs are those of their texts

* `ProgramCache.Sound` : what is kept for a text is its program;
* `ProgramCache.getOrParse_eq` : the program of a text is the same whatever is kept;
* `ProgramCache.Sound.getOrParse` : what is kept behind that is sound again;
* `CacheCall`, `ProgramCache.after` : what is asked of a cache, and the cache behind that;
* `ProgramCache.Faithful` : every program is kept under its text, and there are no more of them than
  the bound (`ProgramCache.Faithful.call`, `ProgramCache.Faithful.after`).
-/

namespace Formulary

namespace ProgramCache

/-- Whether every program is kept for a text that it is the program of. -/
def Sound (cache : ProgramCache) : Prop :=
  ∀ text program, cache.find? text = some program → Program.parse text = .ok program

variable {cache : ProgramCache} {text : String}

theorem sound_empty (bound : Nat) : (empty bound).Sound :=
  fun _ _ h => nomatch h

theorem Sound.keep (sound : cache.Sound) {program : Program}
    (parsed : Program.parse text = .ok program) : (cache.keep text program).Sound := by
  have put : ∀ room : ProgramCache, room.Sound →
      Sound { room with programs := room.programs.put text program } := by
    intro room hroom other kept hkept
    unfold find? at hkept
    rw [Table.get?_put] at hkept
    split at hkept
    · next heq =>
      rw [heq, parsed, Option.some.inj hkept]
    · exact hroom other kept hkept
  unfold ProgramCache.keep
  split
  · exact sound
  · split
    · exact put _ (sound_empty cache.bound)
    · exact put _ sound

/-- **The program of a text is the same whatever is kept.** -/
theorem getOrParse_eq (sound : cache.Sound) (text : String) :
    (cache.getOrParse text).1 = Program.parse text := by
  unfold getOrParse
  cases hfind : cache.find? text with
  | some program => exact (sound text program hfind).symm
  | none => cases Program.parse text <;> rfl

theorem Sound.getOrParse (sound : cache.Sound) (text : String) :
    (cache.getOrParse text).2.Sound := by
  unfold ProgramCache.getOrParse
  cases cache.find? text with
  | some program => exact sound
  | none =>
    cases hparse : Program.parse text with
    | ok program => exact sound.keep hparse
    | error e => exact sound

/-- A text that is no script leaves the cache as it was. -/
theorem getOrParse_of_error (cache : ProgramCache) {e : SyntaxError}
    (h : Program.parse text = .error e) : (cache.getOrParse text).2 = cache := by
  unfold ProgramCache.getOrParse
  cases hfind : cache.find? text with
  | some program => rfl
  | none => rw [h]

end ProgramCache

/-! ## Calls in order -/

/-- Something asked of a cache. -/
inductive CacheCall where
  | getOrParse (text : String)
  | clear

namespace ProgramCache

/-- The cache behind a call. -/
def call (cache : ProgramCache) : CacheCall → ProgramCache
  | .getOrParse text => (cache.getOrParse text).2
  | .clear => cache.clear

/-- The cache behind calls in order. -/
def after (cache : ProgramCache) (calls : List CacheCall) : ProgramCache :=
  calls.foldl call cache

/-- Whether every program is kept under its text, and no more programs than the bound allows. -/
structure Faithful (bound : Nat) (cache : ProgramCache) : Prop where
  same_bound : cache.bound = bound
  parsed : ∀ entry ∈ cache.programs.entries, Program.parse entry.1 = .ok entry.2
  size_le : cache.size ≤ bound

variable {bound : Nat} {cache : ProgramCache} {text : String}

theorem faithful_empty (bound : Nat) : (empty bound).Faithful bound :=
  ⟨rfl, fun _ hmem => (nomatch hmem), Nat.zero_le bound⟩

theorem Faithful.sound (faithful : cache.Faithful bound) : cache.Sound :=
  fun text program hfind => faithful.parsed (text, program) (Table.mem_of_get? hfind)

theorem Faithful.clear (faithful : cache.Faithful bound) : cache.clear.Faithful bound := by
  unfold ProgramCache.clear
  rw [faithful.same_bound]
  exact faithful_empty bound

/-- There is room for one program more where a program is put. -/
theorem Faithful.put {program : Program} (faithful : cache.Faithful bound)
    (room : cache.size < bound) (parsed : Program.parse text = .ok program) :
    Faithful bound { cache with programs := cache.programs.put text program } := by
  refine ⟨faithful.same_bound, fun entry hmem => ?_, ?_⟩
  · rcases Table.mem_put hmem with rfl | hold
    · exact parsed
    · exact faithful.parsed entry hold
  · exact Nat.le_trans (Table.length_put_le cache.programs text program) room

theorem Faithful.keep {program : Program} (faithful : cache.Faithful bound)
    (parsed : Program.parse text = .ok program) : (cache.keep text program).Faithful bound := by
  unfold ProgramCache.keep
  rw [faithful.same_bound]
  by_cases hzero : bound = 0
  · rw [if_pos hzero]
    exact faithful
  · rw [if_neg hzero]
    by_cases hfull : bound ≤ cache.size
    · rw [if_pos hfull]
      exact faithful.clear.put (Nat.pos_of_ne_zero hzero) parsed
    · rw [if_neg hfull]
      exact faithful.put (Nat.lt_of_not_le hfull) parsed

theorem Faithful.getOrParse (faithful : cache.Faithful bound) (text : String) :
    (cache.getOrParse text).2.Faithful bound := by
  unfold ProgramCache.getOrParse
  cases cache.find? text with
  | some program => exact faithful
  | none =>
    cases hparse : Program.parse text with
    | ok program => exact faithful.keep hparse
    | error e => exact faithful

theorem Faithful.call (faithful : cache.Faithful bound) (call : CacheCall) :
    (cache.call call).Faithful bound := by
  cases call with
  | getOrParse text => exact faithful.getOrParse text
  | clear => exact faithful.clear

/-- **Every program is kept under its text, and no more of them than the bound allows,** whatever is
asked of a cache of which that is true. -/
theorem Faithful.after (faithful : cache.Faithful bound) (calls : List CacheCall) :
    (cache.after calls).Faithful bound := by
  induction calls generalizing cache with
  | nil => exact faithful
  | cons call calls ih => exact ih (faithful.call call)

/-- A cache with room for two programs forgets them for a third one. -/
example : ((empty 2).after [.getOrParse "a", .getOrParse "b", .getOrParse "c"]).size = 1 := by
  decide +kernel

end ProgramCache

end Formulary
