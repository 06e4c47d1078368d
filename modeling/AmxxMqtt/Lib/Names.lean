import Mathlib.Data.List.Nodup
import AmxxMqtt.Lib.Log

/-!
# Histories of issued names

A table issues names to identities, retires single names and is cleared as a whole.  The history
of these events, newest first, says which name stands for which identity: `live` reads it off,
and `live_eq_some_iff` spells it out as "issued, and neither retired, reissued nor cleared since".

Nothing here mentions a program.
-/

namespace Names

variable {ν ι : Type*}

/-- What can happen to a table of names. -/
inductive Event (ν ι : Type*) where
  | issued (name : ν) (identity : ι)
  | retired (name : ν)
  | cleared
  deriving DecidableEq

/-- The names issued, newest first. -/
def names : List (Event ν ι) → List ν
  | [] => []
  | .issued name _ :: log => name :: names log
  | .retired _ :: log | .cleared :: log => names log

/-- The identities names were issued to, newest first. -/
def identities : List (Event ν ι) → List ι
  | [] => []
  | .issued _ identity :: log => identity :: identities log
  | .retired _ :: log | .cleared :: log => identities log

/-- The identity a name stands for. -/
def live [DecidableEq ν] : List (Event ν ι) → ν → Option ι
  | [], _ => none
  | .issued issued identity :: log, name => if issued = name then some identity else live log name
  | .retired retired :: log, name => if retired = name then none else live log name
  | .cleared :: _, _ => none

/-- The event decides what the name stands for. -/
def Event.concerns (name : ν) : Event ν ι → Prop
  | .issued other _ => other = name
  | .retired other => other = name
  | .cleared => True

/-- Names are issued only while they stand for nothing, and retired only while they stand for
something. -/
def Disciplined [DecidableEq ν] : List (Event ν ι) → Prop
  | [] => True
  | .issued name _ :: log => live log name = none ∧ Disciplined log
  | .retired name :: log => (live log name).isSome ∧ Disciplined log
  | .cleared :: log => Disciplined log

variable {log : List (Event ν ι)} {name : ν} {identity other : ι}

theorem mem_names_iff : name ∈ names log ↔ ∃ identity, .issued name identity ∈ log := by
  induction log with
  | nil => simp only [names, List.not_mem_nil, exists_false]
  | cons event log ih =>
      cases event with
      | issued issued assigned =>
          simp only [names, List.mem_cons, ih, Event.issued.injEq]
          constructor
          · intro named
            rcases named with rfl | ⟨identity, member⟩
            exacts [⟨assigned, .inl ⟨rfl, rfl⟩⟩, ⟨identity, .inr member⟩]
          · intro named
            rcases named with ⟨identity, ⟨rfl, _⟩ | member⟩
            exacts [.inl rfl, .inr ⟨identity, member⟩]
      | retired retired => simp only [names, List.mem_cons, ih, reduceCtorEq, false_or]
      | cleared => simp only [names, List.mem_cons, ih, reduceCtorEq, false_or]

/-- A name once issued stays issued in every longer history. -/
theorem names_mono {newer : List (Event ν ι)} (extended : log <:+ newer)
    (issued : name ∈ names log) : name ∈ names newer := by
  obtain ⟨identity, member⟩ := mem_names_iff.mp issued
  exact mem_names_iff.mpr ⟨identity, extended.subset member⟩

/-- When no name is issued twice, a name has one identity in the whole history. -/
theorem identity_unique (distinct : (names log).Nodup) (first : .issued name identity ∈ log)
    (second : .issued name other ∈ log) : identity = other := by
  induction log with
  | nil => cases first
  | cons event log ih =>
      cases event with
      | issued issued assigned =>
          simp only [names, List.nodup_cons, mem_names_iff] at distinct
          simp only [List.mem_cons, Event.issued.injEq] at first second
          rcases first with ⟨rfl, rfl⟩ | first <;> rcases second with ⟨same, rfl⟩ | second
          · rfl
          · exact absurd ⟨other, second⟩ distinct.1
          · exact absurd ⟨identity, same ▸ first⟩ distinct.1
          · exact ih distinct.2 first second
      | retired retired =>
          simp only [List.mem_cons, reduceCtorEq, false_or] at first second
          exact ih distinct first second
      | cleared =>
          simp only [List.mem_cons, reduceCtorEq, false_or] at first second
          exact ih distinct first second

variable [DecidableEq ν]

/-- A name stands for an identity exactly when it was issued to it and nothing since concerns
the name. -/
theorem live_eq_some_iff :
    live log name = some identity ↔
      ∃ newer older, log = newer ++ .issued name identity :: older ∧
        ∀ event ∈ newer, ¬ event.concerns name := by
  induction log with
  | nil => simp [live]
  | cons event log ih =>
      have deeper := @Log.exists_below_cons_iff _ log event
        (fun event : Event ν ι => ¬ event.concerns name) (fun _ => True) (.issued name identity)
      simp only [true_and, and_true] at deeper
      rw [deeper, ← ih]
      cases event with
      | issued issued assigned =>
          simp only [live, Event.issued.injEq, Event.concerns]
          split
          · rename_i same
            simp only [same, true_and, Option.some.injEq, not_true_eq_false, false_and, or_false]
          · rename_i different
            simp only [different, false_and, not_false_eq_true, true_and, false_or]
      | retired retired =>
          simp only [live, reduceCtorEq, Event.concerns, false_or]
          split
          · rename_i same
            simp only [same, reduceCtorEq, not_true_eq_false, false_and]
          · rename_i different
            simp only [different, not_false_eq_true, true_and]
      | cleared =>
          simp only [live, reduceCtorEq, Event.concerns, not_true_eq_false, false_and, or_self]

theorem issued_of_live (stands : live log name = some identity) :
    .issued name identity ∈ log := by
  obtain ⟨newer, older, rfl, _⟩ := live_eq_some_iff.mp stands
  exact List.mem_append_right _ List.mem_cons_self

/-- A live name has been issued. -/
theorem mem_names_of_live (stands : live log name = some identity) : name ∈ names log :=
  mem_names_iff.mpr ⟨identity, issued_of_live stands⟩

/-- When no name is issued twice, nothing but a retirement or a clearing ends a name. -/
theorem live_eq_some_iff_of_nodup (distinct : (names log).Nodup) :
    live log name = some identity ↔
      ∃ newer older, log = newer ++ .issued name identity :: older ∧
        .retired name ∉ newer ∧ .cleared ∉ newer := by
  rw [live_eq_some_iff]
  constructor
  · intro since
    rcases since with ⟨newer, older, split, quiet⟩
    exact ⟨newer, older, split, fun member => quiet _ member rfl,
      fun member => quiet _ member True.intro⟩
  · intro since
    rcases since with ⟨newer, older, rfl, notRetired, notCleared⟩
    refine ⟨newer, older, rfl, fun event member => ?_⟩
    cases event with
    | issued issued assigned =>
        rintro rfl
        clear notRetired notCleared
        induction newer with
        | nil => cases member
        | cons first newer ih =>
            have inner : (names (newer ++ .issued issued identity :: older)).Nodup := by
              cases first with
              | issued first _ => exact (List.nodup_cons.mp distinct).2
              | retired _ => exact distinct
              | cleared => exact distinct
            rcases List.mem_cons.mp member with rfl | member
            · refine (List.nodup_cons.mp distinct).1 (mem_names_iff.mpr ⟨identity, ?_⟩)
              exact List.mem_append_right _ List.mem_cons_self
            · exact ih member inner
    | retired retired =>
        rintro rfl
        exact notRetired member
    | cleared => exact fun _ => notCleared member

/-! ## Retiring several names -/

theorem live_retired (retired : List ν) (log : List (Event ν ι)) (name : ν) :
    live ((retired.map .retired).reverse ++ log) name =
      if name ∈ retired then none else live log name := by
  induction retired generalizing log with
  | nil => rfl
  | cons first retired ih =>
      rw [List.map_cons, List.reverse_cons, List.append_assoc, List.singleton_append, ih, live]
      by_cases same : name = first
      · simp [same]
      · simp [same, Ne.symm same]

/-- Retiring distinct live names keeps the discipline. -/
theorem Disciplined.retired {retired : List ν} (disciplined : Disciplined log)
    (distinct : retired.Nodup) (stand : ∀ name ∈ retired, (live log name).isSome) :
    Disciplined ((retired.map .retired).reverse ++ log) := by
  induction retired generalizing log with
  | nil => exact disciplined
  | cons first retired ih =>
      obtain ⟨absent, distinct⟩ := List.nodup_cons.mp distinct
      rw [List.map_cons, List.reverse_cons, List.append_assoc, List.singleton_append]
      refine ih ⟨stand first List.mem_cons_self, disciplined⟩ distinct fun name member => ?_
      have different : first ≠ name := fun same => absent (same ▸ member)
      rw [live, if_neg different]
      exact stand name (List.mem_cons_of_mem _ member)

end Names
