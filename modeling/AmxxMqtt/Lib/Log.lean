import Mathlib.Data.List.Infix

/-!
# Newest-first logs

A log lists events, newest first, and a fact about an event is a fact about the event and the
older part of the log.  `Explained` says that such a fact holds for every event of a log;
`exists_below_cons_iff` unfolds "the newest event for which something holds".

Nothing here mentions a program.
-/

namespace Log

variable {α : Type*} {log : List α} {event : α}

/-- Every event of the log is explained by the events before it. -/
def Explained (explains : α → List α → Prop) (log : List α) : Prop :=
  ∀ newer event older, log = newer ++ event :: older → explains event older

theorem explained_nil (explains : α → List α → Prop) : Explained explains [] := by
  intro newer event older split
  cases newer <;> cases split

theorem explained_cons {explains : α → List α → Prop} (first : explains event log)
    (rest : Explained explains log) : Explained explains (event :: log) := by
  intro newer other older split
  cases newer with
  | nil =>
      cases split
      exact first
  | cons newest newer =>
      obtain ⟨_, below⟩ := List.cons.inj split
      exact rest newer other older below

/-- The newest event for which something holds, below events that are all quiet: it comes first,
or the first event is quiet and it comes later. -/
theorem exists_below_cons_iff {quiet : α → Prop} {below : List α → Prop} {marked : α} :
    (∃ newer older, event :: log = newer ++ marked :: older ∧ below older ∧
        ∀ other ∈ newer, quiet other) ↔
      event = marked ∧ below log ∨ quiet event ∧
        ∃ newer older, log = newer ++ marked :: older ∧ below older ∧
          ∀ other ∈ newer, quiet other := by
  constructor
  · intro split
    rcases split with ⟨newer, older, split, holds, silent⟩
    cases newer with
    | nil =>
        obtain ⟨same, rest⟩ := List.cons.inj split
        exact .inl ⟨same, rest ▸ holds⟩
    | cons first newer =>
        obtain ⟨same, rest⟩ := List.cons.inj split
        exact .inr ⟨same ▸ silent first List.mem_cons_self, newer, older, rest, holds,
          fun other member => silent other (List.mem_cons_of_mem _ member)⟩
  · intro cases
    rcases cases with ⟨same, holds⟩ | ⟨isQuiet, newer, older, split, holds, silent⟩
    · exact ⟨[], log, by rw [same, List.nil_append], holds, by simp⟩
    · refine ⟨event :: newer, older, by rw [split, List.cons_append], holds, ?_⟩
      exact fun other member => (List.mem_cons.mp member).elim (fun same => same ▸ isQuiet)
        (silent other)

end Log
