import Mathlib.Algebra.GroupWithZero.Nat
import Mathlib.Data.List.Infix

/-!
# The backlog of a server with a budget

In each period up to `budget` of what waits is served, and then more arrives.

* `after_le_iff`: the backlog is within a limit exactly if everything since the start, and every
  number of recent periods, is.
* `after_le_of_burst`: so a load of the budget and a burst keeps it within the burst and what waited
  at first, or a budget if that was less.
-/

namespace Backlog

/-- What waits after periods with these arrivals, oldest first. -/
def after (budget : Nat) : Nat → List Nat → Nat
  | waiting, [] => waiting
  | waiting, arrived :: arrivals => after budget (waiting - budget + arrived) arrivals

variable {budget waiting limit burst : Nat} {arrivals : List Nat}

theorem after_append (waiting : Nat) (arrivals : List Nat) (arrived : Nat) :
    after budget waiting (arrivals ++ [arrived]) =
      after budget waiting arrivals - budget + arrived := by
  induction arrivals generalizing waiting with
  | nil => rfl
  | cons first arrivals ih => exact ih (waiting - budget + first)

/-- The last number of periods is the last one, with those before it. -/
theorem forall_suffix_concat_iff {arrived : Nat} {property : List Nat → Prop} :
    (∀ recent, recent <:+ arrivals ++ [arrived] → recent ≠ [] → property recent) ↔
      property [arrived] ∧
        ∀ recent, recent <:+ arrivals → recent ≠ [] → property (recent ++ [arrived]) := by
  constructor
  · intro all
    refine ⟨all _ (List.suffix_append ..) (by simp), fun recent suffix _ => ?_⟩
    obtain ⟨before, rfl⟩ := suffix
    exact all _ ⟨before, (List.append_assoc ..).symm⟩ (by simp)
  · intro both recent ends nonempty
    rcases both with ⟨last, longer⟩
    rcases List.suffix_concat_iff.mp ends with rfl | ⟨earlier, rfl, suffix⟩
    · exact absurd rfl nonempty
    · by_cases none : earlier = []
      · subst none
        exact last
      · exact longer earlier suffix none

/-- **The backlog, period by period.** -/
theorem after_le_iff : after budget waiting arrivals ≤ limit ↔
    waiting + arrivals.sum ≤ limit + budget * arrivals.length ∧
      ∀ recent, recent <:+ arrivals → recent ≠ [] →
        recent.sum + budget ≤ limit + budget * recent.length := by
  induction arrivals using List.reverseRecOn generalizing limit with
  | nil =>
      simp only [after, List.sum_nil, List.length_nil, List.suffix_nil]
      constructor
      · intro within
        exact ⟨by omega, fun recent empty nonempty => absurd empty nonempty⟩
      · intro both
        simpa using both.1
  | append_singleton arrivals arrived ih =>
      rw [after_append, forall_suffix_concat_iff]
      simp only [List.sum_append, List.sum_singleton, List.length_append, List.length_singleton,
        Nat.mul_add, Nat.mul_one]
      by_cases room : arrived ≤ limit
      · have before : after budget waiting arrivals - budget + arrived ≤ limit ↔
            after budget waiting arrivals ≤ limit - arrived + budget := by omega
        rw [before, ih]
        refine and_congr (by omega) ?_
        constructor
        · intro windows
          refine ⟨by omega, fun recent suffix nonempty => ?_⟩
          have window := windows recent suffix nonempty
          omega
        · intro both recent suffix nonempty
          have window := both.2 recent suffix nonempty
          omega
      · exact iff_of_false (by omega) fun both => by omega

theorem after_le_of_burst
    (conforms : ∀ recent, recent <:+ arrivals → recent.sum ≤ budget * recent.length + burst) :
    after budget waiting arrivals ≤ burst + max waiting budget := by
  refine after_le_iff.mpr ⟨?_, fun recent suffix nonempty => ?_⟩
  · have whole := conforms arrivals (List.suffix_refl _)
    omega
  · have window := conforms recent suffix
    omega

end Backlog
