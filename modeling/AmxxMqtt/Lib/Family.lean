import Mathlib.Logic.Function.Basic
import AmxxMqtt.Lib.Refinement

/-!
# Families of systems

Many systems of one kind, side by side: one step of the family is one step of one member.  Seen
from a member, a run of the family is a run of that member (`run_member`) and shows what the member
shows (`observed_member`), so what its runs keep, every member keeps.

Nothing here mentions a program.
-/

namespace Family

variable {ι σ α : Type*} [DecidableEq ι]

/-- One member takes a step. -/
def step (member : σ → α → Option σ) (f : ι → σ) (act : ι × α) : Option (ι → σ) :=
  (member (f act.1) act.2).map (Function.update f act.1)

/-- What is one member's in a list of what the members do or show. -/
def ofMember (i : ι) (acts : List (ι × α)) : List α :=
  acts.filterMap fun act => if act.1 = i then some act.2 else none

/-- What a step shows, and of which member. -/
def shows {ω : Type*} (visible : σ → α → List ω) (f : ι → σ) (act : ι × α) : List (ι × ω) :=
  (visible (f act.1) act.2).map (Prod.mk act.1)

variable {member : σ → α → Option σ} {f g : ι → σ} {i : ι} {a : α}

theorem step_eq_some : step member f (i, a) = some g ↔
    ∃ s, member (f i) a = some s ∧ g = Function.update f i s := by
  simp only [step, Option.map_eq_some_iff, eq_comm]

theorem ofMember_cons_self (i : ι) (a : α) (acts : List (ι × α)) :
    ofMember i ((i, a) :: acts) = a :: ofMember i acts :=
  List.filterMap_cons_some (if_pos rfl)

theorem ofMember_cons_of_ne {j : ι} (other : j ≠ i) (a : α) (acts : List (ι × α)) :
    ofMember i ((j, a) :: acts) = ofMember i acts :=
  List.filterMap_cons_none (if_neg other)

theorem ofMember_append (i : ι) (xs ys : List (ι × α)) :
    ofMember i (xs ++ ys) = ofMember i xs ++ ofMember i ys :=
  List.filterMap_append

theorem ofMember_reverse (i : ι) (xs : List (ι × α)) :
    ofMember i xs.reverse = (ofMember i xs).reverse :=
  List.filterMap_reverse

theorem mem_ofMember {xs : List (ι × α)} : a ∈ ofMember i xs ↔ (i, a) ∈ xs := by
  simp only [ofMember, List.mem_filterMap, Option.ite_none_right_eq_some, Option.some.injEq]
  constructor
  · rintro ⟨⟨_, _⟩, member, rfl, rfl⟩
    exact member
  · exact fun member => ⟨_, member, rfl, rfl⟩

theorem ofMember_map_self (i : ι) (xs : List α) : ofMember i (xs.map (Prod.mk i)) = xs := by
  simp [ofMember, List.filterMap_map]

theorem ofMember_map_of_ne {j : ι} (other : j ≠ i) (xs : List α) :
    ofMember i (xs.map (Prod.mk j)) = [] := by
  simp [ofMember, List.filterMap_map, other]

/-- Where a member's own list is taken apart, the whole list is. -/
theorem ofMember_split {xs : List (ι × α)} {newer older : List α}
    (split : ofMember i xs = newer ++ a :: older) : ∃ above below,
    xs = above ++ (i, a) :: below ∧ ofMember i above = newer ∧ ofMember i below = older := by
  obtain ⟨front, back, rfl, first, second⟩ := List.filterMap_eq_append_iff.mp split
  obtain ⟨others, ⟨j, b⟩, below, rfl, none, here, last⟩ := List.filterMap_eq_cons_iff.mp second
  obtain ⟨rfl, same⟩ := Option.ite_none_right_eq_some.mp here
  cases same
  refine ⟨front ++ others, below, by rw [List.append_assoc], ?_, last⟩
  have skipped : ofMember j others = [] := List.filterMap_eq_nil_iff.mpr none
  rw [ofMember_append, skipped, List.append_nil]
  exact first

/-- **Seen from a member, a run of the family is a run of the member.** -/
theorem run_member {acts : List (ι × α)} (ran : Transition.run (step member) f acts = some g)
    (i : ι) : Transition.run member (f i) (ofMember i acts) = some (g i) := by
  induction acts generalizing f with
  | nil =>
      cases ran
      rfl
  | cons act acts ih =>
      rcases act with ⟨j, a⟩
      obtain ⟨h, taken, rest⟩ := Transition.run_cons.mp ran
      obtain ⟨s, moved, rfl⟩ := step_eq_some.mp taken
      have later := ih rest
      by_cases this : j = i
      · subst this
        rw [Function.update_self] at later
        rw [ofMember_cons_self]
        exact Transition.run_cons.mpr ⟨s, moved, later⟩
      · rw [Function.update_of_ne (Ne.symm this)] at later
        rw [ofMember_cons_of_ne this]
        exact later

/-- **What a run of the family shows of a member, the member's run shows.** -/
theorem observed_member {ω : Type*} {visible : σ → α → List ω} {acts : List (ι × α)}
    (ran : Transition.run (step member) f acts = some g) (i : ι) :
    ofMember i (Refinement.observed (step member) (shows visible) f acts) =
      Refinement.observed member visible (f i) (ofMember i acts) := by
  induction acts generalizing f with
  | nil => rfl
  | cons act acts ih =>
      rcases act with ⟨j, a⟩
      obtain ⟨h, taken, rest⟩ := Transition.run_cons.mp ran
      obtain ⟨s, moved, rfl⟩ := step_eq_some.mp taken
      rw [Refinement.observed_cons taken, ofMember_append, ih rest]
      by_cases this : j = i
      · subst this
        rw [Function.update_self, ofMember_cons_self, Refinement.observed_cons moved]
        exact congrArg (· ++ _) (ofMember_map_self ..)
      · rw [Function.update_of_ne (Ne.symm this), ofMember_cons_of_ne this]
        exact congrArg (· ++ _) (ofMember_map_of_ne this _)

end Family
