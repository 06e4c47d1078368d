import Mathlib.Algebra.BigOperators.Group.Finset.Basic
import Mathlib.Algebra.GroupWithZero.Nat
import AmxxMqtt.Lib.Transition

/-!
# Potentials

A system takes internal steps on its own and is entered from outside.  A potential pays for the
internal steps when each of them lowers it, and an entry raises it by no more than its credit.

* `Pays.run_le`: a run takes no more internal steps than its entries brought.
* `Pays.length_le`: internal steps alone come to an end.
* `Pays.settles`: where something internal is always possible before rest, they end at rest.
* `total`: the cost of what each thread has on its stack, under the update of one of them.
-/

namespace Potential

variable {σ α : Type*} {step : σ → α → Option σ} {internal : α → Bool} {potential : σ → Nat}
  {credit : α → Nat} {s t : σ} {as : List α}

/-- The potential pays for every internal step, and the credits for what entries add to it. -/
structure Pays (step : σ → α → Option σ) (internal : α → Bool) (potential : σ → Nat)
    (credit : α → Nat) : Prop where
  internal_lt : ∀ {s a t}, internal a = true → step s a = some t → potential t < potential s
  entry_le : ∀ {s a t}, internal a = false → step s a = some t →
    potential t ≤ potential s + credit a

namespace Pays

variable (pays : Pays step internal potential credit)
include pays

theorem run_le (ran : Transition.run step s as = some t) :
    as.countP internal + potential t ≤ potential s + (as.map credit).sum := by
  induction as generalizing s with
  | nil =>
      cases ran
      simp
  | cons a as ih =>
      obtain ⟨u, first, rest⟩ := Transition.run_cons.mp ran
      have later := ih rest
      rw [List.map_cons, List.sum_cons]
      cases within : internal a with
      | true =>
          have less := pays.internal_lt within first
          rw [List.countP_cons_of_pos within]
          omega
      | false =>
          have most := pays.entry_le within first
          rw [List.countP_cons_of_neg (by simp [within])]
          omega

theorem length_le (ran : Transition.run step s as = some t)
    (within : ∀ a ∈ as, internal a = true) : as.length + potential t ≤ potential s := by
  induction as generalizing s with
  | nil =>
      cases ran
      simp
  | cons a as ih =>
      obtain ⟨u, first, rest⟩ := Transition.run_cons.mp ran
      obtain ⟨here, others⟩ := List.forall_mem_cons.mp within
      have later := ih rest others
      have less := pays.internal_lt here first
      rw [List.length_cons]
      omega

/-- The internal steps of a system that is not stuck before rest lead to rest. -/
theorem settles {invariant rest : σ → Prop}
    (kept : ∀ {s a t}, internal a = true → step s a = some t → invariant s → invariant t)
    (progress : ∀ {s}, invariant s → ¬ rest s → ∃ a t, internal a = true ∧ step s a = some t)
    (initially : invariant s) :
    ∃ as t, (∀ a ∈ as, internal a = true) ∧ Transition.run step s as = some t ∧ rest t := by
  induction hs : potential s using Nat.strong_induction_on generalizing s with
  | h bound ih =>
      by_cases resting : rest s
      · exact ⟨[], s, by simp, rfl, resting⟩
      obtain ⟨a, u, within, first⟩ := progress initially resting
      have less := pays.internal_lt within first
      obtain ⟨as, t, others, ran, final⟩ := ih _ (hs ▸ less) (kept within first initially) rfl
      refine ⟨a :: as, t, List.forall_mem_cons.mpr ⟨within, others⟩, ?_, final⟩
      exact Transition.run_cons.mpr ⟨u, first, ran⟩

end Pays

/-! ## Stacks -/

variable {T S : Type*} [Fintype T] [DecidableEq T] (cost : S → Nat)

/-- What the statements of one stack cost. -/
def weight (stack : List S) : Nat := (stack.map cost).sum

@[simp] theorem weight_nil : weight cost [] = 0 := rfl

@[simp] theorem weight_cons (first : S) (stack : List S) :
    weight cost (first :: stack) = cost first + weight cost stack := rfl

@[simp] theorem weight_append (first rest : List S) :
    weight cost (first ++ rest) = weight cost first + weight cost rest := by
  simp [weight]

/-- What the stacks of all threads cost. -/
def total (left : T → List S) : Nat := ∑ t, weight cost (left t)

theorem total_update (left : T → List S) (t : T) (stack : List S) :
    total cost (Function.update left t stack) + weight cost (left t) =
      total cost left + weight cost stack := by
  have others : ∑ u ∈ Finset.univ.erase t, weight cost (Function.update left t stack u) =
      ∑ u ∈ Finset.univ.erase t, weight cost (left u) :=
    Finset.sum_congr rfl fun u member =>
      congrArg (weight cost) (Function.update_of_ne (Finset.ne_of_mem_erase member) ..)
  unfold total
  rw [← Finset.add_sum_erase _ _ (Finset.mem_univ t), Function.update_self, others,
    ← Finset.add_sum_erase _ (fun u => weight cost (left u)) (Finset.mem_univ t)]
  omega

end Potential
