import AmxxMqtt.Lib.Transition

/-!
# Refinement of transition systems

A concrete system refines an abstract one when every concrete step is matched by a run of the
abstract system that shows the same observations.  `observed` collects what the steps of a run
show, and `Simulates.run` carries the matching from steps to runs: whatever a concrete run shows,
an abstract run shows too.

Nothing here mentions a program.
-/

namespace Refinement

variable {σ τ α β ω : Type*} {step : σ → α → Option σ} {astep : τ → β → Option τ}
  {shows : σ → α → List ω} {ashows : τ → β → List ω}

/-- What the steps of a run show, oldest first. -/
def observed (step : σ → α → Option σ) (shows : σ → α → List ω) : σ → List α → List ω
  | _, [] => []
  | s, a :: as => shows s a ++ ((step s a).elim [] fun t => observed step shows t as)

@[simp] theorem observed_nil (s : σ) : observed step shows s [] = [] := rfl

theorem observed_cons {s t : σ} {a : α} {as : List α} (taken : step s a = some t) :
    observed step shows s (a :: as) = shows s a ++ observed step shows t as := by
  simp only [observed, taken, Option.elim_some]

theorem observed_singleton {s t : σ} {a : α} (taken : step s a = some t) :
    observed step shows s [a] = shows s a := by
  rw [observed_cons taken, observed_nil, List.append_nil]

theorem observed_append {s t : σ} {as bs : List α} (ran : Transition.run step s as = some t) :
    observed step shows s (as ++ bs) = observed step shows s as ++ observed step shows t bs := by
  induction as generalizing s with
  | nil =>
      cases ran
      rfl
  | cons a as ih =>
      obtain ⟨u, taken, rest⟩ := Transition.run_cons.mp ran
      rw [List.cons_append, observed_cons taken, observed_cons taken, ih rest, List.append_assoc]

/-- What is made of each sight can be made of them all at the end. -/
theorem observed_map {ν : Type*} (f : ω → ν) (s : σ) (as : List α) :
    observed step (fun s a => (shows s a).map f) s as = (observed step shows s as).map f := by
  induction as generalizing s with
  | nil => rfl
  | cons a as ih =>
      rw [observed, observed, List.map_append]
      cases step s a with
      | none => rfl
      | some t => exact congrArg _ (ih t)

/-- Actions that show nothing. -/
theorem observed_eq_nil {quiet : α → Prop} (silent : ∀ s a, quiet a → shows s a = []) {s : σ}
    {as : List α} (all : ∀ a ∈ as, quiet a) : observed step shows s as = [] := by
  induction as generalizing s with
  | nil => rfl
  | cons a as ih =>
      obtain ⟨now, later⟩ := List.forall_mem_cons.mp all
      rw [observed, silent s a now, List.nil_append]
      cases step s a with
      | none => rfl
      | some t => exact ih later

/-- Every allowed step of the concrete system is matched by a run of the abstract one. -/
def Simulates (step : σ → α → Option σ) (shows : σ → α → List ω) (astep : τ → β → Option τ)
    (ashows : τ → β → List ω) (allowed : α → Prop) (related : σ → τ → Prop) : Prop :=
  ∀ {s t a s'}, allowed a → related s t → step s a = some s' → ∃ bs t',
    Transition.run astep t bs = some t' ∧ observed astep ashows t bs = shows s a ∧ related s' t'

/-- **What a concrete run shows, an abstract run shows.** -/
theorem Simulates.run {allowed : α → Prop} {related : σ → τ → Prop}
    (simulates : Simulates step shows astep ashows allowed related) {s s' : σ} {t : τ}
    {as : List α} (initially : related s t) (actions : ∀ a ∈ as, allowed a)
    (ran : Transition.run step s as = some s') : ∃ bs t',
    Transition.run astep t bs = some t' ∧
      observed astep ashows t bs = observed step shows s as ∧ related s' t' := by
  induction as generalizing s t with
  | nil =>
      cases ran
      exact ⟨[], t, rfl, rfl, initially⟩
  | cons a as ih =>
      obtain ⟨allowedNow, allowedLater⟩ := List.forall_mem_cons.mp actions
      obtain ⟨u, taken, rest⟩ := Transition.run_cons.mp ran
      obtain ⟨bs, v, matched, same, next⟩ := simulates allowedNow initially taken
      obtain ⟨cs, t', later, sameLater, last⟩ := ih next allowedLater rest
      refine ⟨bs ++ cs, t', Transition.run_append.mpr ⟨v, matched, later⟩, ?_, last⟩
      rw [observed_append matched, observed_cons taken, same, sameLater]

end Refinement
