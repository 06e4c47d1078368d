import Mathlib.Data.List.Infix

/-!
# Runs of a partial transition function

A system is given by one function `step : σ → α → Option σ`: `none` means that the action is
not enabled.  `run` folds a list of actions, and the rules below carry facts about single steps
over whole runs.

* `run_invariant`: an invariant kept by every step whose action is allowed holds at the end.
* `run_induction`: the same for a fact about the actions taken and the state reached.
* `Allowed`: every step of a run meets a condition on the state before it and its action;
  `Allowed.always` is the invariant rule for it.
* `Always`: every state along a run has a property; `always_iff_allowed` turns an exact condition
  on single steps into one on runs.
* `run_suffix`: a log that every step only extends is only extended by a run.

Nothing here mentions a program.
-/

namespace Transition

variable {σ α ε : Type*} {step : σ → α → Option σ}

/-- Take the actions in order; an action that is not enabled ends the run with `none`. -/
def run (step : σ → α → Option σ) : σ → List α → Option σ
  | s, [] => some s
  | s, a :: as => (step s a).bind fun t => run step t as

@[simp] theorem run_nil (s : σ) : run step s [] = some s := rfl

theorem run_cons {s u : σ} {a : α} {as : List α} :
    run step s (a :: as) = some u ↔ ∃ t, step s a = some t ∧ run step t as = some u := by
  simp only [run, Option.bind_eq_some_iff]

theorem run_append {s u : σ} {as bs : List α} :
    run step s (as ++ bs) = some u ↔ ∃ t, run step s as = some t ∧ run step t bs = some u := by
  induction as generalizing s with
  | nil => simp only [List.nil_append, run_nil, Option.some.injEq, exists_eq_left']
  | cons a as ih =>
      simp only [List.cons_append, run_cons, ih]
      constructor
      · intro parts
        rcases parts with ⟨t, first, v, rest, last⟩
        exact ⟨v, ⟨t, first, rest⟩, last⟩
      · intro parts
        rcases parts with ⟨v, ⟨t, first, rest⟩, last⟩
        exact ⟨t, first, v, rest, last⟩

theorem run_singleton {s t : σ} {a : α} : run step s [a] = some t ↔ step s a = some t := by
  simp only [run_cons, run_nil, Option.some.injEq, exists_eq_right]

theorem run_concat {s u : σ} {as : List α} {a : α} :
    run step s (as ++ [a]) = some u ↔ ∃ t, run step s as = some t ∧ step t a = some u := by
  simp only [run_append, run_singleton]

/-- An invariant kept by the allowed actions holds after every run of allowed actions. -/
theorem run_invariant {allowed : α → Prop} {invariant : σ → Prop}
    (preserved : ∀ {s a t}, allowed a → step s a = some t → invariant s → invariant t)
    {s t : σ} {as : List α} (ran : run step s as = some t)
    (actions : ∀ a ∈ as, allowed a) (initially : invariant s) : invariant t := by
  induction as generalizing s with
  | nil =>
      cases ran
      exact initially
  | cons a as ih =>
      obtain ⟨u, first, rest⟩ := run_cons.mp ran
      exact ih rest (fun b member => actions b (List.mem_cons_of_mem a member))
        (preserved (actions a List.mem_cons_self) first initially)

/-- A fact about the actions taken so far and the state they lead to, kept by every step, holds
after every run. -/
theorem run_induction {fact : List α → σ → Prop} {s t : σ} {as : List α}
    (initially : fact [] s)
    (kept : ∀ {as a t u}, fact as t → step t a = some u → fact (as ++ [a]) u)
    (ran : run step s as = some t) : fact as t := by
  induction as using List.reverseRecOn generalizing t with
  | nil =>
      cases ran
      exact initially
  | append_singleton as a ih =>
      obtain ⟨u, before, last⟩ := run_concat.mp ran
      exact kept (ih before) last

/-- Every step of the run from `s` meets the condition in the state it is taken from. -/
def Allowed (step : σ → α → Option σ) (condition : σ → α → Prop) : σ → List α → Prop
  | _, [] => True
  | s, a :: as => condition s a ∧ ∀ t, step s a = some t → Allowed step condition t as

/-- Every state reached along the run from `s` has the property. -/
def Always (step : σ → α → Option σ) (property : σ → Prop) : σ → List α → Prop
  | s, [] => property s
  | s, a :: as => property s ∧ ∀ t, step s a = some t → Always step property t as

/-- Whether a run is allowed can be computed. -/
instance decidableAllowed {condition : σ → α → Prop} [∀ s a, Decidable (condition s a)] :
    ∀ s as, Decidable (Allowed step condition s as)
  | _, [] => isTrue True.intro
  | s, a :: as =>
      match taken : step s a with
      | none => decidable_of_iff (condition s a)
          ⟨fun meets => ⟨meets, fun _ same =>
            absurd (taken.symm.trans same) (Option.some_ne_none _).symm⟩, And.left⟩
      | some t =>
          have : Decidable (Allowed step condition t as) := decidableAllowed t as
          decidable_of_iff (condition s a ∧ Allowed step condition t as)
            ⟨fun both => ⟨both.1, fun _ same => Option.some.inj (taken.symm.trans same) ▸ both.2⟩,
              fun both => ⟨both.1, both.2 t taken⟩⟩

/-- An invariant that every step meeting the condition keeps holds throughout a run whose steps
all meet it. -/
theorem Allowed.always {invariant property : σ → Prop} {condition : σ → α → Prop}
    (kept : ∀ {s a t}, step s a = some t → condition s a → invariant s → invariant t)
    (holds : ∀ {s}, invariant s → property s) {s : σ} {as : List α}
    (allowed : Allowed step condition s as) (initially : invariant s) :
    Always step property s as := by
  induction as generalizing s with
  | nil => exact holds initially
  | cons a as ih =>
      rcases allowed with ⟨meets, later⟩
      exact ⟨holds initially, fun t taken => ih (later t taken) (kept taken meets initially)⟩

/-- When a step keeps a property exactly if it meets the condition, a run keeps it throughout
exactly if its steps all meet the condition. -/
theorem always_iff_allowed {base property : σ → Prop} {condition : σ → α → Prop}
    (kept : ∀ {s a t}, step s a = some t → base s → base t)
    (decided : ∀ {s a t}, step s a = some t → base s → property s → (property t ↔ condition s a))
    {s t : σ} {as : List α} (ran : run step s as = some t) (based : base s)
    (initially : property s) : Always step property s as ↔ Allowed step condition s as := by
  induction as generalizing s with
  | nil => exact iff_of_true initially True.intro
  | cons a as ih =>
      obtain ⟨u, first, rest⟩ := run_cons.mp ran
      have here := decided first based initially
      constructor
      · intro meets
        rcases meets with ⟨_, later⟩
        have next : property u := by
          cases as with
          | nil => exact later u first
          | cons b bs => exact (later u first).1
        refine ⟨here.mp next, fun v taken => ?_⟩
        cases first.symm.trans taken
        exact (ih rest (kept first based) next).mp (later u first)
      · intro both
        rcases both with ⟨meets, later⟩
        refine ⟨initially, fun v taken => ?_⟩
        cases first.symm.trans taken
        exact (ih rest (kept first based) (here.mpr meets)).mpr (later u first)

/-- A newest-first log that every step only extends is only extended by a run. -/
theorem run_suffix {log : σ → List ε}
    (extended : ∀ {s a t}, step s a = some t → log s <:+ log t)
    {s t : σ} {as : List α} (ran : run step s as = some t) : log s <:+ log t := by
  induction as generalizing s with
  | nil =>
      cases ran
      exact List.suffix_refl _
  | cons a as ih =>
      obtain ⟨u, first, rest⟩ := run_cons.mp ran
      exact (extended first).trans (ih rest)

end Transition
