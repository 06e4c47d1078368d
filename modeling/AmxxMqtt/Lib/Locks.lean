import Mathlib.Algebra.GroupWithZero.Nat
import Mathlib.Logic.Function.Basic
import AmxxMqtt.Lib.Transition

/-!
# Scoped locks on several threads

Each thread has a stack of statements to run, and each statement a role: it requests a mutex,
releases one, works under one, or works under none.  `Scoped` says that the roles of a stack fit
together, so that every statement finds the mutex it works under, and never a second one, held by
its thread.

* `Move` is what one step of a thread may do to the stacks and the holders; `Valid.move`: the
  moves keep the stacks scoped and the holders those the stacks say.
* `Valid.one_mutex`, `Valid.holds_none`: no thread holds two mutexes, or one while its top
  statement works under none.
* `Valid.releases`: the holder of a mutex releases it in steps of its own.
* `completes`: a group of threads that includes every holder finishes the work of each of its
  members in steps of its own.

Nothing here mentions a program.
-/

namespace Locks

variable {T M S : Type*}

/-- What a statement does with the mutexes. -/
inductive Role (M : Type*) where
  | request (m : M)
  | release (m : M)
  /-- works under the mutex, in one step -/
  | inside (m : M)
  /-- the last work under the mutex, which decides what follows the release -/
  | last (m : M)
  /-- works under no mutex -/
  | outside

/-- The mutex held when the statement is reached. -/
def Role.before : Role M → Option M
  | .request _ | .outside => none
  | .release m | .inside m | .last m => some m

/-- The mutex held when the statement, with all it leads to, is done. -/
def Role.after : Role M → Option M
  | .request m | .inside m => some m
  | .release _ | .last _ | .outside => none

section Stacks

variable (role : S → Role M)

/-- Run from a thread that holds this mutex, the statements each find the mutex they work under,
and leave none held. -/
def Scoped : Option M → List S → Prop
  | held, [] => held = none
  | held, s :: rest => (role s).before = held ∧ Scoped (role s).after rest

/-- The mutex the top statement works under. -/
def held (stack : List S) : Option M :=
  stack.head?.bind fun s => (role s).before

@[simp] theorem held_nil : held role ([] : List S) = none := rfl

@[simp] theorem held_cons (s : S) (rest : List S) : held role (s :: rest) = (role s).before := rfl

/-- What works under no mutex is below a top statement that works under one. -/
theorem suffix_of_held {s : S} {rest below : List S} {m : M}
    (works : held role (s :: rest) = some m) (free : held role below = none)
    (among : below <:+ s :: rest) : below <:+ rest := by
  rcases List.suffix_cons_iff.mp among with rfl | lower
  · cases free.symm.trans works
  · exact lower

/-- The statements the thread runs up to and with the release of the mutex it holds. -/
def remaining : List S → Nat
  | [] => 0
  | s :: rest =>
      match role s with
      | .request _ | .outside => 0
      | .release _ => 1
      | .last _ => 2
      | .inside _ => remaining rest + 1

variable {role}

theorem Scoped.held_eq {mutex : Option M} {stack : List S} (nested : Scoped role mutex stack) :
    held role stack = mutex := by
  cases stack with
  | nil => exact nested.symm
  | cons s rest => exact nested.1

theorem Scoped.append {mutex : Option M} {pushed rest : List S}
    (first : Scoped role mutex pushed) (below : Scoped role none rest) :
    Scoped role mutex (pushed ++ rest) := by
  induction pushed generalizing mutex with
  | nil =>
      cases first
      exact below
  | cons s pushed ih => exact ⟨first.1, ih first.2⟩

end Stacks

/-- Who holds each mutex, and what each thread still has to run. -/
structure View (T M S : Type*) where
  holder : M → Option T
  stack : T → List S

/-! ## Steps of a group of threads -/

section Group

variable {σ α : Type*} {step : σ → α → Option σ} {view : σ → View T M S} {own : T → α}

/-- The second state is reached from the first by steps of members alone, which leave the other
threads their stacks. -/
def Alone (step : σ → α → Option σ) (view : σ → View T M S) (own : T → α) (within : T → Prop)
    (x y : σ) : Prop :=
  ∃ as, (∀ a ∈ as, ∃ u, within u ∧ a = own u) ∧ Transition.run step x as = some y ∧
    ∀ u, ¬ within u → (view y).stack u = (view x).stack u

variable {within : T → Prop} {x y z : σ}

namespace Alone

theorem refl : Alone step view own within x x :=
  ⟨[], by simp, rfl, fun u _ => rfl⟩

theorem trans (first : Alone step view own within x y) (second : Alone step view own within y z) :
    Alone step view own within x z := by
  rcases first with ⟨as, members, ran, same⟩
  rcases second with ⟨bs, later, ranLater, sameLater⟩
  refine ⟨as ++ bs, fun a member => ?_, Transition.run_append.mpr ⟨y, ran, ranLater⟩,
    fun u outside => (sameLater u outside).trans (same u outside)⟩
  rcases List.mem_append.mp member with left | right
  exacts [members a left, later a right]

/-- Steps of one member. -/
theorem of_replicate {t : T} {count : Nat} (inside : within t)
    (ran : Transition.run step x (List.replicate count (own t)) = some y)
    (same : ∀ u, u ≠ t → (view y).stack u = (view x).stack u) :
    Alone step view own within x y := by
  refine ⟨_, fun a member => ⟨t, inside, List.eq_of_mem_replicate member⟩, ran,
    fun u outside => same u ?_⟩
  intro same
  subst same
  exact outside inside

end Alone

end Group

/-! ## Scoped stacks and their holders -/

variable {role : S → Role M}

/-- Every stack is scoped, and a thread holds the mutex its top statement works under. -/
structure Valid (role : S → Role M) (v : View T M S) : Prop where
  nested : ∀ t, Scoped role (held role (v.stack t)) (v.stack t)
  owner : ∀ {m t}, v.holder m = some t ↔ held role (v.stack t) = some m

namespace Valid

variable {v w : View T M S} {t : T} {m : M}

/-- A thread holds at most one mutex. -/
theorem one_mutex (valid : Valid role v) {m' : M} (one : v.holder m = some t)
    (other : v.holder m' = some t) : m = m' :=
  Option.some.inj ((valid.owner.mp one).symm.trans (valid.owner.mp other))

/-- Two threads do not work under one mutex. -/
theorem exclusive (valid : Valid role v) {u : T} (one : held role (v.stack t) = some m)
    (other : held role (v.stack u) = some m) : t = u :=
  Option.some.inj ((valid.owner.mpr one).symm.trans (valid.owner.mpr other))

/-- A thread whose top statement works under no mutex holds none. -/
theorem holds_none (valid : Valid role v) (free : held role (v.stack t) = none) (m : M) :
    v.holder m ≠ some t := by
  intro holds
  cases free.symm.trans (valid.owner.mp holds)

/-- What a thread holds fits its top statement. -/
theorem nested_cons (valid : Valid role v) {s : S} {rest : List S} (top : v.stack t = s :: rest) :
    Scoped role (role s).after rest := by
  have all := valid.nested t
  rw [top] at all
  exact all.2

variable [DecidableEq T]

/-- One scoped stack replaces another. -/
theorem nested_update (valid : Valid role v) {mutex : Option M} {stack : List S}
    (nested : Scoped role mutex stack) (u : T) :
    Scoped role (held role (Function.update v.stack t stack u))
      (Function.update v.stack t stack u) := by
  by_cases this : u = t
  · subst this
    rw [Function.update_self, nested.held_eq]
    exact nested
  · rw [Function.update_of_ne this]
    exact valid.nested u

/-- The stack of one thread changes, and the mutex it holds does not. -/
theorem replace (valid : Valid role v) {stack : List S}
    (nested : Scoped role (held role (v.stack t)) stack) :
    Valid role ⟨v.holder, Function.update v.stack t stack⟩ where
  nested := valid.nested_update nested
  owner {m u} := by
    show v.holder m = some u ↔ held role (Function.update v.stack t stack u) = some m
    by_cases this : u = t
    · subst this
      rw [Function.update_self, nested.held_eq]
      exact valid.owner
    · rw [Function.update_of_ne this]
      exact valid.owner

variable [DecidableEq M]

/-- A thread that holds no mutex takes a free one. -/
theorem acquire (valid : Valid role v) {stack : List S} (free : v.holder m = none)
    (idle : held role (v.stack t) = none) (nested : Scoped role (some m) stack) :
    Valid role ⟨Function.update v.holder m (some t), Function.update v.stack t stack⟩ where
  nested := valid.nested_update nested
  owner {m' u} := by
    show Function.update v.holder m (some t) m' = some u ↔
      held role (Function.update v.stack t stack u) = some m'
    by_cases thread : u = t <;> by_cases mutex : m' = m
    · subst thread mutex
      rw [Function.update_self, Function.update_self, nested.held_eq]
      exact iff_of_true rfl rfl
    · subst thread
      rw [Function.update_of_ne mutex, Function.update_self, nested.held_eq]
      exact iff_of_false (valid.holds_none idle m') fun eq => mutex (Option.some.inj eq).symm
    · subst mutex
      rw [Function.update_self, Function.update_of_ne thread, ← valid.owner, free]
      exact iff_of_false (fun eq => thread (Option.some.inj eq).symm) (by simp)
    · rw [Function.update_of_ne mutex, Function.update_of_ne thread]
      exact valid.owner

/-- The holder of a mutex gives it up. -/
theorem drop (valid : Valid role v) {stack : List S} (holds : v.holder m = some t)
    (nested : Scoped role none stack) :
    Valid role ⟨Function.update v.holder m none, Function.update v.stack t stack⟩ where
  nested := valid.nested_update nested
  owner {m' u} := by
    show Function.update v.holder m none m' = some u ↔
      held role (Function.update v.stack t stack u) = some m'
    by_cases thread : u = t <;> by_cases mutex : m' = m
    · subst thread mutex
      rw [Function.update_self, Function.update_self, nested.held_eq]
      exact iff_of_false (by simp) (by simp)
    · subst thread
      rw [Function.update_of_ne mutex, Function.update_self, nested.held_eq]
      exact iff_of_false (fun still => mutex (valid.one_mutex still holds)) (by simp)
    · subst mutex
      rw [Function.update_self, Function.update_of_ne thread, ← valid.owner, holds]
      exact iff_of_false (by simp) fun eq => thread (Option.some.inj eq).symm
    · rw [Function.update_of_ne mutex, Function.update_of_ne thread]
      exact valid.owner

end Valid

variable [DecidableEq T] [DecidableEq M]

/-- What one step of the thread may do. -/
inductive Move (role : S → Role M) (t : T) (v : View T M S) : View T M S → Prop
  | request {s : S} {m : M} {rest : List S} (top : v.stack t = s :: rest)
      (is : role s = .request m) (free : v.holder m = none) :
      Move role t v
        ⟨Function.update v.holder m (some t), Function.update v.stack t rest⟩
  | release {s : S} {m : M} {rest : List S} (top : v.stack t = s :: rest)
      (is : role s = .release m) :
      Move role t v ⟨Function.update v.holder m none, Function.update v.stack t rest⟩
  | inside {s : S} {m : M} {rest : List S} (top : v.stack t = s :: rest)
      (is : role s = .inside m) : Move role t v ⟨v.holder, Function.update v.stack t rest⟩
  | last {s r : S} {m : M} {pushed rest : List S} (top : v.stack t = s :: rest)
      (is : role s = .last m) (releases : role r = .release m) (nested : Scoped role none pushed) :
      Move role t v ⟨v.holder, Function.update v.stack t (r :: (pushed ++ rest))⟩
  | outside {s : S} {pushed rest : List S} (top : v.stack t = s :: rest)
      (is : role s = .outside) (nested : Scoped role none pushed) :
      Move role t v ⟨v.holder, Function.update v.stack t (pushed ++ rest)⟩
  | call {pushed : List S} (free : held role (v.stack t) = none)
      (nested : Scoped role none pushed) :
      Move role t v ⟨v.holder, Function.update v.stack t (pushed ++ v.stack t)⟩

/-- **Every move keeps the locks scoped.** -/
theorem Valid.move {v w : View T M S} {t : T} (valid : Valid role v) (moved : Move role t v w) :
    Valid role w := by
  cases moved with
  | request top is free =>
      have below := valid.nested_cons top
      rw [is] at below
      apply valid.acquire free _ below
      rw [top, held_cons, is]
      rfl
  | release top is =>
      have below := valid.nested_cons top
      rw [is] at below
      apply valid.drop _ below
      rw [valid.owner, top, held_cons, is]
      rfl
  | inside top is =>
      have below := valid.nested_cons top
      apply valid.replace
      rw [is] at below
      rw [top, held_cons, is]
      exact below
  | last top is releases nested =>
      have below := valid.nested_cons top
      apply valid.replace
      rw [is] at below
      rw [top, held_cons, is]
      refine ⟨by rw [releases]; rfl, ?_⟩
      rw [releases]
      exact nested.append below
  | outside top is nested =>
      have below := valid.nested_cons top
      apply valid.replace
      rw [is] at below
      rw [top, held_cons, is]
      exact nested.append below
  | call free nested =>
      have below := valid.nested t
      apply valid.replace
      rw [free] at below ⊢
      exact nested.append below

/-- A thread is done with a statement that works under no mutex. -/
theorem Move.pop {v : View T M S} {t : T} {s : S} {rest : List S} (top : v.stack t = s :: rest)
    (is : role s = .outside) : Move role t v ⟨v.holder, Function.update v.stack t rest⟩ := by
  have nothing : Scoped role none [] := rfl
  have moved := Move.outside top is nothing
  exact moved

/-- A move of one thread leaves every other thread its stack. -/
theorem Move.stack_of_ne {v w : View T M S} {t u : T} (moved : Move role t v w) (other : u ≠ t) :
    w.stack u = v.stack u := by
  cases moved <;> exact Function.update_of_ne other _ _

/-! ## Progress -/

section Progress

variable {σ α : Type*} {step : σ → α → Option σ} {view : σ → View T M S} {own : T → α}

/-- A thread that holds a mutex can take its next step, whatever the others do. -/
def Proceeds (role : S → Role M) (step : σ → α → Option σ) (view : σ → View T M S)
    (own : T → α) : Prop :=
  ∀ {x t m}, Valid role (view x) → held role ((view x).stack t) = some m →
    ∃ y, step x (own t) = some y ∧ Move role t (view x) (view y)

/-- **The holder of a mutex releases it in steps of its own**, when it can always take its next
step while it holds one.  It does not get to the statements that work under no mutex. -/
theorem Valid.releases (proceeds : Proceeds role step view own)
    {x : σ} {t : T} {m : M} (valid : Valid role (view x)) (holds : (view x).holder m = some t) :
    ∃ count y, Transition.run step x (List.replicate count (own t)) = some y ∧
      (view y).holder m = none ∧ (∀ u, u ≠ t → (view y).stack u = (view x).stack u) ∧
      ∀ below, held role below = none → below <:+ (view x).stack t →
        below <:+ (view y).stack t := by
  generalize size : remaining role ((view x).stack t) = steps
  induction steps using Nat.strong_induction_on generalizing x with
  | _ steps ih =>
      have works := valid.owner.mp holds
      obtain ⟨y, taken, moved⟩ := proceeds valid works
      have others := fun u (other : u ≠ t) => moved.stack_of_ne other
      have deeper {s : S} {rest below : List S} (top : (view x).stack t = s :: rest)
          (free : held role below = none) (among : below <:+ (view x).stack t) :
          below <:+ rest :=
        suffix_of_held role (top ▸ works) free (top ▸ among)
      -- a step that leaves the mutex held brings its release nearer
      have later (still : (view y).holder m = some t)
          (less : remaining role ((view y).stack t) < steps)
          (kept : ∀ below, held role below = none → below <:+ (view x).stack t →
            below <:+ (view y).stack t) : ∃ count z,
          Transition.run step x (List.replicate count (own t)) = some z ∧
            (view z).holder m = none ∧ (∀ u, u ≠ t → (view z).stack u = (view x).stack u) ∧
            ∀ below, held role below = none → below <:+ (view x).stack t →
              below <:+ (view z).stack t := by
        obtain ⟨count, z, ran, free, same, keeps⟩ := ih _ less (valid.move moved) still rfl
        exact ⟨count + 1, z, Transition.run_cons.mpr ⟨y, taken, ran⟩, free,
          fun u other => (same u other).trans (others u other),
          fun below none among => keeps below none (kept below none among)⟩
      generalize after : view y = w at moved
      cases moved with
      | request top is | outside top is =>
          rw [top, held_cons, is] at works
          cases works
      | call free => cases free.symm.trans works
      | release top is =>
          refine ⟨1, y, Transition.run_singleton.mpr taken, ?_, others, fun below free among => ?_⟩
          · rw [top, held_cons, is] at works
            cases works
            rw [after]
            exact Function.update_self ..
          · rw [after]
            simpa using deeper top free among
      | inside top is =>
          apply later
          · rw [after]
            exact holds
          · rw [after, ← size, top]
            simp [remaining, is]
          · intro below free among
            rw [after]
            simpa using deeper top free among
      | last top is releases =>
          apply later
          · rw [after]
            exact holds
          · rw [after, ← size, top]
            simp [remaining, is, releases]
          · intro below free among
            rw [after]
            simpa using ((deeper top free among).trans (List.suffix_append _ _)).trans
              (List.suffix_cons _ _)

/-- A group of threads whose members can always go on, unless a mutex they request is taken, and
have less to do after each step. -/
structure Cooperates (role : S → Role M) (step : σ → α → Option σ) (view : σ → View T M S)
    (own : T → α) (within : T → Prop) (invariant : σ → Prop) (work : S → Nat) : Prop where
  valid : ∀ {x}, invariant x → Valid role (view x)
  kept : ∀ {x t y}, invariant x → within t → step x (own t) = some y → invariant y
  /-- every mutex taken is held by a member -/
  holders : ∀ {x m t}, invariant x → (view x).holder m = some t → within t
  advances : ∀ {x t s rest}, invariant x → within t → (view x).stack t = s :: rest →
    (∀ m, role s = .request m → (view x).holder m = none) →
    ∃ y, step x (own t) = some y ∧ Move role t (view x) (view y) ∧
      (((view y).stack t).map work).sum < (((view x).stack t).map work).sum

variable {within : T → Prop} {x y : σ}

namespace Cooperates

variable {invariant : σ → Prop} {work : S → Nat} {t : T}

theorem alone (group : Cooperates role step view own within invariant work)
    (alone : Alone step view own within x y) (initially : invariant x) : invariant y := by
  rcases alone with ⟨as, members, ran, same⟩
  have kept : ∀ {x a y}, (∃ u, within u ∧ a = own u) → step x a = some y → invariant x →
      invariant y := by
    intro x a y member taken holds
    rcases member with ⟨u, inside, rfl⟩
    exact group.kept holds inside taken
  exact Transition.run_invariant kept ran members initially

/-- The members free the mutex one of them requests. -/
theorem freed (group : Cooperates role step view own within invariant work)
    (proceeds : Proceeds role step view own)
    (initially : invariant x) {s : S} {rest : List S} (top : (view x).stack t = s :: rest) :
    ∃ y, Alone step view own within x y ∧ (view y).stack t = s :: rest ∧
      ∀ m, role s = .request m → (view y).holder m = none := by
  by_cases blocked : ∃ m u, role s = .request m ∧ (view x).holder m = some u
  · rcases blocked with ⟨m, u, is, taken⟩
    have valid := group.valid initially
    have other : t ≠ u := by
      intro same
      subst same
      apply valid.holds_none _ m taken
      rw [top, held_cons, is]
      rfl
    obtain ⟨count, y, ran, free, same, _⟩ := valid.releases proceeds taken
    refine ⟨y, .of_replicate (group.holders initially taken) ran same, (same t other).trans top,
      fun m' this => ?_⟩
    cases is.symm.trans this
    exact free
  · refine ⟨x, .refl, top, fun m is => ?_⟩
    by_contra taken
    obtain ⟨u, holds⟩ := Option.ne_none_iff_exists'.mp taken
    exact blocked ⟨m, u, is, holds⟩

/-- **The members finish the work of each of them.** -/
theorem completes (group : Cooperates role step view own within invariant work)
    (proceeds : Proceeds role step view own)
    (initially : invariant x) (inside : within t) :
    ∃ y, Alone step view own within x y ∧ (view y).stack t = [] := by
  generalize size : (((view x).stack t).map work).sum = total
  induction total using Nat.strong_induction_on generalizing x with
  | _ total ih =>
      cases top : (view x).stack t with
      | nil => exact ⟨x, .refl, top⟩
      | cons s rest =>
          obtain ⟨y, helped, topNext, enabled⟩ := group.freed proceeds initially top
          have holds := group.alone helped initially
          obtain ⟨z, taken, moved, less⟩ := group.advances holds inside topNext enabled
          rw [topNext, ← top, size] at less
          obtain ⟨last, rest, done⟩ := ih _ less (group.kept holds inside taken) rfl
          have one : Alone step view own within y z := by
            refine .of_replicate inside (?_ : Transition.run step y (List.replicate 1 _) = _)
              fun u other => moved.stack_of_ne other
            exact Transition.run_singleton.mpr taken
          exact ⟨last, helped.trans (one.trans rest), done⟩

end Cooperates

end Progress

end Locks
