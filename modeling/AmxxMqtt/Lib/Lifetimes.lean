import Mathlib.Data.List.Pairwise
import Mathlib.Logic.Function.Basic

/-!
# Lifetimes of objects on several threads

Objects are in a container, or owned by one statement that the main thread still has to run; any
other statement that uses an object borrows it.  A `Discipline` says of each statement what it
uses and owns, which uses of other statements it covers, and whether a use can wait below it.

* `Ordered`: on the main thread nothing below the owner of an object uses that object.
* `Covered`: on the other threads every use ends with a statement that covers it, and an object is
  freed only when no thread covers it.
* `Execs`, `Calls` and `Frees` are what one step of a thread may do; `Valid.exec`, `Valid.call` and
  `Valid.free`: they keep every object alive that a statement uses, and every loose object owned.
* `Valid.one_owner`: no object has two owners.

Nothing here mentions a program.
-/

namespace Lifetimes

variable {T O S : Type*}

/-- What the statements do with the objects. -/
structure Discipline (O S : Type*) where
  uses : S → Option O
  /-- the object is the statement's, to put into the container or to free -/
  owns : S → Option O
  /-- the object is not freed before the statement is done -/
  covers : S → Option O
  /-- nothing below the statement uses an object -/
  last : S → Bool
  owns_uses : ∀ {s o}, owns s = some o → uses s = some o

namespace Discipline

variable (D : Discipline O S)

/-- What may wait below a statement. -/
def Below (s below : S) : Prop :=
  (D.last s = true → D.uses below = none) ∧ ∀ o, D.owns s = some o → D.uses below ≠ some o

/-- Each statement of the stack, with those below it. -/
def Ordered (stack : List S) : Prop :=
  stack.Pairwise D.Below

/-- Every use of the stack is covered, by the statement itself or by one below it. -/
def Covered : List S → Prop
  | [] => True
  | s :: rest =>
      (∀ o, D.uses s = some o → ∃ cover ∈ s :: rest, D.covers cover = some o) ∧ Covered rest

/-- The statement can come before any others. -/
def Passes (s : S) : Prop :=
  D.last s = false ∧ D.owns s = none

/-- What a statement leads to asks no more of the statements below than it does itself. -/
def Fits (s : S) (statements : List S) : Prop :=
  D.Ordered statements ∧ (D.last s = true ∨
    ∀ next ∈ statements, D.last next = false ∧ ∀ o, D.owns next = some o → D.owns s = some o)

variable {D}

theorem Passes.below {s : S} (passes : D.Passes s) (below : S) : D.Below s below := by
  rcases passes with ⟨more, borrows⟩
  refine ⟨fun final => ?_, fun o owned => ?_⟩
  · cases more.symm.trans final
  · cases borrows.symm.trans owned

theorem below_of_unused {below : S} (unused : D.uses below = none) (s : S) : D.Below s below := by
  refine ⟨fun _ => unused, fun o _ used => ?_⟩
  cases unused.symm.trans used

/-- Statements that can come before any others are ordered. -/
theorem ordered_of_passes {statements : List S} (passes : ∀ s ∈ statements, D.Passes s) :
    D.Ordered statements := by
  induction statements with
  | nil => exact .nil
  | cons s rest ih =>
      obtain ⟨first, later⟩ := List.forall_mem_cons.mp passes
      exact .cons (fun below _ => first.below below) (ih later)

/-- A statement leads to statements that can come before any others. -/
theorem fits_of_passes (s : S) {statements : List S} (passes : ∀ next ∈ statements, D.Passes next) :
    D.Fits s statements := by
  refine ⟨ordered_of_passes passes, .inr fun next member => ⟨(passes next member).1, ?_⟩⟩
  intro o owned
  cases (passes next member).2.symm.trans owned

theorem Ordered.below_top {s : S} {rest : List S} (ordered : D.Ordered (s :: rest)) :
    ∀ below ∈ rest, D.Below s below :=
  (List.pairwise_cons.mp ordered).1

theorem Ordered.tail {s : S} {rest : List S} (ordered : D.Ordered (s :: rest)) :
    D.Ordered rest :=
  (List.pairwise_cons.mp ordered).2

theorem Ordered.append {statements rest : List S} (ordered : D.Ordered statements)
    (below : D.Ordered rest) (apart : ∀ s ∈ statements, ∀ b ∈ rest, D.Below s b) :
    D.Ordered (statements ++ rest) :=
  List.pairwise_append.mpr ⟨ordered, below, apart⟩

/-- A statement is replaced by those it leads to. -/
theorem Ordered.replace {s : S} {statements rest : List S} (ordered : D.Ordered (s :: rest))
    (fits : D.Fits s statements) : D.Ordered (statements ++ rest) := by
  rcases fits with ⟨inside, fits⟩
  refine inside.append ordered.tail fun next member below among => ?_
  obtain ⟨unused, unowned⟩ := ordered.below_top below among
  rcases fits with final | fits
  · exact below_of_unused (unused final) next
  · obtain ⟨more, owned⟩ := fits next member
    exact ⟨fun final => absurd (more.symm.trans final) (by simp),
      fun o owns => unowned o (owned o owns)⟩

/-- In an ordered stack nothing below the owner of an object owns it too. -/
theorem Ordered.unowned {s : S} {rest : List S} (ordered : D.Ordered (s :: rest)) {o : O}
    (owned : D.owns s = some o) : ∀ below ∈ rest, D.owns below ≠ some o :=
  fun below among owns => (ordered.below_top below among).2 o owned (D.owns_uses owns)

theorem covered_append {statements rest : List S} (covered : D.Covered rest)
    (above : ∀ s ∈ statements, ∀ o, D.uses s = some o → ∃ cover ∈ rest, D.covers cover = some o) :
    D.Covered (statements ++ rest) := by
  induction statements with
  | nil => exact covered
  | cons s statements ih =>
      obtain ⟨first, later⟩ := List.forall_mem_cons.mp above
      refine ⟨fun o used => ?_, ih later⟩
      obtain ⟨cover, among, covers⟩ := first o used
      exact ⟨cover, List.mem_cons_of_mem _ (List.mem_append_right _ among), covers⟩

/-- A stack that covers its own uses goes on any other. -/
theorem Covered.append {statements rest : List S} (covered : D.Covered statements)
    (below : D.Covered rest) : D.Covered (statements ++ rest) := by
  induction statements with
  | nil => exact below
  | cons s statements ih =>
      refine ⟨fun o used => ?_, ih covered.2⟩
      obtain ⟨cover, among, covers⟩ := covered.1 o used
      exact ⟨cover, List.mem_append_left rest among, covers⟩

/-- Where an object is used, a statement covers it. -/
theorem Covered.of_mem {stack : List S} (covered : D.Covered stack) {s : S} (member : s ∈ stack)
    {o : O} (used : D.uses s = some o) : ∃ cover ∈ stack, D.covers cover = some o := by
  induction stack with
  | nil => cases member
  | cons first rest ih =>
      rcases List.mem_cons.mp member with rfl | later
      · exact covered.1 o used
      · obtain ⟨cover, among, covers⟩ := ih covered.2 later
        exact ⟨cover, List.mem_cons_of_mem _ among, covers⟩

end Discipline

/-- Where the objects are, and what each thread still has to run. -/
structure View (T O S : Type*) where
  /-- the container has the object -/
  kept : O → Prop
  /-- a statement of the main thread owns the object -/
  loose : O → Prop
  stack : T → List S

def View.live (v : View T O S) (o : O) : Prop :=
  v.kept o ∨ v.loose o

/-- Objects outlive their uses, and every loose object has its owner. -/
structure Valid (D : Discipline O S) (main : T) (v : View T O S) : Prop where
  live : ∀ {t s o}, s ∈ v.stack t → D.uses s = some o → v.live o
  ordered : D.Ordered (v.stack main)
  owner : ∀ {o}, v.loose o ↔ ∃ s ∈ v.stack main, D.owns s = some o
  covered : ∀ {t}, t ≠ main → D.Covered (v.stack t)
  borrows : ∀ {t}, t ≠ main → ∀ s ∈ v.stack t, D.owns s = none

/-- The owners of an object, with the statements before and after it, are at one place. -/
theorem Valid.one_owner {D : Discipline O S} {main : T} {v : View T O S} (valid : Valid D main v)
    {above below : List S} {s : S} {o : O} (stack : v.stack main = above ++ s :: below)
    (owned : D.owns s = some o) : ∀ other ∈ above ++ below, D.owns other ≠ some o := by
  have ordered := valid.ordered
  rw [stack] at ordered
  obtain ⟨_, later, apart⟩ := List.pairwise_append.mp ordered
  intro other member owns
  rcases List.mem_append.mp member with above | under
  · exact (apart other above s List.mem_cons_self).2 o owns (D.owns_uses owned)
  · exact Discipline.Ordered.unowned later owned other under owns

/-! ## Steps -/

section Steps

variable [DecidableEq T]

/-- The thread's top statement is replaced by those it leads to. -/
structure Execs (D : Discipline O S) (main t : T) (s : S) (statements rest : List S)
    (v w : View T O S) : Prop where
  top : v.stack t = s :: rest
  stack : w.stack = Function.update v.stack t (statements ++ rest)
  fits : D.Fits s statements
  live : ∀ {o}, v.live o → w.live o
  uses : ∀ next ∈ statements, ∀ {o}, D.uses next = some o → w.live o
  loose : ∀ {o}, w.loose o ↔
    v.loose o ∧ D.owns s ≠ some o ∨ ∃ next ∈ statements, D.owns next = some o
  /-- away from the main thread nothing is owned, and nothing used that was not -/
  borrows : t ≠ main → ∀ next ∈ statements, D.owns next = none ∧
    ∀ {o}, D.uses next = some o → D.uses s = some o ∧ D.covers s ≠ some o

/-- Statements are put before those of the thread. -/
structure Calls (D : Discipline O S) (main t : T) (statements : List S) (v w : View T O S) :
    Prop where
  stack : w.stack = Function.update v.stack t (statements ++ v.stack t)
  ordered : D.Ordered statements
  above : (∀ s ∈ statements, D.Passes s) ∨ ∀ below ∈ v.stack t, D.uses below = none
  live : ∀ {o}, v.live o → w.live o
  uses : ∀ s ∈ statements, ∀ {o}, D.uses s = some o → w.live o
  loose : ∀ {o}, w.loose o ↔ v.loose o ∨ ∃ s ∈ statements, D.owns s = some o
  borrows : t ≠ main → D.Covered statements ∧ ∀ s ∈ statements, D.owns s = none

/-- The owner of an object frees it. -/
structure Frees (D : Discipline O S) (main : T) (s : S) (rest : List S) (o : O)
    (v w : View T O S) : Prop where
  top : v.stack main = s :: rest
  stack : w.stack = Function.update v.stack main rest
  owned : D.owns s = some o
  quiet : ∀ {u}, u ≠ main → ∀ other ∈ v.stack u, D.covers other ≠ some o
  live : ∀ {other}, v.live other → other ≠ o → w.live other
  loose : ∀ {other}, w.loose other ↔ v.loose other ∧ other ≠ o

variable {D : Discipline O S} {main t : T} {v w : View T O S} {s : S} {statements rest : List S}

/-- A statement of the new stacks is one of the stack replaced, or of another. -/
theorem mem_update {stack : List S} {u : T}
    (member : s ∈ Function.update v.stack t stack u) :
    (u = t ∧ s ∈ stack) ∨ (u ≠ t ∧ s ∈ v.stack u) := by
  by_cases this : u = t
  · subst this
    rw [Function.update_self] at member
    exact .inl ⟨rfl, member⟩
  · rw [Function.update_of_ne this] at member
    exact .inr ⟨this, member⟩

/-- The main thread's stack is the one replaced, or the old one. -/
theorem update_main {stack : List S} {property : List S → Prop}
    (replaced : t = main → property stack) (same : property (v.stack main)) :
    property (Function.update v.stack t stack main) := by
  by_cases this : main = t
  · subst this
    rw [Function.update_self]
    exact replaced rfl
  · rw [Function.update_of_ne this]
    exact same

namespace Valid

/-- The stacks of the other threads, one of them replaced. -/
theorem others_update (valid : Valid D main v) (stack : List S)
    (covered : t ≠ main → D.Covered stack) (borrows : t ≠ main → ∀ s ∈ stack, D.owns s = none)
    {u : T} (other : u ≠ main) : D.Covered (Function.update v.stack t stack u) ∧
      ∀ s ∈ Function.update v.stack t stack u, D.owns s = none := by
  by_cases this : u = t
  · subst this
    rw [Function.update_self]
    exact ⟨covered other, borrows other⟩
  · rw [Function.update_of_ne this]
    exact ⟨valid.covered other, valid.borrows other⟩

omit [DecidableEq T] in
/-- The owners on a stack whose top statement is run. -/
theorem owner_exec (valid : Valid D main v) (top : v.stack main = s :: rest) {o : O} :
    (v.loose o ∧ D.owns s ≠ some o ∨ ∃ next ∈ statements, D.owns next = some o) ↔
      ∃ next ∈ statements ++ rest, D.owns next = some o := by
  have ordered := valid.ordered
  rw [valid.owner, top]
  rw [top] at ordered
  constructor
  · intro owned
    rcases owned with ⟨⟨owner, member, owns⟩, other⟩ | ⟨next, member, owns⟩
    · rcases List.mem_cons.mp member with rfl | below
      · exact absurd owns other
      · exact ⟨owner, List.mem_append_right _ below, owns⟩
    · exact ⟨next, List.mem_append_left _ member, owns⟩
  · intro owned
    rcases owned with ⟨next, member, owns⟩
    rcases List.mem_append.mp member with new | below
    · exact .inr ⟨next, new, owns⟩
    · refine .inl ⟨⟨next, List.mem_cons_of_mem _ below, owns⟩, fun same => ?_⟩
      exact ordered.unowned same next below owns

/-- **A statement is run.** -/
theorem exec (valid : Valid D main v) (ran : Execs D main t s statements rest v w) :
    Valid D main w := by
  have here : s ∈ v.stack t := ran.top ▸ List.mem_cons_self
  have below : ∀ other ∈ rest, other ∈ v.stack t := fun other member =>
    ran.top ▸ List.mem_cons_of_mem s member
  have others {u : T} (other : u ≠ main) := valid.others_update (statements ++ rest)
    (fun other : t ≠ main => by
      have covered := valid.covered other
      rw [ran.top] at covered
      refine Discipline.covered_append covered.2 fun next member o used => ?_
      obtain ⟨before, uncovered⟩ := (ran.borrows other next member).2 used
      obtain ⟨cover, among, covers⟩ := covered.1 o before
      rcases List.mem_cons.mp among with rfl | lower
      exacts [absurd covers uncovered, ⟨cover, lower, covers⟩])
    (fun other => List.forall_mem_append.mpr ⟨fun next new => (ran.borrows other next new).1,
      fun next old => valid.borrows other next (below next old)⟩) other
  refine ⟨fun {u next o} member used => ?_, ?_, fun {o} => ?_, fun {u} other => ?_,
    fun {u} other => ?_⟩
  · rw [ran.stack] at member
    rcases mem_update member with ⟨rfl, new⟩ | ⟨_, old⟩
    · rcases List.mem_append.mp new with next | old
      exacts [ran.uses _ next used, ran.live (valid.live (below _ old) used)]
    · exact ran.live (valid.live old used)
  · rw [ran.stack]
    refine update_main (fun this => ?_) valid.ordered
    subst this
    have ordered := valid.ordered
    rw [ran.top] at ordered
    exact ordered.replace ran.fits
  · rw [ran.stack, ran.loose]
    by_cases this : main = t
    · subst this
      rw [Function.update_self]
      exact valid.owner_exec ran.top
    · rw [Function.update_of_ne this, valid.owner]
      constructor
      · intro owned
        rcases owned with ⟨old, _⟩ | ⟨next, member, owns⟩
        · exact old
        · cases (ran.borrows (Ne.symm this) next member).1.symm.trans owns
      · intro owned
        refine .inl ⟨owned, fun owns => ?_⟩
        cases (valid.borrows (Ne.symm this) s here).symm.trans owns
  · rw [ran.stack]
    exact (others other).1
  · rw [ran.stack]
    exact (others other).2

/-- **A thread is called.** -/
theorem call (valid : Valid D main v) (called : Calls D main t statements v w) :
    Valid D main w := by
  have others {u : T} (other : u ≠ main) := valid.others_update (statements ++ v.stack t)
    (fun other => (called.borrows other).1.append (valid.covered other))
    (fun other => List.forall_mem_append.mpr
      ⟨(called.borrows other).2, valid.borrows other⟩) other
  refine ⟨fun {u next o} member used => ?_, ?_, fun {o} => ?_, fun {u} other => ?_,
    fun {u} other => ?_⟩
  · rw [called.stack] at member
    rcases mem_update member with ⟨rfl, new⟩ | ⟨_, old⟩
    · rcases List.mem_append.mp new with next | old
      exacts [called.uses _ next used, called.live (valid.live old used)]
    · exact called.live (valid.live old used)
  · rw [called.stack]
    refine update_main (fun this => ?_) valid.ordered
    subst this
    refine called.ordered.append valid.ordered fun s member below among => ?_
    rcases called.above with passes | unused
    exacts [(passes s member).below below, Discipline.below_of_unused (unused below among) s]
  · rw [called.stack, called.loose, valid.owner]
    by_cases this : main = t
    · subst this
      simp only [Function.update_self, List.mem_append, or_and_right, exists_or]
      exact or_comm
    · rw [Function.update_of_ne this, or_iff_left]
      intro owned
      rcases owned with ⟨next, member, owns⟩
      cases ((called.borrows (Ne.symm this)).2 next member).symm.trans owns
  · rw [called.stack]
    exact (others other).1
  · rw [called.stack]
    exact (others other).2

/-- **An object is freed.** -/
theorem free {o : O} (valid : Valid D main v) (freed : Frees D main s rest o v w) :
    Valid D main w := by
  have below : ∀ other ∈ rest, other ∈ v.stack main := fun other member =>
    freed.top ▸ List.mem_cons_of_mem s member
  have ordered := valid.ordered
  rw [freed.top] at ordered
  refine ⟨fun {u next other} member used => ?_, ?_, fun {other} => ?_, fun {u} different => ?_,
    fun {u} different => ?_⟩
  · rw [freed.stack] at member
    rcases mem_update member with ⟨rfl, old⟩ | ⟨different, old⟩
    · refine freed.live (valid.live (below _ old) used) fun same => ?_
      exact (ordered.below_top next old).2 o freed.owned (same ▸ used)
    · refine freed.live (valid.live old used) fun same => ?_
      -- another thread would still cover the object
      obtain ⟨cover, among, covers⟩ := (valid.covered different).of_mem old used
      exact freed.quiet different cover among (same ▸ covers)
  · rw [freed.stack, Function.update_self]
    exact ordered.tail
  · have owners : (v.loose other ∧ D.owns s ≠ some other ∨
        ∃ next ∈ ([] : List S), D.owns next = some other) ↔
          ∃ next ∈ rest, D.owns next = some other := valid.owner_exec freed.top
    rw [freed.stack, freed.loose, Function.update_self, ← owners]
    simp [freed.owned, eq_comm]
  all_goals rw [freed.stack, Function.update_of_ne different]
  exacts [valid.covered different, valid.borrows different]

end Valid

end Steps

end Lifetimes
