import Mathlib.Logic.Function.Basic
import AmxxMqtt.Lib.Transition
import AmxxMqtt.RehldsFrameHook

/-!
# `FindEngineFactory`

The engine is looked up among the libraries of the process.  `dlopen` with `RTLD_NOLOAD` takes a
reference to a library that is loaded and loads none, and `dlclose` unloads one whose last
reference it gives back, so the lookup depends on what the rest of the process loads and closes
between its calls.
-/

namespace AmxxMqtt

/-- A library, by its identity. -/
abbrev Library := Nat

/-- A `CreateInterfaceFn`, as what it returns for `VREHLDS_HLDS_API_VERSION`. -/
abbrev Factory := Option RehldsApi

def engineNames : List String := ["engine_i486.so", "./engine_i486.so"]

/-- Where the lookup is in its loop over the names. -/
inductive Lookup where
  | loop (names : List String)
  /-- `dlopen` has returned a handle -/
  | opened (engine : Library) (names : List String)
  /-- and `dlsym` the factory, or null -/
  | looked (engine : Library) (factory : Option Factory) (names : List String)
  | returned (factory : Option Factory)
  deriving DecidableEq

/-- The library the lookup has a reference to. -/
def Lookup.engine : Lookup → Option Library
  | .opened engine _ | .looked engine _ _ => some engine
  | .loop _ | .returned _ => none

structure Loader where
  /-- the reference counts: a library is loaded as long as its count is positive -/
  references : Library → Nat
  /-- the references that the rest of the process has -/
  others : Library → Nat
  lookup : Lookup

inductive LoaderAction where
  /-- the next call of the lookup, when the names are those of these libraries -/
  | lookup (resolve : String → Option Library)
  /-- some other code opens a library -/
  | load (library : Library)
  /-- some other code closes a library it has opened -/
  | close (library : Library)

namespace Loader

/-- The host has loaded what it has loaded, and `FindEngineFactory` is called. -/
def initial (others : Library → Nat) : Loader := ⟨others, others, .loop engineNames⟩

/-- One call of the lookup; `dlsym` finds `createInterface`. -/
def advance (createInterface : Library → Option Factory) (resolve : String → Option Library)
    (s : Loader) : Option Loader :=
  match s.lookup with
  | .loop [] => some { s with lookup := .returned none }
  | .loop (name :: names) =>
      match resolve name with
      | some engine =>
          if s.references engine = 0 then some { s with lookup := .loop names }
          else
            some { s with
              references := Function.update s.references engine (s.references engine + 1)
              lookup := .opened engine names }
      | none => some { s with lookup := .loop names }
  | .opened engine names => some { s with lookup := .looked engine (createInterface engine) names }
  | .looked engine factory names =>
      some { s with
        references := Function.update s.references engine (s.references engine - 1)
        lookup := if factory.isSome then .returned factory else .loop names }
  | .returned _ => none

def step (createInterface : Library → Option Factory) (s : Loader) : LoaderAction → Option Loader
  | .lookup resolve => s.advance createInterface resolve
  | .load library =>
      some { s with
        references := Function.update s.references library (s.references library + 1)
        others := Function.update s.others library (s.others library + 1) }
  | .close library =>
      if 0 < s.others library then
        some { s with
          references := Function.update s.references library (s.references library - 1)
          others := Function.update s.others library (s.others library - 1) }
      else none

variable {createInterface : Library → Option Factory} {others : Library → Nat} {s s' : Loader}
  {action : LoaderAction} {actions : List LoaderAction}

/-! ## What one step can do -/

inductive Steps (createInterface : Library → Option Factory) (s : Loader) :
    LoaderAction → Loader → Prop
  | finished {resolve : String → Option Library} (here : s.lookup = .loop []) :
      Steps createInterface s (.lookup resolve) { s with lookup := .returned none }
  | missed {resolve : String → Option Library} {name : String} {names : List String}
      (here : s.lookup = .loop (name :: names))
      (absent : ∀ engine, resolve name = some engine → s.references engine = 0) :
      Steps createInterface s (.lookup resolve) { s with lookup := .loop names }
  | dlopen {resolve : String → Option Library} {name : String} {names : List String}
      {engine : Library} (here : s.lookup = .loop (name :: names))
      (found : resolve name = some engine) (loaded : 0 < s.references engine) :
      Steps createInterface s (.lookup resolve) { s with
        references := Function.update s.references engine (s.references engine + 1)
        lookup := .opened engine names }
  | dlsym {resolve : String → Option Library} {engine : Library} {names : List String}
      (here : s.lookup = .opened engine names) :
      Steps createInterface s (.lookup resolve)
        { s with lookup := .looked engine (createInterface engine) names }
  | dlclose {resolve : String → Option Library} {engine : Library} {factory : Option Factory}
      {names : List String} (here : s.lookup = .looked engine factory names) :
      Steps createInterface s (.lookup resolve) { s with
        references := Function.update s.references engine (s.references engine - 1)
        lookup := if factory.isSome then .returned factory else .loop names }
  | load {library : Library} :
      Steps createInterface s (.load library) { s with
        references := Function.update s.references library (s.references library + 1)
        others := Function.update s.others library (s.others library + 1) }
  | close {library : Library} (owned : 0 < s.others library) :
      Steps createInterface s (.close library) { s with
        references := Function.update s.references library (s.references library - 1)
        others := Function.update s.others library (s.others library - 1) }

theorem steps (taken : s.step createInterface action = some s') :
    Steps createInterface s action s' := by
  cases action with
  | lookup resolve =>
      simp only [step, advance] at taken
      split at taken
      · cases taken
        exact .finished ‹_›
      · split at taken
        · split at taken
          · cases taken
            refine .missed ‹_› fun engine found => ?_
            simp_all
          · cases taken
            exact .dlopen ‹_› ‹_› (Nat.pos_of_ne_zero ‹_›)
        · cases taken
          refine .missed ‹_› fun engine found => ?_
          simp_all
      · cases taken
        exact .dlsym ‹_›
      · cases taken
        exact .dlclose ‹_›
      · cases taken
  | load library =>
      cases taken
      exact .load
  | close library =>
      simp only [step] at taken
      split at taken
      · cases taken
        exact .close ‹_›
      · cases taken

/-! ## The references -/

/-- Every reference is the lookup's, or somebody else's. -/
def Accounted (s : Loader) : Prop :=
  ∀ library, s.references library =
    s.others library + if s.lookup.engine = some library then 1 else 0

theorem accounted_initial (others : Library → Nat) : (initial others).Accounted :=
  fun _ => rfl

theorem step_accounted (taken : s.step createInterface action = some s')
    (accounted : s.Accounted) : s'.Accounted := by
  intro library
  have here := accounted library
  cases steps taken with
  | finished top | missed top | dlsym top =>
      rw [top] at here
      exact here
  | dlopen top =>
      rw [top] at here
      simp only [Lookup.engine, Function.update_apply, Option.some.injEq] at here ⊢
      grind
  | dlclose top =>
      rw [top] at here
      simp only [Lookup.engine, Function.update_apply, Option.some.injEq] at here ⊢
      grind
  | load =>
      simp only [Function.update_apply]
      grind
  | close owned =>
      simp only [Function.update_apply]
      grind

/-! ## What is found -/

/-- The library was found under one of the names, and is open elsewhere unless it was closed. -/
def Found (actions : List LoaderAction) (others : Library → Nat) (engine : Library) : Prop :=
  (∃ resolve, .lookup resolve ∈ actions ∧ ∃ name ∈ engineNames, resolve name = some engine) ∧
    (.close engine ∉ actions → 0 < others engine)

/-- Where the names, the handle, the factory and the result of the lookup come from. -/
def Traced (createInterface : Library → Option Factory) (actions : List LoaderAction)
    (others : Library → Nat) : Lookup → Prop
  | .loop names => names ⊆ engineNames
  | .opened engine names => names ⊆ engineNames ∧ Found actions others engine
  | .looked engine factory names =>
      names ⊆ engineNames ∧ Found actions others engine ∧ createInterface engine = factory
  | .returned factory => ∀ found, factory = some found →
      ∃ engine, Found actions others engine ∧ createInterface engine = some found

theorem Traced.mono {others' : Library → Nat} {more : List LoaderAction} {lookup : Lookup}
    (kept : ∀ {engine}, Found actions others engine → Found more others' engine)
    (traced : Traced createInterface actions others lookup) :
    Traced createInterface more others' lookup := by
  cases lookup with
  | loop names => exact traced
  | opened engine names => exact ⟨traced.1, kept traced.2⟩
  | looked engine factory names => exact ⟨traced.1, kept traced.2.1, traced.2.2⟩
  | returned factory =>
      intro found is
      obtain ⟨engine, origin, gives⟩ := traced found is
      exact ⟨engine, kept origin, gives⟩

theorem step_elsewhere {engine : Library} (unclosed : action ≠ .close engine)
    (taken : s.step createInterface action = some s') (elsewhere : 0 < s.others engine) :
    0 < s'.others engine := by
  cases steps taken with
  | load =>
      simp only [Function.update_apply]
      grind
  | @close library owned =>
      have other : engine ≠ library := fun same => unclosed (congrArg _ same.symm)
      simpa only [Function.update_of_ne other] using elsewhere
  | _ => exact elsewhere

theorem step_found {engine : Library} (taken : s.step createInterface action = some s')
    (found : Found actions s.others engine) : Found (actions ++ [action]) s'.others engine := by
  rcases found with ⟨⟨resolve, asked, named⟩, elsewhere⟩
  refine ⟨⟨resolve, List.mem_append_left _ asked, named⟩, fun unclosed => ?_⟩
  rw [List.mem_append, List.mem_singleton, not_or] at unclosed
  exact step_elsewhere (Ne.symm unclosed.2) taken (elsewhere unclosed.1)

theorem step_traced (taken : s.step createInterface action = some s') (accounted : s.Accounted)
    (traced : Traced createInterface actions s.others s.lookup) :
    Traced createInterface (actions ++ [action]) s'.others s'.lookup := by
  have still : Traced createInterface (actions ++ [action]) s'.others s.lookup :=
    traced.mono (step_found taken)
  cases steps taken with
  | load | close => exact still
  | finished top =>
      intro found is
      cases is
  | missed top =>
      rw [top] at still
      exact (List.cons_subset.mp still).2
  | @dlopen resolve name names engine top found loaded =>
      rw [top] at still
      obtain ⟨named, others⟩ := List.cons_subset.mp still
      have owner := accounted engine
      rw [top] at owner
      refine ⟨others, ⟨resolve, List.mem_append_right _ List.mem_cons_self, name, named, found⟩, ?_⟩
      exact fun _ => owner ▸ loaded
  | dlsym top =>
      rw [top] at still
      exact ⟨still.1, still.2, rfl⟩
  | @dlclose resolve engine factory names top =>
      rw [top] at still
      rcases still with ⟨named, found, gives⟩
      cases factory with
      | none => exact named
      | some factory =>
          rintro _ ⟨⟩
          exact ⟨engine, found, gives⟩

theorem run_traced
    (ran : Transition.run (step createInterface) (initial others) actions = some s) :
    s.Accounted ∧ Traced createInterface actions s.others s.lookup := by
  let fact (actions : List LoaderAction) (s : Loader) : Prop :=
    s.Accounted ∧ Traced createInterface actions s.others s.lookup
  have kept : ∀ {actions s action s'}, fact actions s →
      step createInterface s action = some s' → fact (actions ++ [action]) s' :=
    fun known taken => ⟨step_accounted taken known.1, step_traced taken known.1 known.2⟩
  have last : fact actions s := Transition.run_induction
    ⟨accounted_initial others, List.Subset.refl engineNames⟩ kept ran
  exact last

/-! ## What stays as it is -/

/-- A library nobody has opened. -/
def Unopened (library : Library) (s : Loader) : Prop :=
  s.references library = 0 ∧ s.others library = 0

theorem step_unopened {library : Library} (other : action ≠ .load library)
    (taken : s.step createInterface action = some s') (unopened : s.Unopened library) :
    s'.Unopened library := by
  rcases unopened with ⟨unloaded, unowned⟩
  cases steps taken with
  | finished | missed | dlsym => exact ⟨unloaded, unowned⟩
  | dlopen top found loaded => simp only [Unopened, Function.update_apply] ; grind
  | dlclose top => simp only [Unopened, Function.update_apply] ; grind
  | @load opened =>
      have different : library ≠ opened := fun same => other (congrArg _ same.symm)
      simp only [Unopened, Function.update_of_ne different]
      exact ⟨unloaded, unowned⟩
  | close owned => simp only [Unopened, Function.update_apply] ; grind

/-- The lookup has found the engine, or still has its name to try. -/
def Ahead (name : String) (engine : Library) (s : Loader) : Prop :=
  s.Accounted ∧
    match s.lookup with
    | .loop names => name ∈ names
    | .opened opened names => opened = engine ∨ name ∈ names
    | .looked _ factory names => factory.isSome = true ∨ name ∈ names
    | .returned factory => factory.isSome = true

theorem step_ahead {name : String} {engine : Library}
    (gives : (createInterface engine).isSome = true) (elsewhere : 0 < s.others engine)
    (named : ∀ resolve, action = .lookup resolve → resolve name = some engine)
    (taken : s.step createInterface action = some s') (ahead : s.Ahead name engine) :
    s'.Ahead name engine := by
  rcases ahead with ⟨accounted, ahead⟩
  refine ⟨step_accounted taken accounted, ?_⟩
  cases steps taken with
  | load | close => exact ahead
  | finished top =>
      rw [top] at ahead
      cases ahead
  | @missed resolve first names top absent =>
      rw [top] at ahead
      rcases List.mem_cons.mp ahead with rfl | later
      · -- the lookup would have found it
        have unloaded := absent engine (named resolve rfl)
        have owner := accounted engine
        omega
      · exact later
  | @dlopen resolve first names opened top found loaded =>
      rw [top] at ahead
      rcases List.mem_cons.mp ahead with rfl | later
      · exact .inl (Option.some.inj (found.symm.trans (named resolve rfl)))
      · exact .inr later
  | dlsym top =>
      rw [top] at ahead
      rcases ahead with rfl | later
      · exact .inl gives
      · exact .inr later
  | @dlclose resolve opened factory names top =>
      rw [top] at ahead
      cases factory with
      | none => exact ahead.resolve_left (by simp)
      | some factory => rfl

/-- While the engine is open elsewhere, whoever else opens and closes it, the lookup gets to it. -/
theorem run_ahead {name : String} {engine : Library}
    (gives : (createInterface engine).isSome = true)
    (stays : Transition.Always (step createInterface) (fun s => 0 < s.others engine) s actions)
    (named : ∀ resolve, .lookup resolve ∈ actions → resolve name = some engine)
    (ran : Transition.run (step createInterface) s actions = some s')
    (ahead : s.Ahead name engine) : s'.Ahead name engine := by
  induction actions generalizing s with
  | nil =>
      cases ran
      exact ahead
  | cons action actions ih =>
      obtain ⟨next, taken, later⟩ := Transition.run_cons.mp ran
      have first := step_ahead gives stays.1
        (fun resolve same => named resolve (same ▸ List.mem_cons_self)) taken ahead
      exact ih (stays.2 next taken)
        (fun resolve member => named resolve (List.mem_cons_of_mem _ member)) later first

/-- What a lookup takes from the process, and what it brings. -/
structure Borrows (createInterface : Library → Option Factory) (loaded : Library → Nat)
    (actions : List LoaderAction) (s : Loader) : Prop where
  /-- whatever else is open stays open, and a lookup that has returned holds nothing -/
  accounted : ∀ library, s.references library =
    s.others library + if s.lookup.engine = some library then 1 else 0
  /-- the lookup loads no library -/
  unloaded : ∀ library, loaded library = 0 → .load library ∉ actions →
    s.references library = 0
  /-- a factory is the one of a library found under one of the names, and can be called as long as
  nobody closes that -/
  returned : ∀ factory, s.lookup = .returned (some factory) → ∃ engine,
    createInterface engine = some factory ∧
      (∃ resolve, .lookup resolve ∈ actions ∧ ∃ name ∈ engineNames, resolve name = some engine) ∧
      (.close engine ∉ actions → 0 < s.references engine)
  /-- an engine that somebody has open all the time is not missed -/
  found : ∀ engine, ∀ name ∈ engineNames, (createInterface engine).isSome = true →
    Transition.Always (step createInterface) (fun s => 0 < s.others engine) (initial loaded)
      actions →
    (∀ resolve, .lookup resolve ∈ actions → resolve name = some engine) →
    s.lookup ≠ .returned none

/-! ## The lookup on its own -/

/-- The loop of `FindEngineFactory`, with nothing else opened or closed meanwhile. -/
def findEngineFactory (createInterface : Library → Option Factory)
    (resolve : String → Option Library) (references : Library → Nat) :
    List String → Option Factory
  | [] => none
  | name :: names =>
      match resolve name with
      | some engine =>
          if references engine = 0 then
            findEngineFactory createInterface resolve references names
          else
            match createInterface engine with
            | some factory => some factory
            | none => findEngineFactory createInterface resolve references names
      | none => findEngineFactory createInterface resolve references names

/-- The engine that `findFrameRegistry` gets to see. -/
def engine (createInterface : Library → Option Factory) (resolve : String → Option Library)
    (references : Library → Nat) : Engine :=
  ⟨findEngineFactory createInterface resolve references engineNames⟩

theorem loop_uninterrupted (resolve : String → Option Library) (references : Library → Nat)
    (names : List String) : ∃ count,
    Transition.run (step createInterface) ⟨references, others, .loop names⟩
      (List.replicate count (.lookup resolve)) =
      some ⟨references, others,
        .returned (findEngineFactory createInterface resolve references names)⟩ := by
  induction names with
  | nil => exact ⟨1, rfl⟩
  | cons name names ih =>
      rcases ih with ⟨count, later⟩
      -- what a library that is not the one looked for leads to
      have next (missed : findEngineFactory createInterface resolve references (name :: names) =
          findEngineFactory createInterface resolve references names) (steps : Nat)
          (reached : Transition.run (step createInterface)
            ⟨references, others, .loop (name :: names)⟩
            (List.replicate steps (.lookup resolve)) = some ⟨references, others, .loop names⟩) :
          ∃ count, Transition.run (step createInterface)
            ⟨references, others, .loop (name :: names)⟩
            (List.replicate count (.lookup resolve)) = some ⟨references, others, .returned
              (findEngineFactory createInterface resolve references (name :: names))⟩ := by
        refine ⟨steps + count, ?_⟩
        rw [List.replicate_add, missed]
        exact Transition.run_append.mpr ⟨_, reached, later⟩
      cases named : resolve name with
      | none =>
          refine next ?_ 1 ?_
          · simp only [findEngineFactory, named]
          · simp [Transition.run, step, advance, named]
      | some engine =>
          by_cases unloaded : references engine = 0
          · refine next ?_ 1 ?_
            · simp only [findEngineFactory, named, if_pos unloaded]
            · simp [Transition.run, step, advance, named, unloaded]
          cases gives : createInterface engine with
          | none =>
              refine next ?_ 3 ?_
              · simp only [findEngineFactory, named, if_neg unloaded, gives]
              · simp [Transition.run, step, advance, named, unloaded, gives, List.replicate]
          | some factory =>
              refine ⟨3, ?_⟩
              simp [Transition.run, step, advance, named, unloaded, gives, List.replicate,
                findEngineFactory]

/-- While nothing else is opened or closed, the lookup is the loop, and leaves every reference
count as it was. -/
theorem lookup_uninterrupted (createInterface : Library → Option Factory)
    (resolve : String → Option Library) (loaded : Library → Nat) : ∃ count,
    Transition.run (step createInterface) (initial loaded)
      (List.replicate count (.lookup resolve)) =
      some ⟨loaded, loaded, .returned (engine createInterface resolve loaded).factory⟩ :=
  loop_uninterrupted resolve loaded engineNames

end Loader

/-- **The engine is only looked up.**  Whatever the rest of the process opens and closes meanwhile,
`FindEngineFactory` loads no library and gives back every reference it takes, so it unloads none
that is in use; the factory it returns is that of a library found under one of the engine's names,
and an engine that others keep loaded under such a name is found, however often they open and close
it. -/
theorem engine_borrowed {createInterface : Library → Option Factory} {loaded : Library → Nat}
    {actions : List LoaderAction} {s : Loader}
    (ran : Transition.run (Loader.step createInterface) (.initial loaded) actions = some s) :
    s.Borrows createInterface loaded actions where
  accounted := (Loader.run_traced ran).1
  unloaded library none loads := by
    have kept : ∀ {s : Loader} {action s'}, action ≠ .load library →
        s.step createInterface action = some s' → s.Unopened library → s'.Unopened library :=
      Loader.step_unopened
    have first : (Loader.initial loaded).Unopened library := ⟨none, none⟩
    refine (Transition.run_invariant kept ran (fun action member => ?_) first).1
    rintro rfl
    exact loads member
  returned factory here := by
    obtain ⟨accounted, traced⟩ := Loader.run_traced ran
    rw [here] at traced
    obtain ⟨engine, found, gives⟩ := traced factory rfl
    rcases found with ⟨named, elsewhere⟩
    refine ⟨engine, gives, named, fun unclosed => ?_⟩
    rw [accounted engine]
    exact Nat.add_pos_left (elsewhere unclosed) _
  found engine name candidate gives stays named missed := by
    have first : (Loader.initial loaded).Ahead name engine :=
      ⟨Loader.accounted_initial loaded, candidate⟩
    have factory := (Loader.run_ahead gives stays named ran first).2
    rw [missed] at factory
    cases factory

/-- ReHLDS under the second name, with some other library opened and closed meanwhile. -/
def dedicatedServer : List LoaderAction :=
  let resolve (name : String) : Option Library := if name = "./engine_i486.so" then some 5 else none
  [.lookup resolve, .load 9, .lookup resolve, .close 9, .lookup resolve, .lookup resolve]

theorem engine_borrowed_server : ∃ s : Loader,
    Transition.run (Loader.step fun engine => if engine = 5 then some none else none)
      (.initial fun library => if library = 5 then 1 else 0) dedicatedServer = some s ∧
      s.lookup = .returned (some none) ∧ s.references 5 = s.others 5 ∧ s.references 8 = 0 := by
  have result : (Transition.run (Loader.step fun engine => if engine = 5 then some none else none)
      (.initial fun library => if library = 5 then 1 else 0) dedicatedServer).map (·.lookup) =
      some (.returned (some none)) := by decide +kernel
  obtain ⟨s, ran, returned⟩ := Option.map_eq_some_iff.mp result
  have borrows := engine_borrowed ran
  have balance := borrows.accounted 5
  rw [returned] at balance
  exact ⟨s, ran, returned, balance, borrows.unloaded 8 rfl (by simp [dedicatedServer])⟩

end AmxxMqtt
