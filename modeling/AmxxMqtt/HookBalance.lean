import AmxxMqtt.Lib.Log
import AmxxMqtt.Lib.Transition
import AmxxMqtt.RehldsFrameHook

/-!
# The frame hook's registration is balanced

Runs of the calls that touch the `SV_Frame` registration, with whatever the engine answers at
each discovery.  A run logs the calls it makes of engine registries and of `MF_AddNatives`;
`replay` is what the engine makes of such a log, and `current` is the registration the log leaves
open.
-/

namespace AmxxMqtt

/-! ## Discovery -/

/-- Discovery reaches this registry. -/
def Engine.Offers (engine : Engine) (registry : Registry) : Prop :=
  ∃ api, engine.factory = some (some api) ∧ api.majorVersion = 3 ∧ 7 ≤ api.minorVersion ∧
    api.hookchains = some (some registry)

namespace FrameHook

variable {engine : Engine} {hook : FrameHook}

/-- Discovery finds the registry the engine offers, or gives a reason. -/
theorem findFrameRegistry_cases (engine : Engine) :
    (∃ registry, engine.Offers registry ∧ findFrameRegistry engine = (some registry, "")) ∨
      (∀ registry, ¬ engine.Offers registry) ∧
        ∃ error, error ≠ "" ∧ findFrameRegistry engine = (none, error) := by
  rcases engine with ⟨_ | _ | api⟩
  · refine .inr ⟨?_, _, by decide, rfl⟩
    intro registry offers
    rcases offers with ⟨api, found, _⟩
    cases found
  · refine .inr ⟨?_, _, by decide, rfl⟩
    intro registry offers
    rcases offers with ⟨api, found, _⟩
    cases found
  · simp only [findFrameRegistry]
    split
    · rename_i version
      refine .inr ⟨?_, _, ?_, rfl⟩
      · intro registry offers
        rcases offers with ⟨other, found, major, minor, _⟩
        cases found
        simp only [apiMajor, minimumApiMinor] at version
        omega
      · -- the text of a version mismatch ends in a full stop
        intro empty
        have length := congrArg String.length empty
        simp only [String.length_append] at length
        exact absurd length (by simp)
    · rename_i version
      rcases api with ⟨major, minor, _ | _ | registry⟩
      · refine .inr ⟨?_, _, by decide, rfl⟩
        intro registry offers
        rcases offers with ⟨other, found, _, _, chains⟩
        cases found
        cases chains
      · refine .inr ⟨?_, _, by decide, rfl⟩
        intro registry offers
        rcases offers with ⟨other, found, _, _, chains⟩
        cases found
        cases chains
      · simp only [apiMajor, minimumApiMinor, not_or, not_not] at version
        exact .inl ⟨registry, ⟨_, rfl, version.1, Int.not_lt.mp version.2, rfl⟩, rfl⟩

/-- `CheckRehldsApi` succeeds exactly when discovery reaches a registry. -/
theorem checkRehldsApi_iff :
    (checkRehldsApi engine).1 = true ↔ ∃ registry, engine.Offers registry := by
  rcases findFrameRegistry_cases engine with ⟨registry, offers, found⟩ | ⟨none, error, _, failed⟩
  · simp only [checkRehldsApi, found, Option.isSome_some, true_iff]
    exact ⟨registry, offers⟩
  · simp only [checkRehldsApi, failed, Option.isSome_none, Bool.false_eq_true, false_iff,
      not_exists]
    exact none

/-- Everything `RegisterRehldsFrameHook` can do. -/
inductive Registers (engine : Engine) (hook : FrameHook) : FrameHook × Bool × String → Prop
  | already {registry : Registry} (remembered : hook.frameRegistry = some registry) :
      Registers engine hook (hook, true, "")
  | registered {registry : Registry} (free : hook.frameRegistry = none)
      (offers : engine.Offers registry) :
      Registers engine hook (⟨some registry, registry :: hook.hooks⟩, true, "")
  | failed {error : String} (free : hook.frameRegistry = none)
      (none : ∀ registry, ¬ engine.Offers registry) (reason : error ≠ "") :
      Registers engine hook (hook, false, error)

theorem registers (engine : Engine) (hook : FrameHook) :
    Registers engine hook (hook.registerRehldsFrameHook engine) := by
  cases remembered : hook.frameRegistry with
  | some registry =>
      simp only [registerRehldsFrameHook, remembered]
      exact .already remembered
  | none =>
      simp only [registerRehldsFrameHook, remembered]
      rcases findFrameRegistry_cases engine with
        ⟨registry, offers, found⟩ | ⟨none, error, reason, failed⟩
      · simp only [found]
        exact .registered remembered offers
      · simp only [failed]
        exact .failed remembered none reason

theorem registerRehldsFrameHook_iff : (hook.registerRehldsFrameHook engine).2.1 = true ↔
    hook.frameRegistry.isSome ∨ ∃ registry, engine.Offers registry := by
  have cases := registers engine hook
  generalize hook.registerRehldsFrameHook engine = result at cases
  cases cases with
  | already remembered => exact iff_of_true rfl (.inl (by rw [remembered, Option.isSome_some]))
  | registered free offers => exact iff_of_true rfl (.inr ⟨_, offers⟩)
  | failed free none reason =>
      refine iff_of_false Bool.false_ne_true ?_
      rw [free, Option.isSome_none]
      intro hooked
      rcases hooked with remembered | ⟨registry, offers⟩
      · cases remembered
      · exact none registry offers

/-- The error text is empty exactly on success. -/
theorem registerRehldsFrameHook_error_iff : (hook.registerRehldsFrameHook engine).2.2 = "" ↔
    (hook.registerRehldsFrameHook engine).2.1 = true := by
  have cases := registers engine hook
  generalize hook.registerRehldsFrameHook engine = result at cases
  cases cases with
  | already remembered | registered free offers => exact iff_of_true rfl rfl
  | failed free none reason => exact iff_of_false reason Bool.false_ne_true

/-- A registration that reports success leaves a registry remembered. -/
theorem registerRehldsFrameHook_isSome
    (succeeded : (hook.registerRehldsFrameHook engine).2.1 = true) :
    (hook.registerRehldsFrameHook engine).1.frameRegistry.isSome := by
  have cases := registers engine hook
  generalize hook.registerRehldsFrameHook engine = result at cases succeeded
  cases cases with
  | already remembered => rw [remembered, Option.isSome_some]
  | registered free offers => rfl
  | failed free none reason => cases succeeded

/-- The registration stands once, in the remembered registry. -/
theorem Balanced.count (balanced : hook.Balanced) (registry : Registry) :
    hook.hooks.count registry = if hook.frameRegistry = some registry then 1 else 0 := by
  rw [show hook.hooks = hook.frameRegistry.toList from balanced]
  cases hook.frameRegistry with
  | none => rfl
  | some other => simp only [Option.toList_some, List.count_singleton, beq_iff_eq,
      Option.some.injEq]

end FrameHook

/-! ## Runs -/

/-- A call of the module's hook functions, with the engine it meets. -/
inductive HookCall where
  | checkRehldsApi (engine : Engine)
  | registerRehldsFrameHook (engine : Engine)
  | unregisterRehldsFrameHook
  | onAmxxAttach (engine : Engine)
  | onAmxxDetach

/-- What the module asks of an engine registry, and of AMXX. -/
inductive HookEvent where
  | registered (registry : Registry)
  | unregistered (registry : Registry)
  | nativesAdded
  deriving DecidableEq

/-- The registration and what was asked so far, newest first. -/
structure HookRun where
  hook : FrameHook
  log : List HookEvent

namespace HookRun

def initial : HookRun := ⟨.initial, []⟩

/-- `registerHook` is called of a registry just found, if none is remembered. -/
def register (engine : Engine) (s : HookRun) : HookRun :=
  { hook := (s.hook.registerRehldsFrameHook engine).1
    log := match s.hook.frameRegistry with
      | some _ => s.log
      | none => (FrameHook.findFrameRegistry engine).1.toList.map .registered ++ s.log }

/-- `unregisterHook` is called of the remembered registry. -/
def unregister (s : HookRun) : HookRun :=
  { hook := s.hook.unregisterRehldsFrameHook
    log := s.hook.frameRegistry.toList.map .unregistered ++ s.log }

def step (s : HookRun) : HookCall → Option HookRun
  | .checkRehldsApi _ => some s
  | .registerRehldsFrameHook engine => some (s.register engine)
  | .unregisterRehldsFrameHook => some s.unregister
  | .onAmxxAttach engine =>
      let after := s.register engine
      if (s.hook.registerRehldsFrameHook engine).2.1 then
        some { after with log := .nativesAdded :: after.log }
      else some after
  -- the dispatcher and the two managers hold no registration
  | .onAmxxDetach => some s.unregister

end HookRun

/-- The registrations the engine is left with. -/
def replay : List HookEvent → List Registry
  | [] => []
  | .registered registry :: log => registry :: replay log
  | .unregistered registry :: log => (replay log).erase registry
  | .nativesAdded :: log => replay log

/-- The registry the newest registration went to, unless it was given back since. -/
def current : List HookEvent → Option Registry
  | [] => none
  | .registered registry :: _ => some registry
  | .unregistered _ :: _ => none
  | .nativesAdded :: log => current log

/-- A registration finds none open, an unregistration goes where the open one went, and natives
are added under an open registration. -/
def HookEvent.explained : HookEvent → List HookEvent → Prop
  | .registered _, older => current older = none
  | .unregistered registry, older => current older = some registry
  | .nativesAdded, older => (current older).isSome

namespace HookRun

/-- The engine, the module and the log agree on the registration. -/
structure Agrees (s : HookRun) : Prop where
  balanced : s.hook.Balanced
  replayed : replay s.log = s.hook.hooks
  remembered : current s.log = s.hook.frameRegistry
  explained : Log.Explained HookEvent.explained s.log

namespace Agrees

variable {s t : HookRun}

theorem initial : Agrees initial where
  balanced := FrameHook.balanced_initial
  replayed := rfl
  remembered := rfl
  explained := Log.explained_nil _

theorem register (agrees : Agrees s) (engine : Engine) : Agrees (s.register engine) := by
  have balanced := agrees.balanced.register engine
  rcases s with ⟨⟨_ | registry, hooks⟩, log⟩
  · rcases FrameHook.findFrameRegistry_cases engine with
      ⟨registry, _, found⟩ | ⟨_, error, _, failed⟩
    · have hook : (FrameHook.registerRehldsFrameHook engine ⟨none, hooks⟩).1 =
          ⟨some registry, registry :: hooks⟩ := by
        simp only [FrameHook.registerRehldsFrameHook, found]
      rw [hook] at balanced
      simp only [HookRun.register, hook, found]
      exact ⟨balanced, congrArg (registry :: ·) agrees.replayed, rfl,
        Log.explained_cons agrees.remembered agrees.explained⟩
    · have hook : (FrameHook.registerRehldsFrameHook engine ⟨none, hooks⟩).1 = ⟨none, hooks⟩ := by
        simp only [FrameHook.registerRehldsFrameHook, failed]
      simp only [HookRun.register, hook, failed]
      exact agrees
  · exact agrees

theorem unregister (agrees : Agrees s) : Agrees s.unregister := by
  have none := agrees.balanced.unregister
  have replayed := agrees.replayed
  rcases s with ⟨⟨_ | registry, hooks⟩, log⟩
  · exact agrees
  · simp only [HookRun.unregister, none]
    have hooks : hooks = [registry] := agrees.balanced
    refine ⟨rfl, ?_, rfl, Log.explained_cons agrees.remembered agrees.explained⟩
    simp only [Option.toList_some, List.map_cons, List.map_nil, List.cons_append, List.nil_append,
      replay]
    rw [show replay log = [registry] from replayed.trans hooks, List.erase_cons_head]

/-- Natives are added only where a registration is open. -/
theorem addNatives (agrees : Agrees s) (registered : s.hook.frameRegistry.isSome) :
    Agrees { s with log := .nativesAdded :: s.log } where
  balanced := agrees.balanced
  replayed := agrees.replayed
  remembered := agrees.remembered
  explained := by
    refine Log.explained_cons ?_ agrees.explained
    rw [HookEvent.explained, agrees.remembered]
    exact registered

end Agrees

theorem step_agrees {s t : HookRun} {call : HookCall} (taken : s.step call = some t)
    (agrees : Agrees s) : Agrees t := by
  cases call with
  | checkRehldsApi engine =>
      cases taken
      exact agrees
  | registerRehldsFrameHook engine =>
      cases taken
      exact agrees.register engine
  | unregisterRehldsFrameHook | onAmxxDetach =>
      cases taken
      exact agrees.unregister
  | onAmxxAttach engine =>
      simp only [step] at taken
      split at taken <;> cases taken
      · rename_i succeeded
        exact (agrees.register engine).addNatives
          (FrameHook.registerRehldsFrameHook_isSome succeeded)
      · exact agrees.register engine

theorem run_agrees {s t : HookRun} {calls : List HookCall}
    (ran : Transition.run step s calls = some t) (agrees : Agrees s) : Agrees t :=
  Transition.run_invariant (fun _ taken => step_agrees taken) ran (fun _ _ => True.intro) agrees

/-- A registration that reports failure does nothing. -/
theorem register_eq_self {s : HookRun} {engine : Engine}
    (failed : (s.hook.registerRehldsFrameHook engine).2.1 = false) : s.register engine = s := by
  rcases s with ⟨⟨_ | registry, hooks⟩, log⟩
  · rcases FrameHook.findFrameRegistry_cases engine with
      ⟨registry, _, found⟩ | ⟨_, error, _, missing⟩
    · simp only [FrameHook.registerRehldsFrameHook, found] at failed
      cases failed
    · simp only [register, FrameHook.registerRehldsFrameHook, missing]
      rfl
  · cases failed

/-- What a call adds to the log; only an attach adds natives. -/
theorem step_natives {s t : HookRun} {call : HookCall} (taken : s.step call = some t) :
    ∃ newer, t.log = newer ++ s.log ∧ (.nativesAdded ∈ newer →
      ∃ engine, call = .onAmxxAttach engine ∧ t.hook.frameRegistry.isSome) := by
  have registering : ∀ engine, ∃ newer, (s.register engine).log = newer ++ s.log ∧
      .nativesAdded ∉ newer := by
    intro engine
    simp only [register]
    split
    · exact ⟨[], rfl, by simp⟩
    · exact ⟨_, rfl, by simp⟩
  cases call with
  | checkRehldsApi engine =>
      cases taken
      exact ⟨[], rfl, by simp⟩
  | registerRehldsFrameHook engine =>
      cases taken
      obtain ⟨newer, log, none⟩ := registering engine
      exact ⟨newer, log, fun added => absurd added none⟩
  | unregisterRehldsFrameHook | onAmxxDetach =>
      cases taken
      exact ⟨_, rfl, by simp⟩
  | onAmxxAttach engine =>
      obtain ⟨newer, log, none⟩ := registering engine
      simp only [step] at taken
      split at taken <;> cases taken
      · rename_i succeeded
        refine ⟨.nativesAdded :: newer, congrArg (.nativesAdded :: ·) log, fun _ => ?_⟩
        exact ⟨engine, rfl, FrameHook.registerRehldsFrameHook_isSome succeeded⟩
      · exact ⟨newer, log, fun added => absurd added none⟩

end HookRun

/-- **Frame-hook registration is balanced.**  After any run of checks, registrations,
unregistrations, attaches and detaches, whatever the engine answered: the hook stands once in the
remembered registry and nowhere else, and that is what the calls made of the registries leave;
each unregistration went to the registry the open registration went to.  Registering succeeds
exactly when a registry is remembered or discovery reaches one, with an empty error text; a
failure gives a reason and changes nothing.  A check changes nothing, and natives are added only
by an attach that left the hook registered. -/
theorem hook_balanced {calls : List HookCall} {s : HookRun}
    (ran : Transition.run HookRun.step .initial calls = some s) :
    (∀ registry, s.hook.hooks.count registry =
      if s.hook.frameRegistry = some registry then 1 else 0) ∧
    replay s.log = s.hook.hooks ∧
    (∀ newer registry older, s.log = newer ++ .unregistered registry :: older →
      current older = some registry) ∧
    (∀ newer registry older, s.log = newer ++ .registered registry :: older →
      current older = none) ∧
    (∀ engine, (s.hook.registerRehldsFrameHook engine).2.1 = true ↔
      s.hook.frameRegistry.isSome ∨ ∃ registry, engine.Offers registry) ∧
    (∀ engine, (s.hook.registerRehldsFrameHook engine).2.1 = true →
      (s.hook.registerRehldsFrameHook engine).2.2 = "") ∧
    (∀ engine, (s.hook.registerRehldsFrameHook engine).2.1 = false →
      (s.hook.registerRehldsFrameHook engine).2.2 ≠ "" ∧ s.register engine = s) ∧
    (∀ engine, ((FrameHook.checkRehldsApi engine).1 = true ↔ ∃ registry, engine.Offers registry) ∧
      s.step (.checkRehldsApi engine) = some s) ∧
    (∀ call t, s.step call = some t → ∃ newer, t.log = newer ++ s.log ∧
      (.nativesAdded ∈ newer →
        ∃ engine, call = .onAmxxAttach engine ∧ t.hook.frameRegistry.isSome)) := by
  have agrees : s.Agrees := HookRun.run_agrees ran .initial
  refine ⟨agrees.balanced.count, agrees.replayed, fun newer registry older split => ?_,
    fun newer registry older split => ?_, fun engine => FrameHook.registerRehldsFrameHook_iff,
    fun engine => FrameHook.registerRehldsFrameHook_error_iff.mpr, fun engine failed => ?_,
    fun engine => ⟨FrameHook.checkRehldsApi_iff, rfl⟩, fun call t => HookRun.step_natives⟩
  · exact agrees.explained newer _ older split
  · exact agrees.explained newer _ older split
  · refine ⟨fun empty => ?_, HookRun.register_eq_self failed⟩
    rw [FrameHook.registerRehldsFrameHook_error_iff, failed] at empty
    cases empty

/-- A ReHLDS of API 3.`minor` with this registry. -/
def Engine.rehlds (minor : Int) (registry : Registry) : Engine :=
  ⟨some (some ⟨3, minor, some (some registry)⟩)⟩

/-- An old engine, then a registration in registry 5 that a later answer of 6 does not move, a
detach, and an attach to 6. -/
theorem hook_balanced_moved :
    ∃ s, Transition.run HookRun.step .initial
        [.onAmxxAttach (.rehlds 6 5), .checkRehldsApi (.rehlds 7 5), .onAmxxAttach (.rehlds 7 5),
          .registerRehldsFrameHook (.rehlds 9 6), .onAmxxDetach, .onAmxxDetach,
          .onAmxxAttach (.rehlds 9 6)] = some s ∧
      s.hook = ⟨some 6, [6]⟩ ∧
      s.log = [.nativesAdded, .registered 6, .unregistered 5, .nativesAdded, .registered 5] ∧
      replay s.log = s.hook.hooks := by
  have state : (Transition.run HookRun.step .initial
      [.onAmxxAttach (.rehlds 6 5), .checkRehldsApi (.rehlds 7 5), .onAmxxAttach (.rehlds 7 5),
        .registerRehldsFrameHook (.rehlds 9 6), .onAmxxDetach, .onAmxxDetach,
        .onAmxxAttach (.rehlds 9 6)]).map (fun s => (s.hook, s.log)) =
      some (⟨some 6, [6]⟩,
        [.nativesAdded, .registered 6, .unregistered 5, .nativesAdded, .registered 5]) := by
    decide +kernel
  obtain ⟨s, ran, state⟩ := Option.map_eq_some_iff.mp state
  obtain ⟨hook, log⟩ := Prod.mk.inj state
  exact ⟨s, ran, hook, log, (hook_balanced ran).2.1⟩

end AmxxMqtt
