import Mathlib.Data.List.Basic

/-!
# `RehldsFrameHook`

Discovery of the engine's `SV_Frame` registry and the module's single registration there.  What
the engine answers is an argument of each call, so it may differ from call to call.
-/

namespace AmxxMqtt

/-- An `IRehldsHookRegistry_SV_Frame`, by its identity. -/
abbrev Registry := Nat

/-- `IRehldsApi`; `hookchains` is what `GetHookchains()->SV_Frame()` finds, as far as it gets. -/
structure RehldsApi where
  majorVersion : Int
  minorVersion : Int
  hookchains : Option (Option Registry)
  deriving DecidableEq

/-- The engine at one call: its `CreateInterface`, if found, and the interface it returns. -/
structure Engine where
  factory : Option (Option RehldsApi)
  deriving DecidableEq

/-- `frameRegistry`, and the registries the engine has `OnServerFrame` registered in. -/
structure FrameHook where
  frameRegistry : Option Registry
  hooks : List Registry
  deriving DecidableEq

namespace FrameHook

def initial : FrameHook := ⟨none, []⟩

/-- `REHLDS_API_VERSION_MAJOR`. -/
def apiMajor : Int := 3

def minimumApiMinor : Int := 7

/-- The registry, or none, and the error text. -/
def findFrameRegistry (engine : Engine) : Option Registry × String :=
  match engine.factory with
  | none => (none, "ReHLDS API 3.7+ is required: engine CreateInterface was not found.")
  | some none =>
      (none, "ReHLDS API 3.7+ is required: VREHLDS_HLDS_API_VERSION001 is unavailable.")
  | some (some api) =>
      if api.majorVersion ≠ apiMajor ∨ api.minorVersion < minimumApiMinor then
        (none, "ReHLDS API version mismatch: need 3.7+, found " ++ toString api.majorVersion ++
          "." ++ toString api.minorVersion ++ ".")
      else
        match api.hookchains.join with
        | none => (none, "ReHLDS API does not provide the SV_Frame hook registry.")
        | some registry => (some registry, "")

def checkRehldsApi (engine : Engine) : Bool × String :=
  ((findFrameRegistry engine).1.isSome, (findFrameRegistry engine).2)

/-- The hook after the call, its result and the error text. -/
def registerRehldsFrameHook (engine : Engine) (hook : FrameHook) : FrameHook × Bool × String :=
  match hook.frameRegistry with
  | some _ => (hook, true, "")
  | none =>
      match findFrameRegistry engine with
      | (none, error) => (hook, false, error)
      | (some registry, error) =>
          ({ frameRegistry := some registry, hooks := registry :: hook.hooks }, true, error)

def unregisterRehldsFrameHook (hook : FrameHook) : FrameHook :=
  match hook.frameRegistry with
  | some registry => { frameRegistry := none, hooks := hook.hooks.erase registry }
  | none => hook

/-- The hook is registered once, in the remembered registry, or not at all. -/
def Balanced (hook : FrameHook) : Prop :=
  hook.hooks = hook.frameRegistry.toList

theorem balanced_initial : initial.Balanced := rfl

theorem Balanced.register {hook : FrameHook} (balanced : hook.Balanced) (engine : Engine) :
    (hook.registerRehldsFrameHook engine).1.Balanced := by
  rcases hook with ⟨_ | registry, hooks⟩
  · simp only [Balanced, Option.toList_none] at balanced
    subst balanced
    simp only [registerRehldsFrameHook]
    split <;> rfl
  · exact balanced

theorem Balanced.unregister {hook : FrameHook} (balanced : hook.Balanced) :
    hook.unregisterRehldsFrameHook = ⟨none, []⟩ := by
  rcases hook with ⟨_ | registry, hooks⟩ <;> simp only [Balanced, Option.toList_none,
    Option.toList_some] at balanced <;> subst balanced
  · rfl
  · simp [unregisterRehldsFrameHook]

end FrameHook

end AmxxMqtt
