import Mathlib.Data.Set.Card
import Mathlib.Data.Int.Interval
import AmxxMqtt.World

/-!
# Connect options over whole runs

The history of the connect options lists what the natives did with numbers: created, set, passed
to Paho, reset.  `OptionsTracked` relates it to the manager's two containers.  While no
construction fails a number is live exactly when the history says so, and what its object
holds are the settings made through it since its creation, however often the number was used
before.
-/

namespace AmxxMqtt

variable {P : PahoOptions}

/-! ## Settings -/

/-- A value given to `mqtt_set_options`. -/
inductive Setting where
  | userName (value : Bytes)
  | password (value : Bytes)
  | cleanStart (value : Cell)
  | sessionExpiry (value : Cell)
  deriving DecidableEq, Repr

def Setting.userName? : Setting → Option Bytes
  | .userName value => some value
  | _ => none

def Setting.password? : Setting → Option Bytes
  | .password value => some value
  | _ => none

def Setting.cleanStart? : Setting → Option Cell
  | .cleanStart value => some value
  | _ => none

def Setting.sessionExpiry? : Setting → Option Cell
  | .sessionExpiry value => some value
  | _ => none

/-- What the value cell of an option of this name is read as. -/
def OptionName.setting (host : Host) (value : Cell) : OptionName → Setting
  | .username => .userName (host.string value)
  | .password => .password (host.string value)
  | .cleanStart => .cleanStart (host.getAmxAddr value)
  | .sessionExpiry => .sessionExpiry (host.getAmxAddr value)

/-- Field by field, the last of these settings, newest first, or the default. -/
def ConnectFields.lastSet (default : ConnectFields) (settings : List Setting) :
    ConnectFields where
  userName := (settings.findSome? Setting.userName?).or default.userName
  password := (settings.findSome? Setting.password?).or default.password
  cleanStart := ((settings.findSome? Setting.cleanStart?).map fun value => decide (value > 0)).getD
    default.cleanStart
  sessionExpiry := (settings.findSome? Setting.sessionExpiry?).or default.sessionExpiry

/-- An object holds what was last set. -/
theorem ConnectOption.fields_set {option : ConnectOption P} {default : ConnectFields}
    {settings : List Setting} (held : P.fields option.option = default.lastSet settings)
    (host : Host) (value : Cell) (name : OptionName) :
    P.fields (option.set host value name).option =
      default.lastSet (name.setting host value :: settings) := by
  cases name with
  | username => rw [ConnectOption.set, P.fields_setUserName, held]; rfl
  | password => rw [ConnectOption.set, P.fields_setPassword, held]; rfl
  | cleanStart => rw [ConnectOption.set, P.fields_setCleanStart, held]; rfl
  | sessionExpiry => rw [ConnectOption.set, P.fields_setProperties, held]; rfl

/-! ## The history of the connect options -/

/-- What can happen to connect options. -/
inductive OptionsEvent where
  /-- a successful `mqtt_create_connect_options` -/
  | created (index : Int)
  /-- a successful `mqtt_set_options` -/
  | set (index : Int) (setting : Setting)
  /-- an `mqtt_connect` that got past both handle checks -/
  | consumed (index : Int)
  /-- `g_connectOptionMgr.reset()` -/
  | reset
  deriving DecidableEq, Repr

/-- The event ends what the number stood for. -/
def OptionsEvent.ends (index : Int) : OptionsEvent → Bool
  | .created other | .consumed other => other = index
  | .set _ _ => false
  | .reset => true

def OptionsEvent.setting (index : Int) : OptionsEvent → Option Setting
  | .set other setting => if other = index then some setting else none
  | _ => none

/-- The settings made through a number since it was last created, newest first. -/
def settings (log : List OptionsEvent) (index : Int) : List Setting :=
  (log.takeWhile fun event => !event.ends index).filterMap (OptionsEvent.setting index)

/-- The numbers as names of the objects created under them.  An object is identified by the
number of events before its creation. -/
def optionNames : List OptionsEvent → List (Names.Event Int Nat)
  | [] => []
  | .created index :: log => .issued index log.length :: optionNames log
  | .set _ _ :: log => optionNames log
  | .consumed index :: log => .retired index :: optionNames log
  | .reset :: log => .cleared :: optionNames log

def NativeCall.optionsEvents (call : NativeCall P) : List OptionsEvent :=
  match call.native with
  | .mqttCreateConnectOptions => if call.value = 0 then [] else [.created call.value]
  | .mqttSetOptions =>
      if call.value = 1 then
        match call.params[1]?, call.params[2]?.bind optionName, call.params[3]? with
        | some index, some name, some value => [.set index (name.setting call.host value)]
        | _, _, _ => []
      else []
  | .mqttConnect =>
      match call.effects with
      | .request _ (.connect _) :: _ => call.params[2]?.toList.map .consumed
      | _ => []
  | _ => []

def WorldEvent.optionsEvents : WorldEvent P → List OptionsEvent
  | .native call => call.optionsEvents
  | .optionsReset => [.reset]
  | _ => []

/-- What happened to the connect options. -/
def optionsLog (history : History P) : List OptionsEvent :=
  history.flatMap WorldEvent.optionsEvents

@[simp] theorem optionsLog_cons (event : WorldEvent P) (history : History P) :
    optionsLog (event :: history) = event.optionsEvents ++ optionsLog history :=
  List.flatMap_cons

theorem optionsLog_gates (gates : List (Gate.Event Offer)) (history : History P) :
    optionsLog (gates.map .gate ++ history) = optionsLog history := by
  induction gates with
  | nil => rfl
  | cons gate gates ih => exact ih

/-- A number stands for an object exactly when that was created under it and nothing since ended
it. -/
theorem live_optionNames_iff {log : List OptionsEvent} {index : Int} {serial : Nat} :
    Names.live (optionNames log) index = some serial ↔
      ∃ newer older, log = newer ++ .created index :: older ∧ older.length = serial ∧
        ∀ event ∈ newer, event.ends index = false := by
  induction log with
  | nil => simp [optionNames, Names.live]
  | cons event log ih =>
      rw [Log.exists_below_cons_iff, ← ih]
      cases event with
      | created other =>
          simp only [optionNames, Names.live, OptionsEvent.created.injEq, OptionsEvent.ends,
            decide_eq_false_iff_not]
          split
          · rename_i same
            simp only [same, true_and, Option.some.injEq, not_true_eq_false, false_and, or_false]
          · rename_i different
            simp only [different, false_and, not_false_eq_true, true_and, false_or]
      | set other setting =>
          simp only [optionNames, reduceCtorEq, OptionsEvent.ends, false_and, true_and, false_or]
      | consumed other =>
          simp only [optionNames, Names.live, reduceCtorEq, OptionsEvent.ends, false_and,
            decide_eq_false_iff_not, false_or]
          split
          · rename_i same
            simp only [same, reduceCtorEq, not_true_eq_false, false_and]
          · rename_i different
            simp only [different, not_false_eq_true, true_and]
      | reset =>
          simp only [optionNames, Names.live, reduceCtorEq, OptionsEvent.ends, Bool.true_eq_false,
            false_and, or_self]

/-- What is consumed stands for an object. -/
def OptionsEvent.Spends (event : OptionsEvent) (older : List OptionsEvent) : Prop :=
  ∀ index, event = .consumed index → (Names.live (optionNames older) index).isSome

/-- Up to the next creation of its number, an object is consumed at most once. -/
theorem consumed_at_most_once {log newer life older : List OptionsEvent} {index : Int}
    (spends : Log.Explained OptionsEvent.Spends log)
    (split : log = newer ++ (life ++ .created index :: older)) (single : .created index ∉ life) :
    life.count (.consumed index) ≤ 1 := by
  induction life generalizing newer with
  | nil => exact Nat.zero_le _
  | cons event life ih =>
      obtain ⟨_, later⟩ := not_or.mp (List.mem_cons.not.mp single)
      by_cases same : event = .consumed index
      · -- the number stands here, so no event of `life` has ended it
        have stands := spends newer event _ split index same
        obtain ⟨serial, stands⟩ := Option.isSome_iff_exists.mp stands
        obtain ⟨quiet, earlier, divided, _, silent⟩ := live_optionNames_iff.mp stands
        have unspent : .consumed index ∉ life := by
          intro spent
          rcases List.append_eq_append_iff.mp divided with ⟨rest, rfl, _⟩ | ⟨rest, rfl, created⟩
          · simpa [OptionsEvent.ends] using silent _ (List.mem_append_left _ spent)
          · cases rest with
            | nil =>
                rw [List.append_nil] at spent
                simpa [OptionsEvent.ends] using silent _ spent
            | cons first rest =>
                obtain ⟨rfl, _⟩ := List.cons.inj created
                exact later (List.mem_append_right _ List.mem_cons_self)
        rw [same, List.count_cons_self, List.count_eq_zero.mpr unspent]
      · rw [List.count_cons_of_ne same]
        exact ih (split.trans (List.append_cons ..)) later

/-! ## What a native does to the connect options -/

/-- What a native call does to the connect options, when no construction fails. -/
inductive OptionsChange (host : Host) (params : List Cell) (g : Globals P) (native : Native)
    (r : NativeReturn P) : Prop
  | unchanged (options : r.globals.options = g.options)
      (events : (r.asCall native host params).optionsEvents = [])
  | looked {index : Int} (options : r.globals.options = (g.options.getOptions index).2)
      (events : (r.asCall native host params).optionsEvents = [])
  | created {index : Int} (free : g.options.freeIndex = some index)
      (options : r.globals.options =
        { options := g.options.options.insert index (some ⟨P.version5, P.noProperties⟩)
          indexUsed := insert index g.options.indexUsed })
      (events : (r.asCall native host params).optionsEvents = [.created index])
  | set {index value : Int} {name : OptionName} {option : ConnectOption P}
      (found : g.options.object index = some option)
      (options : r.globals.options = g.options.setOption index (option.set host value name))
      (events : (r.asCall native host params).optionsEvents =
        [.set index (name.setting host value)])
  | consumed {index : Int} {option : ConnectOption P}
      (found : g.options.object index = some option)
      (options : r.globals.options = g.options.destroy index)
      (events : (r.asCall native host params).optionsEvents = [.consumed index])

theorem Returns.optionsChange {host : Host} {params : List Cell} {g : Globals P} {native : Native}
    {r : NativeReturn P} (returns : Returns host params g native r)
    (built : native = .mqttCreateConnectOptions → host.optionsFailure = none) :
    OptionsChange host params g native r := by
  cases returns with
  | rejected => exact .unchanged rfl (by cases native <;> rfl)
  | connectUnknown | setUnknown => exact .looked rfl rfl
  | connected arg optionsArg live found accepted =>
      refine .consumed found rfl ?_
      simp only [NativeCall.optionsEvents, NativeReturn.asCall, optionsArg, Option.toList_some,
        List.map_cons, List.map_nil]
  | connectThrew arg optionsArg live found threw =>
      refine .consumed found rfl ?_
      simp only [NativeCall.optionsEvents, NativeReturn.asCall, optionsArg, Option.toList_some,
        List.map_cons, List.map_nil]
  | @optionsMade index free _ =>
      refine .created free rfl ?_
      simp only [NativeCall.optionsEvents, NativeReturn.asCall,
        ConnectOptionMgr.freeIndex_ne_zero free, ↓reduceIte]
  | optionsFailed free failed =>
      rw [built rfl] at failed
      cases failed
  | set arg nameArg valueArg named found =>
      refine .set found rfl ?_
      simp only [NativeCall.optionsEvents, NativeReturn.asCall, ↓reduceIte, arg, nameArg,
        Option.bind_some, named, valueArg]
  | requested kind | requestThrew kind | stored kind =>
      refine .unchanged rfl ?_
      cases native <;> first | rfl | cases kind
  | _ => exact .unchanged rfl rfl

/-! ## The two containers -/

/-- The manager's containers agree with each other and with the history. -/
structure OptionsTracked (mgr : ConnectOptionMgr P) (log : List OptionsEvent) : Prop where
  used : ∀ index, index ∈ mgr.indexUsed ↔ (mgr.object index).isSome
  bounds : ∀ index ∈ mgr.indexUsed, 1 ≤ index ∧ index ≤ ConnectOptionMgr.maxIndex
  live : ∀ index, (Names.live (optionNames log) index).isSome = (mgr.object index).isSome
  fields : ∀ {index option}, mgr.object index = some option →
    P.fields option.option = (P.fields P.version5).lastSet (settings log index)
  spends : Log.Explained OptionsEvent.Spends log

namespace OptionsTracked

variable {mgr : ConnectOptionMgr P} {log : List OptionsEvent}

theorem initial : OptionsTracked (ConnectOptionMgr.initial : ConnectOptionMgr P) [] where
  used _ := by simp [ConnectOptionMgr.initial, ConnectOptionMgr.object]
  bounds _ member := by cases member
  live _ := rfl
  fields found := by cases found
  spends := Log.explained_nil _

theorem reset (tracked : OptionsTracked mgr log) :
    OptionsTracked mgr.reset (.reset :: log) where
  used _ := by simp [ConnectOptionMgr.reset, ConnectOptionMgr.object]
  bounds _ member := by cases member
  live _ := rfl
  fields found := by cases found
  spends := Log.explained_cons (fun _ same => by cases same) tracked.spends

theorem getOptions (tracked : OptionsTracked mgr log) (index : Int) :
    OptionsTracked (mgr.getOptions index).2 log where
  used other := by
    rw [ConnectOptionMgr.indexUsed_getOptions, ConnectOptionMgr.object_getOptions]
    exact tracked.used other
  bounds other member :=
    tracked.bounds other (ConnectOptionMgr.indexUsed_getOptions index mgr ▸ member)
  live other := by
    rw [ConnectOptionMgr.object_getOptions]
    exact tracked.live other
  fields found := tracked.fields (ConnectOptionMgr.object_getOptions index _ mgr ▸ found)
  spends := tracked.spends

theorem create (tracked : OptionsTracked mgr log) {index : Int}
    (free : mgr.freeIndex = some index) :
    OptionsTracked (⟨mgr.options.insert index (some ⟨P.version5, P.noProperties⟩),
      insert index mgr.indexUsed⟩ : ConnectOptionMgr P) (.created index :: log) where
  used other := by
    rw [ConnectOptionMgr.object_insert, Finset.mem_insert]
    by_cases same : other = index
    · simp [same]
    · simp only [same, false_or, ↓reduceIte]
      exact tracked.used other
  bounds other member := by
    rcases Finset.mem_insert.mp member with rfl | old
    · exact (ConnectOptionMgr.freeIndex_eq_some free).2
    · exact tracked.bounds other old
  live other := by
    rw [ConnectOptionMgr.object_insert, optionNames, Names.live]
    by_cases same : other = index
    · simp [same]
    · rw [if_neg (Ne.symm same), if_neg same]
      exact tracked.live other
  fields {other option} found := by
    rw [ConnectOptionMgr.object_insert] at found
    by_cases same : other = index
    · rw [if_pos same] at found
      cases found
      simp [settings, OptionsEvent.ends, same, ConnectFields.lastSet]
    · rw [if_neg same] at found
      have ends : (OptionsEvent.created index).ends other = false := decide_eq_false (Ne.symm same)
      simp only [settings, List.takeWhile_cons, ends, Bool.not_false, ↓reduceIte,
        List.filterMap_cons, OptionsEvent.setting]
      exact tracked.fields found
  spends := Log.explained_cons (fun _ same => by cases same) tracked.spends

theorem set (tracked : OptionsTracked mgr log) {index value : Int} {name : OptionName}
    {host : Host} {option : ConnectOption P} (found : mgr.object index = some option) :
    OptionsTracked (mgr.setOption index (option.set host value name))
      (.set index (name.setting host value) :: log) where
  used other := by
    rw [ConnectOptionMgr.setOption, ConnectOptionMgr.object_insert]
    by_cases same : other = index
    · simp only [same, ↓reduceIte, Option.isSome_some, tracked.used, found]
    · rw [if_neg same]
      exact tracked.used other
  bounds := tracked.bounds
  live other := by
    rw [ConnectOptionMgr.setOption, ConnectOptionMgr.object_insert, optionNames, tracked.live]
    by_cases same : other = index
    · simp only [same, ↓reduceIte, Option.isSome_some, found]
    · rw [if_neg same]
  fields {other held} here := by
    rw [ConnectOptionMgr.setOption, ConnectOptionMgr.object_insert] at here
    simp only [settings, List.takeWhile_cons, OptionsEvent.ends, Bool.not_false, ↓reduceIte,
      List.filterMap_cons, OptionsEvent.setting]
    by_cases same : other = index
    · rw [if_pos same] at here
      cases here
      simp only [same, ↓reduceIte]
      exact ConnectOption.fields_set (tracked.fields found) host value name
    · rw [if_neg same] at here
      simp only [Ne.symm same, ↓reduceIte]
      exact tracked.fields here
  spends := Log.explained_cons (fun _ same => by cases same) tracked.spends

theorem consume (tracked : OptionsTracked mgr log) {index : Int} {option : ConnectOption P}
    (found : mgr.object index = some option) :
    OptionsTracked (mgr.destroy index) (.consumed index :: log) where
  used other := by
    have present := ConnectOptionMgr.mem_of_object found
    rw [ConnectOptionMgr.object_destroy present, ConnectOptionMgr.destroy_of_mem present,
      Finset.mem_erase, tracked.used]
    by_cases same : other = index <;> simp [same]
  bounds other member := by
    rw [ConnectOptionMgr.destroy_of_mem (ConnectOptionMgr.mem_of_object found)] at member
    exact tracked.bounds other (Finset.mem_of_mem_erase member)
  live other := by
    rw [ConnectOptionMgr.object_destroy (ConnectOptionMgr.mem_of_object found), optionNames,
      Names.live]
    by_cases same : other = index
    · simp [same]
    · rw [if_neg (Ne.symm same), if_neg same]
      exact tracked.live other
  fields {other held} here := by
    rw [ConnectOptionMgr.object_destroy (ConnectOptionMgr.mem_of_object found)] at here
    by_cases same : other = index
    · rw [if_pos same] at here
      cases here
    · rw [if_neg same] at here
      have ends : (OptionsEvent.consumed index).ends other = false := decide_eq_false (Ne.symm same)
      simp only [settings, List.takeWhile_cons, ends, Bool.not_false, ↓reduceIte,
        List.filterMap_cons, OptionsEvent.setting]
      exact tracked.fields here
  spends := by
    refine Log.explained_cons (fun other same => ?_) tracked.spends
    cases same
    rw [tracked.live, found, Option.isSome_some]

/-- The numbers in use are all the numbers exactly when none is free. -/
theorem full_iff (tracked : OptionsTracked mgr log) :
    Set.ncard {index | (mgr.object index).isSome} = ConnectOptionMgr.maxIndex ↔
      mgr.freeIndex = none := by
  have used : {index | (mgr.object index).isSome} = ↑mgr.indexUsed := by
    ext index
    exact (tracked.used index).symm
  have inside : mgr.indexUsed ⊆ Finset.Icc 1 (ConnectOptionMgr.maxIndex : Int) :=
    fun index member => Finset.mem_Icc.mpr (tracked.bounds index member)
  have size :
      (Finset.Icc 1 (ConnectOptionMgr.maxIndex : Int)).card = ConnectOptionMgr.maxIndex := by
    rw [Int.card_Icc]
    rfl
  rw [used, Set.ncard_coe_finset, ConnectOptionMgr.freeIndex_eq_none]
  constructor
  · intro full index lower upper
    rw [Finset.eq_of_subset_of_card_le inside (by omega)]
    exact Finset.mem_Icc.mpr ⟨lower, upper⟩
  · intro taken
    have covered : Finset.Icc 1 (ConnectOptionMgr.maxIndex : Int) ⊆ mgr.indexUsed := by
      intro index member
      obtain ⟨lower, upper⟩ := Finset.mem_Icc.mp member
      exact taken index lower upper
    rw [Finset.Subset.antisymm inside covered, size]

theorem returned {w : World P} (tracked : OptionsTracked w.globals.options (optionsLog w.history))
    {native : Native} {host : Host} {params : List Cell} {r : NativeReturn P}
    (returns : Returns host params w.globals native r)
    (built : native = .mqttCreateConnectOptions → host.optionsFailure = none) :
    OptionsTracked (w.returned native host params r).globals.options
      (optionsLog (w.returned native host params r).history) := by
  have log : optionsLog (w.returned native host params r).history =
      (r.asCall native host params).optionsEvents ++ optionsLog w.history := by
    rcases w.returned_history with ⟨gates, same⟩
    rw [same, optionsLog_gates, optionsLog_cons]
    rfl
  rw [World.returned_globals, log]
  cases returns.optionsChange built with
  | unchanged options events =>
      rw [options, events]
      exact tracked
  | looked options events =>
      rw [options, events]
      exact tracked.getOptions _
  | created free options events =>
      rw [options, events]
      exact tracked.create free
  | set found options events =>
      rw [options, events]
      exact tracked.set found
  | consumed found options events =>
      rw [options, events]
      exact tracked.consume found

end OptionsTracked

/-! ## Runs -/

/-- Building a connect-options object does not fail. -/
def Action.builds : Action → Prop
  | .call (.native .mqttCreateConnectOptions host _) => host.optionsFailure = none
  | _ => True

theorem World.step_optionsTracked {w t : World P} {action : Action} (built : action.builds)
    (stepped : w.step action = some t)
    (tracked : OptionsTracked w.globals.options (optionsLog w.history)) :
    OptionsTracked t.globals.options (optionsLog t.history) := by
  cases World.steps stepped with
  | native outside invoked admitted =>
      refine tracked.returned (Native.returns invoked) fun same => ?_
      subst same
      exact built
  | callback made =>
      rcases w.receive_history with ⟨gates, history⟩
      rw [World.receive_options, history, optionsLog_gates]
      exact tracked
  | resetOptions top => exact tracked.reset
  | entered | ret | dispatch | start | stop | resetClients | destruct | hook | unhook | process
  | drained | take | execute | discard => exact tracked

/-- The number stands for a connect-options object. -/
def World.LiveOptions (w : World P) (index : Int) : Prop :=
  (w.globals.options.object index).isSome

/-- A creation returns a number that stands for no object, and fails exactly when none is left. -/
theorem OptionsTracked.creates {host : Host} {params : List Cell} {g : Globals P}
    {log : List OptionsEvent} {r : NativeReturn P} (tracked : OptionsTracked g.options log)
    (builds : host.optionsFailure = none)
    (invoked : Native.mqttCreateConnectOptions.invoke host params g = .ok r) :
    (1 ≤ r.value ∧ r.value ≤ ConnectOptionMgr.maxIndex ∧ ¬ (g.options.object r.value).isSome ∧
        Set.ncard {index | (g.options.object index).isSome} ≠ ConnectOptionMgr.maxIndex) ∨
      r = rejection g (.exception ConnectOptionMgr.noIndex) ∧
        Set.ncard {index | (g.options.object index).isSome} = ConnectOptionMgr.maxIndex := by
  have full := tracked.full_iff
  have cases := g.options.make_cases host.optionsFailure
  simp only [Native.invoke, mqttCreateConnectOptions] at invoked
  generalize g.options.make host.optionsFailure = result at cases invoked
  cases cases with
  | full none =>
      cases invoked
      exact .inr ⟨rfl, full.mpr none⟩
  | failed free failed =>
      rw [builds] at failed
      cases failed
  | @made index free _ =>
      cases invoked
      obtain ⟨unused, lower, upper⟩ := ConnectOptionMgr.freeIndex_eq_some free
      refine .inl ⟨lower, upper, fun stands => unused ((tracked.used index).mpr stands), ?_⟩
      intro none
      rw [full.mp none] at free
      cases free

/-- A connect on a live client depends on the number alone. -/
theorem mqttConnect_eq {host : Host} {args : List Cell} {g : Globals P} {handle index : Cell}
    {client : AmxxMqttClient} (handleArg : args[0]? = some handle)
    (indexArg : args[1]? = some index) (live : g.clients.getClient handle = some client) :
    mqttConnect host (frame args) g =
      match g.options.object index with
      | none => reject { g with options := (g.options.getOptions index).2 }
          (.invalidOptionsHandle index)
      | some option => submit { g with options := g.options.destroy index } client
          (.connect option.option) host.request := by
  have count : ¬ argCount (frame args) < 2 := by
    have inside := (List.getElem?_eq_some_iff.mp indexArg).1
    rw [argCount_frame]
    omega
  have looked := ConnectOptionMgr.getOptions_fst index g.options
  simp only [mqttConnect, count, ↓reduceIte, withClient, readArg, frame_getElem?_succ, handleArg,
    indexArg, live, looked]
  cases found : g.options.object index with
  | none => rfl
  | some option =>
      have same := ConnectOptionMgr.getOptions_snd_of_mem (ConnectOptionMgr.mem_of_object found)
      simp only [same]

/-- A set accepts the number exactly when it stands for an object. -/
theorem mqttSetOptions_rejects_iff {host : Host} {args : List Cell} {g : Globals P} {index : Cell}
    {r : NativeReturn P} (indexArg : args[0]? = some index) (count : 3 ≤ args.length)
    (invoked : mqttSetOptions host (frame args) g = .ok r) :
    r.effects = [.logError (.invalidOptionsHandle index)] ↔ g.options.object index = none := by
  have enough : ¬ argCount (frame args) < 3 := by
    rw [argCount_frame]
    omega
  have looked := ConnectOptionMgr.getOptions_fst index g.options
  simp only [mqttSetOptions, enough, ↓reduceIte, readArg, frame_getElem?_succ, indexArg,
    looked] at invoked
  cases found : g.options.object index with
  | none =>
      simp only [found] at invoked
      cases invoked
      exact iff_of_true rfl rfl
  | some option =>
      refine iff_of_false (fun rejected => ?_) (by simp)
      simp only [found] at invoked
      split at invoked
      · split at invoked
        · cases invoked
          cases rejected
        · split at invoked
          · cases invoked
            cases rejected
          · cases invoked
      · cases invoked

/-- **Connect options are isolated.**  In a run in which no construction fails: a number is live
exactly when it was created and neither passed to Paho nor reset since; a creation returns a
number that is not live, and fails exactly when all are; both natives accept a number exactly
when it is live; between two creations of a number at most one connect passes an object on, and
one that accepts the number is the first since its last creation; and what Paho receives is, field
by field, what was last set through the number since that object was created. -/
theorem options_isolated {actions : List Action} {w : World P}
    (ran : Transition.run World.step World.initial actions = some w)
    (built : ∀ action ∈ actions, action.builds) :
    (∀ index, w.LiveOptions index ↔
      ∃ newer older, optionsLog w.history = newer ++ .created index :: older ∧
        ∀ event ∈ newer, event.ends index = false) ∧
    (∀ host args r, host.optionsFailure = none →
      Native.mqttCreateConnectOptions.invoke host (frame args) w.globals = .ok r →
        (1 ≤ r.value ∧ r.value ≤ 10000 ∧ ¬ w.LiveOptions r.value ∧
            Set.ncard {index | w.LiveOptions index} ≠ 10000) ∨
          r = rejection w.globals (.exception ConnectOptionMgr.noIndex) ∧
            Set.ncard {index | w.LiveOptions index} = 10000) ∧
    (∀ host args index r, args[0]? = some index → 3 ≤ args.length →
      Native.mqttSetOptions.invoke host (frame args) w.globals = .ok r →
        (r.effects = [.logError (.invalidOptionsHandle index)] ↔ ¬ w.LiveOptions index)) ∧
    (∀ host args handle index client r, args[0]? = some handle → args[1]? = some index →
      w.globals.clients.getClient handle = some client →
      Native.mqttConnect.invoke host (frame args) w.globals = .ok r →
        (¬ w.LiveOptions index → r.effects = [.logError (.invalidOptionsHandle index)]) ∧
        (w.LiveOptions index → ∃ newer older options later,
          optionsLog w.history = newer ++ .created index :: older ∧
          .created index ∉ newer ∧ .consumed index ∉ newer ∧
          r.effects = .request client.object (.connect options) :: later ∧
          P.fields options =
            (P.fields P.version5).lastSet (settings (optionsLog w.history) index))) ∧
    (∀ index newer life older,
      optionsLog w.history = newer ++ (life ++ .created index :: older) →
      .created index ∉ life → life.count (.consumed index) ≤ 1) := by
  have tracked : OptionsTracked w.globals.options (optionsLog w.history) :=
    Transition.run_invariant (fun built stepped tracked =>
      World.step_optionsTracked built stepped tracked) ran built OptionsTracked.initial
  refine ⟨fun index => ?_, fun host args r builds invoked => ?_,
    fun host args index r indexArg count invoked => ?_,
    fun host args handle index client r handleArg indexArg live invoked => ⟨fun dead => ?_,
      fun stands => ?_⟩,
    fun index newer life older split single => consumed_at_most_once tracked.spends split single⟩
  · rw [World.LiveOptions, ← tracked.live, Option.isSome_iff_exists]
    simp only [live_optionNames_iff]
    constructor
    · intro stands
      rcases stands with ⟨serial, newer, older, split, _, silent⟩
      exact ⟨newer, older, split, silent⟩
    · intro stands
      rcases stands with ⟨newer, older, split, silent⟩
      exact ⟨older.length, newer, older, split, rfl, silent⟩
  · exact tracked.creates builds invoked
  · rw [mqttSetOptions_rejects_iff indexArg count invoked, World.LiveOptions,
      Option.not_isSome_iff_eq_none]
  · have none := Option.not_isSome_iff_eq_none.mp dead
    rw [Native.invoke, mqttConnect_eq handleArg indexArg live, none] at invoked
    cases invoked
    rfl
  · obtain ⟨option, found⟩ := Option.isSome_iff_exists.mp stands
    have known : (Names.live (optionNames (optionsLog w.history)) index).isSome = true :=
      (tracked.live index).trans stands
    obtain ⟨serial, known⟩ := Option.isSome_iff_exists.mp known
    obtain ⟨newer, older, split, _, silent⟩ := live_optionNames_iff.mp known
    have last : .created index ∉ newer := fun again => by
      simpa [OptionsEvent.ends] using silent _ again
    have unsent : .consumed index ∉ newer := fun sent => by
      simpa [OptionsEvent.ends] using silent _ sent
    rw [Native.invoke, mqttConnect_eq handleArg indexArg live, found] at invoked
    simp only [submit] at invoked
    split at invoked
    · cases invoked
      exact ⟨newer, older, option.option, _, split, last, unsent, rfl, tracked.fields found⟩
    · cases invoked
      exact ⟨newer, older, option.option, _, split, last, unsent, rfl, tracked.fields found⟩
    · cases invoked

/-- A user name is set, its object goes to Paho, and the number comes back without it. -/
theorem options_isolated_recycled :
    ∃ w : World .plain, Transition.run World.step World.initial
        [.call (.native .mqttCreate .plain [0, 0]),
          .call (.native .mqttCreateConnectOptions .plain []),
          .call (.native .mqttSetOptions { Host.plain with getAmxString := fun _ => [97] }
            [1, 0, 0]),
          .call (.native .mqttConnect .plain [1, 1]),
          .call (.native .mqttCreateConnectOptions .plain [])] = some w ∧
      optionsLog w.history =
        [.created 1, .consumed 1, .set 1 (.userName [97]), .created 1] ∧
      settings (optionsLog w.history) 1 = [] ∧ w.LiveOptions 1 := by
  have state : (Transition.run World.step (World.initial : World .plain)
      [.call (.native .mqttCreate .plain [0, 0]),
        .call (.native .mqttCreateConnectOptions .plain []),
        .call (.native .mqttSetOptions { Host.plain with getAmxString := fun _ => [97] } [1, 0, 0]),
        .call (.native .mqttConnect .plain [1, 1]),
        .call (.native .mqttCreateConnectOptions .plain [])]).map
          (fun w => optionsLog w.history) =
            some [.created 1, .consumed 1, .set 1 (.userName [97]), .created 1] := by
    decide +kernel
  obtain ⟨w, ran, log⟩ := Option.map_eq_some_iff.mp state
  have isolated := options_isolated ran (by simp [Action.builds, Host.plain])
  refine ⟨w, ran, log, by rw [log]; decide, (isolated.1 1).mpr ⟨[], _, log, by simp⟩⟩

end AmxxMqtt
