import AmxxMqtt.ClientSystem

/-!
# Activations over whole runs

The history of a client determines its flag, its handlers and whether it is stopping, and the
events of one activation are those of its body, in order.  `ClientSystem.Valid` is what every step
keeps; it explains every copy by what was installed at that moment and every invocation by the
copy before it.
-/

namespace AmxxMqtt

variable {H : Type}

/-! ## Views -/

/-- The activation an event belongs to. -/
def ClientEvent.id : ClientEvent H → Option Nat
  | .began id _ | .stored id _ | .copied id _ _ | .invoked id _ => some id
  | .installed _ _ | .stopped | .destroyed => none

theorem Statement.event_id {id : Nat} {copy invoked : Option H} {statement : Statement}
    {event : ClientEvent H} (left : statement.event id copy invoked = some event) :
    event.id = some id := by
  cases statement with
  | storeConnected value =>
      cases left
      rfl
  | copyHandler type =>
      cases left
      rfl
  | invokeHandler =>
      obtain ⟨handler, _, rfl⟩ := Option.map_eq_some_iff.mp left
      rfl

/-- The events of one activation, newest first. -/
def eventsOf (id : Nat) (history : List (ClientEvent H)) : List (ClientEvent H) :=
  history.filter fun event => event.id = some id

/-- The value last stored in the connection flag. -/
def lastFlag : List (ClientEvent H) → Bool
  | [] => false
  | .stored _ value :: _ => value
  | _ :: history => lastFlag history

/-- The handler last installed. -/
def lastInstalled : List (ClientEvent H) → CallbackType → Option H
  | [], _ => none
  | .installed installed handler :: history, type =>
      if type = installed then handler else lastInstalled history type
  | _ :: history, type => lastInstalled history type

theorem mem_eventsOf {id : Nat} {history : List (ClientEvent H)} {event : ClientEvent H} :
    event ∈ eventsOf id history ↔ event ∈ history ∧ event.id = some id := by
  simp only [eventsOf, List.mem_filter, decide_eq_true_eq]

theorem eventsOf_append (id : Nat) (newer older : List (ClientEvent H)) :
    eventsOf id (newer ++ older) = eventsOf id newer ++ eventsOf id older :=
  List.filter_append ..

theorem eventsOf_cons_of_ne {id : Nat} {event : ClientEvent H} (other : event.id ≠ some id)
    (history : List (ClientEvent H)) : eventsOf id (event :: history) = eventsOf id history :=
  List.filter_cons_of_neg (by simpa using other)

theorem eventsOf_cons_of_eq {id : Nat} {event : ClientEvent H} (own : event.id = some id)
    (history : List (ClientEvent H)) :
    eventsOf id (event :: history) = event :: eventsOf id history :=
  List.filter_cons_of_pos (by simpa using own)

/-- Newer events of one activation, seen by that activation. -/
theorem eventsOf_append_own {id : Nat} {newer : List (ClientEvent H)}
    (own : ∀ event ∈ newer, event.id = some id) (history : List (ClientEvent H)) :
    eventsOf id (newer ++ history) = newer ++ eventsOf id history := by
  have all : eventsOf id newer = newer :=
    List.filter_eq_self.mpr fun event member => by simp [own event member]
  rw [eventsOf_append, all]

/-- Newer events of one activation, not seen by another. -/
theorem eventsOf_append_other {id other : Nat} (different : other ≠ id)
    {newer : List (ClientEvent H)} (own : ∀ event ∈ newer, event.id = some id)
    (history : List (ClientEvent H)) :
    eventsOf other (newer ++ history) = eventsOf other history := by
  have none : eventsOf other newer = [] := List.filter_eq_nil_iff.mpr fun event member => by
    simpa [own event member] using Ne.symm different
  rw [eventsOf_append, none, List.nil_append]

/-- Events of the game thread are not among newer events of an activation. -/
theorem mem_append_foreign {id : Nat} {newer : List (ClientEvent H)}
    (own : ∀ event ∈ newer, event.id = some id) {event : ClientEvent H} (foreign : event.id = none)
    (history : List (ClientEvent H)) : event ∈ newer ++ history ↔ event ∈ history := by
  rw [List.mem_append, or_iff_right]
  intro member
  rw [own event member] at foreign
  cases foreign

/-! ## The course of an activation -/

/-- The events of an activation before its copy. -/
def Trigger.opening (trigger : Trigger) (id : Nat) : List (ClientEvent H) :=
  (trigger.stored.toList.map (.stored id)) ++ [.began id trigger]

/-- What an activation has left in the history when it has these statements to run and holds
this copy. -/
inductive Progress (id : Nat) (trigger : Trigger) :
    List Statement → Option H → List (ClientEvent H) → Prop
  | began {value : Bool} (stores : trigger.stored = some value) :
      Progress id trigger [.storeConnected value, .copyHandler trigger.type, .invokeHandler] none
        [.began id trigger]
  | ready : Progress id trigger [.copyHandler trigger.type, .invokeHandler] none
      (trigger.opening id)
  | copied (found : Option H) : Progress id trigger [.invokeHandler] found
      (.copied id trigger.type found :: trigger.opening id)
  | ended (found : Option H) : Progress id trigger [] none
      (found.toList.map (.invoked id) ++ .copied id trigger.type found :: trigger.opening id)

theorem Progress.start (id : Nat) (trigger : Trigger) :
    Progress id trigger trigger.body (none : Option H) [.began id trigger] := by
  rw [trigger.body_eq]
  cases stores : trigger.stored with
  | none =>
      have opened : Progress id trigger _ (none : Option H) (trigger.opening id) := .ready
      rwa [Trigger.opening, stores] at opened
  | some value => exact .began stores

/-- One statement of a body. -/
theorem Progress.execute {id : Nat} {trigger : Trigger} {statement : Statement}
    {rest : List Statement} {copy : Option H} {events : List (ClientEvent H)}
    (progress : Progress id trigger (statement :: rest) copy events) (client : MqttClient H) :
    Progress id trigger rest (client.execute copy statement).2.1
      ((statement.event id (client.execute copy statement).2.1
        (client.execute copy statement).2.2).toList ++ events) := by
  cases progress with
  | began stores =>
      have opened : Progress id trigger _ (none : Option H) (trigger.opening id) := .ready
      rwa [Trigger.opening, stores] at opened
  | ready => exact .copied _
  | copied =>
      cases copy with
      | none => exact .ended none
      | some handler => exact .ended (some handler)

theorem Progress.began_mem {id : Nat} {trigger : Trigger} {remaining : List Statement}
    {copy : Option H} {events : List (ClientEvent H)}
    (progress : Progress id trigger remaining copy events) : .began id trigger ∈ events := by
  cases progress <;> simp [Trigger.opening]

/-- What every activation has done is the beginning of its body, and it did it once. -/
def Course (id : Nat) (events : List (ClientEvent H)) : Prop :=
  events = [] ∨ ∃ trigger remaining copy, Progress id trigger remaining copy events

/-- An activation that invoked a handler had copied it, and copies once. -/
theorem Course.copied_of_invoked {id : Nat} {events : List (ClientEvent H)} {handler : H}
    {type : CallbackType} {found : Option H} (course : Course id events)
    (invoked : .invoked id handler ∈ events) (copied : .copied id type found ∈ events) :
    found = some handler := by
  rcases course with rfl | ⟨trigger, remaining, copy, progress⟩
  · cases invoked
  · cases progress with
    | began => simp at invoked
    | ready => simp [Trigger.opening] at invoked
    | copied => simp [Trigger.opening] at invoked
    | ended held =>
        simp only [Trigger.opening, List.mem_append, List.mem_map, Option.mem_toList,
          List.mem_cons, reduceCtorEq, and_false, exists_false, List.not_mem_nil, or_false,
          false_or, ClientEvent.invoked.injEq, ClientEvent.copied.injEq, true_and] at invoked copied
        rcases invoked with ⟨_, isHeld, rfl⟩
        exact copied.2.trans isHeld

/-- What a statement does to the client, read off the history. -/
theorem MqttClient.execute_views (client : MqttClient H) (copy : Option H)
    (statement : Statement) (id : Nat) (history : List (ClientEvent H)) :
    let after := client.execute copy statement
    let events := (statement.event id after.2.1 after.2.2).toList ++ history
    (client.isConnected = lastFlag history → after.1.isConnected = lastFlag events) ∧
      after.1.stopping = client.stopping ∧
      (∀ type, after.1.handler type = client.handler type) ∧
      ∀ type, lastInstalled events type = lastInstalled history type := by
  cases statement with
  | storeConnected value =>
      refine ⟨fun _ => rfl, rfl, fun type => ?_, fun _ => rfl⟩
      cases type <;> rfl
  | copyHandler type => exact ⟨fun same => same, rfl, fun _ => rfl, fun _ => rfl⟩
  | invokeHandler => cases copy <;> exact ⟨fun same => same, rfl, fun _ => rfl, fun _ => rfl⟩

/-! ## The invariant -/

/-- What the older events say about a copy and an invocation. -/
def ClientEvent.Explained : ClientEvent H → List (ClientEvent H) → Prop
  | .copied _ type found, older =>
      (.stopped ∈ older → found = none) ∧ (.stopped ∉ older → found = lastInstalled older type)
  | .invoked id handler, older =>
      .destroyed ∉ older ∧
        ∃ trigger : Trigger,
          eventsOf id older = .copied id trigger.type (some handler) :: trigger.opening id
  | _, _ => True

structure ClientSystem.Valid (s : ClientSystem H) : Prop where
  flag : s.client.isConnected = lastFlag s.history
  stopping : s.client.stopping = true ↔ .stopped ∈ s.history
  handlers : ∀ type, s.client.handler type = lastInstalled s.history type
  destroyed : s.destroyed = true ↔ .destroyed ∈ s.history
  finished : s.destroyed = true → s.client.stopping = true ∧ s.running.keys = []
  fresh : ∀ event ∈ s.history, ∀ id, event.id = some id → id < s.history.length
  running : ∀ {id activation}, s.running.lookup id = some activation →
    Progress id activation.trigger activation.remaining activation.copy (eventsOf id s.history)
  courses : ∀ id, Course id (eventsOf id s.history)
  explained : Log.Explained ClientEvent.Explained s.history

namespace ClientSystem.Valid

variable {s t : ClientSystem H}

theorem initial : (ClientSystem.initial : ClientSystem H).Valid where
  flag := rfl
  stopping := by simp [ClientSystem.initial]
  handlers type := by cases type <;> rfl
  destroyed := by simp [ClientSystem.initial]
  finished finished := by cases finished
  fresh event member := by cases member
  running found := by cases found
  courses _ := .inl rfl
  explained := Log.explained_nil _

/-- No event is of an activation yet to begin. -/
theorem eventsOf_next (valid : s.Valid) : eventsOf s.history.length s.history = [] := by
  refine List.filter_eq_nil_iff.mpr fun event member own => ?_
  exact Nat.lt_irrefl _ (valid.fresh event member _ (of_decide_eq_true own))

/-- An event of the game thread leaves the activations alone. -/
theorem external (valid : s.Valid) {event : ClientEvent H} (foreign : event.id = none)
    (history : t.history = event :: s.history) (running : t.running = s.running)
    (explains : event.Explained s.history)
    (flag : t.client.isConnected = lastFlag t.history)
    (stopping : t.client.stopping = true ↔ .stopped ∈ t.history)
    (handlers : ∀ type, t.client.handler type = lastInstalled t.history type)
    (destroyed : t.destroyed = true ↔ .destroyed ∈ t.history)
    (finished : t.destroyed = true → t.client.stopping = true ∧ t.running.keys = []) :
    t.Valid where
  flag := flag
  stopping := stopping
  handlers := handlers
  destroyed := destroyed
  finished := finished
  fresh other member id own := by
    rw [history] at member ⊢
    rcases List.mem_cons.mp member with rfl | older
    · rw [foreign] at own
      cases own
    · exact Nat.lt_succ_of_lt (valid.fresh other older id own)
  running {id activation} found := by
    rw [history, eventsOf_cons_of_ne (by simp [foreign])]
    exact valid.running (running ▸ found)
  courses id := by
    rw [history, eventsOf_cons_of_ne (by simp [foreign])]
    exact valid.courses id
  explained := by
    rw [history]
    exact Log.explained_cons explains valid.explained

/-- A thread enters a body. -/
theorem enter (valid : s.Valid) (alive : s.destroyed = false) (trigger : Trigger) :
    (s.enter trigger).Valid where
  flag := valid.flag
  stopping := valid.stopping.trans (by simp [ClientSystem.enter])
  handlers := valid.handlers
  destroyed := valid.destroyed.trans (by simp [ClientSystem.enter])
  finished finished := by
    rw [ClientSystem.enter, alive] at finished
    cases finished
  fresh event member id own := by
    rcases List.mem_cons.mp member with rfl | older
    · cases own
      exact Nat.lt_succ_self _
    · exact Nat.lt_succ_of_lt (valid.fresh event older id own)
  running {id activation} found := by
    simp only [ClientSystem.enter, Table.lookup_insert_iff] at found
    split at found
    · rename_i same
      cases found
      rw [same]
      have events : eventsOf s.history.length (s.enter trigger).history =
          [.began s.history.length trigger] := by
        rw [ClientSystem.enter, eventsOf_cons_of_eq rfl, valid.eventsOf_next]
      rw [events]
      exact Progress.start _ _
    · rename_i different
      have other : (ClientEvent.began s.history.length trigger : ClientEvent H).id ≠ some id := by
        simpa [ClientEvent.id] using Ne.symm different
      rw [ClientSystem.enter, eventsOf_cons_of_ne other]
      exact valid.running found
  courses id := by
    by_cases same : id = s.history.length
    · rw [same, ClientSystem.enter, eventsOf_cons_of_eq rfl, valid.eventsOf_next]
      exact .inr ⟨trigger, _, _, Progress.start _ _⟩
    · rw [ClientSystem.enter, eventsOf_cons_of_ne (by simpa [ClientEvent.id] using Ne.symm same)]
      exact valid.courses id
  explained := Log.explained_cons True.intro valid.explained

/-- A statement's events are explained by the moment it runs. -/
theorem explained_execute (valid : s.Valid) (alive : s.destroyed = false) {id : Nat}
    {trigger : Trigger} {statement : Statement} {rest : List Statement} {copy : Option H}
    (progress : Progress id trigger (statement :: rest) copy (eventsOf id s.history)) :
    Log.Explained ClientEvent.Explained ((statement.event id (s.client.execute copy statement).2.1
      (s.client.execute copy statement).2.2).toList ++ s.history) := by
  generalize same : eventsOf id s.history = events at progress
  cases progress with
  | began stores => exact Log.explained_cons True.intro valid.explained
  | ready =>
      refine Log.explained_cons ⟨fun stopped => ?_, fun running => ?_⟩ valid.explained
      · exact if_pos (valid.stopping.mpr stopped)
      · exact (if_neg (fun stopping => running (valid.stopping.mp stopping))).trans
          (valid.handlers _)
  | copied =>
      cases copy with
      | none => exact valid.explained
      | some handler =>
          refine Log.explained_cons ⟨fun gone => ?_, trigger, same⟩ valid.explained
          rw [valid.destroyed.mpr gone] at alive
          cases alive

/-- An activation runs its next statement. -/
theorem execute (valid : s.Valid) {id : Nat} {trigger : Trigger} {statement : Statement}
    {rest : List Statement} {copy : Option H}
    (here : s.running.lookup id = some ⟨trigger, statement :: rest, copy⟩) :
    (s.execute id ⟨trigger, statement :: rest, copy⟩ statement rest).Valid := by
  have progress := valid.running here
  have began := mem_eventsOf.mp progress.began_mem
  have alive : s.destroyed = false := by
    refine Bool.eq_false_iff.mpr fun destroyed => ?_
    have member : id ∈ s.running := AList.lookup_isSome.mp (by rw [here]; rfl)
    rw [AList.mem_keys, (valid.finished destroyed).2] at member
    cases member
  rcases same : s.client.execute copy statement with ⟨client, copied, invoked⟩
  have next := progress.execute s.client
  rw [same] at next
  have own : ∀ event ∈ (statement.event id copied invoked).toList, event.id = some id := by
    intro event member
    rw [Option.mem_toList] at member
    exact Statement.event_id member
  have explained := valid.explained_execute alive progress
  obtain ⟨flag, stopping, handlers, installed⟩ :=
    MqttClient.execute_views s.client copy statement id s.history
  rw [same] at explained flag stopping handlers installed
  simp only [ClientSystem.execute, same]
  refine ⟨flag valid.flag, ?_, fun type => ?_, ?_, ?_, ?_, ?_, ?_, explained⟩
  · rw [stopping]
    exact valid.stopping.trans (mem_append_foreign own rfl _).symm
  · rw [handlers, installed]
    exact valid.handlers type
  · exact valid.destroyed.trans (mem_append_foreign own rfl _).symm
  · intro destroyed
    rw [alive] at destroyed
    cases destroyed
  · intro event member other mineToo
    rcases List.mem_append.mp member with newest | older
    · rw [own event newest] at mineToo
      cases mineToo
      have bound := valid.fresh _ began.1 id rfl
      simp only [List.length_append]
      omega
    · have bound := valid.fresh event older other mineToo
      simp only [List.length_append]
      omega
  · intro other activation found
    split at found
    · rename_i finished
      rw [Table.lookup_erase_iff] at found
      split at found
      · cases found
      · rw [eventsOf_append_other ‹_› own]
        exact valid.running found
    · rw [Table.lookup_insert_iff] at found
      split at found
      · rename_i same
        cases found
        rw [same, eventsOf_append_own own]
        exact next
      · rw [eventsOf_append_other ‹_› own]
        exact valid.running found
  · intro other
    by_cases same : other = id
    · rw [same, eventsOf_append_own own]
      exact .inr ⟨trigger, rest, copied, next⟩
    · rw [eventsOf_append_other same own]
      exact valid.courses other

/-- **One step's invariant.** -/
theorem step {action : ClientAction H} (stepped : s.step action = some t) (valid : s.Valid) :
    t.Valid := by
  cases ClientSystem.steps stepped with
  | @setHandler type handler idle =>
      refine valid.external rfl rfl rfl True.intro ?_ ?_ (fun other => ?_) ?_ fun destroyed => ?_
      · exact (MqttClient.setHandler_isConnected ..).trans valid.flag
      · rw [MqttClient.setHandler_stopping]
        exact valid.stopping.trans (by simp)
      · rw [MqttClient.handler_setHandler, lastInstalled, valid.handlers]
      · exact valid.destroyed.trans (by simp)
      · rw [MqttClient.setHandler_stopping]
        exact valid.finished destroyed
  | request idle => exact valid
  | accepted idle fresh =>
      exact ⟨valid.flag, valid.stopping, valid.handlers, valid.destroyed, valid.finished,
        valid.fresh, valid.running, valid.courses, valid.explained⟩
  | threw idle =>
      refine valid.enter (Bool.eq_false_iff.mpr fun destroyed => ?_) _
      rw [ClientSystem.idle, (valid.finished destroyed).1] at idle
      cases idle
  | @deliver callback pending alive =>
      have kept : ({ s with pending } : ClientSystem H).Valid :=
        ⟨valid.flag, valid.stopping, valid.handlers, valid.destroyed, valid.finished,
          valid.fresh, valid.running, valid.courses, valid.explained⟩
      exact kept.enter alive _
  | advance here => exact valid.execute here
  | stop idle =>
      refine valid.external rfl rfl rfl True.intro valid.flag (by simp) (fun type => ?_) ?_
        fun destroyed => ⟨rfl, (valid.finished destroyed).2⟩
      · have same := valid.handlers type
        cases type <;> exact same
      · exact valid.destroyed.trans (by simp)
  | destroy stopping finished once =>
      refine valid.external rfl rfl rfl True.intro valid.flag ?_ valid.handlers (by simp)
        (fun _ => ⟨stopping, finished⟩)
      exact valid.stopping.trans (by simp)

theorem run {actions : List (ClientAction H)} (valid : s.Valid)
    (ran : Transition.run ClientSystem.step s actions = some t) : t.Valid :=
  Transition.run_invariant (fun _ stepped valid => valid.step stepped) ran
    (fun _ _ => True.intro) valid

theorem of_run {actions : List (ClientAction H)}
    (ran : Transition.run ClientSystem.step ClientSystem.initial actions = some s) : s.Valid :=
  initial.run ran

end ClientSystem.Valid

end AmxxMqtt
