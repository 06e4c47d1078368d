import AmxxMqtt.ClientRefinement
import AmxxMqtt.Teardown

/-!
# What is seen of the clients

The promises `MqttClient` makes to its handlers, for all clients of the module at once and for any
interleaving of the threads: a handler is invoked only after it was copied from a client that still
had it and was not being destroyed, and a client is there until nothing is left to be seen of it.
They hold of each client by itself, and the refinement carries them to the module.
-/

namespace AmxxMqtt

open Refinement

/-! ## One client -/

/-- What the older events say about the end of a client. -/
def ClientEvent.BeforeEnd {H : Type} (event : ClientEvent H) (older : List (ClientEvent H)) :
    Prop :=
  .destroyed ∉ older ∧ (event = .destroyed → .stopped ∈ older)

namespace ClientSystem

variable {H : Type} {s t : ClientSystem H} {action : ClientAction H}

/-- Nothing happens to a client whose destructor has returned. -/
theorem alive_of_step (valid : s.Valid) (taken : s.step action = some t) :
    s.destroyed = false := by
  refine Bool.eq_false_iff.mpr fun gone => ?_
  obtain ⟨stopping, finished⟩ := valid.finished gone
  have busy : s.idle = false := by simp [ClientSystem.idle, stopping]
  cases steps taken with
  | setHandler idle | request idle | accepted idle | threw idle | stop idle =>
      rw [busy] at idle
      cases idle
  | deliver alive | destroy _ _ alive =>
      rw [gone] at alive
      cases alive
  | @advance id _ _ _ _ here =>
      have member : id ∈ s.running := AList.lookup_isSome.mp (Option.isSome_of_eq_some here)
      rw [AList.mem_keys, finished] at member
      cases member

/-- The history accounts for the client, and nothing in it comes after the end. -/
structure Recorded (s : ClientSystem H) : Prop where
  valid : s.Valid
  ends : Log.Explained ClientEvent.BeforeEnd s.history

theorem Recorded.step (taken : s.step action = some t) (recorded : s.Recorded) :
    Log.Explained ClientEvent.BeforeEnd t.history := by
  rcases recorded with ⟨valid, ends⟩
  have there : .destroyed ∉ s.history := by
    rw [← valid.destroyed, alive_of_step valid taken]
    simp
  cases steps taken with
  | request | accepted => exact ends
  | destroy stopping =>
      exact Log.explained_cons ⟨there, fun _ => valid.stopping.mp stopping⟩ ends
  | setHandler | threw | deliver | stop => exact Log.explained_cons ⟨there, by simp⟩ ends
  | @advance id trigger statement rest copy here =>
      simp only [execute]
      cases left : statement.event id (s.client.execute copy statement).2.1
        (s.client.execute copy statement).2.2 with
      | none => exact ends
      | some event =>
          refine Log.explained_cons ⟨there, fun last => ?_⟩ ends
          have own := Statement.event_id left
          rw [last] at own
          cases own

theorem Recorded.anyStep (taken : s.anyStep action = some t) (recorded : s.Recorded) :
    t.Recorded := by
  obtain ⟨pending, stepped⟩ := anyStep_cases taken
  exact ⟨recorded.valid.anyStep taken,
    Recorded.step stepped ⟨recorded.valid.setPending pending, recorded.ends⟩⟩

theorem Recorded.of_anyRun {actions : List (ClientAction H)}
    (ran : Transition.run ClientSystem.anyStep ClientSystem.initial actions = some s) :
    s.Recorded :=
  Transition.run_invariant (fun {_ _ _} (_ : True) taken recorded => recorded.anyStep taken) ran
    (fun _ _ => True.intro) ⟨.initial, Log.explained_nil _⟩

end ClientSystem

/-! ## All clients -/

/-- The client something is seen of; a handler is invoked apart from its client. -/
def ClientSight.object : ClientSight → Option ObjectId
  | .installed object _ _ | .began object _ | .stored object _ | .copied object _ _
  | .stopped object | .destroyed object => some object
  | .invoked _ => none

theorem ClientEvent.sight_object {event : ClientEvent BoundHandler} {client object : ObjectId}
    (own : (event.sight client).object = some object) : client = object := by
  cases event with
  | invoked => cases own
  | _ => exact Option.some.inj own

/-- The handler last installed in a client. -/
def lastInstalledOf (object : ObjectId) : List ClientSight → CallbackType → Option BoundHandler
  | [], _ => none
  | .installed client installed handler :: past, type =>
      if client = object ∧ type = installed then handler else lastInstalledOf object past type
  | _ :: past, type => lastInstalledOf object past type

/-- The value last stored in a client's connection flag. -/
def lastFlagOf (object : ObjectId) : List ClientSight → Bool
  | [] => false
  | .stored client value :: past => if client = object then value else lastFlagOf object past
  | _ :: past => lastFlagOf object past

/-- What a client does, as it is seen. -/
def sightOf (told : ObjectId × ClientEvent BoundHandler) : ClientSight := told.2.sight told.1

variable {told : List (ObjectId × ClientEvent BoundHandler)} {object : ObjectId}

theorem lastInstalledOf_map (type : CallbackType) :
    lastInstalledOf object (told.map sightOf) type =
      lastInstalled (Family.ofMember object told) type := by
  induction told with
  | nil => rfl
  | cons event told ih =>
      rcases event with ⟨client, event⟩
      by_cases same : client = object
      · subst same
        rw [List.map_cons, Family.ofMember_cons_self]
        cases event with
        | installed installed handler =>
            by_cases this : type = installed <;>
              simp [sightOf, ClientEvent.sight, lastInstalledOf, lastInstalled, this, ih]
        | _ => exact ih
      · rw [List.map_cons, Family.ofMember_cons_of_ne same, ← ih]
        cases event with
        | installed => simp [sightOf, ClientEvent.sight, lastInstalledOf, same]
        | _ => rfl

theorem lastFlagOf_map :
    lastFlagOf object (told.map sightOf) = lastFlag (Family.ofMember object told) := by
  induction told with
  | nil => rfl
  | cons event told ih =>
      rcases event with ⟨client, event⟩
      by_cases same : client = object
      · subst same
        rw [List.map_cons, Family.ofMember_cons_self]
        cases event with
        | stored => simp [sightOf, ClientEvent.sight, lastFlagOf, lastFlag]
        | _ => exact ih
      · rw [List.map_cons, Family.ofMember_cons_of_ne same, ← ih]
        cases event with
        | stored => simp [sightOf, ClientEvent.sight, lastFlagOf, same]
        | _ => rfl

/-- The end of a client is seen when the client tells it. -/
theorem end_mem_sights_iff {event : ClientEvent BoundHandler}
    (ends : event = .stopped ∨ event = .destroyed) :
    event.sight object ∈ told.map sightOf ↔ event ∈ Family.ofMember object told := by
  rw [Family.mem_ofMember, List.mem_map]
  constructor
  · rintro ⟨⟨client, other⟩, member, same⟩
    rcases ends with rfl | rfl <;> cases other <;> cases same <;> exact member
  · exact fun member => ⟨_, member, rfl⟩

/-- Where the sights are taken apart, so is what the client seen there tells. -/
theorem sights_split {newer older : List ClientSight} {sight : ClientSight}
    (split : told.map sightOf = newer ++ sight :: older) : ∃ above client event below,
    above.map sightOf = newer ∧ event.sight client = sight ∧ below.map sightOf = older ∧
      Family.ofMember client told =
        Family.ofMember client above ++ event :: Family.ofMember client below := by
  obtain ⟨above, rest, rfl, first, second⟩ := List.map_eq_append_iff.mp split
  obtain ⟨⟨client, event⟩, below, rfl, here, last⟩ := List.map_eq_cons_iff.mp second
  refine ⟨above, client, event, below, first, here, last, ?_⟩
  rw [Family.ofMember_append, Family.ofMember_cons_self]

theorem Clients.observed_shows (f : Clients) (acts : List (ObjectId × ClientAction BoundHandler)) :
    observed Clients.step Clients.shows f acts =
      (observed Clients.step (Family.shows ClientSystem.shows) f acts).map sightOf := by
  rw [← observed_map]
  congr 1
  funext f act
  rw [Family.shows, List.map_map]
  rfl

/-- What is seen of the clients is what each of them tells. -/
theorem Threads.run_told {P : PahoOptions} {n : Nat} {actions : List (ThreadAction n)}
    {s : Threads P n} (ran : Transition.run Threads.step .initial actions = some s) :
    ∃ told f,
      (observed Threads.step Threads.sights (.initial : Threads P n) actions).reverse =
        told.map sightOf ∧
      (∀ object, Family.ofMember object told = (f object).history ∧ (f object).Recorded) ∧
      s.Follows f := by
  obtain ⟨acts, f, matched, same, follows⟩ := Threads.run_follows ran
  rw [Clients.observed_shows] at same
  refine ⟨_, f, by rw [← same, List.map_reverse], fun object => ?_, follows⟩
  have own := Family.run_member matched object
  have history := ClientSystem.history_run own
  refine ⟨?_, .of_anyRun own⟩
  rw [Family.ofMember_reverse, Clients.step, Family.observed_member matched, history]
  exact (List.append_nil _).symm

/-- **What the module's threads do with its clients.**  In every interleaving, newest first: a
handler invoked was copied from a client, installed in it at that moment, before the client's
destructor began, and the client is still there; a copy finds the handler last installed, or
nothing once the destructor has begun; after a destructor has ended nothing is seen of the client;
and a client that is there reports the flag last stored. -/
theorem handlers_invoked_installed {P : PahoOptions} {n : Nat} {actions : List (ThreadAction n)}
    {s : Threads P n} (ran : Transition.run Threads.step .initial actions = some s) :
    let past := (observed Threads.step Threads.sights (.initial : Threads P n) actions).reverse
    (∀ newer handler older, past = newer ++ .invoked handler :: older →
      ∃ object type middle oldest,
        older = middle ++ .copied object type (some handler) :: oldest ∧
          .destroyed object ∉ older ∧ .stopped object ∉ oldest ∧
          lastInstalledOf object oldest type = some handler) ∧
    (∀ newer object type found older, past = newer ++ .copied object type found :: older →
      (.stopped object ∈ older → found = none) ∧
        (.stopped object ∉ older → found = lastInstalledOf object older type)) ∧
    (∀ newer object older, past = newer ++ .destroyed object :: older →
      .stopped object ∈ older ∧ ∀ sight ∈ newer, sight.object ≠ some object) ∧
    ∀ object client, s.shared.client object = some client →
      client.base.isConnected = lastFlagOf object past := by
  intro past
  obtain ⟨told, f, seen, tells, follows⟩ := Threads.run_told ran
  have past_eq : past = told.map sightOf := seen
  rw [past_eq]
  refine ⟨fun newer handler older split => ?_, fun newer object type found older split => ?_,
    fun newer object older split => ?_, fun object client found => ?_⟩
  · obtain ⟨above, object, event, below, -, same, rfl, whole⟩ := sights_split split
    cases event <;> cases same
    obtain ⟨history, recorded⟩ := tells object
    have split := history.symm.trans whole
    obtain ⟨middle, oldest, type, copies, running, installed⟩ :=
      recorded.valid.copied_of_invoked split
    obtain ⟨between, bottom, rfl, -, rfl⟩ := Family.ofMember_split copies
    refine ⟨object, type, between.map sightOf, bottom.map sightOf, ?_, ?_, ?_, ?_⟩
    · rw [List.map_append, List.map_cons]
      rfl
    · exact fun gone => (recorded.ends _ _ _ split).1 ((end_mem_sights_iff (.inr rfl)).mp gone)
    · exact fun stopped => running ((end_mem_sights_iff (.inl rfl)).mp stopped)
    · rw [lastInstalledOf_map, installed]
  · obtain ⟨above, client, event, below, -, same, rfl, whole⟩ := sights_split split
    cases event <;> cases same
    obtain ⟨history, recorded⟩ := tells object
    obtain ⟨silenced, installed⟩ := recorded.valid.explained _ _ _ (history.symm.trans whole)
    refine ⟨fun stopped => silenced ((end_mem_sights_iff (.inl rfl)).mp stopped), fun running => ?_⟩
    rw [lastInstalledOf_map]
    exact installed fun stopped => running ((end_mem_sights_iff (.inl rfl)).mpr stopped)
  · obtain ⟨above, client, event, below, rfl, same, rfl, whole⟩ := sights_split split
    cases event <;> cases same
    obtain ⟨history, recorded⟩ := tells object
    have split := history.symm.trans whole
    refine ⟨(end_mem_sights_iff (.inl rfl)).mpr ((recorded.ends _ _ _ split).2 rfl), ?_⟩
    -- an event above it would come after the end
    intro sight member own
    obtain ⟨⟨other, later⟩, among, rfl⟩ := List.mem_map.mp member
    cases ClientEvent.sight_object own
    obtain ⟨newest, gap, apart⟩ := List.append_of_mem (Family.mem_ofMember.mpr among)
    rw [apart, List.append_assoc, List.cons_append] at split
    exact (recorded.ends _ _ _ split).1 (List.mem_append_right _ List.mem_cons_self)
  · obtain ⟨history, recorded⟩ := tells object
    rw [lastFlagOf_map, history, ← recorded.valid.flag, (follows.clients found).1]

/-- The connected handler is invoked, and the client reports itself connected. -/
theorem handlers_invoked_installed_connected : ∃ (s : Threads .plain 1) (client : AmxxMqttClient),
    Transition.run Threads.step .initial (copyingConnected ++ takenConnected) = some s ∧
      s.shared.client 7 = some client ∧ client.base.isConnected = true ∧
      ∃ object type middle oldest,
        [.copied 7 .connected (some ⟨.connected, 1⟩), .stored 7 true,
          .began 7 (.paho (.connected [])),
          .installed 7 .disconnected (some ⟨.disconnected, 1⟩),
          .installed 7 .connectionLost (some ⟨.connectionLost, 1⟩),
          .installed 7 .message (some ⟨.message, 1⟩),
          .installed 7 .connected (some ⟨.connected, 1⟩)] =
          middle ++ .copied object type (some ⟨.connected, 1⟩) :: oldest ∧
        lastInstalledOf object oldest type = some ⟨.connected, 1⟩ := by
  let actions := copyingConnected ++ takenConnected
  have state : ((Transition.run Threads.step (.initial : Threads .plain 1) actions).bind fun s =>
      s.shared.client 7).isSome = true := by
    decide +kernel
  have seen : (observed Threads.step Threads.sights (.initial : Threads .plain 1)
      actions).reverse =
      [] ++ .invoked ⟨.connected, 1⟩ :: [.copied 7 .connected (some ⟨.connected, 1⟩),
        .stored 7 true, .began 7 (.paho (.connected [])),
        .installed 7 .disconnected (some ⟨.disconnected, 1⟩),
        .installed 7 .connectionLost (some ⟨.connectionLost, 1⟩),
        .installed 7 .message (some ⟨.message, 1⟩),
        .installed 7 .connected (some ⟨.connected, 1⟩)] := by
    decide +kernel
  obtain ⟨client, state⟩ := Option.isSome_iff_exists.mp state
  obtain ⟨s, ran, found⟩ := Option.bind_eq_some_iff.mp state
  obtain ⟨invoked, _, _, flag⟩ := handlers_invoked_installed ran
  obtain ⟨object, type, middle, oldest, copied, _, _, installed⟩ := invoked _ _ _ seen
  refine ⟨s, client, ran, found, ?_, object, type, middle, oldest, copied, installed⟩
  rw [flag 7 client found, seen]
  rfl

end AmxxMqtt
