import AmxxMqtt.ClientUses

/-!
# Clients outlive their uses

`Tracked` is what every step keeps of the clients: `Lifetimes.Valid` for the statements of all
threads, and the room that the manager has checked for a client under construction.  From it: a
client that a pending statement uses exists, one that the manager does not have is owned by one
statement of the game thread, one that has been in the table does not enter it again, and one that
is gone stays gone.
-/

namespace AmxxMqtt

theorem ThreadOp.owns_of_producing {op : ThreadOp} (producer : op.producing = true) :
    op.owns = none := by
  cases op <;> first | rfl | cases producer

theorem ThreadOp.passes_of_producing {op : ThreadOp} (producer : op.producing = true) :
    discipline.Passes op := by
  cases op <;> first | exact ⟨rfl, rfl⟩ | cases producer

theorem ThreadOp.stays_of_producing {op : ThreadOp} (producer : op.producing = true) :
    op.movesClients = false := by
  cases op <;> first | rfl | cases producer

/-- A callback covers its own uses of its client. -/
theorem PahoCallback.covered_statements (object : ObjectId) (callback : PahoCallback) :
    ThreadOp.discipline.Covered (callback.statements object) := by
  unfold PahoCallback.statements
  cases callback.stored <;>
    simp [Lifetimes.Discipline.Covered, ThreadOp.discipline, ThreadOp.uses, ThreadOp.covers]

theorem PahoCallback.uses_statements {object other : ObjectId} {callback : PahoCallback}
    {op : ThreadOp} (member : op ∈ callback.statements object) (used : op.uses = some other) :
    other = object := by
  rcases List.mem_append.mp member with stores | rest
  · obtain ⟨value, _, rfl⟩ := List.mem_map.mp stores
    exact (Option.some.inj used).symm
  · rcases List.mem_cons.mp rest with rfl | last
    · exact (Option.some.inj used).symm
    · cases List.mem_singleton.mp last
      exact (Option.some.inj used).symm

namespace Threads

open Lifetimes

variable {P : PahoOptions} {n : Nat} {s s' : Threads P n} {t : Thread n}

/-- Where the clients are, and the statements that use them. -/
def lifetimes (s : Threads P n) : View (Thread n) ObjectId ThreadOp :=
  ⟨s.shared.kept, s.shared.loose, s.stack⟩

theorem live_iff {object : ObjectId} :
    s.lifetimes.live object ↔ (s.shared.client object).isSome = true :=
  Shared.client_isSome_iff.symm

/-- A client under construction has the handle and the room the manager has checked for it. -/
structure Room (clients : MqttClientMgr) (handle : Int) : Prop where
  next : handle = clients.nextHandle
  small : clients.nextHandle ≤ int32Max
  space : Table.size clients.clients < MqttClientMgr.maxClients

/-- What every run keeps of the clients. -/
structure Tracked (s : Threads P n) : Prop where
  listed : s.shared.Listed
  sound : s.Sound
  alive : Valid ThreadOp.discipline .game s.lifetimes
  clients : s.shared.globals.clients.Valid
  room : ∀ {handle object}, .emplace handle object ∈ s.stack .game →
    Room s.shared.globals.clients handle

theorem tracked_initial : (initial : Threads P n).Tracked where
  listed := run_listed (Transition.run_nil _)
  sound := sound_initial
  alive := by
    have nowhere : ∀ object, ¬ (initial : Threads P n).shared.loose object := by
      intro object found
      cases found
    refine ⟨fun member => absurd member List.not_mem_nil, .nil, fun {object} => ?_,
      fun _ => trivial, fun _ _ member => absurd member List.not_mem_nil⟩
    refine iff_of_false (nowhere object) fun owned => ?_
    rcases owned with ⟨op, member, _⟩
    exact List.not_mem_nil member
  clients := MqttClientMgr.valid_initial
  room member := absurd member List.not_mem_nil

/-- Outside the module nothing waits for a client. -/
theorem unused_of_callable (tracked : s.Tracked) (callable : s.callable = true) :
    ∀ op ∈ s.stack .game, op.uses = none := by
  have ordered : ThreadOp.discipline.Ordered (s.stack .game) := tracked.alive.ordered
  unfold Threads.callable at callable
  split at callable
  · rename_i empty
    rw [empty]
    exact fun op member => absurd member List.not_mem_nil
  · rename_i rest top
    rw [top] at ordered ⊢
    exact List.forall_mem_cons.mpr ⟨rfl, fun op member => (ordered.below_top op member).1 rfl⟩
  · cases callable

/-- The view after a thread's top statement is replaced, whatever happens to the mutexes. -/
theorem execs_of_hands (tracked : s.Tracked) {op : ThreadOp} {statements rest : List ThreadOp}
    {shared : Shared P} (top : s.stack t = op :: rest) (hands : op.Hands statements)
    (same : s.shared.SamePlaces shared)
    (borrows : t ≠ .game → ∀ next ∈ statements, next.owns = none ∧
      ∀ {object}, next.uses = some object → op.uses = some object ∧ op.covers ≠ some object) :
    Execs ThreadOp.discipline .game t op statements rest s.lifetimes
      ⟨shared.kept, shared.loose, Function.update s.stack t (statements ++ rest)⟩ := by
  have here : op ∈ s.stack t := top ▸ List.mem_cons_self
  have live {object : ObjectId} (alive : s.lifetimes.live object) :
      shared.kept object ∨ shared.loose object := by
    rw [same.kept, same.loose]
    exact alive
  refine ⟨top, rfl, hands.fits, live, fun next member {object} used => ?_, fun {object} => ?_,
    borrows⟩
  · exact live (tracked.alive.live here (hands.uses next member used))
  · show shared.loose object ↔ s.shared.loose object ∧ op.owns ≠ some object ∨
      ∃ next ∈ statements, next.owns = some object
    rw [same.loose, hands.owns]
    by_cases owned : op.owns = some object
    · refine iff_of_true ?_ (.inr owned)
      cases t with
      | game => exact tracked.alive.owner.mpr ⟨op, here, owned⟩
      | worker i =>
          cases (tracked.alive.borrows (by simp) op here).symm.trans owned
    · simp [owned]

/-- A worker's statement owns nothing, and leads to uses that are still covered. -/
theorem borrows_of_producing {shared shared' : Shared P} {op : ThreadOp}
    {statements : List ThreadOp} (producer : op.producing = true) (hands : op.Hands statements)
    (executed : op.exec shared = some (shared', statements)) :
    ∀ next ∈ statements, next.owns = none ∧
      ∀ {object}, next.uses = some object → op.uses = some object ∧ op.covers ≠ some object := by
  intro next member
  have produces := (ThreadOp.exec_producing producer executed).1 next member
  refine ⟨ThreadOp.owns_of_producing produces, fun used => ⟨hands.uses next member used, ?_⟩⟩
  cases op with
  | callbackReturn =>
      cases executed
      cases member
  | _ => exact fun covered => nomatch covered

/-- Only the end of `MQTTAsync_destroy` changes what the threads share. -/
theorem ret_cases (taken : s.step (.ret t) = some s') : ∃ op rest, s.stack t = op :: rest ∧
    ((op.owns = none ∧ op.role = .outside ∧
        s' = { s with stack := Function.update s.stack t rest }) ∨
      ∃ object, op = .paho object .destroy ∧ s.quiet object ∧
        s' = { s with
          shared := { s.shared with unlisted := s.shared.unlisted.erase object }
          stack := Function.update s.stack t rest }) := by
  simp only [step, ret] at taken
  split at taken
  · cases taken
    exact ⟨_, _, ‹_›, .inl ⟨rfl, rfl, rfl⟩⟩
  · rename_i object operation rest top
    split at taken
    · rename_i destroys
      subst destroys
      split at taken
      · cases taken
        exact ⟨_, _, top, .inr ⟨object, rfl, ‹_›, rfl⟩⟩
      · cases taken
    · rename_i living
      cases taken
      exact ⟨_, _, top, .inl ⟨(passes_paho living).2, rfl, rfl⟩⟩
  · cases taken

theorem worker_of_ne (other : t ≠ .game) : ∃ i, t = .worker i := by
  cases t with
  | game => exact absurd rfl other
  | worker i => exact ⟨i, rfl⟩

/-! ### Clients into the table and out of it -/

theorem kept_emplace {shared : Shared P} {handle : Int} {object other : ObjectId}
    {client : AmxxMqttClient} {nextHandle : Nat} (listed : shared.Listed)
    (free : handle ∉ shared.globals.clients.clients)
    (found : shared.unlisted.lookup object = some client) :
    ({ shared with
      globals := { shared.globals with
        clients :=
          ⟨MqttClientMgr.emplace handle client shared.globals.clients.clients, nextHandle⟩ }
      unlisted := shared.unlisted.erase object } : Shared P).kept other ↔
      shared.kept other ∨ other = object := by
  have own := (listed.unlisted found).1
  simp only [Shared.kept, Shared.objectAt_emplace free, own]
  constructor
  · intro kept
    rcases kept with ⟨place, here⟩
    split at here
    · exact .inr (Option.some.inj here).symm
    · exact .inl ⟨place, here⟩
  · intro kept
    rcases kept with ⟨place, here⟩ | rfl
    · refine ⟨place, ?_⟩
      rw [if_neg]
      · exact here
      · rintro rfl
        obtain ⟨client, live, _⟩ := Option.map_eq_some_iff.mp here
        exact free (AList.lookup_isSome.mp (by
          rw [show shared.globals.clients.clients.lookup place = some client from live]
          rfl))
    · exact ⟨handle, if_pos rfl⟩

/-- `emplace` hands the client from the statement to the table. -/
theorem execs_emplace (tracked : s.Tracked) {handle : Int} {object : ObjectId}
    {rest statements : List ThreadOp} {shared : Shared P}
    (top : s.stack .game = .emplace handle object :: rest)
    (executed : (ThreadOp.emplace handle object).exec s.shared = some (shared, statements)) :
    Execs ThreadOp.discipline .game .game (.emplace handle object) statements rest s.lifetimes
      ⟨shared.kept, shared.loose, Function.update s.stack .game (statements ++ rest)⟩ := by
  have here : ThreadOp.emplace handle object ∈ s.stack .game := top ▸ List.mem_cons_self
  have room := tracked.room here
  have free : handle ∉ s.shared.globals.clients.clients := room.next ▸ tracked.clients.next_notMem
  have owned : s.shared.loose object := tracked.alive.owner.mpr ⟨_, here, rfl⟩
  obtain ⟨client, found⟩ := Option.isSome_iff_exists.mp owned
  simp only [ThreadOp.exec, found] at executed
  cases executed
  refine ⟨top, rfl, ⟨.nil, .inl rfl⟩, fun {other} alive => ?_, by simp, fun {other} => ?_,
    fun other => absurd rfl other⟩
  · by_cases same : other = object
    · exact .inl ((kept_emplace tracked.listed free found).mpr (.inr same))
    · rcases alive with kept | loose
      · exact .inl ((kept_emplace tracked.listed free found).mpr (.inl kept))
      · exact .inr (Shared.loose_erase.mpr ⟨loose, same⟩)
  · simp only [List.not_mem_nil, false_and, exists_false, or_false]
    refine Shared.loose_erase.trans (and_congr_right fun _ => not_congr ?_)
    exact ⟨fun same => congrArg some same.symm, fun same => (Option.some.inj same).symm⟩

/-- `reset` hands the clients from the table to the statements that destroy them. -/
theorem execs_resetClients (tracked : s.Tracked) {rest statements : List ThreadOp}
    {shared : Shared P} (top : s.stack .game = .resetClients :: rest)
    (executed : ThreadOp.resetClients.exec s.shared = some (shared, statements)) :
    Execs ThreadOp.discipline .game .game .resetClients statements rest s.lifetimes
      ⟨shared.kept, shared.loose, Function.update s.stack .game (statements ++ rest)⟩ := by
  cases executed
  have removed {object : ObjectId} :
      (∃ client ∈ Table.values s.shared.globals.clients.clients, client.object = object) ↔
        s.shared.kept object := by
    constructor
    · intro among
      rcases among with ⟨client, member, rfl⟩
      obtain ⟨handle, live⟩ := Table.mem_values_iff.mp member
      exact ⟨handle, Shared.objectAt_of_live live⟩
    · intro kept
      rcases kept with ⟨handle, here⟩
      obtain ⟨client, live, own⟩ := Option.map_eq_some_iff.mp here
      exact ⟨client, Table.mem_values_iff.mpr ⟨handle, live⟩, own⟩
  let emptied : Shared P := { s.shared with globals := { s.shared.globals with
    clients := { s.shared.globals.clients with clients := ∅ } } }
  have loose {object : ObjectId} :
      (emptied.unlist (Table.values s.shared.globals.clients.clients)).loose object ↔
        emptied.loose object ∨
          ∃ client ∈ Table.values s.shared.globals.clients.clients, client.object = object :=
    Shared.loose_unlist _ emptied
  have owners {object : ObjectId} : (∃ next ∈ s.shared.globals.clients.reset.1.map fun client =>
      ThreadOp.destroyClient client.object, next.owns = some object) ↔ s.shared.kept object := by
    rw [← removed]
    simp [MqttClientMgr.reset, ThreadOp.owns]
  have alive {object : ObjectId} (alive : s.lifetimes.live object) :=
    loose.mpr (Or.imp_right removed.mpr alive.symm)
  refine ⟨top, rfl, ⟨?_, .inl rfl⟩, fun live => .inr (alive live), ?_, fun {object} => ?_,
    fun other => absurd rfl other⟩
  · refine List.pairwise_map.mpr ?_
    refine (List.pairwise_map.mp tracked.listed.nodup_values).imp fun different => ?_
    refine ⟨fun final => absurd final Bool.false_ne_true, fun object owned used => different ?_⟩
    exact (Option.some.inj owned).trans (Option.some.inj used).symm
  · intro next member object used
    obtain ⟨client, among, rfl⟩ := List.mem_map.mp member
    exact .inr (loose.mpr (.inr ⟨client, among, Option.some.inj used⟩))
  · refine loose.trans (or_congr ?_ (removed.trans owners.symm))
    exact (and_iff_left (by simp [ThreadOp.discipline, ThreadOp.owns])).symm

/-! ### Natives -/

section Native

variable {native : Native} {host : Host} {params : List Cell} {r : NativeReturn P}
  {g : Globals P}

theorem entered_of_same (same : r.globals.clients = g.clients) :
    (native.entered g r).clients = g.clients := by
  rcases entered_cases native g r with globals | globals
  · rw [globals]
  · rw [globals, same]

/-- A native gives the queue nothing by itself: the statements it leads to do. -/
theorem queue_entered (returns : Returns host params g native r) :
    (native.entered g r).queue = g.queue := by
  have unchanged (same : r.globals.queue = g.queue) : (native.entered g r).queue = g.queue := by
    rcases entered_cases native g r with globals | globals
    · rw [globals]
    · rw [globals, same]
  cases returns with
  | disconnectThrew => rfl
  | _ => exact unchanged rfl

/-- A client the manager has is still there when a native is entered, or the native removed it. -/
theorem kept_entered (returns : Returns host params g native r) {handle : Int}
    {client : AmxxMqttClient} (live : g.clients.getClient handle = some client) :
    (∃ after, (native.entered g r).clients.getClient handle = some after ∧
      after.object = client.object) ∨ client ∈ r.removed.toList := by
  have unchanged (same : r.globals.clients = g.clients) :
      (native.entered g r).clients.getClient handle = some client := by
    rw [entered_of_same same, live]
  cases returns with
  | created made => exact .inl ⟨client, live, rfl⟩
  | @destroyed removed arg =>
      by_cases this : handle = removed
      · subst this
        exact .inr (Option.mem_toList.mpr live)
      · refine .inl ⟨client, ?_, rfl⟩
        exact (AList.lookup_erase_ne this).trans live
  | @stored native type other name updated id kind arg nameArg found registered valid =>
      refine .inl ?_
      rcases entered_cases native g _ with globals | globals
      · rw [globals]
        exact ⟨client, live, rfl⟩
      rw [globals]
      by_cases this : handle = other
      · subst this
        cases live.symm.trans found
        exact ⟨_, AList.lookup_insert _, AmxxMqttClient.setForwardId_object ..⟩
      · exact ⟨client, (AList.lookup_insert_ne this).trans live, rfl⟩
  | _ => exact .inl ⟨client, unchanged rfl, rfl⟩

theorem valid_entered (returns : Returns host params g native r) (valid : g.clients.Valid) :
    (native.entered g r).clients.Valid := by
  have unchanged (same : r.globals.clients = g.clients) : (native.entered g r).clients.Valid := by
    rw [entered_of_same same]
    exact valid
  cases returns with
  | created made => exact valid
  | @destroyed handle arg => exact valid.destroy handle
  | stored kind arg nameArg live registered isValid =>
      rcases entered_cases native g _ with globals | globals
      · rw [globals]
        exact valid
      · rw [globals]
        exact valid.setClient live
  | _ => exact unchanged rfl

/-- What `make` checks before it constructs a client. -/
theorem room_of_make {clients : MqttClientMgr} {object : ObjectId} {handle : Int}
    (valid : g.clients.Valid) (made : g.clients.make (.ok object) = (.ok handle, clients)) :
    Room g.clients handle := by
  have cases := valid.make_cases (.ok object)
  rw [made] at cases
  cases cases with
  | made space small => exact ⟨rfl, small, space⟩

/-- Only a client under construction is about to enter the table. -/
theorem built_of_emplace (returns : Returns host params g native r) {handle : Int}
    {object : ObjectId} (member : .emplace handle object ∈ native.statements host params r) :
    object ∈ r.objects := by
  rcases (owns_statements returns).mp ⟨_, member, rfl⟩ with built | ⟨client, removed, _⟩
  · exact built
  · cases returns with
    | destroyed arg => simp [Native.statements] at member
    | _ => simp [rejection] at removed

theorem room_entered (returns : Returns host params g native r) (valid : g.clients.Valid)
    {handle : Int} {object : ObjectId}
    (member : .emplace handle object ∈ native.statements host params r) :
    Room (native.entered g r).clients handle := by
  have built := built_of_emplace returns member
  cases returns with
  | created made =>
      have issued := room_of_make valid made
      simp [Native.statements, Effect.statements] at member
      rw [member.1]
      exact issued
  | stored => simp [NativeReturn.objects] at built
  | _ => simp [NativeReturn.objects, rejection] at built

theorem loose_construct (objects : List ObjectId)
    (unlisted : AList fun _ : ObjectId => AmxxMqttClient) {object : ObjectId} :
    ((objects.foldl (fun unlisted object => unlisted.insert object ({ object } : AmxxMqttClient))
        unlisted).lookup object).isSome = true ↔
      (unlisted.lookup object).isSome = true ∨ object ∈ objects := by
  induction objects generalizing unlisted with
  | nil => simp
  | cons first objects ih =>
      rw [List.foldl_cons, ih, Table.lookup_insert_iff]
      by_cases same : object = first <;> simp [same]

theorem loose_enterNative {object : ObjectId} :
    (s.enterNative native host params r).shared.loose object ↔ s.shared.loose object ∨
      (object ∈ r.objects ∨ ∃ client ∈ r.removed.toList, client.object = object) := by
  rw [← or_assoc]
  exact (Shared.loose_unlist _ _).trans (or_congr_left (loose_construct ..))

theorem calls_enterNative (tracked : s.Tracked) (callable : s.callable = true)
    (invoked : native.invoke host params s.shared.globals = .ok r) :
    Calls ThreadOp.discipline .game .game (native.statements host params r) s.lifetimes
      (s.enterNative native host params r).lifetimes := by
  have returns := Native.returns invoked
  have live {object : ObjectId} (alive : s.lifetimes.live object) :
      (s.enterNative native host params r).lifetimes.live object := by
    rcases alive with ⟨handle, here⟩ | loose
    · obtain ⟨client, live, rfl⟩ := Option.map_eq_some_iff.mp here
      rcases kept_entered returns live with ⟨after, still, own⟩ | removed
      · exact .inl ⟨handle, own ▸ Shared.objectAt_of_live still⟩
      · exact .inr (loose_enterNative.mpr (.inr (.inr ⟨client, removed, rfl⟩)))
    · exact .inr (loose_enterNative.mpr (.inl loose))
  refine ⟨enterNative_stack .., ordered_statements returns,
    .inr (unused_of_callable tracked callable), live, fun op member {object} used => ?_,
    loose_enterNative.trans (or_congr_right (owns_statements returns).symm),
    fun other => absurd rfl other⟩
  rcases uses_statements member used with built | ⟨request, asked⟩ | removed
  · exact .inr (loose_enterNative.mpr (.inr (.inl built)))
  · obtain ⟨handle, client, found, rfl⟩ := request_live invoked asked
    exact live (.inl ⟨handle, Shared.objectAt_of_live found⟩)
  · exact .inr (loose_enterNative.mpr (.inr (.inr removed)))

end Native

/-! ### Every step -/

/-- Statements that can come before any others and use one live client at most. -/
theorem calls_of_passes {statements : List ThreadOp}
    (passes : ∀ op ∈ statements, ThreadOp.discipline.Passes op)
    (uses : ∀ op ∈ statements, ∀ {object}, op.uses = some object → s.lifetimes.live object)
    (covered : t ≠ .game → ThreadOp.discipline.Covered statements) :
    Calls ThreadOp.discipline .game t statements s.lifetimes (s.push t statements).lifetimes := by
  refine ⟨push_stack .., Discipline.ordered_of_passes passes, .inl passes, id,
    fun op member => uses op member, fun {object} => ?_,
    fun other => ⟨covered other, fun op member => (passes op member).2⟩⟩
  refine (or_iff_left ?_).symm
  intro owned
  rcases owned with ⟨op, member, owns⟩
  cases (passes op member).2.symm.trans owns

theorem uses_body {call : GameCall} : ∀ op ∈ call.body.map GameOp.statement, op.uses = none := by
  cases call <;> simp [GameCall.body, GameOp.statement, ThreadOp.uses]

/-- An entry point that is not a native uses no client by itself. -/
theorem calls_body (tracked : s.Tracked) (callable : s.callable = true) (call : GameCall) :
    Calls ThreadOp.discipline .game .game (call.body.map GameOp.statement) s.lifetimes
      (s.push .game (call.body.map GameOp.statement)).lifetimes := by
  refine ⟨push_stack .., ?_, .inr (unused_of_callable tracked callable), id,
    fun op member {object} used => ?_, fun {object} => ?_, fun other => absurd rfl other⟩
  · refine List.pairwise_iff_forall_sublist.mpr fun {first next} sub => ?_
    exact Discipline.below_of_unused (uses_body next (sub.subset (by simp))) first
  · cases (uses_body op member).symm.trans used
  · refine (or_iff_left ?_).symm
    intro owned
    rcases owned with ⟨op, member, owns⟩
    cases (uses_body op member).symm.trans (ThreadOp.discipline.owns_uses owns)

/-- `MQTTAsync_destroy` returns on the game thread. -/
theorem frees_destroy {object : ObjectId} {rest : List ThreadOp}
    (top : s.stack .game = .paho object .destroy :: rest) (quiet : s.quiet object) :
    Frees ThreadOp.discipline .game (.paho object .destroy) rest object s.lifetimes
      { s with
        shared := { s.shared with unlisted := s.shared.unlisted.erase object }
        stack := Function.update s.stack .game rest : Threads P n }.lifetimes := by
  refine ⟨top, rfl, rfl, fun {u} other op member covers => ?_, fun {other} alive different => ?_,
    Shared.loose_erase⟩
  · obtain ⟨i, rfl⟩ := worker_of_ne other
    cases op with
    | callbackReturn covered =>
        cases covers
        exact quiet i member
    | _ => cases covers
  · rcases alive with kept | loose
    exacts [.inl kept, .inr (Shared.loose_erase.mpr ⟨loose, different⟩)]

/-- A worker never destroys a client. -/
theorem game_of_destroy (sound : s.Sound) {object : ObjectId} {rest : List ThreadOp}
    (top : s.stack t = .paho object .destroy :: rest) : t = .game := by
  cases t with
  | game => rfl
  | worker i => cases (sound.workers_cons top).1

theorem game_of_moves (sound : s.Sound) {op : ThreadOp} {rest : List ThreadOp}
    (top : s.stack t = op :: rest) (moves : op.movesClients = true) : t = .game := by
  cases t with
  | game => rfl
  | worker i =>
      have stays := ThreadOp.stays_of_producing (sound.workers_cons top).1
      cases stays.symm.trans moves

theorem ret_alive (tracked : s.Tracked) (taken : s.step (.ret t) = some s') :
    Valid ThreadOp.discipline .game s'.lifetimes := by
  obtain ⟨op, rest, top, ends⟩ := ret_cases taken
  rcases ends with ⟨borrows, _, rfl⟩ | ⟨object, rfl, quiet, rfl⟩
  · exact tracked.alive.exec (execs_of_hands tracked top (ThreadOp.hands_nil borrows)
      (.refl _) fun _ next member => absurd member List.not_mem_nil)
  · cases game_of_destroy tracked.sound top
    exact tracked.alive.free (frees_destroy top quiet)

theorem step_alive {action : ThreadAction n} (tracked : s.Tracked)
    (taken : s.step action = some s') : Valid ThreadOp.discipline .game s'.lifetimes := by
  cases steps taken with
  | @lock t mutex rest top free | @unlock t mutex rest top =>
      exact tracked.alive.exec (execs_of_hands tracked top (ThreadOp.hands_nil rfl) (.refl _)
        fun _ next member => absurd member List.not_mem_nil)
  | @exec t op shared statements rest top executed =>
      cases moves : op.movesClients with
      | false =>
          have hands := ThreadOp.exec_hands moves executed
          refine tracked.alive.exec (execs_of_hands tracked top hands
            (Shared.samePlaces_exec moves executed) fun other => ?_)
          obtain ⟨i, rfl⟩ := worker_of_ne other
          exact borrows_of_producing (tracked.sound.workers_cons top).1 hands executed
      | true =>
          cases game_of_moves tracked.sound top moves
          cases op with
          | emplace handle object => exact tracked.alive.exec (execs_emplace tracked top executed)
          | resetClients => exact tracked.alive.exec (execs_resetClients tracked top executed)
          | _ => cases moves
  | ret | pahoRet => exact ret_alive tracked taken
  | native callable invoked fresh =>
      exact tracked.alive.call (calls_enterNative tracked callable invoked)
  | @entered call callable => exact tracked.alive.call (calls_body tracked callable call)
  | @callback t object callback receptive known =>
      refine tracked.alive.call (calls_of_passes (fun op member => ?_)
        (fun op member other used => ?_) fun _ => callback.covered_statements object)
      · exact ThreadOp.passes_of_producing (PahoCallback.producing_statements op member)
      · rw [PahoCallback.uses_statements member used]
        exact live_iff.mpr known
  | dispatch away =>
      refine tracked.alive.call (calls_of_passes ?_ ?_ fun _ => ?_)
      · simp [Discipline.Passes, ThreadOp.discipline, ThreadOp.last, ThreadOp.owns]
      · simp [ThreadOp.uses]
      · simp [Discipline.Covered, ThreadOp.discipline, ThreadOp.uses]

/-! ### The manager -/

theorem size_modifyBase (shared : Shared P) (object : ObjectId)
    (f : MqttClient BoundHandler → MqttClient BoundHandler) :
    Table.size (shared.modifyBase object f).globals.clients.clients =
      Table.size shared.globals.clients.clients := by
  unfold Shared.modifyBase
  cases this : shared.client object with
  | none => rfl
  | some client =>
      cases place : shared.handleOf object with
      | none => simp only [Shared.setClient, place]
      | some handle =>
          have live : shared.globals.clients.getClient handle = some client := by
            simpa only [Shared.client, place] using this
          simp only [Shared.setClient, place]
          refine Table.size_insert_of_mem (AList.lookup_isSome.mp ?_)
          rw [show shared.globals.clients.clients.lookup handle = some client from live]
          rfl

theorem clients_modifyBase {shared : Shared P} {object : ObjectId}
    {f : MqttClient BoundHandler → MqttClient BoundHandler}
    (valid : shared.globals.clients.Valid) :
    (shared.modifyBase object f).globals.clients.Valid ∧
      (shared.modifyBase object f).globals.clients.nextHandle = shared.globals.clients.nextHandle ∧
      Table.size (shared.modifyBase object f).globals.clients.clients =
        Table.size shared.globals.clients.clients := by
  refine and_assoc.mp ⟨?_, size_modifyBase shared object f⟩
  unfold Shared.modifyBase
  cases this : shared.client object with
  | none => exact ⟨valid, rfl⟩
  | some client =>
      cases place : shared.handleOf object with
      | none =>
          simp only [Shared.setClient, place]
          exact ⟨valid, trivial⟩
      | some handle =>
          have live : shared.globals.clients.getClient handle = some client := by
            simpa only [Shared.client, place] using this
          simp only [Shared.setClient, place]
          exact ⟨valid.setClient live, rfl⟩

theorem Room.of_same {clients after : MqttClientMgr} {handle : Int} (room : Room clients handle)
    (next : after.nextHandle = clients.nextHandle)
    (size : Table.size after.clients ≤ Table.size clients.clients) : Room after handle where
  next := next ▸ room.next
  small := next ▸ room.small
  space := Nat.lt_of_le_of_lt size room.space

/-- The manager after a statement that moves no client. -/
theorem clients_exec {shared shared' : Shared P} {op : ThreadOp} {statements : List ThreadOp}
    (stays : op.movesClients = false) (valid : shared.globals.clients.Valid)
    (executed : op.exec shared = some (shared', statements)) :
    shared'.globals.clients.Valid ∧
      shared'.globals.clients.nextHandle = shared.globals.clients.nextHandle ∧
      Table.size shared'.globals.clients.clients =
        Table.size shared.globals.clients.clients := by
  cases op with
  | foreign | paho | lock | unlock => cases executed
  | emplace | resetClients => cases stays
  | drain remaining => cases remaining <;> cases executed <;> exact ⟨valid, rfl, rfl⟩
  | takeFront | executeCallback | copyHandler | makeIndex =>
      simp only [ThreadOp.exec] at executed
      split at executed <;> cases executed <;> exact ⟨valid, rfl, rfl⟩
  | buildOptions =>
      simp only [ThreadOp.exec] at executed
      split at executed
      · split at executed <;> cases executed <;> exact ⟨valid, rfl, rfl⟩
      · cases executed
        exact ⟨valid, rfl, rfl⟩
  | storeConnected | storeHandler | setStopping =>
      cases executed
      exact clients_modifyBase valid
  | _ =>
      cases executed
      exact ⟨valid, rfl, rfl⟩

/-- The client the manager has made room for enters it. -/
theorem valid_emplace {clients : MqttClientMgr} {handle : Int} (valid : clients.Valid)
    (room : Room clients handle) (client : AmxxMqttClient) :
    MqttClientMgr.Valid ⟨MqttClientMgr.emplace handle client clients.clients,
      (clients.nextHandle + 1) % 2 ^ 64⟩ := by
  have free : handle ∉ clients.clients := room.next ▸ valid.next_notMem
  have increment : (clients.nextHandle + 1) % 2 ^ 64 = clients.nextHandle + 1 := by
    have small := room.small
    unfold int32Max at small
    exact Nat.mod_eq_of_lt (by omega)
  have made := valid.make (.ok client.object)
  have cases := valid.make_cases (.ok client.object)
  generalize clients.make (.ok client.object) = result at made cases
  cases cases with
  | full full => exact absurd full (Nat.ne_of_lt room.space)
  | exhausted _ spent => exact absurd room.small (by omega)
  | threw _ _ threw => cases threw
  | made _ _ constructed =>
      have written : (MqttClientMgr.setClient clients.nextHandle client _).Valid :=
        made.setClient (AList.lookup_insert _)
      rw [MqttClientMgr.setClient, AList.insert_insert, ← room.next] at written
      rw [MqttClientMgr.emplace, if_neg free, increment]
      exact written

/-- No statement leads to an `emplace`; natives do. -/
theorem emplace_notMem {shared shared' : Shared P} {op : ThreadOp} {statements : List ThreadOp}
    (executed : op.exec shared = some (shared', statements)) {handle : Int} {object : ObjectId} :
    .emplace handle object ∉ statements := by
  intro member
  cases moves : op.movesClients with
  | false =>
      have hands := ThreadOp.exec_hands moves executed
      have owned := hands.owns.mp ⟨_, member, rfl⟩
      cases op with
      | emplace => cases moves
      | destroyClient =>
          cases executed
          simp [ThreadOp.guarded] at member
      | paho => cases executed
      | _ => cases owned
  | true =>
      cases op with
      | emplace =>
          simp only [ThreadOp.exec] at executed
          split at executed <;> cases executed <;> cases member
      | resetClients =>
          cases executed
          obtain ⟨client, _, same⟩ := List.mem_map.mp member
          cases same
      | _ => cases moves

theorem step_clients {action : ThreadAction n} (tracked : s.Tracked)
    (taken : s.step action = some s') : s'.shared.globals.clients.Valid ∧
      ∀ {handle object}, .emplace handle object ∈ s'.stack .game →
        Room s'.shared.globals.clients handle := by
  have valid := tracked.clients
  -- what a thread still has to run is replaced by statements that construct nothing
  have replaced {t : Thread n} {stack : List ThreadOp} {clients : MqttClientMgr}
      (next : clients.nextHandle = s.shared.globals.clients.nextHandle)
      (size : Table.size clients.clients ≤ Table.size s.shared.globals.clients.clients)
      (pending : ∀ {handle object}, .emplace handle object ∈ stack →
        .emplace handle object ∈ s.stack t) {handle : Int} {object : ObjectId}
      (member : .emplace handle object ∈ Function.update s.stack t stack .game) :
      Room clients handle := by
    rcases mem_update (v := s.lifetimes) member with ⟨rfl, new⟩ | ⟨_, old⟩
    exacts [(tracked.room (pending new)).of_same next size, (tracked.room old).of_same next size]
  cases steps taken with
  | @lock t mutex rest top free | @unlock t mutex rest top =>
      exact ⟨valid, replaced rfl (Nat.le_refl _) fun member =>
        top ▸ List.mem_cons_of_mem _ member⟩
  | @ret t rest top =>
      exact ⟨valid, replaced rfl (Nat.le_refl _) fun member =>
        top ▸ List.mem_cons_of_mem _ member⟩
  | @pahoRet t object operation shared rest top destroyed left =>
      have same : shared.globals = s.shared.globals := by
        rcases left with rfl | rfl <;> rfl
      have pending {handle : Int} {object : ObjectId}
          (member : .emplace handle object ∈ rest) : .emplace handle object ∈ s.stack t :=
        top ▸ List.mem_cons_of_mem _ member
      simp only [same]
      exact ⟨valid, replaced rfl (Nat.le_refl _) pending⟩
  | @exec t op shared statements rest top executed =>
      have below : ∀ {other}, other ∈ rest → other ∈ s.stack t := fun member =>
        top ▸ List.mem_cons_of_mem _ member
      cases moves : op.movesClients with
      | false =>
          obtain ⟨after, next, size⟩ := clients_exec moves valid executed
          refine ⟨after, replaced next (Nat.le_of_eq size) fun member => ?_⟩
          rcases List.mem_append.mp member with new | old
          exacts [absurd new (emplace_notMem executed), below old]
      | true =>
          cases game_of_moves tracked.sound top moves
          cases op with
          | emplace handle object =>
              have room := tracked.room (top ▸ List.mem_cons_self)
              simp only [ThreadOp.exec] at executed
              split at executed
              · cases executed
                exact ⟨valid, replaced rfl (Nat.le_refl _) below⟩
              · cases executed
                refine ⟨valid_emplace valid room _, fun {other another} member => ?_⟩
                have ordered := tracked.alive.ordered
                rw [show s.lifetimes.stack .game = _ from top] at ordered
                have among : ThreadOp.emplace other another ∈ rest := by
                  simpa using member
                cases (ordered.below_top _ among).1 rfl
          | resetClients =>
              have none {handle : Int} {object : ObjectId} : .emplace handle object ∉ statements :=
                emplace_notMem executed
              cases executed
              refine ⟨valid.reset, fun {handle object} member => ?_⟩
              have pending : .emplace handle object ∈ s.stack .game := by
                simp only [Function.update_self] at member
                rcases List.mem_append.mp member with new | old
                exacts [absurd new none, below old]
              exact (tracked.room pending).of_same rfl (Nat.zero_le _)
          | _ => cases moves
  | @native native host args r callable invoked fresh =>
      have returns := Native.returns invoked
      refine ⟨valid_entered returns valid, fun {handle object} member => ?_⟩
      rw [enterNative_stack, Function.update_self] at member
      rcases List.mem_append.mp member with new | old
      · exact room_entered returns valid new
      · cases unused_of_callable tracked callable _ old
  | @entered call callable =>
      refine ⟨valid, fun {handle object} member => ?_⟩
      rw [push_stack, Function.update_self] at member
      rcases List.mem_append.mp member with new | old
      · cases uses_body _ new
      · exact tracked.room old
  | @callback t object callback receptive known =>
      refine ⟨valid, replaced rfl (Nat.le_refl _) fun member => ?_⟩
      rcases List.mem_append.mp member with new | old
      · cases PahoCallback.producing_statements _ new
      · exact old
  | dispatch away =>
      refine ⟨valid, replaced rfl (Nat.le_refl _) fun member => ?_⟩
      rcases List.mem_append.mp member with new | old
      · cases List.mem_singleton.mp new
      · exact old

theorem step_tracked {action : ThreadAction n} (taken : s.step action = some s')
    (tracked : s.Tracked) : s'.Tracked where
  listed := step_listed taken tracked.listed
  sound := step_sound taken tracked.sound
  alive := step_alive tracked taken
  clients := (step_clients tracked taken).1
  room := (step_clients tracked taken).2

theorem Tracked.run {actions : List (ThreadAction n)} (tracked : s.Tracked)
    (ran : Transition.run step s actions = some s') : s'.Tracked := by
  have kept : ∀ {s : Threads P n} {action s'}, True → s.step action = some s' → s.Tracked →
      s'.Tracked := fun _ taken tracked => step_tracked taken tracked
  exact Transition.run_invariant kept ran (fun _ _ => trivial) tracked

theorem run_tracked {actions : List (ThreadAction n)}
    (ran : Transition.run step initial actions = some s) : s.Tracked :=
  tracked_initial.run ran

/-! ## What arrives on the game thread's stack -/

/-- Where a statement that a step puts on the game thread's stack comes from. -/
inductive Arrives (s s' : Threads P n) (op : ThreadOp) : Prop
  | led {above : ThreadOp} {rest statements : List ThreadOp} {shared : Shared P}
      (top : s.stack .game = above :: rest)
      (executed : above.exec s.shared = some (shared, statements))
      (after : s'.stack .game = statements ++ rest) (member : op ∈ statements)
  | native {native : Native} {host : Host} {params : List Cell} {r : NativeReturn P}
      (callable : s.callable = true)
      (returns : Returns host params s.shared.globals native r)
      (fresh : ∀ object ∈ r.objects, object ∉ s.shared.constructed)
      (member : op ∈ native.statements host params r)
  | entered {call : GameCall} (callable : s.callable = true)
      (member : op ∈ call.body.map GameOp.statement)
  | produced (producer : op.producing = true)

theorem arrives_of_step {action : ThreadAction n} (taken : s.step action = some s')
    {op : ThreadOp} (member : op ∈ s'.stack .game) :
    op ∈ s.stack .game ∨ s.Arrives s' op := by
  have popped {u : Thread n} {top : ThreadOp} {rest : List ThreadOp}
      (stack : s.stack u = top :: rest)
      (member : op ∈ Function.update s.stack u rest .game) : op ∈ s.stack .game := by
    rcases mem_update (v := s.lifetimes) member with ⟨rfl, under⟩ | ⟨_, same⟩
    exacts [stack ▸ List.mem_cons_of_mem _ under, same]
  have pushed {u : Thread n} {statements : List ThreadOp}
      (producing : ∀ op ∈ statements, op.producing = true)
      (member : op ∈ (s.push u statements).stack .game) :
      op ∈ s.stack .game ∨ s.Arrives s' op := by
    rw [push_stack] at member
    rcases mem_update (v := s.lifetimes) member with ⟨rfl, among⟩ | ⟨_, same⟩
    · rcases List.mem_append.mp among with new | old
      exacts [.inr (.produced (producing op new)), .inl old]
    · exact .inl same
  cases steps taken with
  | lock top | unlock top | ret top | pahoRet top => exact .inl (popped top member)
  | @exec t above shared statements rest top executed =>
      rcases mem_update (v := s.lifetimes) member with ⟨rfl, among⟩ | ⟨_, same⟩
      · rcases List.mem_append.mp among with new | old
        · exact .inr (.led top executed (Function.update_self .game _ s.stack) new)
        · exact .inl (top ▸ List.mem_cons_of_mem _ old)
      · exact .inl same
  | native callable invoked fresh =>
      rw [enterNative_stack, Function.update_self] at member
      rcases List.mem_append.mp member with new | old
      exacts [.inr (.native callable (Native.returns invoked) fresh new), .inl old]
  | entered callable =>
      rw [push_stack, Function.update_self] at member
      rcases List.mem_append.mp member with new | old
      exacts [.inr (.entered callable new), .inl old]
  | callback receptive known => exact pushed PahoCallback.producing_statements member
  | dispatch away => exact pushed (by simp [ThreadOp.producing]) member

/-- A client waits to enter the table since its construction. -/
theorem emplace_of_step {action : ThreadAction n} (taken : s.step action = some s') {handle : Int}
    {object : ObjectId} (member : .emplace handle object ∈ s'.stack .game) :
    .emplace handle object ∈ s.stack .game ∨ object ∉ s.shared.constructed := by
  refine (arrives_of_step taken member).imp_right fun arrives => ?_
  cases arrives with
  | led top executed after member => exact absurd member (emplace_notMem executed)
  | native callable returns fresh member => exact fresh object (built_of_emplace returns member)
  | entered callable member => cases uses_body _ member
  | produced producer => cases producer

/-! ## What is gone stays gone -/

theorem constructed_modifyBase (object : ObjectId)
    (f : MqttClient BoundHandler → MqttClient BoundHandler) (shared : Shared P) :
    (shared.modifyBase object f).constructed = shared.constructed := by
  unfold Shared.modifyBase Shared.setClient
  split
  · split <;> rfl
  · rfl

theorem constructed_exec {shared shared' : Shared P} {op : ThreadOp} {statements : List ThreadOp}
    (executed : op.exec shared = some (shared', statements)) :
    shared'.constructed = shared.constructed := by
  cases op with
  | foreign | paho | lock | unlock => cases executed
  | drain remaining => cases remaining <;> cases executed <;> rfl
  | takeFront | executeCallback | copyHandler | makeIndex | emplace =>
      simp only [ThreadOp.exec] at executed
      split at executed <;> cases executed <;> rfl
  | buildOptions =>
      simp only [ThreadOp.exec] at executed
      split at executed
      · split at executed <;> cases executed <;> rfl
      · cases executed
        rfl
  | storeConnected | storeHandler | setStopping =>
      cases executed
      exact constructed_modifyBase _ _ shared
  | _ =>
      cases executed
      rfl

/-- A native puts no client into the manager, and leaves those there their `MqttClient`. -/
theorem kept_of_entered {native : Native} {host : Host} {params : List Cell} {r : NativeReturn P}
    {g : Globals P} (returns : Returns host params g native r) {handle : Int}
    {client : AmxxMqttClient}
    (live : (native.entered g r).clients.getClient handle = some client) :
    ∃ before, g.clients.getClient handle = some before ∧ before.object = client.object ∧
      before.base = client.base := by
  have unchanged (same : r.globals.clients = g.clients) :
      g.clients.getClient handle = some client := by
    rw [← live, entered_of_same same]
  cases returns with
  | created made => exact ⟨client, live, rfl, rfl⟩
  | @destroyed removed arg =>
      have still : (g.clients.clients.erase removed).lookup handle = some client := live
      rw [Table.lookup_erase_iff] at still
      split at still
      · cases still
      · exact ⟨client, still, rfl, rfl⟩
  | @stored native type other name updated id kind arg nameArg found registered valid =>
      rcases entered_cases native g _ with globals | globals
      · rw [globals] at live
        exact ⟨client, live, rfl, rfl⟩
      rw [globals] at live
      have still : (g.clients.clients.insert other (updated.setForwardId type id).1).lookup handle =
          some client := live
      rw [Table.lookup_insert_iff] at still
      split at still
      · rename_i this
        subst this
        cases still
        exact ⟨updated, found, (AmxxMqttClient.setForwardId_object ..).symm,
          (AmxxMqttClient.setForwardId_base ..).symm⟩
      · exact ⟨client, still, rfl, rfl⟩
  | _ => exact ⟨client, unchanged rfl, rfl, rfl⟩

theorem kept_of_removed {native : Native} {host : Host} {params : List Cell} {r : NativeReturn P}
    {shared : Shared P} (returns : Returns host params shared.globals native r)
    {client : AmxxMqttClient} (removed : client ∈ r.removed.toList) :
    shared.kept client.object := by
  cases returns with
  | @destroyed handle arg =>
      exact ⟨handle, Shared.objectAt_of_live (Option.mem_toList.mp removed)⟩
  | _ => cases removed

/-- Clients change their places and no new one comes. -/
theorem live_of_moves (tracked : s.Tracked) {op : ThreadOp} {statements rest : List ThreadOp}
    {shared : Shared P} (top : s.stack .game = op :: rest) (moves : op.movesClients = true)
    (executed : op.exec s.shared = some (shared, statements)) {object : ObjectId}
    (alive : shared.kept object ∨ shared.loose object) : s.lifetimes.live object := by
  cases op with
  | emplace handle entered =>
      have room := tracked.room (top ▸ List.mem_cons_self)
      have free : handle ∉ s.shared.globals.clients.clients :=
        room.next ▸ tracked.clients.next_notMem
      simp only [ThreadOp.exec] at executed
      split at executed
      · cases executed
        exact alive
      · rename_i client found
        cases executed
        rcases alive with kept | loose
        · rcases (kept_emplace tracked.listed free found).mp kept with old | rfl
          · exact .inl old
          · refine .inr ?_
            show (s.shared.unlisted.lookup object).isSome = true
            rw [found]
            rfl
        · exact .inr (Shared.loose_erase.mp loose).1
  | resetClients =>
      cases executed
      rcases alive with ⟨handle, here⟩ | loose
      · cases here
      · rcases (Shared.loose_unlist _ _).mp loose with old | ⟨client, removed, rfl⟩
        · exact .inr old
        · obtain ⟨handle, live⟩ := Table.mem_values_iff.mp removed
          exact .inl ⟨handle, Shared.objectAt_of_live live⟩
  | _ => cases moves

/-- A client exists after a step only if it did before, or the step constructed it anew. -/
theorem live_of_step {action : ThreadAction n} (tracked : s.Tracked)
    (taken : s.step action = some s') {object : ObjectId} (known : object ∈ s.shared.constructed) :
    object ∈ s'.shared.constructed ∧ (s'.lifetimes.live object → s.lifetimes.live object) := by
  cases steps taken with
  | @exec t op shared statements rest top executed =>
      refine ⟨(constructed_exec executed).symm ▸ known, fun alive => ?_⟩
      cases moves : op.movesClients with
      | false =>
          have same := Shared.samePlaces_exec moves executed
          exact alive.imp same.kept.mp same.loose.mp
      | true =>
          cases game_of_moves tracked.sound top moves
          exact live_of_moves tracked top moves executed alive
  | @pahoRet t destroyed operation shared rest top quiet left =>
      rcases left with rfl | rfl
      · exact ⟨known, id⟩
      · exact ⟨known, Or.imp_right fun loose => (Shared.loose_erase.mp loose).1⟩
  | @native native host args r callable invoked fresh =>
      have returns := Native.returns invoked
      refine ⟨List.mem_append_right _ known, fun alive => ?_⟩
      rcases alive with ⟨handle, here⟩ | loose
      · obtain ⟨client, live, own⟩ := Option.map_eq_some_iff.mp here
        obtain ⟨before, was, same, _⟩ := kept_of_entered returns live
        exact .inl ⟨handle, own ▸ same ▸ Shared.objectAt_of_live was⟩
      · rcases loose_enterNative.mp loose with old | built | ⟨client, removed, rfl⟩
        · exact .inr old
        · exact absurd known (fresh object built)
        · exact .inl (kept_of_removed returns removed)
  | lock | unlock | ret | entered | callback | dispatch => exact ⟨known, id⟩

/-- A client that is gone stays gone. -/
theorem run_gone {actions : List (ThreadAction n)} (tracked : s.Tracked) {object : ObjectId}
    (known : object ∈ s.shared.constructed) (gone : ¬ s.lifetimes.live object)
    (ran : Transition.run step s actions = some s') : ¬ s'.lifetimes.live object := by
  let inv := fun s : Threads P n =>
    s.Tracked ∧ object ∈ s.shared.constructed ∧ ¬ s.lifetimes.live object
  have kept : ∀ {s action s'}, True → s.step action = some s' → inv s → inv s' := by
    intro s action s' _ taken before
    rcases before with ⟨tracked, known, gone⟩
    obtain ⟨still, alive⟩ := live_of_step tracked taken known
    exact ⟨step_tracked taken tracked, still, fun live => gone (alive live)⟩
  have last : inv s' :=
    Transition.run_invariant kept ran (fun _ _ => True.intro) ⟨tracked, known, gone⟩
  exact last.2.2

/-- What no interleaving breaks: clients outlive their uses and are destroyed by their owner. -/
structure ClientSafe (s : Threads P n) : Prop where
  /-- the client a pending statement uses exists -/
  alive : ∀ {t op object}, op ∈ s.stack t → op.uses = some object →
    (s.shared.client object).isSome = true
  /-- a client that the manager does not have is owned by a statement of the game thread -/
  owned : ∀ {object}, (s.shared.unlisted.lookup object).isSome = true ↔
    ∃ op ∈ s.stack .game, op.owns = some object
  /-- it has one owner, and the manager no longer has it -/
  one_owner : ∀ {above op below object}, s.stack .game = above ++ op :: below →
    op.owns = some object → s.shared.handleOf object = none ∧
      ∀ other ∈ above ++ below, other.owns ≠ some object
  /-- once a client of the manager has been taken out of the table, its owner destroys it -/
  destroyed : ∀ {object s' actions}, (s.shared.handleOf object).isSome = true →
    Transition.run step s actions = some s' → (s'.shared.unlisted.lookup object).isSome = true →
      .destroyClient object ∈ s'.stack .game ∨ .paho object .destroy ∈ s'.stack .game
  /-- once `MQTTAsync_destroy` has returned the client is gone for good, and nothing uses it -/
  freed : ∀ {object rest s' s'' actions}, s.stack .game = .paho object .destroy :: rest →
    s.step (.ret .game) = some s' → Transition.run step s' actions = some s'' →
      s''.shared.client object = none ∧ ∀ t, ∀ op ∈ s''.stack t, op.uses ≠ some object

theorem Tracked.loose_only (tracked : s.Tracked) {object : ObjectId}
    (loose : s.shared.loose object) :
    object ∈ s.shared.constructed ∧ s.shared.handleOf object = none := by
  obtain ⟨client, found⟩ := Option.isSome_iff_exists.mp loose
  obtain ⟨_, known, absent⟩ := tracked.listed.unlisted found
  exact ⟨known, absent⟩

/-- A client that the manager has had is not put into the table again. -/
theorem Tracked.run_entered {actions : List (ThreadAction n)} (tracked : s.Tracked)
    {object : ObjectId} (listed : (s.shared.handleOf object).isSome = true)
    (ran : Transition.run step s actions = some s') {handle : Int} :
    .emplace handle object ∉ s'.stack .game := by
  let inv := fun s : Threads P n => s.Tracked ∧ object ∈ s.shared.constructed ∧
    ∀ handle, .emplace handle object ∉ s.stack .game
  have kept : ∀ {s action s'}, True → s.step action = some s' → inv s → inv s' := by
    intro s action s' _ taken before
    rcases before with ⟨tracked, known, absent⟩
    refine ⟨step_tracked taken tracked, (live_of_step tracked taken known).1, ?_⟩
    intro handle member
    rcases emplace_of_step taken member with old | fresh
    exacts [absent handle old, fresh known]
  have initially : inv s := by
    obtain ⟨place, found⟩ := Option.isSome_iff_exists.mp listed
    refine ⟨tracked, tracked.listed.known (Shared.objectAt_of_handleOf found), ?_⟩
    intro handle member
    have loose := tracked.alive.owner.mpr ⟨_, member, rfl⟩
    rw [(tracked.loose_only loose).2] at listed
    cases listed
  have last : inv s' := Transition.run_invariant kept ran (fun _ _ => True.intro) initially
  exact last.2.2 handle

theorem Tracked.freed (tracked : s.Tracked) {object : ObjectId} {rest : List ThreadOp}
    (top : s.stack .game = .paho object .destroy :: rest)
    (taken : s.step (.ret .game) = some s') :
    object ∈ s'.shared.constructed ∧ ¬ s'.lifetimes.live object := by
  obtain ⟨known, absent⟩ := tracked.loose_only
    (tracked.alive.owner.mpr ⟨_, top ▸ List.mem_cons_self, rfl⟩)
  obtain ⟨op, below, same, ends⟩ := ret_cases taken
  cases same.symm.trans top
  rcases ends with ⟨borrows, _⟩ | ⟨freed, is, _, rfl⟩
  · cases borrows
  · cases is
    refine ⟨known, fun live => ?_⟩
    rcases live with ⟨handle, here⟩ | loose
    · exact Shared.handleOf_eq_none_iff.mp absent handle here
    · exact (Shared.loose_erase.mp loose).2 rfl

theorem Tracked.clientSafe (tracked : s.Tracked) : s.ClientSafe where
  alive member used := live_iff.mp (tracked.alive.live member used)
  owned := tracked.alive.owner
  one_owner {above op below object} stack owned := by
    have among : op ∈ s.stack .game := stack ▸ List.mem_append_right _ List.mem_cons_self
    exact ⟨(tracked.loose_only (tracked.alive.owner.mpr ⟨op, among, owned⟩)).2,
      tracked.alive.one_owner stack owned⟩
  destroyed {object s' actions} listed ran loose := by
    have later : s'.Tracked := tracked.run ran
    obtain ⟨op, member, owns⟩ := later.alive.owner.mp loose
    cases op with
    | emplace handle other =>
        cases owns
        exact absurd member (tracked.run_entered listed ran)
    | destroyClient other =>
        cases owns
        exact .inl member
    | paho other operation =>
        cases operation <;> cases owns
        exact .inr member
    | _ => cases owns
  freed {object rest s' s'' actions} top taken ran := by
    obtain ⟨known, gone⟩ := tracked.freed top taken
    have after := step_tracked taken tracked
    have later : s''.Tracked := after.run ran
    have still := run_gone after known gone ran
    refine ⟨?_, fun t op member used => still (later.alive.live member used)⟩
    rwa [live_iff, Option.not_isSome_iff_eq_none] at still

end Threads

/-- **No client is used after it is freed, and none is freed twice or lost**, in any state of any
interleaving of the game thread and any number of workers. -/
theorem clients_outlive_uses {P : PahoOptions} {n : Nat} {actions : List (ThreadAction n)}
    {s : Threads P n} (ran : Transition.run Threads.step .initial actions = some s) :
    s.ClientSafe :=
  (Threads.run_tracked ran).clientSafe

def loneWorker : Thread 1 := .worker ⟨0, Nat.one_pos⟩

/-- The plugin destroys the client while a worker is inside one of its callbacks. -/
def destroyedInUse : List (ThreadAction 1) :=
  .call (.native .mqttCreate contendedHost [0, 0]) :: List.replicate 17 (.run .game) ++
    [.callback loneWorker 7 (.message [] []), .run loneWorker,
      .call (.native .mqttDestroy contendedHost [1])] ++ List.replicate 4 (.run .game)

/-- The client is there as long as the callback, and when `MQTTAsync_destroy` has returned it is
gone. -/
theorem clients_outlive_uses_destroyed : ∃ s : Threads .plain 1,
    Transition.run Threads.step .initial destroyedInUse = some s ∧
      s.stack .game = [.paho 7 .destroy] ∧ .callbackReturn 7 ∈ s.stack (.worker 0) ∧
      (s.shared.client 7).isSome = true ∧ ∃ left s',
        Transition.run Threads.step s (List.replicate 4 (.run (.worker 0))) = some left ∧
          left.step (.ret .game) = some s' ∧ s'.shared.client 7 = none := by
  have during : (Transition.run Threads.step (.initial : Threads .plain 1) destroyedInUse).map
      (fun s => (s.stack .game, s.stack (.worker 0))) =
      some ([.paho 7 .destroy], [.lock (.handlerMutex 7), .copyHandler 7 .message {},
        .callbackReturn 7]) := by decide +kernel
  obtain ⟨s, ran, during⟩ := Option.map_eq_some_iff.mp during
  obtain ⟨game, worker⟩ := Prod.mk.inj during
  have inside : .callbackReturn 7 ∈ s.stack (.worker 0) := by simp [worker]
  have after : ((Transition.run Threads.step (.initial : Threads .plain 1)
      (destroyedInUse ++ List.replicate 4 (.run (.worker 0)))).bind fun left =>
        (left.step (.ret .game)).map fun _ => left.stack .game) =
      some [.paho 7 .destroy] := by decide +kernel
  obtain ⟨left, ranLeft, after⟩ := Option.bind_eq_some_iff.mp after
  obtain ⟨s', returned, top⟩ := Option.map_eq_some_iff.mp after
  obtain ⟨between, earlier, later⟩ := Transition.run_append.mp ranLeft
  cases ran.symm.trans earlier
  exact ⟨s, ran, game, inside, (clients_outlive_uses ran).alive inside rfl, left, s', later,
    returned, ((clients_outlive_uses ranLeft).freed top returned (Transition.run_nil s')).1⟩

end AmxxMqtt
