import ConversationService.Properties.StreamOrder

/-!
# Concurrent calls of `publish_token`

While every call of Redis succeeds and nothing is trimmed, the replay log and the channel
of a conversation are those of publishers in the sense of `LiveLog`: an entry is appended
to the log and is in flight until it is published.
-/

namespace ConversationService
namespace StreamService

open Python Programs LiveLog

/-!
# Payloads
-/

/-- No caller of `publish_token` sends an id of its own. -/
def HasNoId (data : Fields) : Prop :=
  forall field, field ∈ data -> field.1 ≠ text "event_id"

/-- The payload that is published of a logged event. -/
def withId (id : StreamId) (data : Fields) : Fields :=
  data ++ [(text "event_id", .str id.toText)]

/-- An event of a conversation, under the key of its id. -/
abbrev Entry : Type := EventKey × Fields

def entry (row : StreamId × Fields) : Entry :=
  (row.1.key, withId row.1 row.2)

theorem setField_noId {data : Fields} (h : HasNoId data) (value : Json) :
    setField (text "event_id") value data = data ++ [(text "event_id", value)] := by
  induction data with
  | nil => rfl
  | cons field rest ih =>
      rw [setField, if_neg (h field List.mem_cons_self),
        ih (fun f hf => h f (List.mem_cons_of_mem _ hf))]
      rfl

theorem get_withId {data : Fields} (h : HasNoId data) (id : StreamId) :
    Json.get (withId id data) (text "event_id") = .str id.toText := by
  unfold withId
  rw [<- setField_noId h, get_setField]

theorem get_withId_ne {data : Fields} (h : HasNoId data) (id : StreamId) {key : Text}
    (hkey : key ≠ text "event_id") : Json.get (withId id data) key = Json.get data key := by
  unfold withId
  rw [<- setField_noId h, get_setField_ne _ _ hkey]

/-!
# The program of a call
-/

namespace PublishCall

def sending (call : PublishCall) (payload : Fields) : Py Unit :=
  .op (.publishEvent call.conversationId (.obj payload)) (fun _ => .ret ())

/-- What follows `EXPIRE`; an `EXPIRE` that raises costs the payload its id. -/
def expired (call : PublishCall) (id : StreamId) : Option Unit -> Py Unit
  | some _ => call.sending (withId id call.chunkData)
  | none => call.sending call.chunkData

/-- What follows `XADD`. -/
def logged (call : PublishCall) : Option StreamId -> Py Unit
  | some id => .op (.expireEvents call.conversationId) (call.expired id)
  | none => call.sending call.chunkData

theorem program_eq (call : PublishCall) :
    call.program =
      .op (.xaddEvent call.conversationId (.obj call.chunkData)) call.logged := by
  have hsend : forall payload : Fields,
      Prog.tryCatch (ConversationService.perform
        (.publishEvent call.conversationId (.obj payload))) (fun _ => pure ()) =
          call.sending payload := by
    intro payload
    unfold ConversationService.perform Prog.perform PublishCall.sending
    rw [Prog.tryCatch]
    congr
    funext answer
    cases answer with
    | none => rfl
    | some u => rfl
  unfold PublishCall.program publishToken
  rw [if_pos rfl]
  unfold ConversationService.perform Prog.perform
  rw [Prog.op_bind, Prog.tryCatch, Prog.op_bind]
  congr
  funext answer
  cases answer with
  | none => exact hsend call.chunkData
  | some id =>
      apply congrArg (Prog.op (S := storage) (Op.expireEvents call.conversationId))
      funext answer
      cases answer with
      | none => exact hsend call.chunkData
      | some u => exact hsend (withId id call.chunkData)

end PublishCall

abbrev PublishTask : Type := Task PublishCall storage PyExc Unit

/-- The entry that a call has logged and not published yet in a conversation. -/
inductive Flight (c : UUID) : PublishTask -> Option Entry -> Prop where
  | starting (call : PublishCall) :
      HasNoId call.chunkData ->
      Flight c ⟨call, .op (.xaddEvent call.conversationId (.obj call.chunkData)) call.logged⟩
        none
  | expiring (call : PublishCall) (id : StreamId) :
      HasNoId call.chunkData -> call.conversationId = c ->
      Flight c ⟨call, .op (.expireEvents call.conversationId) (call.expired id)⟩
        (some (entry (id, call.chunkData)))
  | sending (call : PublishCall) (id : StreamId) :
      HasNoId call.chunkData -> call.conversationId = c ->
      Flight c ⟨call, .op (.publishEvent call.conversationId
          (.obj (withId id call.chunkData))) (fun _ => .ret ())⟩
        (some (entry (id, call.chunkData)))
  | expiringElsewhere (call : PublishCall) (id : StreamId) :
      call.conversationId ≠ c ->
      Flight c ⟨call, .op (.expireEvents call.conversationId) (call.expired id)⟩ none
  | sendingElsewhere (call : PublishCall) (payload : Fields) :
      call.conversationId ≠ c ->
      Flight c ⟨call, .op (.publishEvent call.conversationId (.obj payload))
          (fun _ => .ret ())⟩ none
  | done (call : PublishCall) : Flight c ⟨call, .ret ()⟩ none

/-!
# The log and the channel
-/

abbrev StreamPublishing : Type := Publishing EventKey Fields

abbrev PublisherPool : Type := Pool PublishCall storage PyExc Unit Store

abbrev PublishStream : Type := Streaming PublishCall Unit

/-- The log and the channel of a conversation, and the entries in between. -/
structure Refines (c : UUID) (pool : PublisherPool) (p : StreamPublishing) : Prop where
  log : exists rows : List (StreamId × Fields),
    pool.store.eventLog c = rows.map (fun row => (row.1, .obj row.2)) ∧
    (forall row, row ∈ rows -> HasNoId row.2) ∧ p.log = rows.map entry
  channel : pool.store.published c = p.channel.map (fun e => .obj e.2)
  pending : exists flights, List.Forall₂ (Flight c) pool.tasks flights ∧
    p.pending = flights.filterMap id

/-- The program is about to log an event. -/
def logsTo : Py Unit -> Option UUID
  | .op (.xaddEvent c _) _ => some c
  | _ => none

/-- The program has logged an event that it has not published yet. -/
def sendsTo : Py Unit -> Option UUID
  | .op (.expireEvents c) _ => some c
  | .op (.publishEvent c _) _ => some c
  | _ => none

def ClockMoves (s t : Store) : Prop := exists n, t = { s with clock := s.clock + n }

/-- Concurrent calls of `publish_token`, where every operation succeeds. -/
def publishers
    (permits : PublisherPool -> PublishTask -> Prop) :
    Rules PublishCall storage PyExc Unit Store :=
  { interleaving PublishCall.program permits (fun _ call => HasNoId call.chunkData) with
    moves := ClockMoves }

/-- A call logs only while no other has an event to publish in the conversation. -/
def TakesTurns (pool : PublisherPool) (t : PublishTask) : Prop :=
  forall c, logsTo t.prog = some c -> forall u, u ∈ pool.tasks -> sendsTo u.prog ≠ some c

/-- A step of the publishers, or of others. -/
structure StepsTo (permits : PublisherPool -> PublishTask -> Prop)
    (c : UUID) (pool pool' : PublisherPool) (p p' : StreamPublishing) : Prop where
  refines : Refines c pool' p'
  step : p' = p ∨ Publishing.Step p p'
  permitted : p'.log ≠ p.log -> exists t, t ∈ pool.tasks ∧ logsTo t.prog = some c ∧ permits pool t

/-- The place of a task among those of a pool, and that of its entry. -/
structure Slot (c : UUID) (before after : List PublishTask)
    (t : PublishTask) (pending front back : List Entry)
    (f : Option Entry) : Prop where
  flight : Flight c t f
  pending : pending = front ++ (f.toList ++ back)
  replace : forall t' f', Flight c t' f' ->
    exists flights, List.Forall₂ (Flight c) (before ++ t' :: after) flights ∧
      front ++ (f'.toList ++ back) = flights.filterMap id

theorem filterMap_place (front back : List (Option Entry)) (f : Option Entry) :
    (front ++ f :: back).filterMap id =
      front.filterMap id ++ (f.toList ++ back.filterMap id) := by
  rw [List.filterMap_append]
  cases f with
  | none => rfl
  | some e => rfl

theorem slot {c : UUID} {before after : List PublishTask}
    {t : PublishTask} {pending : List Entry} {flights : List (Option Entry)}
    (h : List.Forall₂ (Flight c) (before ++ t :: after) flights)
    (hpending : pending = flights.filterMap id) :
    exists front back f, Slot c before after t pending front back f := by
  rcases List.forall₂_iff_zip.mp h with ⟨hlength, _⟩
  have hbefore := List.forall₂_take before.length h
  have hafter := List.forall₂_drop before.length h
  rw [List.take_left' rfl] at hbefore
  rw [List.drop_left' rfl] at hafter
  rcases List.forall₂_cons_left_iff.mp hafter with ⟨f, back, hflight, hback, hdrop⟩
  have hsplit : flights = flights.take before.length ++ f :: back := by
    rw [<- hdrop, List.take_append_drop]
  refine ⟨(flights.take before.length).filterMap id, back.filterMap id, f, hflight, ?_, ?_⟩
  · rw [hpending, <- filterMap_place, <- hsplit]
  · intro t' f' hflight'
    exact ⟨flights.take before.length ++ f' :: back,
      List.rel_append hbefore (List.Forall₂.cons hflight' hback),
      (filterMap_place _ _ _).symm⟩

/-!
# Steps of the publishers
-/

theorem eventLog_appendEvent (s : Store) (c c' : UUID) (event : Json) :
    (s.appendEvent c' event).eventLog c =
      if c = c' then s.eventLog c ++ [(s.nextEventId c, event)] else s.eventLog c := by
  unfold Store.appendEvent
  dsimp only
  split
  · rename_i heq
    rw [heq, Function.update_self]
  · rename_i hne
    rw [Function.update_of_ne hne]

theorem published_publishEvent (s : Store) (c c' : UUID) (event : Json) :
    (s.publishEvent c' event).published c =
      if c = c' then s.published c ++ [event] else s.published c := by
  unfold Store.publishEvent
  dsimp only
  split
  · rename_i heq
    rw [heq, Function.update_self]
  · rename_i hne
    rw [Function.update_of_ne hne]

variable {permits : PublisherPool -> PublishTask -> Prop}

theorem lt_next {s : Store} (hlogs : LogsIncrease s) {c : UUID}
    {rows : List (StreamId × Fields)}
    (hrows : s.eventLog c = rows.map (fun row => (row.1, .obj row.2)))
    {d : Entry} (hd : d ∈ rows.map entry) : d.1 < (s.nextEventId c).key := by
  rcases List.mem_map.mp hd with ⟨row, hrow, rfl⟩
  have hlogged : (row.1, Json.obj row.2) ∈ s.eventLog c := by
    rw [hrows]
    exact List.mem_map.mpr ⟨row, hrow, rfl⟩
  exact (below_iff _ _).mp (below_nextEventId (hlogs c) hlogged)

theorem refines_perform {c : UUID} {p : StreamPublishing}
    {before after : List PublishTask} {call : PublishCall} {o : Op}
    {next : Option (storage.Res o) -> Py Unit} {s : Store} (hlogs : LogsIncrease s)
    (h : Refines c ⟨s, before ++ ⟨call, .op o next⟩ :: after⟩ p)
    (hpermits : permits ⟨s, before ++ ⟨call, .op o next⟩ :: after⟩ ⟨call, .op o next⟩) :
    exists p', StepsTo permits c ⟨s, before ++ ⟨call, .op o next⟩ :: after⟩
      ⟨(o.exec s).2, before ++ ⟨call, next (some (o.exec s).1)⟩ :: after⟩ p p' := by
  rcases p with ⟨log, pending, channel⟩
  rcases h.log with ⟨rows, hrows, hnoId, hlog⟩
  rcases h.pending with ⟨flights, hflights, hpending⟩
  rcases slot hflights hpending with ⟨front, back, f, hslot⟩
  have hchannel := h.channel
  have hplace : pending = front ++ (f.toList ++ back) := hslot.pending
  dsimp only at hlog hchannel
  subst hplace
  have hflight := hslot.flight
  cases hflight with
  | starting _ hdata =>
      by_cases hc : call.conversationId = c
      · subst hc
        refine ⟨⟨log ++ [entry (s.nextEventId call.conversationId, call.chunkData)],
          front ++ entry (s.nextEventId call.conversationId, call.chunkData) :: back,
          channel⟩, ⟨?_, ?_, ?_⟩, Or.inr ?_, ?_⟩
        · refine ⟨rows ++ [(s.nextEventId call.conversationId, call.chunkData)], ?_, ?_, ?_⟩
          · show (s.appendEvent _ _).eventLog _ = _
            rw [eventLog_appendEvent, if_pos rfl, hrows, List.map_append]
            rfl
          · intro row hrow
            rcases List.mem_append.mp hrow with hold | hnew
            · exact hnoId row hold
            · rw [List.mem_singleton.mp hnew]
              exact hdata
          · dsimp only
            rw [hlog, List.map_append]
            rfl
        · exact hchannel
        · exact hslot.replace _ (some _) (Flight.expiring call _ hdata rfl)
        · refine Publishing.Step.append log front back channel _ ?_
          intro d hd
          rw [hlog] at hd
          exact lt_next hlogs hrows hd
        · intro _
          exact ⟨⟨call, _⟩, by simp, rfl, hpermits⟩
      · refine ⟨⟨log, front ++ ([] ++ back), channel⟩, ⟨?_, ?_, ?_⟩, Or.inl rfl, ?_⟩
        · refine ⟨rows, ?_, hnoId, hlog⟩
          show (s.appendEvent _ _).eventLog c = _
          rw [eventLog_appendEvent, if_neg (fun heq => hc heq.symm), hrows]
        · exact hchannel
        · exact hslot.replace _ none (Flight.expiringElsewhere call _ hc)
        · intro hne
          exact absurd rfl hne
  | expiring _ id hdata hc =>
      exact ⟨_, ⟨h.log, h.channel, hslot.replace _ (some _) (Flight.sending call id hdata hc)⟩,
        Or.inl rfl, fun hne => absurd rfl hne⟩
  | sending _ id hdata hc =>
      subst hc
      refine ⟨⟨log, front ++ back, channel ++ [entry (id, call.chunkData)]⟩, ⟨?_, ?_, ?_⟩,
        Or.inr ?_, ?_⟩
      · exact h.log
      · show (s.publishEvent _ _).published _ = _
        rw [published_publishEvent, if_pos rfl, hchannel, List.map_append]
        rfl
      · exact hslot.replace _ none (Flight.done call)
      · exact Publishing.Step.send log front back channel _
      · intro hne
        exact absurd rfl hne
  | expiringElsewhere _ id hc =>
      exact ⟨_, ⟨h.log, h.channel,
        hslot.replace _ none (Flight.sendingElsewhere call _ hc)⟩,
        Or.inl rfl, fun hne => absurd rfl hne⟩
  | sendingElsewhere _ payload hc =>
      refine ⟨⟨log, front ++ ([] ++ back), channel⟩, ⟨?_, ?_, ?_⟩, Or.inl rfl, ?_⟩
      · exact h.log
      · show (s.publishEvent _ _).published c = _
        rw [published_publishEvent, if_neg (fun heq => hc heq.symm)]
        exact hchannel
      · exact hslot.replace _ none (Flight.done call)
      · intro hne
        exact absurd rfl hne

theorem refines_step {c : UUID} {pool pool' : PublisherPool} {p : StreamPublishing}
    (hstep : Pool.Step (publishers permits) pool pool') (hlogs : LogsIncrease pool.store)
    (h : Refines c pool p) : exists p', StepsTo permits c pool pool' p p' := by
  cases hstep with
  | perform before after call o next s hpermits => exact refines_perform hlogs h hpermits
  | fault before after call o next s hfail => exact hfail.elim
  | stop before after call o next s hstop hat => exact hstop.elim
  | start tasks call s hstart =>
      rcases h.pending with ⟨flights, hflights, hpending⟩
      refine ⟨p, ⟨h.log, h.channel, flights ++ [none], ?_, ?_⟩, Or.inl rfl,
        fun hne => absurd rfl hne⟩
      · refine List.rel_append hflights (List.Forall₂.cons ?_ List.Forall₂.nil)
        show Flight c ⟨call, call.program⟩ none
        rw [call.program_eq]
        exact Flight.starting call hstart
      · rw [hpending, List.filterMap_append]
        exact (List.append_nil _).symm
  | move tasks s t hmove =>
      rcases hmove with ⟨n, rfl⟩
      exact ⟨p, ⟨h.log, h.channel, h.pending⟩, Or.inl rfl, fun hne => absurd rfl hne⟩

theorem flight_none {c : UUID} {t : PublishTask} {f : Option Entry} (h : Flight c t f)
    (hsends : sendsTo t.prog ≠ some c) :
    f = none := by
  cases h with
  | starting _ _ => rfl
  | expiring _ id _ hc => exact absurd (congrArg some hc) hsends
  | sending _ id _ hc => exact absurd (congrArg some hc) hsends
  | expiringElsewhere _ _ _ => rfl
  | sendingElsewhere _ _ _ => rfl
  | done => rfl

theorem flights_nil {c : UUID} {tasks : List PublishTask}
    {flights : List (Option Entry)} (h : List.Forall₂ (Flight c) tasks flights)
    (hsends : forall u, u ∈ tasks -> sendsTo u.prog ≠ some c) : flights.filterMap id = [] := by
  induction h with
  | nil => rfl
  | cons hflight hrest ih =>
      rw [flight_none hflight (hsends _ List.mem_cons_self), List.filterMap_cons_none rfl]
      exact ih (fun u hu => hsends u (List.mem_cons_of_mem _ hu))

theorem pending_nil {c : UUID} {pool : PublisherPool} {p : StreamPublishing}
    (h : Refines c pool p) (hsends : forall u, u ∈ pool.tasks -> sendsTo u.prog ≠ some c) :
    p.pending = [] := by
  rcases h.pending with ⟨flights, hflights, hpending⟩
  rw [hpending]
  exact flights_nil hflights hsends

theorem StepsTo.accounted {c : UUID} {pool pool' : PublisherPool} {p p' : StreamPublishing}
    (h : StepsTo permits c pool pool' p p') (hp : p.Accounted) : p'.Accounted := by
  rcases h.step with hsame | hstep
  · rw [hsame]
    exact hp
  · exact Publishing.accounted_step hstep hp

/-- Calls that take turns publish in the order of the log. -/
theorem StepsTo.inTurn {c : UUID} {pool pool' : PublisherPool} {p p' : StreamPublishing}
    (h : StepsTo TakesTurns c pool pool' p p') (hrefines : Refines c pool p)
    (hp : p.InTurn) : p'.InTurn := by
  rcases h.step with hsame | hstep
  · rw [hsame]
    exact hp
  · refine Publishing.inTurn_step ⟨hstep, ?_⟩ hp
    intro hlog
    rcases h.permitted hlog with ⟨t, _, hlogs, hturns⟩
    exact pending_nil hrefines (hturns c hlogs)

end StreamService
end ConversationService
