import ConversationService.Effects.CachedHistory
import ConversationService.Model.System
import ConversationService.Properties.CursorTexts

/-!
# Requests with any cursor

A cursor that does not decode is rejected. One that decodes is served only if the field that is
parsed is false or a text that the parser accepts: the parsers of the endpoints are not guarded.
-/

namespace ConversationService

open Python Programs

namespace Pagination

/-- Every run without a fault of the storage answers a page or rejects the cursor with 400. -/
def IsClean {α : Type} (p : Py α) (s : Store) : Prop :=
  Prog.wp storageMachine noFault p (fun _ _ => True) (fun e _ => e = invalidCursor) s

/-- The object that is in a cursor, if there is a cursor and it decodes. -/
def IsPayload (reader : JsonReader) (cursor : Option Text) (payload : List (Text × Json)) :
    Prop :=
  exists cursorStr, RenderMarkdown.truthy cursor = some cursorStr ∧
    decodeCursor reader cursorStr = .ok payload

/-- The field of a cursor that decodes is false, or a text that is accepted. -/
def IsReadable (reader : JsonReader) (key : Text) (accepts : Text -> Prop)
    (cursor : Option Text) : Prop :=
  forall payload, IsPayload reader cursor payload -> (Json.get payload key).truthy = true ->
    exists s, Json.get payload key = .str s ∧ accepts s

/-!
# Positions
-/

section Position

variable {α : Type} {reader : JsonReader} {key : Text} {parse : Json -> Except PyExc α}
  {cursor : Option Text}

theorem decodeCursor_error {cursorStr : Text} {e : PyExc}
    (h : decodeCursor reader cursorStr = .error e) : e = invalidCursor := by
  unfold decodeCursor at h
  split at h
  · cases h
  · cases h
    rfl

theorem position_cases (reader : JsonReader) (key : Text) (parse : Json -> Except PyExc α)
    (cursor : Option Text) :
    (position reader key parse cursor = .ok none ∧
      forall payload, IsPayload reader cursor payload ->
        (Json.get payload key).truthy = false) ∨
    (position reader key parse cursor = .error invalidCursor ∧
      forall payload, ¬IsPayload reader cursor payload) ∨
    exists payload, IsPayload reader cursor payload ∧ (Json.get payload key).truthy = true ∧
      position reader key parse cursor = (parse (Json.get payload key)).map some := by
  unfold position
  cases hcursor : RenderMarkdown.truthy cursor with
  | none =>
      refine Or.inl ⟨rfl, ?_⟩
      rintro payload ⟨cursorStr, hstr, _⟩
      rw [hcursor] at hstr
      cases hstr
  | some cursorStr =>
      dsimp only
      have hunique : forall payload, IsPayload reader cursor payload ->
          decodeCursor reader cursorStr = .ok payload := by
        rintro payload ⟨other, hother, hdecoded⟩
        rw [hcursor] at hother
        cases hother
        exact hdecoded
      cases hdecoded : decodeCursor reader cursorStr with
      | error e =>
          refine Or.inr (Or.inl ⟨?_, ?_⟩)
          · rw [decodeCursor_error hdecoded]
          · intro payload hpayload
            have hother := hunique payload hpayload
            rw [hdecoded] at hother
            cases hother
      | ok payload =>
          dsimp only
          cases htruthy : (Json.get payload key).truthy with
          | false =>
              refine Or.inl ⟨rfl, ?_⟩
              intro other hother
              have heq := hunique other hother
              rw [hdecoded] at heq
              cases heq
              exact htruthy
          | true =>
              exact Or.inr (Or.inr ⟨payload, ⟨cursorStr, hcursor, hdecoded⟩, htruthy, rfl⟩)

theorem isPayload_unique {payload payload' : List (Text × Json)}
    (h : IsPayload reader cursor payload) (h' : IsPayload reader cursor payload') :
    payload = payload' := by
  rcases h with ⟨cursorStr, hstr, hdecoded⟩
  rcases h' with ⟨cursorStr', hstr', hdecoded'⟩
  rw [hstr] at hstr'
  cases hstr'
  rw [hdecoded] at hdecoded'
  cases hdecoded'
  rfl

theorem isReadable_iff {accepts : Text -> Prop} {payload : List (Text × Json)}
    (hpayload : IsPayload reader cursor payload) (htruthy : (Json.get payload key).truthy = true) :
    IsReadable reader key accepts cursor <->
      exists s, Json.get payload key = .str s ∧ accepts s := by
  constructor
  · exact fun h => h payload hpayload htruthy
  · intro h other hother _
    rw [← isPayload_unique hpayload hother]
    exact h

end Position

end Pagination

open Pagination

/-!
# Pages of messages
-/

namespace MessagesApi

/-- A cursor of messages that is served or rejected. -/
def CursorFits (reader : JsonReader) (cursor : Option Text) : Prop :=
  IsReadable reader (text "message_id") (fun s => (UUID.parse s).isSome = true) cursor

/-- What is said of a cursor in a page of messages: it is read back to the last message. -/
def NextFits (reader : JsonReader) (page : MessagePage) : Prop :=
  forall next, page.nextCursor = some next -> exists lastItem,
    page.items.getLast? = some lastItem ∧
    encodeCursor (cursorPayload lastItem.messageId) = some next ∧
    decodeCursor reader next = .ok (cursorPayload lastItem.messageId) ∧
    cursorMessageId reader (some next) = .ok (some lastItem.messageId)

theorem parseMessageId_error {value : Json} {e : PyExc} (h : parseMessageId value = .error e) :
    e ≠ invalidCursor := by
  unfold parseMessageId at h
  split at h
  · split at h
    · cases h
    · cases h
      exact fun heq => by cases heq
  · cases h
    exact fun heq => by cases heq

theorem parseMessageId_ok_iff {value : Json} :
    (exists id, parseMessageId value = .ok id) <->
      exists s, value = .str s ∧ (UUID.parse s).isSome = true := by
  constructor
  · rintro ⟨id, h⟩
    unfold parseMessageId at h
    split at h
    · rename_i s
      cases hid : UUID.parse s with
      | none =>
          rw [hid] at h
          cases h
      | some id => exact ⟨s, rfl, by rw [hid]; rfl⟩
    · cases h
  · rintro ⟨s, rfl, hsome⟩
    rcases Option.isSome_iff_exists.mp hsome with ⟨id, hid⟩
    exact ⟨id, by rw [parseMessageId, hid]⟩

theorem wp_withCursorText {reader : JsonReader} {items : List Message} {limit : Nat}
    {E : PyExc -> Store -> Prop} {s : Store} (hlimit : 0 < limit) :
    Prog.wp storageMachine noFault (listResponse items limit >>= withCursorText)
      (fun page _ => NextFits reader page) E s := by
  unfold listResponse
  split
  · rename_i hfull
    cases hlast : items.getLast? with
    | none =>
        rw [List.getLast?_eq_none_iff.mp hlast] at hfull
        exact absurd hfull (Nat.ne_of_lt hlimit)
    | some lastItem =>
        rcases cursorMessageId_encodeCursor reader lastItem.messageId with
          ⟨cursor, hcursor, hdecoded, hposition⟩
        rw [Prog.wp_bind]
        show Prog.wp storageMachine noFault (withCursorText _) _ E s
        unfold withCursorText
        dsimp only
        rw [hcursor]
        intro next hnext
        cases hnext
        exact ⟨lastItem, hlast, hcursor, hdecoded, hposition⟩
  · intro next hnext
    cases hnext

theorem wp_getMessageHistory (reader : JsonReader) (svc : MessageService) (s : Store) (c : UUID)
    {limit : Nat} (hlimit : 0 < limit) (position : Option UUID) :
    Prog.wp storageMachine noFault
      (getMessageHistory svc c limit position >>= withCursorText)
      (fun page _ => NextFits reader page) (fun _ _ => False) s := by
  unfold getMessageHistory
  rw [Prog.wp_bind, Prog.wp_bind]
  have hpage : forall items t, Prog.wp storageMachine noFault (listResponse items limit)
      (fun page u => Prog.wp storageMachine noFault (withCursorText page)
        (fun page _ => NextFits reader page) (fun _ _ => False) u) (fun _ _ => False) t := by
    intro items t
    rw [← Prog.wp_bind]
    exact wp_withCursorText hlimit
  cases position with
  | none => exact wp_history_start (hpage _ _)
  | some k => exact wp_history_cursor (hpage _ _)

/-- A cursor of messages is served or rejected exactly if it fits. -/
theorem isClean_getMessageHistoryPage_iff (reader : JsonReader) (svc : MessageService)
    (s : Store) (c : UUID) {limit : Nat} (hlimit : 0 < limit) (cursor : Option Text) :
    IsClean (getMessageHistoryPage reader svc c limit cursor) s <-> CursorFits reader cursor := by
  have hserved : forall position, Prog.wp storageMachine noFault
      (getMessageHistory svc c limit position >>= withCursorText) (fun _ _ => True)
      (fun e _ => e = invalidCursor) s := fun position =>
    Prog.wp_mono (wp_getMessageHistory reader svc s c hlimit position) (fun _ _ _ => trivial)
      (fun _ _ h => h.elim)
  unfold IsClean getMessageHistoryPage cursorMessageId CursorFits
  rcases position_cases reader (text "message_id") parseMessageId cursor with
    ⟨hnone, hfalse⟩ | ⟨herror, hno⟩ | ⟨payload, hpayload, htruthy, hparsed⟩
  · rw [hnone]
    refine iff_of_true (hserved none) ?_
    intro payload hpayload htruthy
    rw [hfalse payload hpayload] at htruthy
    cases htruthy
  · rw [herror]
    exact iff_of_true rfl (fun payload hpayload => absurd hpayload (hno payload))
  · rw [hparsed, isReadable_iff hpayload htruthy, ← parseMessageId_ok_iff]
    cases hvalue : parseMessageId (Json.get payload (text "message_id")) with
    | ok id => exact iff_of_true (hserved (some id)) ⟨id, rfl⟩
    | error e =>
        refine iff_of_false (parseMessageId_error hvalue) ?_
        rintro ⟨id, hid⟩
        cases hid

end MessagesApi

/-!
# Pages of conversations
-/

namespace ConversationsApi

/-- A cursor of conversations that is served or rejected. -/
def CursorFits (reader : JsonReader) (binds : Datetime -> Bool) (cursor : Option Text) : Prop :=
  IsReadable reader (text "updated_at")
    (fun s => exists updatedAt, Datetime.fromisoformat s = some updatedAt ∧ binds updatedAt = true)
    cursor

/--
What is said of a cursor in a page of conversations: it is read back to the last one, and its
position is the time of that, if the time is one that there is.
-/
def NextFits (reader : JsonReader) (page : ConversationPage) : Prop :=
  forall next, page.nextCursor = some next -> exists lastItem updatedAt,
    page.items.getLast? = some lastItem ∧ lastItem.updatedAt = some updatedAt ∧
    encodeCursor (cursorPayload ⟨updatedAt, lastItem.conversationId⟩) = some next ∧
    decodeCursor reader next = .ok (cursorPayload ⟨updatedAt, lastItem.conversationId⟩) ∧
    (updatedAt.InRange -> cursorUpdatedAt reader (some next) = .ok (some updatedAt))

theorem parseUpdatedAt_error {value : Json} {e : PyExc} (h : parseUpdatedAt value = .error e) :
    e ≠ invalidCursor := by
  unfold parseUpdatedAt at h
  split at h
  · split at h
    · cases h
    · cases h
      exact fun heq => by cases heq
  · cases h
    exact fun heq => by cases heq

theorem parseUpdatedAt_ok_iff {value : Json} {updatedAt : Datetime} :
    parseUpdatedAt value = .ok updatedAt <->
      exists s, value = .str s ∧ Datetime.fromisoformat s = some updatedAt := by
  constructor
  · intro h
    unfold parseUpdatedAt at h
    split at h
    · rename_i s
      cases hread : Datetime.fromisoformat s with
      | none =>
          rw [hread] at h
          cases h
      | some t =>
          rw [hread] at h
          cases h
          exact ⟨s, rfl, hread⟩
    · cases h
  · rintro ⟨s, rfl, hread⟩
    rw [parseUpdatedAt, hread]

theorem wp_withCursorText {reader : JsonReader} {items : List Conversation} {limit : Nat}
    {E : PyExc -> Store -> Prop} {s : Store} (hlimit : 0 < limit)
    (hitems : forall conv, conv ∈ items -> conv.updatedAt.isSome = true) :
    Prog.wp storageMachine noFault (listResponse items limit >>= withCursorText)
      (fun page _ => NextFits reader page) E s := by
  unfold listResponse
  split
  · rename_i hfull
    cases hlast : items.getLast? with
    | none =>
        rw [List.getLast?_eq_none_iff.mp hlast] at hfull
        exact absurd hfull (Nat.ne_of_lt hlimit)
    | some lastItem =>
        rcases Option.isSome_iff_exists.mp (hitems lastItem (List.mem_of_getLast? hlast)) with
          ⟨updatedAt, hupdated⟩
        rcases cursorUpdatedAt_encodeCursor reader ⟨updatedAt, lastItem.conversationId⟩ with
          ⟨cursor, hcursor, hdecoded, hposition⟩
        rw [Prog.wp_bind]
        dsimp only
        rw [hupdated]
        dsimp only
        rw [Prog.wp_pure]
        unfold withCursorText
        dsimp only
        rw [hcursor]
        dsimp only
        rw [Prog.wp_pure]
        intro next hnext
        cases hnext
        exact ⟨lastItem, updatedAt, hlast, hupdated, hcursor, hdecoded, hposition⟩
  · rw [Prog.wp_bind, Prog.wp_pure]
    unfold withCursorText
    dsimp only
    rw [Prog.wp_pure]
    intro next hnext
    cases hnext

theorem wp_list (reader : JsonReader) (s : Store) (user : UUID) {limit : Nat}
    (hlimit : 0 < limit) (position : Option Datetime) :
    Prog.wp storageMachine noFault (ConversationRepository.list user limit position >>= fun items =>
        listResponse items limit >>= withCursorText)
      (fun page _ => NextFits reader page) (fun _ _ => False) s := by
  unfold ConversationRepository.list
  rw [Prog.wp_bind, Prog.wp_bind, wp_perform]
  refine ⟨?_, fun h => h.elim⟩
  rw [Prog.wp_pure]
  apply wp_withCursorText hlimit
  intro conv hconv
  rcases List.mem_filterMap.mp hconv with ⟨entry, _, hlisted⟩
  unfold ConversationRepository.listedConversation at hlisted
  split at hlisted
  · cases hlisted
  · cases hlisted
    rfl

theorem isClean_listConversationsPage_iff (reader : JsonReader) (binds : Datetime -> Bool)
    (s : Store) (user : UUID) {limit : Nat} (hlimit : 0 < limit) (cursor : Option Text) :
    IsClean (listConversationsPage reader binds user limit cursor) s <->
      CursorFits reader binds cursor := by
  have hserved : forall position : Option Datetime, position.all binds = true ->
      Prog.wp storageMachine noFault (listFrom binds user limit position >>= fun items =>
        listResponse items limit >>= withCursorText) (fun _ _ => True)
        (fun e _ => e = invalidCursor) s := by
    intro position hbinds
    unfold listFrom
    rw [if_pos hbinds]
    exact Prog.wp_mono (wp_list reader s user hlimit position) (fun _ _ _ => trivial)
      (fun _ _ h => h.elim)
  unfold IsClean listConversationsPage cursorUpdatedAt CursorFits
  rcases position_cases reader (text "updated_at") parseUpdatedAt cursor with
    ⟨hnone, hfalse⟩ | ⟨herror, hno⟩ | ⟨payload, hpayload, htruthy, hparsed⟩
  · rw [hnone]
    refine iff_of_true (hserved none rfl) ?_
    intro payload hpayload htruthy
    rw [hfalse payload hpayload] at htruthy
    cases htruthy
  · rw [herror]
    exact iff_of_true rfl (fun payload hpayload => absurd hpayload (hno payload))
  · rw [hparsed, isReadable_iff hpayload htruthy]
    cases hvalue : parseUpdatedAt (Json.get payload (text "updated_at")) with
    | error e =>
        refine iff_of_false (parseUpdatedAt_error hvalue) ?_
        rintro ⟨s, hs, updatedAt, hread, _⟩
        rw [parseUpdatedAt_ok_iff.mpr ⟨s, hs, hread⟩] at hvalue
        cases hvalue
    | ok updatedAt =>
        rcases parseUpdatedAt_ok_iff.mp hvalue with ⟨s', hs', hread⟩
        cases hbinds : binds updatedAt with
        | true => exact iff_of_true (hserved (some updatedAt) hbinds) ⟨s', hs', updatedAt, hread, hbinds⟩
        | false =>
            have hraise : listFrom binds user limit (some updatedAt) = Prog.raise .storage :=
              if_neg (by
                rw [Option.all_some, hbinds]
                exact Bool.false_ne_true)
            refine iff_of_false ?_ ?_
            · show ¬Prog.wp storageMachine noFault (listFrom binds user limit (some updatedAt) >>= _)
                _ _ s
              rw [hraise]
              exact fun heq => by cases heq
            · rintro ⟨t, ht, updatedAt', hread', hbinds'⟩
              rw [hs'] at ht
              cases ht
              rw [hread] at hread'
              cases hread'
              rw [hbinds] at hbinds'
              cases hbinds'

end ConversationsApi

/-!
# Every cursor
-/

section Endpoints

variable (reader : JsonReader) (binds : Datetime -> Bool) (svc : MessageService) (s : Store)
  (conversationId user : UUID) {limit : Nat}

theorem wp_getMessageHistoryPage (hlimit : 0 < limit) (cursor : Option Text) :
    Prog.wp storageMachine noFault
      (MessagesApi.getMessageHistoryPage reader svc conversationId limit cursor)
      (fun page _ => MessagesApi.NextFits reader page) (fun _ _ => True) s := by
  unfold MessagesApi.getMessageHistoryPage
  split
  · trivial
  · exact Prog.wp_mono (MessagesApi.wp_getMessageHistory reader svc s conversationId hlimit _)
      (fun _ _ h => h) (fun _ _ _ => trivial)

theorem wp_listConversationsPage (hlimit : 0 < limit) (cursor : Option Text) :
    Prog.wp storageMachine noFault
      (ConversationsApi.listConversationsPage reader binds user limit cursor)
      (fun page _ => ConversationsApi.NextFits reader page) (fun _ _ => True) s := by
  unfold ConversationsApi.listConversationsPage
  split
  · trivial
  · unfold ConversationsApi.listFrom
    split
    · exact Prog.wp_mono (ConversationsApi.wp_list reader s user hlimit _)
        (fun _ _ h => h) (fun _ _ _ => trivial)
    · trivial

/--
A request is answered a page or rejected exactly if its cursor fits, and the cursor of a page is
read back to the last item of the page.
-/
theorem cursors_clean_iff (hlimit : 0 < limit) (cursor : Option Text) :
    (IsClean (MessagesApi.getMessageHistoryPage reader svc conversationId limit cursor) s <->
      MessagesApi.CursorFits reader cursor) ∧
    (IsClean (ConversationsApi.listConversationsPage reader binds user limit cursor) s <->
      ConversationsApi.CursorFits reader binds cursor) ∧
    Prog.wp storageMachine noFault
      (MessagesApi.getMessageHistoryPage reader svc conversationId limit cursor)
      (fun page _ => MessagesApi.NextFits reader page) (fun _ _ => True) s ∧
    Prog.wp storageMachine noFault
      (ConversationsApi.listConversationsPage reader binds user limit cursor)
      (fun page _ => ConversationsApi.NextFits reader page) (fun _ _ => True) s :=
  ⟨MessagesApi.isClean_getMessageHistoryPage_iff reader svc s conversationId hlimit cursor,
    ConversationsApi.isClean_listConversationsPage_iff reader binds s user hlimit cursor,
    wp_getMessageHistoryPage reader svc s conversationId hlimit cursor,
    wp_listConversationsPage reader binds s user hlimit cursor⟩

end Endpoints

/-- A reader whose recursion limit is out of reach. -/
def patientReader : JsonReader where
  float := id
  tooDeep := fun _ => false
  shallow := fun _ _ => rfl

/-- `{"message_id": "x", "updated_at": "x"}` -/
def unparsedCursor : Text :=
  text "eyJtZXNzYWdlX2lkIjogIngiLCAidXBkYXRlZF9hdCI6ICJ4In0="

theorem decodeCursor_unparsedCursor : decodeCursor patientReader unparsedCursor =
    .ok [(text "message_id", .str (text "x")), (text "updated_at", .str (text "x"))] := by
  have hbare : forall field : Text × Text,
      field ∈ [(text "message_id", text "x"), (text "updated_at", text "x")] ->
      IsBare field.1 ∧ IsBare field.2 := by
    have hid : IsBare (text "message_id") := isBare_of_all (by decide)
    have hupdated : IsBare (text "updated_at") := isBare_of_all (by decide)
    have hvalue : IsBare (text "x") := isBare_of_all (by decide)
    intro field hfield
    simp only [List.mem_cons, List.not_mem_nil, or_false] at hfield
    rcases hfield with rfl | rfl
    · exact ⟨hid, hvalue⟩
    · exact ⟨hupdated, hvalue⟩
  have hencoded : encodeCursor
      (textFields [(text "message_id", text "x"), (text "updated_at", text "x")]) =
        some unparsedCursor := by
    decide
  rcases decodeCursor_encodeCursor patientReader (List.cons_ne_nil _ _) hbare (by decide) with
    ⟨cursor, hcursor, hdecoded, _⟩
  rw [hencoded] at hcursor
  cases hcursor
  exact hdecoded

theorem not_isReadable_unparsedCursor {key : Text} {accepts : Text -> Prop}
    (hkey : Json.get [(text "message_id", .str (text "x")), (text "updated_at", .str (text "x"))]
      key = .str (text "x")) (hrefused : ¬accepts (text "x")) :
    ¬IsReadable patientReader key accepts (some unparsedCursor) := by
  have hpayload : IsPayload patientReader (some unparsedCursor)
      [(text "message_id", .str (text "x")), (text "updated_at", .str (text "x"))] :=
    ⟨unparsedCursor, rfl, decodeCursor_unparsedCursor⟩
  intro h
  rcases h _ hpayload (by rw [hkey]; rfl) with ⟨s, hs, haccepts⟩
  rw [hkey] at hs
  cases hs
  exact hrefused haccepts

/-- It decodes, and what is raised by the parsers escapes from both endpoints. -/
theorem unparsedCursor_not_isClean :
    ¬IsClean (MessagesApi.getMessageHistoryPage patientReader Deployment.single.api (.ofInt 1) 1
      (some unparsedCursor)) .blank ∧
    ¬IsClean (ConversationsApi.listConversationsPage patientReader (fun _ => true) (.ofInt 2) 1
      (some unparsedCursor)) .blank := by
  constructor
  · rw [MessagesApi.isClean_getMessageHistoryPage_iff _ _ _ _ Nat.one_pos]
    exact not_isReadable_unparsedCursor rfl (show ¬(UUID.parse (text "x")).isSome = true by decide)
  · rw [ConversationsApi.isClean_listConversationsPage_iff _ _ _ _ Nat.one_pos]
    apply not_isReadable_unparsedCursor rfl
    rintro ⟨updatedAt, hread, _⟩
    rw [show Datetime.fromisoformat (text "x") = none from rfl] at hread
    cases hread

/-- The endpoints at the cursor that is not parsed. -/
theorem unparsedCursor_clean_iff :
    (IsClean (MessagesApi.getMessageHistoryPage patientReader Deployment.single.api (.ofInt 1) 1
      (some unparsedCursor)) .blank <->
      MessagesApi.CursorFits patientReader (some unparsedCursor)) ∧
    (IsClean (ConversationsApi.listConversationsPage patientReader (fun _ => true) (.ofInt 2) 1
      (some unparsedCursor)) .blank <->
      ConversationsApi.CursorFits patientReader (fun _ => true) (some unparsedCursor)) ∧
    Prog.wp storageMachine noFault
      (MessagesApi.getMessageHistoryPage patientReader Deployment.single.api (.ofInt 1) 1
        (some unparsedCursor))
      (fun page _ => MessagesApi.NextFits patientReader page) (fun _ _ => True) .blank ∧
    Prog.wp storageMachine noFault
      (ConversationsApi.listConversationsPage patientReader (fun _ => true) (.ofInt 2) 1
        (some unparsedCursor))
      (fun page _ => ConversationsApi.NextFits patientReader page) (fun _ _ => True) .blank :=
  cursors_clean_iff patientReader (fun _ => true) Deployment.single.api .blank (.ofInt 1)
    (.ofInt 2) Nat.one_pos (some unparsedCursor)

end ConversationService
