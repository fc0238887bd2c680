import ConversationService.Model.Pagination
import ConversationService.Properties.JsonRoundTrip

/-!
# Cursors are read back

A cursor that is issued has the texts of ids and times in it, which need no escapes: it decodes
to its payload, and the position that is parsed from it is the one it was made of.
-/

namespace ConversationService

open Python

/-!
# Times
-/

/-- A time that a `datetime` can hold. -/
def Datetime.InRange (value : Datetime) : Prop :=
  -62135596800000000 ≤ value.micros ∧ value.micros ≤ 253402300799999999

theorem Datetime.clock_isValid (value : Datetime) : value.clock.IsValid := by
  have hday : value.sinceMidnight < 86400000000 := by
    unfold Datetime.sinceMidnight
    omega
  refine ⟨?_, ?_, ?_, ?_⟩
  · show value.sinceMidnight / 3600000000 < 24
    omega
  · exact Nat.mod_lt _ (by decide)
  · exact Nat.mod_lt _ (by decide)
  · exact Nat.mod_lt _ (by decide)

theorem Datetime.fromisoformat_isoformat {value : Datetime} (h : value.InRange) :
    Datetime.fromisoformat value.isoformat = some value := by
  rcases h with ⟨hlow, hhigh⟩
  have hfirst : 1 ≤ (value.micros / 86400000000 + 719163).toNat := by omega
  have hlast : (value.micros / 86400000000 + 719163).toNat ≤ 3652059 := by omega
  have hvalid : value.date.IsValid := Calendar.isValid_ord2ymd _
  have hyear : value.date.year ≤ 9999 := Calendar.year_ord2ymd_le hlast
  have hread := IsoFormat.fromisoformat_isoformat hvalid hyear value.clock_isValid value.aware
  unfold Datetime.fromisoformat Datetime.isoformat
  rw [hread, Option.map_some]
  have hdate : (Calendar.ymd2ord value.date : Int) - 719163 = value.micros / 86400000000 := by
    unfold Datetime.date
    rw [Calendar.ymd2ord_ord2ymd hfirst]
    omega
  have hclock : (((value.clock.hour * 60 + value.clock.minute) * 60 + value.clock.second) *
      1000000 + value.clock.microsecond : Nat) = value.sinceMidnight := by
    unfold Datetime.clock
    dsimp only
    omega
  have hoffset : (if value.aware then some (0 : Int) else none).getD 0 = 0 ∧
      (if value.aware then some (0 : Int) else none).isSome = value.aware := by
    cases value.aware with
    | false => exact ⟨rfl, rfl⟩
    | true => exact ⟨rfl, rfl⟩
  unfold Datetime.ofFields
  dsimp only
  rw [hdate, hclock, hoffset.left, hoffset.right]
  have hmicros : value.micros / 86400000000 * 86400000000 + (value.sinceMidnight : Int) - 0 =
      value.micros := by
    unfold Datetime.sinceMidnight
    omega
  rw [hmicros]

namespace Pagination

open Fingerprint (skipBlanks_start)

/-!
# Texts without escapes
-/

/-- Nothing in a text is escaped in JSON. -/
def IsBare (s : Text) : Prop :=
  forall c, c ∈ s -> 0x20 ≤ c.val ∧ c.val ≤ 0x7E ∧ c ≠ 0x22 ∧ c ≠ 0x5C ∧ isBracket c = false

theorem dumpsText_bare {s : Text} (h : IsBare s) : dumpsText s = 0x22 :: (s ++ [0x22]) := by
  have hchar : forall c, c ∈ s -> dumpsChar c = [c] := by
    intro c hc
    rcases h c hc with ⟨hlow, hhigh, hquote, hescape, _⟩
    have hcontrol : forall d : CodePoint, d.val < 0x20 -> c ≠ d := by
      rintro d hd rfl
      exact absurd hlow (Nat.not_le.mpr hd)
    unfold dumpsChar
    rw [if_neg hquote, if_neg hescape, if_neg (hcontrol _ (by decide)),
      if_neg (hcontrol _ (by decide)), if_neg (hcontrol _ (by decide)),
      if_neg (hcontrol _ (by decide)), if_neg (hcontrol _ (by decide)), if_pos ⟨hlow, hhigh⟩]
  have hchars : s.flatMap dumpsChar = s :=
    (List.flatMap_congr hchar).trans (List.flatMap_singleton' s)
  unfold dumpsText
  rw [hchars]
  rfl

theorem readString_bare {s : Text} (h : IsBare s) {rounds : Nat} (hrounds : s.length < rounds)
    (rest : Text) : Fingerprint.readString rounds (s ++ 0x22 :: rest) = some (s, rest) := by
  induction s generalizing rounds with
  | nil =>
      rcases Nat.exists_eq_succ_of_ne_zero (Nat.ne_of_gt hrounds) with ⟨k, rfl⟩
      rfl
  | cons c s ih =>
      rcases Nat.exists_eq_succ_of_ne_zero (Nat.ne_of_gt (Nat.zero_lt_of_lt hrounds)) with
        ⟨k, rfl⟩
      rcases h c List.mem_cons_self with ⟨hlow, _, hquote, hescape, _⟩
      have hrest := ih (fun d hd => h d (List.mem_cons_of_mem c hd)) (Nat.lt_of_succ_lt_succ hrounds)
      rw [List.cons_append, Fingerprint.readString, if_neg hquote, if_neg hescape,
        if_neg (Nat.not_lt.mpr hlow), hrest]
      rfl

/-!
# Objects of texts
-/

def memberText (field : Text × Text) : Text :=
  0x22 :: (field.1 ++ (0x22 :: 0x3A :: 0x20 :: 0x22 :: (field.2 ++ [0x22])))

def textFields (fields : List (Text × Text)) : List (Text × Json) :=
  fields.map (fun field => (field.1, .str field.2))

theorem dumpsFields_textFields {fields : List (Text × Text)}
    (h : forall field, field ∈ fields -> IsBare field.1 ∧ IsBare field.2) :
    dumpsFields (textFields fields) = fields.map memberText := by
  induction fields with
  | nil => rfl
  | cons field fields ih =>
      rcases h field List.mem_cons_self with ⟨hkey, hvalue⟩
      have hrest := ih (fun f hf => h f (List.mem_cons_of_mem field hf))
      have hcons : dumpsFields (textFields (field :: fields)) =
          (dumpsText field.1 ++ text ": " ++ dumpsText field.2) ::
            dumpsFields (textFields fields) := rfl
      rw [hcons, hrest, dumpsText_bare hkey, dumpsText_bare hvalue, List.map_cons]
      congr 1
      unfold memberText
      simp only [List.cons_append, List.append_assoc, List.nil_append]
      rfl

variable {float : Text -> Text}

theorem readMembers_memberText {field : Text × Text} (hkey : IsBare field.1)
    (hvalue : IsBare field.2) {rounds : Nat} (hrounds : (memberText field).length ≤ rounds)
    {c : CodePoint} {rest : Text} (hc : Fingerprint.isBlank c = false) :
    Fingerprint.readMembers float (rounds + 1) (memberText field ++ c :: rest) =
      if c = 0x7D then some ([(field.1, .str field.2)], rest)
      else if c = 0x2C then
        (Fingerprint.readMembers float rounds (Fingerprint.skipBlanks rest)).map (fun members =>
          ((field.1, .str field.2) :: members.1, members.2))
      else none := by
  unfold memberText at hrounds
  simp only [List.length_cons, List.length_append, List.length_nil] at hrounds
  rcases Nat.exists_eq_succ_of_ne_zero (n := rounds) (by omega) with ⟨k, rfl⟩
  have hsplit : memberText field ++ c :: rest = 0x22 :: (field.1 ++ (0x22 :: 0x3A :: 0x20 ::
      0x22 :: (field.2 ++ (0x22 :: c :: rest)))) := by
    unfold memberText
    simp only [List.cons_append, List.append_assoc, List.nil_append]
  have hskip : Fingerprint.skipBlanks (0x20 :: 0x22 :: (field.2 ++ (0x22 :: c :: rest))) =
      0x22 :: (field.2 ++ (0x22 :: c :: rest)) :=
    skipBlanks_start (c := 0x22) (by decide) _
  rw [hsplit, Fingerprint.readMembers, if_neg (not_not_intro rfl),
    readString_bare hkey (by omega), Option.bind_some]
  dsimp only
  rw [skipBlanks_start (by decide)]
  dsimp only
  rw [if_neg (not_not_intro rfl), hskip, Fingerprint.readValue, if_pos rfl,
    readString_bare hvalue (by omega), Option.map_some, Option.bind_some]
  dsimp only
  rw [skipBlanks_start hc]

theorem readMembers_textFields {fields : List (Text × Text)} (hne : fields ≠ [])
    (h : forall field, field ∈ fields -> IsBare field.1 ∧ IsBare field.2) {rounds : Nat}
    (rest : Text) (hrounds : (join (text ", ") (fields.map memberText)).length < rounds) :
    Fingerprint.readMembers float rounds
        (join (text ", ") (fields.map memberText) ++ 0x7D :: rest) =
      some (textFields fields, rest) := by
  induction fields generalizing rounds with
  | nil => exact absurd rfl hne
  | cons field fields ih =>
      rcases Nat.exists_eq_succ_of_ne_zero (n := rounds) (by omega) with ⟨k, rfl⟩
      rcases h field List.mem_cons_self with ⟨hkey, hvalue⟩
      cases fields with
      | nil =>
          have hjoin : join (text ", ") ([field].map memberText) = memberText field := rfl
          rw [hjoin] at hrounds ⊢
          rw [readMembers_memberText hkey hvalue (by omega) (by decide), if_pos rfl]
          rfl
      | cons next fields =>
          have hjoin : join (text ", ") ((field :: next :: fields).map memberText) =
              memberText field ++ 0x2C :: 0x20 ::
                join (text ", ") ((next :: fields).map memberText) := by
            rw [List.map_cons, List.map_cons, join_cons_cons, List.append_assoc]
            rfl
          have hskip : Fingerprint.skipBlanks (0x20 ::
              (join (text ", ") ((next :: fields).map memberText) ++ 0x7D :: rest)) =
                join (text ", ") ((next :: fields).map memberText) ++ 0x7D :: rest := by
            cases fields with
            | nil => exact skipBlanks_start (c := 0x22) (by decide) _
            | cons _ _ => exact skipBlanks_start (c := 0x22) (by decide) _
          rw [hjoin, List.length_append, List.length_cons, List.length_cons] at hrounds
          have hrest := @ih (List.cons_ne_nil _ _)
            (fun f hf => h f (List.mem_cons_of_mem field hf)) k (by omega)
          rw [hjoin, List.append_assoc, List.cons_append, List.cons_append,
            readMembers_memberText hkey hvalue (by omega) (by decide), if_neg (by decide),
            if_pos rfl, hskip, hrest]
          rfl

theorem loads_textFields {fields : List (Text × Text)} (hne : fields ≠ [])
    (h : forall field, field ∈ fields -> IsBare field.1 ∧ IsBare field.2)
    (hkeys : (fields.map Prod.fst).Nodup) :
    Fingerprint.loads float (dumps (.obj (textFields fields))) =
      some (.obj (textFields fields)) := by
  have hdumps : dumps (.obj (textFields fields)) =
      0x7B :: (join (text ", ") (fields.map memberText) ++ [0x7D]) := by
    rw [dumps, dumpsFields_textFields h]
    rfl
  have hstart : exists more, join (text ", ") (fields.map memberText) ++ [0x7D] =
      0x22 :: more := by
    cases fields with
    | nil => exact absurd rfl hne
    | cons field fields =>
        cases fields with
        | nil => exact ⟨_, rfl⟩
        | cons next fields => exact ⟨_, rfl⟩
  rcases hstart with ⟨more, hmore⟩
  have hread : Fingerprint.readMembers float
      (2 * (dumps (.obj (textFields fields))).length + 1)
      (join (text ", ") (fields.map memberText) ++ [0x7D]) = some (textFields fields, []) := by
    apply readMembers_textFields hne h
    rw [hdumps, List.length_cons, List.length_append]
    omega
  have hdict : Fingerprint.dictOf (textFields fields) = textFields fields := by
    apply Fingerprint.dictOf_eq_self
    unfold textFields
    rw [List.map_map]
    exact hkeys
  have hhead : forall (c d : CodePoint) (rest : Text), c ≠ d -> (c :: rest).head? ≠ some d := by
    intro c d rest hne heq
    exact hne (Option.some.inj heq)
  rw [hdumps, hmore] at hread ⊢
  unfold Fingerprint.loads
  rw [if_neg (hhead 0x7B 0xFEFF _ (by decide)), skipBlanks_start (by decide),
    Fingerprint.readValue, if_neg (by decide), if_neg (by decide), if_pos rfl]
  dsimp only
  rw [skipBlanks_start (by decide), if_neg (hhead 0x22 0x7D more (by decide)), hread,
    Option.map_some, Option.bind_some, hdict]
  rfl

/-!
# Cursors
-/

theorem flat_memberText {field : Text × Text} (hkey : IsBare field.1) (hvalue : IsBare field.2) :
    forall c, c ∈ memberText field -> c.val < 0x80 ∧ isBracket c = false := by
  have hbare : forall s, IsBare s -> forall c, c ∈ s -> c.val < 0x80 ∧ isBracket c = false := by
    intro s hs c hc
    rcases hs c hc with ⟨_, hhigh, _, _, hbracket⟩
    exact ⟨lt_of_le_of_lt hhigh (by decide), hbracket⟩
  intro c hc
  unfold memberText at hc
  rcases List.mem_cons.mp hc with rfl | hc
  · decide
  rcases List.mem_append.mp hc with hc | hc
  · exact hbare _ hkey c hc
  rcases List.mem_cons.mp hc with rfl | hc
  · decide
  rcases List.mem_cons.mp hc with rfl | hc
  · decide
  rcases List.mem_cons.mp hc with rfl | hc
  · decide
  rcases List.mem_cons.mp hc with rfl | hc
  · decide
  rcases List.mem_append.mp hc with hc | hc
  · exact hbare _ hvalue c hc
  · rw [List.mem_singleton.mp hc]
    decide

theorem flat_join {fields : List (Text × Text)}
    (h : forall field, field ∈ fields -> IsBare field.1 ∧ IsBare field.2) :
    forall c, c ∈ join (text ", ") (fields.map memberText) ->
      c.val < 0x80 ∧ isBracket c = false := by
  intro c hc
  rcases mem_join hc with hc | ⟨part, hpart, hc⟩
  · have hsep : text ", " = [0x2C, 0x20] := rfl
    rw [hsep] at hc
    simp only [List.mem_cons, List.not_mem_nil, or_false] at hc
    rcases hc with rfl | rfl
    · decide
    · decide
  · rcases List.mem_map.mp hpart with ⟨field, hfield, rfl⟩
    rcases h field hfield with ⟨hkey, hvalue⟩
    exact flat_memberText hkey hvalue c hc

theorem exists_base64 {data : Bytes} (hdata : data ≠ []) :
    exists cursor, utf8Decode (Base64.urlsafeB64encode data) = some cursor ∧ cursor ≠ [] ∧
      (utf8Encode cursor).bind Base64.urlsafeB64decode = some data := by
  have hcode := utf8Decode_ascii (Base64.urlsafeB64encode_ascii data)
  refine ⟨_, hcode, ?_, ?_⟩
  · exact fun hnil => Base64.urlsafeB64encode_ne_nil hdata (List.map_eq_nil_iff.mp hnil)
  · rw [utf8Encode_decode (Base64.urlsafeB64encode_ascii data) hcode, Option.bind_some,
      Base64.urlsafeB64decode_encode]

/-- `decode_cursor(encode_cursor(payload)) == payload` for an object of texts -/
theorem decodeCursor_encodeCursor (reader : JsonReader) {fields : List (Text × Text)}
    (hfields : fields ≠ []) (h : forall field, field ∈ fields -> IsBare field.1 ∧ IsBare field.2)
    (hkeys : (fields.map Prod.fst).Nodup) :
    exists cursor, encodeCursor (textFields fields) = some cursor ∧
      decodeCursor reader cursor = .ok (textFields fields) ∧ cursor ≠ [] := by
  have hdumps : dumps (.obj (textFields fields)) =
      0x7B :: (join (text ", ") (fields.map memberText) ++ [0x7D]) := by
    rw [dumps, dumpsFields_textFields h]
    rfl
  have hascii : forall c, c ∈ dumps (.obj (textFields fields)) -> c.val < 0x80 := by
    intro c hc
    rw [hdumps] at hc
    rcases List.mem_cons.mp hc with rfl | hc
    · decide
    rcases List.mem_append.mp hc with hc | hc
    · exact (flat_join h c hc).left
    · rw [List.mem_singleton.mp hc]
      decide
  have hflat : (dumps (.obj (textFields fields))).countP isBracket ≤ 1 := by
    have hnone : (join (text ", ") (fields.map memberText)).countP isBracket = 0 := by
      apply List.countP_eq_zero.mpr
      intro c hc
      rw [(flat_join h c hc).right]
      exact Bool.false_ne_true
    rw [hdumps, List.countP_cons, List.countP_append, hnone]
    decide
  have hdata : (dumps (.obj (textFields fields))).map (fun c => UInt8.ofNat c.val) ≠ [] := by
    rw [hdumps]
    exact List.cons_ne_nil _ _
  rcases exists_base64 hdata with ⟨cursor, hcursor, hne, hdecoded⟩
  refine ⟨cursor, ?_, ?_, hne⟩
  · unfold encodeCursor
    rw [utf8Encode_ascii hascii, Option.bind_some]
    exact hcursor
  · have hpayload : payload? reader cursor = some (textFields fields) := by
      unfold payload?
      rw [← Option.bind_assoc, hdecoded, Option.bind_some,
        utf8Decode_encode hascii (utf8Encode_ascii hascii), Option.bind_some,
        reader.shallow _ hflat, if_neg Bool.false_ne_true, loads_textFields hfields h hkeys]
    unfold decodeCursor
    rw [hpayload]

theorem position_of_decoded {α : Type} {reader : JsonReader} {key value : Text}
    {parse : Json -> Except PyExc α} {cursor : Text} {payload : List (Text × Json)} {a : α}
    (hne : cursor ≠ []) (hdecoded : decodeCursor reader cursor = .ok payload)
    (hget : Json.get payload key = .str value) (hvalue : value ≠ [])
    (hparse : parse (.str value) = .ok a) :
    position reader key parse (some cursor) = .ok (some a) := by
  have hcursor : RenderMarkdown.truthy (some cursor) = some cursor := by
    apply Option.filter_eq_some_iff.mpr
    refine ⟨rfl, ?_⟩
    rw [Bool.not_eq_true', List.isEmpty_eq_false_iff]
    exact hne
  have htruthy : (Json.str value).truthy = true := by
    unfold Json.truthy
    rw [Bool.not_eq_true', List.isEmpty_eq_false_iff]
    exact hvalue
  unfold position
  rw [hcursor]
  dsimp only
  rw [hdecoded]
  dsimp only
  rw [hget, htruthy, if_pos rfl, hparse]
  rfl

/-!
# Positions
-/

theorem bare_of_val {c : CodePoint} (h : 0x20 ≤ c.val ∧ c.val ≤ 0x7E ∧ c.val ≠ 0x22 ∧
    c.val ≠ 0x5C ∧ c.val ≠ 0x5B ∧ c.val ≠ 0x7B) :
    0x20 ≤ c.val ∧ c.val ≤ 0x7E ∧ c ≠ 0x22 ∧ c ≠ 0x5C ∧ isBracket c = false := by
  rcases h with ⟨hlow, hhigh, hquote, hescape, hbracket, hbrace⟩
  refine ⟨hlow, hhigh, fun heq => hquote (congrArg Fin.val heq),
    fun heq => hescape (congrArg Fin.val heq), ?_⟩
  unfold isBracket
  rw [decide_eq_false (fun heq => hbracket (congrArg Fin.val heq)),
    decide_eq_false (fun heq => hbrace (congrArg Fin.val heq))]
  rfl

theorem isBare_of_all {s : Text} (h : s.all (fun c => decide (0x20 ≤ c.val ∧ c.val ≤ 0x7E ∧
    c ≠ 0x22 ∧ c ≠ 0x5C ∧ isBracket c = false)) = true) : IsBare s :=
  fun c hc => of_decide_eq_true (List.all_eq_true.mp h c hc)

theorem isBare_toText (u : UUID) : IsBare u.toText := by
  intro c hc
  cases hvalue : hexValue c with
  | none =>
      by_cases hdash : c = 0x2D
      · rw [hdash]
        decide
      · exact absurd hc (UUID.not_mem_toText hvalue hdash)
  | some d =>
      apply bare_of_val
      unfold hexValue at hvalue
      dsimp only at hvalue
      split at hvalue
      · omega
      · split at hvalue
        · omega
        · split at hvalue
          · omega
          · cases hvalue

theorem isBare_isoformat (value : Datetime) : IsBare value.isoformat := by
  apply IsoFormat.forall_mem_isoformat
  · intro c hc
    unfold IsoFormat.isDigit at hc
    rw [Bool.and_eq_true, decide_eq_true_eq, decide_eq_true_eq] at hc
    exact bare_of_val (by omega)
  · rw [show text "-T:.+" = [0x2D, 0x54, 0x3A, 0x2E, 0x2B] from rfl]
    simp only [List.forall_mem_cons]
    exact ⟨by decide, by decide, by decide, by decide, by decide,
      fun c hc => absurd hc List.not_mem_nil⟩

end Pagination

open Pagination

theorem MessagesApi.cursorMessageId_encodeCursor (reader : JsonReader) (id : UUID) :
    exists cursor, encodeCursor (cursorPayload id) = some cursor ∧
      decodeCursor reader cursor = .ok (cursorPayload id) ∧
      cursorMessageId reader (some cursor) = .ok (some id) := by
  have hbare : forall field : Text × Text, field ∈ [(text "message_id", id.toText)] ->
      IsBare field.1 ∧ IsBare field.2 := by
    intro field hfield
    have hkey : IsBare (text "message_id") := isBare_of_all (by decide)
    rw [List.mem_singleton.mp hfield]
    exact ⟨hkey, isBare_toText id⟩
  have hne : id.toText ≠ [] := by
    intro hnil
    have hread := UUID.parse_toText id
    rw [hnil, show UUID.parse [] = none from rfl] at hread
    cases hread
  have hparse : parseMessageId (.str id.toText) = .ok id := by
    rw [parseMessageId, UUID.parse_toText]
  rcases decodeCursor_encodeCursor reader (List.cons_ne_nil _ _) hbare (List.nodup_singleton _)
    with ⟨cursor, hcursor, hdecoded, hcursorNe⟩
  exact ⟨cursor, hcursor, hdecoded, position_of_decoded hcursorNe hdecoded rfl hne hparse⟩

theorem ConversationsApi.cursorUpdatedAt_encodeCursor (reader : JsonReader)
    (cursor : ConversationCursor) :
    exists s, encodeCursor (cursorPayload cursor) = some s ∧
      decodeCursor reader s = .ok (cursorPayload cursor) ∧
      (cursor.updatedAt.InRange -> cursorUpdatedAt reader (some s) = .ok (some cursor.updatedAt)) := by
  have hbare : forall field : Text × Text,
      field ∈ [(text "updated_at", cursor.updatedAt.isoformat),
        (text "conversation_id", cursor.conversationId.toText)] ->
      IsBare field.1 ∧ IsBare field.2 := by
    have hupdated : IsBare (text "updated_at") := isBare_of_all (by decide)
    have hid : IsBare (text "conversation_id") := isBare_of_all (by decide)
    intro field hfield
    simp only [List.mem_cons, List.not_mem_nil, or_false] at hfield
    rcases hfield with rfl | rfl
    · exact ⟨hupdated, isBare_isoformat _⟩
    · exact ⟨hid, isBare_toText _⟩
  have hkeys : ([(text "updated_at", cursor.updatedAt.isoformat),
      (text "conversation_id", cursor.conversationId.toText)].map Prod.fst).Nodup :=
    show [text "updated_at", text "conversation_id"].Nodup by decide
  rcases decodeCursor_encodeCursor reader (List.cons_ne_nil _ _) hbare hkeys with
    ⟨s, hcursor, hdecoded, hcursorNe⟩
  refine ⟨s, hcursor, hdecoded, ?_⟩
  intro hrange
  have hread := Datetime.fromisoformat_isoformat hrange
  have hne : cursor.updatedAt.isoformat ≠ [] := by
    intro hnil
    rw [hnil, show Datetime.fromisoformat [] = none from rfl] at hread
    cases hread
  have hparse : parseUpdatedAt (.str cursor.updatedAt.isoformat) = .ok cursor.updatedAt := by
    rw [parseUpdatedAt, hread]
  exact position_of_decoded hcursorNe hdecoded rfl hne hparse

end ConversationService
