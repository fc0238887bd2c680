import ConversationService.Model.PreferencesRepository

/-!
# User preferences (`app/models/preferences.py`)

The validators of the preference document, its construction from a stored row, and the
body of a partial update. A validator gives `none` where it raises.
-/

namespace ConversationService

open Python

/-!
# Values of the enumerations
-/

def AnswerLength.value : AnswerLength -> Text
  | .concise => text "concise"
  | .balanced => text "balanced"
  | .detailed => text "detailed"

def Tone.value : Tone -> Text
  | .professional => text "professional"
  | .friendly => text "friendly"
  | .simple => text "simple"

def CitationPreference.value : CitationPreference -> Text
  | .show => text "show"
  | .hide => text "hide"

def DocumentContext.value : DocumentContext -> Text
  | .conversation => text "conversation"
  | .attachedOnly => text "attached_only"

/-- The member of an enumeration with a given value. -/
def memberOf {alpha : Type} (members : List alpha) (value : alpha -> Text) (v : Text) :
    Option alpha :=
  members.find? (fun member => value member = v)

def AnswerLength.ofValue (v : Text) : Option AnswerLength :=
  memberOf [.concise, .balanced, .detailed] AnswerLength.value v

def Tone.ofValue (v : Text) : Option Tone :=
  memberOf [.professional, .friendly, .simple] Tone.value v

def CitationPreference.ofValue (v : Text) : Option CitationPreference :=
  memberOf [.show, .hide] CitationPreference.value v

def DocumentContext.ofValue (v : Text) : Option DocumentContext :=
  memberOf [.conversation, .attachedOnly] DocumentContext.value v

namespace Preferences

def personalInstructionsMax : Nat := 1000

def maxDefaultTools : Nat := 10

/-!
# Validators
-/

/--
`c.lower()` as far as it matters here: of the characters outside ASCII only the Kelvin sign
becomes an ASCII letter, and a mode with any other one is refused in either case.
-/
def lowerChar (c : CodePoint) : CodePoint :=
  if c = 0x212A then 0x6B else lowerAscii c

def lower (s : Text) : Text :=
  s.map lowerChar

def isAlphanumeric (c : CodePoint) : Bool :=
  (0x41 ≤ c.val && c.val ≤ 0x5A) || (0x61 ≤ c.val && c.val ≤ 0x7A) ||
    (0x30 ≤ c.val && c.val ≤ 0x39)

/-- `[A-Za-z0-9_-]` -/
def isModeChar (c : CodePoint) : Bool :=
  isAlphanumeric c || c = 0x5F || c = 0x2D

/-- `_MODE_ID.fullmatch(s)` -/
def modeIdMatches (s : Text) : Bool :=
  1 ≤ s.length && s.length ≤ 32 && s.all isModeChar

/-- `[A-Za-z0-9_.:-]` -/
def isToolChar (c : CodePoint) : Bool :=
  isModeChar c || c = 0x2E || c = 0x3A

/-- `_TOOL_ID.match(s)`; the `$` of the pattern also matches before a last newline. -/
def toolIdMatches (s : Text) : Bool :=
  let body := if s.getLast? = some 0x0A then s.dropLast else s
  body.head?.any isAlphanumeric && body.length ≤ 64 && body.tail.all isToolChar

/-- `[\x00-\x08\x0b\x0c\x0e-\x1f\x7f]` -/
def isControl (c : CodePoint) : Bool :=
  c.val ≤ 0x08 || c.val = 0x0B || c.val = 0x0C || (0x0E ≤ c.val && c.val ≤ 0x1F) ||
    c.val = 0x7F

def cleanMode (v : Option Text) : Option (Option Text) :=
  match v with
  | none => some none
  | some v =>
      let v := lower (strip v)
      if v = [] ∨ v = text "auto" ∨ v = text "default" then some none
      else if customPrefix.isPrefixOf v then
        if (parseCustomRef v).isNone then none else some (some v)
      else if modeIdMatches v then some (some v)
      else none

/-- The loop of `_clean_tools`; a list from a stored row can have null elements. -/
def cleanToolsFrom : List Text -> List (Option Text) -> Option (List Text)
  | cleaned, [] => some cleaned
  | _, none :: _ => none
  | cleaned, some raw :: rest =>
      let name := strip raw
      if toolIdMatches name then
        cleanToolsFrom (if name ∈ cleaned then cleaned else cleaned ++ [name]) rest
      else none

def cleanTools (v : Option (List (Option Text))) : Option (Option (List Text)) :=
  match v with
  | none => some none
  | some v =>
      (cleanToolsFrom [] v).bind (fun cleaned =>
        if maxDefaultTools < cleaned.length then none else some (some cleaned))

def cleanInstructions (v : Option Text) : Option (Option Text) :=
  match v with
  | none => some none
  | some v =>
      let v := strip (v.filter (fun c => !isControl c))
      if personalInstructionsMax < v.length then none else some (some v)

/-!
# The document
-/

/-- A value of an enumerated field: a text, a member, or `None`. -/
inductive MemberValue (alpha : Type) where
  | null
  | raw (v : Text)
  | member (a : alpha)
deriving DecidableEq, Repr

/-- An enumerated field; `None` is no member. -/
def validMember {alpha : Type} (ofValue : Text -> Option alpha) :
    MemberValue alpha -> Option alpha
  | .null => none
  | .raw v => ofValue v
  | .member a => some a

def validLanguage (v : Option Text) : Option Text :=
  v.filter (fun v => v ∈ supportedLanguages.map Prod.fst)

def validTools (v : Option (List (Option Text))) : Option (List Text) :=
  (cleanTools v).map (fun cleaned => cleaned.getD [])

def validInstructions (v : Option Text) : Option Text :=
  (cleanInstructions v).map (fun cleaned => cleaned.getD [])

/-- The fields given to `UserPreferences`; a field that is not given is `none`. -/
structure Fields where
  defaultMode : Option (Option Text)
  defaultTools : Option (Option (List (Option Text)))
  answerLength : Option (MemberValue AnswerLength)
  tone : Option (MemberValue Tone)
  language : Option (Option Text)
  personalInstructions : Option (Option Text)
  citations : Option (MemberValue CitationPreference)
  documentContext : Option (MemberValue DocumentContext)
deriving DecidableEq, Repr

def Fields.empty : Fields := ⟨none, none, none, none, none, none, none, none⟩

/-- A field that is not given has its default, which is not validated. -/
def validField {alpha beta : Type} (validate : alpha -> Option beta) (default : beta) :
    Option alpha -> Option beta
  | none => some default
  | some v => validate v

/-- `UserPreferences.model_validate(fields)`, with `none` for a `ValidationError`. -/
def modelValidate (fields : Fields) : Option UserPreferences := do
  let defaultMode <- validField cleanMode none fields.defaultMode
  let defaultTools <- validField validTools [] fields.defaultTools
  let answerLength <-
    validField (validMember AnswerLength.ofValue) .balanced fields.answerLength
  let tone <- validField (validMember Tone.ofValue) .professional fields.tone
  let language <- validField validLanguage (text "auto") fields.language
  let personalInstructions <-
    validField validInstructions [] fields.personalInstructions
  let citations <- validField (validMember CitationPreference.ofValue) .show fields.citations
  let documentContext <-
    validField (validMember DocumentContext.ofValue) .conversation fields.documentContext
  pure
    { defaultMode := defaultMode
      defaultTools := defaultTools
      answerLength := answerLength
      tone := tone
      language := language
      personalInstructions := personalInstructions
      citations := citations
      documentContext := documentContext }

/-!
# Stored rows
-/

/-- The columns of a stored row, with whatever values they have. -/
structure StoredFields where
  defaultMode : Option Text
  defaultTools : Option (List (Option Text))
  answerLength : Option Text
  tone : Option Text
  language : Option Text
  personalInstructions : Option Text
  citations : Option Text
  documentContext : Option Text
deriving DecidableEq, Repr

/-- `valid[field] = value` if the value is there and passes on its own. -/
def keepValid {alpha : Type} (single : alpha -> Fields) (value : Option alpha) :
    Option alpha :=
  value.filter (fun value => (modelValidate (single value)).isSome)

/-- The values that `from_row` collects, one field at a time. -/
def validFields (row : StoredFields) : Fields :=
  { defaultMode :=
      (keepValid (fun v => { Fields.empty with defaultMode := some (some v) })
        row.defaultMode).map some
    defaultTools :=
      (keepValid (fun v => { Fields.empty with defaultTools := some (some v) })
        row.defaultTools).map some
    answerLength :=
      (keepValid (fun v => { Fields.empty with answerLength := some (.raw v) })
        row.answerLength).map .raw
    tone :=
      (keepValid (fun v => { Fields.empty with tone := some (.raw v) }) row.tone).map .raw
    language :=
      (keepValid (fun v => { Fields.empty with language := some (some v) })
        row.language).map some
    personalInstructions :=
      (keepValid (fun v => { Fields.empty with personalInstructions := some (some v) })
        row.personalInstructions).map some
    citations :=
      (keepValid (fun v => { Fields.empty with citations := some (.raw v) })
        row.citations).map .raw
    documentContext :=
      (keepValid (fun v => { Fields.empty with documentContext := some (.raw v) })
        row.documentContext).map .raw }

/-- `UserPreferences.from_row(row)`, with `none` where it raises. -/
def fromRow (row : Option StoredFields) : Option UserPreferences :=
  match row with
  | none => some .default
  | some row => modelValidate (validFields row)

/--
A row of `user_preferences` outside its key, with whatever values its columns have. An
element of the array may be null.
-/
structure TableRow where
  defaultMode : Option Text
  defaultCustomModeId : Option UUID
  defaultTools : List (Option Text)
  answerLength : Text
  tone : Text
  language : Text
  personalInstructions : Text
  citations : Text
  documentContext : Text
  version : Nat
  updatedAt : Int
deriving DecidableEq, Repr

/-- `PreferencesRepository._to_dict(row)` -/
def TableRow.toDict (row : TableRow) : StoredFields :=
  { defaultMode :=
      match row.defaultCustomModeId with
      | some modeId => some (customRef modeId)
      | none => row.defaultMode
    defaultTools := some row.defaultTools
    answerLength := some row.answerLength
    tone := some row.tone
    language := some row.language
    personalInstructions := some row.personalInstructions
    citations := some row.citations
    documentContext := some row.documentContext }

/-- What `_load` has of a stored row; `from_row` does not raise. -/
def TableRow.reading (row : TableRow) : PreferencesRow :=
  { document := (fromRow (some row.toDict)).getD .default
    version := row.version }

/-- What a PostgreSQL text can hold. -/
def PgText (s : Text) : Prop :=
  forall c, c ∈ s -> c ≠ 0 ∧ isSurrogate c = false

/-- The column types of `user_preferences` and its check constraints. -/
structure TableRow.Allowed (row : TableRow) : Prop where
  defaultMode : forall m, row.defaultMode = some m -> PgText m ∧ m.length ≤ 40
  defaultTools : forall t, some t ∈ row.defaultTools -> PgText t ∧ t.length ≤ 64
  answerLength : row.answerLength ∈ [text "concise", text "balanced", text "detailed"]
  tone : row.tone ∈ [text "professional", text "friendly", text "simple"]
  language : PgText row.language ∧ row.language.length ≤ 16
  personalInstructions :
    PgText row.personalInstructions ∧ row.personalInstructions.length ≤ 1000
  citations : row.citations ∈ [text "show", text "hide"]
  documentContext : row.documentContext ∈ [text "conversation", text "attached_only"]
  version : 1 ≤ row.version
  oneDefaultMode : row.defaultMode = none ∨ row.defaultCustomModeId = none

/-- The columns that `save` writes for a document. -/
def savedRow (prefs : UserPreferences) (version : Nat) (updatedAt : Int) : TableRow :=
  let customId := PreferencesService.customDefault prefs
  { defaultMode := if customId.isSome then none else prefs.defaultMode
    defaultCustomModeId := customId
    defaultTools := prefs.defaultTools.map some
    answerLength := prefs.answerLength.value
    tone := prefs.tone.value
    language := prefs.language
    personalInstructions := prefs.personalInstructions
    citations := prefs.citations.value
    documentContext := prefs.documentContext.value
    version := version
    updatedAt := updatedAt }

/-!
# Partial updates
-/

/-- The fields of a PATCH body: `none` if not sent, and `some none` if sent as null. -/
structure PatchBody where
  version : Option Nat
  defaultMode : Option (Option Text)
  defaultTools : Option (Option (List Text))
  answerLength : Option (Option Text)
  tone : Option (Option Text)
  language : Option (Option Text)
  personalInstructions : Option (Option Text)
  citations : Option (Option Text)
  documentContext : Option (Option Text)
deriving DecidableEq, Repr

/-- A validated body, with the fields in it still marked as sent. -/
structure SentFields where
  version : Option Nat
  /-- an empty mode is Auto -/
  defaultMode : Option Text
  defaultTools : Option (Option (List Text))
  answerLength : Option (Option AnswerLength)
  tone : Option (Option Tone)
  language : Option (Option Text)
  personalInstructions : Option (Option Text)
  citations : Option (Option CitationPreference)
  documentContext : Option (Option DocumentContext)
deriving DecidableEq, Repr

/-- A field that is checked when it is sent. -/
def sentField {alpha beta : Type} (validate : alpha -> Option beta) :
    Option alpha -> Option (Option beta)
  | none => some none
  | some v => (validate v).map some

/-- A field that may be null. -/
def nullOr {alpha beta : Type} (validate : alpha -> Option beta) :
    Option alpha -> Option (Option beta)
  | none => some none
  | some v => (validate v).map some

/-- `PreferencesUpdate(**body)`, with `none` for a `ValidationError`. -/
def acceptPatch (body : PatchBody) : Option SentFields := do
  let defaultMode <-
    sentField (fun v => (cleanMode v).map (fun cleaned => cleaned.getD [])) body.defaultMode
  let defaultTools <-
    sentField (fun v => cleanTools (v.map (fun tools => tools.map some))) body.defaultTools
  let answerLength <- sentField (nullOr AnswerLength.ofValue) body.answerLength
  let tone <- sentField (nullOr Tone.ofValue) body.tone
  let language <- sentField (nullOr (fun v => validLanguage (some v))) body.language
  let personalInstructions <- sentField cleanInstructions body.personalInstructions
  let citations <- sentField (nullOr CitationPreference.ofValue) body.citations
  let documentContext <- sentField (nullOr DocumentContext.ofValue) body.documentContext
  pure
    { version := body.version
      defaultMode := defaultMode
      defaultTools := defaultTools
      answerLength := answerLength
      tone := tone
      language := language
      personalInstructions := personalInstructions
      citations := citations
      documentContext := documentContext }

def memberOrNull {alpha : Type} : Option alpha -> MemberValue alpha
  | none => .null
  | some a => .member a

/-- `patch.changes()` -/
def SentFields.changes (patch : SentFields) : Fields :=
  { defaultMode := patch.defaultMode.map (fun v => if v = [] then none else some v)
    defaultTools := patch.defaultTools.map (fun v => v.map (fun tools => tools.map some))
    answerLength := patch.answerLength.map memberOrNull
    tone := patch.tone.map memberOrNull
    language := patch.language
    personalInstructions := patch.personalInstructions
    citations := patch.citations.map memberOrNull
    documentContext := patch.documentContext.map memberOrNull }

/-- `prefs.model_dump()` -/
def dump (prefs : UserPreferences) : Fields :=
  { defaultMode := some prefs.defaultMode
    defaultTools := some (some (prefs.defaultTools.map some))
    answerLength := some (.member prefs.answerLength)
    tone := some (.member prefs.tone)
    language := some (some prefs.language)
    personalInstructions := some (some prefs.personalInstructions)
    citations := some (.member prefs.citations)
    documentContext := some (.member prefs.documentContext) }

/-- `{**fields, **changes}` -/
def Fields.update (fields changes : Fields) : Fields :=
  { defaultMode := changes.defaultMode.or fields.defaultMode
    defaultTools := changes.defaultTools.or fields.defaultTools
    answerLength := changes.answerLength.or fields.answerLength
    tone := changes.tone.or fields.tone
    language := changes.language.or fields.language
    personalInstructions := changes.personalInstructions.or fields.personalInstructions
    citations := changes.citations.or fields.citations
    documentContext := changes.documentContext.or fields.documentContext }

/-- The document that `update` saves, unless validating it raises. -/
def mergePatch (prefs : UserPreferences) (patch : SentFields) : Option UserPreferences :=
  modelValidate ((dump prefs).update patch.changes)

end Preferences
end ConversationService
