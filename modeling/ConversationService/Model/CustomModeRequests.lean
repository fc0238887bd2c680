import ConversationService.Library.Words
import ConversationService.Model.CustomModes
import ConversationService.Model.PreferencesService
import ConversationService.Python.Strip

/-!
# Custom mode requests

The validators that `app/models/custom_modes.py` has for a new mode, the snapshots of
`app/services/custom_mode_service.py`, and what `app/api/v1/custom_modes.py` makes of the
exceptions of an update. Whether `str.isprintable` holds of a
character is a parameter.
-/

namespace ConversationService

open Python Programs

/-!
# Bodies
-/

/-- The settings `CUSTOM_MODE_..._MAX_CHARS`. -/
structure ModeLimits where
  name : Nat
  description : Nat
  instructions : Nat
deriving DecidableEq, Repr

def ModeLimits.default : ModeLimits := ⟨60, 200, 4000⟩

namespace CustomModes

/-- `" ".join(value.split())` -/
def joinedWords (value : Text) : Text :=
  Words.unwords 0x20 (Words.words isSpace value)

variable (printable : CodePoint -> Bool)

/-- `allowed` is `"\n\t"` for a text of several lines, and empty otherwise. -/
def isKept (multiline : Bool) (ch : CodePoint) : Bool :=
  printable ch || (multiline && (ch == 0x0A || ch == 0x09))

/-- `_clean_text` -/
def cleanText (value : Text) (multiline : Bool) : Text :=
  strip (value.filter (isKept printable multiline))

variable (limits : ModeLimits)

/-- `_name` -/
def cleanName (v : Text) : Except Text Text :=
  let cleaned := joinedWords (cleanText printable v false)
  if cleaned = [] then .error (text "Name cannot be empty.")
  else if limits.name < cleaned.length then
    .error (text "Name is limited to " ++ intText limits.name ++ text " characters.")
  else .ok cleaned

/-- `_description` -/
def cleanDescription (v : Text) : Except Text Text :=
  let cleaned := joinedWords (cleanText printable v false)
  if limits.description < cleaned.length then
    .error
      (text "Description is limited to " ++ intText limits.description ++ text " characters.")
  else .ok cleaned

/-- `_instructions` -/
def cleanInstructions (v : Text) : Except Text Text :=
  let cleaned := cleanText printable v true
  if cleaned = [] then .error (text "Instructions cannot be empty.")
  else if limits.instructions < cleaned.length then
    .error
      (text "Instructions are limited to " ++ intText limits.instructions ++ text " characters.")
  else .ok cleaned

/-- The fields of a `POST` body; a description that is not given has its default. -/
structure CreateBody where
  name : Text
  description : Option Text
  instructions : Text
  executionStyle : Option ExecutionStyle
deriving DecidableEq

/-- What is wrong with a body, field by field. -/
abbrev BodyErrors : Type := List (Text × Text)

/-- A field that its validator refuses adds to the errors. -/
def errorsOf {alpha : Type} (field : String) : Except Text alpha -> BodyErrors
  | .ok _ => []
  | .error message => [(text field, message)]

/-- A field that may be missing. -/
def optional (validate : Text -> Except Text Text) : Option Text -> Except Text (Option Text)
  | none => .ok none
  | some v => (validate v).map some

/-- `CustomModeCreate.model_validate` -/
def CreateBody.validate (body : CreateBody) : Except BodyErrors NewMode :=
  match cleanName printable limits body.name,
    optional (cleanDescription printable limits) body.description,
    cleanInstructions printable limits body.instructions with
  | .ok name, .ok description, .ok instructions =>
      .ok
        { name := name
          description := description.getD []
          instructions := instructions
          executionStyle := body.executionStyle.getD .direct }
  | name, description, instructions =>
      .error (errorsOf "name" name ++ errorsOf "description" description ++
        errorsOf "instructions" instructions)

end CustomModes

/-!
# The service
-/

/-- The record that a row is read as. -/
def CustomMode.record (modeId : UUID) (mode : CustomMode) : CustomModeRecord :=
  { modeId := modeId
    version := mode.version
    name := mode.name
    executionStyle := mode.executionStyle
    instructions := mode.instructions
    active := mode.isActive }

namespace CustomModeService

end CustomModeService

/-!
# The endpoint
-/

/-- What `_error` raises. -/
structure ModeError where
  status : Nat
  code : Text
  message : Text
  currentVersion : Option Nat
deriving DecidableEq

namespace CustomModesApi

def notFound : ModeError :=
  ⟨404, text "not_found", text "Custom mode not found.", none⟩

def nameTaken : ModeError :=
  ⟨409, text "name_taken", text "You already have a custom mode with that name.", none⟩

/-- `none` where `update_custom_mode` lets an exception through. -/
def updateError : ModeExc -> Option ModeError
  | .customModeNotFound _ => some notFound
  | .customModeConflict currentVersion =>
      some ⟨409, text "version_conflict",
        text "This mode was changed elsewhere. Reload and try again.", some currentVersion⟩
  | .customModeNameTaken _ => some nameTaken
  | _ => none

end CustomModesApi
end ConversationService
