import ConversationService.Model.Storage

/-!
# Preference resolution

`resolve_for_message` of `app/services/preferences_service.py` with the custom
mode references of `app/models/custom_modes.py` and the generation preferences of
`app/models/preferences.py`.
-/

namespace ConversationService

open Python Programs

/-- `UserPreferences()` -/
def UserPreferences.default : UserPreferences :=
  { defaultMode := none
    defaultTools := []
    answerLength := .balanced
    tone := .professional
    language := text "auto"
    personalInstructions := []
    citations := .show
    documentContext := .conversation }

/-!
# Custom mode references
-/

def customPrefix : Text := text "custom:"

/-- `[0-9a-fA-F]` repeated `n` times at the front, with what follows. -/
def takeHex (n : Nat) (s : Text) : Option Text :=
  if (s.take n).length = n ∧ (s.take n).all (fun c => (hexValue c).isSome) then
    some (s.drop n)
  else none

/-- A dash at the front, with what follows. -/
def takeDash (s : Text) : Option Text :=
  match s with
  | c :: rest => if c.val = 0x2D then some rest else none
  | [] => none

/-- The shape `8-4-4-4-12` of the pattern's group. -/
def isUuidShape (s : Text) : Bool :=
  ((takeHex 8 s).bind takeDash |>.bind (takeHex 4) |>.bind takeDash
    |>.bind (takeHex 4) |>.bind takeDash |>.bind (takeHex 4) |>.bind takeDash
    |>.bind (takeHex 12)) == some []

/-- `parse_custom_ref(value)`; after `strip` there is no last newline for `$` to skip. -/
def parseCustomRef (value : Text) : Option UUID :=
  let stripped := strip value
  let group := stripped.drop customPrefix.length
  if customPrefix.isPrefixOf stripped ∧ isUuidShape group then UUID.parse group
  else none

def isCustomRef (value : Text) : Bool :=
  customPrefix.isPrefixOf ((strip value).map lowerAscii)

def CustomModeSnapshot.fromRecord (r : CustomModeRecord) : CustomModeSnapshot :=
  { modeId := r.modeId.toText
    version := r.version
    name := r.name
    executionStyle := r.executionStyle
    instructions := r.instructions }

/-!
# Generation preferences
-/

def supportedLanguages : List (Text × Text) :=
  [ (text "auto", text "Auto (match my message)"),
    (text "en", text "English"),
    (text "hi", text "Hindi"),
    (text "hinglish", text "Hinglish (Hindi in English script, mixed with English)"),
    (text "bn", text "Bengali"),
    (text "mr", text "Marathi"),
    (text "ta", text "Tamil"),
    (text "te", text "Telugu"),
    (text "gu", text "Gujarati"),
    (text "kn", text "Kannada"),
    (text "ml", text "Malayalam"),
    (text "pa", text "Punjabi"),
    (text "ur", text "Urdu"),
    (text "es", text "Spanish"),
    (text "fr", text "French"),
    (text "de", text "German"),
    (text "pt", text "Portuguese"),
    (text "it", text "Italian"),
    (text "nl", text "Dutch"),
    (text "ru", text "Russian"),
    (text "ar", text "Arabic"),
    (text "tr", text "Turkish"),
    (text "zh", text "Chinese"),
    (text "ja", text "Japanese"),
    (text "ko", text "Korean"),
    (text "id", text "Indonesian"),
    (text "vi", text "Vietnamese") ]

/-- `_LANGUAGE_PROMPT_NAME` -/
def languagePromptName : List (Text × Text) :=
  [(text "hinglish", text "Hinglish")]

def languageName (language : Text) : Text :=
  match languagePromptName.lookup language with
  | some name => name
  | none => (supportedLanguages.lookup language).getD language

def generationPreferences (prefs : UserPreferences) : GenerationPreferences :=
  { answerLength := prefs.answerLength
    tone := prefs.tone
    language := prefs.language
    languageName := languageName prefs.language
    personalInstructions := prefs.personalInstructions
    citations := prefs.citations }

/-!
# Resolution
-/

structure ResolvedMessagePreferences where
  mode : Option Text
  selectedTools : Option (List Text)
  defaultsApplied : DefaultsApplied
  generation : Option GenerationPreferences
  version : Nat
  customMode : Option CustomModeSnapshot
deriving DecidableEq, Repr

/-- `bool(value)` of an optional string or list, with the value itself. -/
def nonempty? {alpha : Type} (value : Option (List alpha)) : Option (List alpha) :=
  value.filter (fun items => !items.isEmpty)

namespace PreferencesService

/-- `_load(user_id)`, by which a missing row is the default document. -/
def load (userId : UUID) : Py (UserPreferences × Nat) := do
  let row : Option PreferencesRow <- perform (.selectPreferences userId)
  match row with
  | some row => pure (row.document, row.version)
  | none => pure (.default, 0)

/-- The preferences of a request; if they cannot be read, the default ones. -/
def loadOrDefault (userId : Option UUID) : Py (UserPreferences × Nat) :=
  match userId with
  | some userId => Prog.tryCatch (load userId) (fun _ => pure (.default, 0))
  | none => pure (.default, 0)

/-- The mode of a message before custom modes: its text, and whether it is a default. -/
def chooseMode (mode : Option Text) (prefs : UserPreferences) : Option Text × Bool :=
  match mode, nonempty? prefs.defaultMode with
  | none, some saved => (some saved, true)
  | mode, _ => (mode, false)

def chooseTools (selectedTools : Option (List Text)) (prefs : UserPreferences) :
    Option (List Text) × Bool :=
  match selectedTools with
  | some tools => (some tools, false)
  | none =>
      if prefs.defaultTools.isEmpty then (none, false)
      else (some prefs.defaultTools, true)

/-- The built-in path that a custom mode runs on. -/
def builtinMode (snapshot : CustomModeSnapshot) : Text :=
  match snapshot.executionStyle with
  | .smart => text "smart"
  | .direct => text "default"

/-- The mode, the `mode` flag of `defaults_applied` and the snapshot of a message. -/
def resolveMode (userId : Option UUID) (explicit : Bool)
    (chosen : Option Text × Bool) :
    Py (Option Text × Bool × Option CustomModeSnapshot) :=
  match nonempty? chosen.1 with
  | none => pure (chosen.1, chosen.2, none)
  | some mode =>
      match parseCustomRef mode with
      | none =>
          if isCustomRef mode then Prog.raise .customModeUnavailable
          else pure (some mode, chosen.2, none)
      | some ref =>
          match userId with
          | none => Prog.raise .customModeUnavailable
          | some userId => do
              let record : Option CustomModeRecord <-
                perform (.selectCustomMode userId ref)
              match record with
              | some record =>
                  let snapshot := CustomModeSnapshot.fromRecord record
                  pure (some (builtinMode snapshot), chosen.2, some snapshot)
              | none =>
                  if explicit then Prog.raise .customModeUnavailable
                  -- a saved default that is gone or archived: the planner decides
                  else pure (none, false, none)

def resolveForMessage (userId : Option UUID) (mode : Option Text)
    (selectedTools : Option (List Text)) : Py ResolvedMessagePreferences := do
  let loaded <- loadOrDefault userId
  let prefs := loaded.1
  let tools := chooseTools selectedTools prefs
  let resolved <- resolveMode userId mode.isSome (chooseMode mode prefs)
  pure
    { mode := resolved.1
      selectedTools := tools.1
      defaultsApplied := { mode := resolved.2.1, tools := tools.2 }
      generation := some (generationPreferences prefs)
      version := loaded.2
      customMode := resolved.2.2 }

end PreferencesService
end ConversationService
