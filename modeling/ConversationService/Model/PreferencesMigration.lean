import ConversationService.Library.KeyedWrites
import ConversationService.Model.Preferences

/-!
# Migration of preferences (`app/migration/preferences_to_postgres.py`)

The transform of a legacy row, the conditional upsert, and `migrate` with its batches. A batch
is one transaction; a run that is interrupted keeps the batches that it has committed and
loses the rows that it has only collected.
-/

namespace ConversationService
namespace PreferencesMigration

open Python Preferences

/-!
# Legacy rows
-/

/-- The value of `user_id`: a UUID, or anything else with its `str`. -/
inductive LegacyUserId where
  | uuid (u : UUID)
  | other (s : Text)
deriving DecidableEq, Repr

/-- `_as_uuid(value)` -/
def LegacyUserId.asUuid : LegacyUserId -> Option UUID
  | .uuid u => some u
  | .other s => UUID.parse s

/-- `str(value)` -/
def LegacyUserId.toText : LegacyUserId -> Text
  | .uuid u => u.toText
  | .other s => s

structure LegacyRow where
  userId : LegacyUserId
  fields : StoredFields
  version : Option Int
  updatedAt : Option Datetime
deriving DecidableEq, Repr

/-- The fields other than the mode whose value is there and not the validated one. -/
def changedFields (row : StoredFields) (prefs : UserPreferences) : List Bool :=
  [ row.defaultTools.any (fun v => v ≠ prefs.defaultTools.map some),
    row.answerLength.any (fun v => v ≠ prefs.answerLength.value),
    row.tone.any (fun v => v ≠ prefs.tone.value),
    row.language.any (fun v => v ≠ prefs.language),
    row.personalInstructions.any (fun v => v ≠ prefs.personalInstructions),
    row.citations.any (fun v => v ≠ prefs.citations.value),
    row.documentContext.any (fun v => v ≠ prefs.documentContext.value) ]

/-- How many fields `transform` replaces by a default. -/
def normalizedFields (row : StoredFields) (prefs : UserPreferences) : Nat :=
  let lostMode := (nonempty? row.defaultMode).isSome && (nonempty? prefs.defaultMode).isNone
  let custom := (PreferencesService.customDefault prefs).isSome
  (changedFields row prefs ++ [lostMode, custom]).count true

/-- The values that are written; a legacy row cannot contain a custom mode. -/
def migratedValues (now : Int) (row : LegacyRow) (prefs : UserPreferences) : TableRow :=
  { defaultMode :=
      if (PreferencesService.customDefault prefs).isSome then none else prefs.defaultMode
    defaultCustomModeId := none
    defaultTools := prefs.defaultTools.map some
    answerLength := prefs.answerLength.value
    tone := prefs.tone.value
    language := prefs.language
    personalInstructions := prefs.personalInstructions
    citations := prefs.citations.value
    documentContext := prefs.documentContext.value
    version := (max (row.version.getD 0) 1).toNat
    -- a time without a time zone is one in UTC
    updatedAt := (row.updatedAt.map Datetime.micros).getD now }

/-- What `transform` returns; the values are those of a row for a user. -/
inductive Transformed where
  | values (userId : UUID) (values : TableRow) (normalized : Nat)
  | rejected (reason : Text)
deriving DecidableEq, Repr

/-- `transform(row)`; `now` is the clock, for a row without `updated_at`. -/
def transform (now : Int) (row : LegacyRow) : Transformed :=
  match row.userId.asUuid with
  | none => .rejected (text "invalid_user_id")
  | some userId =>
      -- `from_row` does not raise
      let prefs := (fromRow (some row.fields)).getD .default
      .values userId (migratedValues now row prefs) (normalizedFields row.fields prefs)

/-!
# The table
-/

/-- A row of `user_preferences` with `created_at`. -/
structure MigratedRow extends TableRow where
  createdAt : Int
deriving DecidableEq, Repr

abbrev PreferenceTable : Type :=
  UUID -> Option MigratedRow

inductive UpsertResult where
  | inserted
  | refreshed
  | skipped
deriving DecidableEq, Repr

/-- The `WHERE` of the upsert: the new row is newer in both. -/
def isNewer (old new : TableRow) : Bool :=
  old.version < new.version && old.updatedAt < new.updatedAt

def upsertResult (old : Option MigratedRow) (new : TableRow) : UpsertResult :=
  match old with
  | none => .inserted
  | some old => if isNewer old.toTableRow new then .refreshed else .skipped

/-- The row that the upsert leaves. -/
def upsertedRow (old : Option MigratedRow) (new : TableRow) : MigratedRow :=
  match old with
  | none => { toTableRow := new, createdAt := new.updatedAt }
  | some old => if isNewer old.toTableRow new then { old with toTableRow := new } else old

/-- `_UPSERT` -/
def upsert (table : PreferenceTable) (values : UUID × TableRow) :
    UpsertResult × PreferenceTable :=
  (upsertResult (table values.1) values.2, KeyedWrites.write upsertedRow table values)

/-!
# Runs
-/

structure MigrationReport where
  examined : Nat
  inserted : Nat
  refreshed : Nat
  skippedExisting : Nat
  rejected : Nat
  normalizedFields : Nat
  dryRun : Bool
  rejects : List (Text × Text)
deriving DecidableEq, Repr

def MigrationReport.start (dryRun : Bool) : MigrationReport :=
  ⟨0, 0, 0, 0, 0, 0, dryRun, []⟩

def MigrationReport.count (report : MigrationReport) : UpsertResult -> MigrationReport
  | .inserted => { report with inserted := report.inserted + 1 }
  | .refreshed => { report with refreshed := report.refreshed + 1 }
  | .skipped => { report with skippedExisting := report.skippedExisting + 1 }

structure MigrationState where
  report : MigrationReport
  batch : List (UUID × TableRow)
  table : PreferenceTable

/-- `flush()` of a dry run, by the versions that `_existing_versions` reads. -/
def flushDry (st : MigrationState) : MigrationState :=
  { st with
    report := st.batch.foldl (fun report values =>
      report.count (upsertResult (st.table values.1) values.2)) st.report
    batch := [] }

/-- `flush()`, in one transaction. -/
def flushReal (st : MigrationState) : MigrationState :=
  let written := st.batch.foldl (fun (acc : MigrationReport × PreferenceTable) values =>
    let result := upsert acc.2 values
    (acc.1.count result.1, result.2)) (st.report, st.table)
  { report := written.1
    batch := []
    table := written.2 }

def flush (dryRun : Bool) (st : MigrationState) : MigrationState :=
  if st.batch.isEmpty then st else if dryRun then flushDry st else flushReal st

/-- The body of the loop over the legacy rows. -/
def migrateRow (dryRun : Bool) (batchSize now : Int) (st : MigrationState) (row : LegacyRow) :
    MigrationState :=
  let report := { st.report with examined := st.report.examined + 1 }
  match transform now row with
  | .rejected reason =>
      { st with
        report :=
          { report with
            rejected := report.rejected + 1
            rejects := report.rejects ++ [(row.userId.toText, reason)] } }
  | .values userId values normalized =>
      let st : MigrationState :=
        { report := { report with normalizedFields := report.normalizedFields + normalized }
          batch := st.batch ++ [(userId, values)]
          table := st.table }
      if batchSize ≤ st.batch.length then flush dryRun st else st

/-- The run up to some row. -/
def migrateRows (dryRun : Bool) (batchSize now : Int) (rows : List LegacyRow)
    (table : PreferenceTable) : MigrationState :=
  rows.foldl (migrateRow dryRun batchSize now) ⟨.start dryRun, [], table⟩

/-- `migrate(rows, ...)` -/
def migrate (dryRun : Bool) (batchSize now : Int) (rows : List LegacyRow)
    (table : PreferenceTable) : MigrationState :=
  flush dryRun (migrateRows dryRun batchSize now rows table)

/-- A run that is interrupted after a number of rows. -/
structure Attempt where
  batchSize : Int
  now : Int
  rowsDone : Nat
deriving DecidableEq, Repr

/-- What an interrupted run has committed. -/
def Attempt.committed (attempt : Attempt) (rows : List LegacyRow) (table : PreferenceTable) :
    PreferenceTable :=
  (migrateRows false attempt.batchSize attempt.now (rows.take attempt.rowsDone) table).table

/-- Interrupted runs, each from the start. -/
def afterAttempts (attempts : List Attempt) (rows : List LegacyRow) (table : PreferenceTable) :
    PreferenceTable :=
  attempts.foldl (fun table attempt => attempt.committed rows table) table

end PreferencesMigration
end ConversationService
