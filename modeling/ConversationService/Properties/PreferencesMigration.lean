import ConversationService.Model.PreferencesMigration
import ConversationService.Properties.PatchMerge

/-!
# Runs of the migration

A run has always written some first part of the values that its rows give, and has collected
the rest of them. As every user has at most one legacy row, each value finds the row that the
table had at the start of the run, and writing it once more changes nothing. So neither the
batches nor interrupted runs matter to the table in the end.
-/

namespace ConversationService
namespace PreferencesMigration

open Python Preferences KeyedWrites

/-- The rows of the legacy table: one for each user, with a time, and texts in UTF-8. -/
structure LegacyTable where
  rows : List LegacyRow
  distinct : (rows.filterMap (fun row => row.userId.asUuid)).Nodup
  dated : forall row, row ∈ rows -> row.updatedAt.isSome = true
  encodable : forall row v, row ∈ rows -> row.fields.personalInstructions = some v ->
    forall c, c ∈ v -> isSurrogate c = false

/-!
# Values
-/

/-- The document of a legacy row. -/
def legacyDocument (row : LegacyRow) : UserPreferences :=
  row.fields.document

/-- The values that the rows of a run give, in order. -/
def valuesOf (now : Int) (rows : List LegacyRow) : List (UUID × TableRow) :=
  rows.filterMap (fun row =>
    row.userId.asUuid.map (fun userId => (userId, migratedValues now row (legacyDocument row))))

theorem transform_eq (now : Int) (row : LegacyRow) :
    transform now row =
      match row.userId.asUuid with
      | none => .rejected (text "invalid_user_id")
      | some userId =>
          .values userId (migratedValues now row (legacyDocument row))
            (normalizedFields row.fields (legacyDocument row)) := by
  unfold transform
  rw [fromRow_some]
  rfl

theorem keys_valuesOf (now : Int) (rows : List LegacyRow) :
    (valuesOf now rows).map Prod.fst = rows.filterMap (fun row => row.userId.asUuid) := by
  unfold valuesOf
  rw [List.map_filterMap]
  apply List.filterMap_congr
  intro row _
  cases row.userId.asUuid with
  | none => rfl
  | some userId => rfl

theorem valuesOf_append (now : Int) (rows more : List LegacyRow) :
    valuesOf now (rows ++ more) = valuesOf now rows ++ valuesOf now more :=
  List.filterMap_append

namespace LegacyTable

variable (legacy : LegacyTable)

theorem nodup_values (now : Int) : ((valuesOf now legacy.rows).map Prod.fst).Nodup := by
  rw [keys_valuesOf]
  exact legacy.distinct

theorem valuesOf_now (now now' : Int) :
    valuesOf now legacy.rows = valuesOf now' legacy.rows := by
  unfold valuesOf
  apply List.filterMap_congr
  intro row hrow
  rcases Option.isSome_iff_exists.mp (legacy.dated row hrow) with ⟨updatedAt, hdated⟩
  unfold migratedValues
  rw [hdated]
  rfl

theorem allowed_values {now : Int} {userId : UUID} {values : TableRow}
    (h : (userId, values) ∈ valuesOf now legacy.rows) : values.Allowed := by
  rcases List.mem_filterMap.mp h with ⟨row, hrow, hvalues⟩
  rcases Option.map_eq_some_iff.mp hvalues with ⟨u, _, heq⟩
  cases heq
  have hvalid : ValidDocument (legacyDocument row) := row.fields.valid_document
  have htext : PgText (legacyDocument row).personalInstructions := by
    have hempty : PgText [] := fun c hc => absurd hc List.not_mem_nil
    show PgText (storedOr (fun v => validInstructions (some v)) [] row.fields.personalInstructions)
    unfold storedOr
    cases hstored : row.fields.personalInstructions with
    | none => exact hempty
    | some v =>
        rw [Option.bind_some]
        cases hw : validInstructions (some v) with
        | none => exact hempty
        | some w =>
            exact (pgText_validInstructions_iff hw).mpr (legacy.encodable row v hrow hstored)
  have hversion : 1 ≤ (max (row.version.getD 0) 1).toNat := by omega
  have hsaved := allowed_savedRow hvalid htext hversion
    ((row.updatedAt.map Datetime.micros).getD now)
  exact
    { defaultMode := hsaved.defaultMode
      defaultTools := hsaved.defaultTools
      answerLength := hsaved.answerLength
      tone := hsaved.tone
      language := hsaved.language
      personalInstructions := hsaved.personalInstructions
      citations := hsaved.citations
      documentContext := hsaved.documentContext
      version := hversion
      oneDefaultMode := Or.inr rfl }

end LegacyTable

/-!
# The upsert
-/

theorem isNewer_self (values : TableRow) : isNewer values values = false := by
  simp [isNewer]

/-- An upsert that is repeated changes nothing. -/
theorem upsertedRow_again (old : Option MigratedRow) (values : TableRow) :
    upsertedRow (some (upsertedRow old values)) values = upsertedRow old values := by
  cases old with
  | none => simp [upsertedRow, isNewer_self]
  | some old =>
      cases hnewer : isNewer old.toTableRow values with
      | true => simp [upsertedRow, hnewer, isNewer_self]
      | false => simp [upsertedRow, hnewer]

theorem upsertResult_again (old : Option MigratedRow) (values : TableRow) :
    upsertResult (some (upsertedRow old values)) values = .skipped := by
  cases old with
  | none => simp [upsertResult, upsertedRow, isNewer_self]
  | some old =>
      cases hnewer : isNewer old.toTableRow values with
      | true => simp [upsertResult, upsertedRow, hnewer, isNewer_self]
      | false => simp [upsertResult, upsertedRow, hnewer]

/-- The outcome of a value against the rows of a table. -/
def resultIn (table : PreferenceTable) (values : UUID × TableRow) : UpsertResult :=
  upsertResult (table values.1) values.2

/-!
# Reports
-/

/-- The report of a run over some rows, for the outcomes of the values it has flushed. -/
def reportOf (dryRun : Bool) (rows : List LegacyRow) (results : List UpsertResult) :
    MigrationReport :=
  let rejected := rows.filter (fun row => row.userId.asUuid.isNone)
  { examined := rows.length
    inserted := results.count .inserted
    refreshed := results.count .refreshed
    skippedExisting := results.count .skipped
    rejected := rejected.length
    normalizedFields :=
      (rows.map (fun row =>
        if row.userId.asUuid.isSome then normalizedFields row.fields (legacyDocument row)
        else 0)).sum
    dryRun := dryRun
    rejects := rejected.map (fun row => (row.userId.toText, text "invalid_user_id")) }

theorem reportOf_count (dryRun : Bool) (rows : List LegacyRow) (results : List UpsertResult)
    (result : UpsertResult) :
    (reportOf dryRun rows results).count result = reportOf dryRun rows (results ++ [result]) := by
  cases result <;> simp [reportOf, MigrationReport.count, List.count_append]

theorem foldl_count {alpha : Type} (dryRun : Bool) (rows : List LegacyRow)
    (results : List UpsertResult) (result : alpha -> UpsertResult) (batch : List alpha) :
    batch.foldl (fun report values => report.count (result values))
        (reportOf dryRun rows results) =
      reportOf dryRun rows (results ++ batch.map result) := by
  induction batch generalizing results with
  | nil => simp
  | cons values rest ih =>
      rw [List.foldl_cons, reportOf_count, ih]
      simp

/-!
# One step of a run
-/

/-- A run over `rows` that started with `table` and has flushed the values `done`. -/
structure RunOver (dryRun : Bool) (now : Int) (table : PreferenceTable)
    (rows : List LegacyRow) (done : List (UUID × TableRow)) (st : MigrationState) : Prop where
  done_batch : done ++ st.batch = valuesOf now rows
  written : st.table = if dryRun then table else writeAll upsertedRow table done
  reported : st.report = reportOf dryRun rows (done.map (resultIn table))

theorem foldl_upsert {batch : List (UUID × TableRow)} (hnodup : (batch.map Prod.fst).Nodup)
    (report : MigrationReport) (table : PreferenceTable) :
    batch.foldl (fun (acc : MigrationReport × PreferenceTable) values =>
        let result := upsert acc.2 values
        (acc.1.count result.1, result.2)) (report, table) =
      (batch.foldl (fun report values => report.count (resultIn table values)) report,
        writeAll upsertedRow table batch) := by
  induction batch generalizing report table with
  | nil => rfl
  | cons values rest ih =>
      rw [List.map_cons, List.nodup_cons] at hnodup
      rw [List.foldl_cons, ih hnodup.right, List.foldl_cons]
      refine Prod.ext ?_ rfl
      apply List.foldl_ext
      intro report' later hlater
      have hne : later.1 ≠ values.1 := by
        intro heq
        exact hnodup.left (heq ▸ List.mem_map.mpr ⟨later, hlater, rfl⟩)
      show report'.count (upsertResult (Function.update table values.1 _ later.1) later.2) = _
      rw [Function.update_of_ne hne]
      rfl

section Steps

variable {dryRun : Bool} {now : Int} {table : PreferenceTable} {rows : List LegacyRow}
  {done : List (UUID × TableRow)} {st : MigrationState}

theorem RunOver.flush (h : RunOver dryRun now table rows done st)
    (hnodup : ((valuesOf now rows).map Prod.fst).Nodup) :
    RunOver dryRun now table rows (done ++ st.batch)
      (PreferencesMigration.flush dryRun st) := by
  unfold PreferencesMigration.flush
  cases hbatch : st.batch with
  | nil =>
      rw [List.isEmpty_nil, if_pos rfl, List.append_nil]
      exact h
  | cons values rest =>
      rw [List.isEmpty_cons, if_neg Bool.false_ne_true, ← hbatch]
      rw [← h.done_batch, List.map_append, List.nodup_append] at hnodup
      have hdone : (done ++ st.batch).map (resultIn table) =
          done.map (resultIn table) ++ st.batch.map (resultIn table) := List.map_append
      cases dryRun with
      | true =>
          have htable : st.table = table := h.written
          rw [if_pos rfl]
          refine ⟨(List.append_nil _).trans h.done_batch, htable, ?_⟩
          show st.batch.foldl (fun report values => report.count (resultIn st.table values))
            st.report = _
          rw [h.reported, htable, foldl_count, hdone]
      | false =>
          have htable : st.table = writeAll upsertedRow table done := h.written
          have hfound : forall values, values ∈ st.batch ->
              resultIn st.table values = resultIn table values := by
            intro values hvalues
            unfold resultIn
            rw [htable, writeAll_of_notMem]
            intro hkey
            exact hnodup.right.right values.1 hkey values.1
              (List.mem_map.mpr ⟨values, hvalues, rfl⟩) rfl
          rw [if_neg Bool.false_ne_true]
          unfold flushReal
          rw [foldl_upsert hnodup.right.left]
          refine ⟨(List.append_nil _).trans h.done_batch, ?_, ?_⟩
          · show writeAll upsertedRow st.table st.batch = writeAll upsertedRow table _
            rw [htable, writeAll_append]
          · show st.batch.foldl (fun report values => report.count (resultIn st.table values))
              st.report = _
            rw [h.reported, foldl_count, hdone, List.map_congr_left hfound]

theorem RunOver.migrateRow (batchSize : Int) {row : LegacyRow}
    (h : RunOver dryRun now table rows done st)
    (hnodup : ((valuesOf now (rows ++ [row])).map Prod.fst).Nodup) :
    exists more, RunOver dryRun now table (rows ++ [row]) (done ++ more)
      (PreferencesMigration.migrateRow dryRun batchSize now st row) := by
  unfold PreferencesMigration.migrateRow
  rw [transform_eq]
  cases huser : row.userId.asUuid with
  | none =>
      refine ⟨[], ?_⟩
      rw [List.append_nil]
      refine ⟨?_, h.written, ?_⟩
      · rw [valuesOf_append, ← h.done_batch]
        simp [valuesOf, huser]
      · simp [h.reported, reportOf, huser]
  | some userId =>
      have hcollected : RunOver dryRun now table (rows ++ [row]) done
          { report :=
              { st.report with
                examined := st.report.examined + 1
                normalizedFields :=
                  st.report.normalizedFields +
                    normalizedFields row.fields (legacyDocument row) }
            batch := st.batch ++ [(userId, migratedValues now row (legacyDocument row))]
            table := st.table } := by
        refine ⟨?_, h.written, ?_⟩
        · rw [valuesOf_append, ← h.done_batch, List.append_assoc]
          simp [valuesOf, huser]
        · simp [h.reported, reportOf, huser]
      dsimp only
      split
      · exact ⟨_, hcollected.flush hnodup⟩
      · exact ⟨[], by rw [List.append_nil]; exact hcollected⟩

end Steps

/-!
# Whole runs
-/

theorem runOver_rows {dryRun : Bool} {now batchSize : Int} {table : PreferenceTable}
    {rows more : List LegacyRow} {done : List (UUID × TableRow)} {st : MigrationState}
    (h : RunOver dryRun now table rows done st)
    (hnodup : ((valuesOf now (rows ++ more)).map Prod.fst).Nodup) :
    exists later, RunOver dryRun now table (rows ++ more) (done ++ later)
      (more.foldl (migrateRow dryRun batchSize now) st) := by
  induction more generalizing rows done st with
  | nil =>
      refine ⟨[], ?_⟩
      rw [List.append_nil, List.append_nil]
      exact h
  | cons row rest ih =>
      have hassoc : rows ++ row :: rest = (rows ++ [row]) ++ rest := by simp
      rw [hassoc] at hnodup ⊢
      have hfirst : ((valuesOf now (rows ++ [row])).map Prod.fst).Nodup := by
        rw [valuesOf_append, List.map_append] at hnodup
        exact (List.nodup_append.mp hnodup).left
      rcases h.migrateRow batchSize hfirst with ⟨first, hrow⟩
      rcases ih hrow hnodup with ⟨later, hlater⟩
      refine ⟨first ++ later, ?_⟩
      rw [← List.append_assoc]
      exact hlater

theorem runOver_start (dryRun : Bool) (now : Int) (table : PreferenceTable) :
    RunOver dryRun now table [] [] ⟨.start dryRun, [], table⟩ := by
  refine ⟨rfl, ?_, rfl⟩
  cases dryRun with
  | true => rfl
  | false => rfl

namespace LegacyTable

variable (legacy : LegacyTable)

theorem nodup_take (now : Int) (n : Nat) :
    ((valuesOf now (legacy.rows.take n)).map Prod.fst).Nodup := by
  have h := legacy.nodup_values now
  rw [← List.take_append_drop n legacy.rows, valuesOf_append, List.map_append] at h
  exact (List.nodup_append.mp h).left

theorem runOver_take (dryRun : Bool) (batchSize now : Int) (table : PreferenceTable) (n : Nat) :
    exists done, RunOver dryRun now table (legacy.rows.take n) done
      (migrateRows dryRun batchSize now (legacy.rows.take n) table) := by
  have h := @runOver_rows _ _ batchSize _ _ (legacy.rows.take n) _ _
    (runOver_start dryRun now table) (by
      rw [List.nil_append]
      exact legacy.nodup_take now n)
  rcases h with ⟨done, hrun⟩
  exact ⟨done, hrun⟩

theorem runOver_later {dryRun : Bool} {batchSize now : Int} {table : PreferenceTable}
    {n m : Nat} (hle : n ≤ m) {done : List (UUID × TableRow)}
    (h : RunOver dryRun now table (legacy.rows.take n) done
      (migrateRows dryRun batchSize now (legacy.rows.take n) table)) :
    exists later, RunOver dryRun now table (legacy.rows.take m) (done ++ later)
      (migrateRows dryRun batchSize now (legacy.rows.take m) table) := by
  have hsplit : legacy.rows.take m =
      legacy.rows.take n ++ (legacy.rows.drop n).take (m - n) := by
    rw [← List.take_add]
    congr
    omega
  have hfold : migrateRows dryRun batchSize now (legacy.rows.take m) table =
      ((legacy.rows.drop n).take (m - n)).foldl (migrateRow dryRun batchSize now)
        (migrateRows dryRun batchSize now (legacy.rows.take n) table) := by
    unfold migrateRows
    rw [hsplit, List.foldl_append]
  rw [hfold, hsplit]
  apply runOver_rows h
  rw [← hsplit]
  exact legacy.nodup_take now m

theorem sublist_values {dryRun : Bool} {now : Int} {table : PreferenceTable} {n : Nat}
    {done : List (UUID × TableRow)} {st : MigrationState}
    (h : RunOver dryRun now table (legacy.rows.take n) done st) :
    List.Sublist (done ++ st.batch) (valuesOf 0 legacy.rows) := by
  rw [legacy.valuesOf_now 0 now, h.done_batch]
  exact (List.take_sublist n legacy.rows).filterMap _

theorem migrate_spec (dryRun : Bool) (batchSize now : Int) (table : PreferenceTable) :
    (migrate dryRun batchSize now legacy.rows table).table =
        (if dryRun then table else writeAll upsertedRow table (valuesOf 0 legacy.rows)) ∧
      (migrate dryRun batchSize now legacy.rows table).report =
        reportOf dryRun legacy.rows ((valuesOf 0 legacy.rows).map (resultIn table)) := by
  rcases legacy.runOver_take dryRun batchSize now table legacy.rows.length with ⟨done, hrun⟩
  rw [List.take_length] at hrun
  have hflush := hrun.flush (legacy.nodup_values now)
  have hall : done ++ (migrateRows dryRun batchSize now legacy.rows table).batch =
      valuesOf 0 legacy.rows := by
    rw [legacy.valuesOf_now 0 now]
    exact hrun.done_batch
  rw [hall] at hflush
  exact ⟨hflush.written, hflush.reported⟩

theorem committed_eq (attempt : Attempt) (table : PreferenceTable) :
    exists done, List.Sublist done (valuesOf 0 legacy.rows) ∧
      attempt.committed legacy.rows table = writeAll upsertedRow table done := by
  rcases legacy.runOver_take false attempt.batchSize attempt.now table attempt.rowsDone with
    ⟨done, hrun⟩
  exact ⟨done, (List.sublist_append_left _ _).trans (legacy.sublist_values hrun), hrun.written⟩

/-- A complete run makes up for the interrupted ones before it. -/
theorem writeAll_afterAttempts (attempts : List Attempt) (table : PreferenceTable) :
    writeAll upsertedRow (afterAttempts attempts legacy.rows table) (valuesOf 0 legacy.rows) =
      writeAll upsertedRow table (valuesOf 0 legacy.rows) := by
  induction attempts generalizing table with
  | nil => rfl
  | cons attempt rest ih =>
      rcases legacy.committed_eq attempt table with ⟨done, hsub, hcommitted⟩
      show writeAll upsertedRow (afterAttempts rest legacy.rows
        (attempt.committed legacy.rows table)) _ = _
      rw [ih, hcommitted]
      exact writeAll_absorbs upsertedRow_again (legacy.nodup_values 0) hsub

/-!
# What a commit does to a row
-/

/--
Each row is left alone, inserted, or replaced by a legacy row that is strictly newer in both;
what is written satisfies the constraints.
-/
def Advances (before after : PreferenceTable) : Prop :=
  forall userId, after userId = before userId ∨
    exists new, (userId, new.toTableRow) ∈ valuesOf 0 legacy.rows ∧
      after userId = some new ∧ new.toTableRow.Allowed ∧
      forall old, before userId = some old ->
        old.version < new.version ∧ old.updatedAt < new.updatedAt ∧
          new.createdAt = old.createdAt

theorem advances_writeAll {done : List (UUID × TableRow)}
    (hsub : List.Sublist done (valuesOf 0 legacy.rows)) (table : PreferenceTable) :
    legacy.Advances table (writeAll upsertedRow table done) := by
  have hnodup : (done.map Prod.fst).Nodup :=
    (legacy.nodup_values 0).sublist (hsub.map Prod.fst)
  intro userId
  by_cases hkey : userId ∈ done.map Prod.fst
  · rcases List.mem_map.mp hkey with ⟨⟨u, values⟩, hmem, hu⟩
    change u = userId at hu
    subst hu
    have hwritten := hsub.subset hmem
    have hallowed := legacy.allowed_values hwritten
    rw [writeAll_of_mem upsertedRow hnodup hmem]
    cases hold : table u with
    | none =>
        exact Or.inr ⟨⟨values, values.updatedAt⟩, hwritten, rfl, hallowed, fun _ h => nomatch h⟩
    | some old =>
        cases hnewer : isNewer old.toTableRow values with
        | false =>
            left
            simp [upsertedRow, hnewer]
        | true =>
            right
            refine ⟨⟨values, old.createdAt⟩, hwritten, ?_, hallowed, ?_⟩
            · simp [upsertedRow, hnewer]
            · intro old' heq
              cases heq
              unfold isNewer at hnewer
              simp only [Bool.and_eq_true, decide_eq_true_eq] at hnewer
              exact ⟨hnewer.left, hnewer.right, rfl⟩
  · exact Or.inl (writeAll_of_notMem upsertedRow hkey)

theorem advances_committed (batchSize now : Int) {n m : Nat} (hle : n ≤ m)
    (table : PreferenceTable) :
    legacy.Advances ((⟨batchSize, now, n⟩ : Attempt).committed legacy.rows table)
      ((⟨batchSize, now, m⟩ : Attempt).committed legacy.rows table) := by
  rcases legacy.runOver_take false batchSize now table n with ⟨done, hrun⟩
  rcases legacy.runOver_later hle hrun with ⟨later, hlater⟩
  have hbefore : (⟨batchSize, now, n⟩ : Attempt).committed legacy.rows table =
      writeAll upsertedRow table done := hrun.written
  have hafter : (⟨batchSize, now, m⟩ : Attempt).committed legacy.rows table =
      writeAll upsertedRow table (done ++ later) := hlater.written
  rw [hbefore, hafter, writeAll_append]
  apply legacy.advances_writeAll
  exact (List.sublist_append_right done later).trans
    ((List.sublist_append_left _ _).trans (legacy.sublist_values hlater))

theorem advances_migrate (batchSize now : Int) (n : Nat) (table : PreferenceTable) :
    legacy.Advances ((⟨batchSize, now, n⟩ : Attempt).committed legacy.rows table)
      (migrate false batchSize now legacy.rows table).table := by
  rcases legacy.runOver_take false batchSize now table n with ⟨done, hrun⟩
  have hbefore : (⟨batchSize, now, n⟩ : Attempt).committed legacy.rows table =
      writeAll upsertedRow table done := hrun.written
  have hvalues : exists later, valuesOf 0 legacy.rows = done ++ later := by
    refine ⟨(migrateRows false batchSize now (legacy.rows.take n) table).batch ++
      valuesOf now (legacy.rows.drop n), ?_⟩
    rw [← List.append_assoc, hrun.done_batch, ← valuesOf_append, List.take_append_drop,
      legacy.valuesOf_now 0 now]
  rcases hvalues with ⟨later, hlater⟩
  rw [hbefore, (legacy.migrate_spec false batchSize now table).left, if_neg Bool.false_ne_true,
    hlater, writeAll_append]
  apply legacy.advances_writeAll
  rw [hlater]
  exact List.sublist_append_right done later

/-!
# The migration
-/

/-- Where a complete run has written, another one skips every value. -/
theorem results_again (table : PreferenceTable) :
    (valuesOf 0 legacy.rows).map
        (resultIn (writeAll upsertedRow table (valuesOf 0 legacy.rows))) =
      (valuesOf 0 legacy.rows).map (fun _ => UpsertResult.skipped) := by
  apply List.map_congr_left
  rintro ⟨userId, values⟩ hmem
  unfold resultIn
  rw [writeAll_of_mem upsertedRow (legacy.nodup_values 0) hmem]
  exact upsertResult_again _ _

/-- What holds of the migration, whatever the table holds at the start. -/
structure Migrates (table : PreferenceTable) : Prop where
  /-- a complete run after any interrupted ones leaves the table of a single run -/
  resumable : forall attempts batchSize now batchSize' now',
    (migrate false batchSize now legacy.rows
        (afterAttempts attempts legacy.rows table)).table =
      (migrate false batchSize' now' legacy.rows table).table
  /-- and a further run finds nothing to do -/
  idempotent : forall batchSize now batchSize' now',
    let final := (migrate false batchSize now legacy.rows table).table
    let again := migrate false batchSize' now' legacy.rows final
    again.table = final ∧ again.report.inserted = 0 ∧ again.report.refreshed = 0
  /-- rows only advance from one commit of a run to a later one -/
  advances_within : forall batchSize now n m, n ≤ m ->
    legacy.Advances ((⟨batchSize, now, n⟩ : Attempt).committed legacy.rows table)
      ((⟨batchSize, now, m⟩ : Attempt).committed legacy.rows table)
  advances : forall batchSize now n,
    legacy.Advances ((⟨batchSize, now, n⟩ : Attempt).committed legacy.rows table)
      (migrate false batchSize now legacy.rows table).table
  /-- a dry run reports what the real one does, and writes nothing -/
  dry : forall batchSize now batchSize' now',
    let dry := migrate true batchSize now legacy.rows table
    dry.table = table ∧
      dry.report = { (migrate false batchSize' now' legacy.rows table).report with
        dryRun := true }

theorem migrates (table : PreferenceTable) : legacy.Migrates table where
  resumable := by
    intro attempts batchSize now batchSize' now'
    rw [(legacy.migrate_spec false batchSize now _).left, if_neg Bool.false_ne_true,
      (legacy.migrate_spec false batchSize' now' table).left, if_neg Bool.false_ne_true]
    exact legacy.writeAll_afterAttempts attempts table
  idempotent := by
    intro batchSize now batchSize' now' final again
    have hfinal : final = writeAll upsertedRow table (valuesOf 0 legacy.rows) :=
      (legacy.migrate_spec false batchSize now table).left
    have hagain := legacy.migrate_spec false batchSize' now' final
    refine ⟨?_, ?_, ?_⟩
    · rw [hagain.left, if_neg Bool.false_ne_true, hfinal]
      exact writeAll_absorbs upsertedRow_again (legacy.nodup_values 0) (List.Sublist.refl _)
    · rw [hagain.right, hfinal, legacy.results_again]
      simp [reportOf, List.count_replicate]
    · rw [hagain.right, hfinal, legacy.results_again]
      simp [reportOf, List.count_replicate]
  advances_within := fun batchSize now _ _ hle =>
    legacy.advances_committed batchSize now hle table
  advances := fun batchSize now n => legacy.advances_migrate batchSize now n table
  dry := by
    intro batchSize now batchSize' now' dry
    have hdry := legacy.migrate_spec true batchSize now table
    refine ⟨hdry.left, ?_⟩
    rw [(legacy.migrate_spec false batchSize' now' table).right]
    exact hdry.right

end LegacyTable

/-! Three rows: one is newer than the row of the table, one has no user, and one is new. -/

def storedTone (tone : String) : StoredFields where
  defaultMode := none
  defaultTools := none
  answerLength := none
  tone := some (text tone)
  language := none
  personalInstructions := some (text "Be brief.")
  citations := none
  documentContext := none

def threeRows : List LegacyRow :=
  [⟨.uuid (.ofInt 1), storedTone "simple", some 3, some ⟨2000, true⟩⟩,
    ⟨.other (text "guest"), storedTone "simple", some 1, some ⟨1000, true⟩⟩,
    ⟨.uuid (.ofInt 2), storedTone "stern", none, some ⟨1000, false⟩⟩]

def threeUsers : LegacyTable where
  rows := threeRows
  distinct := by decide
  dated := by decide
  encodable := by
    have hall : forall row, row ∈ threeRows ->
        row.fields.personalInstructions = some (text "Be brief.") := by
      decide
    have hencodable : (text "Be brief.").all (fun c => isSurrogate c == false) = true := by
      decide
    intro row v hrow hv c hc
    rw [hall row hrow] at hv
    cases hv
    exact beq_iff_eq.mp (List.all_eq_true.mp hencodable c hc)

def olderRow : PreferenceTable := fun userId =>
  if userId = .ofInt 1 then
    some ⟨migratedValues 0 ⟨.uuid userId, storedTone "friendly", some 2, some ⟨1000, true⟩⟩
      .default, 500⟩
  else none

theorem migrates_threeUsers :
    threeUsers.Migrates olderRow ∧
      (let report := (migrate false 2 0 threeUsers.rows olderRow).report
      (report.examined, report.inserted, report.refreshed, report.skippedExisting,
        report.rejected) = (3, 1, 1, 0, 1)) ∧
      ((migrate false 2 0 threeUsers.rows olderRow).table (.ofInt 1)).map
        (fun row => (row.tone, row.version, row.createdAt)) =
          some (text "simple", 3, 500) :=
  ⟨threeUsers.migrates olderRow, by decide, by decide⟩

end PreferencesMigration
end ConversationService
