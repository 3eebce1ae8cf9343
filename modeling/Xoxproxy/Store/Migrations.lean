import Xoxproxy.Library.OrderedPrefixes
import Xoxproxy.Library.Runs
import Xoxproxy.Library.Transactions
import Xoxproxy.Store.Timestamps

/-!
# Migrations

`Migrate` of `internal/store/sqlite/sqlite.go` and what it calls.  A run may
fail or crash at every statement; a transaction that was not committed leaves
no trace.
-/

namespace Xoxproxy.Migrations

open Transactions OrderedPrefixes

/-- A file of the embedded directory. -/
structure MigrationFile where
  name : String
  data : String

/-- `migration`. -/
structure Migration where
  version : Int
  name : String
  statements : List String
  deriving DecidableEq, Repr

/-- The submatch of `migrationNameRe`, `^(\d+)_.*\.sql$`. -/
def migrationNameRe (name : List Char) : Option (List Char) :=
  match name.dropWhile Char.isDigit with
  | '_' :: rest =>
      if name.takeWhile Char.isDigit ≠ [] ∧ ".sql".toList <:+ rest ∧
          '\n' ∉ rest then
        some (name.takeWhile Char.isDigit)
      else none
  | _ => none

/-- The lines of `splitStatements` that are no comments. -/
def withoutComments (text : String) : List String :=
  (splitAt text '\n').filter fun line =>
    !"--".toList.isPrefixOf (trimSpace line).toList

def splitStatements (text : String) : List String :=
  let kept := (withoutComments text).flatMap fun line => line.toList ++ ['\n']
  ((splitAt (String.ofList kept) ';').map trimSpace).filter (· ≠ "")

section Loading

variable [Build]

/-- One round of the loop of `loadMigrations`. -/
def loadMigration (file : MigrationFile) : Except GoError Migration :=
  match migrationNameRe file.name.toList with
  | none =>
      .error (.plain ("sqlite: migration file " ++ quote file.name ++
        " does not match NNNN_name.sql"))
  | some digits =>
      match atoi (String.ofList digits) with
      | none =>
          .error (.plain ("sqlite: bad migration version in " ++
            quote file.name ++ ": strconv.Atoi: parsing " ++
            quote (String.ofList digits) ++ ": value out of range"))
      | some version => .ok ⟨version, file.name, splitStatements file.data⟩

def sortMigrations (migrations : List Migration) : List Migration :=
  migrations.mergeSort fun first second =>
    decide (first.version ≤ second.version)

def loadMigrations (files : List MigrationFile) :
    Except GoError (List Migration) := do
  let migrations ← files.mapM loadMigration
  .ok (sortMigrations migrations)

theorem loadMigrations_of_ordered {files : List MigrationFile}
    {migrations : List Migration}
    (read : files.mapM loadMigration = .ok migrations)
    (ordered : migrations.Pairwise fun first second =>
      first.version ≤ second.version) :
    loadMigrations files = .ok migrations := by
  rw [loadMigrations, read]
  apply congrArg Except.ok
  exact List.mergeSort_of_pairwise (ordered.imp decide_eq_true)

end Loading

theorem sortMigrations_ordered (migrations : List Migration) :
    (sortMigrations migrations).Pairwise fun first second =>
      first.version ≤ second.version := by
  apply (List.pairwise_mergeSort ?_ ?_ migrations).imp of_decide_eq_true
  · intro first second third early late
    exact decide_eq_true
      (Int.le_trans (of_decide_eq_true early) (of_decide_eq_true late))
  · intro first second
    simpa using Int.le_total first.version second.version

/-- A row of `schema_migrations`. -/
structure MigrationRow where
  version : Int
  appliedAt : String
  deriving DecidableEq, Repr

/-- The rows of `schema_migrations`, where it exists, and everything else in
the database. -/
structure Database (Schema : Type) where
  schema : Schema
  recorded : Option (List MigrationRow)
  deriving DecidableEq, Repr

variable {Schema : Type}

/-- A database before its first migration. -/
def Database.fresh (schema : Schema) : Database Schema := ⟨schema, none⟩

def Database.versions (database : Database Schema) : List Int :=
  (database.recorded.getD []).map MigrationRow.version

/-- `CREATE TABLE IF NOT EXISTS schema_migrations`. -/
def Database.bootstrap (database : Database Schema) : Database Schema :=
  { database with recorded := some (database.recorded.getD []) }

/-- `SELECT COALESCE(MAX(version), 0) FROM schema_migrations`. -/
def Database.current (database : Database Schema) : Int :=
  latest 0 database.versions

/-- What ends a run early. -/
inductive Stop where
  | failed (error : GoError)
  | crashed
  deriving DecidableEq, Repr

/-- `fmt.Errorf` with a prefix, which a crash does not come to. -/
def Stop.wrap (before : String) : Stop → Stop
  | .failed error => .failed (error.wrap before "")
  | .crashed => .crashed

/-- What a statement does to a database. -/
abbrev Execution (Schema : Type) :=
  String → Database Schema → Except GoError (Database Schema)

def firstLine (text : String) : String :=
  String.ofList (text.toList.takeWhile (· ≠ '\n'))

/-- `INSERT INTO schema_migrations (version, applied_at)`. -/
def insertVersion (version : Int) (now : Time) :
    Statement (Database Schema) Stop where
  run := fun database =>
    match database.recorded with
    | none =>
        .error (.failed (.plain
          "SQL logic error: no such table: schema_migrations"))
    | some rows =>
        if version ∈ rows.map MigrationRow.version then
          .error (.failed (.plain
            ("constraint failed: UNIQUE constraint failed: " ++
              "schema_migrations.version")))
        else
          .ok { database with
            recorded := some (rows ++ [⟨version, formatTime now⟩]) }

section Running

variable [Build]

/-- A statement of a migration, as `applyMigration` executes it. -/
def statementOf (execute : Execution Schema) (text : String) :
    Statement (Database Schema) Stop where
  run := fun database => (execute text database).mapError .failed
  report := .wrap ("statement " ++ quote (firstLine text) ++ ": ")

def applyMigration (execute : Execution Schema) (failure : Failure Stop)
    (now : Time) (migration : Migration) (database : Database Schema) :
    Except Stop Unit × Database Schema :=
  transact failure
    (migration.statements.map (statementOf execute) ++
      [insertVersion migration.version now]) database

/-- What happens around one run: what stops the statements before the first
migration, what stops which statement of a migration, the clock, and a crash
right before the return. -/
structure Circumstances where
  bootstrap : Option Stop
  reading : Option Stop
  applying : Int → Failure Stop
  clock : Int → Time
  crashes : Bool

/-- `%04d` of a version. -/
def padded (version : Int) : String :=
  String.ofList (List.leftpad 4 '0' (toString version).toList)

/-- The loop of `Migrate`. -/
def applyPending (execute : Execution Schema) (run : Circumstances)
    (current : Int) :
    List Migration → Database Schema → Except Stop Unit × Database Schema
  | [], database => (if run.crashes then .error .crashed else .ok (), database)
  | migration :: rest, database =>
      if migration.version ≤ current then
        applyPending execute run current rest database
      else
        match applyMigration execute (run.applying migration.version)
            (run.clock migration.version) migration database with
        | (.error stop, after) =>
            (.error (stop.wrap ("sqlite: migration " ++
              padded migration.version ++ ": ")), after)
        | (.ok (), after) => applyPending execute run current rest after

/-- `Migrate`. -/
def migrate (files : List MigrationFile) (execute : Execution Schema)
    (run : Circumstances) (database : Database Schema) :
    Except Stop Unit × Database Schema :=
  match run.bootstrap with
  | some stop =>
      (.error (stop.wrap "sqlite: migrations bootstrap: "), database)
  | none =>
      match run.reading with
      | some stop =>
          (.error (stop.wrap "sqlite: read migration version: "),
            database.bootstrap)
      | none =>
          match loadMigrations files with
          | .error error => (.error (.failed error), database.bootstrap)
          | .ok migrations =>
              applyPending execute run database.bootstrap.current migrations
                database.bootstrap

/-- The database after some runs, whatever they return. -/
def migrateAll (files : List MigrationFile) (execute : Execution Schema)
    (runs : List Circumstances) (database : Database Schema) :
    Database Schema :=
  Runs.run (fun run before => (migrate files execute run before).2) runs
    database

end Running

/-- The statement acts on the schema alone. -/
def Confined (execute : Execution Schema)
    (act : String → Schema → Except GoError Schema) (text : String) : Prop :=
  ∀ database, execute text database =
    (act text database.schema).map fun schema =>
      { database with schema := schema }

/-- Execute the statements of some migrations once each, in order. -/
def executed (act : String → Schema → Except GoError Schema)
    (migrations : List Migration) (start : Schema) : Except GoError Schema :=
  (migrations.flatMap Migration.statements).foldlM
    (fun schema text => act text schema) start

/-- These migrations were applied, and nothing else was. -/
structure Applied (act : String → Schema → Except GoError Schema)
    (start : Schema) (done : List Migration) (database : Database Schema) :
    Prop where
  versions : database.versions = done.map Migration.version
  schema : executed act done start = .ok database.schema

/-- Files whose migrations are numbered from one on, each number once, and
act on the schema alone. -/
structure Embedded [Build] (execute : Execution Schema)
    (act : String → Schema → Except GoError Schema)
    (files : List MigrationFile) (migrations : List Migration) : Prop where
  loaded : loadMigrations files = .ok migrations
  distinct : (migrations.map Migration.version).Nodup
  positive : ∀ migration ∈ migrations, 1 ≤ migration.version
  confined : ∀ migration ∈ migrations, ∀ text ∈ migration.statements,
    Confined execute act text

@[simp]
theorem Database.versions_bootstrap (database : Database Schema) :
    database.bootstrap.versions = database.versions := rfl

theorem applied_fresh (act : String → Schema → Except GoError Schema)
    (start : Schema) : Applied act start [] (.fresh start) := ⟨rfl, rfl⟩

theorem Applied.bootstrap {act : String → Schema → Except GoError Schema}
    {start : Schema} {done : List Migration} {database : Database Schema}
    (applied : Applied act start done database) :
    Applied act start done database.bootstrap :=
  ⟨applied.versions, applied.schema⟩

/-- The statements of one more migration come last. -/
theorem executed_append_singleton
    (act : String → Schema → Except GoError Schema) (done : List Migration)
    (migration : Migration) (start : Schema) :
    executed act (done ++ [migration]) start =
      executed act done start >>= fun schema =>
        migration.statements.foldlM (fun schema text => act text schema)
          schema := by
  rw [executed, List.flatMap_append, List.foldlM_append, executed]
  simp

theorem insertVersion_ok {version : Int} {now : Time}
    {database after : Database Schema}
    (inserted : (insertVersion version now).run database = .ok after) :
    after.schema = database.schema ∧
      after.versions = database.versions ++ [version] := by
  simp only [insertVersion] at inserted
  split at inserted
  · cases inserted
  · rename_i rows recorded
    split at inserted
    · cases inserted
    · obtain rfl := Except.ok.inj inserted
      refine ⟨rfl, ?_⟩
      simp [Database.versions, recorded]

section Steps

variable [Build] {execute : Execution Schema}
variable {act : String → Schema → Except GoError Schema} {start : Schema}
variable {run : Circumstances}

theorem executeAll_statements {texts : List String}
    (confined : ∀ text ∈ texts, Confined execute act text)
    {database after : Database Schema}
    (done : executeAll (texts.map (statementOf execute)) database =
      .ok after) :
    texts.foldlM (fun schema text => act text schema) database.schema =
        .ok after.schema ∧ after.versions = database.versions := by
  induction texts generalizing database with
  | nil =>
      obtain rfl := Except.ok.inj done
      exact ⟨rfl, rfl⟩
  | cons text texts inductionHypothesis =>
      obtain ⟨first, others⟩ := List.forall_mem_cons.mp confined
      rw [List.map_cons, executeAll] at done
      simp only [statementOf, first database] at done
      rw [List.foldlM_cons]
      cases acted : act text database.schema with
      | error error =>
          rw [acted] at done
          cases done
      | ok schema =>
          rw [acted] at done
          exact inductionHypothesis others done

/-- A migration is applied as a whole or not at all. -/
theorem applyMigration_cases {migration : Migration}
    (confined : ∀ text ∈ migration.statements, Confined execute act text)
    (failure : Failure Stop) (now : Time) {done : List Migration}
    {database : Database Schema}
    (applied : Applied act start done database) :
    (∃ stop, applyMigration execute failure now migration database =
      (.error stop, database)) ∨
      ∃ after, applyMigration execute failure now migration database =
          (.ok (), after) ∧ Applied act start (done ++ [migration]) after := by
  rcases @transact_cases _ _ failure
    (migration.statements.map (statementOf execute) ++
      [insertVersion migration.version now]) database with
    ⟨stop, failed⟩ | ⟨after, committed, ran⟩
  · exact Or.inl ⟨stop, failed⟩
  · refine Or.inr ⟨after, committed, ?_⟩
    obtain ⟨middle, statements, last⟩ := executeAll_append.mp ran
    obtain ⟨schema, versions⟩ := executeAll_statements confined statements
    have inserted : (insertVersion migration.version now).run middle =
        .ok after := by
      rw [executeAll] at last
      split at last
      · cases last
      · rename_i changed ran
        rw [ran]
        exact last
    obtain ⟨sameSchema, moreVersions⟩ := insertVersion_ok inserted
    constructor
    · rw [moreVersions, versions, applied.versions, List.map_append,
        List.map_singleton]
    · rw [executed_append_singleton, applied.schema, sameSchema]
      exact schema

/-! ## One run -/

/-- What the ledger covers is passed over. -/
theorem applyPending_skip {current : Int} {done : List Migration}
    (covered : ∀ migration ∈ done, migration.version ≤ current)
    (rest : List Migration) (database : Database Schema) :
    applyPending execute run current (done ++ rest) database =
      applyPending execute run current rest database := by
  induction done with
  | nil => rfl
  | cons migration done inductionHypothesis =>
      obtain ⟨first, others⟩ := List.forall_mem_cons.mp covered
      rw [List.cons_append, applyPending, if_pos first,
        inductionHypothesis others]

/-- The loop applies some of the pending migrations, all of them when it
ends without an error. -/
theorem applyPending_applied {current : Int} {rest : List Migration}
    (pending : ∀ migration ∈ rest, current < migration.version)
    (confined : ∀ migration ∈ rest, ∀ text ∈ migration.statements,
      Confined execute act text)
    {done : List Migration} {database : Database Schema}
    (applied : Applied act start done database) :
    (∃ count, Applied act start (done ++ rest.take count)
      (applyPending execute run current rest database).2) ∧
      ((applyPending execute run current rest database).1 = .ok () →
        Applied act start (done ++ rest)
          (applyPending execute run current rest database).2) := by
  induction rest generalizing done database with
  | nil =>
      rw [List.append_nil]
      exact ⟨⟨0, by rwa [List.take_zero, List.append_nil]⟩, fun _ => applied⟩
  | cons migration rest inductionHypothesis =>
      obtain ⟨later, others⟩ := List.forall_mem_cons.mp pending
      obtain ⟨own, remaining⟩ := List.forall_mem_cons.mp confined
      rw [applyPending, if_neg (Int.not_le.mpr later)]
      rcases applyMigration_cases own (run.applying migration.version)
        (run.clock migration.version) applied with
        ⟨stop, failed⟩ | ⟨after, committed, next⟩
      · rw [failed]
        exact ⟨⟨0, by rwa [List.take_zero, List.append_nil]⟩,
          fun returned => by cases returned⟩
      · rw [committed]
        obtain ⟨⟨count, some⟩, all⟩ := inductionHypothesis others remaining next
        rw [List.append_assoc] at some all
        exact ⟨⟨count + 1, some⟩, all⟩

variable {files : List MigrationFile} {migrations : List Migration}

/-- The versions of the files are worked through in ascending order. -/
theorem Embedded.ascending
    (embedded : Embedded execute act files migrations) :
    Ascending Migration.version 0 migrations where
  ordered := by
    obtain ⟨unsorted, _, sorted⟩ := bind_eq_ok_iff.mp embedded.loaded
    have ordered := sortMigrations_ordered unsorted
    rw [Except.ok.inj sorted] at ordered
    have distinct := List.pairwise_map.mp embedded.distinct
    exact (ordered.and distinct).imp Int.lt_iff_le_and_ne.mpr
  above := embedded.positive

/-- One run takes the database from one prefix to another, to the whole list
when it returns no error. -/
theorem migrate_applied
    (embedded : Embedded execute act files migrations) {count : Nat}
    {database : Database Schema}
    (applied : Applied act start (migrations.take count) database) :
    (∃ count, Applied act start (migrations.take count)
      (migrate files execute run database).2) ∧
      ((migrate files execute run database).1 = .ok () →
        Applied act start migrations
          (migrate files execute run database).2) := by
  unfold migrate
  split
  · exact ⟨⟨count, applied⟩, fun returned => by cases returned⟩
  · split
    · exact ⟨⟨count, applied.bootstrap⟩, fun returned => by cases returned⟩
    · rw [embedded.loaded]
      simp only
      have current : database.bootstrap.current =
          latest 0 ((migrations.take count).map Migration.version) :=
        congrArg (latest 0) applied.versions
      have parts := List.take_append_drop count migrations
      have covered : ∀ migration ∈ migrations.take count,
          migration.version ≤
            latest 0 ((migrations.take count).map Migration.version) :=
        fun _ member => le_latest (List.mem_map_of_mem member)
      have confined : ∀ migration ∈ migrations.drop count,
          ∀ text ∈ migration.statements, Confined execute act text :=
        fun migration member =>
          embedded.confined migration (List.mem_of_mem_drop member)
      have skipped := @applyPending_skip _ _ execute run _ _ covered
        (migrations.drop count) database.bootstrap
      obtain ⟨⟨more, some⟩, all⟩ :=
        @applyPending_applied _ _ execute act start run _
          (migrations.drop count)
          (fun _ member => embedded.ascending.latest_take_lt count member)
          confined _ _ applied.bootstrap
      rw [parts] at skipped all
      rw [current, skipped]
      exact ⟨⟨count + more, by rwa [List.take_add]⟩, all⟩

/-- Whatever stops the runs, the migrations that were applied are a prefix of
all of them, and a run that returns no error has applied the rest. -/
theorem migrate_prefix
    (embedded : Embedded execute act files migrations) (start : Schema)
    (runs : List Circumstances) :
    migrations.Pairwise (fun first second => first.version < second.version) ∧
      (∃ count, Applied act start (migrations.take count)
        (migrateAll files execute runs (.fresh start))) ∧
      ∀ run, (migrate files execute run
          (migrateAll files execute runs (.fresh start))).1 = .ok () →
        Applied act start migrations (migrate files execute run
          (migrateAll files execute runs (.fresh start))).2 := by
  have reached : ∃ count, Applied act start (migrations.take count)
      (migrateAll files execute runs (.fresh start)) := by
    refine @Runs.invariant_of_run _ _ _ (fun database => ∃ count,
      Applied act start (migrations.take count) database) ?_ runs _
      ⟨0, applied_fresh act start⟩
    rintro database run ⟨count, applied⟩
    exact (migrate_applied embedded applied).1
  obtain ⟨count, applied⟩ := reached
  exact ⟨embedded.ascending.ordered, ⟨count, applied⟩,
    fun run => (migrate_applied embedded applied).2⟩
end Steps

/-- A schema that is the list of the statements it came from. -/
def logStatement (text : String) (schema : List String) :
    Except GoError (List String) := .ok (schema ++ [text])

/-- An execution on it, with the one statement that touches the ledger. -/
def logExecute : Execution (List String) := fun text database =>
  if text = "DELETE FROM schema_migrations" then
    .ok { database with recorded := database.recorded.map fun _ => [] }
  else
    (logStatement text database.schema).map fun schema =>
      { database with schema := schema }

theorem confined_logExecute {text : String}
    (harmless : text ≠ "DELETE FROM schema_migrations") :
    Confined logExecute logStatement text := by
  intro database
  rw [logExecute, if_neg harmless]

def undisturbed : Circumstances := ⟨none, none, fun _ => none, fun _ => 0, false⟩

def sampleMigrations : List Migration :=
  [⟨1, "001_initial.sql", ["CREATE TABLE users (id)"]⟩,
    ⟨2, "002_stats.sql", ["CREATE TABLE stats (id)", "CREATE INDEX days"]⟩]

def sampleFiles : List MigrationFile :=
  [⟨"001_initial.sql", "-- first\nCREATE TABLE users (id);\n"⟩,
    ⟨"002_stats.sql", "CREATE TABLE stats (id);\n\nCREATE INDEX days;\n"⟩]

theorem sampleFiles_embedded :
    @Embedded _ Build.dev logExecute logStatement sampleFiles
      sampleMigrations := by
  let _ := Build.dev
  refine ⟨loadMigrations_of_ordered (by decide +kernel) (by decide),
    by decide, by decide, ?_⟩
  have harmless : ∀ migration ∈ sampleMigrations,
      ∀ text ∈ migration.statements,
        text ≠ "DELETE FROM schema_migrations" := by decide
  intro migration member text listed
  exact confined_logExecute (harmless migration member text listed)

/-- The process dies at the second statement of the second migration. -/
def interrupted : Circumstances :=
  { undisturbed with
    applying := fun version =>
      if version = 2 then some (2, .crashed) else none }

/-- The run after a crash applies the rest. -/
theorem migrate_prefix_interrupted :
    Applied logStatement [] sampleMigrations
      (@migrate _ Build.dev sampleFiles logExecute undisturbed
        (@migrateAll _ Build.dev sampleFiles logExecute [interrupted]
          (.fresh []))).2 := by
  let _ := Build.dev
  obtain ⟨_, _, finished⟩ :=
    migrate_prefix sampleFiles_embedded [] [interrupted]
  apply finished undisturbed
  unfold migrateAll migrate
  rw [sampleFiles_embedded.loaded]
  decide +kernel

/-- A migration numbered zero counts as applied from the beginning, and one
that empties the ledger takes the earlier versions out of it. -/
theorem migrate_not_prefix :
    let _ := Build.dev
    (∃ files migrations, loadMigrations files = .ok migrations ∧
      (migrations.map Migration.version).Nodup ∧
      (∀ migration ∈ migrations, ∀ text ∈ migration.statements,
        Confined logExecute logStatement text) ∧
      (migrate files logExecute undisturbed (.fresh [])).1 = .ok () ∧
      ¬ (migrate files logExecute undisturbed (.fresh [])).2.versions <+:
        migrations.map Migration.version) ∧
    ∃ files migrations, loadMigrations files = .ok migrations ∧
      (migrations.map Migration.version).Nodup ∧
      (∀ migration ∈ migrations, 1 ≤ migration.version) ∧
      (migrate files logExecute undisturbed (.fresh [])).1 = .ok () ∧
      ¬ (migrate files logExecute undisturbed (.fresh [])).2.versions <+:
        migrations.map Migration.version := by
  let _ := Build.dev
  constructor
  · let migrations : List Migration :=
      [⟨0, "000_users.sql", ["CREATE TABLE users (id)"]⟩,
        ⟨1, "001_days.sql", ["CREATE TABLE days (id)"]⟩]
    let files : List MigrationFile :=
      [⟨"000_users.sql", "CREATE TABLE users (id)"⟩,
        ⟨"001_days.sql", "CREATE TABLE days (id)"⟩]
    have loaded : loadMigrations files = .ok migrations :=
      loadMigrations_of_ordered (by decide +kernel) (by decide)
    have harmless : ∀ migration ∈ migrations,
        ∀ text ∈ migration.statements,
          text ≠ "DELETE FROM schema_migrations" := by decide
    refine ⟨files, migrations, loaded, by decide, ?_, ?_, ?_⟩
    · intro migration member text listed
      exact confined_logExecute (harmless migration member text listed)
    · unfold migrate
      rw [loaded]
      decide +kernel
    · unfold migrate
      rw [loaded]
      decide +kernel
  · let migrations : List Migration :=
      [⟨1, "001_users.sql", ["CREATE TABLE users (id)"]⟩,
        ⟨2, "002_reset.sql", ["DELETE FROM schema_migrations"]⟩]
    let files : List MigrationFile :=
      [⟨"001_users.sql", "CREATE TABLE users (id)"⟩,
        ⟨"002_reset.sql", "DELETE FROM schema_migrations"⟩]
    have loaded : loadMigrations files = .ok migrations :=
      loadMigrations_of_ordered (by decide +kernel) (by decide)
    refine ⟨files, migrations, loaded, by decide, by decide, ?_, ?_⟩
    · unfold migrate
      rw [loaded]
      decide +kernel
    · unfold migrate
      rw [loaded]
      decide +kernel

end Xoxproxy.Migrations
