import Zentalk.Mesh.Shards

/-!
# Opening the local storage

The only migration does not create the table of chunks (`opened_works_iff`).
-/

namespace Zentalk.Mesh

open Wire Decimal Except

/-! ## The model -/

/-- A row of `schema_version`. -/
structure SchemaVersion where
  version : ℤ
  appliedAt : ℤ
  comment : Bytes

/-- A database file. A table that is not there is `none`; the rows of `schema_version` are in the
order of `ROWID`. -/
structure ChunksDb where
  chunks : Option LocalStorage
  schemaVersion : Option (List SchemaVersion)

def currentSchemaVersion : ℤ := 1

def minSchemaVersion : ℤ := 1

/-- `db.Exec` stops at the statement that fails, and those before it stay. -/
def exec (statements : List (ChunksDb → ChunksDb)) (failure : Option (ℕ × Bytes)) (db : ChunksDb) :
    ChunksDb × Except Bytes Unit :=
  match failure with
  | none => (statements.foldl (fun db statement => statement db) db, .ok ())
  | some (k, e) => ((statements.take k).foldl (fun db statement => statement db) db, .error e)

/-- What goes wrong in the two queries of `GetSchemaVersion`. -/
structure VersionEnv where
  checkErr : Option Bytes
  getErr : Option Bytes

def getSchemaVersion (env : VersionEnv) (db : ChunksDb) : Except Bytes ℤ :=
  match env.checkErr with
  | some e => .error (asciiBytes "failed to check schema_version table: " ++ e)
  | none =>
    match db.schemaVersion with
    | none => .ok 0
    | some rows =>
      match env.getErr with
      | some e => .error (asciiBytes "failed to get schema version: " ++ e)
      | none =>
        match rows.getLast? with
        | none => .ok 0
        | some row => .ok row.version

def needsMigration (env : VersionEnv) (db : ChunksDb) : Except Bytes (Bool × ℤ × ℤ) := do
  let currentVersion ← getSchemaVersion env db
  let targetVersion := currentSchemaVersion
  return (decide (currentVersion < targetVersion), currentVersion, targetVersion)

def setSchemaVersion (failure : Option Bytes) (now : ℤ) (version : ℤ) (comment : Bytes)
    (db : ChunksDb) : ChunksDb × Except Bytes Unit :=
  match failure, db.schemaVersion with
  | some e, _ => (db, .error (asciiBytes "failed to set schema version: " ++ e))
  | none, none =>
    (db, .error (asciiBytes "failed to set schema version: no such table: schema_version"))
  | none, some rows =>
    ({ db with schemaVersion := some (rows ++ [⟨version, now, comment⟩]) }, .ok ())

/-- `Migration`, without the way back. -/
structure Migration where
  version : ℤ
  description : Bytes
  up : Option (ℕ × Bytes) → ChunksDb → ChunksDb × Except Bytes Unit

def migration1Up (failure : Option (ℕ × Bytes)) (db : ChunksDb) : ChunksDb × Except Bytes Unit :=
  let createTable (db : ChunksDb) : ChunksDb :=
    { db with schemaVersion := some (db.schemaVersion.getD []) }
  let createIndex (db : ChunksDb) : ChunksDb := db
  match exec [createTable, createIndex] failure db with
  | (db, .error e) => (db, .error (asciiBytes "failed to create schema_version table: " ++ e))
  | (db, .ok ()) => (db, .ok ())

def migrations : List Migration :=
  [⟨1, asciiBytes "Initial schema with version tracking", migration1Up⟩]

/-- What goes wrong in one migration, and the time at its end. -/
structure MigrationEnv where
  upErr : Option (ℕ × Bytes)
  setErr : Option Bytes
  now : ℤ

/-- One round of the loop of `RunMigrations`. -/
def runMigration (env : MigrationEnv) (backupPath : Bytes) (migration : Migration)
    (db : ChunksDb) : ChunksDb × Except Bytes Unit :=
  match migration.up env.upErr db with
  | (db, .error e) =>
    (db, .error (asciiBytes "migration " ++ decimal migration.version ++ asciiBytes " failed: " ++
      e ++ asciiBytes " (backup available at " ++ backupPath ++ asciiBytes ")"))
  | (db, .ok ()) =>
    match setSchemaVersion env.setErr env.now migration.version migration.description db with
    | (db, .error e) =>
      (db, .error (asciiBytes "failed to record migration " ++ decimal migration.version ++
        asciiBytes ": " ++ e))
    | (db, .ok ()) => (db, .ok ())

/-- The loop of `RunMigrations`. -/
def runPending (env : ℤ → MigrationEnv) (backupPath : Bytes) (currentVersion : ℤ) :
    List Migration → ChunksDb → ChunksDb × Except Bytes Unit
  | [], db => (db, .ok ())
  | migration :: rest, db =>
    if migration.version ≤ currentVersion then
      runPending env backupPath currentVersion rest db
    else if migration.version > currentSchemaVersion then (db, .ok ())
    else
      match runMigration (env migration.version) backupPath migration db with
      | (db, .error e) => (db, .error e)
      | (db, .ok ()) => runPending env backupPath currentVersion rest db

/-- What `RunMigrations` meets: the result of `createBackup` is the path of the backup. -/
structure RunEnv where
  version : VersionEnv
  backup : Except Bytes Bytes
  migration : ℤ → MigrationEnv

def runMigrations (env : RunEnv) (db : ChunksDb) : ChunksDb × Except Bytes Unit :=
  match getSchemaVersion env.version db with
  | .error e => (db, .error (asciiBytes "failed to get current schema version: " ++ e))
  | .ok currentVersion =>
    if currentVersion = currentSchemaVersion then (db, .ok ())
    else if currentVersion > currentSchemaVersion then
      (db, .error (asciiBytes "database schema version (" ++ decimal currentVersion ++
        asciiBytes ") is newer than supported version (" ++ decimal currentSchemaVersion ++
        asciiBytes ") - please upgrade software"))
    else
      match env.backup with
      | .error e => (db, .error (asciiBytes "failed to create backup: " ++ e))
      | .ok backupPath => runPending env.migration backupPath currentVersion migrations db

/-- The tables that `ValidateSchema` requires. -/
inductive Table where
  | chunks
  | schemaVersion

namespace Table

/-- `requiredTables`. -/
def required : List Table := [chunks, schemaVersion]

def name : Table → Bytes
  | chunks => asciiBytes "chunks"
  | schemaVersion => asciiBytes "schema_version"

def isIn (db : ChunksDb) : Table → Bool
  | chunks => db.chunks.isSome
  | schemaVersion => db.schemaVersion.isSome

end Table

/-- What goes wrong in the queries of `ValidateSchema`. -/
structure ValidateEnv where
  version : VersionEnv
  tableErr : Table → Option Bytes

/-- The loop of `ValidateSchema`. -/
def checkTables (tableErr : Table → Option Bytes) (db : ChunksDb) : List Table → Except Bytes Unit
  | [] => .ok ()
  | table :: rest =>
    match tableErr table with
    | some e =>
      .error (asciiBytes "failed to check table " ++ table.name ++ asciiBytes ": " ++ e)
    | none =>
      if table.isIn db then checkTables tableErr db rest
      else .error (asciiBytes "required table missing: " ++ table.name)

def validateSchema (env : ValidateEnv) (db : ChunksDb) : Except Bytes Unit := do
  let version ← getSchemaVersion env.version db
  if version < minSchemaVersion then
    .error (asciiBytes "schema version " ++ decimal version ++
      asciiBytes " is too old (minimum: " ++ decimal minSchemaVersion ++
      asciiBytes ") - migration required")
  else if version > currentSchemaVersion then
    .error (asciiBytes "schema version " ++ decimal version ++
      asciiBytes " is too new (current: " ++ decimal currentSchemaVersion ++
      asciiBytes ") - software upgrade required")
  else checkTables env.tableErr db Table.required

/-- What `NewLocalStorage` meets. -/
structure StartEnv where
  mkdirErr : Option Bytes
  openErr : Option Bytes
  schemaErr : Option (ℕ × Bytes)
  needs : VersionEnv
  run : RunEnv
  validate : ValidateEnv

/-- A database file of `sqlite3` on which nothing was executed. -/
def ChunksDb.empty : ChunksDb := ⟨none, none⟩

def initialSchema : List (ChunksDb → ChunksDb) :=
  [fun db => { db with chunks := some (db.chunks.getD .empty) }, id, id]

/-- `NewLocalStorage`, with the database file before and after it. -/
def newLocalStorage (env : StartEnv) (disk : Option ChunksDb) :
    Option ChunksDb × Except Bytes Unit :=
  match env.mkdirErr, env.openErr, disk with
  | some e, _, _ => (disk, .error (asciiBytes "failed to create data directory: " ++ e))
  | none, some e, _ => (disk, .error (asciiBytes "failed to open database: " ++ e))
  | none, none, none =>
    match exec initialSchema env.schemaErr .empty with
    | (db, .error e) => (some db, .error (asciiBytes "failed to create schema: " ++ e))
    | (db, .ok ()) =>
      match runMigrations env.run db with
      | (db, .error e) =>
        (some db, .error (asciiBytes "failed to initialize schema version: " ++ e))
      | (db, .ok ()) => (some db, .ok ())
  | none, none, some db =>
    match needsMigration env.needs db with
    | .error e => (some db, .error (asciiBytes "failed to check migration status: " ++ e))
    | .ok (true, _, _) =>
      match runMigrations env.run db with
      | (db, .error e) => (some db, .error (asciiBytes "failed to run migrations: " ++ e))
      | (db, .ok ()) => (some db, .ok ())
    | .ok (false, _, _) =>
      match validateSchema env.validate db with
      | .error e => (some db, .error (asciiBytes "schema validation failed: " ++ e))
      | .ok () => (some db, .ok ())

namespace ChunksDb

/-- `StoreChunk` on a database, which need not have the table. -/
def storeChunk (db : ChunksDb) (userAddr : Bytes) (chunkID : ℤ) (data : Bytes) :
    Except Bytes ChunksDb :=
  match db.chunks with
  | some table => do return { db with chunks := some (← table.storeChunk userAddr chunkID data) }
  | none =>
    if data = [] then .error (asciiBytes "cannot store empty chunk")
    else .error (asciiBytes "failed to store chunk: no such table: chunks")

/-- `GetChunk` on a database. -/
def getChunk (db : ChunksDb) (userAddr : Bytes) (chunkID : ℤ) : Except Bytes Bytes :=
  match db.chunks with
  | some table => table.getChunk userAddr chunkID
  | none => .error (asciiBytes "failed to retrieve chunk: no such table: chunks")

def version (db : ChunksDb) : ℤ :=
  match db.schemaVersion with
  | none => 0
  | some rows =>
    match rows.getLast? with
    | none => 0
    | some row => row.version

end ChunksDb

/-! ## Environments without failures -/

def VersionEnv.quiet : VersionEnv := ⟨none, none⟩

def ValidateEnv.quiet : ValidateEnv := ⟨.quiet, fun _ => none⟩

def StartEnv.quiet : StartEnv where
  mkdirErr := none
  openErr := none
  schemaErr := none
  needs := .quiet
  run := ⟨.quiet, .ok (asciiBytes "data.backup"), fun _ => ⟨none, none, 0⟩⟩
  validate := .quiet

/-- A storage works: its schema is valid, and what is stored can be read back. -/
structure ChunksDb.Works (db : ChunksDb) : Prop where
  valid : validateSchema .quiet db = .ok ()
  stores : ∀ userAddr chunkID data, data ≠ [] → ∃ db',
    db.storeChunk userAddr chunkID data = .ok db' ∧ db'.getChunk userAddr chunkID = .ok data

/-! ## Validation -/

variable {db db' : ChunksDb} {env : VersionEnv}

theorem version_of_ok {v : ℤ} (h : getSchemaVersion env db = .ok v) : db.version = v := by
  unfold getSchemaVersion at h
  unfold ChunksDb.version
  split at h
  · cases h
  · split at h
    · exact ok.inj h
    · split at h
      · cases h
      · split at h
        · exact ok.inj h
        · exact ok.inj h

theorem getSchemaVersion_quiet (db : ChunksDb) : getSchemaVersion .quiet db = .ok db.version := by
  unfold getSchemaVersion ChunksDb.version VersionEnv.quiet
  dsimp only
  split
  · rfl
  · split
    · rfl
    · rfl

theorem schemaVersion_isSome (h : db.version = currentSchemaVersion) : db.schemaVersion.isSome := by
  cases hrows : db.schemaVersion with
  | none => simp [ChunksDb.version, hrows, currentSchemaVersion] at h
  | some rows => rfl

theorem isIn_of_checkTables {tableErr : Table → Option Bytes} {tables : List Table}
    (h : checkTables tableErr db tables = .ok ()) : ∀ table ∈ tables, table.isIn db := by
  induction tables with
  | nil => exact fun _ hmem => absurd hmem List.not_mem_nil
  | cons table rest ih =>
    unfold checkTables at h
    split at h
    · cases h
    · split at h
      · next hin => exact List.forall_mem_cons.mpr ⟨hin, ih h⟩
      · cases h

theorem validateSchema_ok {env : ValidateEnv} (h : validateSchema env db = .ok ()) :
    db.version = currentSchemaVersion ∧ db.chunks.isSome := by
  unfold validateSchema at h
  cases hversion : getSchemaVersion env.version db with
  | error e => rw [hversion] at h; cases h
  | ok version =>
    rw [hversion] at h
    simp only [bind, Except.bind] at h
    split at h
    · cases h
    · next hmin =>
      split at h
      · cases h
      · next hmax =>
        have hin := isIn_of_checkTables h .chunks (by simp [Table.required])
        refine ⟨(version_of_ok hversion).trans ?_, hin⟩
        unfold minSchemaVersion at hmin
        unfold currentSchemaVersion at hmax ⊢
        omega

theorem works_of_version (hversion : db.version = currentSchemaVersion)
    (hchunks : db.chunks.isSome) : db.Works where
  valid := by
    have hget : getSchemaVersion ValidateEnv.quiet.version db = .ok currentSchemaVersion :=
      hversion ▸ getSchemaVersion_quiet db
    have htables : checkTables ValidateEnv.quiet.tableErr db Table.required = .ok () := by
      simp [checkTables, Table.required, Table.isIn, ValidateEnv.quiet, hchunks,
        schemaVersion_isSome hversion]
    rw [validateSchema, hget]
    exact htables
  stores userAddr chunkID data hdata := by
    obtain ⟨table, htable⟩ := Option.isSome_iff_exists.mp hchunks
    obtain ⟨table', hstore, hrows⟩ := storeChunk_ok table userAddr chunkID hdata
    refine ⟨{ db with chunks := some table' }, ?_, ?_⟩
    · rw [ChunksDb.storeChunk, htable]
      dsimp only
      rw [hstore]
      rfl
    · rw [ChunksDb.getChunk]
      dsimp only
      rw [LocalStorage.getChunk, hrows, if_pos rfl]

/-! ## Migration -/

theorem runMigration_ok {env : MigrationEnv} {backupPath : Bytes} {migration : Migration}
    (h : runMigration env backupPath migration db = (db', .ok ())) :
    ∃ db₁, migration.up env.upErr db = (db₁, .ok ()) ∧ db'.chunks = db₁.chunks ∧
      db'.version = migration.version := by
  unfold runMigration at h
  split at h
  · cases h
  · next db₁ hup =>
    refine ⟨db₁, hup, ?_⟩
    split at h
    · cases h
    · next db₂ hset =>
      obtain rfl : db₂ = db' := congrArg Prod.fst h
      unfold setSchemaVersion at hset
      split at hset
      · cases hset
      · cases hset
      · next rows hrows =>
        cases hset
        exact ⟨rfl, by simp [ChunksDb.version]⟩

variable {failure : Option (ℕ × Bytes)}

theorem chunks_migration1Up (h : migration1Up failure db = (db', .ok ())) :
    db'.chunks = db.chunks := by
  cases failure with
  | none => cases h; rfl
  | some f => cases h

theorem runMigrations_ok {env : RunEnv} (h : runMigrations env db = (db', .ok ())) :
    db'.chunks = db.chunks ∧ db'.version = currentSchemaVersion := by
  unfold runMigrations at h
  cases hversion : getSchemaVersion env.version db with
  | error e => rw [hversion] at h; cases h
  | ok currentVersion =>
    rw [hversion] at h
    dsimp only at h
    split at h
    · next hcurrent =>
      obtain rfl : db = db' := congrArg Prod.fst h
      exact ⟨rfl, (version_of_ok hversion).trans hcurrent⟩
    · next hne =>
      split at h
      · cases h
      · next hle =>
        split at h
        · cases h
        · next backupPath _ =>
          have hold : ¬ (1 : ℤ) ≤ currentVersion := by
            unfold currentSchemaVersion at hne hle
            omega
          rw [migrations, runPending, if_neg hold, if_neg (by decide)] at h
          split at h
          · cases h
          · next db₁ hrun =>
            obtain rfl : db₁ = db' := congrArg Prod.fst h
            obtain ⟨db₂, hup, hchunks, hrecorded⟩ := runMigration_ok hrun
            exact ⟨hchunks.trans (chunks_migration1Up hup), hrecorded⟩

theorem runMigrations_quiet (h : db.version < currentSchemaVersion) :
    ∃ db', runMigrations StartEnv.quiet.run db = (db', .ok ()) := by
  have hold : ¬ (1 : ℤ) ≤ db.version := not_le.mpr h
  have hversion : getSchemaVersion StartEnv.quiet.run.version db = .ok db.version :=
    getSchemaVersion_quiet db
  rw [runMigrations, hversion]
  dsimp only
  rw [if_neg h.ne, if_neg h.not_gt]
  simp only [StartEnv.quiet, migrations, runPending, if_neg hold]
  exact ⟨_, rfl⟩

/-! ## Opening -/

theorem chunks_initialSchema (h : exec initialSchema failure .empty = (db, .ok ())) :
    db.chunks.isSome := by
  cases failure with
  | none => cases h; rfl
  | some f => cases h

theorem needsMigration_of_ok {v : ℤ} (h : getSchemaVersion env db = .ok v) :
    needsMigration env db =
      .ok (decide (v < currentSchemaVersion), v, currentSchemaVersion) := by
  rw [needsMigration, h]
  rfl

theorem old_of_needsMigration {v target : ℤ} (h : needsMigration env db = .ok (true, v, target)) :
    db.version < currentSchemaVersion := by
  cases hversion : getSchemaVersion env db with
  | error e => rw [needsMigration, hversion] at h; cases h
  | ok v' =>
    rw [needsMigration_of_ok hversion] at h
    rw [version_of_ok hversion]
    exact of_decide_eq_true (congrArg Prod.fst (ok.inj h))

/-- A storage that was opened: how its database came about. -/
theorem newLocalStorage_ok {env : StartEnv} {disk disk' : Option ChunksDb}
    (h : newLocalStorage env disk = (disk', .ok ())) :
    ∃ db', disk' = some db' ∧ db'.version = currentSchemaVersion ∧
      (disk = none ∧ db'.chunks.isSome ∨
        ∃ db, disk = some db ∧ (db.version < currentSchemaVersion ∨ db.chunks.isSome) ∧
          db'.chunks = db.chunks) := by
  unfold newLocalStorage at h
  split at h
  · cases h
  · cases h
  · split at h
    · cases h
    · next db hschema =>
      split at h
      · cases h
      · next db' hrun =>
        cases h
        obtain ⟨hchunks, hversion⟩ := runMigrations_ok hrun
        exact ⟨db', rfl, hversion, .inl ⟨rfl, hchunks ▸ chunks_initialSchema hschema⟩⟩
  · next db _ _ =>
    split at h
    · cases h
    · next hneeds =>
      split at h
      · cases h
      · next db' hrun =>
        cases h
        obtain ⟨hchunks, hversion⟩ := runMigrations_ok hrun
        exact ⟨db', rfl, hversion, .inr ⟨db, rfl, .inl (old_of_needsMigration hneeds), hchunks⟩⟩
    · split at h
      · cases h
      · next hvalid =>
        cases h
        obtain ⟨hversion, hchunks⟩ := validateSchema_ok hvalid
        exact ⟨db, rfl, hversion, .inr ⟨db, rfl, .inr hchunks, rfl⟩⟩

/-- An old database is opened when nothing fails. -/
theorem newLocalStorage_old (h : db.version < currentSchemaVersion) :
    ∃ db', newLocalStorage .quiet (some db) = (some db', .ok ()) ∧ db'.chunks = db.chunks := by
  obtain ⟨db', hrun⟩ := runMigrations_quiet h
  refine ⟨db', ?_, (runMigrations_ok hrun).1⟩
  have hneeds : needsMigration .quiet db =
      .ok (true, db.version, currentSchemaVersion) := by
    rw [needsMigration_of_ok (getSchemaVersion_quiet db), decide_eq_true h]
  unfold newLocalStorage
  simp only [StartEnv.quiet] at hrun ⊢
  rw [hneeds]
  rw [hrun]

theorem opened_works_iff (disk : Option ChunksDb) :
    (∀ env disk', newLocalStorage env disk = (disk', .ok ()) → ∃ db, disk' = some db ∧ db.Works) ↔
      ∀ db, disk = some db → db.chunks.isSome ∨ currentSchemaVersion ≤ db.version := by
  constructor
  · intro hworks db hdisk
    rw [or_iff_not_imp_right]
    intro hold
    obtain ⟨db', hopen, hchunks⟩ := newLocalStorage_old (not_le.mp hold)
    obtain ⟨_, heq, hdb'⟩ := hworks _ _ (hdisk ▸ hopen)
    obtain rfl := Option.some.inj heq
    rw [← hchunks]
    exact (validateSchema_ok hdb'.valid).2
  · intro hdisk env disk' hopen
    obtain ⟨db', rfl, hversion, hfrom⟩ := newLocalStorage_ok hopen
    refine ⟨db', rfl, works_of_version hversion ?_⟩
    rcases hfrom with ⟨-, hchunks⟩ | ⟨db, hdb, hbefore, hchunks⟩
    · exact hchunks
    · rw [hchunks]
      rcases hdisk db hdb with hchunks | hversion
      · exact hchunks
      · exact hbefore.resolve_left (not_lt.mpr hversion)

/-- A first start that cannot create its tables leaves an empty file, which the next one opens. -/
theorem unusable_storage :
    (newLocalStorage { StartEnv.quiet with
        schemaErr := some (0, asciiBytes "database or disk is full") } none).1 = some .empty ∧
    ∃ db, newLocalStorage .quiet (some .empty) = (some db, .ok ()) ∧
      validateSchema .quiet db = .error (asciiBytes "required table missing: chunks") ∧
      db.storeChunk (asciiBytes "u") 1 [7] =
        .error (asciiBytes "failed to store chunk: no such table: chunks") ∧
      db.getChunk (asciiBytes "u") 1 =
        .error (asciiBytes "failed to retrieve chunk: no such table: chunks") :=
  ⟨rfl, _, rfl, rfl, rfl, rfl⟩

end Zentalk.Mesh
