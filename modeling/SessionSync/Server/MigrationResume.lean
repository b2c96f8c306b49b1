import SessionSync.Server.Migration

set_option autoImplicit false

namespace SessionSync.Metadata

open Checked Prog Tables

-- What holds wherever a run of the migration is cut off.
def Held (start seen : Database) : Prop := start.Keeps seen ∧ Begun seen

theorem safe_execute (statement : Statement) (start : Database) (post : Except InitializeError Unit → Database → Prop) (db : Database)
    (here : Held start db) (runs : ∀ after, statement.run db = .ok after → Held start after ∧ post (.ok ()) after)
    (fails : ∀ error, statement.run db = .error error → post (.error (.sqlite error)) db) :
    (execute statement).Safe (Held start) post db := by
  refine safe_transact _ _ _ here (fun value after run => ?_) (fun error run => ?_)
  · cases outcome : statement.run db with
    | error error =>
        rw [outcome] at run
        cases run
    | ok middle =>
        rw [outcome] at run
        cases run
        exact runs after outcome
  · cases outcome : statement.run db with
    | error error =>
        rw [outcome] at run
        cases run
        exact fails _ outcome
    | ok middle =>
        rw [outcome] at run
        cases run

theorem has_here (db : Database) (name column : String) (table : Table) (here : db.tables[name]? = some table) :
    db.Has name column ↔ column ∈ table.names := by
  rw [Database.Has, here]
  exact ⟨fun ⟨_, same, member⟩ => Option.some.inj same ▸ member, fun member => ⟨table, rfl, member⟩⟩

theorem begun_added (db : Database) (name : String) (column : Column) (fallback : Cell) (table : Table)
    (here : db.tables[name]? = some table) (begun : Begun db) : Begun (db.withTable name (table.addColumn column fallback)) := by
  have kept : db.Keeps (db.withTable name (table.addColumn column fallback)) := keeps_with db name _ fun old there => by
    cases here.symm.trans there
    exact extends_added table column fallback
  refine ⟨begun.known, fun low high => ?_, fun definition member other there label inside settled => ?_⟩
  · obtain ⟨⟨first, one⟩, second, two⟩ := begun.altered low high
    obtain ⟨grown, later, _⟩ := kept _ first one
    obtain ⟨grown', later', _⟩ := kept _ second two
    exact ⟨⟨grown, later⟩, grown', later'⟩
  · by_cases same : name = definition.name
    · have names := begun.complete definition member table (same ▸ here) label inside settled
      rw [same, Database.withTable, Std.ExtTreeMap.getElem?_insert_self] at there
      cases there
      rw [names_added]
      exact List.mem_append_left _ names
    · rw [Database.withTable, Std.ExtTreeMap.getElem?_insert, if_neg (by simpa using same)] at there
      exact begun.complete definition member other there label inside settled

-- How far this run has come: the columns it has added to the database it began on.
structure Reached (start first : Database) (added : List (String × String)) (db : Database) : Prop where
  held : Held start db
  version : db.userVersion = first.userVersion
  has : ∀ table column, db.Has table column ↔ first.Has table column ∨ (table, column) ∈ added

def altered (start first : Database) (added : List (String × String)) (name column : String) :
    Except InitializeError Unit → Database → Prop
  | .ok _, after => ¬ first.Has name column ∧ Reached start first ((name, column) :: added) after
  | .error _, _ => first.Has name column

theorem safe_alter (start first : Database) (added : List (String × String)) (name : String) (column : Column) (fallback : Cell)
    (db : Database) (reached : Reached start first added db) (there : ∃ table, db.tables[name]? = some table)
    (fresh : (name, column.name) ∉ added) :
    (execute (.addColumn name column fallback)).Safe (Held start) (altered start first added name column.name) db := by
  obtain ⟨table, here⟩ := there
  have known : column.name ∈ table.names ↔ first.Has name column.name :=
    (has_here db name column.name table here).symm.trans ((reached.has name column.name).trans (or_iff_left fresh))
  refine safe_execute _ _ _ _ reached.held (fun after run => ?_) (fun error run => ?_)
  · have kept := keeps_trans _ _ _ reached.held.1 (run_keeps _ _ _ run)
    rw [add_column_run db name column fallback table here] at run
    by_cases member : column.name ∈ table.names
    · rw [if_pos member] at run
      cases run
    · rw [if_neg member] at run
      cases run
      have held : Held start (db.withTable name (table.addColumn column fallback)) :=
        ⟨kept, begun_added db name column fallback table here reached.held.2⟩
      refine ⟨held, mt known.mpr member, held, reached.version, fun other label => ?_⟩
      rw [has_added db name column fallback table here, reached.has, List.mem_cons, Prod.mk.injEq, or_assoc, or_comm (a := _ ∧ _)]
  · rw [add_column_run db name column fallback table here] at run
    by_cases member : column.name ∈ table.names
    · exact known.mp member
    · rw [if_neg member] at run
      cases run

theorem safe_asked {α : Type} (start : Database) (look : Database → α) (next : α → Prog Database InitializeError Unit)
    (post : Except InitializeError Unit → Database → Prop) (db : Database) (here : Held start db)
    (later : (next (look db)).Safe (Held start) post db) : (query look >>= next).Safe (Held start) post db := ⟨here, later⟩

theorem table_info (db : Database) (name column : String) : column ∈ tableInfo name db ↔ db.Has name column := by
  cases here : db.tables[name]? with
  | none => simp [tableInfo, Database.Has, here]
  | some table => simp [tableInfo, Database.Has, here]

theorem there_has (db : Database) (name column : String) (here : db.Has name column) : ∃ table, db.tables[name]? = some table :=
  here.imp fun _ known => known.1

theorem reached_again (start db : Database) (held : Held start db) : Reached start db [] db :=
  ⟨held, rfl, fun _ _ => ⟨.inl, fun known => known.elim id (fun member => absurd member List.not_mem_nil)⟩⟩

-- A column that is added where it is missing: nothing can go wrong.
def dueAdded (start first : Database) (added : List (String × String)) (name column : String) :
    Except InitializeError Unit → Database → Prop
  | .ok _, after => after.Has name column ∧ ∃ more, (more = added ∨ more = (name, column) :: added) ∧ Reached start first more after
  | .error _, _ => False

theorem safe_due (start first : Database) (added : List (String × String)) (name : String) (column : Column) (fallback : Cell)
    (db : Database) (reached : Reached start first added db) (there : ∃ table, db.tables[name]? = some table)
    (fresh : (name, column.name) ∉ added) :
    (when (column.name ∉ tableInfo name first) (execute (.addColumn name column fallback))).Safe (Held start)
      (dueAdded start first added name column.name) db := by
  by_cases due : column.name ∉ tableInfo name first
  · rw [when, if_pos due]
    refine safe_mono _ _ _ _ (fun outcome after _ done => ?_)
      (safe_alter start first added name column fallback db reached there fresh)
    rw [table_info] at due
    cases outcome with
    | error error => exact due done
    | ok _ => exact ⟨(done.2.has _ _).mpr (.inr List.mem_cons_self), _, .inr rfl, done.2⟩
  · rw [when, if_neg due]
    rw [not_not, table_info] at due
    exact safe_pure _ _ _ reached.held ⟨(reached.has _ _).mpr (.inl due), added, .inl rfl, reached⟩

theorem due_kept (start first before after : Database) (added more : List (String × String))
    (known : Reached start first added before) (later : Reached start first more after) (grows : ∀ pair ∈ added, pair ∈ more)
    (name column : String) (here : before.Has name column) :
    after.Has name column :=
  (later.has name column).mpr (((known.has name column).mp here).imp_right (grows _))

-- The columns of the collector's queue are the last ones that a database can lack.
def gcAdded (start first : Database) : Except InitializeError Unit → Database → Prop
  | .ok _, after => (∃ added, Reached start first added after) ∧ after.Has "gc_queue" "delete_after_quarantine" ∧
      after.Has "gc_queue" "purged_at"
  | .error _, _ => False

theorem safe_gc_columns (start db : Database) (held : Held start db) (there : ∃ table, db.tables["gc_queue"]? = some table) :
    addGcColumns.Safe (Held start) (gcAdded start db) db := by
  refine safe_asked start (tableInfo "gc_queue") _ _ db held (safe_bind _ _ _ _ ?_)
  refine safe_mono _ _ _ _ (fun outcome middle _ done => ?_) (safe_due start db [] "gc_queue"
    ⟨"delete_after_quarantine", "INTEGER NOT NULL DEFAULT 0"⟩ (.integer 0) db (reached_again start db held) there List.not_mem_nil)
  cases outcome with
  | error error => exact done
  | ok _ =>
      obtain ⟨has, added, shape, reached⟩ := done
      have fresh : ("gc_queue", "purged_at") ∉ added := by
        rcases shape with rfl | rfl <;> simp
      refine safe_mono _ _ _ _ (fun outcome after _ last => ?_)
        (safe_due start db added "gc_queue" ⟨"purged_at", "TEXT"⟩ .null middle reached (there_has _ _ _ has) fresh)
      cases outcome with
      | error error => exact last
      | ok _ =>
          obtain ⟨purged, more, bigger, later⟩ := last
          have grows : ∀ pair ∈ added, pair ∈ more := by
            rcases bigger with rfl | rfl
            · exact fun pair member => member
            · exact fun pair member => List.mem_cons_of_mem _ member
          exact ⟨⟨more, later⟩, due_kept start db middle after added more reached later grows _ _ has, purged⟩

-- Every table that is there has all of its columns.
def Whole (db : Database) : Prop := Complete db fun _ _ => True

theorem ready_whole (db : Database) (begun : Begun db)
    (ready : ∀ late ∈ lateColumns, 1 ≤ db.userVersion → db.userVersion < late.1 → (∃ table, db.tables[late.2.1]? = some table) →
      db.Has late.2.1 late.2.2) : Whole db := by
  intro definition member table here column inside _
  by_cases settled : Settled db.userVersion definition.name column.name
  · exact begun.complete definition member table here column inside settled
  · simp only [Settled, not_or, not_forall, Int.not_le] at settled
    obtain ⟨versioned, late, among, names, newer⟩ := settled
    have known := begun.known.1
    have has := ready late among (by omega) newer ⟨table, by rw [names, here]⟩
    rw [names] at has
    exact (has_here db _ _ table here).mp has

theorem batch_run (db : Database) (whole : Whole db) : ∃ after, runAll schemaBatch db = .ok after ∧ Current after := by
  obtain ⟨created, makes, made⟩ := create_all currentTables (by decide) db
  have tables : ∀ definition ∈ currentTables, ∃ table, created.tables[definition.name]? = some table ∧
      ∀ column ∈ definition.columns, column.name ∈ table.names := by
    intro definition member
    rw [made.defined definition member]
    cases here : db.tables[definition.name]? with
    | none => exact ⟨_, rfl, fun column inside => List.mem_map_of_mem inside⟩
    | some table => exact ⟨table, rfl, fun column inside => whole definition member table here column inside trivial⟩
  have owned : ∀ index ∈ currentIndexes, ∃ table, created.tables[index.2.table]? = some table ∧
      ∀ column ∈ index.2.columns, column ∈ table.names := by
    intro index member
    obtain ⟨definition, among, name, columns⟩ : ∃ definition ∈ currentTables, definition.name = index.2.table ∧
        ∀ column ∈ index.2.columns, column ∈ definition.columns.map Column.name := by
      revert index
      decide
    obtain ⟨table, here, complete⟩ := tables definition among
    refine ⟨table, name ▸ here, fun column inside => ?_⟩
    obtain ⟨declared, among, rfl⟩ := List.mem_map.mp (columns column inside)
    exact complete declared among
  obtain ⟨indexed, defines, defined⟩ := index_all currentIndexes created owned
  refine ⟨{ indexed with userVersion := metadataSchemaVersion }, ?_, rfl, fun definition member => ?_, defined.defined⟩
  · rw [schemaBatch, run_all_append, run_all_append, makes]
    change (runAll (currentIndexes.map defineIndex) created >>= _) = _
    rw [defines]
    rfl
  · rw [defined.tables]
    exact tables definition member

theorem current_begun (db : Database) (current : Current db) : Begun db := by
  refine ⟨by rw [current.version]; decide, fun _ low => ?_, fun definition member table here column inside _ => ?_⟩
  · rw [current.version] at low
    exact absurd low (by decide)
  · obtain ⟨other, there, columns⟩ := current.tables definition member
    cases here.symm.trans there
    exact columns column inside

def Ended (start first : Database) : Except InitializeError Unit → Database → Prop
  | .ok _, after => ¬ Halfway first ∧ Current after ∧ start.Keeps after
  | .error _, _ => Halfway first

theorem safe_batch (start first db : Database) (held : Held start db) (sound : ¬ Halfway first) (whole : Whole db) :
    (executeBatch schemaBatch).Safe (Held start) (Ended start first) db := by
  obtain ⟨after, run, current⟩ := batch_run db whole
  have kept := keeps_trans _ _ _ held.1 (run_all_keeps _ _ _ run)
  refine safe_transact _ _ _ held (fun value seen commits => ?_) (fun error refuses => ?_)
  · rw [run] at commits
    cases commits
    exact ⟨⟨kept, current_begun after current⟩, sound, current, kept⟩
  · rw [run] at refuses
    cases refuses

-- What is left of the migration goes through once the columns of the first tables are there.
theorem safe_finish (start first db : Database) (held : Held start db) (sound : ¬ Halfway first)
    (epoch : 1 ≤ db.userVersion → db.userVersion ≤ 2 → db.Has "namespaces" "namespace_epoch")
    (trash : 1 ≤ db.userVersion → db.userVersion ≤ 3 → db.Has "revisions" "state" ∧ db.Has "revisions" "trash_operation_id") :
    (finishMigration db.userVersion).Safe (Held start) (Ended start first) db := by
  refine safe_asked start (tableExists "gc_queue") _ _ db held (safe_bind _ _ _ _ ?_)
  have ready : ∀ after, Held start after → after.userVersion = db.userVersion →
    (∀ table column, db.Has table column → after.Has table column) →
      (after.userVersion < 6 → (∃ table, after.tables["gc_queue"]? = some table) → after.Has "gc_queue" "delete_after_quarantine" ∧
        after.Has "gc_queue" "purged_at") → (executeBatch schemaBatch).Safe (Held start) (Ended start first) after := by
    intro after kept version grows gc
    refine safe_batch start first after kept sound (ready_whole after kept.2 fun late member low newer there => ?_)
    simp only [lateColumns, List.mem_cons, List.not_mem_nil, or_false] at member
    rw [version] at low newer gc
    rcases member with rfl | rfl | rfl | rfl | rfl
    · exact grows _ _ (epoch low (by simpa using Int.le_of_lt_add_one newer))
    · exact grows _ _ (trash low (by simpa using Int.le_of_lt_add_one newer)).1
    · exact grows _ _ (trash low (by simpa using Int.le_of_lt_add_one newer)).2
    · exact (gc newer there).1
    · exact (gc newer there).2
  by_cases due : db.userVersion < 6 ∧ tableExists "gc_queue" db = true
  · rw [when, if_pos due]
    have there : ∃ table, db.tables["gc_queue"]? = some table := by
      rw [← Option.isSome_iff_exists, ← Std.ExtTreeMap.contains_eq_isSome_getElem?]
      exact due.2
    refine safe_mono _ _ _ _ (fun outcome after _ done => ?_) (safe_gc_columns start db held there)
    cases outcome with
    | error error => exact done.elim
    | ok _ =>
        obtain ⟨⟨added, reached⟩, columns⟩ := done
        exact ready after reached.held reached.version (fun table column here => (reached.has table column).mpr (.inl here))
          fun _ _ => columns
  · rw [when, if_neg due]
    refine safe_pure _ _ _ held (ready db held rfl (fun _ _ here => here) fun below there => absurd ⟨below, ?_⟩ due)
    rw [tableExists, Std.ExtTreeMap.contains_eq_isSome_getElem?, Option.isSome_iff_exists]
    exact there

theorem safe_migration (start db : Database) (held : Held start db) : initializeMetadata.Safe (Held start) (Ended start db) db := by
  refine safe_asked start Database.userVersion _ _ db held ?_
  rw [ensure, if_pos held.2.known.2]
  change (when _ _ >>= _).Safe _ _ _
  have again := reached_again start db held
  -- The trash columns of the revisions, after what came before them.
  have rest : ∀ added middle, Reached start db added middle → ("revisions", "state") ∉ added →
    ("revisions", "trash_operation_id") ∉ added →
      (1 ≤ db.userVersion → db.userVersion ≤ 2 → ¬ db.Has "namespaces" "namespace_epoch" ∧
        middle.Has "namespaces" "namespace_epoch") →
      1 ≤ db.userVersion → db.userVersion ≤ 3 →
      ((addRevisionState >>= fun _ => addTrashOperation) >>= fun _ => finishMigration db.userVersion).Safe (Held start)
        (Ended start db) middle := by
    intro added middle reached noState noTrash epoch low high
    have there := (reached.held.2.altered (by rw [reached.version]; exact low) (by rw [reached.version]; exact high)).2
    refine safe_bind _ _ _ _ (safe_bind _ _ _ _ (safe_mono _ _ _ _ (fun outcome second _ done => ?_)
      (safe_alter start db added "revisions" ⟨"state", "TEXT NOT NULL DEFAULT 'active'"⟩
        (.text "active") middle reached there noState)))
    cases outcome with
    | error error => exact ⟨low, .inr ⟨high, .inl done⟩⟩
    | ok _ =>
        obtain ⟨absent, more⟩ := done
        refine safe_mono _ _ _ _ (fun outcome third _ done => ?_)
          (safe_alter start db _ "revisions" ⟨"trash_operation_id", "TEXT"⟩ .null second more
          (there_has _ _ "state" ((more.has _ _).mpr (.inr List.mem_cons_self))) (by simp [noTrash]))
        cases outcome with
        | error error => exact ⟨low, .inr ⟨high, .inr done⟩⟩
        | ok _ =>
            obtain ⟨missing, last⟩ := done
            have sound : ¬ Halfway db := by
              rintro ⟨_, ⟨early, has⟩ | ⟨_, has | has⟩⟩
              · exact (epoch low early).1 has
              · exact absent has
              · exact missing has
            rw [← last.version]
            refine safe_finish start db third last.held sound (fun low early => ?_) (fun _ _ => ⟨(last.has _ _).mpr (.inr (by simp)),
              (last.has _ _).mpr (.inr (by simp))⟩)
            rw [last.version] at low early
            exact due_kept start db middle third added _ reached last (fun pair member => by simp [member]) _ _ (epoch low early).2
  by_cases early : 1 ≤ db.userVersion ∧ db.userVersion ≤ 2
  · rw [when, if_pos early]
    refine safe_bind _ _ _ _ (safe_mono _ _ _ _ (fun outcome middle _ done => ?_) (safe_alter start db [] "namespaces"
      ⟨"namespace_epoch", "INTEGER NOT NULL DEFAULT 0"⟩ (.integer 0) db again (held.2.altered early.1 (by omega)).1 List.not_mem_nil))
    cases outcome with
    | error error => exact ⟨early.1, .inl ⟨early.2, done⟩⟩
    | ok _ =>
        obtain ⟨absent, reached⟩ := done
        change (when _ _ >>= _).Safe _ _ _
        rw [when, if_pos ⟨early.1, by omega⟩]
        exact rest _ middle reached (by simp) (by simp) (fun _ _ => ⟨absent, (reached.has _ _).mpr (.inr List.mem_cons_self)⟩)
          early.1 (by omega)
  · rw [when, if_neg early]
    change (when _ _ >>= _).Safe _ _ _
    by_cases middle : 1 ≤ db.userVersion ∧ db.userVersion ≤ 3
    · rw [when, if_pos middle]
      exact rest [] db again List.not_mem_nil List.not_mem_nil (fun low high => absurd ⟨low, high⟩ early) middle.1 middle.2
    · rw [when, if_neg middle]
      refine safe_finish start db db held ?_ (fun low high => absurd ⟨low, high⟩ early) (fun low high => absurd ⟨low, high⟩ middle)
      rintro ⟨low, ⟨high, _⟩ | ⟨high, _⟩⟩
      · exact early ⟨low, high⟩
      · exact middle ⟨low, high⟩

theorem interrupted_held (version : Int) (start db : Database) (fresh : OfVersion version start) (history : Interrupted start db) :
    Held start db := by
  induction history with
  | refl => exact ⟨keeps_refl start, fresh.begun⟩
  | tail _ cut ih => exact ((safe_iff _ _ _).mp (safe_migration start _ ih)).1 _ cut

-- However often the migration of a database was cut off, the next run completes it exactly where
-- no cut fell between an ALTER TABLE for the first tables and the commit of the last batch.
theorem migration_resumes_iff (version : Int) (start db : Database) (fresh : OfVersion version start)
    (history : Interrupted start db) :
    (∃ after, initializeMetadata.exec db = (.ok (), after) ∧ Current after ∧ start.Keeps after) ↔ ¬ Halfway db := by
  have ended := ((safe_iff _ _ _).mp (safe_migration start db (interrupted_held version start db fresh history))).2
  cases outcome : initializeMetadata.exec db with
  | mk result after =>
      rw [outcome] at ended
      cases result with
      | error error =>
          refine iff_of_false ?_ (not_not_intro ended)
          rintro ⟨_, same, _⟩
          cases same
      | ok _ => exact iff_of_true ⟨after, rfl, ended.2⟩ ended.1

namespace MigrationSample

-- The revisions as the third schema version had them.
def oldRevisions : Table :=
  { columns := revisionsTable.columns.take 8
    constraints := revisionsTable.constraints
    rows :=
      [[.text "revision", .text "namespace", .null, .text "2026-01-01T00:00:00Z", .integer 10, .integer 1, .integer 2, .integer 30]]
    aligned := by decide }

def version3 : Database :=
  { tables := (∅ : Std.ExtTreeMap String Table).insert "namespaces" (.empty namespacesTable.columns namespacesTable.constraints)
      |>.insert "revisions" oldRevisions
    indexes := ∅
    userVersion := 3 }

-- The first ALTER TABLE has been made and nothing after it.
def stopped : Database :=
  version3.withTable "revisions" (oldRevisions.addColumn ⟨"state", "TEXT NOT NULL DEFAULT 'active'"⟩ (.text "active"))

theorem version3_tables (name : String) : version3.tables[name]? =
    if name = "revisions" then some oldRevisions
    else if name = "namespaces" then some (.empty namespacesTable.columns namespacesTable.constraints) else none := by
  simp only [version3, Std.ExtTreeMap.getElem?_insert, Std.ExtTreeMap.getElem?_empty, Std.compare_eq_iff_eq, eq_comm (b := name)]

theorem version3_old : OfVersion 3 version3 := by
  refine ⟨⟨by decide, fun _ _ => ⟨⟨_, version3_tables _⟩, _, version3_tables _⟩, ?_⟩, rfl, ?_⟩
  · have revisions : ∀ definition ∈ currentTables, definition.name = "revisions" → ∀ column ∈ definition.columns,
        Settled 3 definition.name column.name → column.name ∈ oldRevisions.names := by
      unfold Settled
      decide
    have namespaces : ∀ definition ∈ currentTables, definition.name = "namespaces" →
      definition.columns = namespacesTable.columns := by
      decide
    intro definition member table here column inside settled
    rw [version3_tables] at here
    by_cases second : definition.name = "revisions"
    · rw [if_pos second] at here
      cases here
      exact revisions definition member second column inside settled
    · by_cases first : definition.name = "namespaces"
      · rw [if_neg second, if_pos first] at here
        cases here
        rw [namespaces definition member first] at inside
        exact List.mem_map_of_mem inside
      · rw [if_neg second, if_neg first] at here
        cases here
  · rintro ⟨_, ⟨low, _⟩ | ⟨_, has | has⟩⟩
    · exact absurd low (by decide)
    · rw [has_here version3 _ _ oldRevisions (version3_tables _)] at has
      exact absurd has (by decide)
    · rw [has_here version3 _ _ oldRevisions (version3_tables _)] at has
      exact absurd has (by decide)

-- The queue as the fifth schema version had it.
def oldQueue : Table :=
  { columns := gcQueueTable.columns.filter fun column => column.name ∉ ["delete_after_quarantine", "purged_at"]
    constraints := gcQueueTable.constraints
    rows :=
      [[.text "entry", .text "operation", .text "whole", .text "sha256", .integer 3, .text "pending", .text "2026-01-01T00:00:00Z",
      .null, .null]]
    aligned := by decide }

def version5 : Database :=
  { tables := (∅ : Std.ExtTreeMap String Table).insert "gc_queue" oldQueue, indexes := ∅, userVersion := 5 }

-- The first of the two columns has been added, and the server was stopped.
def halfAdded : Database :=
  version5.withTable "gc_queue" (oldQueue.addColumn ⟨"delete_after_quarantine", "INTEGER NOT NULL DEFAULT 0"⟩ (.integer 0))

theorem version5_queue : version5.tables["gc_queue"]? = some oldQueue :=
  (Std.ExtTreeMap.getElem?_insert).trans (if_pos (Std.ReflCmp.compare_self))

theorem version5_old : OfVersion 5 version5 := by
  refine ⟨⟨by decide, fun _ low => absurd low (by decide), ?_⟩, rfl, ?_⟩
  · intro definition member table here column inside settled
    have name : definition.name = "gc_queue" := by
      by_contra other
      rw [version5, Std.ExtTreeMap.getElem?_insert, if_neg (fun same => other (Std.LawfulEqCmp.eq_of_compare same).symm),
        Std.ExtTreeMap.getElem?_empty] at here
      cases here
    have kept : ∀ definition ∈ currentTables, definition.name = "gc_queue" → ∀ column ∈ definition.columns,
        Settled 5 definition.name column.name → column.name ∈ oldQueue.names := by
      unfold Settled
      decide
    rw [name, version5_queue] at here
    cases here
    exact kept definition member name column inside settled
  · rintro ⟨_, ⟨low, _⟩ | ⟨low, _⟩⟩ <;> exact absurd low (by decide)

theorem half_added_cut : initializeMetadata.Cut version5 halfAdded := by
  have added : addDeleteAfterQuarantine.exec version5 = (.ok (), halfAdded) := by
    rw [addDeleteAfterQuarantine, execute, Prog.transact, Prog.exec, attemptStep,
      add_column_run version5 "gc_queue" _ _ oldQueue version5_queue, if_neg (by decide)]
    rfl
  have columns : tableInfo "gc_queue" version5 = oldQueue.names := by
    rw [tableInfo, version5_queue]
    rfl
  have exists_ : tableExists "gc_queue" version5 = true := by
    rw [tableExists, Std.ExtTreeMap.contains_eq_isSome_getElem?, version5_queue]
    rfl
  have queue : addGcColumns.Cut version5 halfAdded := by
    refine Prog.cut_later (query (tableInfo "gc_queue")) _ version5 version5 halfAdded (tableInfo "gc_queue" version5) rfl ?_
    rw [columns]
    refine Prog.cut_first (when ("delete_after_quarantine" ∉ oldQueue.names) addDeleteAfterQuarantine) _ version5 halfAdded ?_
    rw [when, if_pos (by decide)]
    have ends := Prog.cut_exec addDeleteAfterQuarantine version5
    rwa [added] at ends
  refine Prog.cut_later (query Database.userVersion) _ version5 version5 halfAdded 5 rfl ?_
  refine Prog.cut_later (Prog.ofExcept (ensure ((5 : Int) ≤ metadataSchemaVersion) (.unsupportedSchema 5))) _ version5 version5
    halfAdded () rfl ?_
  refine Prog.cut_later (when (1 ≤ (5 : Int) ∧ (5 : Int) ≤ 2) addNamespaceEpoch) _ version5 version5 halfAdded ()
    (by rw [when, if_neg (by decide)]; rfl) ?_
  refine Prog.cut_later (when (1 ≤ (5 : Int) ∧ (5 : Int) ≤ 3) (do addRevisionState; addTrashOperation)) _ version5
    version5 halfAdded ()
    (by rw [when, if_neg (by decide)]; rfl) ?_
  refine Prog.cut_later (query (tableExists "gc_queue")) _ version5 version5 halfAdded (tableExists "gc_queue" version5) rfl ?_
  rw [exists_]
  refine Prog.cut_first (when ((5 : Int) < 6 ∧ true = true) addGcColumns) _ version5 halfAdded ?_
  rw [when, if_pos (by decide)]
  exact queue

theorem stopped_cut : initializeMetadata.Cut version3 stopped := by
  refine .inr (.inr (.inl ?_))
  rw [attemptStep, add_column_run version3 "revisions" _ _ oldRevisions (version3_tables _), if_neg (by decide)]
  rfl

end MigrationSample

open MigrationSample in
-- A run stopped after its first ALTER TABLE: the next one adds the column again and fails.
theorem stopped_migration_stuck : OfVersion 3 version3 ∧ Interrupted version3 stopped ∧
    ¬ ∃ after, initializeMetadata.exec stopped = (.ok (), after) := by
  have history : Interrupted version3 stopped := .single stopped_cut
  refine ⟨version3_old, history, ?_⟩
  rintro ⟨after, run⟩
  have ended := ((safe_iff _ _ _).mp (safe_migration version3 stopped (interrupted_held 3 version3 stopped version3_old history))).2
  rw [run] at ended
  refine ended.1 ⟨by decide, .inr ⟨by decide, .inl ?_⟩⟩
  exact (has_added version3 "revisions" _ _ oldRevisions (version3_tables _) _ _).mpr (.inr ⟨rfl, rfl⟩)

open MigrationSample in
-- A later version is altered only where a column is missing, and the next run adds the other one.
theorem version5_resumes : ∃ after, initializeMetadata.exec halfAdded = (.ok (), after) ∧ Current after ∧ version5.Keeps after := by
  refine (migration_resumes_iff 5 version5 halfAdded version5_old (.single half_added_cut)).mpr ?_
  rintro ⟨_, ⟨low, _⟩ | ⟨low, _⟩⟩ <;> exact absurd low (by decide)

end SessionSync.Metadata
