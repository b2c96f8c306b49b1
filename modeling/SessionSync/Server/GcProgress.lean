import SessionSync.Server.Named

set_option autoImplicit false

namespace SessionSync.Server

open SessionSync.Core Checked Storage

-- Where an entry's file is moved to.
def GcQueueEntry.place (entry : GcQueueEntry) : Uuid × ObjectKey := (entry.operationId, entry.object.key)

def Queued (db : Database) (key : ObjectKey) : Prop :=
  ∃ (id : Uuid) (row : GcQueueRow), db.gcQueue[id]? = some row ∧ row.state = .pending ∧ row.object.key = key

-- What the resumption leaves behind.
structure Settled (start after : ServerState) : Prop where
  drained : ∀ (id : Uuid) (row : GcQueueRow), after.db.gcQueue[id]? = some row → row.state ≠ .pending
  deleted : ∀ (id : Uuid) (row : GcQueueRow), after.db.gcQueue[id]? = some row → row.deleteAfterQuarantine = true →
    (row.state = .purged ∨ row.state = .cancelled) ∧ (gcEntry id row).place ∉ after.gcFiles
  untouched : ∀ key, key ∈ reachableObjects start.db after.clock ∨ ¬ Queued start.db key →
    after.files[key]? = start.files[key]? ∧ after.db.storageObjects[key]? = start.db.storageObjects[key]?
  edges : ∀ owner target, owner ∈ reachableObjects start.db after.clock →
    ((owner, target) ∈ after.db.objectEdges ↔ (owner, target) ∈ start.db.objectEdges)
  recorded : ∀ key, Queued start.db key → (key ∈ after.db.storageObjects ↔ key ∈ after.files)

-- The clock may go on between two actions of the resumption, none of which sets it.
-- Nothing else runs.
abbrev TickWp {ε α : Type} (prog : Prog ServerState ε α) (post : α → ServerState → Prop) (state : ServerState) : Prop :=
  prog.Wp (fun _ => True) ClockTick (fun before after => after.clock = before.clock) (Prog.sure post) state

def Resumes (start : ServerState) : Prop := TickWp resumePendingGc (fun _ after => Settled start after) start

-- The ids that Uuid::now_v7 draws differ, so no two entries share a place.
def DistinctPlaces (db : Database) : Prop :=
  ∀ (id other : Uuid) (row next : GcQueueRow), db.gcQueue[id]? = some row → db.gcQueue[other]? = some next →
    (gcEntry id row).place = (gcEntry other next).place → id = other

-- Nothing is left of an entry that will not be purged any more, and an object that is
-- reachable again has its row if it has its file.
structure Resumable (start : ServerState) : Prop where
  removed : ∀ (id : Uuid) (row : GcQueueRow), start.db.gcQueue[id]? = some row → row.deleteAfterQuarantine = true →
    (row.state = .cancelled ∨ row.state = .purged ∨ row.state = .pending ∧ row.object.key ∈ reachableObjects start.db start.clock) →
      (gcEntry id row).place ∉ start.gcFiles
  recorded : ∀ key, Queued start.db key → key ∈ reachableObjects start.db start.clock →
    (key ∈ start.db.storageObjects ↔ key ∈ start.files)

theorem tick_refl (state : ServerState) : ClockTick state state := ⟨state.clock, le_refl _, rfl⟩

theorem tick_trans (a b c : ServerState) (first : ClockTick a b) (second : ClockTick b c) : ClockTick a c := by
  obtain ⟨one, order, rfl⟩ := first
  obtain ⟨two, later, rfl⟩ := second
  exact ⟨two, le_trans order later, rfl⟩

theorem mem_reachable (db : Database) (now : Nanos) (key : ObjectKey) :
    key ∈ reachableObjects db now ↔ ∃ root ∈ protectedRoots db now,
      Relation.ReflTransGen (fun node next => (node, next) ∈ db.objectEdges) root key := by
  rw [reachableObjects, Closure.mem_closure, Closure.Reaches]
  have edges : Closure.Edge db.objectEdges.toList = fun node next => (node, next) ∈ db.objectEdges := by
    funext node next
    exact propext Std.ExtTreeSet.mem_toList
  rw [edges]

theorem reachable_earlier (db : Database) (now later : Nanos) (order : now ≤ later) (key : ObjectKey)
    (reached : key ∈ reachableObjects db later) : key ∈ reachableObjects db now := by
  rw [mem_reachable] at reached ⊢
  obtain ⟨root, listed, path⟩ := reached
  obtain ⟨entry, kept, rfl⟩ := List.mem_map.mp listed
  obtain ⟨stored, shielded⟩ := List.mem_filter.mp kept
  exact ⟨_, List.mem_map.mpr ⟨entry, List.mem_filter.mpr ⟨stored, protected_earlier db now later order _ shielded⟩, rfl⟩, path⟩

theorem reachable_tables (db after : Database) (revisions : after.revisions = db.revisions)
    (roots : after.revisionRoots = db.revisionRoots) (operations : after.trashOperations = db.trashOperations)
    (edges : after.objectEdges = db.objectEdges) (now : Nanos) :
    reachableObjects after now = reachableObjects db now := by
  have shielded : isProtected after now = isProtected db now := funext fun id => protected_tables db after revisions operations now id
  rw [reachableObjects, reachableObjects, protectedRoots, protectedRoots, edges, roots, shielded]

theorem completed_edge (entry : GcQueueEntry) (now : Nanos) (db : Database) (owner target : ObjectKey) :
    (owner, target) ∈ (Server.completeGcEntry entry now db).objectEdges ↔
      (owner, target) ∈ db.objectEdges ∧ owner ≠ entry.object.key ∧ target ≠ entry.object.key := by
  rw [Server.completeGcEntry, Keyed.mem_filter, Bool.and_eq_true, decide_eq_true_eq, decide_eq_true_eq]

-- What nothing reaches goes without changing what is reached.
theorem reachable_complete (entry : GcQueueEntry) (now later : Nanos) (db : Database)
    (outside : entry.object.key ∉ reachableObjects db later) (key : ObjectKey) :
    key ∈ reachableObjects (Server.completeGcEntry entry now db) later ↔ key ∈ reachableObjects db later := by
  have roots : protectedRoots (Server.completeGcEntry entry now db) later = protectedRoots db later := by
    have shielded : isProtected (Server.completeGcEntry entry now db) later = isProtected db later :=
      funext fun id => protected_tables db (Server.completeGcEntry entry now db) rfl rfl later id
    rw [protectedRoots, protectedRoots, shielded]
    rfl
  rw [mem_reachable, mem_reachable, roots]
  constructor
  · rintro ⟨root, listed, path⟩
    exact ⟨root, listed, Relation.ReflTransGen.mono
      (fun one other edge => ((completed_edge entry now db one other).mp edge).1) _ _ path⟩
  · rintro ⟨root, listed, path⟩
    refine ⟨root, listed, ?_⟩
    induction path with
    | refl => exact .refl
    | tail earlier edge ih =>
        rename_i one other
        refine ih.tail ((completed_edge entry now db one other).mpr ⟨edge, fun same => ?_, fun same => ?_⟩)
        · exact outside ((mem_reachable db later _).mpr ⟨root, listed, same ▸ earlier⟩)
        · exact outside ((mem_reachable db later _).mpr ⟨root, listed, same ▸ earlier.tail edge⟩)

theorem mem_pending (db : Database) (entry : GcQueueEntry) :
    entry ∈ pendingGcEntries db ↔ ∃ (id : Uuid) (row : GcQueueRow), db.gcQueue[id]? = some row ∧ row.state = .pending ∧
      gcEntry id row = entry := by
  rw [pendingGcEntries, List.mem_map]
  constructor
  · rintro ⟨⟨id, row⟩, listed, same⟩
    obtain ⟨stored, waits⟩ := List.mem_filter.mp ((List.perm_insertionSort _ _).mem_iff.mp listed)
    exact ⟨id, row, Std.ExtTreeMap.mem_toList_iff_getElem?_eq_some.mp stored, decide_eq_true_eq.mp waits, same⟩
  · rintro ⟨id, row, stored, waits, same⟩
    refine ⟨(id, row), (List.perm_insertionSort _ _).mem_iff.mpr (List.mem_filter.mpr ⟨?_, decide_eq_true waits⟩), same⟩
    exact Std.ExtTreeMap.mem_toList_iff_getElem?_eq_some.mpr stored

theorem mem_quarantined (db : Database) (entry : GcQueueEntry) :
    entry ∈ quarantinedGcEntriesForPurge db ↔ ∃ (id : Uuid) (row : GcQueueRow), db.gcQueue[id]? = some row ∧
      row.state = .quarantined ∧
      row.deleteAfterQuarantine = true ∧ gcEntry id row = entry := by
  rw [quarantinedGcEntriesForPurge, List.mem_map]
  constructor
  · intro ⟨⟨id, row⟩, listed, same⟩
    obtain ⟨stored, due⟩ := List.mem_filter.mp ((List.perm_insertionSort _ _).mem_iff.mp listed)
    rw [Bool.and_eq_true, decide_eq_true_eq] at due
    exact ⟨id, row, Std.ExtTreeMap.mem_toList_iff_getElem?_eq_some.mp stored, due.1, due.2, same⟩
  · intro ⟨id, row, stored, taken, deletes, same⟩
    refine ⟨(id, row), (List.perm_insertionSort _ _).mem_iff.mpr (List.mem_filter.mpr ⟨?_, ?_⟩), same⟩
    · exact Std.ExtTreeMap.mem_toList_iff_getElem?_eq_some.mpr stored
    · rw [deletes, decide_eq_true taken]
      rfl

-- No entry is listed twice.
theorem listed_once (db : Database) (due : Uuid × GcQueueRow → Bool) (before : Uuid × GcQueueRow → Uuid × GcQueueRow → Prop)
    [DecidableRel before] :
    (((db.gcQueue.toList.filter due).insertionSort before).map fun entry => gcEntry entry.1 entry.2).Nodup := by
  have keys : (db.gcQueue.toList.map Prod.fst).Nodup := by
    have distinct := Std.ExtTreeMap.distinct_keys_toList (t := db.gcQueue)
    refine List.pairwise_map.mpr (distinct.imp fun apart same => apart ?_)
    rw [same]
    exact Std.ReflOrd.compare_self
  have apart : ((db.gcQueue.toList.filter due).map Prod.fst).Nodup := keys.sublist (List.Sublist.map _ List.filter_sublist)
  have sorted := ((List.perm_insertionSort before (db.gcQueue.toList.filter due)).map Prod.fst).nodup_iff.mpr apart
  refine List.Nodup.of_map GcQueueEntry.id ?_
  rw [List.map_map]
  exact sorted

def Lost (key : ObjectKey) (state : ServerState) : Prop := key ∉ state.files ∧ key ∉ state.db.storageObjects

-- What has become of an entry: cancelled, or taken away when nothing reached its object.
inductive Finished (start seen : ServerState) (entry : GcQueueEntry) : GcState → Prop where
  | cancelled (reached : entry.object.key ∈ reachableObjects start.db start.clock)
      (left : seen.gcFiles[entry.place]? = start.gcFiles[entry.place]?) : Finished start seen entry .cancelled
  | quarantined (plain : entry.deleteAfterQuarantine = false) (unreached : entry.object.key ∉ reachableObjects start.db seen.clock)
      (lost : Lost entry.object.key seen) : Finished start seen entry .quarantined
  | purged (deletes : entry.deleteAfterQuarantine = true) (unreached : entry.object.key ∉ reachableObjects start.db seen.clock)
      (lost : Lost entry.object.key seen) (gone : entry.place ∉ seen.gcFiles) : Finished start seen entry .purged

-- The row of the queue once the entries in `processed` and those in `cleared` are through.
def RowNow (start : ServerState) (processed cleared : List GcQueueEntry) (seen : ServerState) (id : Uuid) (row : GcQueueRow) : Prop :=
  (gcEntry id row ∈ processed →
    ∃ state at_, seen.db.gcQueue[id]? = some { row with state := state, quarantinedAt := at_ } ∧
      Finished start seen (gcEntry id row) state) ∧
  (gcEntry id row ∉ processed → gcEntry id row ∈ cleared →
    seen.db.gcQueue[id]? = some { row with state := .purged } ∧ (gcEntry id row).place ∉ seen.gcFiles) ∧
  (gcEntry id row ∉ processed → gcEntry id row ∉ cleared →
    seen.db.gcQueue[id]? = some row ∧ seen.gcFiles[(gcEntry id row).place]? = start.gcFiles[(gcEntry id row).place]?)

section RowNow

variable (start seen : ServerState) (processed cleared : List GcQueueEntry) (id : Uuid) (row : GcQueueRow)

theorem row_now_processed (through : gcEntry id row ∈ processed) : RowNow start processed cleared seen id row ↔
    ∃ state at_, seen.db.gcQueue[id]? = some { row with state := state, quarantinedAt := at_ } ∧
      Finished start seen (gcEntry id row) state := by
  refine ⟨fun now => now.1 through, fun now => ⟨fun _ => now, fun waits => absurd through waits, fun waits => absurd through waits⟩⟩

theorem row_now_cleared (waits : gcEntry id row ∉ processed) (done : gcEntry id row ∈ cleared) :
    RowNow start processed cleared seen id row ↔
      seen.db.gcQueue[id]? = some { row with state := .purged } ∧ (gcEntry id row).place ∉ seen.gcFiles := by
  refine ⟨fun now => now.2.1 waits done, fun now =>
    ⟨fun through => absurd through waits, fun _ _ => now, fun _ left => absurd done left⟩⟩

theorem row_now_left (waits : gcEntry id row ∉ processed) (left : gcEntry id row ∉ cleared) :
    RowNow start processed cleared seen id row ↔
      seen.db.gcQueue[id]? = some row ∧ seen.gcFiles[(gcEntry id row).place]? = start.gcFiles[(gcEntry id row).place]? := by
  refine ⟨fun now => now.2.2 waits left, fun now =>
    ⟨fun through => absurd through waits, fun _ done => absurd done left, fun _ _ => now⟩⟩

end RowNow

def Untaken (start seen : ServerState) (key : ObjectKey) : Prop :=
  seen.files[key]? = start.files[key]? ∧ seen.db.storageObjects[key]? = start.db.storageObjects[key]?

-- An object is as it was, or it is gone and nothing reaches it.
structure Objects (env : ServerEnv) (accepted : Bytes → Prop) (start seen : ServerState) : Prop where
  named : Named env accepted seen
  clock : start.clock ≤ seen.clock
  reach : ∀ later, seen.clock ≤ later → ∀ key, key ∈ reachableObjects seen.db later ↔ key ∈ reachableObjects start.db later
  objects : ∀ key, Untaken start seen key ∨ Lost key seen ∧ key ∉ reachableObjects start.db seen.clock ∧ Queued start.db key
  fewer : ∀ owner target, (owner, target) ∈ seen.db.objectEdges → (owner, target) ∈ start.db.objectEdges
  edges : ∀ owner target, (owner, target) ∈ start.db.objectEdges → owner ∈ reachableObjects start.db seen.clock →
    (owner, target) ∈ seen.db.objectEdges

structure Progress (env : ServerEnv) (accepted : Bytes → Prop) (start : ServerState) (processed cleared : List GcQueueEntry)
    (seen : ServerState) : Prop extends Objects env accepted start seen where
  rows : ∀ (id : Uuid) (row : GcQueueRow), start.db.gcQueue[id]? = some row → RowNow start processed cleared seen id row
  known : ∀ (id : Uuid) (row : GcQueueRow), seen.db.gcQueue[id]? = some row →
    ∃ (before : GcQueueRow), start.db.gcQueue[id]? = some before

theorem lost_moved (key : ObjectKey) (seen after : ServerState) (files : key ∈ after.files → key ∈ seen.files)
    (rows : key ∈ after.db.storageObjects → key ∈ seen.db.storageObjects) (lost : Lost key seen) : Lost key after :=
  ⟨fun present => lost.1 (files present), fun present => lost.2 (rows present)⟩

theorem finished_moved (start seen after : ServerState) (entry : GcQueueEntry) (state : GcState) (clock : seen.clock ≤ after.clock)
    (files : ∀ key, key ∈ after.files → key ∈ seen.files) (rows : ∀ key, key ∈ after.db.storageObjects → key ∈ seen.db.storageObjects)
    (gcFiles : after.gcFiles[entry.place]? = seen.gcFiles[entry.place]?) (finished : Finished start seen entry state) :
    Finished start after entry state := by
  have later : entry.object.key ∉ reachableObjects start.db seen.clock → entry.object.key ∉ reachableObjects start.db after.clock :=
    fun unreached reached => unreached (reachable_earlier start.db _ _ clock _ reached)
  cases finished with
  | cancelled reached left => exact .cancelled reached (gcFiles.trans left)
  | quarantined plain unreached lost => exact .quarantined plain (later unreached) (lost_moved _ seen after (files _) (rows _) lost)
  | purged deletes unreached lost gone =>
      refine .purged deletes (later unreached) (lost_moved _ seen after (files _) (rows _) lost) fun present => gone ?_
      rw [Std.ExtTreeMap.mem_iff_isSome_getElem?] at present ⊢
      rw [← gcFiles]
      exact present

-- A step that has to do with other entries.
theorem row_now_moved (start seen after : ServerState) (processed cleared more others : List GcQueueEntry) (id : Uuid)
    (row : GcQueueRow) (clock : seen.clock ≤ after.clock) (files : ∀ key, key ∈ after.files → key ∈ seen.files)
    (rows : ∀ key, key ∈ after.db.storageObjects → key ∈ seen.db.storageObjects)
    (gcFiles : after.gcFiles[(gcEntry id row).place]? = seen.gcFiles[(gcEntry id row).place]?)
    (queue : after.db.gcQueue[id]? = seen.db.gcQueue[id]?) (first : gcEntry id row ∈ processed ++ more ↔ gcEntry id row ∈ processed)
    (second : gcEntry id row ∈ cleared ++ others ↔ gcEntry id row ∈ cleared) (now : RowNow start processed cleared seen id row) :
    RowNow start (processed ++ more) (cleared ++ others) after id row := by
  by_cases through : gcEntry id row ∈ processed
  · rw [row_now_processed _ _ _ _ _ _ through] at now
    rw [row_now_processed _ _ _ _ _ _ (first.mpr through), queue]
    obtain ⟨state, at_, stored, finished⟩ := now
    exact ⟨state, at_, stored, finished_moved start seen after _ state clock files rows gcFiles finished⟩
  · have waits : gcEntry id row ∉ processed ++ more := fun inside => through (first.mp inside)
    by_cases done : gcEntry id row ∈ cleared
    · rw [row_now_cleared _ _ _ _ _ _ through done] at now
      rw [row_now_cleared _ _ _ _ _ _ waits (second.mpr done), queue]
      refine ⟨now.1, fun present => now.2 ?_⟩
      rw [Std.ExtTreeMap.mem_iff_isSome_getElem?] at present ⊢
      rw [← gcFiles]
      exact present
    · rw [row_now_left _ _ _ _ _ _ through done] at now
      rw [row_now_left _ _ _ _ _ _ waits (fun inside => done (second.mp inside)), queue, gcFiles]
      exact now

section Steps

variable {env : ServerEnv} {accepted : Bytes → Prop} {start : ServerState} {processed cleared : List GcQueueEntry}

theorem objects_tick (seen : ServerState) (later : Nanos) (order : seen.clock ≤ later) (objects : Objects env accepted start seen) :
    Objects env accepted start { seen with clock := later } := by
  have earlier := fun key => reachable_earlier start.db seen.clock later order key
  refine ⟨⟨objects.named.files, objects.named.gcFiles, objects.named.rows, objects.named.queue⟩, le_trans objects.clock order,
    fun then_ after => objects.reach then_ (le_trans order after), fun key => ?_, objects.fewer, fun owner target edge reached => ?_⟩
  · exact (objects.objects key).imp_right fun ⟨lost, unreached, queued⟩ =>
      ⟨lost, fun reached => unreached (earlier key reached), queued⟩
  · exact objects.edges owner target edge (earlier owner reached)

theorem progress_tick (seen after : ServerState) (moved : ClockTick seen after)
    (progress : Progress env accepted start processed cleared seen) : Progress env accepted start processed cleared after := by
  obtain ⟨later, order, rfl⟩ := moved
  refine ⟨objects_tick seen later order progress.toObjects, fun id row stored => ?_, progress.known⟩
  have now := row_now_moved start seen { seen with clock := later } processed cleared [] [] id row order
    (fun _ present => present) (fun _ present => present) rfl rfl (by rw [List.append_nil]) (by rw [List.append_nil])
    (progress.rows id row stored)
  rw [List.append_nil, List.append_nil] at now
  exact now

-- What a quarantine and its completion do, and what a purge does.
structure Taken (entry : GcQueueEntry) (seen after : ServerState) : Prop where
  clock : seen.clock ≤ after.clock
  db : ∃ now, after.db = Server.completeGcEntry entry now seen.db
  files : ∀ (key : ObjectKey), after.files[key]? = if key = entry.object.key then none else seen.files[key]?
  gcFiles : ∀ place, place ≠ entry.place → after.gcFiles[place]? = seen.gcFiles[place]?

structure Purged (entry : GcQueueEntry) (seen after : ServerState) : Prop where
  clock : seen.clock ≤ after.clock
  db : after.db = Server.markGcEntryPurged entry.id seen.db
  files : after.files = seen.files
  gcFiles : ∀ place, after.gcFiles[place]? = if place = entry.place then none else seen.gcFiles[place]?

theorem taken_subset (entry : GcQueueEntry) (seen after : ServerState) (taken : Taken entry seen after) :
    (∀ key, key ∈ after.files → key ∈ seen.files) ∧ (∀ key, key ∈ after.db.storageObjects → key ∈ seen.db.storageObjects) ∧
      Lost entry.object.key after := by
  obtain ⟨now, db⟩ := taken.db
  refine ⟨fun key present => ?_, fun key present => ?_, fun present => ?_, fun present => ?_⟩
  · rw [Std.ExtTreeMap.mem_iff_isSome_getElem?, taken.files] at present
    rw [Std.ExtTreeMap.mem_iff_isSome_getElem?]
    by_cases own : key = entry.object.key
    · rw [if_pos own] at present
      cases present
    · rw [if_neg own] at present
      exact present
  · rw [db] at present
    exact (Std.ExtTreeMap.mem_erase.mp present).2
  · rw [Std.ExtTreeMap.mem_iff_isSome_getElem?, taken.files, if_pos rfl] at present
    cases present
  · rw [db] at present
    exact (Std.ExtTreeMap.mem_erase.mp present).1 (Std.LawfulEqOrd.compare_eq_iff_eq.mpr rfl)

theorem taken_untaken (entry : GcQueueEntry) (seen after : ServerState) (taken : Taken entry seen after) (key : ObjectKey)
    (other : key ≠ entry.object.key) : Untaken seen after key := by
  obtain ⟨now, db⟩ := taken.db
  refine ⟨(taken.files key).trans (if_neg other), ?_⟩
  rw [db]
  exact (Keyed.lookup_erase _ _ _).trans (if_neg other)

theorem completed_row (entry : GcQueueEntry) (now : Nanos) (db : Database) (id : Uuid) :
    (Server.completeGcEntry entry now db).gcQueue[id]? = if id = entry.id then
      db.gcQueue[id]?.map fun row =>
        if row.state = .pending then { row with state := .quarantined, quarantinedAt := some (millis now) } else row
    else db.gcQueue[id]? := Keyed.lookup_modify _ _ _ _

theorem purged_row (entryId : Uuid) (db : Database) (id : Uuid) :
    (Server.markGcEntryPurged entryId db).gcQueue[id]? = if id = entryId then
      db.gcQueue[id]?.map fun row =>
        if row.state = .quarantined && row.deleteAfterQuarantine then { row with state := .purged } else row
    else db.gcQueue[id]? := Keyed.lookup_modify _ _ _ _

theorem cancelled_row (entryId : Uuid) (db : Database) (id : Uuid) :
    (Server.cancelGcEntry entryId db).gcQueue[id]? = if id = entryId then
      db.gcQueue[id]?.map fun row => if row.state = .pending then { row with state := .cancelled } else row
    else db.gcQueue[id]? := Keyed.lookup_modify _ _ _ _

theorem unlisted_entry (id other : Uuid) (row next : GcQueueRow) (apart : other ≠ id) (entries : List GcQueueEntry) :
    gcEntry other next ∈ entries ++ [gcEntry id row] ↔ gcEntry other next ∈ entries := by
  rw [List.mem_append, List.mem_singleton]
  exact or_iff_left fun same => apart (congrArg GcQueueEntry.id same)

theorem fresh_row (seen : ServerState) (progress : Progress env accepted start processed cleared seen) (id : Uuid) (row : GcQueueRow)
    (stored : start.db.gcQueue[id]? = some row) (unprocessed : gcEntry id row ∉ processed) (uncleared : gcEntry id row ∉ cleared) :
    seen.db.gcQueue[id]? = some row ∧ seen.gcFiles[(gcEntry id row).place]? = start.gcFiles[(gcEntry id row).place]? := by
  have now := progress.rows id row stored
  exact now.2.2 unprocessed uncleared

theorem objects_taken (entry : GcQueueEntry) (seen after : ServerState) (queued : Queued start.db entry.object.key)
    (unreached : entry.object.key ∉ reachableObjects seen.db seen.clock) (named : Named env accepted after)
    (taken : Taken entry seen after) (objects : Objects env accepted start seen) : Objects env accepted start after := by
  obtain ⟨now, db⟩ := taken.db
  have outside : ∀ later, seen.clock ≤ later → entry.object.key ∉ reachableObjects seen.db later := fun later order reached =>
    unreached (reachable_earlier seen.db _ _ order _ reached)
  have earlier := fun key => reachable_earlier start.db seen.clock after.clock taken.clock key
  have absent : entry.object.key ∉ reachableObjects start.db after.clock := fun reached =>
    outside after.clock taken.clock ((objects.reach after.clock taken.clock _).mpr reached)
  refine ⟨named, le_trans objects.clock taken.clock, fun later order key => ?_, fun key => ?_, fun owner target edge => ?_,
    fun owner target edge reached => ?_⟩
  · rw [db, reachable_complete entry now later seen.db (outside later (le_trans taken.clock order)) key]
    exact objects.reach later (le_trans taken.clock order) key
  · by_cases own : key = entry.object.key
    · subst own
      exact .inr ⟨(taken_subset entry seen after taken).2.2, absent, queued⟩
    · obtain ⟨files, rows⟩ := taken_untaken entry seen after taken key own
      rcases objects.objects key with kept | ⟨lost, hidden, listed⟩
      · exact .inl ⟨files.trans kept.1, rows.trans kept.2⟩
      · have shrinks := taken_subset entry seen after taken
        exact .inr ⟨lost_moved key seen after (shrinks.1 key) (shrinks.2.1 key) lost, fun reached =>
          hidden (earlier key reached), listed⟩
  · rw [db, completed_edge] at edge
    exact objects.fewer owner target edge.1
  · rw [db, completed_edge]
    refine ⟨objects.edges owner target edge (earlier owner reached), fun same => absent (same ▸ reached), fun same => absent ?_⟩
    obtain ⟨root, listed, path⟩ := (mem_reachable _ _ _).mp reached
    exact (mem_reachable _ _ _).mpr ⟨root, listed, same ▸ path.tail edge⟩

theorem objects_purged (entry : GcQueueEntry) (seen after : ServerState) (named : Named env accepted after)
    (purged : Purged entry seen after) (objects : Objects env accepted start seen) : Objects env accepted start after := by
  have ticked := objects_tick seen after.clock purged.clock objects
  have rows : after.db.storageObjects = seen.db.storageObjects := by
    rw [purged.db]
    rfl
  have edges : after.db.objectEdges = seen.db.objectEdges := by
    rw [purged.db]
    rfl
  refine ⟨named, ticked.clock, fun later order key => ?_, fun key => ?_, fun owner target edge => ?_,
    fun owner target edge reached => ?_⟩
  · rw [purged.db, reachable_tables seen.db (Server.markGcEntryPurged entry.id seen.db) rfl rfl rfl rfl]
    exact ticked.reach later order key
  · have kept := ticked.objects key
    simp only [Untaken, Lost, purged.files, rows]
    exact kept
  · exact ticked.fewer owner target (edges ▸ edge)
  · rw [edges]
    exact ticked.edges owner target edge reached

section Entries

variable (distinct : DistinctPlaces start.db) (id : Uuid) (row : GcQueueRow) (stored : start.db.gcQueue[id]? = some row)

include stored

-- A step that has to do with one entry: the other rows of the queue are as they were.
theorem rows_step (seen after : ServerState) (progress : Progress env accepted start processed cleared seen)
    (more others : List GcQueueEntry)
    (first : ∀ other next, other ≠ id → (gcEntry other next ∈ processed ++ more ↔ gcEntry other next ∈ processed))
    (second : ∀ other next, other ≠ id → (gcEntry other next ∈ cleared ++ others ↔ gcEntry other next ∈ cleared))
    (clock : seen.clock ≤ after.clock) (files : ∀ key, key ∈ after.files → key ∈ seen.files)
    (rows : ∀ key, key ∈ after.db.storageObjects → key ∈ seen.db.storageObjects)
    (gcFiles : ∀ (other : Uuid) (next : GcQueueRow), start.db.gcQueue[other]? = some next → other ≠ id →
      after.gcFiles[(gcEntry other next).place]? = seen.gcFiles[(gcEntry other next).place]?)
    (queue : ∀ other, other ≠ id → after.db.gcQueue[other]? = seen.db.gcQueue[other]?)
    (own : RowNow start (processed ++ more) (cleared ++ others) after id row) :
    (∀ (other : Uuid) (next : GcQueueRow), start.db.gcQueue[other]? = some next →
      RowNow start (processed ++ more) (cleared ++ others) after other next) ∧
      ∀ (other : Uuid) (next : GcQueueRow), after.db.gcQueue[other]? = some next →
        ∃ (before : GcQueueRow), start.db.gcQueue[other]? = some before := by
  refine ⟨fun other next known => ?_, fun other next known => ?_⟩
  · by_cases same : other = id
    · subst same
      rw [stored] at known
      cases known
      exact own
    · exact row_now_moved start seen after processed cleared more others other next clock files rows (gcFiles other next known same)
        (queue other same) (first other next same) (second other next same) (progress.rows other next known)
  · by_cases same : other = id
    · exact ⟨row, same ▸ stored⟩
    · rw [queue other same] at known
      exact progress.known other next known

variable (pending : row.state = .pending) (unprocessed : gcEntry id row ∉ processed)

include pending

theorem pending_queued : Queued start.db row.object.key := ⟨id, row, stored, pending, rfl⟩

include unprocessed

theorem progress_cancelled (seen : ServerState) (progress : Progress env accepted start processed [] seen)
    (reached : row.object.key ∈ reachableObjects start.db start.clock)
    (named : Named env accepted { seen with db := Server.cancelGcEntry id seen.db }) :
    Progress env accepted start (processed ++ [gcEntry id row]) [] { seen with db := Server.cancelGcEntry id seen.db } := by
  obtain ⟨known, left⟩ := fresh_row seen progress id row stored unprocessed List.not_mem_nil
  have objects : Objects env accepted start { seen with db := Server.cancelGcEntry id seen.db } := by
    refine ⟨named, progress.clock, fun later order key => ?_, progress.objects, progress.fewer, progress.edges⟩
    rw [reachable_tables seen.db (Server.cancelGcEntry id seen.db) rfl rfl rfl rfl]
    exact progress.reach later order key
  have rows := rows_step id row stored seen { seen with db := Server.cancelGcEntry id seen.db } progress [gcEntry id row] []
    (fun other next apart => unlisted_entry id other row next apart processed) (fun _ _ _ => Iff.rfl) (le_refl _)
    (fun _ present => present) (fun _ present => present) (fun _ _ _ _ => rfl)
    (fun other apart => (cancelled_row id seen.db other).trans (if_neg apart)) ?_
  · exact ⟨objects, rows.1, rows.2⟩
  · rw [row_now_processed _ _ _ _ _ _ (List.mem_append_right _ List.mem_cons_self)]
    refine ⟨.cancelled, row.quarantinedAt, ?_, .cancelled reached left⟩
    refine (cancelled_row id seen.db id).trans ?_
    rw [if_pos rfl, known, Option.map_some, if_pos pending]

include distinct

omit pending unprocessed in
theorem other_place (other : Uuid) (next : GcQueueRow) (known : start.db.gcQueue[other]? = some next) (apart : other ≠ id) :
    (gcEntry other next).place ≠ (gcEntry id row).place := fun same => apart (distinct other id next row known stored same)

theorem progress_taken (seen after : ServerState) (progress : Progress env accepted start processed [] seen)
    (unreached : row.object.key ∉ reachableObjects seen.db seen.clock) (plain : row.deleteAfterQuarantine = false)
    (named : Named env accepted after) (taken : Taken (gcEntry id row) seen after) :
    Progress env accepted start (processed ++ [gcEntry id row]) [] after := by
  obtain ⟨known, _⟩ := fresh_row seen progress id row stored unprocessed List.not_mem_nil
  have objects :=
    objects_taken (gcEntry id row) seen after (pending_queued id row stored pending) unreached named taken progress.toObjects
  obtain ⟨now, db⟩ := taken.db
  obtain ⟨files, rowsFewer, lost⟩ := taken_subset _ seen after taken
  have rows := rows_step id row stored seen after progress [gcEntry id row] []
    (fun other next apart => unlisted_entry id other row next apart processed) (fun _ _ _ => Iff.rfl) taken.clock files rowsFewer
    (fun other next known apart => taken.gcFiles _ (other_place distinct id row stored other next known apart))
    (fun other apart => by rw [db, completed_row, if_neg (show other ≠ (gcEntry id row).id from apart)]) ?_
  · exact ⟨objects, rows.1, rows.2⟩
  · rw [row_now_processed _ _ _ _ _ _ (List.mem_append_right _ List.mem_cons_self)]
    refine ⟨.quarantined, some (millis now), ?_, .quarantined plain ?_ lost⟩
    · rw [db, completed_row, if_pos (show id = (gcEntry id row).id from rfl), known, Option.map_some, if_pos pending]
    · intro reached
      exact unreached ((progress.reach seen.clock (le_refl _) _).mpr (reachable_earlier start.db _ _ taken.clock _ reached))

theorem progress_deleted (seen mid after : ServerState) (progress : Progress env accepted start processed [] seen)
    (unreached : row.object.key ∉ reachableObjects seen.db seen.clock) (deletes : row.deleteAfterQuarantine = true)
    (midNamed : Named env accepted mid) (named : Named env accepted after) (taken : Taken (gcEntry id row) seen mid)
    (purged : Purged (gcEntry id row) mid after) : Progress env accepted start (processed ++ [gcEntry id row]) [] after := by
  obtain ⟨known, _⟩ := fresh_row seen progress id row stored unprocessed List.not_mem_nil
  have midObjects :=
    objects_taken (gcEntry id row) seen mid (pending_queued id row stored pending) unreached midNamed taken progress.toObjects
  have objects := objects_purged (gcEntry id row) mid after named purged midObjects
  obtain ⟨now, db⟩ := taken.db
  obtain ⟨files, rowsFewer, lost⟩ := taken_subset _ seen mid taken
  have sameRows : after.db.storageObjects = mid.db.storageObjects := by
    rw [purged.db]
    rfl
  have places := other_place distinct id row stored
  have rows := rows_step id row stored seen after progress [gcEntry id row] []
    (fun other next apart => unlisted_entry id other row next apart processed) (fun _ _ _ => Iff.rfl)
    (le_trans taken.clock purged.clock) (fun key present => files key (purged.files ▸ present))
    (fun key present => rowsFewer key (sameRows ▸ present)) (fun other next known apart => ?_) (fun other apart => ?_) ?_
  · exact ⟨objects, rows.1, rows.2⟩
  · rw [purged.gcFiles, if_neg (places other next known apart)]
    exact taken.gcFiles _ (places other next known apart)
  · rw [purged.db, purged_row, if_neg (show other ≠ (gcEntry id row).id from apart), db, completed_row,
      if_neg (show other ≠ (gcEntry id row).id from apart)]
  · rw [row_now_processed _ _ _ _ _ _ (List.mem_append_right _ List.mem_cons_self)]
    refine ⟨.purged, some (millis now), ?_, .purged deletes (fun reached => ?_) ?_ ?_⟩
    · rw [purged.db, purged_row, if_pos (show id = (gcEntry id row).id from rfl), db, completed_row,
        if_pos (show id = (gcEntry id row).id from rfl), known, Option.map_some, Option.map_some, if_pos pending]
      refine congrArg some (if_pos ?_)
      rw [deletes]
      rfl
    · have order := le_trans taken.clock purged.clock
      exact unreached ((progress.reach seen.clock (le_refl _) _).mpr (reachable_earlier start.db _ _ order _ reached))
    · exact lost_moved _ mid after (fun present => purged.files ▸ present) (fun present => sameRows ▸ present) lost
    · intro present
      rw [Std.ExtTreeMap.mem_iff_isSome_getElem?, purged.gcFiles, if_pos rfl] at present
      cases present

end Entries

theorem progress_cleared (distinct : DistinctPlaces start.db) (id : Uuid) (row : GcQueueRow)
    (stored : start.db.gcQueue[id]? = some row) (waits : row.state = .quarantined) (deletes : row.deleteAfterQuarantine = true)
    (unprocessed : gcEntry id row ∉ processed) (uncleared : gcEntry id row ∉ cleared) (seen after : ServerState)
    (progress : Progress env accepted start processed cleared seen) (named : Named env accepted after)
    (purged : Purged (gcEntry id row) seen after) :
    Progress env accepted start processed (cleared ++ [gcEntry id row]) after := by
  obtain ⟨known, _⟩ := fresh_row seen progress id row stored unprocessed uncleared
  have objects := objects_purged (gcEntry id row) seen after named purged progress.toObjects
  have sameRows : after.db.storageObjects = seen.db.storageObjects := by
    rw [purged.db]
    rfl
  have rows := rows_step id row stored seen after progress [] [gcEntry id row] (fun _ _ _ => by rw [List.append_nil])
    (fun other next apart => unlisted_entry id other row next apart cleared) purged.clock (fun key present => purged.files ▸ present)
    (fun key present => sameRows ▸ present) (fun other next known apart => ?_) (fun other apart => ?_) ?_
  · rw [List.append_nil] at rows
    exact ⟨objects, rows.1, rows.2⟩
  · rw [purged.gcFiles, if_neg fun same => apart (distinct other id next row known stored same)]
  · rw [purged.db, purged_row, if_neg (show other ≠ (gcEntry id row).id from apart)]
  · rw [List.append_nil, row_now_cleared _ _ _ _ _ _ unprocessed (List.mem_append_right _ List.mem_cons_self)]
    refine ⟨?_, fun present => ?_⟩
    · rw [purged.db, purged_row, if_pos (show id = (gcEntry id row).id from rfl), known, Option.map_some]
      refine congrArg some (if_pos ?_)
      rw [deletes, waits]
      rfl
    · rw [Std.ExtTreeMap.mem_iff_isSome_getElem?, purged.gcFiles, if_pos rfl] at present
      cases present

end Steps

end SessionSync.Server
