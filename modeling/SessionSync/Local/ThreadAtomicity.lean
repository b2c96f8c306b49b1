import SessionSync.Local.ThreadMutation
import SessionSync.Rollout.Agreement

set_option autoImplicit false

namespace SessionSync.Local

open SessionSync.Core Checked Rollout

section Law

variable (env : ScanEnv)

-- The head of the file names the thread.
def NamesThread (bytes : Bytes) (threadId : String) : Prop :=
  ∃ record, readRolloutRecord env.reader env.utf8Error ⟨"", "", false, bytes⟩ = .ok record ∧ record.threadId = threadId

theorem names_same (left right : RolloutFile) (same : left.bytes = right.bytes) (threadId : String)
    (names : ∃ record, readRolloutRecord env.reader env.utf8Error left = .ok record ∧ record.threadId = threadId) :
    ∃ record, readRolloutRecord env.reader env.utf8Error right = .ok record ∧ record.threadId = threadId := by
  simp only [readRolloutRecord, bind_ok, ensure_ok, found_ok, map_error_ok, pure_ok] at names ⊢
  rw [← same]
  obtain ⟨record, ⟨_, filled, _, short, text, decoded, _, shown, value, parsed, _, session, id, named, made⟩, rfl⟩ := names
  exact ⟨_, ⟨(), filled, (), short, text, decoded, (), shown, value, parsed, (), session, id, named, rfl⟩, by rw [← made]⟩

theorem names_iff (file : RolloutFile) (threadId : String) :
    (∃ record, readRolloutRecord env.reader env.utf8Error file = .ok record ∧ record.threadId = threadId) ↔
      NamesThread env file.bytes threadId :=
  ⟨names_same env file ⟨"", "", false, file.bytes⟩ rfl threadId, names_same env ⟨"", "", false, file.bytes⟩ file rfl threadId⟩

def ThreadHome.tree (home : ThreadHome) (archived : Bool) : Std.ExtTreeMap String Bytes :=
  if archived then home.archivedSessions else home.sessions

-- A file of the thread in one of the two trees.
def HasFile (home : ThreadHome) (threadId : String) (archived : Bool) (path : String) : Prop :=
  isRolloutPath path = true ∧ ∃ bytes, (home.tree archived)[path]? = some bytes ∧ NamesThread env bytes threadId

structure InTree (home : ThreadHome) (threadId : String) (archived : Bool) : Prop where
  file : ∃ path, HasFile env home threadId archived path
  only : ∀ path, ¬ HasFile env home threadId (!archived) path
  rows : ∀ database ∈ home.databases, ∀ row ∈ database.rows, rowId row = some threadId → boolField row "archived" = some archived

structure Gone (home : ThreadHome) (threadId : String) : Prop where
  files : ∀ archived path, ¬ HasFile env home threadId archived path
  rows : ∀ database ∈ home.databases, ∀ row ∈ database.rows, rowId row ≠ some threadId

def Settled (home : ThreadHome) (threadId action : String) : Prop :=
  (action = "archive" → InTree env home threadId true) ∧ (action = "restore" → InTree env home threadId false) ∧
    (action = "delete" → Gone env home threadId)

theorem home_file (home : ThreadHome) (file : RolloutFile) (member : file ∈ homeFiles env home) :
    isRolloutPath file.path = true ∧ (home.tree file.archived)[file.path]? = some file.bytes := by
  rcases List.mem_append.mp member with active | archived
  · obtain ⟨named, held, side, _⟩ := (tree_file_iff env _ _ _ _).mp active
    exact ⟨named, by rw [side]; exact held⟩
  · obtain ⟨named, held, side, _⟩ := (tree_file_iff env _ _ _ _).mp archived
    exact ⟨named, by rw [side]; exact held⟩

theorem scanned_file (sight : Sight) (home : ThreadHome) (threadId : String) (record : RolloutRecord)
    (scanned : scannedRollout env sight home threadId = some record) :
    isRolloutPath record.source.path = true ∧ (home.tree record.source.archived)[record.source.path]? = some record.source.bytes ∧
      NamesThread env record.source.bytes threadId := by
  obtain ⟨named, member, read⟩ := scan_rollouts_listed env.reader env.utf8Error _ threadId record scanned
  obtain ⟨rollout, held⟩ := home_file env home record.source (List.mem_of_mem_filter member)
  exact ⟨rollout, held, (names_iff env record.source threadId).mp ⟨record, read, named⟩⟩

section Rows

variable (threadId : String)

theorem set_archived_row (archived : Bool) (rows : List Fields) (row : Fields) (member : row ∈ setArchived threadId archived rows)
    (own : rowId row = some threadId) : boolField row "archived" = some archived := by
  obtain ⟨before, _, made⟩ := List.mem_map.mp member
  by_cases named : rowId before = some threadId
  · rw [if_pos named] at made
    rw [← made, boolField, field_insert, if_pos rfl]
    cases archived
    · decide
    · decide
  · rw [if_neg named] at made
    exact absurd (made ▸ own) named

theorem remove_rows_row (rows : List Fields) (row : Fields) (member : row ∈ removeRows threadId rows) :
    rowId row ≠ some threadId := by
  simpa using (List.mem_filter.mp member).2

theorem changed_database (home : ThreadHome) (path : String) (change : List Fields → List Fields) (database : ThreadDatabase)
    (member : database ∈ (home.withDatabase path change).databases) :
    ∃ before ∈ home.databases, database.path = before.path ∧
      database.rows = if before.path = path then change before.rows else before.rows := by
  obtain ⟨before, inside, rfl⟩ := List.mem_map.mp member
  refine ⟨before, inside, ?_⟩
  by_cases same : before.path = path
  · rw [if_pos same, if_pos same]
    exact ⟨rfl, rfl⟩
  · rw [if_neg same, if_neg same]
    exact ⟨rfl, rfl⟩

theorem kept_database (home : ThreadHome) (path : String) (change : List Fields → List Fields) (database : ThreadDatabase)
    (member : database ∈ home.databases) (other : database.path ≠ path) : database ∈ (home.withDatabase path change).databases :=
  List.mem_map.mpr ⟨database, member, if_neg other⟩

end Rows

section Conditions

variable (attempt : Attempt) (home : ThreadHome) (threadId : String)

-- The steps up to the change of the rollout file all end well.
def FileStep (action : String) (file : RolloutFile) : Prop :=
  attempt.prepare = .ok () ∧ (∃ thread, scannedRollout env attempt.sight home threadId = some thread ∧ thread.source = file) ∧
    (action = "archive" ∧ file.archived = false ∧ attempt.createDirectory = .ok () ∧ attempt.moveFile = .ok () ∨
      action = "restore" ∧ file.archived = true ∧ attempt.createDirectory = .ok () ∧ attempt.moveFile = .ok () ∨
      action = "delete" ∧ attempt.removeFile = .ok ())

-- The row can be changed, where there is one.
def RowStep (action : String) : Prop :=
  ∀ database, sourceDatabase attempt.sight home threadId = some database →
    attempt.openDatabase = .ok () ∧ attempt.execute = .ok () ∧ (action ≠ "delete" → "archived" ∈ database.columns)

def OtherRows (agrees : Fields → Prop) : Prop :=
  ∀ database ∈ home.databases, (∀ source, sourceDatabase attempt.sight home threadId = some source → database.path ≠ source.path) →
    ∀ row ∈ database.rows, rowId row = some threadId → agrees row

-- Neither another file of the thread nor a row in another database says something else.
def MoveAgrees (file : RolloutFile) (archived : Bool) : Prop :=
  (∀ path, HasFile env home threadId file.archived path → path = file.path) ∧
    OtherRows attempt home threadId fun row => boolField row "archived" = some archived

def DeleteAgrees (file : RolloutFile) : Prop :=
  (∀ archived path, HasFile env home threadId archived path → archived = file.archived ∧ path = file.path) ∧
    OtherRows attempt home threadId fun _ => False

def OthersAgree (action : String) (file : RolloutFile) : Prop :=
  (action = "archive" → MoveAgrees env attempt home threadId file true) ∧
    (action = "restore" → MoveAgrees env attempt home threadId file false) ∧
    (action = "delete" → DeleteAgrees env attempt home threadId file)

def Wrote (change : List Fields → List Fields) (changed after : ThreadHome) : Prop :=
  sourceDatabase attempt.sight home threadId = none ∧ after = changed ∨
    ∃ database, sourceDatabase attempt.sight home threadId = some database ∧ after = changed.withDatabase database.path change

theorem wrote_tree (change : List Fields → List Fields) (changed after : ThreadHome)
    (wrote : Wrote attempt home threadId change changed after) (archived : Bool) : after.tree archived = changed.tree archived := by
  rcases wrote with ⟨_, rfl⟩ | ⟨database, _, rfl⟩
  · rfl
  · rfl

theorem rows_agree (agrees : Fields → Prop) (change : List Fields → List Fields)
    (good : ∀ rows, ∀ row ∈ change rows, rowId row = some threadId → agrees row) (changed after : ThreadHome)
    (same : changed.databases = home.databases) (wrote : Wrote attempt home threadId change changed after) :
    (∀ database ∈ after.databases, ∀ row ∈ database.rows, rowId row = some threadId → agrees row) ↔
      OtherRows attempt home threadId agrees := by
  rcases wrote with ⟨none, rfl⟩ | ⟨source, chosen, rfl⟩
  · simp [same, OtherRows, none]
  · constructor
    · intro all database member apart row inside own
      exact all database (kept_database changed source.path change database (same ▸ member) (apart source chosen)) row inside own
    · intro others database member row inside own
      obtain ⟨before, held, _, rows⟩ := changed_database changed source.path change database member
      rw [rows] at inside
      by_cases named : before.path = source.path
      · rw [if_pos named] at inside
        exact good _ row inside own
      · rw [if_neg named] at inside
        refine others before (same ▸ held) (fun other found => ?_) row inside own
        rw [chosen, Option.some.injEq] at found
        exact found ▸ named

theorem moved_tree (file : RolloutFile) (archived : Bool) (apart : file.archived ≠ archived) :
    (home.moved file archived).tree archived = (home.tree archived).insert file.path file.bytes ∧
      (home.moved file archived).tree (!archived) = (home.tree (!archived)).erase file.path := by
  cases archived
  · exact ⟨rfl, rfl⟩
  · exact ⟨rfl, rfl⟩

theorem removed_tree (file : RolloutFile) :
    (home.removed file).tree file.archived = (home.tree file.archived).erase file.path ∧
      (home.removed file).tree (!file.archived) = home.tree (!file.archived) := by
  cases side : file.archived
  · simp [ThreadHome.removed, ThreadHome.tree, side]
  · simp [ThreadHome.removed, ThreadHome.tree, side]

theorem erased_file (archived : Bool) (path : String) (after : ThreadHome)
    (erased : after.tree archived = (home.tree archived).erase path) (other : String) : HasFile env after threadId archived other ↔
      other ≠ path ∧ HasFile env home threadId archived other := by
  unfold HasFile
  rw [erased]
  by_cases same : other = path
  · simp [same]
  · simp [Keyed.lookup_erase, same]

theorem move_settled (file : RolloutFile) (archived : Bool) (after : ThreadHome) (apart : file.archived ≠ archived)
    (named : isRolloutPath file.path = true) (owned : NamesThread env file.bytes threadId)
    (wrote : Wrote attempt home threadId (setArchived threadId archived) (home.moved file archived) after) :
    InTree env after threadId archived ↔ MoveAgrees env attempt home threadId file archived := by
  have trees := moved_tree home file archived apart
  have side : file.archived = !archived := by simpa [Bool.eq_not] using apart
  have here : after.tree archived = (home.tree archived).insert file.path file.bytes :=
    (wrote_tree attempt home threadId _ _ _ wrote _).trans trees.1
  have there : after.tree (!archived) = (home.tree (!archived)).erase file.path :=
    (wrote_tree attempt home threadId _ _ _ wrote _).trans trees.2
  have databases : (home.moved file archived).databases = home.databases := by cases archived <;> rfl
  have rows := rows_agree attempt home threadId (fun row => boolField row "archived" = some archived) (setArchived threadId archived)
    (set_archived_row threadId archived) _ _ databases wrote
  have files : (∀ path, ¬ HasFile env after threadId (!archived) path) ↔
    ∀ path, HasFile env home threadId file.archived path → path = file.path := by
    rw [side]
    simp only [erased_file env home threadId (!archived) file.path after there, not_and, not_imp_not]
  constructor
  · rintro ⟨_, only, allRows⟩
    exact ⟨files.mp only, rows.mp allRows⟩
  · rintro ⟨only, others⟩
    refine ⟨⟨file.path, named, file.bytes, ?_, owned⟩, files.mpr only, rows.mpr others⟩
    rw [here, Keyed.lookup_insert, if_pos rfl]

theorem delete_settled (file : RolloutFile) (after : ThreadHome)
    (wrote : Wrote attempt home threadId (removeRows threadId) (home.removed file) after) :
    Gone env after threadId ↔ DeleteAgrees env attempt home threadId file := by
  have trees := removed_tree home file
  have here : after.tree file.archived = (home.tree file.archived).erase file.path :=
    (wrote_tree attempt home threadId _ _ _ wrote _).trans trees.1
  have there : after.tree (!file.archived) = home.tree (!file.archived) :=
    (wrote_tree attempt home threadId _ _ _ wrote _).trans trees.2
  have databases : (home.removed file).databases = home.databases := by
    unfold ThreadHome.removed
    cases file.archived <;> rfl
  have rows := rows_agree attempt home threadId (fun _ => False) (removeRows threadId)
    (fun rows row member own => remove_rows_row threadId rows row member own) _ _ databases wrote
  have erased := erased_file env home threadId file.archived file.path after here
  have kept : ∀ path, HasFile env after threadId (!file.archived) path ↔ HasFile env home threadId (!file.archived) path :=
    fun path => by
    unfold HasFile
    rw [there]
  constructor
  · rintro ⟨files, gone⟩
    refine ⟨fun archived path has => ?_, rows.mp gone⟩
    by_cases side : archived = file.archived
    · subst side
      refine ⟨rfl, not_not.mp fun other => files _ path ((erased path).mpr ⟨other, has⟩)⟩
    · have flipped : archived = !file.archived := by simpa [Bool.eq_not] using side
      subst flipped
      exact absurd ((kept path).mpr has) (files _ path)
  · rintro ⟨only, others⟩
    refine ⟨fun archived path has => ?_, rows.mpr others⟩
    by_cases side : archived = file.archived
    · subst side
      obtain ⟨other, before⟩ := (erased path).mp has
      exact other (only _ path before).2
    · have flipped : archived = !file.archived := by simpa [Bool.eq_not] using side
      subst flipped
      exact side (only _ path ((kept path).mp has)).1

end Conditions

section Atomic

variable (attempt : Attempt) (home : ThreadHome) (threadId action : String)

def ThreadHome.fileChanged (file : RolloutFile) : ThreadHome :=
  if action = "archive" then home.moved file true else if action = "restore" then home.moved file false else home.removed file

def rowChange : List Fields → List Fields :=
  if action = "archive" then setArchived threadId true
  else if action = "restore" then setArchived threadId false
  else removeRows threadId

theorem update_row (archived : Bool) (moves : action ≠ "delete") (changed : ThreadHome) :
    (RowStep attempt home threadId action → ∃ after, Wrote attempt home threadId (setArchived threadId archived) changed after ∧
      updateRow attempt changed threadId archived (sourceDatabase attempt.sight home threadId) = .ok after) ∧
    (¬ RowStep attempt home threadId action →
      ∃ message, updateRow attempt changed threadId archived (sourceDatabase attempt.sight home threadId) = .error message) := by
  cases chosen : sourceDatabase attempt.sight home threadId with
  | none =>
      exact ⟨fun _ => ⟨changed, .inl ⟨chosen, rfl⟩, rfl⟩, fun blocked =>
      absurd (fun database found => by rw [chosen] at found; cases found) blocked⟩
  | some database =>
      constructor
      · intro ready
        obtain ⟨opens, executes, columns⟩ := ready database chosen
        refine ⟨_, .inr ⟨database, chosen, rfl⟩, ?_⟩
        rw [updateRow, opens, executes]
        exact ensured _ _ _ (columns moves)
      · intro blocked
        cases result : updateRow attempt changed threadId archived (some database) with
        | error message => exact ⟨message, rfl⟩
        | ok after =>
            simp only [updateRow, bind_ok, ensure_ok] at result
            obtain ⟨_, opens, _, executes, _, columns, _⟩ := result
            refine absurd (fun other found => ?_) blocked
            rw [chosen, Option.some.injEq] at found
            exact ⟨opens, executes, fun _ => found ▸ columns⟩

theorem delete_row (deletes : action = "delete") (changed : ThreadHome) :
    (RowStep attempt home threadId action → ∃ after, Wrote attempt home threadId (removeRows threadId) changed after ∧
      deleteRow attempt changed threadId (sourceDatabase attempt.sight home threadId) = .ok after) ∧
    (¬ RowStep attempt home threadId action →
      ∃ message, deleteRow attempt changed threadId (sourceDatabase attempt.sight home threadId) = .error message) := by
  cases chosen : sourceDatabase attempt.sight home threadId with
  | none =>
      exact ⟨fun _ => ⟨changed, .inl ⟨chosen, rfl⟩, rfl⟩, fun blocked =>
      absurd (fun database found => by rw [chosen] at found; cases found) blocked⟩
  | some database =>
      constructor
      · intro ready
        obtain ⟨opens, executes, _⟩ := ready database chosen
        refine ⟨_, .inr ⟨database, chosen, rfl⟩, ?_⟩
        simp [deleteRow, opens, executes, bind_ok]
      · intro blocked
        cases result : deleteRow attempt changed threadId (some database) with
        | error message => exact ⟨message, rfl⟩
        | ok after =>
            simp only [deleteRow, bind_ok] at result
            obtain ⟨_, opens, _, executes, _⟩ := result
            exact absurd (fun _ _ => ⟨opens, executes, fun moves => absurd deletes moves⟩) blocked

theorem followed_split (file : Except String ThreadHome) (changed : ThreadHome) (done : file = .ok changed)
    (row : ThreadHome → Except String ThreadHome) (ready : Prop) (wrote : ThreadHome → Prop)
    (split : (ready → ∃ after, wrote after ∧ row changed = .ok after) ∧ (¬ ready → ∃ message, row changed = .error message)) :
    (ready → ∃ after, wrote after ∧ followed home file row = (.ok (), after)) ∧
      (¬ ready → ∃ message, followed home file row = (.error message, changed)) := by
  subst done
  constructor
  · intro holds
    obtain ⟨after, written, run⟩ := split.1 holds
    exact ⟨after, written, by simp only [followed, run]⟩
  · intro fails
    obtain ⟨message, run⟩ := split.2 fails
    exact ⟨message, by simp only [followed, run]⟩

-- Once the file is changed the run ends as the row's step does.
theorem mutate_reached (file : RolloutFile) (reached : FileStep env attempt home threadId action file) :
    (RowStep attempt home threadId action →
      ∃ after, Wrote attempt home threadId (rowChange threadId action) (home.fileChanged action file) after ∧
      mutateLocalThread env attempt home threadId action = (.ok (), after)) ∧
    (¬ RowStep attempt home threadId action → ∃ message,
      mutateLocalThread env attempt home threadId action = (.error message, home.fileChanged action file)) := by
  obtain ⟨prepared, ⟨thread, scanned, rfl⟩, steps⟩ := reached
  simp only [mutateLocalThread, prepared, scanned]
  rcases steps with ⟨rfl, side, creates, moves⟩ | ⟨rfl, side, creates, moves⟩ | ⟨rfl, removes⟩
  · refine followed_split home _ _ ?_ _ _ _ (update_row attempt home threadId "archive" true (by decide) _)
    simp [moveRollout, side, creates, moves, ensure, ThreadHome.fileChanged]
    rfl
  · refine followed_split home _ _ ?_ _ _ _ (update_row attempt home threadId "restore" false (by decide) _)
    simp [moveRollout, side, creates, moves, ensure, ThreadHome.fileChanged]
    rfl
  · refine followed_split home _ _ ?_ _ _ _ (delete_row attempt home threadId "delete" rfl _)
    simp [removeRollout, removes, ThreadHome.fileChanged]

theorem followed_failed (file : Except String ThreadHome) (row : ThreadHome → Except String ThreadHome)
    (failed : ∀ changed, file ≠ .ok changed) :
    ∃ message, followed home file row = (.error message, home) := by
  cases file with
  | error message => exact ⟨message, rfl⟩
  | ok changed => exact absurd rfl (failed changed)

theorem mutate_blocked (blocked : ¬ ∃ file, FileStep env attempt home threadId action file) :
    ∃ message, mutateLocalThread env attempt home threadId action = (.error message, home) := by
  unfold mutateLocalThread
  cases prepared : attempt.prepare with
  | error message => exact ⟨message, rfl⟩
  | ok _ =>
      cases scanned : scannedRollout env attempt.sight home threadId with
      | none => exact ⟨_, rfl⟩
      | some thread =>
          have refused : ∀ (archived : Bool),
            (thread.source.archived = (!archived) → attempt.createDirectory = .ok () → attempt.moveFile = .ok () →
              ∃ file, FileStep env attempt home threadId action file) →
                ∀ changed, moveRollout attempt home thread.source archived ≠ .ok changed := by
            intro archived reach changed moved
            simp only [moveRollout, bind_ok, ensure_ok] at moved
            obtain ⟨_, apart, _, creates, _, moves, _⟩ := moved
            exact blocked (reach (by simpa [Bool.eq_not] using apart) creates moves)
          by_cases archive : action = "archive"
          · simp only [if_pos archive]
            exact followed_failed home _ _ (refused true fun side creates moves =>
              ⟨thread.source, prepared, ⟨thread, scanned, rfl⟩, .inl ⟨archive, side, creates, moves⟩⟩)
          simp only [if_neg archive]
          by_cases restore : action = "restore"
          · simp only [if_pos restore]
            exact followed_failed home _ _ (refused false fun side creates moves =>
              ⟨thread.source, prepared, ⟨thread, scanned, rfl⟩, .inr (.inl ⟨restore, side, creates, moves⟩)⟩)
          simp only [if_neg restore]
          by_cases delete : action = "delete"
          · simp only [if_pos delete]
            refine followed_failed home _ _ fun changed removed => ?_
            simp only [removeRollout, bind_ok] at removed
            obtain ⟨_, removes, _⟩ := removed
            exact blocked ⟨thread.source, prepared, ⟨thread, scanned, rfl⟩, .inr (.inr ⟨delete, removes⟩)⟩
          · simp only [if_neg delete]
            exact ⟨_, rfl⟩

theorem file_changed (file : RolloutFile) (reached : FileStep env attempt home threadId action file) :
    home.fileChanged action file ≠ home := by
  obtain ⟨_, ⟨thread, scanned, rfl⟩, steps⟩ := reached
  obtain ⟨_, held, _⟩ := scanned_file env attempt.sight home threadId thread scanned
  have erased : (home.fileChanged action thread.source).tree thread.source.archived =
    (home.tree thread.source.archived).erase thread.source.path := by
    rcases steps with ⟨rfl, side, _⟩ | ⟨rfl, side, _⟩ | ⟨rfl, _⟩
    · rw [side]
      exact (moved_tree home thread.source true (by simp [side])).2
    · rw [side]
      exact (moved_tree home thread.source false (by simp [side])).2
    · exact (removed_tree home thread.source).1
  intro same
  rw [same] at erased
  rw [erased, Keyed.lookup_erase, if_pos rfl] at held
  cases held

theorem reached_settled (file : RolloutFile) (after : ThreadHome) (reached : FileStep env attempt home threadId action file)
    (wrote : Wrote attempt home threadId (rowChange threadId action) (home.fileChanged action file) after) :
    Settled env after threadId action ↔ OthersAgree env attempt home threadId action file := by
  obtain ⟨_, ⟨thread, scanned, rfl⟩, steps⟩ := reached
  obtain ⟨named, _, owned⟩ := scanned_file env attempt.sight home threadId thread scanned
  rcases steps with ⟨rfl, side, _⟩ | ⟨rfl, side, _⟩ | ⟨rfl, _⟩
  · have settled := move_settled env attempt home threadId thread.source true after (by simp [side]) named owned wrote
    simp [Settled, OthersAgree, settled]
  · have settled := move_settled env attempt home threadId thread.source false after (by simp [side]) named owned wrote
    simp [Settled, OthersAgree, settled]
  · have settled := delete_settled env attempt home threadId thread.source after wrote
    simp [Settled, OthersAgree, settled]

structure Atomic : Prop where
  restores : ∀ message, (mutateLocalThread env attempt home threadId action).1 = .error message →
    (mutateLocalThread env attempt home threadId action).2 = home
  settles : (mutateLocalThread env attempt home threadId action).1 = .ok () →
    Settled env (mutateLocalThread env attempt home threadId action).2 threadId action
  retries : ∀ message, (mutateLocalThread env attempt home threadId action).1 = .error message →
    (mutateLocalThread env undisturbed home threadId action).1 = .ok () →
      (mutateLocalThread env undisturbed (mutateLocalThread env attempt home threadId action).2 threadId action).1 = .ok ()

theorem mutation_atomic_iff : Atomic env attempt home threadId action ↔ ∀ file, FileStep env attempt home threadId action file →
    RowStep attempt home threadId action ∧ OthersAgree env attempt home threadId action file := by
  constructor
  · rintro ⟨restores, settles, _⟩ file reached
    obtain ⟨written, left⟩ := mutate_reached env attempt home threadId action file reached
    by_cases ready : RowStep attempt home threadId action
    · obtain ⟨after, wrote, run⟩ := written ready
      rw [run] at settles
      exact ⟨ready, (reached_settled env attempt home threadId action file after reached wrote).mp (settles rfl)⟩
    · obtain ⟨message, run⟩ := left ready
      rw [run] at restores
      exact absurd (restores message rfl) (file_changed env attempt home threadId action file reached)
  · intro condition
    by_cases reaches : ∃ file, FileStep env attempt home threadId action file
    · obtain ⟨file, reached⟩ := reaches
      obtain ⟨ready, others⟩ := condition file reached
      obtain ⟨after, wrote, run⟩ := (mutate_reached env attempt home threadId action file reached).1 ready
      refine ⟨?_, ?_, ?_⟩
      · rw [run]
        exact fun _ impossible => by cases impossible
      · rw [run]
        exact fun _ => (reached_settled env attempt home threadId action file after reached wrote).mpr others
      · rw [run]
        exact fun _ impossible => by cases impossible
    · obtain ⟨message, run⟩ := mutate_blocked env attempt home threadId action reaches
      refine ⟨?_, ?_, ?_⟩
      · rw [run]
        exact fun _ _ => rfl
      · rw [run]
        exact fun impossible => by cases impossible
      · rw [run]
        exact fun _ _ clean => clean

end Atomic

end Law

namespace ThreadSample

open AgreementSample

def env : ScanEnv :=
  { reader := recordReader, utf8Error := noText, walk := fun tree => tree.toList, complete := fun _ => List.Perm.refl _ }

def text : Bytes := (sampleFile []).bytes

def row : Fields := [("archived", .int 0), ("id", .string "thread")]

-- One active thread with its row.
def home : ThreadHome :=
  { sessions := (∅ : Std.ExtTreeMap String Bytes).insert "rollout-1.jsonl" text, archivedSessions := ∅
    databases := [{ path := "state_5.sqlite", columns := ["archived", "id"], rows := [row] }] }

def file : RolloutFile := { path := "rollout-1.jsonl", logicalPath := "sessions/rollout-1.jsonl", archived := false, bytes := text }

def locked : Attempt := { undisturbed with execute := .error "database is locked" }

-- The scan meets the rollout and cannot open the database.
def unread : Attempt := { undisturbed with sight := ⟨fun _ => true, fun _ => false, fun _ _ => true⟩ }

theorem text_names : NamesThread env text "thread" :=
  (names_iff env (sampleFile []) "thread").mp ⟨sampleListing [], sample_read [] (.inl rfl), rfl⟩

theorem home_scanned (sight : Sight) (walked : sight.walks file = true) :
    ∃ thread, scannedRollout env sight home "thread" = some thread ∧ thread.source = file := by
  have files : homeFiles env home = [file] := by
    have active : ((∅ : Std.ExtTreeMap String Bytes).insert "rollout-1.jsonl" text).toList = [("rollout-1.jsonl", text)] :=
      Keyed.single_to_list _ _
    have inactive : (∅ : Std.ExtTreeMap String Bytes).toList = [] := rfl
    have named : isRolloutPath "rollout-1.jsonl" = true := by decide +kernel
    simp only [homeFiles, treeFiles, env, home, active, inactive, List.filter_cons, named, if_true, List.filter_nil]
    rfl
  obtain ⟨record, read, named⟩ := (names_iff env file "thread").mpr text_names
  refine ⟨record, ?_, record_source env.reader env.utf8Error file record read⟩
  rw [scannedRollout, files, List.filter_cons, if_pos walked, List.filter_nil, scanRollouts, List.foldl_cons, List.foldl_nil,
    scanRollout, read]
  simp [named]

theorem locked_reached : FileStep env locked home "thread" "archive" file :=
  ⟨rfl, home_scanned _ rfl, .inl ⟨rfl, rfl, rfl, rfl⟩⟩

theorem locked_row : ¬ RowStep locked home "thread" "archive" := by
  intro ready
  have source : sourceDatabase locked.sight home "thread" =
    some { path := "state_5.sqlite", columns := ["archived", "id"], rows := [row] } := by
    simp [sourceDatabase, locked, undisturbed, home, row, rowId, fieldOf, Value.asStr]
  cases (ready _ source).2.1

-- A locked database leaves the rollout in the archive beside a row that is not, and no
-- second attempt goes through.
theorem locked_database_moves : ∃ message, mutateLocalThread env locked home "thread" "archive" =
    (.error message, home.moved file true) ∧
    home.moved file true ≠ home ∧
    ∀ attempt, ∃ again, mutateLocalThread env attempt (home.moved file true) "thread" "archive" =
      (.error again, home.moved file true) := by
  obtain ⟨message, run⟩ := (mutate_reached env locked home "thread" "archive" file locked_reached).2 locked_row
  refine ⟨message, run, file_changed env locked home "thread" "archive" file locked_reached, fun attempt => ?_⟩
  refine mutate_blocked env attempt (home.moved file true) "thread" "archive" fun ⟨other, reached⟩ => ?_
  obtain ⟨_, ⟨thread, scanned, rfl⟩, ⟨_, side, _⟩ | ⟨other, _⟩ | ⟨other, _⟩⟩ := reached
  · obtain ⟨_, held, _⟩ := scanned_file env attempt.sight (home.moved file true) "thread" thread scanned
    have erased : (home.moved file true).tree false = (home.tree false).erase file.path := (moved_tree home file true (by decide)).2
    have only : home.tree false = (∅ : Std.ExtTreeMap String Bytes).insert file.path text := rfl
    rw [side, erased, only, Keyed.lookup_erase, Keyed.lookup_insert, Std.ExtTreeMap.getElem?_empty] at held
    split at held
    · cases held
    · cases held
  · exact absurd other (by decide)
  · exact absurd other (by decide)

-- A database that the scan passed over keeps its row beside the archived rollout, and
-- the call is content.
theorem unread_row_stays : mutateLocalThread env unread home "thread" "archive" = (.ok (), home.moved file true) ∧
    (home.moved file true).databases = home.databases ∧ ¬ InTree env (home.moved file true) "thread" true := by
  have none_ : sourceDatabase unread.sight home "thread" = none := rfl
  have ready : RowStep unread home "thread" "archive" := fun database found => by cases none_.symm.trans found
  have reached : FileStep env unread home "thread" "archive" file := ⟨rfl, home_scanned _ rfl, .inl ⟨rfl, rfl, rfl, rfl⟩⟩
  obtain ⟨after, ⟨_, rfl⟩ | ⟨database, found, _⟩, run⟩ := (mutate_reached env unread home "thread" "archive" file reached).1 ready
  · refine ⟨run, rfl, fun inTree => ?_⟩
    have noted := inTree.rows _ (.head _) row (.head _) (by decide)
    exact absurd noted (by decide)
  · cases none_.symm.trans found

end ThreadSample

end SessionSync.Local
