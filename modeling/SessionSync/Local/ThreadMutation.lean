import SessionSync.Rollout.Scan
import SessionSync.Rollout.SessionMeta

set_option autoImplicit false

namespace SessionSync.Local

open SessionSync.Core Checked Rollout

-- A database that the scan reads, with the columns of its threads table.
structure ThreadDatabase where
  path : String
  columns : List String
  rows : List Fields

-- The files below sessions and archived_sessions by their paths there, and the databases
-- in the order in which the scan opens them.
structure ThreadHome where
  sessions : Std.ExtTreeMap String Bytes
  archivedSessions : Std.ExtTreeMap String Bytes
  databases : List ThreadDatabase

-- The walk of a tree gives its files in an order of its own.
structure ScanEnv where
  reader : Reader
  utf8Error : Bytes → String
  walk : Std.ExtTreeMap String Bytes → List (String × Bytes)
  complete : ∀ tree, (walk tree).Perm tree.toList

-- What the scan gets to see. What the walk does not reach, a database that cannot be
-- opened, looked up for its threads table or enumerated, and a row that cannot be read are
-- passed over, at most with a warning.
structure Sight where
  walks : RolloutFile → Bool
  reads : String → Bool
  readsRow : String → Fields → Bool

-- How each step that leaves the program ends: what comes before the first change (the
-- sidebar's catalog is invalidated, the home is there and every rollout met can be opened),
-- what the scan sees meanwhile, and the changes themselves.
structure Attempt where
  prepare : Except String Unit
  sight : Sight
  createDirectory : Except String Unit
  moveFile : Except String Unit
  removeFile : Except String Unit
  openDatabase : Except String Unit
  execute : Except String Unit

def undisturbed : Attempt := ⟨.ok (), ⟨fun _ => true, fun _ => true, fun _ _ => true⟩, .ok (), .ok (), .ok (), .ok (), .ok ()⟩

def isRolloutPath (path : String) : Bool :=
  let name := (path.toList.reverse.takeWhile fun c => c ≠ '/').reverse
  "rollout-".toList.isPrefixOf name && ".jsonl".toList.isSuffixOf name

def treeFiles (env : ScanEnv) (directory : String) (archived : Bool) (tree : Std.ExtTreeMap String Bytes) : List RolloutFile :=
  ((env.walk tree).filter fun file => isRolloutPath file.1).map fun file =>
    { path := file.1, logicalPath := directory ++ "/" ++ file.1, archived := archived, bytes := file.2 }

theorem tree_file_iff (env : ScanEnv) (directory : String) (archived : Bool) (tree : Std.ExtTreeMap String Bytes)
    (file : RolloutFile) :
    file ∈ treeFiles env directory archived tree ↔ isRolloutPath file.path = true ∧ tree[file.path]? = some file.bytes ∧
      file.archived = archived ∧ file.logicalPath = directory ++ "/" ++ file.path := by
  simp only [treeFiles, List.mem_map, List.mem_filter]
  constructor
  · rintro ⟨⟨path, bytes⟩, ⟨walked, named⟩, rfl⟩
    exact ⟨named, Std.ExtTreeMap.mem_toList_iff_getElem?_eq_some.mp ((env.complete tree).mem_iff.mp walked), rfl, rfl⟩
  · rintro ⟨named, held, side, logical⟩
    refine ⟨(file.path, file.bytes),
      ⟨(env.complete tree).mem_iff.mpr (Std.ExtTreeMap.mem_toList_iff_getElem?_eq_some.mpr held), named⟩, ?_⟩
    rw [← side, ← logical]

def homeFiles (env : ScanEnv) (home : ThreadHome) : List RolloutFile :=
  treeFiles env "sessions" false home.sessions ++ treeFiles env "archived_sessions" true home.archivedSessions

def scannedRollout (env : ScanEnv) (sight : Sight) (home : ThreadHome) (threadId : String) : Option RolloutRecord :=
  (scanRollouts env.reader env.utf8Error ((homeFiles env home).filter sight.walks)).rollouts[threadId]?

def boolField (row : Fields) (key : String) : Option Bool :=
  (fieldOf row key).bind fun value =>
    match value with
    | .bool value => some value
    | .string text => if text = "true" then some true else if text = "false" then some false else none
    | other => other.asI64.map fun value => value ≠ 0

def rowId (row : Fields) : Option String := (fieldOf row "id").bind Value.asStr

-- The first database of which the scan reads a row of the thread.
def sourceDatabase (sight : Sight) (home : ThreadHome) (threadId : String) : Option ThreadDatabase :=
  home.databases.find? fun database => sight.reads database.path &&
    database.rows.any fun row => sight.readsRow database.path row && rowId row = some threadId

def ThreadHome.withDatabase (home : ThreadHome) (path : String) (change : List Fields → List Fields) : ThreadHome :=
  { home with databases := home.databases.map fun database =>
      if database.path = path then { database with rows := change database.rows } else database }

def setArchived (threadId : String) (archived : Bool) (rows : List Fields) : List Fields :=
  rows.map fun row => if rowId row = some threadId then insertField "archived" (.int (if archived then 1 else 0)) row else row

def removeRows (threadId : String) (rows : List Fields) : List Fields := rows.filter fun row => rowId row ≠ some threadId

-- The rename from one tree to the other, which replaces what has the path there.
def ThreadHome.moved (home : ThreadHome) (file : RolloutFile) (archived : Bool) : ThreadHome :=
  if archived then
    { home with sessions := home.sessions.erase file.path, archivedSessions := home.archivedSessions.insert file.path file.bytes }
  else { home with sessions := home.sessions.insert file.path file.bytes, archivedSessions := home.archivedSessions.erase file.path }

def ThreadHome.removed (home : ThreadHome) (file : RolloutFile) : ThreadHome :=
  if file.archived then { home with archivedSessions := home.archivedSessions.erase file.path }
  else { home with sessions := home.sessions.erase file.path }

section Steps

variable (attempt : Attempt) (home : ThreadHome) (threadId : String)

def moveRollout (file : RolloutFile) (archived : Bool) : Except String ThreadHome := do
  ensure (file.archived ≠ archived) "rollout path is outside session tree"
  attempt.createDirectory
  attempt.moveFile
  return home.moved file archived

def removeRollout (file : RolloutFile) : Except String ThreadHome := do
  attempt.removeFile
  return home.removed file

def updateRow (archived : Bool) : Option ThreadDatabase → Except String ThreadHome
  | none => .ok home
  | some database => do
      attempt.openDatabase
      attempt.execute
      ensure ("archived" ∈ database.columns) "no such column: archived"
      return home.withDatabase database.path (setArchived threadId archived)

def deleteRow : Option ThreadDatabase → Except String ThreadHome
  | none => .ok home
  | some database => do
      attempt.openDatabase
      attempt.execute
      return home.withDatabase database.path (removeRows threadId)

-- A failure after the file step leaves what that step did.
def followed (file : Except String ThreadHome) (row : ThreadHome → Except String ThreadHome) : Except String Unit × ThreadHome :=
  match file with
  | .error error => (.error error, home)
  | .ok changed =>
      match row changed with
      | .error error => (.error error, changed)
      | .ok after => (.ok (), after)

end Steps

def mutateLocalThread (env : ScanEnv) (attempt : Attempt) (home : ThreadHome) (threadId action : String) :
    Except String Unit × ThreadHome :=
  match attempt.prepare with
  | .error error => (.error error, home)
  | .ok () =>
      match scannedRollout env attempt.sight home threadId with
      | none => (.error ("thread " ++ threadId ++ " was not found"), home)
      | some thread =>
          if action = "archive" then
            followed home (moveRollout attempt home thread.source true) fun changed =>
              updateRow attempt changed threadId true (sourceDatabase attempt.sight home threadId)
          else if action = "restore" then
            followed home (moveRollout attempt home thread.source false) fun changed =>
              updateRow attempt changed threadId false (sourceDatabase attempt.sight home threadId)
          else if action = "delete" then
            followed home (removeRollout attempt home thread.source) fun changed =>
              deleteRow attempt changed threadId (sourceDatabase attempt.sight home threadId)
          else (.error ("unsupported thread action " ++ action), home)

end SessionSync.Local
