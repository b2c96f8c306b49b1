import SessionSync.Core.Json

set_option autoImplicit false

namespace SessionSync.Core

-- storage_v3::StorageRef, tagged by "kind".
inductive StorageRef where
  | whole (objectSha256 : String)
  | chunked (manifestSha256 : String)
deriving DecidableEq, Repr

structure ContentObject where
  sha256 : String
  byteLength : UInt64
  mediaType : String
  logicalPath : Option String
  sourcePath : Option String
  storage : Option StorageRef
deriving DecidableEq, Repr

structure WorkspaceRef where
  logicalId : Option String
  sourcePath : Option String
deriving DecidableEq, Repr

abbrev Fields := List (String × Value)

structure RelatedRecords where
  sourceDatabase : Option String
  tables : Std.ExtTreeMap String (List Value)

structure ThreadBundle where
  schemaVersion : UInt32
  threadId : String
  title : String
  archived : Bool
  createdAtMs : Option Int64
  updatedAtMs : Option Int64
  modelProvider : Option String
  workspace : WorkspaceRef
  rollout : ContentObject
  relatedRecords : RelatedRecords
  attachments : List ContentObject

structure LocalSnapshot where
  schemaVersion : UInt32
  snapshotId : String
  createdAt : String
  threads : List ThreadBundle
  warningCount : UInt64

def StorageRef.toValue : StorageRef → Value
  | .whole object => .object [("kind", .string "whole"), ("object_sha256", .string object)]
  | .chunked manifest => .object [("kind", .string "chunked"), ("manifest_sha256", .string manifest)]

-- The path of the source file is skipped, and so is a storage that is not there.
def ContentObject.toValue (content : ContentObject) : Value :=
  .object ([("sha256", .string content.sha256), ("byteLength", .nat content.byteLength),
    ("mediaType", .string content.mediaType), ("logicalPath", .option .string content.logicalPath)] ++
    content.storage.toList.map fun storage => ("storage", storage.toValue))

def WorkspaceRef.toValue (workspace : WorkspaceRef) : Value :=
  .object [("logicalId", .option .string workspace.logicalId), ("sourcePath", .option .string workspace.sourcePath)]

def RelatedRecords.toValue (records : RelatedRecords) : Value :=
  .object [("tables", .object (records.tables.toList.map fun table => (table.1, .array table.2)))]

def ThreadBundle.toValue (thread : ThreadBundle) : Value :=
  .object [("schemaVersion", .nat thread.schemaVersion.toUInt64), ("threadId", .string thread.threadId),
    ("title", .string thread.title), ("archived", .bool thread.archived),
    ("createdAtMs", .option .int thread.createdAtMs), ("updatedAtMs", .option .int thread.updatedAtMs),
    ("modelProvider", .option .string thread.modelProvider), ("workspace", thread.workspace.toValue),
    ("rollout", thread.rollout.toValue), ("relatedRecords", thread.relatedRecords.toValue),
    ("attachments", .array (thread.attachments.map ContentObject.toValue))]

end SessionSync.Core
