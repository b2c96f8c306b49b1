import SessionSync.Core.Models

set_option autoImplicit false

namespace SessionSync.Core

def fieldOf (row : Fields) (name : String) : Option Value :=
  (row.find? fun field => field.1 = name).map Prod.snd

def removeField (name : String) (row : Fields) : Fields := row.filter fun field => field.1 ≠ name

def Value.isNull : Value → Bool
  | .null => true
  | _ => false

-- i64::checked_mul(1_000).
def checkedMillis (seconds : Int) : Option Int :=
  if -2 ^ 63 ≤ seconds * 1000 ∧ seconds * 1000 ≤ 2 ^ 63 - 1 then some (seconds * 1000) else none

-- A newer schema adds columns with sentinel defaults to the "threads" table. The
-- two sides of a comparison may both be absent, and then the column goes as well.
def threadsRowView (row : Fields) : Fields :=
  let updatedAt := (fieldOf row "updated_at").bind Value.asI64
  let updatedAtMs := ((fieldOf row "updated_at_ms").bind Value.asI64).or (updatedAt.bind checkedMillis)
  let recencyAt := (fieldOf row "recency_at").bind Value.asI64
  let recencyAtMs := (fieldOf row "recency_at_ms").bind Value.asI64
  let row := if recencyAt = some 0 ∨ recencyAt = updatedAt then removeField "recency_at" row else row
  let row := if recencyAtMs = some 0 ∨ recencyAtMs = updatedAtMs then removeField "recency_at_ms" row else row
  if (fieldOf row "history_mode").bind Value.asStr = some "legacy" then removeField "history_mode" row else row

def rowView (table : String) : Value → Value
  | .object row =>
      let row := removeField "cwd" (removeField "model_provider" (removeField "codex_home" (removeField "rollout_path" row)))
      let row := row.filter fun field => !field.2.isNull
      .object (if table = "threads" then threadsRowView row else row)
  | other => other

def contentView (content : ContentObject) : ContentObject := { content with sourcePath := none, storage := none }

def remoteThreadView (thread : ThreadBundle) : ThreadBundle :=
  { thread with
    modelProvider := none
    workspace := { thread.workspace with sourcePath := none }
    rollout := contentView thread.rollout
    attachments := thread.attachments.map contentView
    relatedRecords :=
      { sourceDatabase := none
        tables := thread.relatedRecords.tables.map fun table rows => rows.map (rowView table) } }

def semanticThreadHash (lib : Primitives) (thread : ThreadBundle) : String :=
  digestBytes lib (toVec lib (remoteThreadView thread).toValue)

def semanticOptionEq (lib : Primitives) : Option ThreadBundle → Option ThreadBundle → Bool
  | none, none => true
  | some left, some right => semanticThreadHash lib left = semanticThreadHash lib right
  | _, _ => false

-- A thread list read as versions: the hash an id has in it, or none where it is absent.
def versionHash (lib : Primitives) (version : Option ThreadBundle) : Option String :=
  version.map (semanticThreadHash lib)

theorem semantic_option_eq (lib : Primitives) (left right : Option ThreadBundle) :
    semanticOptionEq lib left right = decide (versionHash lib left = versionHash lib right) := by
  cases left <;> cases right <;> simp [semanticOptionEq, versionHash]

theorem version_hash_none (lib : Primitives) (version : Option ThreadBundle) : versionHash lib version = none ↔ version = none :=
  Option.map_eq_none_iff

end SessionSync.Core
