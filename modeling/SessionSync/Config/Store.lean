import SessionSync.Core.Models
import SessionSync.Lib.Checked
import SessionSync.Lib.Keyed
import SessionSync.Lib.Serial

set_option autoImplicit false

namespace SessionSync.Config

open SessionSync.Core Checked

-- One configuration file and the temporary files written beside it.
structure ConfigState where
  file : Option Bytes
  temporaries : Std.ExtTreeMap Uuid Bytes

inductive ConfigError where
  | io (operation : String)
  | invalid (message : String)
deriving DecidableEq, Repr

abbrev Action (α : Type) := Prog ConfigState ConfigError α

inductive Operation where
  | load
  | createDirectory
  | createTemporary
  | write
  | sync
  | remove
  | rename
  | reload
deriving DecidableEq, Repr

-- What a call draws from its surroundings: the name of its temporary file, and which of
-- its file operations the system refuses. `replaces` says whether a rename replaces a
-- target that is there.
structure Draws where
  temporary : Uuid
  replaces : Bool
  refused : Operation → Bool

-- The three stores differ in what they keep, in what their calls change and in whether
-- a call reads the file back for its answer.
structure Store (Document Call Arguments Saved Answer : Type) where
  default : Document
  -- What `load` makes of the bytes of the file.
  decode : Bytes → Except String Document
  -- The checks of the arguments, before the file is read.
  check : Call → Except String Arguments
  change : Arguments → Document → Except String (Document × Saved)
  -- The check that `save` makes before it writes.
  validate : Document → Except String Unit
  encode : Document → Bytes
  answer : Saved → Answer ⊕ (Document → Answer)

variable {Document Call Arguments Saved Answer : Type}

def loaded (store : Store Document Call Arguments Saved Answer) : Option Bytes → Except ConfigError Document
  | none => .ok store.default
  | some bytes => (store.decode bytes).mapError .invalid

def load (store : Store Document Call Arguments Saved Answer) (draws : Draws) (operation : Operation) : Action Document :=
  Prog.read fun state => do
    ensure (draws.refused operation = false) (.io "open")
    loaded store state.file

def attempt (draws : Draws) (operation : Operation) (name : String) (run : ConfigState → Except ConfigError ConfigState)
    (state : ConfigState) : Except ConfigError (Unit × ConfigState) := do
  ensure (draws.refused operation = false) (.io name)
  let after ← run state
  return ((), after)

def operate (draws : Draws) (operation : Operation) (name : String) (run : ConfigState → Except ConfigError ConfigState) :
    Action Unit :=
  Prog.transact (attempt draws operation name run)

-- OpenOptions::create_new.
def createTemporary (name : Uuid) (state : ConfigState) : Except ConfigError ConfigState := do
  ensure (state.temporaries.contains name = false) (.io "create")
  return { state with temporaries := state.temporaries.insert name [] }

def writeTemporary (name : Uuid) (bytes : Bytes) (state : ConfigState) : Except ConfigError ConfigState :=
  .ok { state with temporaries := state.temporaries.insert name bytes }

def removeFile (state : ConfigState) : Except ConfigError ConfigState := do
  ensure (state.file.isSome = true) (.io "remove")
  return { state with file := none }

def renameTemporary (draws : Draws) (state : ConfigState) : Except ConfigError ConfigState := do
  let bytes ← found state.temporaries[draws.temporary]? (.io "rename")
  ensure (state.file = none ∨ draws.replaces = true) (.io "rename")
  return { file := some bytes, temporaries := state.temporaries.erase draws.temporary }

structure Ready (Saved Document : Type) where
  saved : Saved
  document : Document
  present : Bool

-- A call up to the moment it touches the file: the loaded document is changed, checked
-- and written to the temporary file.
def prepare (store : Store Document Call Arguments Saved Answer) (call : Call) (draws : Draws) : Action (Ready Saved Document) := do
  let arguments ← Prog.ofExcept ((store.check call).mapError .invalid)
  let document ← load store draws .load
  let (document, saved) ← Prog.ofExcept ((store.change arguments document).mapError .invalid)
  Prog.ofExcept ((store.validate document).mapError .invalid)
  operate draws .createDirectory "create directory" .ok
  operate draws .createTemporary "create" (createTemporary draws.temporary)
  operate draws .write "write" (writeTemporary draws.temporary (store.encode document))
  operate draws .sync "sync" .ok
  let present ← Prog.query fun state => state.file.isSome
  return { saved := saved, document := document, present := present }

def removeOld (draws : Draws) (present : Bool) : Action Unit :=
  if present then operate draws .remove "remove" removeFile else .ret ()

def finish (store : Store Document Call Arguments Saved Answer) (draws : Draws) (saved : Saved) : Action Answer :=
  match store.answer saved with
  | .inl answer => .ret answer
  | .inr view => view <$> load store draws .reload

def program (store : Store Document Call Arguments Saved Answer) (issued : Call × Draws) : Action Answer := do
  let ready ← prepare store issued.1 issued.2
  removeOld issued.2 ready.present
  operate issued.2 .rename "rename" (renameTemporary issued.2)
  finish store issued.2 ready.saved

-- What a call is for: the bytes it makes of the file it finds.
def perform (store : Store Document Call Arguments Saved Answer) (call : Call) (file : Option Bytes) : Except ConfigError Bytes := do
  let arguments ← (store.check call).mapError .invalid
  let document ← loaded store file
  let (document, _) ← (store.change arguments document).mapError .invalid
  (store.validate document).mapError .invalid
  return store.encode document

-- Calls made one after the other.
inductive Replays (store : Store Document Call Arguments Saved Answer) : Option Bytes → List Call → Option Bytes → Prop where
  | nil (file : Option Bytes) : Replays store file [] file
  | snoc (file last : Option Bytes) (calls : List Call) (call : Call) (bytes : Bytes) (before : Replays store file calls last)
      (performed : perform store call last = .ok bytes) : Replays store file (calls ++ [call]) (some bytes)

end SessionSync.Config
