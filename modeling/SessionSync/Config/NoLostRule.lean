import Mathlib.Logic.Equiv.List
import Mathlib.Tactic.DeriveEncodable
import SessionSync.Config.Namespaces
import SessionSync.Config.Workspaces
import SessionSync.Core.Sha256

set_option autoImplicit false

namespace SessionSync.Config

open SessionSync.Core Checked

section Runs

variable {Document Call Arguments Saved Answer Rule : Type} (store : Store Document Call Arguments Saved Answer)

-- The calls of a run whose files were put in place, in that order.
def applied (events : List (Event Call Answer)) (last : World Call Answer) : List Call :=
  (Schedule.effective replaced events ++ landed last.running).map Prod.fst

-- Runs in which calls do not overlap and none is stopped while the file is away.
def RunsKeepRules (held : Option Bytes → Rule → Prop) (deletes : Call → Document → Rule → Prop) : Prop :=
  ∀ start last events, start.running = [] → Schedule.Within (program store) (Schedule.Serially (Stops store)) start events last →
    (∀ task ∈ last.running, removed task.taken = true → replaced task.taken = true) →
      NoRuleLost store held deletes start.state.file (applied events last) last.state.file

theorem runs_keep_rules (held : Option Bytes → Rule → Prop) (deletes : Call → Document → Rule → Prop)
    (keeps : KeepsRules store held deletes) : RunsKeepRules store held deletes := by
  intro start last events fresh run settled
  exact no_rule_lost store held deletes keeps _ _ _ (serial_calls store start last events fresh run settled)

-- A call that the system refuses nothing, up to the moment it touches the file.
theorem prepare_exec (call : Call) (draws : Draws) (state : ConfigState) (bytes : Bytes)
    (performed : perform store call state.file = .ok bytes) (calm : ∀ operation, draws.refused operation = false)
    (unused : state.temporaries.contains draws.temporary = false) :
    ∃ ready temporaries, (prepare store call draws).exec state = (.ok ready, { state with temporaries := temporaries }) ∧
      temporaries = (state.temporaries.insert draws.temporary []).insert draws.temporary bytes ∧
        ready.present = state.file.isSome := by
  obtain ⟨arguments, document, changed, checked, read, changes, valid, rfl⟩ := perform_loaded store call state.file bytes performed
  refine ⟨⟨changed.2, changed.1, state.file.isSome⟩, _, ?_, rfl, rfl⟩
  simp only [prepare, Prog.exec_bind_ok, Prog.exec_of_except, exec_operate_ok, exec_load_ok]
  refine ⟨arguments, state,
    by rw [checked], document, state, ⟨calm _, read, rfl⟩, changed, state, by rw [changes], (), state, by rw [valid], ?_⟩
  refine ⟨(), state, ⟨calm _, rfl⟩, (), { state with temporaries := state.temporaries.insert draws.temporary [] }, ⟨calm _, ?_⟩, ?_⟩
  · simp only [createTemporary, bind_ok, ensure_ok, pure_ok]
    exact ⟨(), unused, trivial⟩
  · exact ⟨(), _, ⟨calm _, rfl⟩, (), _, ⟨calm _, rfl⟩, _, _, rfl, rfl⟩

def swap (draws : Draws) (ready : Ready Saved Document) : Action Answer := do
  removeOld draws ready.present
  operate draws .rename "rename" (renameTemporary draws)
  finish store draws ready.saved

-- It then puts its file in place, whatever has happened to the file in between.
theorem replace_exec (draws : Draws) (state : ConfigState) (present : Bool) (bytes : Bytes)
    (calm : ∀ operation, draws.refused operation = false) (replaces : draws.replaces = true)
    (written : state.temporaries[draws.temporary]? = some bytes) (there : present = true → state.file.isSome = true) :
    (removeOld draws present >>= fun _ => operate draws .rename "rename" (renameTemporary draws)).exec state =
      (.ok (), ⟨some bytes, state.temporaries.erase draws.temporary⟩) := by
  have renamed : ∀ file, renameTemporary draws ⟨file, state.temporaries⟩ =
    .ok ⟨some bytes, state.temporaries.erase draws.temporary⟩ := by
    intro file
    simp only [renameTemporary, bind_ok, found_ok, ensure_ok, pure_ok]
    exact ⟨bytes, written, (), .inr replaces, rfl⟩
  have gone : ∃ file, (removeOld draws present).exec state = (.ok (), ⟨file, state.temporaries⟩) := by
    unfold removeOld
    by_cases held : present = true
    · rw [if_pos held]
      refine ⟨none, (exec_operate_ok _ _ _ _ _ _ _).mpr ⟨calm _, ?_⟩⟩
      simp only [removeFile, bind_ok, ensure_ok, pure_ok]
      exact ⟨(), there held, trivial⟩
    · rw [if_neg held]
      exact ⟨state.file, rfl⟩
  obtain ⟨file, gone⟩ := gone
  exact (Prog.exec_bind_ok _ _ _ _ _).mpr ⟨(), _, gone, (exec_operate_ok _ _ _ _ _ _ _).mpr ⟨calm _, renamed file⟩⟩

theorem swap_exec (draws : Draws) (state : ConfigState) (ready : Ready Saved Document) (bytes : Bytes) (answer : Answer)
    (calm : ∀ operation, draws.refused operation = false) (replaces : draws.replaces = true)
    (written : state.temporaries[draws.temporary]? = some bytes) (present : ready.present = true → state.file.isSome = true)
    (answers : ∀ last : ConfigState, last.file = some bytes → (finish store draws ready.saved).exec last = (.ok answer, last)) :
    (swap store draws ready).exec state = (.ok answer, ⟨some bytes, state.temporaries.erase draws.temporary⟩) := by
  obtain ⟨_, gone, removes, renames⟩ :=
    (Prog.exec_bind_ok _ _ _ _ _).mp (replace_exec draws state ready.present bytes calm replaces written present)
  exact (Prog.exec_bind_ok _ _ _ _ _).mpr ⟨(), gone, removes, (Prog.exec_bind_ok _ _ _ _ _).mpr ⟨(), _, renames, answers _ rfl⟩⟩

theorem call_exec (call : Call) (draws : Draws) (state : ConfigState) (bytes : Bytes)
    (performed : perform store call state.file = .ok bytes) (calm : ∀ operation, draws.refused operation = false)
    (unused : state.temporaries.contains draws.temporary = false) (replaces : draws.replaces = true)
    (answers : ∀ saved, ∃ answer, ∀ last : ConfigState, last.file = some bytes →
      (finish store draws saved).exec last = (.ok answer, last)) :
    ∃ answer, (program store (call, draws)).exec state =
      (.ok answer, ⟨some bytes,
        ((state.temporaries.insert draws.temporary []).insert draws.temporary bytes).erase draws.temporary⟩) := by
  obtain ⟨ready, temporaries, prepared, same, present⟩ := prepare_exec store call draws state bytes performed calm unused
  obtain ⟨answer, answers⟩ := answers ready.saved
  have swapped := swap_exec store draws { state with temporaries := temporaries } ready bytes answer calm replaces
    (by rw [same]; exact (Keyed.lookup_insert _ _ _ _).trans (if_pos rfl)) (fun there => by rw [← present, there]) answers
  subst same
  exact ⟨answer, (Prog.exec_bind_ok _ _ _ _ _).mpr ⟨ready, _, prepared, swapped⟩⟩

-- A call that reads its file back.
theorem view_exec (call : Call) (draws : Draws) (state : ConfigState) (bytes : Bytes) (document : Document)
    (performed : perform store call state.file = .ok bytes) (calm : ∀ operation, draws.refused operation = false)
    (unused : state.temporaries.contains draws.temporary = false) (replaces : draws.replaces = true)
    (views : ∀ saved, ∃ view, store.answer saved = .inr view) (reads : loaded store (some bytes) = .ok document) :
    ∃ answer after, (program store (call, draws)).exec state = (.ok answer, after) ∧ after.file = some bytes := by
  obtain ⟨answer, ends⟩ := call_exec store call draws state bytes performed calm unused replaces fun saved => by
    obtain ⟨view, answers⟩ := views saved
    refine ⟨view document, fun last file => ?_⟩
    simp only [finish, answers, load, Prog.exec_map, Prog.exec_read, calm, file, reads]
    rfl
  exact ⟨answer, _, ends, rfl⟩

variable {store} in
theorem calm_serial (world : World Call Answer) (event : Event Call Answer) (after : World Call Answer)
    (calm : Schedule.Calm 1 world event after) : Schedule.Serially (Stops store) world event after := by
  refine ⟨?_, fun call taken same => absurd same (calm.2 call taken)⟩
  match running : after.running, calm.1 with
  | [], _ => exact List.Pairwise.nil
  | [task], _ => exact List.pairwise_singleton _ _

theorem begin_serial (state : ConfigState) (issued : Call × Draws) (last : World Call Answer) (events : List (Event Call Answer))
    (run : Schedule.Within (program store)
      (Schedule.Serially (Stops store)) ⟨state, [⟨issued, [], program store issued⟩]⟩ events last) :
    Schedule.Within (program store) (Schedule.Serially (Stops store)) ⟨state, []⟩ (.began issued :: events) last :=
  .cons _ _ _ _ _ (.begins state [] issued) ⟨List.pairwise_singleton _ _, fun _ _ same => by cases same⟩ run

-- A call that is stopped between its rename and the reading back of its file.
theorem stopped_view (call : Call) (draws : Draws) (state : ConfigState) (bytes : Bytes) (away : state.file = none)
    (performed : perform store call none = .ok bytes) (calm : ∀ operation, draws.refused operation = false)
    (unused : state.temporaries.contains draws.temporary = false) (replaces : draws.replaces = true)
    (views : ∀ saved, ∃ view, store.answer saved = .inr view) :
    ∃ acts taken, Schedule.Within (program store) (Schedule.Serially (Stops store)) ⟨state, []⟩
      (.began (call, draws) :: (acts ++ [.failed (call, draws) taken]))
      ⟨⟨some bytes, ((state.temporaries.insert draws.temporary []).insert draws.temporary bytes).erase draws.temporary⟩, []⟩ ∧
      (∀ event ∈ acts, event.Acts) ∧ replaced taken = true := by
  rw [← away] at performed
  obtain ⟨ready, temporaries, prepared, same, present⟩ := prepare_exec store call draws state bytes performed calm unused
  obtain ⟨view, answers⟩ := views ready.saved
  have direct : swap store draws ready =
      operate draws .rename "rename" (renameTemporary draws) >>= fun _ => finish store draws ready.saved := by
    rw [swap, present, away]
    rfl
  have renames := replace_exec draws { state with temporaries := temporaries } false bytes calm replaces
    (by rw [same]; exact (Keyed.lookup_insert _ _ _ _).trans (if_pos rfl)) nofun
  obtain ⟨step, next, reading⟩ : ∃ (step : ConfigState → Except ConfigError Document × ConfigState) (next : _ → Action Answer),
      finish store draws ready.saved = .act step next := by
    rw [finish, answers]
    exact ⟨_, _, rfl⟩
  obtain ⟨first, one, loads, firstActs, firstPath, firstLeft⟩ := Schedule.within_first (program store) (prepare store call draws)
    (swap store draws) state _ ready [] [] (call, draws) [] prepared
  obtain ⟨second, two, places, secondActs, secondPath, secondLeft⟩ := Schedule.within_first (program store)
    (operate draws .rename "rename" (renameTemporary draws)) (fun _ => finish store draws ready.saved) _ _ () [] []
    (call, draws) one renames
  rw [direct] at loads firstLeft
  have left := Schedule.after_append _ _ _ _ _ firstLeft secondLeft
  have path := (Schedule.path_append _ _ _ _).mpr ⟨_, firstPath, secondPath⟩
  have placed := path_replaced state _ _ path away rfl
  rw [reading] at loads places left
  subst same
  refine ⟨first ++ second, one ++ two, begin_serial store state _ _ _ ?_, List.forall_mem_append.mpr ⟨firstActs, secondActs⟩, placed⟩
  rw [List.append_assoc]
  refine Schedule.within_append _ _ _ _ _ _ _ (Schedule.within_mono _ _ _ _ _ _ loads calm_serial) ?_
  refine Schedule.within_append _ _ _ _ _ _ _ (Schedule.within_mono _ _ _ _ _ _ places calm_serial) ?_
  refine .cons _ _ _ _ _ (.faults _ [] [] _ _ step next) ⟨List.Pairwise.nil, fun _ _ failed => ?_⟩ (.nil _)
  cases failed
  exact .inr ⟨placed, _, step, next, left⟩

end Runs

-- The stores keep their rules in every such run.
theorem config_stores_keep_rules (lib : Primitives) (urls : Urls) (remotes : Serde RemoteConfigFile)
    (namespaces : Serde NamespaceMappingFile) (workspaces : Serde WorkspaceMappingFile) (remotesRead : remotes.Faithful)
    (namespacesRead : namespaces.Faithful) (workspacesRead : workspaces.Faithful) :
    RunsKeepRules (remoteProfileStore urls remotes) (holdsProfile remotes) (fun _ _ _ => False) ∧
      RunsKeepRules (namespaceMappingStore lib namespaces) (holdsNamespaceRule namespaces) deletesNamespaceRule ∧
      RunsKeepRules (workspaceMappingStore lib workspaces) (holdsWorkspaceRule workspaces) deletesWorkspaceRule :=
  ⟨runs_keep_rules _ _ _ (remotes_keep urls remotes remotesRead),
    runs_keep_rules _ _ _ (namespaces_keep lib namespaces namespacesRead),
      runs_keep_rules _ _ _ (workspaces_keep lib workspaces workspacesRead)⟩

section Overlap

variable (urls : Urls) (serde : Serde RemoteConfigFile)

theorem modify_first_chosen {α : Type} (chosen : α → Bool) (change : α → α) (entries : List α) (changed : α × List α)
    (found : modifyFirst chosen change entries = some changed) : ∃ entry ∈ entries, chosen entry = true := by
  induction entries generalizing changed with
  | nil => cases found
  | cons entry rest ih =>
      rw [modifyFirst] at found
      by_cases here : chosen entry = true
      · exact ⟨entry, List.mem_cons_self, here⟩
      · rw [if_neg here, Option.map_eq_some_iff] at found
        obtain ⟨inner, later, rfl⟩ := found
        obtain ⟨other, member, matched⟩ := ih inner later
        exact ⟨other, List.mem_cons_of_mem _ member, matched⟩

theorem upsert_there (remoteId : Uuid) (displayName serverUrl now : String) (profiles : List RemoteProfile) :
    remoteId ∈ (upsertProfile remoteId displayName serverUrl now profiles).2.map RemoteProfile.id := by
  unfold upsertProfile
  split
  next updated matched =>
      obtain ⟨profile, member, same⟩ := modify_first_chosen _ _ profiles updated matched
      have kept : updated.2.map RemoteProfile.id = profiles.map RemoteProfile.id := by
        refine modify_first_keys RemoteProfile.id _ _ ?_ profiles updated matched
        intro other
        rfl
      rw [kept]
      exact List.mem_map.mpr ⟨profile, member, of_decide_eq_true same⟩
  next absent =>
      rw [List.map_append]
      exact List.mem_append_right _ (List.mem_singleton.mpr rfl)

theorem upsert_holds (faithful : serde.Faithful) (remoteId : Uuid) (displayName serverUrl now : String) (file : Option Bytes)
    (bytes : Bytes) (performed : perform (remoteProfileStore urls serde)
      (.upsert remoteId displayName serverUrl now) file = .ok bytes) :
    holdsProfile serde (some bytes) remoteId := by
  obtain ⟨arguments, document, changed, checked, _, changes, _, rfl⟩ := perform_loaded _ _ file bytes performed
  have checked := (map_error_ok _ _ _).mp checked
  simp only [remoteProfileStore, checkRemote, bind_ok, pure_ok] at checked
  obtain ⟨_, _, _, _, url, _, rfl⟩ := checked
  cases (map_error_ok _ _ _).mp changes
  refine ⟨_, _, rfl, faithful _, ?_⟩
  have moved := ((List.perm_insertionSort (fun one other : RemoteProfile => one.createdAt ≤ other.createdAt)
    (upsertProfile remoteId (String.ofList
      (Server.trim displayName)) url.text now document.profiles).2).map RemoteProfile.id).mem_iff (a := remoteId)
  exact moved.mpr (upsert_there remoteId _ url.text now document.profiles)

-- In a sequence every upsert leaves its profile.
theorem replayed_upsert (faithful : serde.Faithful) (first last : Option Bytes) (calls : List RemoteCall)
    (replays : Replays (remoteProfileStore urls serde) first calls last) (remoteId : Uuid) (displayName serverUrl now : String)
    (called : .upsert remoteId displayName serverUrl now ∈ calls) : holdsProfile serde last remoteId := by
  obtain ⟨before, after, rfl⟩ := List.append_of_mem called
  rw [List.append_cons] at replays
  obtain ⟨mid, early, late⟩ := replays_split _ first last _ after replays
  obtain ⟨_, bytes, _, performed, rfl⟩ := replays_snoc _ first mid before _ early
  have there := upsert_holds urls serde faithful remoteId displayName serverUrl now _ bytes performed
  exact replays_keeps _ (holdsProfile serde) (fun _ _ _ => False) (remotes_keep urls serde faithful) _ last after remoteId late there
    fun _ _ _ _ _ _ _ _ deleted => deleted

end Overlap

namespace Sample

instance uuidCode : Encodable Uuid :=
  Encodable.ofLeftInjection (fun id => id.toNat) (fun code => some (BitVec.ofNat 128 code)) fun id =>
    congrArg some (BitVec.ofNat_toNat 128 id)

instance wordCode : Encodable UInt32 :=
  Encodable.ofLeftInjection (fun word => word.toNat) (fun code => some (UInt32.ofNat code)) fun _ => congrArg some UInt32.ofNat_toNat

instance characterCode : Encodable Char :=
  Encodable.ofLeftInjection (fun c => c.toNat) (fun code => some (Char.ofNat code)) fun c => congrArg some (Char.ofNat_toNat c)

instance textCode : Encodable String :=
  Encodable.ofLeftInjection String.toList (fun characters => some (String.ofList characters)) fun _ =>
    congrArg some (String.ofList_toList)

deriving instance Encodable for RemoteProfile
deriving instance Encodable for RemoteConfigFile
deriving instance Encodable for NamespaceMappingRule
deriving instance Encodable for ManualNamespaceOverride
deriving instance Encodable for NamespaceMappingFile
deriving instance Encodable for WorkspaceMappingRule
deriving instance Encodable for WorkspaceMappingFile

variable {Document : Type} [DecidableEq Document] [Encodable Document]

-- The JSON of one document, and for every other one a text that is no JSON.
def serdeOf (document : Document) (json : Bytes) : Serde Document where
  print other := if other = document then json else 0 :: List.replicate (Encodable.encode other) 0
  parse bytes :=
    if bytes = json then .ok document
    else match bytes with
      | 0 :: rest => found (Encodable.decode rest.length) "invalid"
      | _ => .error "invalid"

theorem serde_faithful (document : Document) (json : Bytes) (starts : json.head? ≠ some 0) : (serdeOf document json).Faithful := by
  intro other
  by_cases same : other = document
  · subst same
    simp only [serdeOf, if_true]
  · have apart : (0 :: List.replicate (Encodable.encode other) (0 : UInt8)) ≠ json := fun equal => starts (by rw [← equal]; rfl)
    simp only [serdeOf, if_neg same, if_neg apart, List.length_replicate, Encodable.encodek]
    rfl

-- The JSON of one more document.
def serdeOver (document : Document) (json : Bytes) (base : Serde Document) : Serde Document where
  print other := if other = document then json else base.print other
  parse bytes := if bytes = json then .ok document else base.parse bytes

omit [Encodable Document] in
theorem over_faithful (document : Document) (json : Bytes) (base : Serde Document) (faithful : base.Faithful)
    (apart : ∀ other, base.print other ≠ json) : (serdeOver document json base).Faithful := by
  intro other
  by_cases same : other = document
  · subst same
    simp only [serdeOver, if_true]
  · simp only [serdeOver, if_neg same, if_neg (apart other), faithful other]

theorem print_apart (document other : Document) (json text : Bytes) (starts : text.head? ≠ some 0) (differ : json ≠ text) :
    (serdeOf document json).print other ≠ text := by
  by_cases same : other = document
  · simp only [serdeOf, if_pos same]
    exact differ
  · simp only [serdeOf, if_neg same]
    exact fun equal => starts (by rw [← equal]; rfl)

def linesOf (lines : List (List Char)) : Bytes := utf8 (List.intercalate ['\n'] lines)

def bytesOf (lines : List String) : Bytes := linesOf (lines.map String.toList)

def home : Uuid := 0x01900000000070008000000000000001
def work : Uuid := 0x01900000000070008000000000000002

def upsertHome : RemoteCall := .upsert home " Home " "https://sync.example" "2026-01-01T00:00:00Z"
def upsertWork : RemoteCall := .upsert work "Work" "https://sync.example/" "2026-01-02T00:00:00Z"

def profileOf (id : Uuid) (displayName now : String) : RemoteProfile :=
  { id := id, displayName := displayName, serverUrl := "https://sync.example/", selectedNamespaceId := none,
    automaticNamespaceSelection := false, createdAt := now, updatedAt := now }

def homeFile : RemoteConfigFile := { schemaVersion := 1, profiles := [profileOf home "Home" "2026-01-01T00:00:00Z"] }
def workFile : RemoteConfigFile := { schemaVersion := 1, profiles := [profileOf work "Work" "2026-01-02T00:00:00Z"] }

def workJson : Bytes := bytesOf ["\x7b", "  \"schemaVersion\": 1,", "  \"profiles\": [", "    \x7b",
  "      \"id\": \"01900000-0000-7000-8000-000000000002\",", "      \"displayName\": \"Work\",",
  "      \"serverUrl\": \"https://sync.example/\",", "      \"selectedNamespaceId\": null,",
  "      \"automaticNamespaceSelection\": false,", "      \"createdAt\": \"2026-01-02T00:00:00Z\",",
  "      \"updatedAt\": \"2026-01-02T00:00:00Z\"", "    \x7d", "  ]", "\x7d"]

def syncUrl : Url :=
  { scheme := "https", host := some "sync.example", username := "", password := none, path := "/", query := none, fragment := none,
    text := "https://sync.example/" }

def sampleUrls : Urls where
  parse text := if text = "https://sync.example" ∨ text = "https://sync.example/" then some syncUrl else none
  setPath url path := { url with path := path }

def remoteSerde : Serde RemoteConfigFile := serdeOf workFile workJson

def namespaceSerde : Serde NamespaceMappingFile := serdeOf { schemaVersion := 1, mappings := [], overrides := [] }
  (bytesOf ["\x7b", "  \"schemaVersion\": 1,", "  \"mappings\": [],", "  \"overrides\": []", "\x7d"])

def workspaceSerde : Serde WorkspaceMappingFile := serdeOf { schemaVersion := 1, mappings := [] }
  (bytesOf ["\x7b", "  \"schemaVersion\": 1,", "  \"mappings\": []", "\x7d"])

def drawsOf (temporary : Uuid) : Draws := { temporary := temporary, replaces := true, refused := fun _ => false }

def remoteStore := remoteProfileStore sampleUrls remoteSerde

theorem remotes_checked : workJson.head? ≠ some 0 ∧
    checkRemote sampleUrls upsertHome = .ok (.upsert home "Home" "https://sync.example/" "2026-01-01T00:00:00Z") ∧
    checkRemote sampleUrls upsertWork = .ok upsertWork := by decide +kernel

theorem remote_serde_faithful : remoteSerde.Faithful := serde_faithful workFile workJson remotes_checked.1

theorem home_performed : perform remoteStore upsertHome none = .ok (remoteSerde.print homeFile) := by
  simp only [perform, remoteStore, remoteProfileStore, remotes_checked.2.1, loaded]
  rfl

theorem work_performed : perform remoteStore upsertWork none = .ok (remoteSerde.print workFile) := by
  simp only [perform, remoteStore, remoteProfileStore, remotes_checked.2.2, loaded]
  rfl

def empty : ConfigState := ⟨none, ∅⟩

abbrev RemoteWorld := World RemoteCall RemoteProfile
abbrev RemoteEvent := Event RemoteCall RemoteProfile

def written (name : Uuid) (bytes : Bytes) (temporaries : Std.ExtTreeMap Uuid Bytes) : Std.ExtTreeMap Uuid Bytes :=
  (temporaries.insert name []).insert name bytes

-- Two upserts, each of which has loaded and found no file before the other one puts its own in place.
theorem overlap : ∃ (events : List RemoteEvent) (temporaries : Std.ExtTreeMap Uuid Bytes),
    Schedule.Run (program remoteStore) ⟨empty, []⟩ events
    ⟨⟨some (remoteSerde.print workFile), temporaries⟩, []⟩ ∧ (∀ call taken, .failed call taken ∉ events) ∧
      (Schedule.effective (fun _ => false) events).map Prod.fst = [upsertHome, upsertWork] := by
  let one : RemoteCall × Draws := (upsertHome, drawsOf 1)
  let other : RemoteCall × Draws := (upsertWork, drawsOf 2)
  let waits : Schedule.Task ConfigState ConfigError RemoteProfile (RemoteCall × Draws) := ⟨one, [], program remoteStore one⟩
  let bytes := remoteSerde.print workFile
  obtain ⟨ready, temporaries, prepared, same, present⟩ := prepare_exec remoteStore upsertWork (drawsOf 2) empty bytes work_performed
    (fun _ => rfl) (by decide)
  subst same
  obtain ⟨first, more, loads, firstActs, _⟩ :=
    Schedule.within_first (program remoteStore) (prepare remoteStore upsertWork (drawsOf 2))
    (swap remoteStore (drawsOf 2)) empty _ ready [] [waits] other [] prepared
  have unused : ((written 2 bytes ∅).contains 1) = false := by
    rw [written, Std.ExtTreeMap.contains_insert, Std.ExtTreeMap.contains_insert]
    rfl
  obtain ⟨answer, ends⟩ :=
    call_exec remoteStore upsertHome (drawsOf 1) ⟨none, written 2 bytes ∅⟩ _ home_performed (fun _ => rfl) unused rfl
    fun saved => ⟨saved, fun _ _ => rfl⟩
  obtain ⟨second, allOne, alone, secondActs⟩ := Schedule.within_alone (program remoteStore) _ _ _ answer
    [⟨other, [] ++ more, swap remoteStore (drawsOf 2) ready⟩] [] one [] ends
  have still : ((written 1 (remoteSerde.print homeFile) (written 2 bytes ∅)).erase 1)[(2 : Uuid)]? = some bytes := by
    rw [Keyed.lookup_erase, if_neg (by decide), written, Keyed.lookup_insert, if_neg (by decide), Keyed.lookup_insert,
      if_neg (by decide), written, Keyed.lookup_insert, if_pos rfl]
  have swapped :=
    swap_exec remoteStore (drawsOf 2) ⟨some (remoteSerde.print homeFile), _⟩ ready bytes ready.saved (fun _ => rfl) rfl still
    (fun _ => rfl) fun _ _ => rfl
  obtain ⟨third, allOther, finishes, thirdActs⟩ :=
    Schedule.within_alone (program remoteStore) _ _ _ ready.saved [] [] other ([] ++ more) swapped
  refine ⟨.began one :: .began other :: (first ++
    ((second ++ [.returned one allOne answer]) ++ (third ++ [.returned other allOther ready.saved]))),
    _, .cons _ _ _ _ _ (.begins empty [] one) (.cons _ _ _ _ _ (.begins empty [waits] other) ((Schedule.run_append _ _ _ _).mpr
      ⟨_, Schedule.within_run _ _ _ _ _ loads, (Schedule.run_append _ _ _ _).mpr ⟨_, Schedule.within_run _ _ _ _ _ alone,
        Schedule.within_run _ _ _ _ _ finishes⟩⟩)), ?_, ?_⟩
  · intro call taken member
    have acted : ∀ events : List RemoteEvent, (∀ event ∈ events, event.Acts) → .failed call taken ∉ events :=
      fun events acts inside =>
      acts _ inside
    simp only [List.mem_cons, List.mem_append, List.not_mem_nil, or_false, reduceCtorEq, false_or] at member
    rcases member with inside | inside | inside
    · exact acted first firstActs inside
    · exact acted second secondActs inside
    · exact acted third thirdActs inside
  · rw [Schedule.effective, List.filterMap_cons_none rfl, List.filterMap_cons_none rfl, ← Schedule.effective,
      Schedule.effective_append, Schedule.effective_append, Schedule.effective_append, Schedule.effective_append,
        Schedule.effective_acts _ first firstActs,
      Schedule.effective_acts _ second secondActs, Schedule.effective_acts _ third thirdActs]
    rfl

def codexHome : WorkspaceTarget := { codexHome := "/srv/codex", resolved := some "/srv/codex", remoteId := home, namespaceId := work }

def ruleOf (id : Uuid) (remote near now : String) : WorkspaceMappingRule :=
  { id := id, remoteId := home, namespaceId := work, codexHomeKey := "/srv/codex", remotePrefix := remote, localPrefix := near,
    createdAt := now, updatedAt := now }

def quoted (text : String) : List Char := '"' :: text.toList ++ ['"']

-- One member of a rule, with what stands after it.
def memberLine (name : String) (value : List Char) (rest : String) : List Char :=
  "      \"".toList ++ name.toList ++ "\": ".toList ++ value ++ rest.toList

def mappingLines (id remote near now : String) : List (List Char) :=
  [memberLine "id" (quoted id) ",", memberLine "remoteId" (quoted "01900000-0000-7000-8000-000000000001") ",",
    memberLine "namespaceId" (quoted "01900000-0000-7000-8000-000000000002") ",", memberLine "codexHomeKey" (quoted "/srv/codex") ",",
    memberLine "remotePrefix" (quoted remote) ",", memberLine "localPrefix" (quoted near) ",",
      memberLine "createdAt" (quoted now) ",",
    memberLine "updatedAt" (quoted now) ""]

def mapSite : WorkspaceTarget × WorkspaceChange := (codexHome, .create "/remote/site" "/srv/site" home "2026-01-01T00:00:00Z" true)
def mapShop : WorkspaceTarget × WorkspaceChange := (codexHome, .create "/remote/shop" "/srv/shop" work "2026-01-02T00:00:00Z" true)

def siteFile : WorkspaceMappingFile :=
  { schemaVersion := 1, mappings := [ruleOf home "/remote/site" "/srv/site" "2026-01-01T00:00:00Z"] }
def shopFile : WorkspaceMappingFile := { siteFile with
  mappings := siteFile.mappings ++ [ruleOf work "/remote/shop" "/srv/shop" "2026-01-02T00:00:00Z"] }

def siteLines := mappingLines "01900000-0000-7000-8000-000000000001" "/remote/site" "/srv/site" "2026-01-01T00:00:00Z"
def shopLines := mappingLines "01900000-0000-7000-8000-000000000002" "/remote/shop" "/srv/shop" "2026-01-02T00:00:00Z"

def opening : List (List Char) := ["\x7b", "  \"schemaVersion\": 1,", "  \"mappings\": [", "    \x7b"].map String.toList
def siteJson : Bytes := linesOf (opening ++ siteLines ++ ["    \x7d", "  ]", "\x7d"].map String.toList)
def shopJson : Bytes :=
  linesOf (opening ++ siteLines ++ ["    \x7d,", "    \x7b"].map String.toList ++ shopLines ++
    ["    \x7d", "  ]", "\x7d"].map String.toList)

def mappingSerde : Serde WorkspaceMappingFile := serdeOver siteFile siteJson (serdeOf shopFile shopJson)

def mappingStore := workspaceMappingStore sampleLib mappingSerde

-- What the store accepts back.
def FileFits (file : WorkspaceMappingFile) (json : Bytes) : Prop :=
  json.length ≤ workspaceConfigBytes ∧ validateFile sampleLib file = .ok () ∧
    deduplicateLegacyVerbatimRemoteRules file.mappings = file.mappings

instance (file : WorkspaceMappingFile) (json : Bytes) : Decidable (FileFits file json) := inferInstanceAs (Decidable (_ ∧ _))

theorem mappings_checked : (shopFile ≠ siteFile ∧ siteJson.head? ≠ some 0 ∧ shopJson.head? ≠ some 0 ∧ shopJson ≠ siteJson) ∧
    (FileFits siteFile siteJson ∧ FileFits shopFile shopJson) ∧
    changeWorkspace sampleLib ((home, work, "/srv/codex"), mapSite.2) { schemaVersion := 1, mappings := [] } =
      .ok (siteFile, (home, work, "/srv/codex"), []) ∧
    changeWorkspace sampleLib ((home, work, "/srv/codex"), mapShop.2) siteFile = .ok (shopFile, (home, work, "/srv/codex"), []) := by
  decide +kernel

theorem mapping_serde_faithful : mappingSerde.Faithful := by
  obtain ⟨_, site, shop, apart⟩ := mappings_checked.1
  have base : (serdeOf shopFile shopJson).Faithful := serde_faithful shopFile shopJson shop
  exact over_faithful siteFile siteJson _ base fun other => print_apart shopFile other shopJson siteJson site apart

theorem site_printed : mappingSerde.print siteFile = siteJson := by
  simp only [mappingSerde, serdeOver, if_true]

theorem shop_printed : mappingSerde.print shopFile = shopJson := by
  simp only [mappingSerde, serdeOver, serdeOf, if_neg mappings_checked.1.1, if_true]

theorem mapping_loaded (file : WorkspaceMappingFile) (json : Bytes) (printed : mappingSerde.print file = json)
    (fits : FileFits file json) : loaded mappingStore (some json) = .ok file := by
  obtain ⟨short, valid, distinct⟩ := fits
  have read := mapping_serde_faithful file
  rw [printed] at read
  simp only [loaded, mappingStore, workspaceMappingStore, decodeWorkspaces, ensure, if_pos short, read, valid, bind,
    Except.bind, distinct]
  rfl

theorem mapping_performed (change : WorkspaceChange) (file : Option Bytes) (document after : WorkspaceMappingFile)
    (saved : WorkspaceScope × List String) (read : loaded mappingStore file = .ok document)
    (changed : changeWorkspace sampleLib ((home, work, "/srv/codex"), change) document = .ok (after, saved))
    (valid : validateFile sampleLib after = .ok ()) :
    perform mappingStore (codexHome, change) file = .ok (mappingSerde.print after) := by
  simp only [perform, bind_ok]
  refine ⟨((home, work, "/srv/codex"), change), rfl, document, read, (after, saved), ?_, (), ?_, rfl⟩
  · exact congrArg (Except.mapError ConfigError.invalid) changed
  · exact congrArg (Except.mapError ConfigError.invalid) valid

theorem site_performed : perform mappingStore mapSite none = .ok siteJson := by
  obtain ⟨_, ⟨fits, _⟩, changed, _⟩ := mappings_checked
  rw [← site_printed]
  exact mapping_performed mapSite.2 none _ siteFile _ rfl changed fits.2.1

theorem shop_performed : perform mappingStore mapShop (some siteJson) = .ok shopJson := by
  obtain ⟨_, ⟨site, shop⟩, _, changed⟩ := mappings_checked
  have read : loaded mappingStore (some siteJson) = .ok siteFile := mapping_loaded siteFile siteJson site_printed site
  rw [← shop_printed]
  exact mapping_performed mapShop.2 _ siteFile shopFile _ read changed shop.2.1

-- A call that is stopped once its file is in place, and another one after it.
theorem stopped_then_mapped :
    ∃ events last, Schedule.Within (program mappingStore) (Schedule.Serially (Stops mappingStore)) ⟨empty, []⟩ events
    ⟨last, []⟩ ∧ last.file = some shopJson ∧ (Schedule.effective replaced events).map Prod.fst = [mapSite, mapShop] := by
  obtain ⟨first, taken, stopped, firstActs, placed⟩ := stopped_view mappingStore mapSite (drawsOf 1) empty siteJson rfl site_performed
    (fun _ => rfl) (by decide) rfl fun saved => ⟨_, rfl⟩
  have unused : (((((∅ : Std.ExtTreeMap Uuid Bytes).insert 1 []).insert 1 siteJson).erase 1).contains 2) = false := by
    rw [Std.ExtTreeMap.contains_erase, Std.ExtTreeMap.contains_insert, Std.ExtTreeMap.contains_insert]
    rfl
  obtain ⟨answer, after, ends, file⟩ := view_exec mappingStore mapShop (drawsOf 2) ⟨some siteJson, _⟩ shopJson shopFile shop_performed
    (fun _ => rfl) unused rfl (fun saved => ⟨_, rfl⟩) (mapping_loaded shopFile shopJson shop_printed mappings_checked.2.1.2)
  obtain ⟨second, all, finishes, secondActs⟩ :=
    Schedule.within_alone (program mappingStore) _ _ _ answer [] [] (mapShop, drawsOf 2) [] ends
  refine ⟨_, after, Schedule.within_append _ _ _ _ _ _ _ stopped
    (begin_serial mappingStore _ _ _ _ (Schedule.within_mono _ _ _ _ _ _ finishes calm_serial)), file, ?_⟩
  simp only [Schedule.effective_append, Schedule.effective_began, Schedule.effective_acts _ first firstActs,
    Schedule.effective_acts _ second secondActs, Schedule.effective_failed, placed]
  rfl

end Sample

open Sample in
theorem config_stores_keep_rules_sample :
    NoRuleLost mappingStore (holdsWorkspaceRule mappingSerde) deletesWorkspaceRule none [mapSite, mapShop] (some shopJson) := by
  obtain ⟨events, last, run, file, calls⟩ := stopped_then_mapped
  have kept := (config_stores_keep_rules sampleLib sampleUrls remoteSerde namespaceSerde mappingSerde remote_serde_faithful
    (serde_faithful _ _ (by decide)) mapping_serde_faithful).2.2 _ _ _ rfl run (List.forall_mem_nil _)
  rw [applied, landed, List.filter_nil, List.map_nil, List.append_nil, calls, file] at kept
  exact kept

-- The second of two upserts that overlap puts back a file without the first one's profile.
open Sample in
theorem overlapping_upserts_lose :
    ¬ ∀ (urls : Urls) (serde : Serde RemoteConfigFile) (start last : RemoteWorld) (events : List RemoteEvent), serde.Faithful →
      start.running = [] → Schedule.Run (program (remoteProfileStore urls serde)) start events last → last.running = [] →
        (∀ call taken, .failed call taken ∉ events) →
          ∃ calls, calls.Perm ((Schedule.effective (fun _ => false) events).map Prod.fst) ∧
            Replays (remoteProfileStore urls serde) start.state.file calls last.state.file := by
  intro claim
  obtain ⟨events, temporaries, run, unfailed, answered⟩ := overlap
  obtain ⟨calls, same, replays⟩ := claim sampleUrls remoteSerde _ _ events remote_serde_faithful rfl run rfl unfailed
  rw [answered] at same
  obtain ⟨bytes, config, stored, parsed, listed⟩ :=
    replayed_upsert sampleUrls remoteSerde remote_serde_faithful _ _ calls replays home " Home "
    "https://sync.example" "2026-01-01T00:00:00Z" (same.mem_iff.mpr List.mem_cons_self)
  rw [← Option.some.inj stored, remote_serde_faithful workFile] at parsed
  rw [← Except.ok.inj parsed] at listed
  exact absurd listed (by decide)

end SessionSync.Config
