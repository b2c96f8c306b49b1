import SessionSync.Server.GcSafety
import SessionSync.Server.Traversal

set_option autoImplicit false

namespace SessionSync.Server

open SessionSync.Core Checked Storage

section Held

variable (env : ServerEnv) (files : Files) (edges : Edges)

theorem content_found_of_held (content : ContentRefV4) (targets : List StorageObjectRef)
    (run : contentTargets env files content = .ok targets) (held : Held env files edges targets) :
    ContentFound env files content targets := by
  refine ⟨run, ?_⟩
  cases storage : content.storage with
  | whole sha256 =>
      obtain ⟨_, rfl⟩ := (content_targets_whole env files content sha256 storage targets).mp run
      exact List.nodup_nil
  | chunked sha256 =>
      obtain ⟨manifest, object, read, _, _, rfl⟩ := (content_targets_chunked env files content sha256 storage targets).mp run
      obtain ⟨keys, names, distinct, _⟩ := held object List.mem_cons_self
      rw [read_typed_json_key env files _ _ _ _ _ read, objectTargets, bind_ok] at names
      obtain ⟨found, reread, same⟩ := names
      rw [read] at reread
      cases reread
      rw [pure_ok] at same
      rw [List.tail_cons, List.map_map]
      exact same ▸ distinct

theorem contents_found_of_held (contents : List ContentRefV4) (targets : List StorageObjectRef)
    (run : contentsTargets env files contents = .ok targets) (held : Held env files edges targets) :
    ContentsFound env files contents targets := by
  induction contents generalizing targets with
  | nil =>
      cases run
      exact ⟨[], .nil, rfl⟩
  | cons content rest ih =>
      simp only [contentsTargets, bind_ok, pure_ok] at run
      obtain ⟨own, first, later, tail, rfl⟩ := run
      obtain ⟨lists, all, flat⟩ := ih later tail fun object member => held object (List.mem_append_right _ member)
      have found := content_found_of_held env files edges content own first fun object member =>
        held object (List.mem_append_left _ member)
      exact ⟨own :: lists, .cons found all, by rw [flat, List.flatten_cons]⟩

theorem thread_found_of_held (reference : ThreadRefV4) (thread : ThreadObjects)
    (run : threadObjects env files reference = .ok thread) (held : Held env files edges (thread.1 :: thread.2)) :
    ThreadFound env files reference thread := by
  obtain ⟨descriptor, read, checked, targets⟩ := (thread_objects_ok env files reference thread).mp run
  refine ⟨descriptor, read, checked, ?_, ?_⟩
  · exact contents_found_of_held env files edges _ _ targets fun object member => held object (List.mem_cons_of_mem _ member)
  · obtain ⟨keys, names, distinct, _⟩ := held thread.1 List.mem_cons_self
    rw [(thread_objects_targets env files reference thread run).2] at names
    cases names
    exact distinct

-- An intact revision can be traversed again: the edges it was stored with say that
-- no owner lists a target twice.
theorem revision_found_of_held (id : String) (root : RevisionRootV4) (objects : List StorageObjectRef)
    (run : rootObjectsV4 env files id = .ok (root, objects)) (held : Held env files edges objects) :
    RevisionFound env files id (root, graphOf objects) := by
  obtain ⟨object, threads, read, checked, found, rfl⟩ := (root_objects_ok env files id root objects).mp run
  refine ⟨object, threads, read, checked, ?_, ?_, rfl⟩
  · have within : ∀ thread ∈ threads, Held env files edges (thread.1 :: thread.2) := by
      intro thread among one member
      exact held one (List.mem_cons_of_mem _ ((listed_member threads one).mpr ⟨thread, among, member⟩))
    rw [threads_objects_ok] at found
    generalize root.threads = references at found
    clear run read checked held
    induction found with
    | nil => exact .nil
    | cons first _ ih =>
        refine .cons (thread_found_of_held env files edges _ _ first (within _ List.mem_cons_self)) (ih fun thread among => ?_)
        exact within thread (List.mem_cons_of_mem _ among)
  · obtain ⟨keys, names, distinct, _⟩ := held object List.mem_cons_self
    rw [root_targets env files id root object threads read found] at names
    cases names
    rw [List.map_map]
    exact distinct

end Held

-- A commit that was answered with Created is there for good, and while its revision
-- is active the server can walk its whole graph again and reaches exactly it.
theorem commit_sound (env : ServerEnv) (debug : Option String → String) (now : Nanos)
    (world : Gate.World ServerState HttpError Reply)
    (reached : Gate.Reachable (server env debug) (ServerState.initialized now) world) (response : RevisionCommitResponseV4)
    (replied : Reply.committed response ∈ world.replies) (created : response.created = true) :
    ∃ (row : RevisionRow), world.state.db.revisions[response.head]? = some row ∧ (row.state = .active →
      ∃ root graph after, (validateRevisionGraphV4 env response.head).exec world.state = (.ok (root, graph), after) ∧
        (∀ object ∈ graph, Present world.state.files object ∧ Valid env world.state.files object) ∧
        ∀ key, key ∈ Closure.closure world.state.db.objectEdges.toList [(.revisionRoot, response.head)] ↔
          key ∈ graph.map StorageObjectRef.key) := by
  have sound := server_sound env debug now world reached
  obtain ⟨row, stored⟩ := sound.replies (.committed response) replied created
  refine ⟨row, stored, fun active => ?_⟩
  have shielded : isProtected world.state.db world.state.clock response.head = true :=
    (is_protected_iff _ _ _).mpr ⟨row, stored, .inl active⟩
  obtain ⟨root, objects, run, held⟩ := sound.holds.intact response.head shielded
  have found := revision_found_of_held env world.state.files world.state.db.objectEdges response.head root objects run held
  obtain ⟨edges, ran⟩ := (traversal_revision env response.head).runs world.state _ found
  refine ⟨root, graphOf objects, _, ran, fun object member => ?_, fun key => ?_⟩
  · exact root_sound env _ sound.holds.sizes response.head root objects run object (graph_of_member objects object member)
  · rw [graph_of_keys]
    exact closure_exact env world.state.files world.state.db.objectEdges response.head root objects run held key

theorem first_commit_held : ∃ (response : RevisionCommitResponseV4) (after : ServerState), response.created = true ∧
    ∃ (row : RevisionRow), after.db.revisions[response.head]? = some row := by
  obtain ⟨response, after, created, served⟩ := Sample.served_commit
  obtain ⟨row, stored, _⟩ := commit_sound (Sample.env false) Sample.debug 0 _ served response List.mem_cons_self created
  exact ⟨response, after, created, row, stored⟩

end SessionSync.Server
