import SessionSync.Server.ServeShared

set_option autoImplicit false

namespace SessionSync.Server

open SessionSync.Core Checked Storage

variable (env : ServerEnv)

theorem validate_threads_wp (references : List ThreadRefV4) (graph : Graph)
    (post : List StorageObjectRef × Graph → ServerState → Prop) (state : ServerState)
    (holds : ∀ threads seen, SharedRely env state seen → ServerInv env seen →
      threadsObjects env seen.files references = .ok threads → Held env seen.files seen.db.objectEdges (listed threads) →
      post (threads.map Prod.fst, insertObjects graph (listed threads)) seen) :
    SharedWp env (validateThreadsV4 env references graph) post state := by
  induction references generalizing graph post state with
  | nil =>
      apply Prog.wp_pure
      intro seen moved inv
      exact holds [] seen moved inv rfl nofun
  | cons reference rest ih =>
      apply shared_seq
      apply shared_read
      intro seen ⟨descriptor, object⟩ moved _ read last later _
      apply shared_seq
      apply Prog.wp_check
      intro _ checked mid more _
      apply shared_seq
      apply validate_contents_wp
      intro targets traced_ after _ ⟨found, held⟩
      have since := shared_trans env _ _ _ (shared_trans env _ _ _ later more) after
      have named := read_typed_json_key env seen.files _ _ _ _ _ read
      have reread := read_typed_json_keeps env seen.files traced_.files _ _ _ _ (since.files _) read
      have thread : threadObjects env traced_.files reference = .ok (object, targets) :=
        (thread_objects_ok env _ reference _).mpr ⟨descriptor, reread, checked, found⟩
      have names := (thread_objects_targets env traced_.files reference _ thread).2
      apply shared_seq
      apply replace_edges_wp env object targets ?_ _ traced_ names
      · intro written further _ distinct owns
        apply shared_seq
        apply ih
        intro threads full onward _ tail keeps
        apply Prog.wp_pure
        intro final ends inv
        have rest_ := shared_trans env _ _ _ onward ends
        have whole := shared_trans env _ _ _ further rest_
        have collected : insertObjects graph (listed ((object, targets) :: threads)) =
            insertObjects (insertObjects graph (object :: targets)) (listed threads) := List.foldl_append
        rw [← collected]
        refine holds ((object, targets) :: threads) final
          (shared_trans env _ _ _ moved (shared_trans env _ _ _ since whole)) inv ?_ ?_
        · rw [threads_objects_ok] at tail ⊢
          refine .cons (thread_objects_keeps env _ _ reference _ (fun one _ => whole.files one.key) thread) ?_
          rw [← threads_objects_ok] at tail ⊢
          exact threads_objects_keeps env _ _ rest threads (fun one _ => ends.files one.key) tail
        · have own := object_targets_keeps env traced_.files final.files _ _ (whole.files _) (fun key _ _ => whole.files key) names
          have atWrite := object_targets_keeps env _ _ _ _ (further.files _) (fun key _ _ => further.files key) names
          have kept : Held env final.files final.db.objectEdges (object :: targets) := by
            refine List.forall_mem_cons.mpr ⟨⟨_, own, distinct, rest_.edges _ _ atWrite owns⟩, ?_⟩
            exact held_shared env traced_ final whole targets held
          exact held_append env _ _ (object :: targets) (listed threads) kept (held_shared env full final ends _ keeps)
      · rw [show object.kind = .thread from congrArg Prod.fst named]
        rfl

theorem validate_revision_wp (revisionId : String) (post : RevisionRootV4 × List StorageObjectRef → ServerState → Prop)
    (state : ServerState) (holds : ∀ root objects seen, SharedRely env state seen → ServerInv env seen →
      rootObjectsV4 env seen.files revisionId = .ok (root, objects) → Held env seen.files seen.db.objectEdges objects →
      post (root, graphOf objects) seen) : SharedWp env (validateRevisionGraphV4 env revisionId) post state := by
  apply shared_seq
  apply shared_read
  intro seen ⟨root, object⟩ moved _ read last later _
  apply shared_seq
  apply Prog.wp_check
  intro _ checked mid more _
  apply shared_seq
  apply validate_threads_wp
  intro threads full after _ found held
  have since := shared_trans env _ _ _ (shared_trans env _ _ _ later more) after
  have named := read_typed_json_key env seen.files _ _ _ _ _ read
  have reread := read_typed_json_keeps env seen.files full.files _ _ _ _ (since.files _) read
  have whole : rootObjectsV4 env full.files revisionId = .ok (root, object :: listed threads) :=
    (root_objects_ok env _ revisionId root _).mpr ⟨object, threads, reread, checked, found, rfl⟩
  have names : objectTargets env full.files object.key = .ok ((threads.map Prod.fst).map StorageObjectRef.key) := by
    rw [root_targets env full.files revisionId root object threads reread found, List.map_map]
    rfl
  apply shared_seq
  apply replace_edges_wp env object _ ?_ _ full names
  · intro written further _ distinct owns
    apply Prog.wp_pure
    intro final ends inv
    have rest := shared_trans env _ _ _ further ends
    refine holds root (object :: listed threads) final (shared_trans env _ _ _ moved (shared_trans env _ _ _ since rest)) inv ?_ ?_
    · exact root_objects_keeps env _ _ revisionId root _ (fun one _ => rest.files one.key) whole
    · have own := object_targets_keeps env full.files final.files _ _ (rest.files _) (fun key _ _ => rest.files key) names
      have atWrite := object_targets_keeps env _ _ _ _ (further.files _) (fun key _ _ => further.files key) names
      refine List.forall_mem_cons.mpr ⟨⟨_, own, distinct, ends.edges _ _ atWrite owns⟩, ?_⟩
      exact held_shared env full final rest _ held
  · rw [show object.kind = .revisionRoot from congrArg Prod.fst named]
    rfl

theorem commit_root_guar (expectedHead : Option String) (expectedEpoch : UInt64) (revision : NewRevisionMetadata)
    (state : ServerState) (db : Database) (outcome : CommitRevisionOutcome) (epoch : UInt64)
    (run : commitRevisionRoot env.lib expectedHead expectedEpoch revision state.db = .ok (db, outcome, epoch))
    (intact : Intact env state.files state.db.objectEdges revision.id) (inv : ServerInv env state) :
    serverGuar env .shared state { state with db := db } ∧
      (outcome = .created → ∃ (row : RevisionRow), db.revisions[revision.id]? = some row) := by
  obtain ⟨normal, current, read, stored, _, _, cases_⟩ := commit_revision_root_ok env.lib _ _ revision state.db db outcome epoch run
  rcases cases_ with ⟨rfl, rfl, _⟩ | ⟨_, head, parent, _, unrooted, row, written, fresh, same⟩
  · exact ⟨shared_idle env state inv, nofun⟩
  have rows : ∀ id, db.revisions[id]? = if id = revision.id then some row else state.db.revisions[id]? := by
    intro id
    rw [same]
    exact Keyed.lookup_insert _ _ _ _
  have roots : ∀ id, db.revisionRoots[id]? =
      if id = revision.id then some ⟨revision.id, normal.rootSchemaVersion⟩ else state.db.revisionRoots[id]? := by
    intro id
    rw [same]
    exact Keyed.lookup_insert _ _ _ _
  have edges : db.objectEdges = state.db.objectEdges := by rw [same]
  have effect := advanced_effect env.lib state.db db revision normal current row read stored (parent.trans head.symm) written fresh
    (by rw [same]) (by rw [same]) (by rw [same]) (.inr ⟨_, by rw [same]⟩)
  have moved : SharedRely env state { state with db := db } := by
    refine ⟨fun id old known => ?_, fun _ _ kept => kept, fun _ _ _ owns => ?_, le_refl _⟩
    · rw [rows]
      split
      · exact ⟨row, rfl⟩
      · exact ⟨old, known⟩
    · rw [edges]
      exact owns
  refine ⟨⟨shared_inv env state _ moved ?_ (fun owner target edge => ?_) inv.sizes (fun id shielded => ?_) inv, moved⟩, fun _ => ?_⟩
  · exact commit_keeps state.db db _ _ _ _ row effect inv.history
  · rw [edges] at edge
    exact inv.owners owner target edge
  · by_cases new : id = revision.id
    · subst new
      refine .inr ⟨⟨_, (roots _).trans (if_pos rfl)⟩, ?_⟩
      rw [edges]
      exact intact
    · rcases commit_protected state.db db _ _ _ _ row effect state.clock id shielded with impossible | before
      · exact absurd impossible new
      · exact .inl ⟨before, (roots id).trans (if_neg new)⟩
  · exact ⟨row, (rows _).trans (if_pos rfl)⟩

theorem revision_metadata_id (root : RevisionRootV4) (length : UInt64) (graph : List StorageObjectRef)
    (metadata : NewRevisionMetadata) (run : NewRevisionMetadata.fromRevisionRootV4 env root length graph = .ok metadata) :
    root.revisionId env.lib = .ok metadata.id := by
  simp only [NewRevisionMetadata.fromRevisionRootV4, bind_ok, map_error_ok, pure_ok] at run
  obtain ⟨_, _, id, named, _, _, rfl⟩ := run
  exact named

theorem commit_request_id (debug : Option String → String) (payload : RevisionCommitRequestV4) (id : String)
    (run : payload.validate env debug = .ok id) : payload.revision.revisionId env.lib = .ok id := by
  simp only [RevisionCommitRequestV4.validate, bind_ok, map_error_ok] at run
  obtain ⟨_, _, found, named, _, _, run⟩ := run
  split at run
  · obtain ⟨_, _, same⟩ := (bind_ok _ _ _).mp run
    rwa [(pure_ok _ _).mp same] at named
  · rwa [(pure_ok _ _).mp run] at named

theorem commit_revision_root_wp (debug : Option String → String) (namespaceId : Uuid) (payload : RevisionCommitRequestV4)
    (state : ServerState) :
    SharedWp env (Server.commitRevisionRootV4 env debug namespaceId payload)
      (fun response => replyKept (.committed response)) state := by
  apply shared_seq
  apply Prog.wp_check
  intro revisionId validated _ _ _
  rw [invalidRequest, map_error_ok] at validated
  apply shared_seq
  apply Prog.wp_check
  intro _ _ _ _ _
  apply shared_seq
  apply validate_revision_wp
  intro root objects seen _ _ found held
  apply shared_seq
  apply Prog.wp_check
  intro _ same _ first _
  rw [ensure_ok] at same
  apply shared_seq
  apply Prog.wp_check
  intro rootObject _ _ second _
  apply shared_seq
  apply Prog.wp_check
  intro metadata made last third _
  rw [map_error_ok] at made
  apply shared_seq
  apply wp_transaction _ _ _ (shared_idle env)
  rintro now db ⟨outcome, epoch⟩ fourth inv run
  have since := shared_trans env _ _ _ first (shared_trans env _ _ _ second (shared_trans env _ _ _ third fourth))
  have named : metadata.id = revisionId := by
    have one := revision_metadata_id env _ _ _ _ made
    rw [same, commit_request_id env debug payload revisionId validated] at one
    exact (Except.ok.inj one).symm
  have intact : Intact env now.files now.db.objectEdges metadata.id := by
    rw [named]
    exact intact_shared env seen now since revisionId ⟨root, objects, found, held⟩
  obtain ⟨keeps, created⟩ := commit_root_guar env _ _ metadata now db outcome epoch run intact inv
  refine ⟨keeps, fun after later _ => ?_⟩
  apply Prog.wp_pure
  intro final ends _ wanted
  obtain ⟨row, stored⟩ := created (of_decide_eq_true wanted)
  obtain ⟨mid, stored⟩ := later.known metadata.id row stored
  exact named ▸ ends.known metadata.id mid stored

theorem received_length (limit expectedLength : UInt64) (digest : String) (stream : List Bytes) (received bytes : Bytes)
    (room : received.length < 2 ^ 64) (run : writeVerifiedTemp env limit expectedLength digest stream received = .ok bytes) :
    bytes.length < 2 ^ 64 := by
  induction stream generalizing received with
  | nil =>
      simp only [writeVerifiedTemp, bind_ok, pure_ok] at run
      obtain ⟨_, _, _, _, rfl⟩ := run
      exact room
  | cons chunk rest ih =>
      simp only [writeVerifiedTemp, bind_ok, ensure_ok] at run
      obtain ⟨_, fits, _, _, _, _, tail⟩ := run
      exact ih _ fits tail

theorem rename_into_guar (key : ObjectKey) (bytes : Bytes) (fits : bytes.length < 2 ^ 64) (state : ServerState)
    (inv : ServerInv env state) : serverGuar env .shared state (renameInto key bytes state).2 := by
  unfold renameInto
  split
  · exact shared_idle env state inv
  · next absent =>
      have lookup : ∀ other, (state.files.insert key bytes)[other]? = if other = key then some bytes else state.files[other]? :=
        fun other => Keyed.lookup_insert _ _ _ _
      have moved : SharedRely env state { state with files := state.files.insert key bytes } := by
        refine ⟨known_refl state, fun other old stored => ?_, fun _ _ _ owns => owns, le_refl _⟩
        have different : other ≠ key := by
          intro same
          subst same
          rw [Std.ExtTreeMap.contains_eq_isSome_getElem?, stored] at absent
          exact absent rfl
        rw [lookup, if_neg different]
        exact stored
      refine ⟨shared_inv env state _ moved inv.history inv.owners (fun other found stored => ?_)
        (fun id shielded => .inl ⟨shielded, rfl⟩) inv,
        moved⟩
      rw [lookup] at stored
      split at stored
      · cases stored
        exact fits
      · exact inv.sizes other found stored

theorem shared_query {ε α : Type} (look : ServerState → α) (post : α → ServerState → Prop) (state : ServerState)
    (holds : ∀ value seen, post value seen) : SharedWp env (Prog.query look : Prog ServerState ε α) post state := by
  apply Prog.wp_act
  intro seen _ inv
  exact ⟨shared_idle env seen inv, fun last _ _ => holds _ last⟩

theorem verify_wp (key : ObjectKey) (expectedLength : UInt64) (state : ServerState) :
    SharedWp env (do
      Prog.read fun state => verifyFile env key expectedLength state.files
      return false) (fun _ _ => True) state := by
  apply shared_seq
  apply shared_read
  intro _ _ _ _ _ last _ _
  apply Prog.wp_pure
  exact fun _ _ _ => trivial

theorem put_stream_wp (key : ObjectKey) (expectedLength : UInt64) (stream : List Bytes) (state : ServerState) :
    SharedWp env (putStream env key expectedLength stream) (fun _ _ => True) state := by
  apply shared_seq
  apply Prog.wp_check
  intro _ _ _ _ _
  apply shared_seq
  apply Prog.wp_check
  intro _ _ _ _ _
  apply shared_seq
  apply Prog.wp_check
  intro bytes received _ _ _
  have fits := received_length env _ _ _ stream [] bytes (by decide) received
  apply shared_seq
  apply shared_query
  intro present seen
  split
  · exact verify_wp env key expectedLength seen
  · apply shared_seq
    apply Prog.wp_act
    intro now _ inv
    refine ⟨rename_into_guar env key bytes fits now inv, fun last _ _ => ?_⟩
    split
    · apply Prog.wp_pure
      exact fun _ _ _ => trivial
    · apply shared_seq
      apply shared_query
      intro there mid
      apply shared_seq
      apply Prog.wp_check
      intro _ _ after _ _
      exact verify_wp env key expectedLength after

theorem record_guar (object : StorageObjectRef) (state : ServerState) (now : Nanos) (db : Database)
    (run : recordStorageObject object now state.db = .ok db) (inv : ServerInv env state) :
    serverGuar env .shared state { state with db := db } := by
  simp only [recordStorageObject, bind_ok] at run
  obtain ⟨length, _, run⟩ := run
  split at run
  · rw [pure_ok] at run
    subst run
    exact shared_idle env state inv
  · rw [pure_ok] at run
    subst run
    have moved : SharedRely env state { state with db := { state.db with
        storageObjects := state.db.storageObjects.insert object.key { byteLength := length, createdAt := millis now } } } :=
      ⟨known_refl state, fun _ _ stored => stored, fun _ _ _ owns => owns, le_refl _⟩
    refine ⟨shared_inv env state _ moved ?_ inv.owners inv.sizes (fun id shielded => .inl ⟨shielded, rfl⟩) inv, moved⟩
    exact quiet_keeps state.db _ inv.history ⟨fun _ => rfl, rfl, rfl, rfl⟩

theorem put_typed_object_wp (key : ObjectKey) (expectedLength : UInt64) (stream : List Bytes) (state : ServerState) :
    SharedWp env (Server.putTypedObject env key expectedLength stream) (fun _ _ => True) state := by
  apply shared_seq
  apply Prog.wp_check
  intro _ _ _ _ _
  apply shared_seq
  apply Prog.wp_check
  intro _ _ seen _ _
  apply shared_seq
  apply Prog.wp_rename_error
  refine Prog.wp_mono _ _ _ _ (fun outcome mid _ created _ => ?_) (put_stream_wp env key expectedLength stream seen)
  apply shared_seq
  apply wp_transaction _ _ _ (shared_idle env)
  intro now db _ _ inv run
  simp only [bind_ok, pure_ok] at run
  obtain ⟨after, recorded, done⟩ := run
  cases done
  refine ⟨record_guar env _ now now.clock db recorded inv, fun last _ _ => ?_⟩
  apply Prog.wp_pure
  exact fun _ _ _ => trivial

end SessionSync.Server
