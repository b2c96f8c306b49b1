import SessionSync.Server.Serve

set_option autoImplicit false

namespace SessionSync.Server

open SessionSync.Core Checked Storage

theorem insert_edges_ok (owner : ObjectKey) (targets : List StorageObjectRef) (edges result : Edges)
    (run : insertEdges owner targets edges = .ok result) (edge : ObjectKey × ObjectKey) :
    edge ∈ result ↔ edge ∈ edges ∨ (edge.1 = owner ∧ edge.2 ∈ targets.map StorageObjectRef.key) := by
  induction targets generalizing edges with
  | nil =>
      cases run
      exact (or_iff_left fun both => nomatch both.2).symm
  | cons target rest ih =>
      rw [insertEdges] at run
      split at run
      · cases run
      · rw [ih _ run, Std.ExtTreeSet.mem_insert, Std.LawfulEqOrd.compare_eq_iff_eq, List.map_cons, List.mem_cons]
        have split : (owner, target.key) = edge ↔ edge.1 = owner ∧ edge.2 = target.key := by
          rw [Prod.ext_iff, eq_comm, eq_comm (a := target.key)]
        rw [split, and_or_left, or_assoc, or_left_comm]

-- The primary key of the table: an owner lists a target once.
theorem insert_edges_distinct (owner : ObjectKey) (targets : List StorageObjectRef) (edges : Edges) :
    (∃ result, insertEdges owner targets edges = .ok result) ↔
      (targets.map StorageObjectRef.key).Nodup ∧ ∀ target ∈ targets, (owner, target.key) ∉ edges := by
  induction targets generalizing edges with
  | nil => exact iff_of_true ⟨edges, rfl⟩ ⟨List.nodup_nil, nofun⟩
  | cons target rest ih =>
      rw [insertEdges, List.map_cons, List.nodup_cons, List.forall_mem_cons, List.mem_map]
      by_cases present : (owner, target.key) ∈ edges
      · rw [if_pos (Std.ExtTreeSet.contains_iff_mem.mpr present)]
        exact iff_of_false nofun fun ⟨_, absent, _⟩ => absent present
      · rw [if_neg (mt Std.ExtTreeSet.contains_iff_mem.mp present), ih]
        have outside : ∀ other : StorageObjectRef, (owner, other.key) ∉ edges.insert (owner, target.key) ↔
            other.key ≠ target.key ∧ (owner, other.key) ∉ edges := by
          intro other
          rw [Std.ExtTreeSet.mem_insert, Std.LawfulEqOrd.compare_eq_iff_eq, not_or, Prod.mk.injEq, and_iff_right rfl, ne_comm]
        constructor
        · intro ⟨distinct, free⟩
          refine ⟨⟨?_, distinct⟩, present, fun other member => ((outside other).mp (free other member)).2⟩
          intro ⟨other, member, same⟩
          exact ((outside other).mp (free other member)).1 same
        · intro ⟨⟨once, distinct⟩, _, free⟩
          refine ⟨distinct, fun other member => (outside other).mpr ⟨?_, free other member⟩⟩
          intro same
          exact once ⟨other, member, same⟩

theorem replace_object_edges_ok (owner : StorageObjectRef) (targets : List StorageObjectRef) (db after : Database)
    (run : replaceObjectEdges owner targets db = .ok after) :
    after = { db with objectEdges := after.objectEdges } ∧ (targets.map StorageObjectRef.key).Nodup ∧
      ∀ edge, edge ∈ after.objectEdges ↔
        (edge.1 ≠ owner.key ∧ edge ∈ db.objectEdges) ∨ (edge.1 = owner.key ∧ edge.2 ∈ targets.map StorageObjectRef.key) := by
  simp only [replaceObjectEdges, bind_ok, pure_ok] at run
  obtain ⟨edges, inserted, rfl⟩ := run
  refine ⟨rfl, ((insert_edges_distinct _ _ _).mp ⟨edges, inserted⟩).1, fun edge => ?_⟩
  rw [insert_edges_ok _ _ _ _ inserted, Keyed.mem_filter]
  refine or_congr_left ?_
  simp only [ownedBy, Bool.not_eq_true', decide_eq_false_iff_not]
  exact and_comm

variable (env : ServerEnv)

abbrev SharedWp {ε α : Type} (prog : Prog ServerState ε α) (post : α → ServerState → Prop) (state : ServerState) : Prop :=
  prog.Wp (ServerInv env) (SharedRely env) (serverGuar env .shared) (Prog.okay post) state

theorem shared_idle (state : ServerState) (inv : ServerInv env state) : serverGuar env .shared state state :=
  ⟨inv, shared_refl env state⟩

theorem shared_seq {ε α β : Type} (prog : Prog ServerState ε α) (next : α → Prog ServerState ε β) (post : β → ServerState → Prop)
    (state : ServerState) (first : SharedWp env prog (fun value seen => SharedWp env (next value) post seen) state) :
    SharedWp env (prog >>= next) post state := Prog.wp_seq (shared_refl env) prog next post state first

theorem shared_read {ε α : Type} (look : ServerState → Except ε α) (post : α → ServerState → Prop) (state : ServerState)
    (holds : ∀ seen value, SharedRely env state seen → ServerInv env seen → look seen = .ok value →
      ∀ last, SharedRely env seen last → ServerInv env last → post value last) : SharedWp env (Prog.read look) post state :=
  Prog.wp_read look post state (shared_idle env) holds

-- What a request under the shared lock must show of an action to keep the invariant.
theorem shared_inv (state after : ServerState) (moved : SharedRely env state after) (history : HistoryInv after.db)
    (owners : ∀ owner target, (owner, target) ∈ after.db.objectEdges → isStructured owner.1 = true)
    (sizes : ∀ (key : ObjectKey) (bytes : Bytes), after.files[key]? = some bytes → bytes.length < 2 ^ 64)
    (grown : ∀ id, isProtected after.db after.clock id = true →
      (isProtected state.db state.clock id = true ∧ after.db.revisionRoots[id]? = state.db.revisionRoots[id]?) ∨
        ((∃ (root : RevisionRootRow), after.db.revisionRoots[id]? = some root) ∧ Intact env after.files after.db.objectEdges id))
    (inv : ServerInv env state) : ServerInv env after := by
  refine ⟨history, owners, fun id shielded => ?_, fun id shielded => ?_, sizes⟩
  · rcases grown id shielded with ⟨before, same⟩ | ⟨rooted, _⟩
    · rw [same]
      exact inv.rooted id before
    · exact rooted
  · rcases grown id shielded with ⟨before, _⟩ | ⟨_, intact⟩
    · exact intact_shared env state after moved id (inv.intact id before)
    · exact intact

theorem leaf_owned (state : ServerState) (inv : ServerInv env state) (key : ObjectKey) (leaf : isStructured key.1 = false) :
    Owns state.db.objectEdges key [] := by
  intro target
  refine iff_of_false (fun edge => ?_) nofun
  rw [inv.owners key target edge] at leaf
  cases leaf

theorem replace_edges_guar (owner : StorageObjectRef) (targets : List StorageObjectRef) (structured : isStructured owner.kind = true)
    (state : ServerState) (db : Database) (names : objectTargets env state.files owner.key = .ok (targets.map StorageObjectRef.key))
    (run : replaceObjectEdges owner targets state.db = .ok db) (inv : ServerInv env state) :
    serverGuar env .shared state { state with db := db } := by
  obtain ⟨same, _, members⟩ := replace_object_edges_ok owner targets state.db db run
  have revisions : db.revisions = state.db.revisions := by rw [same]
  have operations : db.trashOperations = state.db.trashOperations := by rw [same]
  have roots : db.revisionRoots = state.db.revisionRoots := by rw [same]
  have moved : SharedRely env state { state with db := db } := by
    refine ⟨fun id row stored => ⟨row, ?_⟩, fun _ _ stored => stored, fun key keys found owns target => ?_, le_refl _⟩
    · rw [revisions]
      exact stored
    · rw [members]
      by_cases own : key = owner.key
      · subst own
        rw [names] at found
        cases found
        rw [or_iff_right fun both => both.1 rfl, and_iff_right rfl]
      · rw [or_iff_left fun both => own both.1, and_iff_right own]
        exact owns target
  refine ⟨shared_inv env state _ moved ?_ (fun first target edge => ?_) inv.sizes (fun id shielded => .inl ?_) inv, moved⟩
  · rw [same]
    exact quiet_keeps state.db _ inv.history ⟨fun _ => rfl, rfl, rfl, rfl⟩
  · rcases (members (first, target)).mp edge with ⟨_, before⟩ | ⟨own, _⟩
    · exact inv.owners first target before
    · rw [show first = owner.key from own]
      exact structured
  · rw [protected_tables state.db db revisions operations] at shielded
    exact ⟨shielded, congrArg (·[id]?) roots⟩

theorem replace_edges_wp (owner : StorageObjectRef) (targets : List StorageObjectRef) (structured : isStructured owner.kind = true)
    (post : Unit → ServerState → Prop) (state : ServerState)
    (names : objectTargets env state.files owner.key = .ok (targets.map StorageObjectRef.key))
    (holds : ∀ seen, SharedRely env state seen → ServerInv env seen → (targets.map StorageObjectRef.key).Nodup →
      Owns seen.db.objectEdges owner.key (targets.map StorageObjectRef.key) → post () seen) :
    SharedWp env (replaceEdges owner targets) post state := by
  apply wp_transaction _ post state (shared_idle env)
  intro seen db value moved inv run
  simp only [bind_ok, pure_ok] at run
  obtain ⟨after, replaced, done⟩ := run
  cases done
  have found := object_targets_keeps env state.files seen.files _ _ (moved.files _) (fun key _ _ => moved.files key) names
  have keeps := replace_edges_guar env owner targets structured seen db found replaced inv
  refine ⟨keeps, fun last later final => ?_⟩
  obtain ⟨_, distinct, members⟩ := replace_object_edges_ok owner targets seen.db db replaced
  have owns : Owns db.objectEdges owner.key (targets.map StorageObjectRef.key) := by
    intro target
    rw [members, or_iff_right fun both => both.1 rfl, and_iff_right rfl]
  refine holds last (shared_trans env _ _ _ (shared_trans env _ _ _ moved keeps.2) later) final distinct ?_
  exact later.edges owner.key _ found owns

theorem ensure_chunks_wp (chunks : List StorageObjectRef) (post : Unit → ServerState → Prop) (state : ServerState)
    (holds : ∀ seen, SharedRely env state seen → ServerInv env seen →
      (∀ chunk ∈ chunks, ensureTypedObject env seen.files chunk = .ok ()) → post () seen) :
    SharedWp env (ensureChunks env chunks) post state := by
  induction chunks generalizing state with
  | nil =>
      apply Prog.wp_pure
      intro seen moved inv
      exact holds seen moved inv nofun
  | cons chunk rest ih =>
      apply shared_seq
      apply shared_read
      intro seen _ moved _ found last later _
      apply ih
      intro final more inv others
      refine holds final (shared_trans env _ _ _ moved (shared_trans env _ _ _ later more)) inv ?_
      refine List.forall_mem_cons.mpr ⟨?_, others⟩
      apply ensure_typed_object_keeps env seen.files final.files chunk _ found
      exact (shared_trans env _ _ _ later more).files chunk.key

theorem held_shared (state after : ServerState) (moved : SharedRely env state after) (objects : List StorageObjectRef)
    (held : Held env state.files state.db.objectEdges objects) : Held env after.files after.db.objectEdges objects :=
  held_keeps env _ _ _ _ objects moved.files moved.edges held

theorem held_append (files : Std.ExtTreeMap ObjectKey Bytes) (edges : Edges) (first rest : List StorageObjectRef)
    (left : Held env files edges first) (right : Held env files edges rest) : Held env files edges (first ++ rest) := by
  intro object member
  rcases List.mem_append.mp member with inside | inside
  · exact left object inside
  · exact right object inside

-- The objects of a content are found and their edges are written.
def Traced (contents : List ContentRefV4) (targets : List StorageObjectRef) (state : ServerState) : Prop :=
  contentsTargets env state.files contents = .ok targets ∧ Held env state.files state.db.objectEdges targets

theorem traced_shared (contents : List ContentRefV4) (targets : List StorageObjectRef) (state after : ServerState)
    (moved : SharedRely env state after) (traced : Traced env contents targets state) : Traced env contents targets after :=
  ⟨contents_targets_keeps env _ _ contents targets (fun object _ => moved.files object.key) traced.1,
    held_shared env state after moved targets traced.2⟩

theorem validate_content_wp (content : ContentRefV4) (post : List StorageObjectRef → ServerState → Prop) (state : ServerState)
    (holds : ∀ targets seen, SharedRely env state seen → ServerInv env seen →
      contentTargets env seen.files content = .ok targets → Held env seen.files seen.db.objectEdges targets → post targets seen) :
    SharedWp env (validateContentGraphV4 env content) post state := by
  unfold validateContentGraphV4
  cases storage : content.storage with
  | whole sha256 =>
      apply shared_seq
      apply shared_read
      intro seen _ moved _ found last later _
      apply Prog.wp_pure
      intro final more inv
      have after := shared_trans env _ _ _ later more
      refine holds _ final (shared_trans env _ _ _ moved after) inv ?_ fun object member => ?_
      · apply (content_targets_whole env final.files content sha256 storage _).mpr
        exact ⟨ensure_typed_object_keeps env seen.files final.files _ (after.files _) found, rfl⟩
      · cases List.mem_singleton.mp member
        exact ⟨[], rfl, List.nodup_nil, leaf_owned env final inv _ rfl⟩
  | chunked sha256 =>
      apply shared_seq
      apply shared_read
      intro seen ⟨manifest, object⟩ moved _ read last later _
      apply shared_seq
      apply Prog.wp_check
      intro _ checked mid more _
      apply shared_seq
      apply ensure_chunks_wp
      intro full evenMore inv chunks
      have since := shared_trans env _ _ _ (shared_trans env _ _ _ later more) evenMore
      have named := read_typed_json_key env seen.files _ _ _ _ _ read
      have reread := read_typed_json_keeps env seen.files full.files _ _ _ _ (since.files _) read
      have names : objectTargets env full.files object.key =
          .ok ((manifest.chunks.map chunkObject).map StorageObjectRef.key) := by
        rw [named, objectTargets, bind_ok, List.map_map]
        exact ⟨_, reread, rfl⟩
      apply shared_seq
      apply replace_edges_wp env object _ ?_ _ full names
      · intro written after keeps distinct owns
        apply Prog.wp_pure
        intro final ends inv
        have rest := shared_trans env _ _ _ after ends
        refine holds _ final (shared_trans env _ _ _ moved (shared_trans env _ _ _ since rest)) inv ?_ ?_
        · apply (content_targets_chunked env final.files content sha256 storage _).mpr
          refine ⟨manifest, object, read_typed_json_keeps env _ _ _ _ _ _ (rest.files _) reread, checked, fun chunk member => ?_, rfl⟩
          exact ensure_typed_object_keeps env _ _ chunk (rest.files _) (chunks chunk member)
        · have found := object_targets_keeps env full.files written.files _ _ (after.files _) (fun key _ _ => after.files key) names
          refine List.forall_mem_cons.mpr ⟨?_, fun chunk member => ?_⟩
          · exact ⟨_, object_targets_keeps env _ _ _ _ (ends.files _) (fun key _ _ => ends.files key) found, distinct,
              ends.edges _ _ found owns⟩
          · obtain ⟨descriptor, _, rfl⟩ := List.mem_map.mp member
            exact ⟨[], rfl, List.nodup_nil, leaf_owned env final inv _ rfl⟩
      · rw [show object.kind = .chunkManifest from congrArg Prod.fst named]
        rfl

theorem validate_contents_wp (contents : List ContentRefV4) (post : List StorageObjectRef → ServerState → Prop) (state : ServerState)
    (holds : ∀ targets seen, SharedRely env state seen → ServerInv env seen → Traced env contents targets seen → post targets seen) :
    SharedWp env (validateContentsV4 env contents) post state := by
  induction contents generalizing post state with
  | nil =>
      apply Prog.wp_pure
      intro seen moved inv
      exact holds [] seen moved inv ⟨rfl, nofun⟩
  | cons content rest ih =>
      apply shared_seq
      apply validate_content_wp
      intro first mid moved _ found held
      apply shared_seq
      apply ih
      intro later full more _ tail
      apply Prog.wp_pure
      intro final ends inv
      have since := shared_trans env _ _ _ more ends
      obtain ⟨listed, kept⟩ := traced_shared env rest later full final ends tail
      refine holds _ final (shared_trans env _ _ _ moved since) inv ⟨?_, ?_⟩
      · simp only [contentsTargets, bind_ok, pure_ok]
        exact ⟨first, content_targets_keeps env _ _ content first (fun object _ => since.files object.key) found, later, listed, rfl⟩
      · exact held_append env _ _ first later (held_shared env mid final since first held) kept

end SessionSync.Server
