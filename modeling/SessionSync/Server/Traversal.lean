import SessionSync.Server.ServeShared

set_option autoImplicit false

namespace SessionSync.Server

open SessionSync.Core Checked Storage

def withEdges (state : ServerState) (edges : Edges) : ServerState := { state with db := { state.db with objectEdges := edges } }

-- An undisturbed run that reads the files, writes edges and nothing else. Which
-- value it returns, and whether it returns one, hangs on the files alone.
structure Traversal {α : Type} (prog : Handler α) (found : Files → α → Prop) : Prop where
  runs : ∀ state value, found state.files value → ∃ edges, prog.exec state = (.ok value, withEdges state edges)
  only : ∀ state value after, prog.exec state = (.ok value, after) →
    (∃ edges, after = withEdges state edges) ∧ found state.files value

section Rules

variable {α β : Type}

theorem traversal_congr (prog : Handler α) (found other : Files → α → Prop)
    (same : ∀ files value, found files value ↔ other files value) (holds : Traversal prog found) : Traversal prog other where
  runs state value known := holds.runs state value ((same _ _).mpr known)
  only state value after run := by
    obtain ⟨edges, known⟩ := holds.only state value after run
    exact ⟨edges, (same _ _).mp known⟩

theorem traversal_pure (value : α) : Traversal (pure value : Handler α) (fun _ result => value = result) where
  runs state result same := ⟨state.db.objectEdges, same ▸ rfl⟩
  only state result after run := by
    cases run
    exact ⟨⟨state.db.objectEdges, rfl⟩, rfl⟩

theorem traversal_check (result : Except HttpError α) : Traversal (Prog.ofExcept result) (fun _ value => result = .ok value) where
  runs state value same := by
    rw [Prog.exec_of_except, same]
    exact ⟨state.db.objectEdges, rfl⟩
  only state value after run := by
    rw [Prog.exec_of_except] at run
    cases run
    exact ⟨⟨state.db.objectEdges, rfl⟩, rfl⟩

theorem traversal_read (look : Files → Except HttpError α) :
    Traversal (Prog.read fun state : ServerState => look state.files) (fun files value => look files = .ok value) where
  runs state value same := by
    rw [Prog.exec_read, same]
    exact ⟨state.db.objectEdges, rfl⟩
  only state value after run := by
    rw [Prog.exec_read, Prod.mk.injEq] at run
    exact ⟨⟨state.db.objectEdges, run.2.symm⟩, run.1⟩

theorem traversal_seq (prog : Handler α) (next : α → Handler β) (first : Files → α → Prop) (rest : α → Files → β → Prop)
    (one : Traversal prog first) (two : ∀ value, Traversal (next value) (rest value)) :
    Traversal (prog >>= next) (fun files result => ∃ value, first files value ∧ rest value files result) where
  runs state result known := by
    obtain ⟨value, found, after⟩ := known
    obtain ⟨edges, run⟩ := one.runs state value found
    obtain ⟨later, ends⟩ := (two value).runs (withEdges state edges) result after
    exact ⟨later, (Prog.exec_bind_ok _ _ _ _ _).mpr ⟨value, _, run, ends⟩⟩
  only state result after run := by
    obtain ⟨value, mid, begins, ends⟩ := (Prog.exec_bind_ok _ _ _ _ _).mp run
    obtain ⟨⟨edges, rfl⟩, found⟩ := one.only state value mid begins
    obtain ⟨⟨later, rfl⟩, known⟩ := (two value).only _ result after ends
    exact ⟨⟨later, rfl⟩, value, found, known⟩

theorem exec_transaction_ok (run : Nanos → Database → Except MetadataError (Database × α)) (state after : ServerState) (value : α) :
    (transaction run).exec state = (.ok value, after) ↔
      ∃ db, run state.clock state.db = .ok (db, value) ∧ after = { state with db := db } := by
  rw [transaction, Prog.exec_transact_ok]
  cases run state.clock state.db with
  | error reason => exact iff_of_false nofun fun ⟨_, impossible, _⟩ => nomatch impossible
  | ok pair =>
      constructor
      · intro same
        cases same
        exact ⟨pair.1, rfl, rfl⟩
      · intro ⟨db, same, made⟩
        cases same
        rw [made]

-- The rows of the owner go first, so only a repeated target can stand in the way.
theorem traversal_edges (owner : StorageObjectRef) (targets : List StorageObjectRef) :
    Traversal (replaceEdges owner targets) (fun _ _ => (targets.map StorageObjectRef.key).Nodup) where
  runs state value distinct := by
    have fresh : ∀ target ∈ targets, (owner.key, target.key) ∉ state.db.objectEdges.filter fun edge => !ownedBy owner.key edge := by
      intro target _ member
      rw [Keyed.mem_filter, ownedBy, decide_eq_true rfl] at member
      exact Bool.false_ne_true member.2
    obtain ⟨edges, inserted⟩ := (insert_edges_distinct owner.key targets _).mpr ⟨distinct, fresh⟩
    refine ⟨edges, (exec_transaction_ok _ _ _ _).mpr ⟨_, ?_, rfl⟩⟩
    simp only [bind_ok, pure_ok]
    refine ⟨{ state.db with objectEdges := edges }, ?_, rfl⟩
    simp only [replaceObjectEdges, bind_ok, pure_ok]
    exact ⟨edges, inserted, rfl⟩
  only state value after run := by
    obtain ⟨db, ran, rfl⟩ := (exec_transaction_ok _ _ _ _).mp run
    simp only [bind_ok, pure_ok] at ran
    obtain ⟨other, replaced, done⟩ := ran
    cases done
    obtain ⟨same, distinct, _⟩ := replace_object_edges_ok owner targets state.db db replaced
    exact ⟨⟨db.objectEdges, by rw [withEdges, ← same]⟩, distinct⟩

end Rules

section Found

variable (env : ServerEnv) (files : Files)

-- The first target is the object of the content itself, the rest are its chunks.
def ContentFound (content : ContentRefV4) (targets : List StorageObjectRef) : Prop :=
  contentTargets env files content = .ok targets ∧ (targets.tail.map StorageObjectRef.key).Nodup

def ContentsFound (contents : List ContentRefV4) (targets : List StorageObjectRef) : Prop :=
  ∃ lists, List.Forall₂ (ContentFound env files) contents lists ∧ targets = lists.flatten

def ThreadFound (reference : ThreadRefV4) (thread : ThreadObjects) : Prop :=
  ∃ descriptor, readDescriptor env files reference.descriptorSha256 = .ok (descriptor, thread.1) ∧
    checkDescriptor reference descriptor = .ok () ∧ ContentsFound env files descriptor.contents thread.2 ∧
    (thread.2.map StorageObjectRef.key).Nodup

def RevisionFound (revisionId : String) (result : RevisionRootV4 × List StorageObjectRef) : Prop :=
  ∃ object threads, readRevisionRoot env files revisionId = .ok (result.1, object) ∧
    checkRevisionRoot env revisionId result.1 = .ok () ∧ List.Forall₂ (ThreadFound env files) result.1.threads threads ∧
    ((threads.map Prod.fst).map StorageObjectRef.key).Nodup ∧ result.2 = graphOf (object :: listed threads)

end Found

section Validate

variable (env : ServerEnv)

theorem traversal_chunks (chunks : List StorageObjectRef) :
    Traversal (ensureChunks env chunks) (fun files _ => ∀ chunk ∈ chunks, ensureTypedObject env files chunk = .ok ()) := by
  induction chunks with
  | nil => exact traversal_congr _ _ _ (fun _ _ => iff_of_true rfl nofun) (traversal_pure ())
  | cons chunk rest ih =>
      refine traversal_congr _ _ _ (fun files value => ?_)
        (traversal_seq _ _ _ _ (traversal_read fun files => ensureTypedObject env files chunk) fun _ => ih)
      rw [List.forall_mem_cons]
      exact ⟨fun ⟨_, first, later⟩ => ⟨first, later⟩, fun ⟨first, later⟩ => ⟨(), first, later⟩⟩

theorem traversal_content (content : ContentRefV4) :
    Traversal (validateContentGraphV4 env content) (fun files targets => ContentFound env files content targets) := by
  unfold validateContentGraphV4
  cases storage : content.storage with
  | whole sha256 =>
      refine traversal_congr _ _ _ (fun files targets => ?_)
        (traversal_seq _ _ _ _ (traversal_read fun files => ensureTypedObject env files _) fun _ => traversal_pure _)
      rw [ContentFound, content_targets_whole env files content sha256 storage]
      constructor
      · intro ⟨_, ensured, same⟩
        subst same
        exact ⟨⟨ensured, rfl⟩, List.nodup_nil⟩
      · intro ⟨⟨ensured, same⟩, _⟩
        exact ⟨(), ensured, same.symm⟩
  | chunked sha256 =>
      refine traversal_congr _ _ _ (fun files targets => ?_)
        (traversal_seq _ _ _ _ (traversal_read fun files => readManifest env files sha256) fun pair =>
        traversal_seq _ _ _ _ (traversal_check _) fun _ => traversal_seq _ _ _ _ (traversal_chunks env _) fun _ =>
          traversal_seq _ _ _ _ (traversal_edges _ _) fun _ => traversal_pure _)
      rw [ContentFound, content_targets_chunked env files content sha256 storage]
      constructor
      · intro ⟨⟨manifest, object⟩, read, _, checked, _, chunks, _, distinct, same⟩
        subst same
        exact ⟨⟨manifest, object, read, checked, chunks, rfl⟩, distinct⟩
      · intro ⟨⟨manifest, object, read, checked, chunks, same⟩, distinct⟩
        subst same
        exact ⟨(manifest, object), read, (), checked, (), chunks, (), distinct, rfl⟩

theorem traversal_contents (contents : List ContentRefV4) :
    Traversal (validateContentsV4 env contents) (fun files targets => ContentsFound env files contents targets) := by
  induction contents with
  | nil =>
      refine traversal_congr _ _ _ (fun files targets => ?_) (traversal_pure [])
      constructor
      · intro same
        exact ⟨[], .nil, same.symm⟩
      · intro ⟨lists, all, same⟩
        cases all
        exact same.symm
  | cons content rest ih =>
      refine traversal_congr _ _ _ (fun files targets => ?_) (traversal_seq _ _ _ _ (traversal_content env content) fun _ =>
        traversal_seq _ _ _ _ ih fun _ => traversal_pure _)
      constructor
      · intro ⟨first, found, later, ⟨lists, all, flat⟩, same⟩
        exact ⟨first :: lists, .cons found all, by rw [← same, flat, List.flatten_cons]⟩
      · intro ⟨lists, all, same⟩
        cases all with
        | cons found tail => exact ⟨_, found, _, ⟨_, tail, rfl⟩, same.symm⟩

theorem traversal_threads (references : List ThreadRefV4) (graph : Graph) :
    Traversal (validateThreadsV4 env references graph) (fun files result => ∃ threads,
      List.Forall₂ (ThreadFound env files) references threads ∧
        result = (threads.map Prod.fst, insertObjects graph (listed threads))) := by
  induction references generalizing graph with
  | nil =>
      refine traversal_congr _ _ _ (fun files result => ?_) (traversal_pure _)
      constructor
      · intro same
        exact ⟨[], .nil, same.symm⟩
      · intro ⟨threads, all, same⟩
        cases all
        exact same.symm
  | cons reference rest ih =>
      refine traversal_congr _ _ _ (fun files result => ?_)
        (traversal_seq _ _ _ _ (traversal_read fun files => readDescriptor env files reference.descriptorSha256) fun pair =>
        traversal_seq _ _ _ _ (traversal_check _) fun _ => traversal_seq _ _ _ _ (traversal_contents env _) fun _ =>
          traversal_seq _ _ _ _ (traversal_edges _ _) fun _ => traversal_seq _ _ _ _ (ih _) fun _ => traversal_pure _)
      have collected : ∀ thread threads, insertObjects graph (listed (thread :: threads)) =
          insertObjects (insertObjects graph (thread.1 :: thread.2)) (listed threads) := fun _ _ => List.foldl_append
      constructor
      · intro ⟨⟨descriptor, object⟩, read, _, checked, targets, found, _, distinct, _, ⟨threads, all, tail⟩, same⟩
        subst tail
        refine ⟨(object, targets) :: threads, .cons ⟨descriptor, read, checked, found, distinct⟩ all, ?_⟩
        rw [collected, ← same]
        rfl
      · intro ⟨threads, all, same⟩
        cases all with
        | @cons _ thread _ threads found tail =>
            obtain ⟨descriptor, read, checked, contents, distinct⟩ := found
            refine ⟨(descriptor, thread.1), read, (), checked, thread.2, contents, (), distinct, _, ⟨threads, tail, rfl⟩, ?_⟩
            rw [same, collected]
            rfl

theorem traversal_revision (revisionId : String) :
    Traversal (validateRevisionGraphV4 env revisionId) (fun files result => RevisionFound env files revisionId result) := by
  refine traversal_congr _ _ _ (fun files result => ?_)
    (traversal_seq _ _ _ _ (traversal_read fun files => readRevisionRoot env files revisionId) fun pair =>
    traversal_seq _ _ _ _ (traversal_check _) fun _ => traversal_seq _ _ _ _ (traversal_threads env _ _) fun _ =>
      traversal_seq _ _ _ _ (traversal_edges _ _) fun _ => traversal_pure _)
  constructor
  · intro ⟨⟨root, object⟩, read, _, checked, _, ⟨threads, all, tail⟩, _, distinct, same⟩
    subst tail same
    exact ⟨object, threads, read, checked, all, distinct, rfl⟩
  · intro ⟨object, threads, read, checked, all, distinct, same⟩
    refine ⟨(result.1, object), read, (), checked, _, ⟨threads, all, rfl⟩, (), distinct, ?_⟩
    exact Prod.ext rfl same.symm

end Validate

end SessionSync.Server
