import SessionSync.Core.Sha256
import SessionSync.Storage.Encoding
import SessionSync.Treasure.Candidates

set_option autoImplicit false

namespace SessionSync.Treasure

open SessionSync.Core Checked Storage

def Groups.at (groups : Groups) (id : String) : List CandidateContent := groups[id]?.getD []

-- A candidate with this hash is filed under the id.
def Groups.Holds (groups : Groups) (id hash : String) : Prop := ∃ candidate ∈ groups.at id, candidate.semanticHash = hash

-- No group is empty, and a candidate is in the group of its thread with the hash of that thread.
structure Filed (lib : Primitives) (groups : Groups) : Prop where
  filled : ∀ (id : String) (candidates : List CandidateContent), groups[id]? = some candidates → candidates ≠ []
  placed : ∀ (id : String), ∀ candidate ∈ groups.at id, candidate.thread.threadId = id ∧
    candidate.semanticHash = semanticThreadHash lib candidate.thread

theorem filed_empty (lib : Primitives) : Filed lib ∅ := by
  refine ⟨fun id candidates here => ?_, fun id candidate member => ?_⟩
  · rw [Std.ExtTreeMap.getElem?_empty] at here
    cases here
  · rw [Groups.at, Std.ExtTreeMap.getElem?_empty] at member
    cases member

theorem file_at (groups : Groups) (candidate : CandidateContent) (id : String) :
    (groups.file candidate).at id = if id = candidate.thread.threadId then groups.at id ++ [candidate] else groups.at id := by
  rw [Groups.at, Groups.file, Keyed.lookup_insert]
  by_cases same : id = candidate.thread.threadId
  · rw [if_pos same, if_pos same, same]
    rfl
  · rw [if_neg same, if_neg same]
    rfl

theorem file_holds (groups : Groups) (candidate : CandidateContent) (id hash : String) :
    (groups.file candidate).Holds id hash ↔
      groups.Holds id hash ∨ (candidate.thread.threadId = id ∧ candidate.semanticHash = hash) := by
  rw [Groups.Holds, file_at]
  by_cases same : id = candidate.thread.threadId
  · rw [if_pos same]
    simp [Groups.Holds, or_and_right, exists_or, same]
  · rw [if_neg same]
    simp [Groups.Holds, Ne.symm same]

theorem file_filed (lib : Primitives) (groups : Groups) (candidate : CandidateContent) (filed : Filed lib groups)
    (hash : candidate.semanticHash = semanticThreadHash lib candidate.thread) : Filed lib (groups.file candidate) := by
  refine ⟨fun id candidates here => ?_, fun id other member => ?_⟩
  · rw [Groups.file, Keyed.lookup_insert] at here
    by_cases same : id = candidate.thread.threadId
    · rw [if_pos same] at here
      cases here
      exact List.append_ne_nil_of_right_ne_nil _ (List.cons_ne_nil _ _)
    · rw [if_neg same] at here
      exact filed.filled id candidates here
  · rw [file_at] at member
    by_cases same : id = candidate.thread.threadId
    · rw [if_pos same, List.mem_append, List.mem_singleton] at member
      rcases member with earlier | rfl
      · exact filed.placed id other earlier
      · exact ⟨same.symm, hash⟩
    · rw [if_neg same] at member
      exact filed.placed id other member

section Load

variable (codec : LocalCodec) (repository : LocalRepository)

theorem file_threads (snapshotId : String) (contents : Contents) (threads : List ThreadBundle) (groups after : Groups)
    (filed : Filed codec.lib groups) (run : fileThreads codec repository snapshotId contents threads groups = .ok after) :
    Filed codec.lib after ∧ ∀ id hash, after.Holds id hash ↔
      groups.Holds id hash ∨ ∃ thread ∈ threads, thread.threadId = id ∧ semanticThreadHash codec.lib thread = hash := by
  induction threads generalizing groups with
  | nil =>
      cases run
      exact ⟨filed, fun id hash => by simp⟩
  | cons thread rest ih =>
      simp only [fileThreads, bind_ok] at run
      obtain ⟨content, _, _, _, later⟩ := run
      obtain ⟨kept, holds⟩ := ih _ (file_filed codec.lib groups _ filed rfl) later
      refine ⟨kept, fun id hash => ?_⟩
      rw [holds, file_holds, or_assoc]
      simp

-- The snapshot that a source id stands for has a thread with this id and this hash.
def SourceHolds (snapshots : Std.ExtTreeMap String LocalSnapshotListItem) (sourceId id hash : String) : Prop :=
  ∃ item snapshot contents, snapshots[sourceId]? = some item ∧
    loadSnapshot codec repository item.manifest = .ok (snapshot, contents) ∧
    ∃ thread ∈ snapshot.threads, thread.threadId = id ∧ semanticThreadHash codec.lib thread = hash

theorem load_sources (snapshots : Std.ExtTreeMap String LocalSnapshotListItem) (ids : List String) (groups after : Groups)
    (filed : Filed codec.lib groups) (run : loadSources codec repository snapshots ids groups = .ok after) :
    Filed codec.lib after ∧ ∀ id hash, after.Holds id hash ↔
      groups.Holds id hash ∨ ∃ sourceId ∈ ids, SourceHolds codec repository snapshots sourceId id hash := by
  induction ids generalizing groups with
  | nil =>
      cases run
      exact ⟨filed, fun id hash => by simp⟩
  | cons sourceId rest ih =>
      simp only [loadSources, bind_ok, found_ok] at run
      obtain ⟨item, known, ⟨snapshot, contents⟩, loads, middle, files, later⟩ := run
      obtain ⟨sound, first⟩ := file_threads codec repository sourceId contents snapshot.threads groups middle filed files
      obtain ⟨kept, holds⟩ := ih middle sound later
      have here : ∀ id hash, SourceHolds codec repository snapshots sourceId id hash ↔
          ∃ thread ∈ snapshot.threads, thread.threadId = id ∧ semanticThreadHash codec.lib thread = hash := by
        intro id hash
        simp [SourceHolds, known, loads]
      refine ⟨kept, fun id hash => ?_⟩
      rw [holds, first, List.exists_mem_cons_iff, here, or_assoc]

-- A thread with this id and this hash is in one of the chosen snapshots.
def Occurs (sourceSnapshotIds : List String) (id hash : String) : Prop :=
  ∃ snapshots, snapshotItems codec repository = .ok snapshots ∧
    ∃ sourceId ∈ sourceSnapshotIds, SourceHolds codec repository snapshots sourceId id hash

theorem load_candidates (sourceSnapshotIds : List String) (groups : Groups)
    (loaded : loadCandidates codec repository sourceSnapshotIds = .ok groups) :
    Filed codec.lib groups ∧ ∀ id hash, groups.Holds id hash ↔ Occurs codec repository sourceSnapshotIds id hash := by
  simp only [loadCandidates, bind_ok] at loaded
  obtain ⟨_, _, _, _, snapshots, items, run⟩ := loaded
  obtain ⟨filed, holds⟩ := load_sources codec repository snapshots _ ∅ groups (filed_empty codec.lib) run
  refine ⟨filed, fun id hash => ?_⟩
  rw [holds, Occurs, items]
  simp [Groups.Holds, Groups.at, Keyed.mem_sorted_keys]

theorem load_order (sourceSnapshotIds others : List String) (moved : others.Perm sourceSnapshotIds) :
    loadCandidates codec repository others = loadCandidates codec repository sourceSnapshotIds := by
  rw [loadCandidates, loadCandidates, Keyed.sorted_keys_congr others sourceSnapshotIds fun _ => moved.mem_iff, moved.length_eq]

end Load

theorem versions_hashes (candidates : List CandidateContent) (hash : String) :
    (∃ version ∈ versionsOf candidates, version.semanticHash = hash) ↔ ∃ candidate ∈ candidates, candidate.semanticHash = hash := by
  rw [versionsOf, Keyed.destutter_images]
  simp [CandidateContent.summary]

section Preview

variable (lib : Primitives) (groups : Groups)

theorem held_group (filed : Filed lib groups) (id : String) (candidates : List CandidateContent) :
    groups[id]? = some candidates ↔ groups.at id = candidates ∧ candidates ≠ [] := by
  rw [Groups.at]
  cases here : groups[id]? with
  | none => simp
  | some other =>
      simp only [Option.some.injEq, Option.getD_some]
      exact ⟨fun same => ⟨same, filed.filled id candidates (same ▸ here)⟩, fun both => both.1⟩

-- The id occurs with two hashes.
def Conflicting (holds : String → String → Prop) (id : String) : Prop := ∃ one other, holds id one ∧ holds id other ∧ one ≠ other

theorem hashes_conflict (id : String) : 1 < (hashesOf (groups.at id)).length ↔ Conflicting groups.Holds id := by
  rw [hashesOf, Keyed.sorted_keys_many]
  constructor
  · rintro ⟨one, first, other, second, apart⟩
    exact ⟨one, other, List.mem_map.mp first, List.mem_map.mp second, apart⟩
  · rintro ⟨one, other, first, second, apart⟩
    exact ⟨one, List.mem_map.mpr first, other, List.mem_map.mpr second, apart⟩

theorem conflict_listed (filed : Filed lib groups) (conflict : TreasureConflict) :
    conflict ∈ groups.toList.filterMap conflictOf ↔
      Conflicting groups.Holds conflict.threadId ∧ conflict.candidates = versionsOf (groups.at conflict.threadId) := by
  rw [List.mem_filterMap]
  constructor
  · rintro ⟨⟨id, candidates⟩, member, made⟩
    have here := (held_group lib groups filed id candidates).mp (Std.ExtTreeMap.mem_toList_iff_getElem?_eq_some.mp member)
    unfold conflictOf at made
    by_cases many : 1 < (hashesOf candidates).length
    · rw [if_pos many] at made
      cases made
      rw [← here.1] at many ⊢
      exact ⟨(hashes_conflict groups id).mp many, rfl⟩
    · rw [if_neg many] at made
      cases made
  · rintro ⟨both, versions⟩
    have many := (hashes_conflict groups conflict.threadId).mpr both
    obtain ⟨one, _, ⟨candidate, member, _⟩, _⟩ := both
    refine ⟨(conflict.threadId, groups.at conflict.threadId), Std.ExtTreeMap.mem_toList_iff_getElem?_eq_some.mpr ?_, ?_⟩
    · exact (held_group lib groups filed _ _).mpr ⟨rfl, List.ne_nil_of_mem member⟩
    · rw [conflictOf, if_pos many, ← versions]

theorem conflict_ids (filed : Filed lib groups) (id : String) :
    id ∈ (groups.toList.filterMap conflictOf).map TreasureConflict.threadId ↔ Conflicting groups.Holds id := by
  rw [List.mem_map]
  constructor
  · rintro ⟨conflict, member, rfl⟩
    exact ((conflict_listed lib groups filed conflict).mp member).1
  · intro both
    exact ⟨⟨id, versionsOf (groups.at id)⟩, (conflict_listed lib groups filed _).mpr ⟨both, rfl⟩, rfl⟩

theorem conflicts_distinct : ((groups.toList.filterMap conflictOf).map TreasureConflict.threadId).Nodup := by
  have part : ((groups.toList.filterMap conflictOf).map TreasureConflict.threadId).Sublist groups.keys := by
    rw [← Std.ExtTreeMap.map_fst_toList_eq_keys]
    induction groups.toList with
    | nil => exact List.Sublist.refl _
    | cons group rest ih =>
        by_cases many : 1 < (hashesOf group.2).length
        · rw [List.filterMap_cons_some (by rw [conflictOf, if_pos many])]
          exact ih.cons_cons _
        · rw [List.filterMap_cons_none (by rw [conflictOf, if_neg many])]
          exact ih.cons _
  exact part.nodup Std.ExtTreeMap.nodup_keys

-- One entry for each conflict, each with a hash that occurs for its id, and no others.
structure Resolves (holds : String → String → Prop) (resolutions : List TreasureResolution) : Prop where
  once : (resolutions.map TreasureResolution.threadId).Nodup
  every : ∀ id, id ∈ resolutions.map TreasureResolution.threadId ↔ Conflicting holds id
  named : ∀ resolution ∈ resolutions, holds resolution.threadId resolution.semanticHash

-- What the hash of a chosen version is.
def Wanted (resolutions : List TreasureResolution) (candidate : CandidateContent) : Prop :=
  ∀ resolution ∈ resolutions, resolution.threadId = candidate.thread.threadId → candidate.semanticHash = resolution.semanticHash

theorem choose_group_ok (selected : Std.ExtTreeMap String String) (filed : Filed lib groups) (id : String)
    (candidates : List CandidateContent) (here : groups[id]? = some candidates) :
    (∃ chosen, chooseGroup selected (id, candidates) = .ok chosen) ↔ ∀ hash, selected[id]? = some hash → groups.Holds id hash := by
  have both := (held_group lib groups filed id candidates).mp here
  simp only [chooseGroup, bind_ok, found_ok]
  cases choice : selected[id]? with
  | some hash =>
      simp only [Option.some_or, Option.some.injEq, exists_eq_left', forall_eq', Groups.Holds, both.1]
      rw [← Option.isSome_iff_exists, List.find?_isSome]
      simp
  | none =>
      refine iff_of_true ?_ (by simp)
      obtain ⟨candidate, rest, shape⟩ := List.exists_cons_of_ne_nil both.2
      have first : candidate.semanticHash ∈ hashesOf candidates := by
        rw [hashesOf, Keyed.mem_sorted_keys, shape]
        exact List.mem_cons_self
      obtain ⟨least, later, order⟩ := List.exists_cons_of_ne_nil (List.ne_nil_of_mem first)
      have inside : least ∈ hashesOf candidates := order ▸ List.mem_cons_self
      rw [hashesOf, Keyed.mem_sorted_keys, List.mem_map] at inside
      obtain ⟨other, member, hash⟩ := inside
      have finds : (candidates.find? fun candidate => candidate.semanticHash = least).isSome = true := by
        rw [List.find?_isSome]
        exact ⟨other, member, by simpa using hash⟩
      obtain ⟨chosen, found⟩ := Option.isSome_iff_exists.mp finds
      exact ⟨chosen, least, by rw [Option.none_or, order, List.head?_cons], found⟩

theorem choose_group_chosen (selected : Std.ExtTreeMap String String) (filed : Filed lib groups) (id : String)
    (candidates : List CandidateContent) (here : groups[id]? = some candidates) (chosen : CandidateContent)
    (chooses : chooseGroup selected (id, candidates) = .ok chosen) :
    chosen.thread.threadId = id ∧ groups.Holds id chosen.semanticHash ∧
      ∀ hash, selected[id]? = some hash → chosen.semanticHash = hash := by
  have both := (held_group lib groups filed id candidates).mp here
  simp only [chooseGroup, bind_ok, found_ok] at chooses
  obtain ⟨wanted, choice, found⟩ := chooses
  have member : chosen ∈ groups.at id := both.1 ▸ List.mem_of_find?_eq_some found
  have hash : chosen.semanticHash = wanted := by simpa using List.find?_some found
  refine ⟨(filed.placed id chosen member).1, ⟨chosen, member, rfl⟩, fun other known => ?_⟩
  rw [known, Option.some_or, Option.some.injEq] at choice
  rw [hash, choice]

theorem mem_groups (group : String × List CandidateContent) : group ∈ groups.toList ↔ groups[group.1]? = some group.2 :=
  Std.ExtTreeMap.mem_toList_iff_getElem?_eq_some

theorem holds_group (filed : Filed lib groups) (id hash : String) (here : groups.Holds id hash) :
    groups[id]? = some (groups.at id) := by
  obtain ⟨candidate, member, _⟩ := here
  exact (held_group lib groups filed id _).mpr ⟨rfl, List.ne_nil_of_mem member⟩

theorem chosen_iff (filed : Filed lib groups) (sourceSnapshotIds : List String) (resolutions : List TreasureResolution) :
    (∃ result, chooseCandidates groups (previewFromCandidates lib sourceSnapshotIds groups) resolutions = .ok result) ↔
      Resolves groups.Holds resolutions := by
  have listed : ∀ id, id ∈ Keyed.sortedKeys ((groups.toList.filterMap conflictOf).map TreasureConflict.threadId) ↔
      Conflicting groups.Holds id := fun id => (Keyed.mem_sorted_keys _ id).trans (conflict_ids lib groups filed id)
  have keys := Keyed.mem_index_keys TreasureResolution.threadId TreasureResolution.semanticHash resolutions
  simp only [chooseCandidates, bind_ok, ensure_ok, exists_and_left, exists_const]
  rw [map_each_iff, selectedOf, Keyed.index_size_iff]
  change _ ∧ (∀ id ∈ _, id ∈ Keyed.sortedKeys ((groups.toList.filterMap conflictOf).map TreasureConflict.threadId)) ∧
    _ = (Keyed.sortedKeys ((groups.toList.filterMap conflictOf).map TreasureConflict.threadId)).length ∧ _ ↔ _
  constructor
  · rintro ⟨once, known, count, each⟩
    have covered := (List.Nodup.subperm Std.ExtTreeMap.nodup_keys known).perm_of_length_le
      (Nat.le_of_eq (count.symm.trans Std.ExtTreeMap.length_keys.symm))
    have every : ∀ id, id ∈ resolutions.map TreasureResolution.threadId ↔ Conflicting groups.Holds id := fun id =>
      (keys id).symm.trans (covered.mem_iff.trans (listed id))
    refine ⟨once, every, fun resolution member => ?_⟩
    obtain ⟨one, _, first, _⟩ := (every _).mp (List.mem_map_of_mem member)
    have here := holds_group lib groups filed _ one first
    exact (choose_group_ok lib groups _ filed _ _ here).mp (each (_, _) ((mem_groups groups (_, _)).mpr here)) _
      (Keyed.index_lookup _ _ resolutions once resolution member)
  · rintro ⟨once, every, named⟩
    have same : ∀ id, id ∈ (Keyed.index TreasureResolution.threadId TreasureResolution.semanticHash resolutions).keys ↔
        id ∈ Keyed.sortedKeys ((groups.toList.filterMap conflictOf).map TreasureConflict.threadId) := fun id =>
      (keys id).trans ((every id).trans (listed id).symm)
    refine ⟨once, fun id => (same id).mp, ?_, fun group member => ?_⟩
    · rw [← Std.ExtTreeMap.length_keys]
      exact (Keyed.same_length_iff _ _ Std.ExtTreeMap.nodup_keys same).mpr (Keyed.sorted_keys_nodup _)
    · refine (choose_group_ok lib groups _ filed group.1 group.2 ((mem_groups groups group).mp member)).mpr fun hash found => ?_
      obtain ⟨resolution, among, place, rfl⟩ := Keyed.index_from _ _ resolutions _ _ found
      exact place ▸ named resolution among

theorem chosen_result (filed : Filed lib groups) (preview : TreasurePreview) (resolutions : List TreasureResolution)
    (result : List CandidateContent) (chooses : chooseCandidates groups preview resolutions = .ok result) :
    result.map (fun chosen => chosen.thread.threadId) = groups.keys ∧
      ∀ chosen ∈ result, groups.Holds chosen.thread.threadId chosen.semanticHash ∧ Wanted resolutions chosen := by
  simp only [chooseCandidates, bind_ok, ensure_ok, exists_const] at chooses
  obtain ⟨size, _, _, run⟩ := chooses
  have once := (Keyed.index_size_iff _ _ resolutions).mp size
  refine ⟨?_, fun chosen member => ?_⟩
  · rw [← Std.ExtTreeMap.map_fst_toList_eq_keys]
    refine map_each_image _ _ _ _ _ (fun group among chosen picks => ?_) run
    exact (choose_group_chosen lib groups _ filed group.1 group.2 ((mem_groups groups group).mp among) chosen picks).1
  · obtain ⟨group, among, picks⟩ := map_each_mem _ _ _ run chosen member
    obtain ⟨id, holds, wanted⟩ :=
      choose_group_chosen lib groups _ filed group.1 group.2 ((mem_groups groups group).mp among) chosen picks
    refine ⟨id ▸ holds, fun resolution inside same => wanted _ ?_⟩
    rw [← id, ← same]
    exact Keyed.index_lookup _ _ resolutions once resolution inside

end Preview

section Claim

variable (codec : LocalCodec) (repository : LocalRepository)

-- What a preview of these snapshots says and what a choice from it gives.
structure Selected (sourceSnapshotIds : List String) (groups : Groups) : Prop where
  conflicts : ∀ id, id ∈ (previewFromCandidates codec.lib sourceSnapshotIds groups).conflicts.map TreasureConflict.threadId ↔
    Conflicting (Occurs codec repository sourceSnapshotIds) id
  distinct : ((previewFromCandidates codec.lib sourceSnapshotIds groups).conflicts.map TreasureConflict.threadId).Nodup
  versions : ∀ conflict ∈ (previewFromCandidates codec.lib sourceSnapshotIds groups).conflicts, ∀ hash,
    (∃ version ∈ conflict.candidates, version.semanticHash = hash) ↔ Occurs codec repository sourceSnapshotIds conflict.threadId hash
  succeeds : ∀ resolutions,
    (∃ result, chooseCandidates groups (previewFromCandidates codec.lib sourceSnapshotIds groups) resolutions = .ok result) ↔
    Resolves (Occurs codec repository sourceSnapshotIds) resolutions
  chosen : ∀ resolutions result,
    chooseCandidates groups (previewFromCandidates codec.lib sourceSnapshotIds groups) resolutions = .ok result →
    (result.map fun chosen => chosen.thread.threadId).Nodup ∧
    (∀ id, id ∈ result.map (fun chosen => chosen.thread.threadId) ↔ ∃ hash, Occurs codec repository sourceSnapshotIds id hash) ∧
    ∀ chosen ∈ result, Occurs codec repository sourceSnapshotIds chosen.thread.threadId chosen.semanticHash ∧
      Wanted resolutions chosen

-- The order in which the snapshots are named changes nothing but the list of names and the fingerprint over it.
structure Unordered (sourceSnapshotIds others : List String) (groups : Groups) : Prop where
  loaded : loadCandidates codec repository others = .ok groups
  conflicts : (previewFromCandidates codec.lib others groups).conflicts =
    (previewFromCandidates codec.lib sourceSnapshotIds groups).conflicts
  chosen : ∀ resolutions, chooseCandidates groups (previewFromCandidates codec.lib others groups) resolutions =
    chooseCandidates groups (previewFromCandidates codec.lib sourceSnapshotIds groups) resolutions

theorem treasure_selection (sourceSnapshotIds : List String) (groups : Groups)
    (loaded : loadCandidates codec repository sourceSnapshotIds = .ok groups) :
    Selected codec repository sourceSnapshotIds groups ∧
      ∀ others, others.Perm sourceSnapshotIds → Unordered codec repository sourceSnapshotIds others groups := by
  obtain ⟨filed, holds⟩ := load_candidates codec repository sourceSnapshotIds groups loaded
  have occurs : groups.Holds = Occurs codec repository sourceSnapshotIds :=
    funext fun id => funext fun hash => propext (holds id hash)
  refine ⟨⟨fun id => ?_, conflicts_distinct groups, fun conflict member hash => ?_, fun resolutions => ?_,
    fun resolutions result chooses => ?_⟩,
    fun others moved => ⟨?_, rfl, fun _ => rfl⟩⟩
  · rw [← occurs]
    exact conflict_ids codec.lib groups filed id
  · obtain ⟨_, versions⟩ := (conflict_listed codec.lib groups filed conflict).mp member
    rw [versions, versions_hashes, ← occurs]
    rfl
  · rw [← occurs]
    exact chosen_iff codec.lib groups filed sourceSnapshotIds resolutions
  · obtain ⟨keys, each⟩ := chosen_result codec.lib groups filed _ resolutions result chooses
    rw [keys, ← occurs]
    refine ⟨Std.ExtTreeMap.nodup_keys, fun id => ?_, each⟩
    rw [Std.ExtTreeMap.mem_keys, Std.ExtTreeMap.mem_iff_isSome_getElem?, Option.isSome_iff_exists]
    constructor
    · rintro ⟨candidates, here⟩
      obtain ⟨same, filled⟩ := (held_group codec.lib groups filed id candidates).mp here
      obtain ⟨candidate, rest, shape⟩ := List.exists_cons_of_ne_nil filled
      exact ⟨candidate.semanticHash, candidate, by rw [same, shape]; exact List.mem_cons_self, rfl⟩
    · rintro ⟨hash, here⟩
      exact ⟨_, holds_group codec.lib groups filed id hash here⟩
  · rw [load_order codec repository sourceSnapshotIds others moved, loaded]

end Claim

namespace Sample

-- Two snapshots of one thread, which has another title in the later one. Its rollout is a single line.
def line : Bytes := [123, 125, 10]

def nameOf : Bool → String
  | false => "s"
  | true => "u"

def lineName : String := "sha256:ca3d163bab055381827226140568f3bef7eaac187cebd76878e0b63e9e442356"

def content : ContentRefV4 :=
  { logicalSha256 := lineName, byteLength := 3, storage := .whole lineName, mediaType := "text", logicalPath := none }

def descriptor (later : Bool) : SemanticThreadDescriptorV4 :=
  { schemaVersion := 4, normalizationSchemaVersion := 1, threadId := "t", title := nameOf later,
    archived := false, createdAtMs := none,
    updatedAtMs := none, semanticWorkspace := ⟨none, none⟩, rollout := content, relatedRecords := ∅, attachments := [] }

def descriptorText (later : Bool) : Bytes := canonicalJson sampleLib (descriptor later).toValue

def descriptorName : Bool → String
  | false => "sha256:7df4d59d83fc168343503e3e080090d0da1ab61731f64595613937db78e6344e"
  | true => "sha256:1152e36ae67adfcfd231a5551680cdeb5bb191e057bd4f7f309ce953553a1912"

def overlayText : Bytes := canonicalJson sampleLib (SnapshotOverlayV4.new ∅).toValue

def overlayName : String := "sha256:7c499e3faa714a943f87207e44d2ff7ae71f1fc21425d2cca78973f4b23854a5"

def root (later : Bool) : SnapshotRootV4 :=
  { schemaVersion := 4, normalizationSchemaVersion := 1, snapshotId := nameOf later, createdAt := "2026-01-01T00:00:00Z",
    threads := [⟨"t", descriptorName later⟩], overlaySha256 := overlayName, warningCount := 0 }

def rootText (later : Bool) : Bytes := canonicalJson sampleLib (root later).toValue

-- The texts of this repository and no others.
def decoders : Decoders where
  revisionRoot _ := .error "expected value"
  descriptor bytes :=
    if bytes = descriptorText false then .ok (descriptor false)
    else if bytes = descriptorText true then .ok (descriptor true)
    else .error "expected value"
  manifest _ := .error "expected value"
  overlay bytes := if bytes = overlayText then .ok (.new ∅) else .error "expected value"
  snapshotRoot bytes :=
    if bytes = rootText false then .ok (root false)
    else if bytes = rootText true then .ok (root true)
    else .error "expected value"

def codec : LocalCodec :=
  { lib := sampleLib, serde := decoders, metadata := fun _ => .error "expected value", parseUuid := fun _ => none }

def files : Files :=
  (∅ : Files).insert (.whole, lineName) line
    |>.insert (.thread, descriptorName false) (descriptorText false)
    |>.insert (.thread, descriptorName true) (descriptorText true)
    |>.insert (.snapshotOverlay, overlayName) overlayText

def repository : LocalRepository :=
  { files := files, snapshots := ((∅ : Std.ExtTreeMap String Bytes).insert "s" (rootText false)).insert "u" (rootText true),
    metadata := ∅ }

-- The names under which the texts are filed, and their lengths.
theorem texts_named : (digestBytes sampleLib line = lineName ∧ digestBytes sampleLib overlayText = overlayName ∧
      fileLength overlayText = 63) ∧
    ∀ later, digestBytes sampleLib (descriptorText later) = descriptorName later ∧ fileLength (descriptorText later) = 501 ∧
      fileLength (rootText later) ≤ maxRootBytes := by
  refine ⟨by decide +kernel, fun later => ?_⟩
  cases later <;> decide +kernel

theorem descriptor_named (later : Bool) : digestBytes sampleLib (descriptorText later) = descriptorName later :=
  (texts_named.2 later).1

theorem descriptor_size (later : Bool) : fileLength (descriptorText later) = 501 := (texts_named.2 later).2.1

theorem overlay_size : fileLength overlayText = 63 := texts_named.1.2.2

theorem names_valid (later : Bool) : validSha256 (descriptorName later) = true := by
  rw [← descriptor_named]
  exact digest_bytes_valid _ _

theorem line_valid : validSha256 lineName = true := texts_named.1.1 ▸ digest_bytes_valid _ _

theorem overlay_valid : validSha256 overlayName = true := texts_named.1.2.1 ▸ digest_bytes_valid _ _

theorem names_apart : descriptorName false ≠ descriptorName true := by decide

theorem texts_apart : descriptorText true ≠ descriptorText false := by
  intro same
  have named := congrArg (digestBytes sampleLib) same
  rw [descriptor_named, descriptor_named] at named
  exact names_apart named.symm

theorem roots_apart : rootText true ≠ rootText false := fun same =>
  absurd (congrArg SnapshotRootV4.snapshotId (snapshot_root_text_injective sampleLib sample_floats _ _ same)) (by decide)

theorem root_valid (later : Bool) : (root later).validate = .ok () := by
  simp only [SnapshotRootV4.validate, root, validateThreadRefsV4, validateSha256V4, bind_ok, ensure_ok]
  exact ⟨(), by cases later <;> decide, (), by decide, (), names_valid later, (), List.not_mem_nil, trivial⟩

theorem descriptor_read (later : Bool) : decoders.descriptor (descriptorText later) = .ok (descriptor later) := by
  cases later
  · simp only [decoders, if_true]
  · simp only [decoders, if_neg texts_apart, if_true]

theorem overlay_read : decoders.overlay overlayText = .ok (.new ∅) := by simp only [decoders, if_true]

theorem root_read (later : Bool) : decoders.snapshotRoot (rootText later) = .ok (root later) := by
  cases later
  · simp only [decoders, if_true]
  · simp only [decoders, if_neg roots_apart, if_true]

theorem whole_file : objectFile files .whole lineName = .ok line := by
  refine (object_file_ok _ _ _ _).mpr ⟨line_valid, ?_⟩
  rw [files, Keyed.lookup_insert, if_neg (by simp), Keyed.lookup_insert, if_neg (by simp), Keyed.lookup_insert, if_neg (by simp),
    Keyed.lookup_insert, if_pos rfl]

theorem thread_file (later : Bool) : files[((.thread, descriptorName later) : ObjectName)]? = some (descriptorText later) := by
  have apart : ((.thread, descriptorName false) : ObjectName) ≠ (.thread, descriptorName true) :=
    fun same => names_apart (Prod.mk.inj same).2
  rw [files, Keyed.lookup_insert, if_neg (by simp), Keyed.lookup_insert]
  cases later
  · rw [if_neg apart, Keyed.lookup_insert, if_pos rfl]
  · rw [if_pos rfl]

theorem overlay_file : files[((.snapshotOverlay, overlayName) : ObjectName)]? = some overlayText := by
  rw [files, Keyed.lookup_insert, if_pos rfl]

theorem descriptor_valid (later : Bool) : (descriptor later).validate = .ok () := by
  simp only [SemanticThreadDescriptorV4.validate, bind_ok, ensure_ok]
  refine ⟨(), ⟨rfl, rfl⟩, (), (by decide : isBlank "t" = false), (), (by decide : isBlank "text" = false), (), ?_,
    by simp [descriptor]⟩
  simp only [SemanticThreadDescriptorV4.contents, descriptor, content, validateContentRefsV4, validateContentRefV4,
    validateSha256V4, bind_ok, ensure_ok]
  exact ⟨(), ⟨(), line_valid, (), by decide, line_valid⟩, trivial⟩

theorem thread_loads (later : Bool) :
    loadDescriptor sampleLib decoders files ⟨"t", descriptorName later⟩ = .ok (descriptor later) := by
  have small : fileLength (descriptorText later) ≤ StorageObjectKindV4.thread.maxBytes := by
    rw [descriptor_size]
    decide
  simp only [loadDescriptor, validateSha256V4, bind_ok, ensure_ok, pure_ok, read_json_ok]
  exact ⟨(), names_valid later, descriptor later, ⟨descriptorText later, (read_object_ok _ _ _ _ _).mpr
    ⟨names_valid later, thread_file later, small, descriptor_named later⟩, descriptor_read later⟩, (),
      descriptor_valid later, (), rfl, rfl⟩

theorem overlay_loads : loadOverlay sampleLib decoders files overlayName = .ok (.new ∅) := by
  have small : fileLength overlayText ≤ StorageObjectKindV4.snapshotOverlay.maxBytes := by
    rw [overlay_size]
    decide
  simp only [loadOverlay, bind_ok, pure_ok, read_json_ok]
  exact ⟨_, ⟨overlayText, (read_object_ok _ _ _ _ _).mpr ⟨overlay_valid, overlay_file, small, texts_named.1.2.1⟩, overlay_read⟩, (),
    (ensure_ok _ _ _).mpr ⟨rfl, rfl⟩, rfl⟩

theorem content_objects (later : Bool) :
    contentsObjects codec files (descriptor later).contents = .ok [⟨.whole, lineName, 3⟩] := by
  have valid : validateContentRefV4 content = .ok () := by
    simp only [validateContentRefV4, content, validateSha256V4, bind_ok, ensure_ok]
    exact ⟨(), (ensure_ok _ _ _).mpr line_valid, (), (ensure_ok _ _ _).mpr (by decide), line_valid⟩
  have one : contentObjects codec files content = .ok [⟨.whole, lineName, 3⟩] := by
    rw [contentObjects, valid]
    simp only [content]
    rfl
  have all : (descriptor later).contents = [content] := rfl
  simp only [all, contentsObjects, one, bind_ok, pure_ok]
  exact ⟨_, rfl, [], rfl, rfl⟩

-- What a snapshot refers to, apart from its overlay.
def objectsOf (later : Bool) : List StorageObjectRefV4 :=
  [⟨.thread, descriptorName later, fileLength (descriptorText later)⟩, ⟨.whole, lineName, 3⟩]

theorem threads_listed (later : Bool) : listThreads codec files (root later).threads = .ok (objectsOf later, [3]) := by
  have file : objectFile files .thread (descriptorName later) = .ok (descriptorText later) :=
    (object_file_ok _ _ _ _).mpr ⟨names_valid later, thread_file later⟩
  simp only [root, listThreads, bind_ok, pure_ok]
  exact ⟨descriptor later, thread_loads later, descriptorText later, file, _, content_objects later, ([], []), rfl, rfl⟩

theorem item_listed (later : Bool) :
    ∃ item, listItem codec repository (nameOf later, rootText later) = .ok item ∧ item.snapshotId = nameOf later ∧
      item.manifest = nameOf later := by
  have overlay : objectFile files .snapshotOverlay overlayName = .ok overlayText :=
    (object_file_ok _ _ _ _).mpr ⟨overlay_valid, overlay_file⟩
  have sums : ∃ total, checkedTotal "snapshot physical byte count overflow" ((objectsOf later).map StorageObjectRefV4.byteLength)
      (fileLength overlayText) = .ok total := by
    simp only [objectsOf, checkedTotal, List.map_cons, List.map_nil, bind_ok, ensure_ok, descriptor_size, overlay_size]
    exact ⟨_, (), by decide, (), by decide, rfl⟩
  obtain ⟨total, summed⟩ := sums
  have apart : (objectsOf later).dedup = objectsOf later := List.Nodup.dedup (by simp [objectsOf])
  have described : snapshotMetadata codec repository (root later).snapshotId = .ok .default := by
    rw [snapshotMetadata, repository, Std.ExtTreeMap.getElem?_empty]
  simp only [listItem, bind_ok, pure_ok, Prod.exists]
  refine ⟨_, ⟨root later, root_read later, (), root_valid later, _, _, threads_listed later, 3, rfl, overlayText, overlay,
    total, ?_, .default, described, rfl⟩, rfl, rfl⟩
  rw [apart]
  exact summed

theorem manifests_listed : repository.snapshots.toList = [("s", rootText false), ("u", rootText true)] := rfl

theorem items_indexed : ∃ items, snapshotItems codec repository = .ok items ∧
    ∀ later, ∃ item, items[nameOf later]? = some item ∧ item.manifest = nameOf later := by
  obtain ⟨first, firstMade, firstId, firstManifest⟩ := item_listed false
  obtain ⟨second, secondMade, secondId, secondManifest⟩ := item_listed true
  have listed : listLocalSnapshots codec repository = .ok ([first, second].insertionSort newerThan) := by
    simp only [nameOf] at firstMade secondMade
    simp only [listLocalSnapshots, manifests_listed, listItems, firstMade, secondMade, bind_ok, pure_ok]
    exact ⟨[first, second], ⟨first, rfl, [second], ⟨second, rfl, [], rfl, rfl⟩, rfl⟩, rfl⟩
  have sorted := List.perm_insertionSort newerThan [first, second]
  have distinct : (([first, second].insertionSort newerThan).map LocalSnapshotListItem.snapshotId).Nodup := by
    rw [(sorted.map _).nodup_iff]
    simp [firstId, secondId, nameOf]
  have lookup := Keyed.index_lookup LocalSnapshotListItem.snapshotId (fun item => item) _ distinct
  refine ⟨Keyed.index LocalSnapshotListItem.snapshotId (fun item => item) ([first, second].insertionSort newerThan), ?_,
    fun later => ?_⟩
  · simp only [snapshotItems, listed, bind_ok, pure_ok]
    exact ⟨_, rfl, rfl⟩
  · cases later
    · exact ⟨first, firstId ▸ lookup first (sorted.mem_iff.mpr List.mem_cons_self), firstManifest⟩
    · exact ⟨second, secondId ▸ lookup second (sorted.mem_iff.mpr (List.mem_cons_of_mem _ List.mem_cons_self)), secondManifest⟩

def thread (later : Bool) : ThreadBundle := (descriptor later).intoBundle none

def snapshot (later : Bool) : LocalSnapshot :=
  { schemaVersion := localSnapshotSchemaVersion, snapshotId := nameOf later, createdAt := "2026-01-01T00:00:00Z",
    threads := [thread later],
    warningCount := 0 }

def contents : Contents := (∅ : Contents).insert "t" content

theorem snapshot_loads (later : Bool) : loadSnapshot codec repository (nameOf later) = .ok (snapshot later, contents) := by
  have fits : fileLength (rootText later) ≤ maxRootBytes := (texts_named.2 later).2.2
  have text : repository.snapshots[nameOf later]? = some (rootText later) := by
    rw [repository, Keyed.lookup_insert]
    cases later
    · exact (if_neg (by decide)).trans ((Keyed.lookup_insert _ _ _ _).trans (if_pos rfl))
    · exact if_pos rfl
  have empty : (SnapshotOverlayV4.new ∅).threads["t"]? = none := Std.ExtTreeMap.getElem?_empty
  have threads : loadThreads sampleLib decoders files (.new ∅) (root later).threads ∅ = .ok ([thread later], contents) := by
    simp only [root, loadThreads, thread_loads, bind_ok, pure_ok, ensure_ok, Std.ExtTreeMap.getElem?_empty, empty]
    exact ⟨descriptor later, rfl, (), rfl, ([], contents), rfl, rfl⟩
  simp only [loadSnapshot, loadV4Snapshot, readBoundedV4, bind_ok, found_ok, pure_ok]
  exact ⟨rootText later, text, root later, ⟨(), (ensure_ok _ _ _).mpr fits, root_read later⟩, (), root_valid later, _, overlay_loads,
    ([thread later], contents), threads, rfl⟩

def candidate (later : Bool) : CandidateContent :=
  { sourceSnapshotId := nameOf later, semanticHash := semanticThreadHash sampleLib (thread later), thread := thread later,
    content := content }

theorem content_valid : validateContent sampleLib decoders files content = .ok () := by
  have whole : readWhole sampleLib files lineName = .ok line := by
    simp only [readWhole, bind_ok, ensure_ok, pure_ok]
    exact ⟨line, whole_file, (), texts_named.1.1, rfl⟩
  simp only [validateContent, content, whole, bind_ok]
  exact ⟨line, rfl, (ensure_ok _ _ _).mpr ⟨rfl, texts_named.1.1⟩⟩

theorem threads_filed (later : Bool) (groups : Groups) :
    fileThreads codec repository (nameOf later) contents (snapshot later).threads groups = .ok (groups.file (candidate later)) := by
  have known : contents["t"]? = some content := (Keyed.lookup_insert _ _ _ _).trans (if_pos rfl)
  simp only [snapshot, fileThreads, bind_ok, found_ok]
  exact ⟨content, known, (), content_valid, rfl⟩

def groups : Groups := ((∅ : Groups).file (candidate false)).file (candidate true)

theorem candidates_load : loadCandidates codec repository ["s", "u"] = .ok groups := by
  obtain ⟨items, indexed, held⟩ := items_indexed
  obtain ⟨first, firstHeld, firstManifest⟩ := held false
  obtain ⟨second, secondHeld, secondManifest⟩ := held true
  have both : Keyed.sortedKeys ["s", "u"] = ["s", "u"] := by decide
  simp only [loadCandidates, both, loadSources, bind_ok, ensure_ok, found_ok]
  refine ⟨(), List.cons_ne_nil _ _, (), trivial, items, indexed, first, firstHeld, (snapshot false, contents), ?_, _,
    threads_filed false ∅, second, secondHeld, (snapshot true, contents), ?_, _, threads_filed true _, rfl⟩
  · rw [firstManifest]
    exact snapshot_loads false
  · rw [secondManifest]
    exact snapshot_loads true

theorem versions_apart : (candidate false).semanticHash ≠ (candidate true).semanticHash := by decide +kernel

theorem versions_held (later : Bool) : groups.Holds "t" (candidate later).semanticHash := by
  simp only [groups, file_holds]
  cases later
  · exact .inl (.inr ⟨rfl, rfl⟩)
  · exact .inr ⟨rfl, rfl⟩

end Sample

-- The two versions of the thread conflict, whichever snapshot is named first.
open Sample in
theorem treasure_selection_sample :
    Selected codec repository ["s", "u"] groups ∧ Unordered codec repository ["s", "u"] ["u", "s"] groups ∧
      "t" ∈ (previewFromCandidates sampleLib ["s", "u"] groups).conflicts.map TreasureConflict.threadId := by
  obtain ⟨selected, unordered⟩ := treasure_selection codec repository ["s", "u"] groups candidates_load
  have occurs : ∀ later, Occurs codec repository ["s", "u"] "t" (candidate later).semanticHash := fun later =>
    ((load_candidates codec repository ["s", "u"] groups candidates_load).2 _ _).mp (versions_held later)
  exact ⟨selected, unordered ["u", "s"] (.swap _ _ _), (selected.conflicts "t").mpr ⟨_, _, occurs false, occurs true, versions_apart⟩⟩

end SessionSync.Treasure
