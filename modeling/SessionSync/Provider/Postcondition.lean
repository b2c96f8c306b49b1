import SessionSync.Provider.Applied

set_option autoImplicit false

namespace SessionSync.Provider

open SessionSync.Core Checked Storage Rollout Local Lib

variable (lib : Primitives) (env : ScanEnv) (provider : String)

def stampedHome (home : ProviderHome) : ProviderHome :=
  { home with trees := stampTrees lib env provider (selected env provider (scanHome env home).threads) home.trees }

structure Unchanged (home after : ProviderHome) : Prop where
  trees : after.trees = home.trees
  databases : after.databases = home.databases

-- What a run that ends well owes its home.
structure Synchronized (home after : ProviderHome) : Prop where
  records : ∀ thread ∈ (scanHome env home).threads, ∃ bytes, (after.trees thread.source.archived)[thread.source.path]? = some bytes ∧
    ∀ line ∈ splitAfter newline bytes, NamesProvider env.reader provider line
  columns : Current provider after.databases
  conversations : ∀ (archived : Bool) (path : String) (bytes : Bytes), (home.trees archived)[path]? = some bytes →
    ∃ now, (after.trees archived)[path]? = some now ∧ SameConversation env.reader bytes now
  noOther : ∀ (archived : Bool) (path : String), (home.trees archived)[path]? = none → (after.trees archived)[path]? = none
  otherColumns : List.Forall₂ SameDatabase home.databases after.databases
  previewed : ∃ preview, previewProviderSync env home = .ok preview ∧ preview.provider = provider ∧
    (preview.noChanges = true ↔ Unchanged home after)
  settled : ∃ preview, previewProviderSync env after = .ok preview ∧ preview.noChanges = true
  again : ∀ operationId confirmed faults report last,
    (synchronizeLocalProvider lib env operationId confirmed).exec ⟨after, faults⟩ = (.ok report, last) → Unchanged after last.state

-- A rollout whose first record names the provider has no record that names another one.
def FirstSpeaks (home : ProviderHome) : Prop :=
  ∀ thread ∈ (scanHome env home).threads, namesFirst env.reader provider thread.source.bytes = true →
    ∀ line ∈ splitAfter newline thread.source.bytes, NamesProvider env.reader provider line

-- No rollout that the scan passes over, because another one of its thread comes first, is
-- the one that it lists once the selected ones are stamped, unless it names the provider.
def StaysBehind (home : ProviderHome) : Prop :=
  ∀ thread ∈ (scanHome env (stampedHome lib env provider home)).threads,
    (∀ listed ∈ (scanHome env home).threads, place listed ≠ place thread) → namesFirst env.reader provider thread.source.bytes = true

-- A run that rewrites something forgets the catalogs, and no database that the scan lists
-- is one of them.
def CatalogsApart (home : ProviderHome) : Prop :=
  Idle env provider home ∨ ∀ database ∈ home.databases, database.path ∉ home.catalogs

structure Coherent (home : ProviderHome) : Prop where
  firstSpeaks : FirstSpeaks env provider home
  hidden : HiddenCurrent provider home.databases
  staysBehind : StaysBehind lib env provider home
  catalogsApart : CatalogsApart env provider home

section Law

variable {lib env provider} {home state : ProviderHome}
variable (floats : PrintsFloats lib) (rereads : RereadsProvider lib env.reader provider) (text : ReadsText env.reader)

section Records

include floats rereads text

theorem stamped_first (thread : RolloutRecord) (member : thread ∈ (scanHome env home).threads) (current : Option String)
    (read : readRolloutProvider env.reader thread.source.bytes = .ok current) :
    namesFirst env.reader provider (stamped lib env provider thread) = true := by
  obtain ⟨line, rest, chars, value, payload, seen⟩ :=
    record_seen env.reader env.utf8Error thread.source thread (thread_file thread member).2
  have session := seen_session text thread line rest chars value payload seen (provider_unmarked text _ current read)
  rw [names_first_iff]
  exact stream_first floats text provider rereads _ line rest value payload seen.lines session

end Records

theorem finished_selected (finished : Finished lib env provider home state) (thread : RolloutRecord)
    (member : thread ∈ selected env provider (scanHome env home).threads) :
    (state.trees thread.source.archived)[thread.source.path]? = some (stamped lib env provider thread) := by
  rw [finished.trees]
  exact stamp_trees_target _ home.trees selected_targets.distinct thread member

theorem finished_other (finished : Finished lib env provider home state) (archived : Bool) (path : String)
    (other : (archived, path) ∉ (selected env provider (scanHome env home).threads).map place) :
    (state.trees archived)[path]? = (home.trees archived)[path]? := by
  rw [finished.trees]
  exact stamp_trees_other _ home.trees archived path other

theorem finished_named (finished : Finished lib env provider home state) (thread : RolloutRecord)
    (member : thread ∈ (scanHome env home).threads) (named : namesFirst env.reader provider thread.source.bytes = true) :
    (state.trees thread.source.archived)[thread.source.path]? = some thread.source.bytes := by
  rw [finished_other finished _ _ fun again => ?_]
  · exact ((rollout_file_iff thread.source).mp (thread_file thread member).1).2.1
  · obtain ⟨other, inside, same⟩ := List.mem_map.mp again
    obtain ⟨listed, unnamed⟩ := (selected_thread other).mp inside
    rw [same_place other thread listed member same, named] at unnamed
    cases unnamed

include floats rereads in
theorem records_iff (finished : Finished lib env provider home state) :
    (∀ thread ∈ (scanHome env home).threads, ∃ bytes, (state.trees thread.source.archived)[thread.source.path]? = some bytes ∧
      ∀ line ∈ splitAfter newline bytes, NamesProvider env.reader provider line) ↔ FirstSpeaks env provider home := by
  refine forall₂_congr fun thread member => ?_
  cases named : namesFirst env.reader provider thread.source.bytes with
  | true =>
      rw [finished_named finished thread member named]
      simp
  | false =>
      have target := (selected_thread thread).mpr ⟨member, named⟩
      rw [finished_selected finished thread target]
      have names := stream_names floats provider rereads _ (finished.writable thread target)
      simpa [stamped] using names

include floats rereads in
theorem conversations_kept (finished : Finished lib env provider home state) (archived : Bool) (path : String) (bytes : Bytes)
    (held : (home.trees archived)[path]? = some bytes) :
    ∃ now, (state.trees archived)[path]? = some now ∧ SameConversation env.reader bytes now := by
  by_cases target : (archived, path) ∈ (selected env provider (scanHome env home).threads).map place
  · obtain ⟨thread, member, same⟩ := List.mem_map.mp target
    cases same
    have own := selected_targets.holds thread member
    rw [Holds, held, Option.some.injEq] at own
    rw [own]
    exact ⟨_, finished_selected finished thread member, stream_conversation floats provider rereads _⟩
  · exact ⟨bytes, (finished_other finished archived path target).trans held, conversation_refl bytes⟩

theorem no_other_file (finished : Finished lib env provider home state) (archived : Bool) (path : String)
    (absent : (home.trees archived)[path]? = none) : (state.trees archived)[path]? = none := by
  rw [finished_other finished archived path fun again => ?_]
  · exact absent
  · obtain ⟨thread, member, same⟩ := List.mem_map.mp again
    cases same
    have own := selected_targets.holds thread member
    rw [Holds, absent] at own
    cases own

-- A catalog among the databases shows that it has been forgotten.
theorem refreshed_apart (same : List.Forall₂ SameDatabase home.databases (home.databases.map (refreshed provider home))) :
    ∀ database ∈ home.databases, database.path ∉ home.catalogs := by
  rw [List.forall₂_map_right_iff, List.forall₂_same] at same
  intro database member catalog
  have raised := (forget_in_level home.catalogs (updateDatabase provider database)).2 catalog
  have kept : level (refreshed provider home database) = level database := congrArg (Option.getD · 0) (same database member).revision
  exact absurd kept (ne_of_gt raised)

theorem refreshed_updated (apart : ∀ database ∈ home.databases, database.path ∉ home.catalogs) :
    home.databases.map (refreshed provider home) = home.databases.map (updateDatabase provider) :=
  List.map_congr_left fun database member => forget_in_apart home.catalogs (updateDatabase provider database) (apart database member)

theorem same_databases_refl (databases : List ProviderDatabase) : List.Forall₂ SameDatabase databases databases :=
  List.forall₂_same.mpr fun _ _ =>
    ⟨rfl, List.forall₂_same.mpr fun _ _ => ⟨rfl, rfl, List.forall₂_same.mpr fun row _ => same_row_refl row⟩, rfl⟩

-- Where the catalogs stay apart the run has updated the databases and no more.
theorem finished_updated (finished : Finished lib env provider home state) (apart : CatalogsApart env provider home) :
    state.databases = home.databases.map (updateDatabase provider) := by
  by_cases idle : Idle env provider home
  · rw [finished.idle idle, updated_kept provider home.databases idle.2]
  · rw [finished.rewritten idle]
    exact refreshed_updated (apart.resolve_left idle)

theorem other_columns_iff (finished : Finished lib env provider home state) :
    List.Forall₂ SameDatabase home.databases state.databases ↔ CatalogsApart env provider home := by
  constructor
  · intro same
    by_cases idle : Idle env provider home
    · exact .inl idle
    · rw [finished.rewritten idle] at same
      exact .inr (refreshed_apart same)
  · intro apart
    rw [finished_updated finished apart, List.forall₂_map_right_iff, List.forall₂_same]
    exact fun database _ => update_database_same provider database

include floats rereads text in
-- A run leaves its home as it is exactly when there was nothing to select.
theorem unchanged_iff (finished : Finished lib env provider home state) : Idle env provider home ↔ Unchanged home state := by
  constructor
  · intro idle
    refine ⟨?_, finished.idle idle⟩
    rw [finished.trees, idle.1]
    rfl
  · rintro ⟨trees, databases⟩
    have apart := (other_columns_iff finished).mp (databases ▸ same_databases_refl home.databases)
    refine ⟨?_, ?_⟩
    · rw [List.eq_nil_iff_forall_not_mem]
      intro thread target
      obtain ⟨member, unnamed⟩ := (selected_thread thread).mp target
      obtain ⟨current, read⟩ := finished.readable thread member
      have own := finished_selected finished thread target
      rw [trees, selected_targets.holds thread target, Option.some.injEq] at own
      rw [own, stamped_first floats rereads text thread member current read] at unnamed
      cases unnamed
    · rw [← databases, finished_updated finished apart]
      exact updated_count provider home.databases

theorem preview_iff (detected : detectConfiguredProvider home.config = .ok provider) (changes : Bool) :
    (∃ preview, previewProviderSync env home = .ok preview ∧ preview.provider = provider ∧ preview.noChanges = changes) ↔
      (∀ thread ∈ (scanHome env home).threads, ∃ current, readRolloutProvider env.reader thread.source.bytes = .ok current) ∧
        ((selected env provider (scanHome env home).threads).isEmpty && countDatabaseRows provider home.databases = 0) = changes := by
  simp only [previewProviderSync, planSync, detected, bind_ok, pure_ok, select_iff, Except.ok.injEq, exists_eq_left']
  constructor
  · rintro ⟨preview, ⟨_, ⟨targets, ⟨readable, rfl⟩, rfl⟩, rfl⟩, _, same⟩
    exact ⟨readable, same⟩
  · rintro ⟨readable, same⟩
    exact ⟨_, ⟨_, ⟨_, ⟨readable, rfl⟩, rfl⟩, rfl⟩, rfl, same⟩

include floats rereads text in
-- What comes after the run is settled when no other rollout has come forward.
theorem settled_iff (finished : Finished lib env provider home state) :
    (∀ thread ∈ (scanHome env state).threads, namesFirst env.reader provider thread.source.bytes = true) ↔
      StaysBehind lib env provider home := by
  have scans : scanHome env (stampedHome lib env provider home) = scanHome env state :=
    scan_congr state _ finished.trees.symm
  rw [StaysBehind, scans]
  refine forall₂_congr fun thread member => ⟨fun named _ => named, fun behind => ?_⟩
  by_cases known : ∃ listed ∈ (scanHome env home).threads, place listed = place thread
  · obtain ⟨listed, inside, same⟩ := known
    have held := ((rollout_file_iff thread.source).mp (thread_file thread member).1).2.1
    have side : thread.source.archived = listed.source.archived := (congrArg Prod.fst same).symm
    have name : thread.source.path = listed.source.path := (congrArg Prod.snd same).symm
    rw [side, name] at held
    cases named : namesFirst env.reader provider listed.source.bytes with
    | true =>
        rw [finished_named finished listed inside named, Option.some.injEq] at held
        rw [← held]
        exact named
    | false =>
        obtain ⟨current, read⟩ := finished.readable listed inside
        rw [finished_selected finished listed ((selected_thread listed).mpr ⟨inside, named⟩), Option.some.injEq] at held
        rw [← held]
        exact stamped_first floats rereads text listed inside current read
  · exact behind fun listed inside same => known ⟨listed, inside, same⟩

theorem synchronize_finished (operationId : String) (confirmed : Bool) (faults : List Bool) (report : ProviderSyncReport)
    (last : Faulty ProviderHome) (detected : detectConfiguredProvider home.config = .ok provider)
    (run : (synchronizeLocalProvider lib env operationId confirmed).exec ⟨home, faults⟩ = (.ok report, last)) :
    Finished lib env provider home last.state := by
  have known : ∀ other, detectConfiguredProvider home.config = .ok other → other = provider := by
    intro other found
    rw [detected, Except.ok.injEq] at found
    exact found.symm
  have safe : SafeAccess _ (synchronizeLocalProvider lib env operationId confirmed) _ ⟨home, faults⟩ :=
    synchronize_safe confirmed faults known
  rw [SafeAccess, Prog.safe_iff, run] at safe
  exact safe.2 report rfl

include floats rereads text in
theorem again_kept (finished : Finished lib env provider home state)
    (updated : state.databases = home.databases.map (updateDatabase provider))
    (settled : ∀ thread ∈ (scanHome env state).threads, namesFirst env.reader provider thread.source.bytes = true)
    (operationId : String) (confirmed : Bool) (faults : List Bool) (report : ProviderSyncReport) (last : Faulty ProviderHome)
    (run : (synchronizeLocalProvider lib env operationId confirmed).exec ⟨state, faults⟩ = (.ok report, last)) :
    Unchanged state last.state := by
  have detected : detectConfiguredProvider state.config = .ok provider := finished.config ▸ finished.detected
  have second := synchronize_finished operationId confirmed faults report last detected run
  refine (unchanged_iff floats rereads text second).mp ⟨?_, ?_⟩
  · rw [selected, List.filter_eq_nil_iff]
    simpa using settled
  · rw [updated]
    exact updated_count provider home.databases

theorem preview_settled (finished : Finished lib env provider home state)
    (updated : state.databases = home.databases.map (updateDatabase provider)) :
    (∃ preview, previewProviderSync env state = .ok preview ∧ preview.noChanges = true) ↔
      ∀ thread ∈ (scanHome env state).threads, namesFirst env.reader provider thread.source.bytes = true := by
  have detected : detectConfiguredProvider state.config = .ok provider := finished.config ▸ finished.detected
  have count : countDatabaseRows provider state.databases = 0 := by
    rw [updated]
    exact updated_count provider home.databases
  have previews : (∃ preview, previewProviderSync env state = .ok preview ∧ preview.provider = provider ∧
    preview.noChanges = true) ↔ _ :=
    preview_iff detected true
  simp only [count, decide_true, Bool.and_true, List.isEmpty_iff] at previews
  have empty : selected env provider (scanHome env state).threads = [] ↔
      ∀ thread ∈ (scanHome env state).threads, namesFirst env.reader provider thread.source.bytes = true := by
    rw [selected, List.filter_eq_nil_iff]
    simp
  rw [empty] at previews
  constructor
  · rintro ⟨preview, made, idle⟩
    have own : preview.provider = provider := by
      simp only [previewProviderSync, detected, bind_ok, pure_ok, Except.ok.injEq, exists_eq_left'] at made
      obtain ⟨_, _, rfl⟩ := made
      rfl
    exact (previews.mp ⟨preview, made, own, idle⟩).2
  · intro settled
    have readable : ∀ thread ∈ (scanHome env state).threads, ∃ current,
      readRolloutProvider env.reader thread.source.bytes = .ok current :=
      fun thread member => ⟨_, (names_first_iff provider _).mp (settled thread member)⟩
    obtain ⟨preview, made, _, idle⟩ := previews.mpr ⟨readable, settled⟩
    exact ⟨preview, made, idle⟩

include floats rereads text in
theorem preview_exact (finished : Finished lib env provider home state) :
    ∃ preview, previewProviderSync env home = .ok preview ∧ preview.provider = provider ∧
      (preview.noChanges = true ↔ Unchanged home state) := by
  obtain ⟨preview, made, own, changes⟩ := (preview_iff finished.detected _).mpr ⟨finished.readable, rfl⟩
  refine ⟨preview, made, own, ?_⟩
  rw [changes, ← unchanged_iff floats rereads text finished, Idle, Bool.and_eq_true, List.isEmpty_iff, decide_eq_true_eq]

end Law

namespace ProviderSample

open AgreementSample

def metaPayload (id provider : String) : Fields := [("id", .string id), ("model_provider", .string provider)]

def metaRecord (id provider : String) : Value :=
  .object [("payload", .object (metaPayload id provider)), ("type", .string "session_meta")]

theorem record_formed (id provider : String) : WellFormed (metaRecord id provider) := by
  refine ⟨⟨⟨⟨trivial, trivial, trivial⟩, ?_⟩, trivial, trivial⟩, ?_⟩
  · exact List.pairwise_pair.mpr (by simp only [String.reduceLT])
  · exact List.pairwise_pair.mpr (by simp only [String.reduceLT])

def line (names : String × String) : Bytes := canonicalJson sampleLib (metaRecord names.1 names.2) ++ [newline]

def known : List (String × String) := [("first", "custom"), ("first", "openai"), ("second", "custom")]

-- It knows the records of two threads.
def pairReader : Reader where
  parse := fun body =>
    match known.find? fun names => stripEnd body = stripEnd (line names) with
    | some names => .ok (metaRecord names.1 names.2)
    | none => .error "expected value"
  formed := by
    intro body value parsed
    split at parsed
    · cases parsed
      exact record_formed _ _
    · cases parsed

theorem pair_reads (body : Bytes) (value : Value) (read : pairReader.parse body = .ok value) :
    ∃ names ∈ known, stripEnd body = stripEnd (line names) ∧ value = metaRecord names.1 names.2 := by
  simp only [pairReader] at read
  split at read
  · rename_i names held
    exact ⟨names, List.mem_of_find?_eq_some held, by simpa using List.find?_some held, (Except.ok.inj read).symm⟩
  · cases read

def listing (tree : Std.ExtTreeMap String Bytes) : List (String × Bytes) := tree.toList

def pairEnv : ScanEnv := { reader := pairReader, utf8Error := noText, walk := listing, complete := fun _ => .refl _ }

def home (tree : Std.ExtTreeMap String Bytes) (databases : List ProviderDatabase) : ProviderHome :=
  { config := some (.ok (some "custom")), trees := fun archived => if archived then ∅ else tree
    staged := ∅, databases := databases, catalogs := ["sqlite/codex-dev.db"], journals := ∅ }

def forkedBytes : Bytes := line ("first", "custom") ++ line ("first", "openai")

def forked : ProviderHome := home ((∅ : Std.ExtTreeMap String Bytes).insert "rollout-1.jsonl" forkedBytes) []

def threadRow : Fields := [("id", .string "first"), ("model_provider", .string "openai")]

theorem thread_row_shaped : ∀ row ∈ [threadRow], ∀ key, key ∉ ["id", "model_provider"] → fieldOf row key = none := by
  intro row member key absent
  rw [List.mem_singleton.mp member]
  simp only [List.mem_cons, List.not_mem_nil, or_false, not_or] at absent
  simp [threadRow, fieldOf, Ne.symm absent.1, Ne.symm absent.2]

def threadsTable : ProviderTable :=
  { name := "threads", columns := ["id", "model_provider"], rows := [threadRow], shaped := thread_row_shaped }

-- One rollout that the run rewrites, with a line that is no record, and one that names the
-- provider already.
def mixed : ProviderHome :=
  home (((∅ : Std.ExtTreeMap String Bytes).insert "rollout-1.jsonl" (line ("first", "openai") ++ utf8 "hello\n".toList)).insert
    "rollout-2.jsonl" (line ("second", "custom"))) [{ path := "state_5.sqlite", tables := [threadsTable], revision := none }]

instance (home : ProviderHome) : Decidable (FirstSpeaks pairEnv "custom" home) :=
  inferInstanceAs (Decidable (∀ thread ∈ _, _ → ∀ line ∈ _, _))

instance (home : ProviderHome) : Decidable (StaysBehind sampleLib pairEnv "custom" home) :=
  inferInstanceAs (Decidable (∀ thread ∈ _, (∀ listed ∈ _, _) → _))

-- What the scan, the runs and the reader make of the two homes, from one evaluation.
theorem sample_runs :
    ((scanHome pairEnv forked).threads.map place = [(false, "rollout-1.jsonl")] ∧
      ((synchronizeLocalProvider sampleLib pairEnv "op" true).exec ⟨forked, []⟩).1.toOption.isSome = true ∧
      namesFirst pairReader "custom" forkedBytes = true ∧ line ("first", "openai") ∈ splitAfter newline forkedBytes ∧
      ¬ NamesProvider pairReader "custom" (line ("first", "openai"))) ∧
    (((synchronizeLocalProvider sampleLib pairEnv "op" true).exec ⟨mixed, []⟩).1.toOption.map fun report =>
        (report.rolloutCount, report.databaseRowCount)) = some (1, 1) ∧
      FirstSpeaks pairEnv "custom" mixed ∧ StaysBehind sampleLib pairEnv "custom" mixed ∧
    (∀ names ∈ known, (stripEnd (line names)).head? = some 123 ∧
      known.find? (fun other => stripEnd (canonicalJson sampleLib (metaRecord names.1 "custom")) = stripEnd (line other)) =
        some (names.1, "custom")) := by
  decide +kernel

theorem known_lines (names : String × String) (member : names ∈ known) : (stripEnd (line names)).head? = some 123 ∧
    pairReader.parse (canonicalJson sampleLib (metaRecord names.1 "custom")) = .ok (metaRecord names.1 "custom") := by
  obtain ⟨_, _, _, _, lines⟩ := sample_runs
  obtain ⟨head, found⟩ := lines names member
  exact ⟨head, by simp only [pairReader, found]⟩

theorem record_session (id provider : String) : IsSession (metaRecord id provider) (metaPayload id provider) := ⟨rfl, rfl⟩

theorem pair_rereads : RereadsProvider sampleLib pairReader "custom" := by
  intro body value payload parsed session
  obtain ⟨names, member, _, rfl⟩ := pair_reads body value parsed
  have own : payload = metaPayload names.1 names.2 := (Option.some.inj session.payload).symm
  have stamped : stamp none "custom" (metaRecord names.1 names.2) payload = metaRecord names.1 "custom" := by
    rw [own]
    rfl
  rw [stamped]
  exact ⟨_, _, (known_lines names member).2, record_session names.1 "custom", rfl⟩

theorem pair_text : ReadsText pairReader where
  trailing := fun body ending value ends => by simp only [pairReader, strip_ending body ending ends]
  unmarked := by
    intro rest value read
    obtain ⟨names, member, same, _⟩ := pair_reads _ value read
    have start := List.rdropWhile_prefix (fun byte : UInt8 => decide (byte = 10 ∨ byte = 13)) (l := utf8 [byteOrderMark] ++ rest)
    rw [show List.rdropWhile _ _ = stripEnd (utf8 [byteOrderMark] ++ rest) from rfl, same] at start
    obtain ⟨more, whole⟩ := start
    have first := congrArg List.head? whole
    rw [List.head?_append, (known_lines names member).1, mark_bytes] at first
    cases first

theorem mixed_coherent : Coherent sampleLib pairEnv "custom" mixed := by
  obtain ⟨_, _, speaks, behind, _⟩ := sample_runs
  refine ⟨speaks, ?_, behind, .inr ?_⟩
  · intro database member table inside internal
    rw [List.mem_singleton.mp member] at inside
    rw [List.mem_singleton.mp inside] at internal
    cases internal
  · intro database member
    rw [List.mem_singleton.mp member]
    decide

end ProviderSample

end SessionSync.Provider
