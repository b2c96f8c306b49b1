import SessionSync.Workspace.PathRoundTrip
import SessionSync.Core.Sha256

set_option autoImplicit false

namespace SessionSync.Workspace

open SessionSync.Core Checked Config

-- A path that is mapped and comes back as it was.
def RoundTrips (mapper : WorkspacePathMapper) (remoteToLocal : Bool) (path : String) : Prop :=
  ∃ mapped, mapText mapper remoteToLocal path = .ok (some mapped) ∧ mapText mapper (!remoteToLocal) mapped = .ok (some path)

def rowPath : Value → Option String
  | .object row => (fieldOf row "cwd").bind Value.asStr
  | _ => none

-- Every workspace path of a thread comes back, and its rows are values of serde_json.
structure ThreadReturns (mapper : WorkspacePathMapper) (remoteToLocal : Bool) (thread : ThreadBundle) : Prop where
  workspace : ∀ path, thread.workspace.sourcePath = some path → RoundTrips mapper remoteToLocal path
  rows : ∀ rows, thread.relatedRecords.tables["threads"]? = some rows → ∀ row ∈ rows,
    WellFormed row ∧ ∀ path, rowPath row = some path → RoundTrips mapper remoteToLocal path

variable (mapper : WorkspacePathMapper) (remoteToLocal : Bool)

theorem map_row_ok (row mapped : Value) (maps : mapRow mapper remoteToLocal row = .ok mapped) :
    mapped = row ∨ ∃ fields path other, row = .object fields ∧ rowPath row = some path ∧
      mapText mapper remoteToLocal path = .ok (some other) ∧ mapped = .object (Rollout.insertField "cwd" (.string other) fields) := by
  cases row with
  | object fields =>
      cases held : (fieldOf fields "cwd").bind Value.asStr with
      | none =>
          simp only [mapRow, held] at maps
          exact .inl (Except.ok.inj maps).symm
      | some path =>
          simp only [mapRow, held, bind_ok, pure_ok] at maps
          obtain ⟨found, text, rfl⟩ := maps
          cases found with
          | none => exact .inl rfl
          | some other => exact .inr ⟨fields, path, other, rfl, held, text, rfl⟩
  | null => exact .inl (Except.ok.inj maps).symm
  | bool value => exact .inl (Except.ok.inj maps).symm
  | number value => exact .inl (Except.ok.inj maps).symm
  | string value => exact .inl (Except.ok.inj maps).symm
  | array values => exact .inl (Except.ok.inj maps).symm

theorem as_str_some (value : Value) (text : String) (held : value.asStr = some text) : value = .string text := by
  cases value <;> simp_all [Value.asStr]

theorem row_back (row mapped : Value) (formed : WellFormed row)
    (returns : ∀ path, rowPath row = some path → RoundTrips mapper remoteToLocal path)
    (maps : mapRow mapper remoteToLocal row = .ok mapped) : mapRow mapper (!remoteToLocal) mapped = .ok row := by
  cases held : rowPath row with
  | none =>
      have kept : ∀ direction, mapRow mapper direction row = .ok row := by
        intro direction
        cases row with
        | object fields =>
            rw [rowPath] at held
            simp only [mapRow, held]
        | _ => rfl
      rw [kept, Except.ok.injEq] at maps
      rw [← maps, kept]
  | some path =>
      obtain ⟨there, forth, back⟩ := returns path held
      cases row with
      | object fields =>
          rw [rowPath] at held
          simp only [mapRow, held, forth, bind_ok, pure_ok, Except.ok.injEq, exists_eq_left'] at maps
          rw [← maps]
          have found : (fieldOf (Rollout.insertField "cwd" (.string there) fields) "cwd").bind Value.asStr = some there := by
            rw [Rollout.field_insert, if_pos rfl]
            rfl
          simp only [mapRow, found, back, bind_ok, pure_ok, Except.ok.injEq, exists_eq_left']
          obtain ⟨value, cwd, text⟩ := Option.bind_eq_some_iff.mp held
          have sorted : KeysSorted fields := formed.2
          rw [Rollout.insert_twice "cwd" (.string path) (.string there) fields sorted]
          congr 1
          refine fields_ext _ _ (Rollout.insert_sorted _ _ _ sorted) sorted fun name => ?_
          rw [Rollout.field_insert]
          by_cases same : "cwd" = name
          · rw [if_pos same, ← same, cwd, as_str_some value path text]
          · rw [if_neg same]
      | _ => cases held

theorem tables_back (tables there : Std.ExtTreeMap String (List Value))
    (returns : ∀ rows, tables["threads"]? = some rows → ∀ row ∈ rows,
      WellFormed row ∧ ∀ path, rowPath row = some path → RoundTrips mapper remoteToLocal path)
    (maps : mapTables mapper remoteToLocal tables = .ok there) : mapTables mapper (!remoteToLocal) there = .ok tables := by
  unfold mapTables at maps
  cases held : tables["threads"]? with
  | none =>
      rw [held] at maps
      have same := Except.ok.inj maps
      rw [← same, mapTables, held]
  | some rows =>
      rw [held] at maps
      simp only [bind_ok, pure_ok] at maps
      obtain ⟨others, mapped, rfl⟩ := maps
      have back := map_back _ (mapRow mapper !remoteToLocal) rows others
        (fun row member other one => row_back mapper remoteToLocal row other (returns rows held row member).1
          (returns rows held row member).2 one) mapped
      simp only [mapTables, Keyed.lookup_insert, if_true, back, bind_ok, pure_ok, Except.ok.injEq, exists_eq_left']
      refine Std.ExtTreeMap.ext_getElem? fun table => ?_
      rw [Keyed.lookup_insert, Keyed.lookup_insert]
      by_cases threads : table = "threads"
      · rw [if_pos threads, threads, held]
      · rw [if_neg threads, if_neg threads]

theorem thread_back (thread there : ThreadBundle) (returns : ThreadReturns mapper remoteToLocal thread)
    (maps : mapThreadPaths mapper remoteToLocal thread = .ok there) : mapThreadPaths mapper (!remoteToLocal) there = .ok thread := by
  simp only [mapThreadPaths, bind_ok, pure_ok] at maps
  obtain ⟨sourcePath, source, tables, mapped, rfl⟩ := maps
  have tablesBack := tables_back mapper remoteToLocal _ tables returns.rows mapped
  have sourceBack : mapSourcePath mapper (!remoteToLocal) sourcePath = .ok thread.workspace.sourcePath := by
    cases held : thread.workspace.sourcePath with
    | none =>
        rw [held] at source
        rw [← Except.ok.inj source]
        rfl
    | some path =>
        obtain ⟨other, forth, back⟩ := returns.workspace path held
        rw [held] at source
        simp only [mapSourcePath, forth, bind_ok, pure_ok, Except.ok.injEq, exists_eq_left', Option.getD_some] at source
        rw [← source]
        simp only [mapSourcePath, back, bind_ok, pure_ok, Except.ok.injEq, exists_eq_left', Option.getD_some]
  simp only [mapThreadPaths, sourceBack, tablesBack, bind_ok, pure_ok, Except.ok.injEq, exists_eq_left']

-- Mapping a snapshot and mapping it back gives the snapshot.
theorem snapshot_back (snapshot there : LocalSnapshot)
    (returns : ∀ thread ∈ snapshot.threads, ThreadReturns mapper remoteToLocal thread)
    (maps : mapSnapshot mapper remoteToLocal snapshot = .ok there) : mapSnapshot mapper (!remoteToLocal) there = .ok snapshot := by
  simp only [mapSnapshot, bind_ok, pure_ok] at maps
  obtain ⟨threads, mapped, rfl⟩ := maps
  have back := map_back _ (mapThreadPaths mapper !remoteToLocal) snapshot.threads threads
    (fun thread member other one => thread_back mapper remoteToLocal thread other (returns thread member) one) mapped
  simp only [mapSnapshot, back, bind_ok, pure_ok, Except.ok.injEq, exists_eq_left']

theorem row_maps (row : Value) (returns : ∀ path, rowPath row = some path → RoundTrips mapper remoteToLocal path) :
    ∃ mapped, mapRow mapper remoteToLocal row = .ok mapped := by
  cases row with
  | object fields =>
      cases held : (fieldOf fields "cwd").bind Value.asStr with
      | none => exact ⟨.object fields, by simp only [mapRow, held]⟩
      | some path =>
          obtain ⟨other, forth, _⟩ := returns path held
          simp only [mapRow, held, forth, bind_ok, pure_ok, Except.ok.injEq, exists_eq_left']
          exact ⟨_, rfl⟩
  | _ => exact ⟨_, rfl⟩

theorem thread_maps (thread : ThreadBundle) (returns : ThreadReturns mapper remoteToLocal thread) :
    ∃ there, mapThreadPaths mapper remoteToLocal thread = .ok there := by
  have source : ∃ sourcePath, mapSourcePath mapper remoteToLocal thread.workspace.sourcePath = .ok sourcePath := by
    cases held : thread.workspace.sourcePath with
    | none => exact ⟨none, rfl⟩
    | some path =>
        obtain ⟨other, forth, _⟩ := returns.workspace path held
        simp only [mapSourcePath, forth, bind_ok, pure_ok, Except.ok.injEq, exists_eq_left']
        exact ⟨_, rfl⟩
  have tables : ∃ tables, mapTables mapper remoteToLocal thread.relatedRecords.tables = .ok tables := by
    cases held : thread.relatedRecords.tables["threads"]? with
    | none => exact ⟨_, by simp only [mapTables, held]; rfl⟩
    | some rows =>
        obtain ⟨mapped, run⟩ := (map_each_iff (mapRow mapper remoteToLocal) rows).mpr fun row member =>
          row_maps mapper remoteToLocal row (returns.rows rows held row member).2
        simp only [mapTables, held, run, bind_ok, pure_ok, Except.ok.injEq, exists_eq_left']
        exact ⟨_, rfl⟩
  obtain ⟨sourcePath, source⟩ := source
  obtain ⟨tables, mapped⟩ := tables
  simp only [mapThreadPaths, source, mapped, bind_ok, pure_ok, Except.ok.injEq, exists_eq_left']
  exact ⟨_, rfl⟩

theorem snapshot_maps (snapshot : LocalSnapshot) (returns : ∀ thread ∈ snapshot.threads, ThreadReturns mapper remoteToLocal thread) :
    ∃ there, mapSnapshot mapper remoteToLocal snapshot = .ok there := by
  obtain ⟨threads, run⟩ := (map_each_iff (mapThreadPaths mapper remoteToLocal) snapshot.threads).mpr fun thread member =>
    thread_maps mapper remoteToLocal thread (returns thread member)
  simp only [mapSnapshot, run, bind_ok, pure_ok, Except.ok.injEq, exists_eq_left']
  exact ⟨_, rfl⟩

theorem filter_insert (keep : String × Value → Bool) (key : String) (dropped : ∀ value, keep (key, value) = false) (value : Value)
    (fields : Fields) : (Rollout.insertField key value fields).filter keep = fields.filter keep := by
  induction fields with
  | nil => rw [Rollout.insertField, List.filter_cons_of_neg (by simp [dropped])]
  | cons field rest ih =>
      obtain ⟨name, old⟩ := field
      unfold Rollout.insertField
      by_cases before : key < name
      · rw [if_pos before, List.filter_cons_of_neg (by simp [dropped])]
      · by_cases same : key = name
        · subst same
          rw [if_neg before, if_pos rfl, List.filter_cons_of_neg (by simp [dropped]), List.filter_cons_of_neg (by simp [dropped])]
        · rw [if_neg before, if_neg same, List.filter_cons, List.filter_cons, ih]

theorem map_each_kept {α β : Type} (step : α → Except String α) (view : α → β)
    (kept : ∀ item other, step item = .ok other → view other = view item) (items there : List α)
    (maps : items.mapM step = .ok there) :
    there.map view = items.map view := by
  induction items generalizing there with
  | nil =>
      cases maps
      rfl
  | cons item rest ih =>
      simp only [List.mapM_cons, bind_ok, pure_ok] at maps
      obtain ⟨other, one, others, many, rfl⟩ := maps
      rw [List.map_cons, List.map_cons, ih others many, kept item other one]

-- The semantic view has no workspace path in it.
theorem row_view_kept (table : String) (row mapped : Value) (maps : mapRow mapper remoteToLocal row = .ok mapped) :
    rowView table mapped = rowView table row := by
  rcases map_row_ok mapper remoteToLocal row mapped maps with rfl | ⟨fields, path, other, rfl, _, _, rfl⟩
  · rfl
  · simp only [rowView, removeField, List.filter_filter]
    rw [filter_insert _ "cwd" (fun value => by simp)]

theorem thread_view_kept (thread there : ThreadBundle) (maps : mapThreadPaths mapper remoteToLocal thread = .ok there) :
    remoteThreadView there = remoteThreadView thread := by
  simp only [mapThreadPaths, bind_ok, pure_ok] at maps
  obtain ⟨sourcePath, _, tables, mapped, rfl⟩ := maps
  have views : (tables.map fun table rows => rows.map (rowView table)) =
      thread.relatedRecords.tables.map fun table rows => rows.map (rowView table) := by
    cases held : thread.relatedRecords.tables["threads"]? with
    | none =>
        simp only [mapTables, held] at mapped
        rw [Except.ok.inj mapped]
    | some rows =>
        simp only [mapTables, held, bind_ok, pure_ok] at mapped
        obtain ⟨others, run, rfl⟩ := mapped
        have kept := map_each_kept (mapRow mapper remoteToLocal) (rowView "threads")
          (row_view_kept mapper remoteToLocal "threads") rows others run
        refine Std.ExtTreeMap.ext_getElem? fun table => ?_
        rw [Std.ExtTreeMap.getElem?_map, Std.ExtTreeMap.getElem?_map, Keyed.lookup_insert]
        by_cases threads : table = "threads"
        · subst threads
          rw [if_pos rfl, held, Option.map_some, Option.map_some, kept]
        · rw [if_neg threads]
  simp only [remoteThreadView, views]

theorem hashes_kept (lib : Primitives) (snapshot there : LocalSnapshot)
    (maps : mapSnapshot mapper remoteToLocal snapshot = .ok there) :
    there.threads.map (semanticThreadHash lib) = snapshot.threads.map (semanticThreadHash lib) := by
  simp only [mapSnapshot, bind_ok, pure_ok] at maps
  obtain ⟨threads, run, rfl⟩ := maps
  refine map_each_kept (mapThreadPaths mapper remoteToLocal) (semanticThreadHash lib) (fun thread other one => ?_) _ threads run
  rw [semanticThreadHash, thread_view_kept mapper remoteToLocal thread other one]
  rfl

-- Forth and back, in either direction. A path comes back as its mapping spells it unless
-- a longer prefix of the other side takes what it was mapped to.
theorem mapper_round_trip (lib : Primitives) (raw : List (String × String)) (accepted : WorkspacePathMapper.new raw = .ok mapper)
    (settled : ∀ mapping ∈ mapper.mappings, SettledMapping mapping) :
    (∀ path mapped : List Char, Clean path → mapper.mapPath path remoteToLocal = .ok (some mapped) →
      ∃ mapping, Chosen mapper.mappings (slashes path) remoteToLocal mapping ∧
        mapped = mapping.target remoteToLocal ++ (slashes path).drop (mapping.source remoteToLocal).length ∧
        normalizePathForMatch (respelled mapping remoteToLocal path) = normalizePathForMatch path ∧
        (Returns mapper.mappings remoteToLocal mapping mapped →
          mapper.mapPath mapped (!remoteToLocal) = .ok (some (respelled mapping remoteToLocal path))) ∧
        (mapper.mapPath mapped (!remoteToLocal) = .ok (some path) ↔
          path = respelled mapping remoteToLocal path ∧ Returns mapper.mappings remoteToLocal mapping mapped)) ∧
    (∀ snapshot : LocalSnapshot, (∀ thread ∈ snapshot.threads, ThreadReturns mapper remoteToLocal thread) →
      ∃ there, mapSnapshot mapper remoteToLocal snapshot = .ok there ∧ mapSnapshot mapper (!remoteToLocal) there = .ok snapshot) ∧
    ∀ snapshot there : LocalSnapshot, mapSnapshot mapper remoteToLocal snapshot = .ok there →
      there.threads.map (semanticThreadHash lib) = snapshot.threads.map (semanticThreadHash lib) := by
  have distinct := new_distinct raw mapper accepted
  refine ⟨fun path mapped clean maps => ?_, fun snapshot returns => ?_, hashes_kept mapper remoteToLocal lib⟩
  · obtain ⟨mapping, chosen, rfl⟩ := maps_chosen mapper settled remoteToLocal path clean mapped maps
    exact ⟨mapping, chosen, rfl, respelled_same mapper settled remoteToLocal path clean mapping chosen,
      back_same mapper settled distinct remoteToLocal path clean mapping chosen,
      back_iff mapper settled distinct remoteToLocal path clean mapping chosen⟩
  · obtain ⟨there, maps⟩ := snapshot_maps mapper remoteToLocal snapshot returns
    exact ⟨there, maps, snapshot_back mapper remoteToLocal snapshot there returns maps⟩

-- Any prefix that is not a verbatim path is settled.
theorem settled_plain (text : List Char) (named : text ≠ []) (opened : ¬ ['/'] <:+ text) (slashed : '\\' ∉ text)
    (plain : ¬ ['/', '/', '?'] <+: text) : SettledPath text := by
  refine ⟨named, opened, slashed, fun rest kept below => ?_⟩
  have same : slashes (text ++ rest) = text ++ rest := slashes_plain _ (by rw [List.mem_append, not_or]; exact ⟨slashed, kept⟩)
  unfold normalizePathSyntax
  dsimp only
  rw [same, if_neg]
  intro verbatim
  have start : ['/', '/', '?', '/'] <+: text ++ rest := List.isPrefixOf_iff_prefix.mp verbatim
  cases text with
  | nil => exact named rfl
  | cons first others =>
      rw [List.cons_append, List.cons_prefix_cons] at start
      obtain ⟨rfl, start⟩ := start
      cases others with
      | nil => exact opened (List.suffix_refl _)
      | cons second others =>
          rw [List.cons_append, List.cons_prefix_cons] at start
          obtain ⟨rfl, start⟩ := start
          cases others with
          | nil => exact opened (List.suffix_append ['/'] ['/'])
          | cons third others =>
              rw [List.cons_append, List.cons_prefix_cons] at start
              obtain ⟨rfl, _⟩ := start
              exact plain ⟨others, rfl⟩

namespace MapperSample

def drives : WorkspacePathMapper := ⟨[⟨"D:/projects".toList, "F:/workspace".toList⟩]⟩

def nested : WorkspacePathMapper := ⟨[⟨"/a".toList, "/x/b".toList⟩, ⟨"/c".toList, "/x".toList⟩]⟩

def verbatim : WorkspacePathMapper := ⟨[⟨"//?/UNC/?/C:/x".toList, "/y".toList⟩]⟩

def demoRow : Value := .object [("cwd", .string "D:/projects/demo"), ("id", .string "demo")]

def demoThread : ThreadBundle :=
  { schemaVersion := 1, threadId := "demo", title := "Demo", archived := false, createdAtMs := none,
    updatedAtMs := none, modelProvider := none
    workspace := ⟨none, some "D:/projects/demo"⟩, rollout := ⟨"", 0, "", none, none, none⟩
    relatedRecords := ⟨none, (∅ : Std.ExtTreeMap String (List Value)).insert "threads" [demoRow]⟩, attachments := [] }

def demoSnapshot : LocalSnapshot :=
  { schemaVersion := 3, snapshotId := "one", createdAt := "2026-01-01T00:00:00Z", threads := [demoThread], warningCount := 0 }

theorem demo_returns : RoundTrips drives true "D:/projects/demo" := ⟨"F:/workspace/demo", by decide +kernel, by decide +kernel⟩

theorem demo_thread_returns : ThreadReturns drives true demoThread := by
  refine ⟨fun path same => Option.some.inj same ▸ demo_returns, fun rows held row member => ?_⟩
  have own : demoThread.relatedRecords.tables["threads"]? = some [demoRow] := (Keyed.lookup_insert _ _ _ _).trans (if_pos rfl)
  rw [own] at held
  cases held
  rw [List.mem_singleton.mp member]
  refine ⟨⟨⟨trivial, trivial, trivial⟩, by decide +kernel⟩, fun path same => ?_⟩
  cases same
  exact demo_returns

theorem drives_settled : ∀ mapping ∈ drives.mappings, SettledMapping mapping := by
  intro mapping member
  rw [List.mem_singleton.mp member]
  constructor
  · exact settled_plain _ (by decide +kernel) (by decide +kernel) (by decide +kernel) (by decide +kernel)
  · exact settled_plain _ (by decide +kernel) (by decide +kernel) (by decide +kernel) (by decide +kernel)

theorem mapper_round_trip_drives :
    (∃ mapping, Chosen drives.mappings (slashes "D:/projects/demo".toList) true mapping ∧
      Returns drives.mappings true mapping "F:/workspace/demo".toList ∧
      "D:/projects/demo".toList = respelled mapping true "D:/projects/demo".toList) ∧
    ∃ there, materializeSnapshot drives demoSnapshot = .ok there ∧ canonicalizeSnapshot drives there = .ok demoSnapshot ∧
      there.threads.map (semanticThreadHash sampleLib) = demoSnapshot.threads.map (semanticThreadHash sampleLib) := by
  have accepted : WorkspacePathMapper.new [("D:\\projects", "F:\\workspace")] = .ok drives := by decide +kernel
  obtain ⟨paths, snapshots, hashes⟩ := mapper_round_trip drives true sampleLib _ accepted drives_settled
  have clean : Clean "D:/projects/demo".toList := ⟨by decide +kernel, by decide +kernel⟩
  have maps : drives.mapPath "D:/projects/demo".toList true = .ok (some "F:/workspace/demo".toList) := by decide +kernel
  have back : drives.mapPath "F:/workspace/demo".toList false = .ok (some "D:/projects/demo".toList) := by decide +kernel
  obtain ⟨mapping, chosen, _, _, _, backs⟩ := paths _ _ clean maps
  obtain ⟨there, forth, home⟩ := snapshots demoSnapshot (List.forall_mem_singleton.mpr demo_thread_returns)
  exact ⟨⟨mapping, chosen, (backs.mp back).2, (backs.mp back).1⟩, there, forth, home, hashes demoSnapshot there forth⟩

-- The spelling of a prefix is the mapping's, a longer prefix takes a mapped path, and a
-- verbatim prefix inside a verbatim prefix is cut at the wrong place.
theorem round_trips_lost :
    (WorkspacePathMapper.new [("D:\\projects", "F:\\workspace")] = .ok drives ∧
      mapText drives true "d:/projects/demo" = .ok (some "F:/workspace/demo") ∧
      mapText drives false "F:/workspace/demo" = .ok (some "D:/projects/demo")) ∧
    (WorkspacePathMapper.new [("/a", "/x/b"), ("/c", "/x")] = .ok nested ∧
      mapText nested true "/c/b/foo" = .ok (some "/x/b/foo") ∧ mapText nested false "/x/b/foo" = .ok (some "/a/foo")) ∧
    WorkspacePathMapper.new [("\\\\?\\UNC\\?\\UNC\\?\\C:\\x", "/y")] = .ok verbatim ∧
      mapText verbatim true "C:/x/abcdef" = .ok (some "/y/def") ∧
      mapText verbatim false "/y/def" = .ok (some "//?/UNC/?/C:/x/def") := by
  decide +kernel

end MapperSample

end SessionSync.Workspace
