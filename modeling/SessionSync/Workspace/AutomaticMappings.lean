import SessionSync.Workspace.PullPlan
import SessionSync.Workspace.StablePaths

set_option autoImplicit false

namespace SessionSync.Workspace

open SessionSync.Core Checked Config

section Mapper

-- What one mapping makes of a remote path.
def located (path : List Char) (mapping : WorkspacePathMapping) : Except String (Option (List Char)) :=
  replacePrefix path mapping.remotePrefix mapping.localPrefix

theorem candidates_found (path : List Char) (mappings : List WorkspacePathMapping) (found : List Candidate)
    (ran : candidates path true mappings = .ok found) :
    (∀ mapping ∈ mappings, ∃ result, located path mapping = .ok result) ∧
      (found ≠ [] ↔ ∃ mapping ∈ mappings, ∃ text, located path mapping = .ok (some text)) := by
  induction mappings generalizing found with
  | nil =>
      cases ran
      simp
  | cons mapping rest ih =>
      simp only [candidates, bind_ok, pure_ok] at ran
      obtain ⟨mapped, here, others, later, rfl⟩ := ran
      obtain ⟨reads, some_⟩ := ih others later
      have here : located path mapping = .ok mapped := here
      refine ⟨List.forall_mem_cons.mpr ⟨⟨mapped, here⟩, reads⟩, ?_⟩
      rw [List.exists_mem_cons_iff, ← some_, here]
      cases mapped <;> simp

theorem candidates_run (path : List Char) (mappings : List WorkspacePathMapping)
    (reads : ∀ mapping ∈ mappings, ∃ result, located path mapping = .ok result) :
    ∃ found, candidates path true mappings = .ok found := by
  induction mappings with
  | nil => exact ⟨[], rfl⟩
  | cons mapping rest ih =>
      obtain ⟨⟨mapped, here⟩, later⟩ := List.forall_mem_cons.mp reads
      obtain ⟨others, rest_⟩ := ih later
      have here : replacePrefix path (mapping.source true) (mapping.target true) = .ok mapped := here
      rw [candidates, here, rest_]
      exact ⟨_, rfl⟩

theorem fold_found (found : List Candidate) : (found.foldl laterMax none).isSome = true ↔ found ≠ [] := by
  cases found with
  | nil => simp
  | cons first rest =>
      obtain ⟨last, ran, _⟩ := later_max_fold rest first
      rw [List.foldl_cons, laterMax, ran]
      simp

theorem map_text_ok (mapper : WorkspacePathMapper) (path : String) (result : Option String)
    (ran : mapText mapper true path = .ok result) :
    (∀ mapping ∈ mapper.mappings, ∃ result, located path.toList mapping = .ok result) ∧
      (result.isSome = true ↔ ∃ mapping ∈ mapper.mappings, ∃ text, located path.toList mapping = .ok (some text)) := by
  simp only [mapText, WorkspacePathMapper.mapPath, select, bind_ok, pure_ok] at ran
  obtain ⟨_, ⟨_, ⟨found, listed, rfl⟩, rfl⟩, rfl⟩ := ran
  obtain ⟨reads, some_⟩ := candidates_found path.toList mapper.mappings found listed
  refine ⟨reads, ?_⟩
  rw [Option.isSome_map, Option.isSome_map, fold_found, some_]

theorem map_text_run (mapper : WorkspacePathMapper) (path : String)
    (reads : ∀ mapping ∈ mapper.mappings, ∃ result, located path.toList mapping = .ok result) :
    ∃ result, mapText mapper true path = .ok result := by
  obtain ⟨found, listed⟩ := candidates_run path.toList mapper.mappings reads
  simp only [mapText, WorkspacePathMapper.mapPath, select, bind_ok, pure_ok]
  exact ⟨_, _, ⟨_, ⟨found, listed, rfl⟩, rfl⟩, rfl⟩

end Mapper

section NewMapper

theorem reject_ambiguous_iff (prefixes : List (List Char)) :
    rejectAmbiguous prefixes = .ok () ↔ (prefixes.map normalizePathForMatch).Nodup := by
  refine ⟨reject_ambiguous_ok prefixes (), fun distinct => ?_⟩
  induction prefixes with
  | nil => rfl
  | cons left rest ih =>
      obtain ⟨fresh, later⟩ := List.nodup_cons.mp distinct
      have apart : ∀ right ∈ rest, normalizePathForMatch left ≠ normalizePathForMatch right :=
        fun right member same => fresh (List.mem_map.mpr ⟨right, member, same.symm⟩)
      rw [rejectAmbiguous, ensured _ _ _ apart]
      exact ih later

-- The mapping that a rule is read as.
def readRule (pair : String × String) : WorkspacePathMapping := ((newMapping pair).toOption).getD ⟨[], []⟩

theorem read_rules (pairs : List (String × String)) (mappings : List WorkspacePathMapping)
    (ran : pairs.mapM newMapping = .ok mappings) :
    (∀ pair ∈ pairs, newMapping pair = .ok (readRule pair)) ∧ mappings = pairs.map readRule := by
  have each : ∀ pair mapping, newMapping pair = .ok mapping → readRule pair = mapping := by
    intro pair mapping one
    rw [readRule, one]
    rfl
  have image := map_each_image newMapping readRule id pairs mappings (fun pair _ mapping one => (each pair mapping one).symm) ran
  rw [List.map_id] at image
  refine ⟨fun pair member => ?_, image⟩
  obtain ⟨mapping, one⟩ := (map_each_iff newMapping pairs).mp ⟨mappings, ran⟩ pair member
  rw [one, each pair mapping one]

def Distinct (mappings : List WorkspacePathMapping) : Prop :=
  ((mappings.map WorkspacePathMapping.remotePrefix).map normalizePathForMatch).Nodup ∧
    ((mappings.map WorkspacePathMapping.localPrefix).map normalizePathForMatch).Nodup

theorem new_iff (pairs : List (String × String)) (mapper : WorkspacePathMapper) : WorkspacePathMapper.new pairs = .ok mapper ↔
    (∀ pair ∈ pairs, newMapping pair = .ok (readRule pair)) ∧ mapper.mappings = pairs.map readRule ∧ Distinct mapper.mappings := by
  simp only [WorkspacePathMapper.new, bind_ok, pure_ok]
  constructor
  · intro made
    obtain ⟨mappings, each, _, remotes, _, locals, rfl⟩ := made
    obtain ⟨reads, same⟩ := read_rules pairs mappings each
    exact ⟨reads, same, reject_ambiguous_ok _ _ remotes, reject_ambiguous_ok _ _ locals⟩
  · intro made
    obtain ⟨reads, same, remotes, locals⟩ := made
    refine ⟨mapper.mappings, ?_, (), (reject_ambiguous_iff _).mpr remotes, (), (reject_ambiguous_iff _).mpr locals, rfl⟩
    rw [same]
    exact map_each_fixed newMapping readRule pairs reads

-- The checks that a change makes are those of the mapper.
theorem check_mapper_new (pairs : List (String × String)) (checked : checkMapper pairs = .ok ()) :
    ∃ mapper, WorkspacePathMapper.new pairs = .ok mapper := by
  simp only [checkMapper, bind_ok] at checked
  obtain ⟨normal, each, _, remotes, locals⟩ := checked
  have one : ∀ pair result, (do
      let remote ← normalizePrefix pair.1.toList
      let local_ ← normalizePrefix pair.2.toList
      return (remote, local_) : Except String (List Char × List Char)) = .ok result → newMapping pair = .ok ⟨result.1, result.2⟩ := by
    intro pair result ran
    simp only [bind_ok, pure_ok] at ran
    obtain ⟨remote, first, local_, second, rfl⟩ := ran
    rw [newMapping, first, second]
    rfl
  have images := map_each_image _ readRule (fun result : List Char × List Char => ⟨result.1, result.2⟩) pairs normal
    (fun pair _ result ran => by rw [readRule, one pair result ran]; rfl) each
  have reads : ∀ pair ∈ pairs, newMapping pair = .ok (readRule pair) := by
    intro pair member
    obtain ⟨result, ran⟩ := (map_each_iff _ pairs).mp ⟨normal, each⟩ pair member
    rw [readRule, one pair result ran]
    rfl
  refine ⟨⟨pairs.map readRule⟩, (new_iff pairs _).mpr ⟨reads, rfl, ?_⟩⟩
  rw [Distinct, ← images, List.map_map (f := fun result : List Char × List Char => (⟨result.1, result.2⟩ : WorkspacePathMapping)),
    List.map_map (f := fun result : List Char × List Char => (⟨result.1, result.2⟩ : WorkspacePathMapping))]
  exact ⟨reject_ambiguous_ok _ _ remotes, reject_ambiguous_ok _ _ locals⟩

-- The order in which rules are listed does not matter.
theorem new_perm (pairs others : List (String × String)) (moved : pairs.Perm others) (mapper : WorkspacePathMapper)
    (made : WorkspacePathMapper.new pairs = .ok mapper) :
    ∃ other, WorkspacePathMapper.new others = .ok other ∧ ∀ mapping, mapping ∈ other.mappings ↔ mapping ∈ mapper.mappings := by
  obtain ⟨reads, same, remotes, locals⟩ := (new_iff pairs mapper).mp made
  rw [same] at remotes locals
  have listed := moved.map readRule
  refine ⟨⟨others.map readRule⟩, (new_iff others _).mpr ⟨fun pair member => reads pair (moved.mem_iff.mpr member), rfl,
    ((listed.map _).map _).nodup_iff.mp remotes, ((listed.map _).map _).nodup_iff.mp locals⟩, fun mapping => ?_⟩
  rw [same]
  exact listed.symm.mem_iff

end NewMapper

end SessionSync.Workspace
