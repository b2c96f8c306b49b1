import SessionSync.Workspace.PathMapper

set_option autoImplicit false

namespace SessionSync.Workspace

open SessionSync.Core Checked Config

section Case

theorem lower_cases (c : Char) : c.toLower = c ∨ (65 ≤ c.toNat ∧ c.toNat ≤ 90 ∧ c.toLower.toNat = c.toNat + 32) := by
  unfold Char.toLower
  split
  · rename_i upper
    obtain ⟨low, high⟩ := upper
    rw [ge_iff_le, UInt32.le_iff_toNat_le] at low
    rw [UInt32.le_iff_toNat_le] at high
    refine .inr ⟨low, high, ?_⟩
    have bound : c.val.toNat ≤ 90 := high
    change (c.val + _).toNat = c.val.toNat + 32
    rw [UInt32.toNat_add]
    exact Nat.mod_eq_of_lt (by change c.val.toNat + 32 < 4294967296; omega)
  · exact .inl rfl

theorem lower_eq_iff (c d : Char) (before : d.toNat < 65) : c.toLower = d ↔ c = d := by
  rcases lower_cases c with same | ⟨low, high, moved⟩
  · rw [same]
  · constructor
    · intro equal
      rw [equal] at moved
      omega
    · rintro rfl
      omega

theorem lower_ascii (c : Char) : c.toLower.toNat < 0x80 ↔ c.toNat < 0x80 := by
  rcases lower_cases c with same | ⟨low, high, moved⟩
  · rw [same]
  · omega

theorem lower_size (c : Char) : c.toLower.utf8Size = c.utf8Size := by
  have one : ∀ d : Char, d.toNat < 0x80 → d.utf8Size = 1 := by
    intro d small
    rw [Char.utf8Size_eq_one_iff, UInt32.le_iff_toNat_le]
    exact Nat.le_of_lt_succ small
  rcases lower_cases c with same | ⟨low, high, moved⟩
  · rw [same]
  · rw [one c (by omega), one c.toLower (by omega)]

theorem has_drive_lower (path : List Char) : hasDrive (path.map Char.toLower) = hasDrive path := by
  cases path with
  | nil => rfl
  | cons first rest =>
      cases rest with
      | nil => rfl
      | cons second rest =>
          simp only [List.map_cons, hasDrive, lower_ascii, lower_eq_iff second ':' (by decide)]

theorem looks_like_lower (path : List Char) : looksLikeWindowsPath (path.map Char.toLower) = looksLikeWindowsPath path := by
  have slashes : "//".toList.isPrefixOf (path.map Char.toLower) = "//".toList.isPrefixOf path := by
    have slash : ∀ c : Char, ('/' == c.toLower) = ('/' == c) := by
      intro c
      rw [Bool.eq_iff_iff, beq_iff_eq, beq_iff_eq, eq_comm, lower_eq_iff c '/' (by decide), eq_comm]
    rw [show "//".toList = ['/', '/'] from rfl]
    cases path with
    | nil => rfl
    | cons first rest =>
        cases rest with
        | nil => simp [List.isPrefixOf]
        | cons second rest => simp only [List.map_cons, List.isPrefixOf, slash]
  rw [looksLikeWindowsPath, slashes, has_drive_lower, looksLikeWindowsPath]

-- A path is folded character by character, in one of two ways.
theorem fold_case_map (path : List Char) :
    foldCase path = path.map (if looksLikeWindowsPath path then Char.toLower else id) := by
  unfold foldCase
  split
  · rfl
  · exact (List.map_id path).symm

theorem fold_looks_like (path : List Char) : looksLikeWindowsPath (foldCase path) = looksLikeWindowsPath path := by
  unfold foldCase
  split
  · exact looks_like_lower path
  · rfl

theorem fold_length (path : List Char) : (foldCase path).length = path.length := by
  rw [fold_case_map, List.length_map]

theorem fold_size (windows : Bool) (path : List Char) :
    byteLength (path.map (if windows then Char.toLower else id)) = byteLength path := by
  cases windows with
  | false => simp [byteLength]
  | true => simp [byteLength, Function.comp_def, lower_size]

theorem fold_slash (windows : Bool) (c : Char) : (if windows then Char.toLower else id) c = '/' ↔ c = '/' := by
  cases windows with
  | false => exact Iff.rfl
  | true => exact lower_eq_iff c '/' (by decide)

end Case

-- What may follow a prefix that covers a path.
def Below (rest : List Char) : Prop := rest = [] ∨ ∃ more, rest = '/' :: more

-- The text of a prefix: it names a directory, and reading it or a path below it once
-- more changes nothing.
structure SettledPath (text : List Char) : Prop where
  named : text ≠ []
  opened : ¬ ['/'] <:+ text
  slashed : '\\' ∉ text
  reread : ∀ rest, '\\' ∉ rest → Below rest → normalizePathSyntax (text ++ rest) = text ++ rest

-- A path in the form that the mapper reads it in.
structure Normal (path : List Char) : Prop where
  opened : ¬ ['/'] <:+ path
  slashed : '\\' ∉ path
  reread : normalizePathSyntax path = path

theorem settled_normal (text : List Char) (settled : SettledPath text) : Normal text := by
  have reread := settled.reread [] List.not_mem_nil (.inl rfl)
  rw [List.append_nil] at reread
  exact ⟨settled.opened, settled.slashed, reread⟩

theorem trim_end (trims : Char → Bool) (path : List Char) (last : ∀ front c, path = front ++ [c] → trims c = false) :
    (path.reverse.dropWhile trims).reverse = path := by
  rcases List.eq_nil_or_concat' path with rfl | ⟨front, c, rfl⟩
  · rfl
  · have kept : ¬ trims c = true := by simp [last front c rfl]
    rw [List.reverse_append, List.reverse_singleton, List.singleton_append, List.dropWhile_cons_of_neg kept, List.reverse_cons,
      List.reverse_reverse]

theorem trim_opened (path : List Char) (opened : ¬ ['/'] <:+ path) : trimSlashes path = path := by
  refine trim_end _ path fun front c whole => ?_
  rw [decide_eq_false_iff_not]
  rintro rfl
  exact opened ⟨front, whole.symm⟩

theorem drop_while_congr (one other : Char → Bool) (text : List Char) (same : ∀ c ∈ text, one c = other c) :
    text.dropWhile one = text.dropWhile other := by
  induction text with
  | nil => rfl
  | cons c rest ih =>
      have later := List.forall_mem_cons.mp same
      rw [List.dropWhile_cons, List.dropWhile_cons, later.1, ih later.2]

theorem match_normal (path : List Char) (normal : Normal path) : normalizePathForMatch path = foldCase path := by
  rw [normalizePathForMatch, normal.reread, trim_opened path normal.opened]

theorem looks_like_below (text rest : List Char) (named : text ≠ []) (opened : ¬ ['/'] <:+ text) (below : Below rest) :
    looksLikeWindowsPath (text ++ rest) = looksLikeWindowsPath text := by
  rcases below with rfl | ⟨more, rfl⟩
  · rw [List.append_nil]
  · cases text with
    | nil => exact absurd rfl named
    | cons first others =>
        cases others with
        | nil =>
            have other : first ≠ '/' := by
              rintro rfl
              exact opened (List.suffix_refl _)
            have apart : '/' ≠ first := fun same => other same.symm
            simp [looksLikeWindowsPath, hasDrive, List.isPrefixOf, apart]
        | cons second others => simp [looksLikeWindowsPath, hasDrive, List.isPrefixOf]

theorem covers_below (text rest : List Char) (settled : SettledPath text) (below : Below rest) :
    Covers (foldCase text) (foldCase (text ++ rest)) := by
  rw [fold_case_map (text ++ rest), looks_like_below text rest settled.named settled.opened below, List.map_append,
    ← fold_case_map text]
  rcases below with rfl | ⟨more, rfl⟩
  · exact .inl (List.append_nil _)
  · refine .inr ⟨more.map (if looksLikeWindowsPath text then Char.toLower else id), ?_⟩
    rw [List.map_cons, (fold_slash _ '/').mpr rfl, List.append_assoc, List.singleton_append]

-- A covered path splits where the prefix ends.
theorem covers_split (text path : List Char) (covers : Covers (foldCase text) (foldCase path)) :
    Below (path.drop text.length) ∧ (foldCase path).take text.length = foldCase text ∧
      byteLength (path.take text.length) = byteLength text := by
  have taken : (foldCase path).take text.length = foldCase text := by
    rcases covers with same | ⟨more, whole⟩
    · rw [same, List.take_of_length_le (fold_length text).le]
    · rw [← whole, List.append_assoc, ← fold_length text, List.take_left]
  refine ⟨?_, taken, ?_⟩
  · rcases covers with same | ⟨more, whole⟩
    · left
      have length := congrArg List.length same
      rw [fold_length, fold_length] at length
      rw [List.drop_eq_nil_iff, length]
    · right
      have dropped := congrArg (List.drop text.length) whole
      rw [List.append_assoc, ← fold_length text, List.drop_left, fold_length, fold_case_map path, ← List.map_drop,
        List.singleton_append] at dropped
      obtain ⟨c, rest, rest_, slash, _⟩ := List.map_eq_cons_iff.mp dropped.symm
      exact ⟨rest, by rw [rest_, (fold_slash _ c).mp slash]⟩
  · have sizes := congrArg byteLength taken
    rw [fold_case_map path, ← List.map_take, fold_size, fold_case_map text, fold_size] at sizes
    exact sizes

theorem covers_length (text path : List Char) (covers : Covers (foldCase text) (foldCase path)) : text.length ≤ path.length := by
  have length := congrArg List.length (covers_split text path covers).2.1
  rw [List.length_take, fold_length, fold_length] at length
  omega

theorem slice_from (front rest : List Char) : sliceFrom (front ++ rest) (byteLength front) = .ok rest := by
  induction front with
  | nil =>
      cases rest <;> rfl
  | cons c front ih =>
      have positive := c.utf8Size_pos
      have size : byteLength (c :: front) = (byteLength front + c.utf8Size - 1) + 1 := by
        simp only [byteLength, List.map_cons, List.sum_cons]
        omega
      rw [size, List.cons_append, sliceFrom, if_pos (by omega)]
      rw [show byteLength front + c.utf8Size - 1 + 1 - c.utf8Size = byteLength front by omega]
      exact ih

-- The target with what followed the prefix.
def graft (target rest : List Char) : List Char :=
  if rest.dropWhile (fun c => c = '/') = [] then target else target ++ '/' :: rest.dropWhile fun c => c = '/'

theorem graft_below (target rest : List Char) (clean : rest = [] ∨ ∃ c more, rest = '/' :: c :: more ∧ c ≠ '/') :
    graft target rest = target ++ rest := by
  unfold graft
  rcases clean with rfl | ⟨c, more, rfl, other⟩
  · exact (List.append_nil _).symm
  · have dropped : ('/' :: c :: more).dropWhile (fun c => decide (c = '/')) = c :: more := by
      rw [List.dropWhile_cons_of_pos (by decide), List.dropWhile_cons_of_neg (by simpa using other)]
    rw [dropped, if_neg (List.cons_ne_nil _ _)]

theorem replace_prefix (path source target read : List Char) (normalized : normalizePathSyntax path = read) (normal : Normal read)
    (sourceSettled : SettledPath source) (targetSettled : SettledPath target) :
    replacePrefix path source target =
      if Covers (foldCase source) (foldCase read) then .ok (some (graft target (read.drop source.length))) else .ok none := by
  have sourceNormal := settled_normal source sourceSettled
  rw [replacePrefix, normalized, sourceNormal.reread, match_normal source sourceNormal, match_normal read normal]
  by_cases covers : Covers (foldCase source) (foldCase read)
  · obtain ⟨_, _, size⟩ := covers_split source read covers
    have whole : byteLength source ≤ byteLength read := by
      rw [← size]
      conv_rhs => rw [← List.take_append_drop source.length read]
      simp only [byteLength, List.map_append, List.sum_append]
      omega
    have cut : sliceFrom read (byteLength source) = .ok (read.drop source.length) := by
      have parts := slice_from (read.take source.length) (read.drop source.length)
      rwa [List.take_append_drop, size] at parts
    have slashed : '\\' ∉ read.drop source.length := fun member => normal.slashed (List.mem_of_mem_drop member)
    have separators : ∀ c ∈ read.drop source.length, isSeparator c = decide (c = '/') := by
      intro c member
      have other : c ≠ '\\' := fun same => slashed (same ▸ member)
      simp [isSeparator, other]
    have dropped : (read.drop source.length).dropWhile isSeparator = (read.drop source.length).dropWhile fun c => c = '/' :=
      drop_while_congr _ _ _ separators
    have kept : ((read.drop source.length).dropWhile fun c => c = '/').map (fun c => if isSeparator c then '/' else c) =
        (read.drop source.length).dropWhile fun c => c = '/' := by
      rw [List.map_congr_left (g := id), List.map_id]
      intro c member
      have inside := (List.dropWhile_sublist _).subset member
      have known := separators c inside
      by_cases slash : c = '/'
      · simp [slash, isSeparator]
      · simp [known, slash]
    have trimmed : trimSeparators target = target := by
      refine trim_end _ target fun front c whole => ?_
      have slash : c ≠ '/' := by
        rintro rfl
        exact targetSettled.opened ⟨front, whole.symm⟩
      have backslash : c ≠ '\\' := by
        rintro rfl
        exact targetSettled.slashed (whole ▸ List.mem_append_right front List.mem_cons_self)
      simp [isSeparator, slash, backslash]
    rw [if_pos covers, if_pos covers, Nat.min_eq_left whole, cut]
    simp only [bind, Except.bind, pure, Except.pure, targetSettled.slashed, false_and, if_false, dropped, kept, trimmed]
    rfl
  · rw [if_neg covers, if_neg covers]
    rfl

def SettledMapping (mapping : WorkspacePathMapping) : Prop := SettledPath mapping.remotePrefix ∧ SettledPath mapping.localPrefix

theorem settled_source (mapping : WorkspacePathMapping) (settled : SettledMapping mapping) (remoteToLocal : Bool) :
    SettledPath (mapping.source remoteToLocal) := by
  cases remoteToLocal
  · exact settled.2
  · exact settled.1

theorem settled_target (mapping : WorkspacePathMapping) (settled : SettledMapping mapping) (remoteToLocal : Bool) :
    SettledPath (mapping.target remoteToLocal) := by
  cases remoteToLocal
  · exact settled.1
  · exact settled.2

theorem source_back (mapping : WorkspacePathMapping) (remoteToLocal : Bool) :
    mapping.source (!remoteToLocal) = mapping.target remoteToLocal ∧
      mapping.target (!remoteToLocal) = mapping.source remoteToLocal := by
  cases remoteToLocal <;> exact ⟨rfl, rfl⟩

-- What a mapping makes of a path that has been read.
def reach (read : List Char) (remoteToLocal : Bool) (mapping : WorkspacePathMapping) : Option Candidate :=
  if Covers (foldCase (mapping.source remoteToLocal)) (foldCase read) then
    some ⟨mapping, (mapping.source remoteToLocal).length,
      graft (mapping.target remoteToLocal) (read.drop (mapping.source remoteToLocal).length)⟩
  else none

theorem candidates_ok (path read : List Char) (normalized : normalizePathSyntax path = read) (normal : Normal read)
    (remoteToLocal : Bool) (mappings : List WorkspacePathMapping) (settled : ∀ mapping ∈ mappings, SettledMapping mapping) :
    candidates path remoteToLocal mappings = .ok (mappings.filterMap (reach read remoteToLocal)) := by
  induction mappings with
  | nil => rfl
  | cons mapping rest ih =>
      have each := List.forall_mem_cons.mp settled
      have source := settled_source mapping each.1 remoteToLocal
      have length : (normalizePathForMatch (mapping.source remoteToLocal)).length = (mapping.source remoteToLocal).length := by
        rw [match_normal _ (settled_normal _ source), fold_length]
      rw [candidates, replace_prefix path _ _ read normalized normal source (settled_target mapping each.1 remoteToLocal), ih each.2,
        length, List.filterMap_cons, reach]
      by_cases covers : Covers (foldCase (mapping.source remoteToLocal)) (foldCase read)
      · rw [if_pos covers, if_pos covers]
        rfl
      · rw [if_neg covers, if_neg covers]
        rfl

theorem later_max_fold (found : List Candidate) (best : Candidate) :
    ∃ last, found.foldl laterMax (some best) = some last ∧ last ∈ best :: found ∧ ∀ other ∈ best :: found,
      other.prefixLength ≤ last.prefixLength := by
  induction found generalizing best with
  | nil =>
      refine ⟨best, rfl, List.mem_cons_self, fun other member => ?_⟩
      rw [List.mem_singleton.mp member]
  | cons next rest ih =>
      rw [List.foldl_cons, laterMax]
      by_cases longer : best.prefixLength ≤ next.prefixLength
      · rw [if_pos longer]
        obtain ⟨last, run, member, most⟩ := ih next
        refine ⟨last, run, List.mem_cons_of_mem _ member, List.forall_mem_cons.mpr ⟨?_, most⟩⟩
        exact longer.trans (most next List.mem_cons_self)
      · rw [if_neg longer]
        obtain ⟨last, run, member, most⟩ := ih best
        have each := List.forall_mem_cons.mp most
        refine ⟨last, run, ?_, List.forall_mem_cons.mpr ⟨each.1, List.forall_mem_cons.mpr ⟨by omega, each.2⟩⟩⟩
        rcases List.mem_cons.mp member with rfl | later
        · exact List.mem_cons_self
        · exact List.mem_cons_of_mem _ (List.mem_cons_of_mem _ later)

theorem later_max (found : List Candidate) (best : Candidate) (picked : found.foldl laterMax none = some best) :
    best ∈ found ∧ ∀ other ∈ found, other.prefixLength ≤ best.prefixLength := by
  cases found with
  | nil => cases picked
  | cons first rest =>
      obtain ⟨last, run, member, most⟩ := later_max_fold rest first
      rw [List.foldl_cons, laterMax, run, Option.some.injEq] at picked
      exact picked ▸ ⟨member, most⟩

theorem later_max_some (found : List Candidate) (other : Candidate) (member : other ∈ found) :
    ∃ best, found.foldl laterMax none = some best := by
  cases found with
  | nil => exact absurd member List.not_mem_nil
  | cons first rest =>
      obtain ⟨last, run, _⟩ := later_max_fold rest first
      exact ⟨last, run⟩

-- The mapping that maps a path, and nothing else that could.
structure Chosen (mappings : List WorkspacePathMapping) (read : List Char) (remoteToLocal : Bool) (mapping : WorkspacePathMapping) :
    Prop where
  member : mapping ∈ mappings
  covers : Covers (foldCase (mapping.source remoteToLocal)) (foldCase read)
  longest : ∀ other ∈ mappings, Covers (foldCase (other.source remoteToLocal)) (foldCase read) →
    (other.source remoteToLocal).length ≤ (mapping.source remoteToLocal).length

theorem reach_some (read : List Char) (remoteToLocal : Bool) (mapping : WorkspacePathMapping) (candidate : Candidate)
    (reached : reach read remoteToLocal mapping = some candidate) :
    Covers (foldCase (mapping.source remoteToLocal)) (foldCase read) ∧ candidate = ⟨mapping, (mapping.source remoteToLocal).length,
      graft (mapping.target remoteToLocal) (read.drop (mapping.source remoteToLocal).length)⟩ := by
  unfold reach at reached
  split at reached
  · rename_i covers
    exact ⟨covers, (Option.some.inj reached).symm⟩
  · cases reached

theorem map_path_some (mapper : WorkspacePathMapper) (settled : ∀ mapping ∈ mapper.mappings, SettledMapping mapping)
    (path read : List Char) (normalized : normalizePathSyntax path = read) (normal : Normal read) (remoteToLocal : Bool)
    (mapped : List Char) (maps : mapper.mapPath path remoteToLocal = .ok (some mapped)) :
    ∃ mapping, Chosen mapper.mappings read remoteToLocal mapping ∧
      mapped = graft (mapping.target remoteToLocal) (read.drop (mapping.source remoteToLocal).length) := by
  simp only [WorkspacePathMapper.mapPath, select,
    candidates_ok path read normalized normal remoteToLocal mapper.mappings settled, bind_ok, pure_ok, Except.ok.injEq,
      exists_eq_left'] at maps
  obtain ⟨best, picked, rfl⟩ := Option.map_eq_some_iff.mp maps
  obtain ⟨member, most⟩ := later_max _ best picked
  obtain ⟨mapping, inside, reached⟩ := List.mem_filterMap.mp member
  obtain ⟨covers, rfl⟩ := reach_some read remoteToLocal mapping best reached
  refine ⟨mapping, ⟨inside, covers, fun other known matched => ?_⟩, rfl⟩
  exact most ⟨other, _, _⟩ (List.mem_filterMap.mpr ⟨other, known, if_pos matched⟩)

theorem map_path_chosen (mapper : WorkspacePathMapper) (settled : ∀ mapping ∈ mapper.mappings, SettledMapping mapping)
    (path read : List Char) (normalized : normalizePathSyntax path = read) (normal : Normal read) (remoteToLocal : Bool)
    (mapping : WorkspacePathMapping) (member : mapping ∈ mapper.mappings)
    (covers : Covers (foldCase (mapping.source remoteToLocal)) (foldCase read)) :
    ∃ mapped, mapper.mapPath path remoteToLocal = .ok (some mapped) := by
  obtain ⟨best, picked⟩ := later_max_some (mapper.mappings.filterMap (reach read remoteToLocal)) _
    (List.mem_filterMap.mpr ⟨mapping, member, if_pos covers⟩)
  refine ⟨best.mapped, ?_⟩
  simp only [WorkspacePathMapper.mapPath, select,
    candidates_ok path read normalized normal remoteToLocal mapper.mappings settled, bind_ok, pure_ok, Except.ok.injEq,
      exists_eq_left']
  rw [picked]
  rfl

theorem reject_ambiguous_ok (prefixes : List (List Char)) (value : Unit) (accepted : rejectAmbiguous prefixes = .ok value) :
    (prefixes.map normalizePathForMatch).Nodup := by
  induction prefixes with
  | nil => exact List.nodup_nil
  | cons left rest ih =>
      simp only [rejectAmbiguous, bind_ok, ensure_ok] at accepted
      obtain ⟨_, apart, accepted⟩ := accepted
      rw [List.map_cons, List.nodup_cons]
      refine ⟨fun member => ?_, ih accepted⟩
      obtain ⟨right, inside, same⟩ := List.mem_map.mp member
      exact apart right inside same.symm

theorem new_distinct (raw : List (String × String)) (mapper : WorkspacePathMapper)
    (accepted : WorkspacePathMapper.new raw = .ok mapper) (remoteToLocal : Bool) :
    (mapper.mappings.map fun mapping => normalizePathForMatch (mapping.source remoteToLocal)).Nodup := by
  simp only [WorkspacePathMapper.new, bind_ok, pure_ok] at accepted
  obtain ⟨mappings, _, _, remote, _, local_, rfl⟩ := accepted
  have remotes := reject_ambiguous_ok _ _ remote
  have locals := reject_ambiguous_ok _ _ local_
  rw [List.map_map] at remotes locals
  cases remoteToLocal
  · exact locals
  · exact remotes

-- No two mappings reach equally far into one path.
theorem chosen_unique (mappings : List WorkspacePathMapping) (read : List Char) (remoteToLocal : Bool)
    (settled : ∀ mapping ∈ mappings, SettledMapping mapping)
    (distinct : (mappings.map fun mapping => normalizePathForMatch (mapping.source remoteToLocal)).Nodup)
    (one other : WorkspacePathMapping) (first : Chosen mappings read remoteToLocal one)
    (second : Chosen mappings read remoteToLocal other) :
    one = other := by
  have length := Nat.le_antisymm (second.longest one first.member first.covers) (first.longest other second.member second.covers)
  have left := (covers_split _ read first.covers).2.1
  have right := (covers_split _ read second.covers).2.1
  have oneSettled := settled_source one (settled one first.member) remoteToLocal
  have otherSettled := settled_source other (settled other second.member) remoteToLocal
  refine List.inj_on_of_nodup_map distinct first.member second.member ?_
  rw [match_normal _ (settled_normal _ oneSettled), match_normal _ (settled_normal _ otherSettled), ← left, ← right, length]

-- A path without trailing or repeated separators, of either kind.
structure Clean (path : List Char) : Prop where
  opened : ¬ ['/'] <:+ slashes path
  single : ¬ ['/', '/'] <:+: slashes path

theorem slashes_slashed (path : List Char) : '\\' ∉ slashes path := by
  intro member
  obtain ⟨c, _, same⟩ := List.mem_map.mp member
  by_cases backslash : c = '\\'
  · simp [backslash] at same
  · rw [if_neg backslash] at same
    exact backslash same

theorem slashes_plain (path : List Char) (slashed : '\\' ∉ path) : slashes path = path := by
  unfold slashes
  rw [List.map_congr_left (g := id), List.map_id]
  intro c member
  have other : c ≠ '\\' := by
    rintro rfl
    exact slashed member
  exact if_neg other

theorem clean_reads (path : List Char) (clean : Clean path) : normalizePathSyntax path = slashes path := by
  unfold normalizePathSyntax
  dsimp only
  rw [if_neg]
  intro verbatim
  obtain ⟨more, whole⟩ := List.isPrefixOf_iff_prefix.mp verbatim
  exact clean.single ⟨[], '?' :: '/' :: more, whole⟩

theorem clean_normal (path : List Char) (clean : Clean path) : Normal (slashes path) := by
  have plain := slashes_plain (slashes path) (slashes_slashed path)
  refine ⟨clean.opened, slashes_slashed path, ?_⟩
  have again := clean_reads (slashes path) ⟨by rw [plain]; exact clean.opened, by rw [plain]; exact clean.single⟩
  rw [again, plain]

-- What is left of a clean path below a prefix is joined as it is.
theorem clean_rest (read : List Char) (opened : ¬ ['/'] <:+ read) (single : ¬ ['/', '/'] <:+: read) (rest : List Char)
    (suffix : rest <:+ read) (below : Below rest) : rest = [] ∨ ∃ c more, rest = '/' :: c :: more ∧ c ≠ '/' := by
  rcases below with rfl | ⟨more, rfl⟩
  · exact .inl rfl
  · right
    cases more with
    | nil => exact absurd suffix opened
    | cons c more =>
        refine ⟨c, more, rfl, ?_⟩
        rintro rfl
        obtain ⟨front, whole⟩ := suffix
        exact single ⟨front, more, by rw [← whole, List.append_assoc]; rfl⟩

-- The path as the mapping that was chosen for it spells it.
def respelled (mapping : WorkspacePathMapping) (remoteToLocal : Bool) (path : List Char) : List Char :=
  mapping.source remoteToLocal ++ (slashes path).drop (mapping.source remoteToLocal).length

-- No longer prefix of the other side takes the mapped path.
def Returns (mappings : List WorkspacePathMapping) (remoteToLocal : Bool) (mapping : WorkspacePathMapping)
    (mapped : List Char) : Prop :=
  ∀ other ∈ mappings, Covers (foldCase (other.target remoteToLocal)) (foldCase mapped) →
    (other.target remoteToLocal).length ≤ (mapping.target remoteToLocal).length

section RoundTrip

variable (mapper : WorkspacePathMapper) (settled : ∀ mapping ∈ mapper.mappings, SettledMapping mapping)
  (distinct : ∀ remoteToLocal, (mapper.mappings.map fun mapping => normalizePathForMatch (mapping.source remoteToLocal)).Nodup)
  (remoteToLocal : Bool) (path : List Char) (clean : Clean path)

include clean in
theorem chosen_rest (mapping : WorkspacePathMapping) (chosen : Chosen mapper.mappings (slashes path) remoteToLocal mapping) :
    Below ((slashes path).drop (mapping.source remoteToLocal).length) ∧
      ∀ target, graft target ((slashes path).drop (mapping.source remoteToLocal).length) =
        target ++ (slashes path).drop (mapping.source remoteToLocal).length := by
  have below := (covers_split _ _ chosen.covers).1
  exact ⟨below, fun target => graft_below target _ (clean_rest _ clean.opened clean.single _ (List.drop_suffix _ _) below)⟩

include clean in
theorem below_normal (text : List Char) (known : SettledPath text) (rest : List Char) (suffix : rest <:+ slashes path)
    (below : Below rest) :
    Normal (text ++ rest) := by
  have slashed : '\\' ∉ rest := fun member => slashes_slashed path (suffix.mem member)
  refine ⟨fun closed => ?_, ?_, known.reread rest slashed below⟩
  · rcases List.eq_nil_or_concat' rest with rfl | ⟨front, c, rfl⟩
    · rw [List.append_nil] at closed
      exact known.opened closed
    · obtain ⟨before, whole⟩ := closed
      rw [← List.append_assoc] at whole
      have same := (List.append_inj' whole rfl).2
      rw [← same] at suffix
      exact clean.opened ((List.suffix_append front ['/']).trans suffix)
  · rw [List.mem_append, not_or]
    exact ⟨known.slashed, slashed⟩

include settled clean in
theorem respelled_same (mapping : WorkspacePathMapping) (chosen : Chosen mapper.mappings (slashes path) remoteToLocal mapping) :
    normalizePathForMatch (respelled mapping remoteToLocal path) = normalizePathForMatch path := by
  have source := settled_source mapping (settled mapping chosen.member) remoteToLocal
  obtain ⟨below, taken, _⟩ := covers_split _ _ chosen.covers
  have suffix := List.drop_suffix (mapping.source remoteToLocal).length (slashes path)
  have reads : normalizePathForMatch path = foldCase (slashes path) := by
    rw [normalizePathForMatch, clean_reads path clean, trim_opened _ clean.opened]
  have windows : looksLikeWindowsPath (slashes path) = looksLikeWindowsPath (mapping.source remoteToLocal) := by
    have named : foldCase (mapping.source remoteToLocal) ≠ [] := fun none => source.named (by
      rw [← List.length_eq_zero_iff, ← fold_length, none, List.length_nil])
    have opened : ¬ ['/'] <:+ foldCase (mapping.source remoteToLocal) := by
      rintro ⟨front, whole⟩
      rw [fold_case_map] at whole
      obtain ⟨before, last, parts, _, ending⟩ := List.map_eq_append_iff.mp whole.symm
      obtain ⟨c, more, rfl, slash, rest⟩ := List.map_eq_cons_iff.mp ending
      rw [List.map_eq_nil_iff] at rest
      rw [(fold_slash _ c).mp slash, rest] at parts
      exact source.opened ⟨before, parts.symm⟩
    have rest : Below ((foldCase (slashes path)).drop (mapping.source remoteToLocal).length) := by
      rw [fold_case_map, ← List.map_drop]
      rcases below with none | ⟨more, some⟩
      · exact .inl (by rw [none, List.map_nil])
      · exact .inr ⟨_, by rw [some, List.map_cons, (fold_slash _ '/').mpr rfl]⟩
    have whole := looks_like_below _ _ named opened rest
    rwa [← taken, List.take_append_drop, taken, fold_looks_like, fold_looks_like] at whole
  rw [reads, respelled, match_normal _ (below_normal path clean _ source _ suffix below), fold_case_map,
    looks_like_below _ _ source.named source.opened below, List.map_append, ← fold_case_map, ← taken, fold_case_map, windows,
    ← List.map_take, ← List.map_append, List.take_append_drop]

include settled clean in
theorem maps_chosen (mapped : List Char) (maps : mapper.mapPath path remoteToLocal = .ok (some mapped)) :
    ∃ mapping, Chosen mapper.mappings (slashes path) remoteToLocal mapping ∧
      mapped = mapping.target remoteToLocal ++ (slashes path).drop (mapping.source remoteToLocal).length := by
  obtain ⟨mapping, chosen, rfl⟩ :=
    map_path_some mapper settled path _ (clean_reads path clean) (clean_normal path clean) remoteToLocal
    mapped maps
  exact ⟨mapping, chosen, (chosen_rest mapper remoteToLocal path clean mapping chosen).2 _⟩

section Back

variable (mapping : WorkspacePathMapping) (chosen : Chosen mapper.mappings (slashes path) remoteToLocal mapping)

include settled clean chosen in
-- The mapping that was used forth covers the mapped path.
theorem mapped_covered :
    Normal (mapping.target remoteToLocal ++ (slashes path).drop (mapping.source remoteToLocal).length) ∧
      Covers (foldCase (mapping.source !remoteToLocal))
        (foldCase (mapping.target remoteToLocal ++ (slashes path).drop (mapping.source remoteToLocal).length)) := by
  have target := settled_target mapping (settled mapping chosen.member) remoteToLocal
  have below := (chosen_rest mapper remoteToLocal path clean mapping chosen).1
  refine ⟨below_normal path clean _ target _ (List.drop_suffix _ _) below, ?_⟩
  rw [(source_back mapping remoteToLocal).1]
  exact covers_below _ _ target below

include settled clean chosen in
-- The way back: some mapping takes the mapped path, and it reaches at least as far.
theorem back_chosen : ∃ other, Chosen mapper.mappings
      (mapping.target remoteToLocal ++ (slashes path).drop (mapping.source remoteToLocal).length) (!remoteToLocal) other ∧
    mapper.mapPath (mapping.target remoteToLocal ++ (slashes path).drop (mapping.source remoteToLocal).length) (!remoteToLocal) =
      .ok (some (graft (other.source remoteToLocal)
        ((mapping.target remoteToLocal ++ (slashes path).drop (mapping.source remoteToLocal).length).drop
          (other.target remoteToLocal).length))) := by
  obtain ⟨normal, covers⟩ := mapped_covered mapper settled remoteToLocal path clean mapping chosen
  obtain ⟨back, maps⟩ := map_path_chosen mapper settled _ _ normal.reread normal (!remoteToLocal) mapping chosen.member covers
  obtain ⟨other, picked, rfl⟩ := map_path_some mapper settled _ _ normal.reread normal (!remoteToLocal) back maps
  refine ⟨other, picked, ?_⟩
  rwa [(source_back other remoteToLocal).1, (source_back other remoteToLocal).2] at maps

include settled distinct clean chosen in
theorem back_same (returns : Returns mapper.mappings remoteToLocal mapping
      (mapping.target remoteToLocal ++ (slashes path).drop (mapping.source remoteToLocal).length)) :
    mapper.mapPath (mapping.target remoteToLocal ++ (slashes path).drop (mapping.source remoteToLocal).length) (!remoteToLocal) =
      .ok (some (respelled mapping remoteToLocal path)) := by
  obtain ⟨other, picked, maps⟩ := back_chosen mapper settled remoteToLocal path clean mapping chosen
  obtain ⟨_, covers⟩ := mapped_covered mapper settled remoteToLocal path clean mapping chosen
  have here : Chosen mapper.mappings (mapping.target remoteToLocal ++ (slashes path).drop (mapping.source remoteToLocal).length)
      (!remoteToLocal) mapping := by
    refine ⟨chosen.member, covers, fun third member reached => ?_⟩
    rw [(source_back third remoteToLocal).1] at reached ⊢
    rw [(source_back mapping remoteToLocal).1]
    exact returns third member reached
  have same := chosen_unique mapper.mappings _ _ settled (distinct _) other mapping picked here
  rw [maps, same, List.drop_left, (chosen_rest mapper remoteToLocal path clean mapping chosen).2, respelled]

include settled distinct clean chosen in
theorem back_iff :
    mapper.mapPath (mapping.target remoteToLocal ++ (slashes path).drop (mapping.source remoteToLocal).length) (!remoteToLocal) =
        .ok (some path) ↔
      path = respelled mapping remoteToLocal path ∧ Returns mapper.mappings remoteToLocal mapping
        (mapping.target remoteToLocal ++ (slashes path).drop (mapping.source remoteToLocal).length) := by
  constructor
  · intro back
    obtain ⟨other, picked, maps⟩ := back_chosen mapper settled remoteToLocal path clean mapping chosen
    rw [maps, Except.ok.injEq, Option.some.injEq] at back
    obtain ⟨normal, covers⟩ := mapped_covered mapper settled remoteToLocal path clean mapping chosen
    have longer := picked.longest mapping chosen.member covers
    have reached := picked.covers
    rw [(source_back mapping remoteToLocal).1, (source_back other remoteToLocal).1] at longer
    rw [(source_back other remoteToLocal).1] at reached
    -- what the way back leaves is an end of what the way forth left
    have left : (mapping.target remoteToLocal ++ (slashes path).drop (mapping.source remoteToLocal).length).drop
        (other.target remoteToLocal).length = ((slashes path).drop (mapping.source remoteToLocal).length).drop
          ((other.target remoteToLocal).length - (mapping.target remoteToLocal).length) := by
      rw [List.drop_append, List.drop_of_length_le longer, List.nil_append]
    have suffix := (List.drop_suffix ((other.target remoteToLocal).length - (mapping.target remoteToLocal).length)
      ((slashes path).drop (mapping.source remoteToLocal).length)).trans (List.drop_suffix _ (slashes path))
    have below := (covers_split _ _ reached).1
    rw [left] at below back
    rw [graft_below _ _ (clean_rest _ clean.opened clean.single _ suffix below)] at back
    have otherSettled := settled_source other (settled other picked.member) remoteToLocal
    have slashed : '\\' ∉ path := by
      rw [← back, List.mem_append, not_or]
      exact ⟨otherSettled.slashed, fun member => slashes_slashed path (suffix.mem member)⟩
    have plain := slashes_plain path slashed
    -- so the other mapping takes the path on the way forth as well
    have covered : Covers (foldCase (other.source remoteToLocal)) (foldCase (slashes path)) := by
      have known := covers_below _ _ otherSettled below
      rwa [back, ← plain] at known
    have shorter := chosen.longest other picked.member covered
    have reach := congrArg List.length back
    have within := covers_length _ _ chosen.covers
    have inside := covers_length _ _ reached
    simp only [plain, List.length_append, List.length_drop] at reach within inside
    have equal : (other.target remoteToLocal).length = (mapping.target remoteToLocal).length := by omega
    have returns : Returns mapper.mappings remoteToLocal mapping
        (mapping.target remoteToLocal ++ (slashes path).drop (mapping.source remoteToLocal).length) := by
      intro third member reached
      have most := picked.longest third member (by rwa [(source_back third remoteToLocal).1])
      rwa [(source_back third remoteToLocal).1, (source_back other remoteToLocal).1, equal] at most
    refine ⟨?_, returns⟩
    have same := back_same mapper settled distinct remoteToLocal path clean mapping chosen returns
    rw [maps, Except.ok.injEq, Option.some.injEq, left, graft_below _ _ (clean_rest _ clean.opened clean.single _ suffix below),
      back] at same
    exact same
  · rintro ⟨spelled, returns⟩
    rw [back_same mapper settled distinct remoteToLocal path clean mapping chosen returns, ← spelled]

end Back

end RoundTrip

end SessionSync.Workspace
