import SessionSync.Workspace.AutomaticMappings

set_option autoImplicit false

namespace SessionSync.Workspace

open SessionSync.Core Checked Config

section Settled

theorem settled_none (mappings : List WorkspaceMappingRule) (settled : deduplicateLegacyVerbatimRemoteRules mappings = mappings)
    (key : RuleKey) : collapsible mappings key = false := by
  rw [← Bool.not_eq_true]
  intro collapses
  have rules := deduplicate_rules mappings key
  rw [settled, if_pos collapses] at rules
  obtain ⟨one, oneIn, other, otherIn, sameOne, sameOther, apart⟩ := of_decide_eq_true collapses
  have first : one ∈ rulesOf key mappings := List.mem_filter.mpr ⟨oneIn, decide_eq_true sameOne⟩
  have second : other ∈ rulesOf key mappings := List.mem_filter.mpr ⟨otherIn, decide_eq_true sameOther⟩
  rw [rules] at first second
  cases listed : rulesOf key mappings with
  | nil =>
      rw [listed] at first
      cases first
  | cons head rest =>
      rw [listed, List.take_succ_cons, List.take_zero, List.mem_singleton] at first second
      exact apart (by rw [first, second])

-- What was loaded has no legacy rules left to collapse.
theorem loaded_settled (lib : Primitives) (serde : Serde WorkspaceMappingFile) (file : Option Bytes) (document : WorkspaceMappingFile)
    (read : loaded (workspaceMappingStore lib serde) file = .ok document) :
    deduplicateLegacyVerbatimRemoteRules document.mappings = document.mappings := by
  cases file with
  | none =>
      cases read
      rfl
  | some bytes =>
      have decoded := (map_error_ok _ _ _).mp read
      simp only [workspaceMappingStore, decodeWorkspaces, bind_ok, pure_ok] at decoded
      obtain ⟨_, _, own, _, _, _, rfl⟩ := decoded
      exact deduplicate_again own.mappings

end Settled

section Rules

variable (lib : Primitives) (scope : WorkspaceScope) (now : String)

def ruleFor (selection : WorkspacePathSelection) : WorkspaceMappingRule :=
  candidateRule scope selection.id selection.remotePath selection.localPath now

theorem automatic_rules (seen : List (List Char)) (selections : List WorkspacePathSelection)
    (result : List WorkspaceMappingRule × List String) (ran : automaticRules lib scope now seen selections = .ok result) :
    result.1 = selections.map (ruleFor scope now) := by
  induction selections generalizing seen result with
  | nil =>
      cases ran
      rfl
  | cons selection rest ih =>
      simp only [automaticRules, bind_ok, pure_ok] at ran
      obtain ⟨_, _, _, _, _, _, _, _, others, later, rfl⟩ := ran
      rw [List.map_cons, ← ih _ others later, ruleFor]

def pairOf (rule : WorkspaceMappingRule) : String × String := (rule.remotePrefix, rule.localPrefix)

theorem new_mapping_remote (pair : String × String) (mapping : WorkspacePathMapping) (one : newMapping pair = .ok mapping) :
    mapping.remotePrefix = trimSlashes (normalizePathSyntax (Server.trim pair.1)) := by
  simp only [newMapping, normalizePrefix, bind_ok, pure_ok, String.ofList_toList] at one
  obtain ⟨remote, made, _, _, rfl⟩ := one
  obtain ⟨_, _, _, _, rfl⟩ := made
  rfl

def TrimmedRule (rule : WorkspaceMappingRule) : Prop := Server.trim rule.remotePrefix = rule.remotePrefix.toList

theorem rule_trimmed (selection : WorkspacePathSelection) : TrimmedRule (ruleFor scope now selection) := by
  rw [TrimmedRule, ruleFor, candidateRule, trim_again, String.toList_ofList]

-- A trimmed rule is read as a mapping whose remote prefix folds to its key.
theorem read_key (rule : WorkspaceMappingRule) (trimmed : TrimmedRule rule)
    (reads : newMapping (pairOf rule) = .ok (readRule (pairOf rule))) :
    (readRule (pairOf rule)).remotePrefix = trimSlashes (normalizePathSyntax rule.remotePrefix.toList) ∧
      foldCase (readRule (pairOf rule)).remotePrefix = normalizePathForMatch rule.remotePrefix.toList := by
  have made := new_mapping_remote (pairOf rule) _ reads
  rw [pairOf, trimmed] at made
  exact ⟨made, by rw [pairOf, made, normalizePathForMatch]⟩

-- Of two trimmed rules with one key, if one is stable then both prefixes have one match form.
theorem same_key_match (one other : WorkspaceMappingRule) (trimmedOne : TrimmedRule one) (trimmedOther : TrimmedRule other)
    (readsOne : newMapping (pairOf one) = .ok (readRule (pairOf one)))
    (readsOther : newMapping (pairOf other) = .ok (readRule (pairOf other))) (stable : Stable other.remotePrefix.toList)
    (same : normalizePathForMatch one.remotePrefix.toList = normalizePathForMatch other.remotePrefix.toList) :
    normalizePathForMatch (readRule (pairOf one)).remotePrefix = normalizePathForMatch (readRule (pairOf other)).remotePrefix := by
  obtain ⟨madeOne, keyOne⟩ := read_key one trimmedOne readsOne
  obtain ⟨madeOther, keyOther⟩ := read_key other trimmedOther readsOther
  have normal : Normal (readRule (pairOf other)).remotePrefix := by
    rw [madeOther]
    exact stable_normal _ stable
  have folded : foldCase (readRule (pairOf one)).remotePrefix = foldCase (readRule (pairOf other)).remotePrefix :=
    by rw [keyOne, keyOther, same]
  have slashed : '\\' ∉ (readRule (pairOf one)).remotePrefix := by
    rw [madeOne]
    exact fun member => syntax_slashed _ ((trim_front _).mem member)
  have opened : ¬ ['/'] <:+ (readRule (pairOf one)).remotePrefix := by
    rw [madeOne]
    exact trim_closed _
  have reread : normalizePathSyntax (readRule (pairOf one)).remotePrefix = (readRule (pairOf one)).remotePrefix := by
    rw [syntax_fixed _ slashed, same_fold_reduces _ _ folded]
    exact (syntax_fixed _ normal.slashed).mp normal.reread
  rw [match_normal _ ⟨opened, slashed, reread⟩, match_normal _ normal, folded]

end Rules

section Appended

variable (scope : WorkspaceScope) (mappings rules : List WorkspaceMappingRule)

def inScope : List WorkspaceMappingRule := mappings.filter fun mapping => scopeOf mapping = scope

theorem appended_pairs : prefixes mappings scope ++ rules.map pairOf = (inScope scope mappings ++ rules).map pairOf := by
  rw [List.map_append]
  rfl

theorem appended_clash (mapper : WorkspacePathMapper)
    (made : WorkspacePathMapper.new (prefixes mappings scope ++ rules.map pairOf) = .ok mapper)
    (trimmedOld : ∀ rule ∈ inScope scope mappings, TrimmedRule rule) (trimmedNew : ∀ rule ∈ rules, TrimmedRule rule)
    (stable : ∀ rule ∈ rules, Stable rule.remotePrefix.toList) (one other : WorkspaceMappingRule)
    (oneIn : one ∈ inScope scope mappings ++ rules) (otherIn : other ∈ rules)
    (same : normalizePathForMatch one.remotePrefix.toList = normalizePathForMatch other.remotePrefix.toList) : one = other := by
  rw [appended_pairs] at made
  obtain ⟨reads, listed, remotes, _⟩ := (new_iff _ mapper).mp made
  rw [listed] at remotes
  simp only [List.map_map] at remotes
  have trimmedOne : TrimmedRule one := by
    rcases List.mem_append.mp oneIn with old | new
    · exact trimmedOld one old
    · exact trimmedNew one new
  have otherAmong : other ∈ inScope scope mappings ++ rules := List.mem_append_right _ otherIn
  have forms := same_key_match one other trimmedOne (trimmedNew other otherIn) (reads _ (List.mem_map_of_mem oneIn))
    (reads _ (List.mem_map_of_mem otherAmong)) (stable other otherIn) same
  refine List.inj_on_of_nodup_map remotes oneIn otherAmong ?_
  simp only [Function.comp_apply]
  exact forms

-- The rules that are added take no part in a collapse.
theorem appended_settled (settled : deduplicateLegacyVerbatimRemoteRules mappings = mappings)
    (own : ∀ rule ∈ rules, scopeOf rule = scope) (clash : ∀ one ∈ inScope scope mappings ++ rules, ∀ other ∈ rules,
      normalizePathForMatch one.remotePrefix.toList = normalizePathForMatch other.remotePrefix.toList → one = other) :
    deduplicateLegacyVerbatimRemoteRules (mappings ++ rules) = mappings ++ rules := by
  have apart : ∀ one ∈ mappings ++ rules, ∀ other ∈ rules, mappingKey one = mappingKey other → one = other := by
    intro one oneIn other otherIn same
    obtain ⟨scopes, forms⟩ := Prod.mk.inj same
    refine clash one ?_ other otherIn forms
    rcases List.mem_append.mp oneIn with old | new
    · exact List.mem_append_left _ (List.mem_filter.mpr ⟨old, decide_eq_true (scopes.trans (own other otherIn))⟩)
    · exact List.mem_append_right _ new
  refine retain_none _ [] _ fun mapping _ => ?_
  rw [← Bool.not_eq_true]
  intro collapses
  obtain ⟨one, oneIn, other, otherIn, sameOne, sameOther, legacy⟩ := of_decide_eq_true collapses
  rcases List.mem_append.mp otherIn with otherOld | otherNew
  · rcases List.mem_append.mp oneIn with oneOld | oneNew
    · have held := settled_none mappings settled (mappingKey mapping)
      rw [collapsible, decide_eq_false_iff_not] at held
      exact held ⟨one, oneOld, other, otherOld, sameOne, sameOther, legacy⟩
    · exact legacy (congrArg legacyForm (apart other otherIn one oneNew (sameOther.trans sameOne.symm)).symm)
  · exact legacy (congrArg legacyForm (apart one oneIn other otherNew (sameOne.trans sameOther.symm)))

-- The mapper that the next plan makes has the old mappings and the new ones.
theorem appended_mapper (mapper : WorkspacePathMapper) (version : UInt32) (own : ∀ rule ∈ rules, scopeOf rule = scope)
    (made : WorkspacePathMapper.new (prefixes mappings scope ++ rules.map pairOf) = .ok mapper) :
    ∃ next, mapperOf scope ⟨version, mappings ++ rules⟩ = .ok next ∧
      ∀ mapping, mapping ∈ next.mappings ↔ ∃ rule ∈ inScope scope mappings ++ rules, mapping = readRule (pairOf rule) := by
  have kept : (mappings ++ rules).filter (fun mapping => scopeOf mapping = scope) = inScope scope mappings ++ rules := by
    rw [List.filter_append, List.filter_eq_self.mpr fun rule member => decide_eq_true (own rule member)]
    rfl
  have moved :=
    ((List.perm_insertionSort (fun one other => one.createdAt ≤ other.createdAt) (inScope scope mappings ++ rules)).map pairOf).symm
  rw [appended_pairs] at made
  obtain ⟨next, again, members⟩ := new_perm _ _ moved mapper made
  refine ⟨next, ?_, fun mapping => ?_⟩
  · rw [mapperOf, stateOf, kept]
    exact again
  · rw [members, ((new_iff _ mapper).mp made).2.1, List.map_map]
    simp only [List.mem_map, Function.comp_apply, eq_comm]

theorem stored_mapper (mapper : WorkspacePathMapper) (document : WorkspaceMappingFile) (made : mapperOf scope document = .ok mapper)
    (mapping : WorkspacePathMapping) : mapping ∈ mapper.mappings ↔
      ∃ rule ∈ inScope scope document.mappings, mapping = readRule (pairOf rule) := by
  have made : WorkspacePathMapper.new ((stateOf scope document).mappings.map pairOf) = .ok mapper := made
  rw [((new_iff _ mapper).mp made).2.1, List.map_map, List.mem_map]
  refine exists_congr fun rule => and_congr (List.mem_insertionSort _) ?_
  rw [Function.comp_apply]
  exact eq_comm

-- A rule whose remote path is stable takes each stable path that is at or below it, and no other.
theorem rule_takes (rule : WorkspaceMappingRule) (path : String) (trimmed : TrimmedRule rule)
    (stableRule : Stable rule.remotePrefix.toList) (stable : Stable path.toList)
    (reads : newMapping (pairOf rule) = .ok (readRule (pairOf rule))) :
    (sameOrChild path rule.remotePrefix = true → ∃ text, located path.toList (readRule (pairOf rule)) = .ok (some text)) ∧
      ∃ result, located path.toList (readRule (pairOf rule)) = .ok result := by
  obtain ⟨made, key⟩ := read_key rule trimmed reads
  have normal : Normal (readRule (pairOf rule)).remotePrefix := by
    rw [made]
    exact stable_normal _ stableRule
  have takes := replace_reads path.toList _ (readRule (pairOf rule)).localPrefix stable normal
  rw [key] at takes
  refine ⟨fun below => takes.1 (of_decide_eq_true below), ?_⟩
  by_cases below : Covers (normalizePathForMatch rule.remotePrefix.toList) (normalizePathForMatch path.toList)
  · obtain ⟨text, found⟩ := takes.1 below
    exact ⟨some text, found⟩
  · exact ⟨none, takes.2 below⟩

end Appended

section Complete

variable (remotePaths : List String) (mapper : WorkspacePathMapper) (isDir : String → Bool)

theorem classify_read (path : String) (class_ : String × PathClass) (ran : classify mapper isDir path = .ok class_) :
    ∃ local_, mapText mapper true path = .ok local_ := by
  simp only [classify, bind_ok, pure_ok] at ran
  obtain ⟨local_, mapped, _⟩ := ran
  exact ⟨local_, mapped⟩

theorem minimal_nil : minimalRemoteRoots [] = [] := rfl

-- Where every path is placed there are no roots to choose directories for.
theorem nothing_unmapped
    (reads : ∀ path ∈ uniquePaths remotePaths, ∀ mapping ∈ mapper.mappings, ∃ result, located path.toList mapping = .ok result)
    (placed : ∀ path ∈ uniquePaths remotePaths,
      (∃ mapping ∈ mapper.mappings, ∃ text, located path.toList mapping = .ok (some text)) ∨ isDir path = true) :
    ∃ mapped existing, classifyRemotePaths remotePaths mapper isDir = .ok (mapped, existing, []) := by
  have each : ∀ path ∈ uniquePaths remotePaths, ∃ class_, classify mapper isDir path = .ok class_ := by
    intro path member
    obtain ⟨local_, ran⟩ := map_text_run mapper path (reads path member)
    rw [classify, ran]
    exact ⟨_, rfl⟩
  obtain ⟨classes, ran⟩ := (map_each_iff _ _).mpr each
  have empty : (classes.filter fun path => path.2 = .missing).map Prod.fst = [] := by
    refine List.eq_nil_iff_forall_not_mem.mpr fun path member => ?_
    obtain ⟨listed, unmapped, absent⟩ := (missing_iff remotePaths mapper isDir classes ran path).mp member
    rcases placed path listed with found | here
    · have some_ := (map_text_ok mapper path none unmapped).2.mpr found
      cases some_
    · exact Bool.false_ne_true (absent.symm.trans here)
  refine ⟨classes.countP fun path => path.2 = .mapped, classes.countP fun path => path.2 = .existing, ?_⟩
  simp only [classifyRemotePaths, bind_ok, pure_ok]
  refine ⟨classes, ran, ?_⟩
  rw [empty, minimal_nil, List.map_nil]

variable (scope : WorkspaceScope) (mappings rules : List WorkspaceMappingRule)

-- The rules that are added place what the old ones left.
theorem added_place (next : WorkspacePathMapper) (after : String → Bool)
    (held : ∀ mapping, mapping ∈ mapper.mappings ↔ ∃ rule ∈ inScope scope mappings, mapping = readRule (pairOf rule))
    (members : ∀ mapping, mapping ∈ next.mappings ↔ ∃ rule ∈ inScope scope mappings ++ rules, mapping = readRule (pairOf rule))
    (earlier : ∀ path ∈ uniquePaths remotePaths, ∃ local_, mapText mapper true path = .ok local_)
    (takes : ∀ path ∈ uniquePaths remotePaths, ∀ rule ∈ rules,
      (sameOrChild path rule.remotePrefix = true → ∃ text, located path.toList (readRule (pairOf rule)) = .ok (some text)) ∧
        ∃ result, located path.toList (readRule (pairOf rule)) = .ok result)
    (covers : ∀ path ∈ uniquePaths remotePaths, Unplaced mapper isDir path →
      ∃ rule ∈ rules, sameOrChild path rule.remotePrefix = true)
    (grown : ∀ path, isDir path = true → after path = true) :
    ∃ mapped existing, classifyRemotePaths remotePaths next after = .ok (mapped, existing, []) := by
  refine nothing_unmapped remotePaths next after (fun path listed mapping member => ?_) (fun path listed => ?_)
  · obtain ⟨rule, among, same⟩ := (members mapping).mp member
    rcases List.mem_append.mp among with old | new
    · obtain ⟨local_, ran⟩ := earlier path listed
      exact (map_text_ok mapper path local_ ran).1 _ ((held _).mpr ⟨rule, old, same⟩)
    · rw [same]
      exact (takes path listed rule new).2
  · obtain ⟨local_, ran⟩ := earlier path listed
    cases local_ with
    | some local_ =>
        obtain ⟨mapping, among, text, found⟩ := (map_text_ok mapper path _ ran).2.mp rfl
        obtain ⟨rule, old, same⟩ := (held mapping).mp among
        exact .inl ⟨mapping, (members _).mpr ⟨rule, List.mem_append_left _ old, same⟩, text, found⟩
    | none =>
        by_cases here : isDir path = true
        · exact .inr (grown path here)
        · rw [Bool.not_eq_true] at here
          obtain ⟨rule, new, below⟩ := covers path listed ⟨ran, here⟩
          obtain ⟨text, found⟩ := (takes path listed rule new).1 below
          exact .inl ⟨_, (members _).mpr ⟨rule, List.mem_append_right _ new, rfl⟩, text, found⟩

end Complete

section Plan

variable (lib : Primitives) (serde : Serde WorkspaceMappingFile) (scope : WorkspaceScope)

theorem plan_read (remoteHead : Option String) (remotePaths : List String) (isDir : String → Bool) (file : Option Bytes)
    (plan : WorkspacePullPlan) (planned : pullPlan lib serde scope remoteHead remotePaths isDir file = .ok plan) :
    ∃ document mapper mapped existing, loaded (workspaceMappingStore lib serde) file = .ok document ∧
      mapperOf scope document = .ok mapper ∧
      classifyRemotePaths remotePaths mapper isDir = .ok (mapped, existing, plan.unmappedPaths) := by
  simp only [pullPlan, bind_ok, pure_ok, map_error_ok] at planned
  obtain ⟨document, read, mapper, made, classes, classified, rfl⟩ := planned
  exact ⟨document, mapper, classes.1, classes.2.1, read, made, classified⟩

theorem plan_run (remoteHead : Option String) (remotePaths : List String) (isDir : String → Bool) (file : Option Bytes)
    (document : WorkspaceMappingFile) (mapper : WorkspacePathMapper) (mapped existing : Nat) (unmapped : List WorkspacePathCandidate)
    (read : loaded (workspaceMappingStore lib serde) file = .ok document) (made : mapperOf scope document = .ok mapper)
    (classified : classifyRemotePaths remotePaths mapper isDir = .ok (mapped, existing, unmapped)) :
    ∃ plan, pullPlan lib serde scope remoteHead remotePaths isDir file = .ok plan ∧ plan.unmappedPaths = unmapped := by
  refine ⟨⟨scope.1, scope.2.1, remoteHead, mapped, existing, unmapped⟩, ?_, rfl⟩
  simp only [pullPlan, bind_ok, pure_ok, map_error_ok]
  exact ⟨document, read, mapper, made, (mapped, existing, unmapped), classified, rfl⟩

-- A call of `create_automatic` that returned, with one selection for each unmapped root.
structure Completes (plan : WorkspacePullPlan) (isDir after : String → Bool)
    (turn : Turn (WorkspaceTarget × WorkspaceChange) (WorkspaceMappingState × List String))
    (selections : List WorkspacePathSelection) : Prop where
  call : ∃ now refused, checkWorkspace turn.issued.1 = .ok (scope, .createAutomatic selections now refused)
  ran : (program (workspaceMappingStore lib serde) turn.issued).exec turn.before = (turn.outcome, turn.after)
  accepted : turn.Accepted
  chosen : (selections.map fun selection => trimmed selection.remotePath).Perm
    (plan.unmappedPaths.map WorkspacePathCandidate.remotePath)
  grown : ∀ path, isDir path = true → after path = true

theorem completed_rules (faithful : serde.Faithful) (plan : WorkspacePullPlan) (isDir after : String → Bool)
    (turn : Turn (WorkspaceTarget × WorkspaceChange) (WorkspaceMappingState × List String)) (selections : List WorkspacePathSelection)
    (completes : Completes lib serde scope plan isDir after turn selections) (document : WorkspaceMappingFile)
    (read : loaded (workspaceMappingStore lib serde) turn.before.file = .ok document) :
    ∃ now mapper, WorkspacePathMapper.new (prefixes document.mappings scope ++ (selections.map (ruleFor scope now)).map pairOf) =
      .ok mapper ∧
      loaded (workspaceMappingStore lib serde) turn.after.file =
        .ok (settleLegacy ⟨document.schemaVersion, document.mappings ++ selections.map (ruleFor scope now)⟩) := by
  obtain ⟨now, refused, call⟩ := completes.call
  have views : ∀ saved, ∃ view, (workspaceMappingStore lib serde).answer saved = .inr view := fun saved => ⟨_, rfl⟩
  obtain ⟨next, ⟨arguments, base, _, checked, found, changes, _⟩, _, reread⟩ :=
    turn_read_back (workspaces_reread lib serde faithful) views turn completes.ran completes.accepted
  have checked : checkWorkspace turn.issued.1 = .ok arguments := checked
  rw [call] at checked
  cases checked
  rw [read] at found
  cases found
  have changes : changeWorkspace lib (scope, .createAutomatic selections now refused) document = .ok (next, _) := changes
  simp only [changeWorkspace, bind_ok, pure_ok, Prod.mk.injEq] at changes
  obtain ⟨_, _, _, _, rules, listed, _, checks, _, _, rfl, _⟩ := changes
  have same := automatic_rules lib scope now [] selections rules listed
  rw [same] at checks reread
  obtain ⟨mapper, made⟩ := check_mapper_new _ checks
  exact ⟨now, mapper, made, reread⟩

theorem pull_plan_complete (faithful : serde.Faithful) (remoteHead : Option String) (remotePaths : List String)
    (isDir : String → Bool) (file : Option Bytes) (plan : WorkspacePullPlan)
    (planned : pullPlan lib serde scope remoteHead remotePaths isDir file = .ok plan) :
    (∃ document mapper, loaded (workspaceMappingStore lib serde) file = .ok document ∧ mapperOf scope document = .ok mapper ∧
      CoversUnplaced remotePaths mapper isDir plan.unmappedPaths) ∧
    ∀ turn selections after, turn.before.file = file → Completes lib serde scope plan isDir after turn selections →
      (∀ path ∈ remotePaths, Stable (Server.trim path)) →
      (∀ document, loaded (workspaceMappingStore lib serde) file = .ok document →
        ∀ rule ∈ inScope scope document.mappings, TrimmedRule rule) →
      ∀ head, ∃ next, pullPlan lib serde scope head remotePaths after turn.after.file = .ok next ∧ next.unmappedPaths = [] := by
  obtain ⟨document, mapper, mapped, existing, read, made, result⟩ :=
    plan_read lib serde scope remoteHead remotePaths isDir file plan planned
  refine ⟨⟨document, mapper, read, made, plan_covers remotePaths mapper isDir _ result⟩, ?_⟩
  intro turn selections after same completes stablePaths trimmedOld head
  subst same
  obtain ⟨now, both, bothMade, reread⟩ :=
    completed_rules lib serde scope faithful plan isDir after turn selections completes document read
  obtain ⟨classes, each, roots⟩ := classified remotePaths mapper isDir _ result
  have roots : plan.unmappedPaths.map WorkspacePathCandidate.remotePath =
      minimalRemoteRoots ((classes.filter fun path => path.2 = .missing).map Prod.fst) := roots
  have missing := missing_iff remotePaths mapper isDir classes each
  have stable : ∀ path ∈ uniquePaths remotePaths, Stable path.toList := by
    intro path listed
    have member := List.mem_of_find?_eq_some ((unique_iff remotePaths path).mp listed)
    obtain ⟨own, among, rfl⟩ := List.mem_map.mp member
    rw [trimmed, String.toList_ofList]
    exact stablePaths own among
  have rootOf : ∀ selection ∈ selections, trimmed selection.remotePath ∈ uniquePaths remotePaths := by
    intro selection member
    have root := completes.chosen.mem_iff.mp (List.mem_map_of_mem member)
    rw [roots] at root
    exact ((missing _).mp (minimal_among _ _ root)).1
  have own : ∀ rule ∈ selections.map (ruleFor scope now), scopeOf rule = scope := by
    intro rule member
    obtain ⟨selection, _, rfl⟩ := List.mem_map.mp member
    rfl
  have trimmedNew : ∀ rule ∈ selections.map (ruleFor scope now), TrimmedRule rule := by
    intro rule member
    obtain ⟨selection, _, rfl⟩ := List.mem_map.mp member
    exact rule_trimmed scope now selection
  have stableNew : ∀ rule ∈ selections.map (ruleFor scope now), Stable rule.remotePrefix.toList := by
    intro rule member
    obtain ⟨selection, among, rfl⟩ := List.mem_map.mp member
    exact stable _ (rootOf selection among)
  have clash := appended_clash scope document.mappings _ both bothMade (trimmedOld document read) trimmedNew stableNew
  have settled :=
    appended_settled scope document.mappings _ (loaded_settled lib serde _ document read) own fun one oneIn other otherIn =>
    clash one other oneIn otherIn
  rw [settleLegacy, settled] at reread
  obtain ⟨next, nextMade, members⟩ := appended_mapper scope document.mappings _ both document.schemaVersion own bothMade
  rw [appended_pairs] at bothMade
  have newReads : ∀ rule ∈ selections.map (ruleFor scope now), newMapping (pairOf rule) = .ok (readRule (pairOf rule)) :=
    fun rule member =>
    ((new_iff _ both).mp bothMade).1 _ (List.mem_map_of_mem (List.mem_append_right _ member))
  have takes := fun path listed rule member =>
    rule_takes rule path (trimmedNew rule member) (stableNew rule member) (stable path listed) (newReads rule member)
  have earlier : ∀ path ∈ uniquePaths remotePaths, ∃ local_, mapText mapper true path = .ok local_ := by
    intro path listed
    obtain ⟨class_, ran⟩ := (map_each_iff _ _).mp ⟨classes, each⟩ path listed
    exact classify_read mapper isDir path class_ ran
  have covers : ∀ path ∈ uniquePaths remotePaths, Unplaced mapper isDir path →
      ∃ rule ∈ selections.map (ruleFor scope now), sameOrChild path rule.remotePrefix = true := by
    intro path listed unplaced
    obtain ⟨root, known, below⟩ := minimal_covers _ path ((missing path).mpr ⟨listed, unplaced⟩)
    rw [← roots] at known
    obtain ⟨selection, chosen, rfl⟩ := List.mem_map.mp (completes.chosen.mem_iff.mpr known)
    exact ⟨_, List.mem_map_of_mem chosen, below⟩
  obtain ⟨mapped, existing, classified⟩ := added_place remotePaths mapper isDir scope document.mappings _ next after
    (stored_mapper scope mapper document made) members earlier takes covers completes.grown
  exact plan_run lib serde scope head remotePaths after turn.after.file _ next mapped existing [] reread nextMade classified

end Plan

namespace PullSample

open Config.Sample

def scope : WorkspaceScope := (home, work, "/home/user/.codex")

def target : WorkspaceTarget := ⟨"/home/user/.codex", some "/home/user/.codex", home, work⟩

def selectionOf (remotePath : String) : WorkspacePathSelection := ⟨remotePath, "/home/user/project", 1, true, true⟩

def automatic (remotePath : String) : WorkspaceTarget × WorkspaceChange :=
  (target, .createAutomatic [selectionOf remotePath] "2026-01-02T00:00:00Z" [])

def noDirectory : String → Bool := fun _ => false

def ruleAt (id : Uuid) (remotePath localPath : String) : WorkspaceMappingRule :=
  ⟨id, home, work, "/home/user/.codex", remotePath, localPath, "2026-01-02T00:00:00Z", "2026-01-02T00:00:00Z"⟩

def ruleOpening : List Char := "    \x7b\n      \"id\": \"".toList

def ruleRemote : List Char := "\",\n      \"remoteId\": \"01900000-0000-7000-8000-000000000001\",\n".toList

def ruleNamespace : List Char := "      \"namespaceId\": \"01900000-0000-7000-8000-000000000002\",\n".toList

def ruleHome : List Char := "      \"codexHomeKey\": \"/home/user/.codex\",\n      \"remotePrefix\": \"".toList

def ruleLocal : List Char := "\",\n      \"localPrefix\": \"".toList

def ruleTimes : List Char :=
  "\",\n      \"createdAt\": \"2026-01-02T00:00:00Z\",\n      \"updatedAt\": \"2026-01-02T00:00:00Z\"\n    \x7d".toList

def ruleText (id remotePath localPath : String) : List Char :=
  ruleOpening ++ id.toList ++ ruleRemote ++ ruleNamespace ++ ruleHome ++ remotePath.toList ++ ruleLocal ++
    localPath.toList ++ ruleTimes

theorem short_text (text : List Char) (limit : Nat) (short : text.length ≤ limit) : (String.ofList text).toList.length ≤ limit := by
  rwa [String.toList_ofList]

theorem rule_length (id remotePath localPath : String) :
    (ruleText id remotePath localPath).length ≤ id.toList.length + remotePath.toList.length + localPath.toList.length + 512 := by
  have opening : ruleOpening.length ≤ 64 := short_text _ 64 (by decide)
  have remote : ruleRemote.length ≤ 64 := short_text _ 64 (by decide)
  have space : ruleNamespace.length ≤ 68 := short_text _ 68 (by decide)
  have home : ruleHome.length ≤ 68 := short_text _ 68 (by decide)
  have local_ : ruleLocal.length ≤ 64 := short_text _ 64 (by decide)
  have times : ruleTimes.length ≤ 128 := short_text _ 128 (by decide)
  simp only [ruleText, List.length_append]
  omega

def jsonOpening : List Char := "\n  \"schemaVersion\": 1,\n  \"mappings\": [\n".toList

def jsonEnd : List Char := "\n  ]\n\x7d".toList

def jsonOf (rules : List Char) : Bytes := utf8 ('\x7b' :: jsonOpening ++ rules ++ jsonEnd)

theorem json_starts (rules : List Char) : (jsonOf rules).head? = some 123 := rfl

theorem json_fits (rules : List Char) (short : rules.length ≤ 4096) : (jsonOf rules).length ≤ workspaceConfigBytes := by
  have each : ∀ text : List Char, (utf8 text).length ≤ 4 * text.length := by
    intro text
    induction text with
    | nil => exact Nat.zero_le _
    | cons c rest ih =>
        have one := String.length_utf8EncodeChar c
        have small := c.utf8Size_le_four
        rw [utf8, List.flatMap_cons, List.length_append, List.length_cons]
        rw [utf8] at ih
        omega
  have opening : jsonOpening.length ≤ 64 := short_text _ 64 (by decide)
  have last : jsonEnd.length ≤ 64 := short_text _ 64 (by decide)
  refine (each _).trans ?_
  rw [List.length_append, List.length_append, List.length_cons, workspaceConfigBytes]
  omega

def oneRule (remotePath : String) : WorkspaceMappingFile := ⟨1, [ruleAt 1 remotePath "/home/user/project"]⟩

def oneText (remotePath : String) : List Char := ruleText "00000000-0000-0000-0000-000000000001" remotePath "/home/user/project"

theorem one_length (remotePath : String) (short : remotePath.toList.length ≤ 64) : (oneText remotePath).length ≤ 1024 := by
  have whole := rule_length "00000000-0000-0000-0000-000000000001" remotePath "/home/user/project"
  have id : "00000000-0000-0000-0000-000000000001".toList.length ≤ 64 := short_text _ 64 (by decide)
  have local_ : "/home/user/project".toList.length ≤ 64 := short_text _ 64 (by decide)
  rw [oneText]
  omega

def oneJson (remotePath : String) : Bytes := jsonOf (oneText remotePath)

def serdeAt (remotePath quoted : String) : Serde WorkspaceMappingFile := serdeOf (oneRule remotePath) (oneJson quoted)

theorem serde_at_faithful (remotePath quoted : String) : (serdeAt remotePath quoted).Faithful :=
  serde_faithful _ _ (by rw [oneJson, json_starts]; decide)

variable (serde : Serde WorkspaceMappingFile)

theorem automatic_completes (file : Option Bytes) (bytes : Bytes) (document : WorkspaceMappingFile) (remotePath : String)
    (plan : WorkspacePullPlan) (roots : plan.unmappedPaths.map WorkspacePathCandidate.remotePath = [trimmed remotePath])
    (performed : perform (workspaceMappingStore sampleLib serde) (automatic remotePath) file = .ok bytes)
    (reads : loaded (workspaceMappingStore sampleLib serde) (some bytes) = .ok document) :
    ∃ turn, turn.before.file = file ∧ turn.after.file = some bytes ∧
      Completes sampleLib serde scope plan noDirectory noDirectory turn [selectionOf remotePath] := by
  obtain ⟨answer, after, ran, placed⟩ :=
    view_exec (workspaceMappingStore sampleLib serde) (automatic remotePath) (drawsOf 1) ⟨file, ∅⟩ bytes
    document performed (fun _ => rfl) rfl rfl (fun saved => ⟨_, rfl⟩) reads
  refine ⟨⟨⟨file, ∅⟩, (automatic remotePath, drawsOf 1), .ok answer, after⟩, rfl, placed, ⟨_, _, rfl⟩, ran, ⟨answer, rfl⟩, ?_,
    fun path here => here⟩
  rw [roots]
  exact .refl _

def serverSerde := serdeAt "/srv/a" "/srv/a"

theorem server_faithful : serverSerde.Faithful := serde_at_faithful _ _

def serverPlan : WorkspacePullPlan := ⟨home, work, none, 0, 0, [⟨"/srv/a", "a"⟩]⟩

theorem server_planned : pullPlan sampleLib serverSerde scope none ["/srv/a/b", "/srv/a "] noDirectory none = .ok serverPlan := by rfl

theorem automatic_performed (file : Option Bytes) (base next : WorkspaceMappingFile) (remotePath : String)
    (read : loaded (workspaceMappingStore sampleLib serde) file = .ok base)
    (changes : changeWorkspace sampleLib (scope, (automatic remotePath).2) base = .ok (next, scope, []))
    (valid : validateFile sampleLib next = .ok ()) :
    perform (workspaceMappingStore sampleLib serde) (automatic remotePath) file = .ok (serde.print next) := by
  have checked : checkWorkspace (automatic remotePath) = .ok (scope, (automatic remotePath).2) := rfl
  simp only [perform, read]
  simp only [workspaceMappingStore, checked]
  change (Except.mapError ConfigError.invalid (changeWorkspace sampleLib (scope, (automatic remotePath).2) base) >>= _) = _
  rw [changes]
  change (Except.mapError ConfigError.invalid (validateFile sampleLib next) >>= _) = _
  rw [valid]
  rfl

theorem printed_loaded (faithful : serde.Faithful) (next : WorkspaceMappingFile) (valid : validateFile sampleLib next = .ok ())
    (fits : (serde.print next).length ≤ workspaceConfigBytes) :
    loaded (workspaceMappingStore sampleLib serde) (some (serde.print next)) = .ok (settleLegacy next) :=
  (map_error_ok _ _ _).mpr ((workspaces_reread sampleLib serde faithful next _ valid).mpr ⟨fits, rfl⟩)

theorem server_changed : changeWorkspace sampleLib (scope, (automatic "/srv/a").2) ⟨1, []⟩ =
    .ok (oneRule "/srv/a", scope, []) := by rfl

theorem server_valid : validateFile sampleLib (oneRule "/srv/a") = .ok () := by rfl

theorem server_printed : serverSerde.print (oneRule "/srv/a") = oneJson "/srv/a" := by
  simp only [serverSerde, serdeAt, serdeOf, if_true]

theorem server_fits : (serverSerde.print (oneRule "/srv/a")).length ≤ workspaceConfigBytes := by
  rw [server_printed]
  exact json_fits _ ((one_length "/srv/a" (short_text _ 64 (by decide))).trans (by decide))

theorem server_again : pullPlan sampleLib serverSerde scope none ["/srv/a/b", "/srv/a "] noDirectory
    (some (serverSerde.print (oneRule "/srv/a"))) =
    .ok ⟨home, work, none, 2, 0, []⟩ := by
  rw [pullPlan, printed_loaded _ server_faithful _ server_valid server_fits]
  rfl

-- A prefix that names a verbatim prefix inside a verbatim prefix is read away twice.
def nested : String := "\\\\?\\UNC\\?\\UNC\\?\\C:\\x"

def nestedSerde := serdeAt nested "\\\\\\\\?\\\\UNC\\\\?\\\\UNC\\\\?\\\\C:\\\\x"

theorem nested_faithful : nestedSerde.Faithful := serde_at_faithful _ _

theorem nested_planned : pullPlan sampleLib nestedSerde scope none [nested] noDirectory none =
    .ok ⟨home, work, none, 0, 0, [⟨nested, "x"⟩]⟩ := by rfl

theorem nested_changed : changeWorkspace sampleLib (scope, (automatic nested).2) ⟨1, []⟩ = .ok (oneRule nested, scope, []) := by rfl

theorem nested_valid : validateFile sampleLib (oneRule nested) = .ok () := by rfl

theorem nested_fits : (nestedSerde.print (oneRule nested)).length ≤ workspaceConfigBytes := by
  have printed : nestedSerde.print (oneRule nested) = oneJson "\\\\\\\\?\\\\UNC\\\\?\\\\UNC\\\\?\\\\C:\\\\x" := by
    simp only [nestedSerde, serdeAt, serdeOf, if_true]
  rw [printed]
  exact json_fits _ ((one_length "\\\\\\\\?\\\\UNC\\\\?\\\\UNC\\\\?\\\\C:\\\\x" (short_text _ 64 (by decide))).trans (by decide))

theorem nested_again : pullPlan sampleLib nestedSerde scope none [nested] noDirectory (some (nestedSerde.print (oneRule nested))) =
    .ok ⟨home, work, none, 0, 0, [⟨nested, "x"⟩]⟩ := by
  rw [pullPlan, printed_loaded _ nested_faithful _ nested_valid nested_fits]
  rfl

-- One more document beside those of a reader and writer.
def alsoSerde (base : Serde WorkspaceMappingFile) (document : WorkspaceMappingFile) (json : Bytes) : Serde WorkspaceMappingFile where
  print other := if other = document then json else base.print other
  parse bytes := if bytes = json then .ok document else base.parse bytes

theorem also_faithful (base : Serde WorkspaceMappingFile) (document : WorkspaceMappingFile) (json : Bytes) (faithful : base.Faithful)
    (fresh : ∀ other, other ≠ document → base.print other ≠ json) : (alsoSerde base document json).Faithful := by
  intro other
  by_cases same : other = document
  · simp only [alsoSerde, same, if_true]
  · simp only [alsoSerde, if_neg same, if_neg (fresh other same), faithful other]

def spaced : WorkspaceMappingFile := ⟨1, [ruleAt 2 "//?/C:/x " "/home/user/x"]⟩

def spacedText : List Char := ruleText "00000000-0000-0000-0000-000000000002" "//?/C:/x " "/home/user/x"

theorem spaced_length : spacedText.length ≤ 1024 := by
  have whole := rule_length "00000000-0000-0000-0000-000000000002" "//?/C:/x " "/home/user/x"
  have id : "00000000-0000-0000-0000-000000000002".toList.length ≤ 64 := short_text _ 64 (by decide)
  have remote : "//?/C:/x ".toList.length ≤ 64 := short_text _ 64 (by decide)
  have local_ : "/home/user/x".toList.length ≤ 64 := short_text _ 64 (by decide)
  rw [spacedText]
  omega

def spacedJson : Bytes := jsonOf spacedText

def spacedNext : WorkspaceMappingFile := ⟨1, [ruleAt 2 "//?/C:/x " "/home/user/x", ruleAt 1 "C:/x /" "/home/user/project"]⟩

def spacedNextText : List Char := spacedText ++ ",\n".toList ++ oneText "C:/x /"

def spacedNextJson : Bytes := jsonOf spacedNextText

def spacedSerde : Serde WorkspaceMappingFile := alsoSerde (serdeOf spacedNext spacedNextJson) spaced spacedJson

theorem spaced_apart : spacedNextJson ≠ spacedJson := by
  intro same
  have sizes := congrArg List.length same
  have grown : ∀ text rest : List Char, (utf8 (text ++ rest)).length = (utf8 text).length + (utf8 rest).length := fun text rest => by
    rw [utf8, List.flatMap_append, List.length_append]
    rfl
  rw [spacedNextJson, spacedJson, jsonOf, jsonOf, spacedNextText, List.append_assoc spacedText] at sizes
  simp only [grown] at sizes
  have more : (utf8 ",\n".toList).length = 2 := by
    rw [show ",\n".toList = [',', '\n'] from String.toList_ofList]
    decide
  omega

theorem spaced_faithful : spacedSerde.Faithful := by
  have opens : spacedNextJson.head? ≠ some 0 := by
    rw [spacedNextJson, json_starts]
    decide
  refine also_faithful _ _ _ (serde_faithful spacedNext spacedNextJson opens) fun other _ => ?_
  simp only [serdeOf]
  by_cases next : other = spacedNext
  · rw [if_pos next]
    exact spaced_apart
  · rw [if_neg next]
    intro same
    have head := congrArg List.head? same
    rw [spacedJson, json_starts, List.head?_cons] at head
    exact absurd head (by decide)

theorem spaced_printed : spacedSerde.print spaced = spacedJson := by simp only [spacedSerde, alsoSerde, if_true]

theorem spaced_valid : validateFile sampleLib spaced = .ok () := by rfl

theorem spaced_loaded : loaded (workspaceMappingStore sampleLib spacedSerde) (some spacedJson) = .ok spaced := by
  rw [← spaced_printed, printed_loaded _ spaced_faithful _ spaced_valid]
  · rfl
  · rw [spaced_printed]
    exact json_fits _ (spaced_length.trans (by decide))

theorem spaced_changed : changeWorkspace sampleLib (scope, (automatic "C:/x /").2) spaced = .ok (spacedNext, scope, []) := by rfl

theorem spaced_next_valid : validateFile sampleLib spacedNext = .ok () := by rfl

theorem spaced_planned : pullPlan sampleLib spacedSerde scope none ["C:/x /"] noDirectory (some spacedJson) =
    .ok ⟨home, work, none, 0, 0, [⟨"C:/x /", "x"⟩]⟩ := by
  rw [pullPlan, spaced_loaded]
  rfl

theorem spaced_fits : (spacedSerde.print spacedNext).length ≤ workspaceConfigBytes := by
  have apart : spacedNext ≠ spaced := by decide
  have printed : spacedSerde.print spacedNext = spacedNextJson :=
    by simp only [spacedSerde, alsoSerde, serdeOf, if_neg apart, if_true]
  rw [printed]
  refine json_fits _ ?_
  have first := spaced_length
  have second := one_length "C:/x /" (short_text _ 64 (by decide))
  have between : ",\n".toList.length ≤ 64 := short_text _ 64 (by decide)
  rw [spacedNextText, List.length_append, List.length_append]
  omega

theorem spaced_again : pullPlan sampleLib spacedSerde scope none ["C:/x /"] noDirectory (some (spacedSerde.print spacedNext)) =
    .ok ⟨home, work, none, 0, 0, [⟨"C:/x /", "x"⟩]⟩ := by
  rw [pullPlan, printed_loaded _ spaced_faithful _ spaced_next_valid spaced_fits]
  rfl

def oneSpelling : String → Bool := fun path => path.toList = "C:/work/x".toList

theorem spelling_planned : pullPlan sampleLib workspaceSerde scope none ["C:/work/x", "C:/Work/x"] oneSpelling none =
    .ok ⟨home, work, none, 0, 1, []⟩ := by decide +kernel

-- What stands for a path may be here while the path is not, a prefix may be read away
-- twice, and a prefix that was stored with a blank may hide the one that is added.
theorem pull_plan_gaps :
    (pullPlan sampleLib workspaceSerde scope none ["C:/work/x", "C:/Work/x"] oneSpelling none = .ok ⟨home, work, none, 0, 1, []⟩ ∧
      Unplaced ⟨[]⟩ oneSpelling "C:/Work/x") ∧
    (nestedSerde.Faithful ∧ ∃ plan turn next,
      pullPlan sampleLib nestedSerde scope none [nested] noDirectory turn.before.file = .ok plan ∧
      Completes sampleLib nestedSerde scope plan noDirectory noDirectory turn [selectionOf nested] ∧
      pullPlan sampleLib nestedSerde scope none [nested] noDirectory turn.after.file = .ok next ∧ next.unmappedPaths ≠ []) ∧
    (spacedSerde.Faithful ∧ ∃ plan turn next,
      pullPlan sampleLib spacedSerde scope none ["C:/x /"] noDirectory turn.before.file = .ok plan ∧
      Completes sampleLib spacedSerde scope plan noDirectory noDirectory turn [selectionOf "C:/x /"] ∧
      pullPlan sampleLib spacedSerde scope none ["C:/x /"] noDirectory turn.after.file = .ok next ∧ next.unmappedPaths ≠ []) := by
  refine ⟨⟨spelling_planned, rfl, by decide +kernel⟩, ⟨nested_faithful, ?_⟩, spaced_faithful, ?_⟩
  · have performed := automatic_performed nestedSerde none _ _ nested rfl nested_changed nested_valid
    obtain ⟨turn, before, after, completes⟩ :=
      automatic_completes nestedSerde none _ _ nested ⟨home, work, none, 0, 0, [⟨nested, "x"⟩]⟩ rfl performed
      (printed_loaded _ nested_faithful _ nested_valid nested_fits)
    exact ⟨_, turn, _, by rw [before]; exact nested_planned, completes, by rw [after]; exact nested_again, List.cons_ne_nil _ _⟩
  · have performed := automatic_performed spacedSerde (some spacedJson) _ _ "C:/x /" spaced_loaded spaced_changed spaced_next_valid
    obtain ⟨turn, before, after, completes⟩ := automatic_completes spacedSerde (some spacedJson) _ _ "C:/x /"
      ⟨home, work, none, 0, 0, [⟨"C:/x /", "x"⟩]⟩ rfl performed (printed_loaded _ spaced_faithful _ spaced_next_valid spaced_fits)
    exact ⟨_, turn, _, by rw [before]; exact spaced_planned, completes, by rw [after]; exact spaced_again, List.cons_ne_nil _ _⟩

theorem server_complete :
    ∃ turn next, Completes sampleLib serverSerde scope serverPlan noDirectory noDirectory turn [selectionOf "/srv/a"] ∧
    CoversUnplaced ["/srv/a/b", "/srv/a "] ⟨[]⟩ noDirectory serverPlan.unmappedPaths ∧
    pullPlan sampleLib serverSerde scope none ["/srv/a/b", "/srv/a "] noDirectory turn.after.file = .ok next ∧
      next.unmappedPaths = [] := by
  have performed := automatic_performed serverSerde none _ _ "/srv/a" rfl server_changed server_valid
  obtain ⟨turn, before, after, completes⟩ := automatic_completes serverSerde none _ _ "/srv/a" serverPlan rfl performed
    (printed_loaded _ server_faithful _ server_valid server_fits)
  have whole := pull_plan_complete sampleLib serverSerde scope server_faithful none ["/srv/a/b", "/srv/a "] noDirectory none
    serverPlan server_planned
  obtain ⟨⟨document, mapper, read, made, covers⟩, later⟩ := whole
  cases read
  cases made
  have stable : ∀ path ∈ ["/srv/a/b", "/srv/a "], Stable (Server.trim path) := by decide +kernel
  obtain ⟨next, again, none_⟩ := later turn _ noDirectory before completes stable
    (fun document read rule member => by cases read; cases member) none
  exact ⟨turn, next, completes, covers, again, none_⟩

end PullSample

end SessionSync.Workspace
