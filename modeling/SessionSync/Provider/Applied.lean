import SessionSync.Provider.Selection

set_option autoImplicit false

namespace SessionSync.Provider

open SessionSync.Core Checked Storage Rollout Local

variable (lib : Primitives) (env : ScanEnv) (operationId provider : String)

abbrev Trees := Bool → Std.ExtTreeMap String Bytes

def stamped (thread : RolloutRecord) : Bytes := providerStream lib env.reader provider thread.source.bytes

def stampTree (trees : Trees) (thread : RolloutRecord) : Trees :=
  Function.update trees thread.source.archived
    ((trees thread.source.archived).insert thread.source.path (stamped lib env provider thread))

-- The trees with the targets written in their turn.
def stampTrees (targets : List RolloutRecord) (trees : Trees) : Trees := targets.foldl (stampTree lib env provider) trees

section Trees

variable {lib env provider}

theorem updated_lookup (trees : Trees) (side other : Bool) (tree : Std.ExtTreeMap String Bytes) (path : String) :
    (Function.update trees side tree other)[path]? = if other = side then tree[path]? else (trees other)[path]? := by
  rw [Function.update_apply]
  split <;> rfl

theorem stamp_tree_lookup (trees : Trees) (thread : RolloutRecord) (archived : Bool) (path : String) :
    (stampTree lib env provider trees thread archived)[path]? =
      if (archived, path) = place thread then some (stamped lib env provider thread) else (trees archived)[path]? := by
  rw [stampTree, updated_lookup]
  by_cases side : archived = thread.source.archived
  · rw [if_pos side, Keyed.lookup_insert]
    by_cases same : path = thread.source.path
    · rw [if_pos same, if_pos (Prod.ext side same)]
    · rw [if_neg same, if_neg fun both => same (congrArg Prod.snd both), side]
  · rw [if_neg side, if_neg fun both => side (congrArg Prod.fst both)]

theorem stamp_trees_other (targets : List RolloutRecord) (trees : Trees) (archived : Bool) (path : String)
    (other : (archived, path) ∉ targets.map place) :
    (stampTrees lib env provider targets trees archived)[path]? = (trees archived)[path]? := by
  induction targets generalizing trees with
  | nil => rfl
  | cons target rest ih =>
      rw [List.map_cons, List.mem_cons, not_or] at other
      rw [stampTrees, List.foldl_cons]
      refine (ih _ other.2).trans ?_
      rw [stamp_tree_lookup, if_neg other.1]

theorem stamp_trees_target (targets : List RolloutRecord) (trees : Trees) (distinct : (targets.map place).Nodup)
    (target : RolloutRecord) (member : target ∈ targets) :
    (stampTrees lib env provider targets trees target.source.archived)[target.source.path]? = some
    (stamped lib env provider target) := by
  induction targets generalizing trees with
  | nil => cases member
  | cons first rest ih =>
      obtain ⟨apart, distinct⟩ := List.nodup_cons.mp distinct
      rcases List.mem_cons.mp member with rfl | later
      · rw [stampTrees, List.foldl_cons]
        refine (stamp_trees_other rest _ _ _ apart).trans ?_
        rw [stamp_tree_lookup]
        exact if_pos rfl
      · exact ih _ distinct later

end Trees

-- Where nothing is missing: every rollout is as it was or stamped.
def Whole (home : ProviderHome) (targets : List RolloutRecord) (trees : Trees) : Prop :=
  ∀ archived path, isRolloutPath path = true → (trees archived)[path]? = (home.trees archived)[path]? ∨
    ∃ target ∈ targets, place target = (archived, path) ∧ (trees archived)[path]? = some (stamped lib env provider target)

-- Between its two renames a rollout is under its displaced name alone.
def Gap (target : RolloutRecord) (trees : Trees) : Prop :=
  (trees target.source.archived)[target.source.path]? = none ∧
    displacedPath operationId target.source.path ∈ trees target.source.archived

def Standing (home : ProviderHome) (targets : List RolloutRecord) (trees : Trees) : Prop :=
  ∀ archived path, isRolloutPath path = true → (trees archived)[path]? = (home.trees archived)[path]? ∨
    ∃ target ∈ targets, place target = (archived, path) ∧
      ((trees archived)[path]? = some (stamped lib env provider target) ∨ Gap operationId target trees)

section Standing

variable {lib env operationId provider}

theorem whole_standing (home : ProviderHome) (targets : List RolloutRecord) (trees : Trees)
    (whole : Whole lib env provider home targets trees) : Standing lib env operationId provider home targets trees := by
  intro archived path rollout
  refine (whole archived path rollout).imp_right fun ⟨target, member, here, held⟩ => ?_
  exact ⟨target, member, here, .inl held⟩

theorem stamp_trees_whole (home : ProviderHome) (done pending : List RolloutRecord) (distinct : (done.map place).Nodup) :
    Whole lib env provider home (done ++ pending) (stampTrees lib env provider done home.trees) := by
  intro archived path _
  by_cases target : (archived, path) ∈ done.map place
  · obtain ⟨thread, member, here⟩ := List.mem_map.mp target
    refine .inr ⟨thread, List.mem_append_left _ member, here, ?_⟩
    have held : (stampTrees lib env provider done home.trees thread.source.archived)[thread.source.path]? =
        some (stamped lib env provider thread) := stamp_trees_target done home.trees distinct thread member
    cases here
    exact held
  · exact .inl (stamp_trees_other done home.trees archived path target)

-- A change at one place, beside names that are no rollout's.
theorem standing_change (home : ProviderHome) (targets : List RolloutRecord) (before after : Trees) (target : RolloutRecord)
    (member : target ∈ targets) (whole : Whole lib env provider home targets before)
    (others : ∀ archived path, isRolloutPath path = true → (archived, path) ≠ place target →
      (after archived)[path]? = (before archived)[path]?)
    (here : (after target.source.archived)[target.source.path]? = (home.trees target.source.archived)[target.source.path]? ∨
      (after target.source.archived)[target.source.path]? = some (stamped lib env provider target) ∨ Gap operationId target after) :
    Standing lib env operationId provider home targets after := by
  intro archived path rollout
  by_cases same : (archived, path) = place target
  · cases same
    exact here.imp_right fun left => ⟨target, member, rfl, left⟩
  · rw [others archived path rollout same]
    refine (whole archived path rollout).imp_right fun ⟨other, inside, there, held⟩ => ?_
    exact ⟨other, inside, there, .inl held⟩

end Standing

section Names

theorem suffix_apart (left right text : List Char) (leftEnds : left <:+ text) (rightEnds : right <:+ text) (a b : Char)
    (leftLast : left.getLast? = some a) (rightLast : right.getLast? = some b) : a = b := by
  obtain ⟨start, rfl⟩ := leftEnds
  have whole := congrArg List.getLast? (rightEnds.choose_spec)
  have filled : left ≠ [] := fun none => by rw [none] at leftLast; cases leftLast
  have other : right ≠ [] := fun none => by rw [none] at rightLast; cases rightLast
  rw [List.getLast?_append_of_ne_nil _ other, List.getLast?_append_of_ne_nil _ filled, rightLast, leftLast,
    Option.some.injEq] at whole
  exact whole.symm

-- The scan does not see what has been moved aside.
theorem displaced_hidden (path : String) : isRolloutPath (displacedPath operationId path) = false := by
  rw [Bool.eq_false_iff]
  intro rollout
  rw [isRolloutPath, Bool.and_eq_true] at rollout
  have ends := List.isSuffixOf_iff_suffix.mp rollout.2
  have part : ((displacedPath operationId path).toList.reverse.takeWhile fun c =>
    c ≠ '/').reverse <:+ (displacedPath operationId path).toList := by
    rw [← List.reverse_prefix, List.reverse_reverse]
    exact List.takeWhile_prefix _
  have old : ".old".toList <:+ (displacedPath operationId path).toList := by
    rw [displacedPath, String.toList_append]
    exact List.suffix_append _ _
  have same := suffix_apart _ _ _ (ends.trans part) old 'l' 'd' (by decide) (by decide)
  exact absurd same (by decide)

theorem displaced_apart (path other : String) (rollout : isRolloutPath path = true) : path ≠ displacedPath operationId other := by
  intro same
  rw [same, displaced_hidden] at rollout
  cases rollout

end Names

section Stage

variable {lib env operationId provider}
variable {crash : ProviderHome → Prop} {home : ProviderHome}

def SameStores (home state : ProviderHome) : Prop := state.databases = home.databases ∧ state.catalogs = home.catalogs

-- Nothing that a scan reads has been written yet.
structure Unread (home state : ProviderHome) : Prop where
  config : state.config = home.config
  trees : state.trees = home.trees
  stores : SameStores home state

variable (lib env operationId provider) in
-- A plan whose staged file is ready.
structure Planned (staged : Std.ExtTreeMap String Bytes) (target : RolloutRecord) (file : ProviderSyncFilePlan) : Prop where
  archived : file.archived = target.source.archived
  path : file.path = target.source.path
  displaced : file.displaced = displacedPath operationId target.source.path
  held : staged[file.staged]? = some (stamped lib env provider target)
  writable : ∀ line ∈ Lib.splitAfter newline target.source.bytes, ¬ Unwritable env.reader line

def Holds (home : ProviderHome) (target : RolloutRecord) : Prop :=
  (home.trees target.source.archived)[target.source.path]? = some target.source.bytes

theorem safe_kept {α β : Type} (inv : ProviderHome → Prop) (imp : ∀ state, inv state → crash state) (prog : Sync α)
    (next : α → Sync β) (post : Except String β → Faulty ProviderHome → Prop) (device : Faulty ProviderHome) (here : inv device.state)
    (moves : Moves (fun state after => inv state → inv after) prog)
    (goes : ∀ value seen, inv seen.state → SafeAccess crash (next value) post seen)
    (fails : ∀ error seen, inv seen.state → post (.error error) seen) : SafeAccess crash (prog >>= next) post device := by
  have whole := safe_of_moves inv prog moves device here
  apply safe_then _ _ _ _ _ (safe_weaken inv crash imp _ _ _ whole)
  · exact fun value seen _ kept => goes value seen kept
  · exact fun error seen _ kept => fails error seen kept

theorem moves_journal (inv : ProviderHome → Prop) (free : ∀ state journals, inv state → inv { state with journals := journals })
    (status : ProviderSyncStatus) : Moves (fun state after => inv state → inv after) (writeJournal operationId status) :=
  moves_atomic (fun _ => id) _ _ _ (fun state => free state _) fun state => free state _

theorem held_open (state : ProviderHome) (unread : Unread home state) (target : RolloutRecord) (held : Holds home target)
    (input : Bytes) (read : state.openRollout target.source.archived target.source.path = .ok input) :
    input = target.source.bytes := by
  rw [ProviderHome.openRollout, found_ok, unread.trees, held, Option.some.injEq] at read
  exact read.symm

variable (lib env operationId provider) in
structure StagedOne (before : Std.ExtTreeMap String Bytes) (target : RolloutRecord) (file : ProviderSyncFilePlan)
    (after : Std.ExtTreeMap String Bytes) :
    Prop where
  fresh : file.staged ∉ before
  planned : Planned lib env operationId provider after target file
  kept : ∀ key ∈ before, after[key]? = before[key]?

variable (lib env operationId provider) in
structure StagedAll (before : Std.ExtTreeMap String Bytes) (targets : List RolloutRecord) (files : List ProviderSyncFilePlan)
    (after : Std.ExtTreeMap String Bytes) : Prop where
  planned : List.Forall₂ (Planned lib env operationId provider after) targets files
  distinct : (files.map ProviderSyncFilePlan.staged).Nodup
  fresh : ∀ file ∈ files, file.staged ∉ before
  kept : ∀ key ∈ before, after[key]? = before[key]?

theorem planned_kept (before after : Std.ExtTreeMap String Bytes) (target : RolloutRecord) (file : ProviderSyncFilePlan)
    (planned : Planned lib env operationId provider before target file) (kept : after[file.staged]? = before[file.staged]?) :
    Planned lib env operationId provider after target file := { planned with held := kept.trans planned.held }

theorem staged_cons (before middle after : Std.ExtTreeMap String Bytes) (target : RolloutRecord) (rest : List RolloutRecord)
    (file : ProviderSyncFilePlan) (files : List ProviderSyncFilePlan)
    (first : StagedOne lib env operationId provider before target file middle)
    (later : StagedAll lib env operationId provider middle rest files after) :
    StagedAll lib env operationId provider before (target :: rest) (file :: files) after := by
  have grown : ∀ key ∈ before, key ∈ middle := by
    intro key inside
    have same := first.kept key inside
    rw [Std.ExtTreeMap.mem_iff_isSome_getElem?] at inside ⊢
    rwa [same]
  have own : file.staged ∈ middle := by
    rw [Std.ExtTreeMap.mem_iff_isSome_getElem?, first.planned.held]
    rfl
  refine ⟨.cons (planned_kept middle after target file first.planned (later.kept _ own)) later.planned, ?_, ?_, ?_⟩
  · rw [List.map_cons, List.nodup_cons]
    refine ⟨fun again => ?_, later.distinct⟩
    obtain ⟨other, member, same⟩ := List.mem_map.mp again
    exact later.fresh other member (same ▸ own)
  · rw [List.forall_mem_cons]
    exact ⟨first.fresh, fun other member inside => later.fresh other member (grown _ inside)⟩
  · exact fun key inside => (later.kept key (grown key inside)).trans (first.kept key inside)

variable (begun : ∀ state, Unread home state → crash state)

include begun

theorem stage_one (index : Nat) (target : RolloutRecord) (held : Holds home target) (state : ProviderHome) (faults : List Bool)
    (unread : Unread home state) :
    SafeAccess crash (stageProviderRollout lib env operationId provider index target)
      (fun outcome seen => Unread home seen.state ∧ ∀ file, outcome = .ok file →
        StagedOne lib env operationId provider state.staged target file seen.state.staged) ⟨state, faults⟩ := by
  apply safe_look _ _ _ _ (begun state unread)
  · intro input rest read
    have same := held_open state unread target held input read
    apply safe_change _ _ _ _ (begun state unread)
    · intro created rest made
      simp only [ProviderHome.createStaged, bind_ok, ensure_ok, pure_ok] at made
      obtain ⟨_, fresh, rfl⟩ := made
      have opened : Unread home { state with staged := state.staged.insert (stagedPath operationId index) [] } :=
        ⟨unread.config, unread.trees, unread.stores⟩
      apply safe_check _ _ _ _ (begun _ opened)
      · intro written transformed
        obtain ⟨output, writable⟩ := transform_written input target.threadId provider written.1 written.2 transformed
        apply safe_change _ _ _ _ (begun _ opened)
        · intro filled rest put
          cases put
          have ready : Unread home (ProviderHome.fillStaged
            { state with staged := state.staged.insert (stagedPath operationId index) [] }
              (stagedPath operationId index) written.1) := ⟨unread.config, unread.trees, unread.stores⟩
          apply safe_look _ _ _ _ (begun _ ready)
          · intro original rest again
            apply safe_done _ _ _ (begun _ ready)
            refine ⟨ready, fun file made => ?_⟩
            cases made
            refine ⟨fresh, ⟨rfl, rfl, rfl, ?_, same ▸ writable⟩, fun key inside => ?_⟩
            · simp only [ProviderHome.fillStaged, Keyed.lookup_insert, if_true]
              rw [output, same, stamped]
            · have other : key ≠ stagedPath operationId index := fun equal => fresh (equal ▸ inside)
              simp only [ProviderHome.fillStaged, Keyed.lookup_insert, if_neg other]
          · exact fun _ _ => ⟨ready, fun _ => no_value _ _⟩
        · exact fun _ _ => ⟨opened, fun _ => no_value _ _⟩
      · exact fun _ _ => ⟨opened, fun _ => no_value _ _⟩
    · exact fun _ _ => ⟨unread, fun _ => no_value _ _⟩
  · exact fun _ _ => ⟨unread, fun _ => no_value _ _⟩

theorem stage_all (targets : List RolloutRecord) (held : ∀ target ∈ targets, Holds home target) (index : Nat) (state : ProviderHome)
    (faults : List Bool) (unread : Unread home state) :
    SafeAccess crash (stageAll lib env operationId provider index targets)
      (fun outcome seen => Unread home seen.state ∧ ∀ files, outcome = .ok files →
        StagedAll lib env operationId provider state.staged targets files seen.state.staged) ⟨state, faults⟩ := by
  induction targets generalizing index state faults with
  | nil =>
      apply safe_done _ _ _ (begun state unread)
      refine ⟨unread, fun files same => ?_⟩
      cases same
      exact ⟨.nil, List.nodup_nil, List.forall_mem_nil _, fun _ _ => rfl⟩
  | cons target rest ih =>
      have each := List.forall_mem_cons.mp held
      apply safe_pause _ _ _ (begun state unread)
      · intro left
        apply safe_then _ _ _ _ _ (stage_one begun index target each.1 state left unread)
        · intro file middle _ one
          obtain ⟨ready, made⟩ := one
          have first := made file rfl
          apply safe_kept (fun seen => Unread home seen ∧ seen.staged = middle.state.staged) (fun seen kept => begun seen kept.1)
          · exact ⟨ready, rfl⟩
          · exact moves_journal _ (fun _ _ kept => ⟨⟨kept.1.config, kept.1.trees, kept.1.stores⟩, kept.2⟩) _
          · intro _ written kept
            obtain ⟨now, left⟩ := written
            apply safe_then _ _ _ _ _ (ih each.2 (index + 1) now left kept.1)
            · intro files last here all
              apply safe_done _ _ _ here
              refine ⟨all.1, fun whole same => ?_⟩
              cases same
              have later := all.2 files rfl
              rw [kept.2] at later
              exact staged_cons _ _ _ target rest file files first later
            · exact fun error last _ all => ⟨all.1, nofun⟩
          · exact fun error seen kept => ⟨kept.1, nofun⟩
        · exact fun error seen _ one => ⟨one.1, nofun⟩
      · exact fun error left => ⟨unread, nofun⟩

end Stage

section Replace

variable {lib env operationId provider}

variable (lib env operationId provider) in
-- How far the renames have come.
structure Applying (home : ProviderHome) (done pending : List RolloutRecord) (rest : List ProviderSyncFilePlan)
    (state : ProviderHome) : Prop where
  config : state.config = home.config
  stores : SameStores home state
  trees : state.trees = stampTrees lib env provider done home.trees
  planned : List.Forall₂ (Planned lib env operationId provider state.staged) pending rest
  distinct : (rest.map ProviderSyncFilePlan.staged).Nodup
  free : ∀ target ∈ done, displacedPath operationId target.source.path ∉ home.trees target.source.archived

variable (lib env operationId provider) in
structure Stays (home : ProviderHome) (targets : List RolloutRecord) (state : ProviderHome) : Prop where
  config : state.config = home.config
  standing : Standing lib env operationId provider home targets state.trees

structure Targets (home : ProviderHome) (targets : List RolloutRecord) : Prop where
  distinct : (targets.map place).Nodup
  holds : ∀ target ∈ targets, Holds home target
  rollouts : ∀ target ∈ targets, isRolloutPath target.source.path = true

variable {home : ProviderHome} {done more : List RolloutRecord} {target : RolloutRecord}

theorem applying_stays (pending : List RolloutRecord) (files : List ProviderSyncFilePlan) (state : ProviderHome)
    (all : Targets home (done ++ pending)) (applying : Applying lib env operationId provider home done pending files state) :
    Stays lib env operationId provider home (done ++ pending) state := by
  have places := all.distinct
  rw [List.map_append] at places
  refine ⟨applying.config, whole_standing _ _ _ ?_⟩
  rw [applying.trees]
  exact stamp_trees_whole home done pending (List.Nodup.of_append_left places)

theorem stamp_trees_last (trees : Trees) : stampTrees lib env provider (done ++ [target]) trees =
    stampTree lib env provider (stampTrees lib env provider done trees) target := List.foldl_append

theorem displaced_lookup (targets : List RolloutRecord) (trees : Trees)
    (rollouts : ∀ target ∈ targets, isRolloutPath target.source.path = true) (archived : Bool) (path : String) :
    (stampTrees lib env provider targets trees archived)[displacedPath operationId path]? =
      (trees archived)[displacedPath operationId path]? := by
  refine stamp_trees_other targets trees archived _ fun again => ?_
  obtain ⟨other, member, same⟩ := List.mem_map.mp again
  exact displaced_apart operationId _ path (rollouts other member) (congrArg Prod.snd same)

-- The trees that differ at the target's own name and at its displaced name alone.
def Elsewhere (operationId : String) (target : RolloutRecord) (before after : Trees) : Prop :=
  ∀ archived path, (archived, path) ≠ place target →
    (archived, path) ≠ (target.source.archived, displacedPath operationId target.source.path) →
    (after archived)[path]? = (before archived)[path]?

theorem elsewhere_update (before trees : Trees) (tree : Std.ExtTreeMap String Bytes)
    (else_ : Elsewhere operationId target before trees)
    (same : ∀ path, path ≠ target.source.path → path ≠ displacedPath operationId target.source.path →
      tree[path]? = (trees target.source.archived)[path]?) :
    Elsewhere operationId target before (Function.update trees target.source.archived tree) := by
  intro archived path here aside
  rw [updated_lookup, ← else_ archived path here aside]
  by_cases side : archived = target.source.archived
  · subst side
    rw [if_pos rfl]
    exact same path (fun equal => here (Prod.ext rfl equal)) fun equal => aside (Prod.ext rfl equal)
  · rw [if_neg side]

theorem standing_here (before after : Trees) (whole : Whole lib env provider home (done ++ target :: more) before)
    (else_ : Elsewhere operationId target before after)
    (here : (after target.source.archived)[target.source.path]? = (home.trees target.source.archived)[target.source.path]? ∨
      (after target.source.archived)[target.source.path]? = some (stamped lib env provider target) ∨ Gap operationId target after) :
    Standing lib env operationId provider home (done ++ target :: more) after := by
  refine standing_change home _ before after target (List.mem_append_right _ List.mem_cons_self) whole
    (fun archived path rollout apart => ?_) here
  exact else_ archived path apart fun same => displaced_apart operationId path _ rollout (congrArg Prod.snd same)

-- Once the displaced file is gone as well only the target's own place has changed.
theorem stamp_tree_ext (before after : Trees) (else_ : Elsewhere operationId target before after)
    (here : (after target.source.archived)[target.source.path]? = some (stamped lib env provider target))
    (free : (before target.source.archived)[displacedPath operationId target.source.path]? = none)
    (gone : (after target.source.archived)[displacedPath operationId target.source.path]? = none) :
    after = stampTree lib env provider before target := by
  funext archived
  refine Std.ExtTreeMap.ext_getElem? fun path => ?_
  rw [stamp_tree_lookup]
  by_cases same : (archived, path) = place target
  · rw [if_pos same]
    cases same
    exact here
  · rw [if_neg same]
    by_cases aside : (archived, path) = (target.source.archived, displacedPath operationId target.source.path)
    · cases aside
      rw [gone, free]
    · exact else_ archived path same aside

variable (lib env operationId provider) in
-- What each of the three renames and removals leaves, from the trees before them.
structure Step (before after : Trees) (target : RolloutRecord) (here aside : Option Bytes) : Prop where
  elsewhere : Elsewhere operationId target before after
  here : (after target.source.archived)[target.source.path]? = here
  aside : (after target.source.archived)[displacedPath operationId target.source.path]? = aside

theorem step_update (before trees : Trees) (bytes aside : Option Bytes) (tree : Std.ExtTreeMap String Bytes)
    (step : Step operationId before trees target bytes aside)
    (same : ∀ path, path ≠ target.source.path → path ≠ displacedPath operationId target.source.path →
      tree[path]? = (trees target.source.archived)[path]?) :
    Step operationId before (Function.update trees target.source.archived tree) target tree[target.source.path]?
      tree[displacedPath operationId target.source.path]? := by
  refine ⟨elsewhere_update before trees tree step.elsewhere same, ?_, ?_⟩
  · rw [Function.update_self]
  · rw [Function.update_self]

theorem step_start (trees : Trees) (bytes : Bytes) (here : (trees target.source.archived)[target.source.path]? = some bytes)
    (free : displacedPath operationId target.source.path ∉ trees target.source.archived) :
    Step operationId trees trees target (some bytes) none :=
  ⟨fun _ _ _ _ => rfl, here, Std.ExtTreeMap.getElem?_eq_none free⟩

section Renames

variable {before : Trees} {state after : ProviderHome} {bytes written : Bytes}
variable (apart : target.source.path ≠ displacedPath operationId target.source.path)

include apart

theorem step_aside (step : Step operationId before state.trees target (some bytes) none)
    (run : state.renameRollout target.source.archived target.source.path (displacedPath operationId target.source.path) = .ok after) :
    Step operationId before after.trees target none (some bytes) ∧
      after = state.withTree target.source.archived (after.trees target.source.archived) := by
  simp only [ProviderHome.renameRollout, ProviderHome.openRollout, bind_ok, found_ok, pure_ok, step.here, Option.some.injEq,
    exists_eq_left'] at run
  subst run
  have moved := step_update before state.trees _ _ (((state.trees target.source.archived).erase target.source.path).insert
    (displacedPath operationId target.source.path) bytes) step fun path here aside => by
      rw [Keyed.lookup_insert, if_neg aside, Keyed.lookup_erase, if_neg here]
  rw [Keyed.lookup_insert, Keyed.lookup_insert, if_neg apart, if_pos rfl, Keyed.lookup_erase, if_pos rfl] at moved
  exact ⟨moved, by simp [ProviderHome.withTree]⟩

theorem step_restore (step : Step operationId before state.trees target none (some bytes))
    (run : state.renameRollout target.source.archived (displacedPath operationId target.source.path) target.source.path = .ok after) :
    Step operationId before after.trees target (some bytes) none ∧
      after = state.withTree target.source.archived (after.trees target.source.archived) := by
  simp only [ProviderHome.renameRollout, ProviderHome.openRollout, bind_ok, found_ok, pure_ok, step.aside, Option.some.injEq,
    exists_eq_left'] at run
  subst run
  have moved := step_update before state.trees _
    _ (((state.trees target.source.archived).erase (displacedPath operationId target.source.path)).insert
    target.source.path bytes) step fun path here aside => by
      rw [Keyed.lookup_insert, if_neg here, Keyed.lookup_erase, if_neg aside]
  rw [Keyed.lookup_insert, Keyed.lookup_insert, if_neg apart.symm, if_pos rfl, Keyed.lookup_erase, if_pos rfl] at moved
  exact ⟨moved, by simp [ProviderHome.withTree]⟩

theorem step_remove (step : Step operationId before state.trees target (some written) (some bytes))
    (run : state.removeRollout target.source.archived (displacedPath operationId target.source.path) = .ok after) :
    Step operationId before after.trees target (some written) none ∧
      after = state.withTree target.source.archived (after.trees target.source.archived) := by
  simp only [ProviderHome.removeRollout, ProviderHome.openRollout, bind_ok, found_ok, pure_ok, step.aside, Option.some.injEq,
    exists_eq_left'] at run
  subst run
  have moved :=
    step_update before state.trees _ _ ((state.trees target.source.archived).erase (displacedPath operationId target.source.path))
    step fun path here aside => by rw [Keyed.lookup_erase, if_neg aside]
  rw [Keyed.lookup_erase, Keyed.lookup_erase, if_neg apart, if_pos rfl, step.here] at moved
  exact ⟨moved, by simp [ProviderHome.withTree]⟩

theorem step_promote (file : ProviderSyncFilePlan) (side : file.archived = target.source.archived)
    (name : file.path = target.source.path) (step : Step operationId before state.trees target none (some bytes))
    (held : state.staged[file.staged]? = some written) (run : state.promoteStaged file = .ok after) :
    Step operationId before after.trees target (some written) (some bytes) ∧
      after = { state.withTree target.source.archived (after.trees target.source.archived) with
        staged := state.staged.erase file.staged } := by
  simp only [ProviderHome.promoteStaged, bind_ok, found_ok, pure_ok, held, Option.some.injEq, exists_eq_left', side, name] at run
  subst run
  have moved := step_update before state.trees _ _ ((state.trees target.source.archived).insert target.source.path written)
    step fun path here aside => by rw [Keyed.lookup_insert, if_neg here]
  rw [Keyed.lookup_insert, Keyed.lookup_insert, if_neg apart.symm, if_pos rfl, step.aside] at moved
  exact ⟨moved, by simp [ProviderHome.withTree]⟩

end Renames

theorem step_stays (before : Trees) (state : ProviderHome) (here aside : Option Bytes) (config : state.config = home.config)
    (whole : Whole lib env provider home (done ++ target :: more) before) (held : Holds home target)
    (step : Step operationId before state.trees target here aside)
    (good : here = some target.source.bytes ∨ here = some (stamped lib env provider target) ∨ here = none ∧ aside.isSome = true) :
    Stays lib env operationId provider home (done ++ target :: more) state := by
  refine ⟨config, standing_here before state.trees whole step.elsewhere ?_⟩
  rw [step.here]
  rcases good with kept | new | ⟨gone, moved⟩
  · exact .inl (kept.trans held.symm)
  · exact .inr (.inl new)
  · refine .inr (.inr ⟨step.here.trans gone, ?_⟩)
    rwa [Std.ExtTreeMap.mem_iff_isSome_getElem?, step.aside]

theorem planned_others (staged : Std.ExtTreeMap String Bytes) (key : String) (targets : List RolloutRecord)
    (files : List ProviderSyncFilePlan) (planned : List.Forall₂ (Planned lib env operationId provider staged) targets files)
    (apart : key ∉ files.map ProviderSyncFilePlan.staged) :
    List.Forall₂ (Planned lib env operationId provider (staged.erase key)) targets files := by
  induction planned with
  | nil => exact .nil
  | cons first rest ih =>
      rw [List.map_cons, List.mem_cons, not_or] at apart
      refine .cons (planned_kept _ _ _ _ first ?_) (ih apart.2)
      rw [Keyed.lookup_erase, if_neg (Ne.symm apart.1)]

theorem replace_one (file : ProviderSyncFilePlan) (files : List ProviderSyncFilePlan) (state : ProviderHome) (faults : List Bool)
    (all : Targets home (done ++ target :: more))
    (applying : Applying lib env operationId provider home done (target :: more) (file :: files) state) :
    SafeAccess (Stays lib env operationId provider home (done ++ target :: more)) (replaceWithStaged file)
      (fun outcome seen => Stays lib env operationId provider home (done ++ target :: more) seen.state ∧
        (outcome = .ok () → Applying lib env operationId provider home (done ++ [target]) more files seen.state)) ⟨state,
          faults⟩ := by
  have stays := applying_stays _ _ state all applying
  have inside : target ∈ done ++ target :: more := List.mem_append_right _ List.mem_cons_self
  have rollout := all.rollouts target inside
  have apart := displaced_apart operationId target.source.path target.source.path rollout
  have places := all.distinct
  rw [List.map_append, List.map_cons, List.nodup_append'] at places
  have fresh : place target ∉ done.map place := fun again => places.2.2 again List.mem_cons_self
  have whole : Whole lib env provider home (done ++ target :: more) state.trees := by
    rw [applying.trees]
    exact stamp_trees_whole home done _ places.1
  have here : (state.trees target.source.archived)[target.source.path]? = some target.source.bytes := by
    rw [applying.trees]
    exact (stamp_trees_other done home.trees _ _ fresh).trans (all.holds target inside)
  cases applying.planned with
  | cons planned later =>
      obtain ⟨threadId, archived, path, staged, displaced, original, replacement⟩ := file
      obtain ⟨rfl, rfl, rfl, held, _⟩ := planned
      dsimp only at held
      apply safe_probe _ _ _ _ stays
      apply safe_check _ _ _ _ stays
      · intro _ unoccupied
        have free : displacedPath operationId target.source.path ∉ state.trees target.source.archived := by
          simpa using (ensure_ok _ _ _).mp unoccupied
        have absent := Std.ExtTreeMap.getElem?_eq_none free
        apply safe_change _ _ _ _ stays
        · intro moved rest renamed
          obtain ⟨aside, movedAll⟩ := step_aside apart (step_start state.trees _ here free) renamed
          have movedConfig : moved.config = home.config := by rw [movedAll]; exact applying.config
          have movedStaged : moved.staged = state.staged := by rw [movedAll]; rfl
          have movedStays := step_stays _ moved _ _ movedConfig whole (all.holds target inside) aside (.inr (.inr ⟨rfl, rfl⟩))
          apply safe_tries _ _ (fun outcome seen =>
            (outcome = .ok () → moved.promoteStaged ⟨threadId, target.source.archived, target.source.path, staged,
              displacedPath operationId target.source.path, original, replacement⟩ = .ok seen.state) ∧
            ∀ error, outcome = .error error → seen.state = moved)
          · apply safe_touch _ _ _ movedStays
            · intro after left ran _
              obtain ⟨promoted, afterAll⟩ := step_promote apart _ rfl rfl aside (movedStaged ▸ held) ran
              refine ⟨step_stays _ after _ _ ?_ whole (all.holds target inside) promoted (.inr (.inl rfl)), fun _ => ran,
                fun error same => no_value error () same.symm⟩
              rw [afterAll]
              exact movedConfig
            · exact fun error _ _ => ⟨no_value error (), fun _ _ => rfl⟩
          · intro outcome seen seenStays left
            cases outcome with
            | error error =>
                have left := left.2 error rfl
                apply safe_tries _ _ (fun _ last => Stays lib env operationId provider home (done ++ target :: more) last.state)
                · apply safe_touch _ _ _ seenStays
                  · intro after faults ran _
                    rw [left] at ran
                    obtain ⟨restored, afterAll⟩ := step_restore apart aside ran
                    have kept : Stays lib env operationId provider home (done ++ target :: more) after := by
                      refine step_stays _ after _ _ ?_ whole (all.holds target inside) restored (.inl rfl)
                      rw [afterAll]
                      exact movedConfig
                    exact ⟨kept, kept⟩
                  · exact fun _ _ _ => seenStays
                · exact fun _ last here kept => ⟨here, kept, no_value _ _⟩
            | ok value =>
                obtain ⟨promoted, seenAll⟩ := step_promote apart _ rfl rfl aside (movedStaged ▸ held) (left.1 rfl)
                apply safe_touch _ _ _ seenStays
                · intro after faults ran _
                  obtain ⟨removed, afterAll⟩ := step_remove apart promoted ran
                  have afterConfig : after.config = home.config := by rw [afterAll, seenAll]; exact movedConfig
                  have afterStays := step_stays _ after _ _ afterConfig whole (all.holds target inside) removed (.inr (.inl rfl))
                  refine ⟨afterStays, afterStays, fun _ => ⟨afterConfig, ?_, ?_, ?_, ?_, ?_⟩⟩
                  · rw [afterAll, seenAll, movedAll]
                    exact applying.stores
                  · rw [stamp_trees_last, ← applying.trees]
                    exact stamp_tree_ext state.trees after.trees removed.elsewhere removed.here absent removed.aside
                  · have erased : after.staged = state.staged.erase staged := by
                      rw [afterAll, seenAll, movedAll]
                      rfl
                    rw [erased]
                    exact planned_others _ _ _ _ later (List.nodup_cons.mp applying.distinct).1
                  · exact (List.nodup_cons.mp applying.distinct).2
                  · rw [List.forall_mem_append]
                    refine ⟨applying.free, fun other same => ?_⟩
                    rw [List.mem_singleton.mp same]
                    intro taken
                    have named : ∀ earlier ∈ done, isRolloutPath earlier.source.path = true :=
                      fun earlier member => all.rollouts earlier (List.mem_append_left _ member)
                    rw [applying.trees, Std.ExtTreeMap.mem_iff_isSome_getElem?, displaced_lookup done home.trees named _ _,
                      ← Std.ExtTreeMap.mem_iff_isSome_getElem?] at free
                    exact free taken
                · exact fun _ _ _ => ⟨seenStays, no_value _ _⟩
        · exact fun _ _ => ⟨stays, no_value _ _⟩
      · exact fun _ _ => ⟨stays, no_value _ _⟩

theorem replace_all (files : List ProviderSyncFilePlan) (before pending : List RolloutRecord) (state : ProviderHome)
    (faults : List Bool) (all : Targets home (before ++ pending))
    (applying : Applying lib env operationId provider home before pending files state) :
    SafeAccess (Stays lib env operationId provider home (before ++ pending))
      (Prog.forEach files fun file => do
        checkCancelled
        replaceWithStaged file)
      (fun outcome seen => Stays lib env operationId provider home (before ++ pending) seen.state ∧
        (outcome = .ok () → Applying lib env operationId provider home (before ++ pending) [] [] seen.state)) ⟨state, faults⟩ := by
  induction files generalizing before pending state faults with
  | nil =>
      have stays := applying_stays pending [] state all applying
      have none := List.forall₂_nil_right_iff.mp applying.planned
      subst none
      rw [List.append_nil] at *
      exact safe_done _ _ _ stays ⟨stays, fun _ => applying⟩
  | cons file rest ih =>
      have stays := applying_stays pending _ state all applying
      cases applying.planned with
      | @cons target _ more _ planned later =>
          have split : before ++ target :: more = before ++ [target] ++ more := by rw [List.append_assoc]; rfl
          have one : SafeAccess (Stays lib env operationId provider home (before ++ target :: more))
              (checkCancelled >>= fun _ => replaceWithStaged file)
              (fun outcome seen => Stays lib env operationId provider home (before ++ target :: more) seen.state ∧
                (outcome = .ok () → Applying lib env operationId provider home (before ++ [target]) more rest seen.state)) ⟨state,
                  faults⟩ := by
            apply safe_pause _ _ _ stays
            · exact fun left => replace_one file rest state left all applying
            · exact fun _ _ => ⟨stays, nofun⟩
          apply safe_then _ _ _ _ _ one
          · intro _ seen _ left
            obtain ⟨seenState, seenFaults⟩ := seen
            have next := left.2 rfl
            rw [split] at all ⊢
            exact ih (before ++ [target]) more seenState seenFaults all next
          · exact fun error seen _ left => ⟨left.1, nofun⟩

end Replace

section Apply

variable {lib env operationId provider}
variable {home : ProviderHome} {targets : List RolloutRecord}

variable (lib env provider) in
-- Every target is in place; the databases and the journals may still change.
structure Reached (home : ProviderHome) (targets : List RolloutRecord) (state : ProviderHome) : Prop where
  config : state.config = home.config
  trees : state.trees = stampTrees lib env provider targets home.trees
  catalogs : state.catalogs = home.catalogs

theorem reached_stays (all : Targets home targets) (state : ProviderHome) (reached : Reached lib env provider home targets state) :
    Stays lib env operationId provider home targets state := by
  refine ⟨reached.config, whole_standing _ _ _ ?_⟩
  have whole : Whole lib env provider home (targets ++ []) (stampTrees lib env provider targets home.trees) :=
    stamp_trees_whole home targets [] all.distinct
  rw [List.append_nil] at whole
  rw [reached.trees]
  exact whole

theorem update_all (all : Targets home targets) (paths : List String) (state : ProviderHome) (faults : List Bool)
    (reached : Reached lib env provider home targets state) :
    SafeAccess (Stays lib env operationId provider home targets) (updateDatabaseProviders provider paths)
      (fun outcome seen => Reached lib env provider home targets seen.state ∧
        ∀ rows, outcome = .ok rows → seen.state.databases = updateListed provider paths state.databases) ⟨state, faults⟩ := by
  induction paths generalizing state faults with
  | nil =>
      apply safe_done _ _ _ (reached_stays all state reached)
      exact ⟨reached, fun _ _ => (update_listed_none provider _).symm⟩
  | cons path rest ih =>
      apply Prog.safe_bind
      apply Prog.safe_access _ _ _ _ (reached_stays all state reached)
      · intro rows after left ran _
        cases ran
        have now : Reached lib env provider home targets (state.updateDatabaseAt provider path) :=
          ⟨reached.config, reached.trees, reached.catalogs⟩
        have stays : Stays lib env operationId provider home targets (state.updateDatabaseAt provider path) := reached_stays all _ now
        refine ⟨stays, ?_⟩
        apply safe_then _ _ _ _ _ (ih _ left now)
        · intro more seen here later
          apply safe_done _ _ _ here
          refine ⟨later.1, fun _ _ => ?_⟩
          rw [later.2 more rfl]
          exact update_listed_cons provider path rest state.databases
        · exact fun _ _ _ later => ⟨later.1, nofun⟩
      · exact fun _ _ _ => ⟨reached, nofun⟩

-- What a run that rewrites makes of a database.
def refreshed (provider : String) (home : ProviderHome) (database : ProviderDatabase) : ProviderDatabase :=
  forgetIn home.catalogs (updateDatabase provider database)

variable (lib env provider) in
structure Refreshed (home : ProviderHome) (targets : List RolloutRecord) (state : ProviderHome) : Prop where
  reached : Reached lib env provider home targets state
  databases : state.databases = home.databases.map (refreshed provider home)

theorem forget_catalog_at (path : String) (state after : ProviderHome) (run : state.forgetCatalogAt path = .ok after) :
    after = { state with databases := state.databases.map (forgetAt path) } := by
  simp only [ProviderHome.forgetCatalogAt, bind_ok, pure_ok] at run
  obtain ⟨databases, forgets, rfl⟩ := run
  have each : databases.map id = state.databases.map (forgetAt path) := by
    refine map_each_image _ (forgetAt path) id _ _ (fun database _ result one => ?_) forgets
    unfold forgetAt
    by_cases here : database.path = path
    · rw [if_pos here] at one ⊢
      exact forget_database_ok database result one
    · rw [if_neg here, Except.ok.injEq] at one
      rw [if_neg here, one]
      rfl
  rw [← each, List.map_id]

theorem forget_all (all : Targets home targets) (paths : List String) (state : ProviderHome) (faults : List Bool)
    (reached : Reached lib env provider home targets state) :
    SafeAccess (Stays lib env operationId provider home targets)
      (Prog.forEach paths fun path => touch fun home => home.forgetCatalogAt path)
      (fun outcome seen => Reached lib env provider home targets seen.state ∧
        (outcome = .ok () → seen.state.databases = state.databases.map (forgetIn paths))) ⟨state, faults⟩ := by
  induction paths generalizing state faults with
  | nil =>
      apply safe_done _ _ _ (reached_stays all state reached)
      exact ⟨reached, fun _ => (List.map_id _).symm⟩
  | cons path rest ih =>
      apply safe_change _ _ _ _ (reached_stays all state reached)
      · intro after left ran
        have same := forget_catalog_at path state after ran
        have now : Reached lib env provider home targets after := same ▸ ⟨reached.config, reached.trees, reached.catalogs⟩
        refine Prog.safe_mono _ _ _ _ (fun outcome last _ later => ⟨later.1, fun ended => ?_⟩) (ih after left now)
        rw [later.2 ended, same, List.map_map]
        rfl
      · exact fun _ _ => ⟨reached, nofun⟩

theorem apply_databases (all : Targets home targets) (plan : SyncPlan)
    (paths : plan.databases = home.databases.map ProviderDatabase.path) (state : ProviderHome) (faults : List Bool)
    (reached : Reached lib env provider home targets state) (same : state.databases = home.databases) :
    SafeAccess (Stays lib env operationId provider home targets) (applyDatabases env operationId provider plan)
      (fun outcome seen => Stays lib env operationId provider home targets seen.state ∧ ∀ rows, outcome = .ok rows →
        Refreshed lib env provider home targets seen.state ∧ validateProviderSync env provider seen.state =
          .ok ()) ⟨state, faults⟩ := by
  have stays : ∀ seen, Reached lib env provider home targets seen → Stays lib env operationId provider home targets seen :=
    reached_stays all
  apply safe_kept (fun seen => Reached lib env provider home targets seen ∧ seen.databases = home.databases)
    (fun seen kept => stays seen kept.1)
  · exact ⟨reached, same⟩
  · exact moves_journal _ (fun _ _ kept => ⟨⟨kept.1.config, kept.1.trees, kept.1.catalogs⟩, kept.2⟩) _
  · intro _ begun kept
    obtain ⟨begunState, left⟩ := begun
    apply safe_pause _ _ _ (stays _ kept.1)
    · intro left
      apply safe_then _ _ _ _ _ (update_all all plan.databases begunState left kept.1)
      · intro rows written _ done
        have databases := done.2 rows rfl
        rw [kept.2, paths, update_listed_all] at databases
        have written_stays := stays _ done.1
        apply safe_look _ _ _ _ written_stays
        · intro catalogs left found
          cases found
          apply safe_then _ _ _ _ _ (forget_all all written.state.catalogs written.state left done.1)
          · intro _ seen _ forgot
            have kept : Refreshed lib env provider home targets seen.state := by
              refine ⟨forgot.1, ?_⟩
              rw [forgot.2 rfl, databases, done.1.catalogs, List.map_map]
              rfl
            apply safe_pause _ _ _ (stays _ kept.reached)
            · intro left
              apply safe_kept (Refreshed lib env provider home targets) (fun seen kept => stays seen kept.reached)
              · exact kept
              · exact moves_journal _ (fun _ _ kept =>
                  ⟨⟨kept.reached.config, kept.reached.trees, kept.reached.catalogs⟩, kept.databases⟩) _
              · intro _ last kept
                apply safe_look _ _ _ _ (stays _ kept.reached)
                · intro _ left valid
                  have here := stays _ kept.reached
                  exact safe_done _ _ _ here ⟨here, fun _ _ => ⟨kept, valid⟩⟩
                · exact fun _ _ => ⟨stays _ kept.reached, nofun⟩
              · exact fun _ _ kept => ⟨stays _ kept.reached, nofun⟩
            · exact fun _ _ => ⟨stays _ kept.reached, nofun⟩
          · exact fun _ _ _ forgot => ⟨stays _ forgot.1, nofun⟩
        · exact fun _ _ => ⟨written_stays, nofun⟩
      · exact fun _ _ _ done => ⟨stays _ done.1, nofun⟩
    · exact fun _ _ => ⟨stays _ kept.1, nofun⟩
  · exact fun _ _ kept => ⟨stays _ kept.1, nofun⟩

theorem unread_stays (state : ProviderHome) (unread : Unread home state) : Stays lib env operationId provider home targets state :=
  ⟨unread.config, fun _ _ _ => .inl (by rw [unread.trees])⟩

-- Nothing to rewrite: neither a rollout nor a row.
def SyncPlan.Idle (plan : SyncPlan) : Prop := plan.targets = [] ∧ plan.databaseRowCount = 0

variable (lib env provider) in
structure AppliedPlan (home : ProviderHome) (plan : SyncPlan) (files : List ProviderSyncFilePlan) (state : ProviderHome) : Prop where
  reached : Reached lib env provider home plan.targets state
  idle : plan.Idle → state.databases = home.databases
  rewritten : ¬ plan.Idle → state.databases = home.databases.map (refreshed provider home)
  writable : ∀ target ∈ plan.targets, ∀ line ∈ Lib.splitAfter newline target.source.bytes, ¬ Unwritable env.reader line
  free : ∀ file ∈ files, file.displaced ∉ state.trees file.archived
  validated : plan.Idle ∨ validateProviderSync env provider state = .ok ()

theorem planned_writable (staged : Std.ExtTreeMap String Bytes) (targets : List RolloutRecord) (files : List ProviderSyncFilePlan)
    (planned : List.Forall₂ (Planned lib env operationId provider staged) targets files) :
    ∀ target ∈ targets, ∀ line ∈ Lib.splitAfter newline target.source.bytes, ¬ Unwritable env.reader line := by
  induction planned with
  | nil => exact List.forall_mem_nil _
  | cons first _ ih => exact List.forall_mem_cons.mpr ⟨first.writable, ih⟩

theorem planned_free (staged : Std.ExtTreeMap String Bytes) (targets : List RolloutRecord) (files : List ProviderSyncFilePlan)
    (trees : Trees) (rollouts : ∀ target ∈ targets, isRolloutPath target.source.path = true)
    (free : ∀ target ∈ targets, displacedPath operationId target.source.path ∉ trees target.source.archived)
    (planned : List.Forall₂ (Planned lib env operationId provider staged) targets files) :
    ∀ file ∈ files, file.displaced ∉ stampTrees lib env provider targets trees file.archived := by
  intro file member
  obtain ⟨target, inside, plan⟩ := Keyed.matched_right _ _ _ planned file member
  rw [plan.displaced, plan.archived, Std.ExtTreeMap.mem_iff_isSome_getElem?, displaced_lookup targets trees rollouts,
    ← Std.ExtTreeMap.mem_iff_isSome_getElem?]
  exact free target inside

theorem apply_plan (plan : SyncPlan) (all : Targets home plan.targets)
    (paths : plan.databases = home.databases.map ProviderDatabase.path) (state : ProviderHome) (faults : List Bool)
    (unread : Unread home state) :
    SafeAccess (Stays lib env operationId provider home plan.targets) (applyPlan lib env operationId provider plan)
      (fun outcome seen => Stays lib env operationId provider home plan.targets seen.state ∧
        ∀ applied, outcome = .ok applied → AppliedPlan lib env provider home plan applied.1 seen.state) ⟨state, faults⟩ := by
  have stays : ∀ seen, Unread home seen → Stays lib env operationId provider home plan.targets seen := unread_stays
  unfold applyPlan
  by_cases idle : (plan.targets.isEmpty && plan.databaseRowCount = 0) = true
  · rw [if_pos idle]
    simp only [Bool.and_eq_true, List.isEmpty_iff, decide_eq_true_eq] at idle
    apply safe_done _ _ _ (stays state unread)
    refine ⟨stays state unread, fun applied same => ?_⟩
    cases same
    refine ⟨⟨unread.config, ?_, unread.stores.2⟩, fun _ => unread.stores.1, fun busy => absurd idle busy, ?_, List.forall_mem_nil _,
      .inl idle⟩
    · rw [idle.1]
      exact unread.trees
    · rw [idle.1]
      exact List.forall_mem_nil _
  · have busy : ¬ plan.Idle := by
      simpa only [SyncPlan.Idle, Bool.and_eq_true, List.isEmpty_iff, decide_eq_true_eq] using idle
    rw [if_neg idle]
    apply safe_then _ _ _ _ _ (stage_all stays plan.targets all.holds 0 state faults unread)
    · intro files middle _ made
      obtain ⟨ready, staged⟩ := made
      have whole := staged files rfl
      obtain ⟨middleState, left⟩ := middle
      apply safe_pause _ _ _ (stays _ ready)
      · intro left
        apply safe_kept (fun seen => Unread home seen ∧ seen.staged = middleState.staged) (fun seen kept => stays seen kept.1)
        · exact ⟨ready, rfl⟩
        · exact moves_journal _ (fun _ _ kept => ⟨⟨kept.1.config, kept.1.trees, kept.1.stores⟩, kept.2⟩) _
        · intro _ begun kept
          obtain ⟨begunState, left⟩ := begun
          have starts : Applying lib env operationId provider home [] plan.targets files begunState :=
            ⟨kept.1.config, kept.1.stores, kept.1.trees, kept.2 ▸ whole.planned, whole.distinct, List.forall_mem_nil _⟩
          apply safe_then _ _ _ _ _ (replace_all files [] plan.targets begunState left all starts)
          · intro _ done _ finished
            obtain ⟨doneState, left⟩ := done
            have applying := finished.2 rfl
            apply safe_then _ _ _ _ _ (apply_databases all plan paths doneState left
              ⟨applying.config, applying.trees, applying.stores.2⟩ applying.stores.1)
            · intro rows last here valid
              apply safe_done _ _ _ here
              refine ⟨here, fun applied same => ?_⟩
              cases same
              obtain ⟨updated, valid⟩ := valid.2 rows rfl
              refine ⟨updated.reached, fun idle => absurd idle busy, fun _ => updated.databases, ?_, ?_, .inr valid⟩
              · exact planned_writable _ _ _ whole.planned
              · rw [updated.reached.trees]
                exact planned_free _ _ _ home.trees all.rollouts applying.free whole.planned
            · exact fun _ _ _ valid => ⟨valid.1, nofun⟩
          · exact fun _ _ _ finished => ⟨finished.1, nofun⟩
        · exact fun _ _ kept => ⟨stays _ kept.1, nofun⟩
      · exact fun _ _ => ⟨stays _ ready, nofun⟩
    · exact fun _ _ _ made => ⟨stays _ made.1, nofun⟩

end Apply

section Run

variable {lib env operationId provider}
variable {home : ProviderHome}

theorem scan_congr (state other : ProviderHome) (same : other.trees = state.trees) : scanHome env other = scanHome env state := by
  simp only [scanHome, rolloutFiles, same]

theorem validate_iff (state : ProviderHome) : validateProviderSync env provider state = .ok () ↔
    ∀ thread ∈ (scanHome env state).threads, threadProvider state thread = some provider := ensure_ok _ _ _

theorem validate_congr (state other : ProviderHome) (trees : other.trees = state.trees)
    (databases : other.databases = state.databases) (valid : validateProviderSync env provider state = .ok ()) :
    validateProviderSync env provider other = .ok () := by
  rw [validate_iff] at valid ⊢
  rw [scan_congr state other trees]
  intro thread member
  rw [threadProvider, databases]
  exact valid thread member

theorem applied_congr (plan : SyncPlan) (files : List ProviderSyncFilePlan) (state other : ProviderHome)
    (config : other.config = state.config) (trees : other.trees = state.trees) (stores : SameStores state other)
    (applied : AppliedPlan lib env provider home plan files state) :
    AppliedPlan lib env provider home plan files other where
  reached := ⟨config.trans applied.reached.config, trees.trans applied.reached.trees, stores.2.trans applied.reached.catalogs⟩
  idle := fun idle => stores.1.trans (applied.idle idle)
  rewritten := fun busy => stores.1.trans (applied.rewritten busy)
  writable := applied.writable
  free := trees ▸ applied.free
  validated := applied.validated.imp_right (validate_congr state other trees stores.1)

theorem stays_congr (targets : List RolloutRecord) (state other : ProviderHome) (config : other.config = state.config)
    (trees : other.trees = state.trees) (stays : Stays lib env operationId provider home targets state) :
    Stays lib env operationId provider home targets other :=
  ⟨config.trans stays.config, trees ▸ stays.standing⟩

theorem acts_members {σ ε α : Type} (allowed : σ → σ → Prop) (items : List α) (body : α → Prog σ ε Unit)
    (each : ∀ item ∈ items, (body item).Acts allowed) : (Prog.forEach items body).Acts allowed := by
  induction items with
  | nil => trivial
  | cons item rest ih =>
      have both := List.forall_mem_cons.mp each
      exact Prog.acts_bind _ _ both.1 fun _ => ih both.2

theorem moves_tried (inv : ProviderHome → Prop) (run : ProviderHome → Except String ProviderHome)
    (fits : ∀ state after, run state = .ok after → inv state → inv after) :
    Moves (fun state after => inv state → inv after) ((touch run).attempt : Prog (Faulty ProviderHome) String (Except String Unit)) :=
  Prog.acts_attempt _ (moves_touch (fun _ kept => kept) run fits)

-- Nothing is left to remove but staged files.
theorem moves_clean_up (plan : SyncPlan) (files : List ProviderSyncFilePlan) :
    Moves (fun state after => AppliedPlan lib env provider home plan files state → AppliedPlan lib env provider home plan files after)
      (cleanUp operationId files) := by
  apply Prog.acts_bind
  · apply acts_members
    intro file member
    apply Prog.acts_bind
    · refine moves_tried _ _ fun state after removed kept => ?_
      simp only [ProviderHome.removeRollout, ProviderHome.openRollout, bind_ok, found_ok] at removed
      obtain ⟨_, there, _⟩ := removed
      refine absurd ?_ (kept.free file member)
      rw [Std.ExtTreeMap.mem_iff_isSome_getElem?, there]
      rfl
    · intro _
      apply Prog.acts_bind
      · refine moves_tried _ _ fun state after removed kept => ?_
        simp only [ProviderHome.removeStaged, bind_ok, pure_ok] at removed
        obtain ⟨_, _, rfl⟩ := removed
        exact applied_congr plan files state _ rfl rfl ⟨rfl, rfl⟩ kept
      · exact fun _ => trivial
  · intro _
    apply Prog.acts_bind
    · refine moves_tried _ _ fun state after removed kept => ?_
      cases removed
      exact applied_congr plan files state _ rfl rfl ⟨rfl, rfl⟩ kept
    · exact fun _ => trivial

theorem run_plan (plan : SyncPlan) (all : Targets home plan.targets)
    (paths : plan.databases = home.databases.map ProviderDatabase.path) (state : ProviderHome) (faults : List Bool)
    (unread : Unread home state) :
    SafeAccess (Stays lib env operationId provider home plan.targets) (runPlan lib env operationId provider plan)
      (fun outcome seen => ∀ report, outcome = .ok report →
        AppliedPlan lib env provider home plan [] seen.state) ⟨state, faults⟩ := by
  have stays : ∀ files seen, AppliedPlan lib env provider home plan files seen →
    Stays lib env operationId provider home plan.targets seen :=
    fun _ seen applied => reached_stays all seen applied.reached
  apply safe_tries _ _ _ _ _ (apply_plan plan all paths state faults unread)
  intro outcome seen _ left
  cases outcome with
  | error error =>
      apply safe_kept (Stays lib env operationId provider home plan.targets) (fun _ kept => kept) _ _ _ _ left.1
      · exact moves_journal _ (fun seen _ kept => stays_congr _ seen _ rfl rfl kept) _
      · intro _ written kept
        apply safe_kept (Stays lib env operationId provider home plan.targets) (fun _ kept => kept) _ _ _ _ kept
        · refine moves_tried _ _ fun before after removed kept => ?_
          cases removed
          exact stays_congr _ before _ rfl rfl kept
        · exact fun _ last kept => ⟨kept, nofun⟩
        · exact fun _ _ _ => nofun
      · exact fun _ _ _ => nofun
  | ok applied =>
      have done := left.2 applied rfl
      apply safe_kept (AppliedPlan lib env provider home plan applied.1) (fun seen => stays _ seen) _ _ _ _ done
      · exact moves_journal _ (fun seen _ kept => applied_congr _ _ seen _ rfl rfl ⟨rfl, rfl⟩ kept) _
      · intro _ written kept
        apply safe_kept (AppliedPlan lib env provider home plan applied.1) (fun seen => stays _ seen) _ _ _ _ kept
        · exact moves_clean_up plan applied.1
        · intro _ last kept
          apply safe_done _ _ _ (stays _ _ kept)
          exact fun _ _ => { kept with free := List.forall_mem_nil _ }
        · exact fun _ _ _ => nofun
      · exact fun _ _ _ => nofun

variable (env provider) in
-- The preview of the home reports no changes.
def Idle (home : ProviderHome) : Prop :=
  selected env provider (scanHome env home).threads = [] ∧ countDatabaseRows provider home.databases = 0

-- What a run that comes to its end leaves behind.
variable (lib env provider) in
structure Finished (home state : ProviderHome) : Prop where
  detected : detectConfiguredProvider home.config = .ok provider
  readable : ∀ thread ∈ (scanHome env home).threads, ∃ current, readRolloutProvider env.reader thread.source.bytes = .ok current
  config : state.config = home.config
  trees : state.trees = stampTrees lib env provider (selected env provider (scanHome env home).threads) home.trees
  idle : Idle env provider home → state.databases = home.databases
  rewritten : ¬ Idle env provider home → state.databases = home.databases.map (refreshed provider home)
  writable : ∀ target ∈ selected env provider (scanHome env home).threads,
    ∀ line ∈ Lib.splitAfter newline target.source.bytes, ¬ Unwritable env.reader line
  validated : Idle env provider home ∨ validateProviderSync env provider state = .ok ()

theorem selected_thread (thread : RolloutRecord) : thread ∈ selected env provider (scanHome env home).threads ↔
    thread ∈ (scanHome env home).threads ∧ namesFirst env.reader provider thread.source.bytes = false := by
  rw [selected, List.mem_filter, Bool.not_eq_true']

theorem selected_targets : Targets home (selected env provider (scanHome env home).threads) := by
  have file : ∀ thread ∈ selected env provider (scanHome env home).threads, thread.source ∈ rolloutFiles env home :=
    fun thread member => (thread_file thread ((selected_thread thread).mp member).1).1
  refine ⟨places_distinct.sublist (List.filter_sublist.map place), fun thread member => ?_, fun thread member => ?_⟩
  · exact ((rollout_file_iff thread.source).mp (file thread member)).2.1
  · exact ((rollout_file_iff thread.source).mp (file thread member)).1

theorem synchronize_safe (confirmed : Bool) (faults : List Bool)
    (known : ∀ detected, detectConfiguredProvider home.config = .ok detected → detected = provider) :
    SafeAccess (Stays lib env operationId provider home (selected env provider (scanHome env home).threads))
      (synchronizeLocalProvider lib env operationId confirmed)
      (fun outcome seen => ∀ report, outcome = .ok report → Finished lib env provider home seen.state) ⟨home, faults⟩ := by
  have stays : ∀ seen, Unread home seen →
    Stays lib env operationId provider home (selected env provider (scanHome env home).threads) seen :=
    unread_stays
  have begun : Unread home home := ⟨rfl, rfl, rfl, rfl⟩
  apply safe_check _ _ _ _ (stays _ begun)
  · intro _ _
    apply safe_look _ _ _ _ (stays _ begun)
    · intro detected left found
      have same := known detected found
      subst same
      apply safe_check _ _ _ _ (stays _ begun)
      · intro _ _
        apply safe_look _ _ _ _ (stays _ begun)
        · intro plan left planned
          simp only [planSync, bind_ok, pure_ok] at planned
          obtain ⟨targets, select, rfl⟩ := planned
          obtain ⟨readable, rfl⟩ := select_iff targets |>.mp select
          apply safe_pause _ _ _ (stays _ begun)
          · intro left
            apply safe_pause _ _ _ (stays _ begun)
            · intro left
              apply safe_kept (Unread home) stays
              · exact begun
              · exact moves_journal _ (fun _ _ kept => ⟨kept.config, kept.trees, kept.stores⟩) _
              · intro _ written kept
                obtain ⟨writtenState, left⟩ := written
                refine Prog.safe_mono _ _ _ _ (fun outcome last _ done report ended => ?_)
                  (run_plan ⟨_, _, _⟩ selected_targets rfl writtenState left kept)
                have applied := done report ended
                exact ⟨found, readable, applied.reached.config, applied.reached.trees, applied.idle, applied.rewritten,
                  applied.writable, applied.validated⟩
              · exact fun _ _ _ => nofun
            · exact fun _ _ => nofun
          · exact fun _ _ => nofun
        · exact fun _ _ => nofun
      · exact fun _ _ => nofun
    · exact fun _ _ => nofun
  · exact fun _ _ => nofun

end Run

end SessionSync.Provider
