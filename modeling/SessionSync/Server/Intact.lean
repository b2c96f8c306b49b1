import SessionSync.Server.Graph
import SessionSync.Server.HistoryPurge

set_option autoImplicit false

namespace SessionSync.Server

open SessionSync.Core Checked Storage

abbrev Files := Std.ExtTreeMap ObjectKey Bytes

abbrev Edges := Std.ExtTreeSet (ObjectKey × ObjectKey)

-- The edge rows of one owner are exactly these.
def Owns (edges : Edges) (owner : ObjectKey) (targets : List ObjectKey) : Prop := ∀ target, (owner, target) ∈ edges ↔ target ∈ targets

def Held (env : ServerEnv) (files : Std.ExtTreeMap ObjectKey Bytes) (edges : Edges) (objects : List StorageObjectRef) : Prop :=
  ∀ object ∈ objects, ∃ keys, objectTargets env files object.key = .ok keys ∧ keys.Nodup ∧ Owns edges object.key keys

-- The whole graph of a revision is stored and valid, and the edge table has it.
def Intact (env : ServerEnv) (files : Std.ExtTreeMap ObjectKey Bytes) (edges : Edges) (revisionId : String) : Prop :=
  ∃ root objects, rootObjectsV4 env files revisionId = .ok (root, objects) ∧ Held env files edges objects

def graphOf (objects : List StorageObjectRef) : List StorageObjectRef := Keyed.values (insertObjects ∅ objects)

theorem insert_objects_lookup (graph : Graph) (objects : List StorageObjectRef) (key : ObjectKey) (object : StorageObjectRef)
    (stored : (insertObjects graph objects)[key]? = some object) :
    (object ∈ objects ∧ object.key = key) ∨ graph[key]? = some object := by
  induction objects generalizing graph with
  | nil => exact .inr stored
  | cons first rest ih =>
      rcases ih (graph.insert first.key first) stored with ⟨member, named⟩ | before
      · exact .inl ⟨List.mem_cons_of_mem _ member, named⟩
      · rw [Keyed.lookup_insert] at before
        by_cases same : key = first.key
        · rw [if_pos same] at before
          cases before
          exact .inl ⟨List.mem_cons_self, same.symm⟩
        · rw [if_neg same] at before
          exact .inr before

theorem insert_objects_grow (graph : Graph) (objects : List StorageObjectRef) (key : ObjectKey)
    (known : key ∈ graph ∨ key ∈ objects.map StorageObjectRef.key) : key ∈ insertObjects graph objects := by
  induction objects generalizing graph with
  | nil => exact known.elim id nofun
  | cons first rest ih =>
      apply ih
      rw [Std.ExtTreeMap.mem_insert, Std.LawfulEqOrd.compare_eq_iff_eq]
      rcases known with inside | member
      · exact .inl (.inr inside)
      · rcases List.mem_cons.mp member with same | later
        · exact .inl (.inl same.symm)
        · exact .inr later

theorem graph_of_member (objects : List StorageObjectRef) (object : StorageObjectRef) (member : object ∈ graphOf objects) :
    object ∈ objects := by
  obtain ⟨entry, inside, same⟩ := List.mem_map.mp member
  have stored := Std.ExtTreeMap.mem_toList_iff_getElem?_eq_some.mp inside
  rcases insert_objects_lookup ∅ objects entry.1 entry.2 stored with ⟨listed, _⟩ | impossible
  · exact same ▸ listed
  · rw [Std.ExtTreeMap.getElem?_empty] at impossible
    cases impossible

theorem graph_of_keys (objects : List StorageObjectRef) (key : ObjectKey) :
    key ∈ (graphOf objects).map StorageObjectRef.key ↔ key ∈ objects.map StorageObjectRef.key := by
  constructor
  · intro member
    obtain ⟨object, inside, named⟩ := List.mem_map.mp member
    exact List.mem_map.mpr ⟨object, graph_of_member objects object inside, named⟩
  · intro member
    have known := insert_objects_grow ∅ objects key (.inr member)
    rw [Std.ExtTreeMap.mem_iff_isSome_getElem?, Option.isSome_iff_exists] at known
    obtain ⟨object, stored⟩ := known
    rcases insert_objects_lookup ∅ objects key object stored with ⟨_, named⟩ | impossible
    · refine List.mem_map.mpr ⟨object, List.mem_map.mpr ⟨(key, object), ?_, rfl⟩, named⟩
      exact Std.ExtTreeMap.mem_toList_iff_getElem?_eq_some.mpr stored
    · rw [Std.ExtTreeMap.getElem?_empty] at impossible
      cases impossible

theorem graph_of_length (objects : List StorageObjectRef) : (graphOf objects).length ≤ objects.length := by
  have grows : ∀ graph : Graph, (insertObjects graph objects).size ≤ graph.size + objects.length := by
    induction objects with
    | nil => exact fun graph => le_refl _
    | cons object rest ih =>
        intro graph
        have one := Std.ExtTreeMap.size_insert_le (t := graph) (k := object.key) (v := object)
        have others := ih (graph.insert object.key object)
        rw [List.length_cons]
        exact le_trans others (by omega)
  have bound := grows ∅
  rw [graphOf, Keyed.values, List.length_map, Std.ExtTreeMap.length_toList]
  exact le_trans bound (by rw [Std.ExtTreeMap.size_empty, Nat.zero_add])

section Traversal

variable (env : ServerEnv) (files other : Std.ExtTreeMap ObjectKey Bytes)

theorem threads_objects_ok (references : List ThreadRefV4) (threads : List ThreadObjects) :
    threadsObjects env files references = .ok threads ↔
      List.Forall₂ (fun reference thread => threadObjects env files reference = .ok thread) references threads := by
  induction references generalizing threads with
  | nil =>
      rw [threadsObjects, Except.ok.injEq, List.forall₂_nil_left_iff, eq_comm]
  | cons reference rest ih =>
      simp only [threadsObjects, bind_ok, pure_ok]
      constructor
      · intro ⟨thread, first, later, tail, same⟩
        exact same ▸ .cons first ((ih later).mp tail)
      · intro all
        cases all with
        | cons first tail => exact ⟨_, first, _, (ih _).mpr tail, rfl⟩

theorem forall₂_left {α β : Type} (rel : α → β → Prop) (xs : List α) (ys : List β) (all : List.Forall₂ rel xs ys) (y : β)
    (member : y ∈ ys) : ∃ x ∈ xs, rel x y := by
  induction all with
  | nil => cases member
  | cons first _ ih =>
      rcases List.mem_cons.mp member with rfl | later
      · exact ⟨_, List.mem_cons_self, first⟩
      · obtain ⟨x, inside, holds⟩ := ih later
        exact ⟨x, List.mem_cons_of_mem _ inside, holds⟩

theorem listed_member (threads : List ThreadObjects) (object : StorageObjectRef) :
    object ∈ listed threads ↔ ∃ thread ∈ threads, object ∈ thread.1 :: thread.2 := List.mem_flatMap

theorem threads_objects_keeps (references : List ThreadRefV4) (threads : List ThreadObjects)
    (keeps : ∀ object ∈ listed threads, Keeps files other object.key) (run : threadsObjects env files references = .ok threads) :
    threadsObjects env other references = .ok threads := by
  rw [threads_objects_ok] at run ⊢
  induction run with
  | nil => exact .nil
  | cons first tail ih =>
      refine .cons (thread_objects_keeps env files other _ _ (fun object member => ?_) first) (ih fun object member => ?_)
      · exact keeps object (List.mem_append_left _ member)
      · exact keeps object (List.mem_append_right _ member)

theorem root_objects_ok (id : String) (root : RevisionRootV4) (objects : List StorageObjectRef) :
    rootObjectsV4 env files id = .ok (root, objects) ↔
      ∃ object threads, readRevisionRoot env files id = .ok (root, object) ∧ checkRevisionRoot env id root = .ok () ∧
        threadsObjects env files root.threads = .ok threads ∧ objects = object :: listed threads := by
  simp only [rootObjectsV4, bind_ok, pure_ok, Prod.exists, Prod.mk.injEq]
  constructor
  · intro ⟨found, object, read, _, checked, threads, run, same, made⟩
    subst same
    exact ⟨object, threads, read, checked, run, made.symm⟩
  · intro ⟨object, threads, read, checked, run, made⟩
    exact ⟨root, object, read, (), checked, threads, run, rfl, made.symm⟩

theorem root_objects_keeps (id : String) (root : RevisionRootV4) (objects : List StorageObjectRef)
    (keeps : ∀ object ∈ objects, Keeps files other object.key) (run : rootObjectsV4 env files id = .ok (root, objects)) :
    rootObjectsV4 env other id = .ok (root, objects) := by
  obtain ⟨object, threads, read, checked, tail, rfl⟩ := (root_objects_ok env files id root objects).mp run
  have kept := keeps object List.mem_cons_self
  rw [read_typed_json_key env files _ _ _ _ _ read] at kept
  apply (root_objects_ok env other id root _).mpr
  refine ⟨object, threads, read_typed_json_keeps env files other _ _ _ _ kept read, checked, ?_, rfl⟩
  exact threads_objects_keeps env files other _ _ (fun object member => keeps object (List.mem_cons_of_mem _ member)) tail

theorem root_targets (id : String) (root : RevisionRootV4) (object : StorageObjectRef) (threads : List ThreadObjects)
    (read : readRevisionRoot env files id = .ok (root, object)) (run : threadsObjects env files root.threads = .ok threads) :
    objectTargets env files object.key = .ok (threads.map fun thread => thread.1.key) := by
  rw [read_typed_json_key env files _ _ _ _ _ read, objectTargets, bind_ok]
  refine ⟨_, read, ?_⟩
  rw [threads_objects_ok] at run
  rw [pure_ok]
  generalize root.threads = references at run
  induction run with
  | nil => rfl
  | cons first _ ih => rw [List.map_cons, List.map_cons, ih, (thread_objects_targets env files _ _ first).1]

-- Every object of a graph names objects of the graph only.
theorem root_objects_closed (id : String) (root : RevisionRootV4) (objects : List StorageObjectRef)
    (run : rootObjectsV4 env files id = .ok (root, objects)) (object : StorageObjectRef) (member : object ∈ objects) :
    ∃ keys, objectTargets env files object.key = .ok keys ∧ ∀ key ∈ keys, key ∈ objects.map StorageObjectRef.key := by
  obtain ⟨first, threads, read, _, tail, rfl⟩ := (root_objects_ok env files id root objects).mp run
  rcases List.mem_cons.mp member with rfl | inside
  · refine ⟨_, root_targets env files id root object threads read tail, fun key named => ?_⟩
    obtain ⟨thread, listed_, rfl⟩ := List.mem_map.mp named
    refine List.mem_map_of_mem (List.mem_cons_of_mem _ ((listed_member threads thread.1).mpr ⟨thread, listed_, List.mem_cons_self⟩))
  · obtain ⟨thread, among, own⟩ := (listed_member threads object).mp inside
    obtain ⟨reference, _, ran⟩ := forall₂_left _ _ _ ((threads_objects_ok env files _ _).mp tail) thread among
    have all : ∀ one ∈ thread.2, one.key ∈ (first :: listed threads).map StorageObjectRef.key := fun one listed_ =>
      List.mem_map_of_mem (List.mem_cons_of_mem _ ((listed_member threads one).mpr ⟨thread, among, List.mem_cons_of_mem _ listed_⟩))
    rcases List.mem_cons.mp own with rfl | target
    · refine ⟨_, (thread_objects_targets env files reference thread ran).2, fun key named => ?_⟩
      obtain ⟨one, listed_, rfl⟩ := List.mem_map.mp named
      exact all one listed_
    · obtain ⟨descriptor, _, _, targets⟩ := (thread_objects_ok env files reference thread).mp ran
      obtain ⟨content, _, mine, found, isMine, subset⟩ := contents_targets_ok env files _ _ targets object target
      obtain ⟨keys, names, closed⟩ := content_targets_closed env files content mine found object isMine
      refine ⟨keys, names, fun key named => ?_⟩
      obtain ⟨one, listed_, rfl⟩ := List.mem_map.mp (closed key named)
      exact all one (subset one listed_)

end Traversal

theorem owned_edge (env : ServerEnv) (files : Std.ExtTreeMap ObjectKey Bytes) (edges : Edges) (objects : List StorageObjectRef)
    (held : Held env files edges objects) (object : StorageObjectRef) (member : object ∈ objects) (keys : List ObjectKey)
    (names : objectTargets env files object.key = .ok keys) (target : ObjectKey) (named : target ∈ keys) :
    (object.key, target) ∈ edges.toList := by
  obtain ⟨own, same, _, owns⟩ := held object member
  rw [names] at same
  cases same
  exact Std.ExtTreeSet.mem_toList.mpr ((owns target).mpr named)

section Closure

variable (env : ServerEnv) (files : Std.ExtTreeMap ObjectKey Bytes) (edges : Edges) (id : String) (root : RevisionRootV4)
  (objects : List StorageObjectRef) (run : rootObjectsV4 env files id = .ok (root, objects)) (held : Held env files edges objects)

include run held

theorem owned_closed (object : StorageObjectRef) (member : object ∈ objects) (target : ObjectKey)
    (edge : (object.key, target) ∈ edges) : target ∈ objects.map StorageObjectRef.key := by
  obtain ⟨keys, names, closed⟩ := root_objects_closed env files id root objects run object member
  obtain ⟨own, same, _, owns⟩ := held object member
  rw [names] at same
  cases same
  exact closed target ((owns target).mp edge)

-- The recursive query over the edge table and the traversal over the files agree.
theorem closure_exact (key : ObjectKey) :
    key ∈ Closure.closure edges.toList [(.revisionRoot, id)] ↔ key ∈ objects.map StorageObjectRef.key := by
  obtain ⟨object, threads, read, _, tail, rfl⟩ := (root_objects_ok env files id root objects).mp run
  have named := read_typed_json_key env files _ _ _ _ _ read
  rw [Closure.mem_closure]
  constructor
  · intro ⟨start, only, path⟩
    cases List.mem_singleton.mp only
    induction path with
    | refl => exact named ▸ List.mem_cons_self
    | tail _ edge ih =>
        obtain ⟨owner, member, same⟩ := List.mem_map.mp ih
        have stored := Std.ExtTreeSet.mem_toList.mp edge
        rw [← same] at stored
        exact owned_closed env files edges id root _ run held owner member _ stored
  · intro member
    refine ⟨_, List.mem_singleton.mpr rfl, ?_⟩
    obtain ⟨found, inside, rfl⟩ := List.mem_map.mp member
    rcases List.mem_cons.mp inside with rfl | below
    · rw [named]
    · obtain ⟨thread, among, own⟩ := (listed_member threads found).mp below
      obtain ⟨reference, _, ran⟩ := forall₂_left _ _ _ ((threads_objects_ok env files _ _).mp tail) thread among
      have first : (object.key, thread.1.key) ∈ edges.toList :=
        owned_edge env files edges _ held object List.mem_cons_self _ (root_targets env files id root object threads read tail)
          _ (List.mem_map_of_mem among)
      rw [named] at first
      rcases List.mem_cons.mp own with rfl | target
      · exact .single first
      · have inGraph : thread.1 ∈ object :: listed threads :=
          List.mem_cons_of_mem _ ((listed_member threads thread.1).mpr ⟨thread, among, List.mem_cons_self⟩)
        have second := owned_edge env files edges _ held thread.1 inGraph _
          (thread_objects_targets env files reference thread ran).2 _ (List.mem_map_of_mem target)
        exact (Relation.ReflTransGen.single first).tail second

end Closure

end SessionSync.Server
