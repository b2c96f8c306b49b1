import Mathlib.Data.List.DropRight
import Mathlib.Data.List.Induction
import SessionSync.Config.Workspaces

set_option autoImplicit false

namespace SessionSync.Jobs

open Config

variable {Path Directory : Type}

-- What a platform makes of a path by itself.
structure PathSystem (Path : Type) where
  toStringLossy : Path → String
  display : Path → String
  isAbsolute : Path → Bool
  join : Path → Path → Path
  windows : Bool
  toLowercase : String → String

-- What the file system answers while one lease is requested.
structure Moment (Path Directory : Type) where
  present : Path → Bool
  canonicalize : Path → Except String Path
  currentDir : Except String Path
  directory : Path → Directory

variable (system : PathSystem Path)

def foldCase (text : String) : String := if system.windows then system.toLowercase text else text

def forwardSlashes (path : Path) : String := String.ofList (slashes (system.toStringLossy path).toList)

def trimEndSlashes (text : String) : String := String.ofList (text.toList.rdropWhile fun c => c = '/')

def normalizedExistingPath (now : Moment Path Directory) (path : Path) (kind : String) : Except String String := do
  let resolved ← (now.canonicalize path).mapError fun error =>
    "failed to normalize " ++ kind ++ " " ++ system.display path ++ ": " ++ error
  return foldCase system (forwardSlashes system resolved)

def normalizedPath (now : Moment Path Directory) (path : Path) : Except String String := do
  if now.present path then
    normalizedExistingPath system now path "repository"
  else
    let absolute ←
      if system.isAbsolute path then pure path
      else
        let current ← now.currentDir.mapError fun error => "failed to resolve repository path: " ++ error
        pure (system.join current path)
    return trimEndSlashes (foldCase system (forwardSlashes system absolute))

structure RepositoryLeaseState where
  readers : Nat
  writer : Bool
deriving DecidableEq, Repr, Inhabited

@[ext]
structure RepositoryLease where
  key : String
  exclusive : Bool
deriving DecidableEq, Repr

abbrev Repositories := Std.ExtTreeMap String RepositoryLeaseState

def usizeMax : Nat := 2 ^ 64 - 1

structure Request (Path Directory : Type) where
  now : Moment Path Directory
  path : Path
  exclusive : Bool

def Request.directory (request : Request Path Directory) : Directory := request.now.directory request.path

-- The entry is made before it is looked at, also for a request that is refused.
def leaseRepository (repositories : Repositories) (name key : String) (exclusive : Bool) :
    Except String RepositoryLease × Repositories :=
  let state := repositories[key]?.getD ⟨0, false⟩
  let repositories := repositories.insert key state
  if state.writer = true ∨ (exclusive = true ∧ 0 < state.readers) then
    (.error ("repository " ++ name ++ " already has an incompatible active operation"), repositories)
  else if exclusive then
    (.ok ⟨key, exclusive⟩, repositories.insert key { state with writer := true })
  else if state.readers + 1 ≤ usizeMax then
    (.ok ⟨key, exclusive⟩, repositories.insert key { state with readers := state.readers + 1 })
  else
    (.error "repository reader count overflow", repositories)

def tryAcquireRepository (repositories : Repositories) (request : Request Path Directory) :
    Except String RepositoryLease × Repositories :=
  match normalizedPath system request.now request.path with
  | .error error => (.error error, repositories)
  | .ok key => leaseRepository repositories (system.display request.path) key request.exclusive

def dropLease (repositories : Repositories) (lease : RepositoryLease) : Repositories :=
  match repositories[lease.key]? with
  | none => repositories
  | some state =>
      let state := if lease.exclusive then { state with writer := false } else { state with readers := state.readers - 1 }
      if state.writer = false ∧ state.readers = 0 then repositories.erase lease.key else repositories.insert lease.key state

-- A lease that is live, with the request that it answers.
structure Held (Path Directory : Type) where
  lease : RepositoryLease
  request : Request Path Directory

structure Manager (Path Directory : Type) where
  repositories : Repositories
  live : List (Held Path Directory)

def Manager.default : Manager Path Directory := ⟨∅, []⟩

inductive Call (Path Directory : Type) where
  | acquire (request : Request Path Directory)
  | drop (position : Nat)

def next (manager : Manager Path Directory) : Call Path Directory → Manager Path Directory
  | .acquire request =>
      let outcome := tryAcquireRepository system manager.repositories request
      { repositories := outcome.2, live := (outcome.1.toOption.map fun lease => ⟨lease, request⟩).toList ++ manager.live }
  | .drop position =>
      match manager.live[position]? with
      | none => manager
      | some held => { repositories := dropLease manager.repositories held.lease, live := manager.live.eraseIdx position }

def run (calls : List (Call Path Directory)) : Manager Path Directory := calls.foldl (next system) .default

-- Two leases on one directory are both shared.
def Compatible (one other : Held Path Directory) : Prop :=
  one.request.directory = other.request.directory → one.lease.exclusive = false ∧ other.lease.exclusive = false

def Excluded (manager : Manager Path Directory) : Prop := manager.live.Pairwise Compatible

def Conflicting (held : Held Path Directory) (request : Request Path Directory) : Prop :=
  held.lease.exclusive = true ∨ request.exclusive = true

def leases (live : List (Held Path Directory)) (key : String) (exclusive : Bool) : Nat :=
  live.countP fun held => decide (held.lease = ⟨key, exclusive⟩)

-- A request that its key turns away.
def Occupied (manager : Manager Path Directory) (key : String) (request : Request Path Directory) : Prop :=
  (∃ held ∈ manager.live, held.lease.key = key ∧ Conflicting held request) ∨
    (request.exclusive = false ∧ usizeMax ≤ leases manager.live key false)

-- Where a Conflicting lease is live on the directory, the key of the path tells of one.
def Recognised (manager : Manager Path Directory) (request : Request Path Directory) : Prop :=
  ∀ key, normalizedPath system request.now request.path = .ok key →
    (∃ held ∈ manager.live, held.request.directory = request.directory ∧ Conflicting held request) → Occupied manager key request

section Table

variable (manager : Manager Path Directory)

-- The table says how many leases are live under each key, and no exclusive one has company.
structure Counted : Prop where
  table : ∀ key, manager.repositories[key]? =
    if leases manager.live key true = 0 ∧ leases manager.live key false = 0 then none
    else some ⟨leases manager.live key false, decide (0 < leases manager.live key true)⟩
  alone : ∀ key, leases manager.live key true = 0 ∨ (leases manager.live key true = 1 ∧ leases manager.live key false = 0)

variable {manager}

theorem leases_cons (held : Held Path Directory) (live : List (Held Path Directory)) (key : String) (exclusive : Bool) :
    leases (held :: live) key exclusive = leases live key exclusive + if held.lease = ⟨key, exclusive⟩ then 1 else 0 := by
  simp [leases, List.countP_cons]

theorem leases_taken (live : List (Held Path Directory)) (position : Nat) (held : Held Path Directory)
    (found : live[position]? = some held) (key : String) (exclusive : Bool) :
    leases live key exclusive = leases (live.eraseIdx position) key exclusive + if held.lease = ⟨key, exclusive⟩ then 1 else 0 := by
  obtain ⟨inside, rfl⟩ := List.getElem?_eq_some_iff.mp found
  rw [← leases_cons]
  exact (List.getElem_cons_eraseIdx_perm inside).symm.countP_eq _

theorem lease_counted (live : List (Held Path Directory)) (key : String) (exclusive : Bool) :
    0 < leases live key exclusive ↔ ∃ held ∈ live, held.lease.key = key ∧ held.lease.exclusive = exclusive := by
  simp only [leases, List.countP_pos_iff, decide_eq_true_eq, RepositoryLease.ext_iff]

theorem occupied_iff (key : String) (request : Request Path Directory) :
    Occupied manager key request ↔
      (0 < leases manager.live key true ∨ (request.exclusive = true ∧ 0 < leases manager.live key false)) ∨
        (request.exclusive = false ∧ usizeMax ≤ leases manager.live key false) := by
  refine or_congr_left ?_
  rw [lease_counted, lease_counted]
  constructor
  · intro ⟨held, member, same, conflict⟩
    cases mode : held.lease.exclusive with
    | true => exact .inl ⟨held, member, same, mode⟩
    | false => exact .inr ⟨conflict.resolve_left (by simp [mode]), held, member, same, mode⟩
  · intro conflict
    rcases conflict with ⟨held, member, same, mode⟩ | ⟨exclusive, held, member, same, _⟩
    · exact ⟨held, member, same, .inl mode⟩
    · exact ⟨held, member, same, .inr exclusive⟩

theorem state_read (counted : Counted manager) (key : String) :
    manager.repositories[key]?.getD ⟨0, false⟩ = ⟨leases manager.live key false, decide (0 < leases manager.live key true)⟩ := by
  rw [counted.table]
  by_cases idle : leases manager.live key true = 0 ∧ leases manager.live key false = 0
  · simp [idle]
  · simp [idle]

theorem busy_entry (counted : Counted manager) (key : String)
    (busy : 0 < leases manager.live key true ∨ 0 < leases manager.live key false) :
    manager.repositories.insert key ⟨leases manager.live key false, decide (0 < leases manager.live key true)⟩ =
      manager.repositories := by
  refine Std.ExtTreeMap.ext_getElem? fun other => ?_
  rw [Keyed.lookup_insert]
  by_cases same : other = key
  · rw [if_pos same, same, counted.table, if_neg (by omega)]
  · rw [if_neg same]

theorem lease_refused (counted : Counted manager) (name key : String) (request : Request Path Directory)
    (occupied : Occupied manager key request) :
    ∃ error, leaseRepository manager.repositories name key request.exclusive = (.error error, manager.repositories) := by
  rw [occupied_iff] at occupied
  have full : 0 < usizeMax := by decide
  rw [leaseRepository, state_read counted]
  simp only [decide_eq_true_eq, busy_entry counted key (by omega)]
  by_cases conflict : 0 < leases manager.live key true ∨ (request.exclusive = true ∧ 0 < leases manager.live key false)
  · exact ⟨_, by rw [if_pos conflict]⟩
  · obtain ⟨shared, many⟩ := occupied.resolve_left conflict
    exact ⟨_, by rw [if_neg conflict, if_neg (by simp [shared]), if_neg (by omega)]⟩

theorem insert_twice (repositories : Repositories) (key : String) (first second : RepositoryLeaseState) :
    (repositories.insert key first).insert key second = repositories.insert key second := by
  refine Std.ExtTreeMap.ext_getElem? fun other => ?_
  simp only [Keyed.lookup_insert]
  by_cases same : other = key
  · simp only [if_pos same]
  · simp only [if_neg same]

theorem lease_granted (counted : Counted manager) (name key : String) (request : Request Path Directory)
    (vacant : ¬ Occupied manager key request) :
    leaseRepository manager.repositories name key request.exclusive =
      (.ok ⟨key, request.exclusive⟩,
        manager.repositories.insert key ⟨leases manager.live key false + if request.exclusive then 0 else 1, request.exclusive⟩) := by
  rw [occupied_iff, not_or] at vacant
  obtain ⟨apart, room⟩ := vacant
  have unwritten : ¬ 0 < leases manager.live key true := fun written => apart (.inl written)
  rw [leaseRepository, state_read counted]
  simp only [decide_eq_true_eq, if_neg apart, insert_twice]
  cases mode : request.exclusive with
  | true =>
      have unread : leases manager.live key false = 0 := by
        by_contra read
        exact apart (.inr ⟨mode, by omega⟩)
      simp [unread]
  | false =>
      have fits : leases manager.live key false + 1 ≤ usizeMax := by
        by_contra full
        exact room ⟨mode, by omega⟩
      simp [fits, unwritten]

end Table

section Runs

variable {system} {manager : Manager Path Directory}

theorem refused_next (counted : Counted manager) (request : Request Path Directory)
    (refused : ∀ key, normalizedPath system request.now request.path = .ok key → Occupied manager key request) :
    next system manager (.acquire request) = manager := by
  rw [next, tryAcquireRepository]
  cases computed : normalizedPath system request.now request.path with
  | error error => rfl
  | ok key =>
      obtain ⟨error, turned⟩ := lease_refused counted (system.display request.path) key request (refused key computed)
      simp only [turned]
      rfl

theorem granted_next (counted : Counted manager) (request : Request Path Directory) (key : String)
    (computed : normalizedPath system request.now request.path = .ok key) (vacant : ¬ Occupied manager key request) :
    next system manager (.acquire request) =
      { repositories := manager.repositories.insert key
          ⟨leases manager.live key false + if request.exclusive then 0 else 1, request.exclusive⟩
        live := ⟨⟨key, request.exclusive⟩, request⟩ :: manager.live } := by
  simp only [next, tryAcquireRepository, computed, lease_granted counted _ key request vacant]
  rfl

-- A request leaves everything as it was, or adds its lease.
theorem acquire_cases (counted : Counted manager) (request : Request Path Directory) :
    ((∀ key, normalizedPath system request.now request.path = .ok key → Occupied manager key request) ∧
      next system manager (.acquire request) = manager) ∨
    ∃ key, normalizedPath system request.now request.path = .ok key ∧ ¬ Occupied manager key request ∧
      next system manager (.acquire request) =
        { repositories := manager.repositories.insert key
            ⟨leases manager.live key false + if request.exclusive then 0 else 1, request.exclusive⟩
          live := ⟨⟨key, request.exclusive⟩, request⟩ :: manager.live } := by
  by_cases refused : ∀ key, normalizedPath system request.now request.path = .ok key → Occupied manager key request
  · exact .inl ⟨refused, refused_next counted request refused⟩
  · simp only [not_forall] at refused
    obtain ⟨key, computed, vacant⟩ := refused
    exact .inr ⟨key, computed, vacant, granted_next counted request key computed vacant⟩

theorem counted_acquire (counted : Counted manager) (request : Request Path Directory) :
    Counted (next system manager (.acquire request)) := by
  rcases acquire_cases counted request with ⟨_, same⟩ | ⟨key, _, vacant, after⟩
  · rw [same]
    exact counted
  · rw [occupied_iff] at vacant
    rw [after]
    constructor
    · intro other
      simp only [Keyed.lookup_insert, leases_cons, RepositoryLease.mk.injEq]
      by_cases same : other = key
      · subst same
        cases mode : request.exclusive with
        | true => simp [mode] at vacant ⊢
        | false =>
            simp [mode] at vacant ⊢
            omega
      · simp [same, Ne.symm same, counted.table other]
    · intro other
      simp only [leases_cons, RepositoryLease.mk.injEq]
      have before := counted.alone other
      by_cases same : key = other
      · subst same
        cases mode : request.exclusive with
        | true =>
            simp [mode] at vacant ⊢
            omega
        | false =>
            simp [mode] at vacant ⊢
            omega
      · simpa [same] using before

theorem drop_entry (counted : Counted manager) (position : Nat) (held : Held Path Directory)
    (found : manager.live[position]? = some held) :
    dropLease manager.repositories held.lease =
      let live := manager.live.eraseIdx position
      if leases live held.lease.key true = 0 ∧ leases live held.lease.key false = 0 then manager.repositories.erase held.lease.key
      else manager.repositories.insert held.lease.key
        ⟨leases live held.lease.key false, decide (0 < leases live held.lease.key true)⟩ := by
  have taken := leases_taken manager.live position held found held.lease.key
  have writers := taken true
  have readers := taken false
  have alone := counted.alone held.lease.key
  simp only [RepositoryLease.ext_iff, true_and] at writers readers
  rw [dropLease, counted.table, if_neg (by cases mode : held.lease.exclusive <;> simp [mode] at writers readers <;> omega)]
  cases mode : held.lease.exclusive with
  | true =>
      simp only [mode, if_true, Bool.true_eq_false, if_false] at writers readers ⊢
      have unwritten : leases (manager.live.eraseIdx position) held.lease.key true = 0 := by omega
      have unread : leases (manager.live.eraseIdx position) held.lease.key false = 0 := by omega
      have before : leases manager.live held.lease.key false = 0 := by omega
      simp [unwritten, unread, before]
  | false =>
      simp only [mode, if_true, Bool.false_eq_true, if_false] at writers readers ⊢
      have unwritten : leases (manager.live.eraseIdx position) held.lease.key true = 0 := by omega
      have before : leases manager.live held.lease.key true = 0 := by omega
      simp [unwritten, before, readers]

theorem counted_drop (counted : Counted manager) (position : Nat) : Counted (next system manager (.drop position)) := by
  rw [next]
  cases found : manager.live[position]? with
  | none => exact counted
  | some held =>
      have taken := leases_taken manager.live position held found
      have others : ∀ key, held.lease.key ≠ key → ∀ exclusive,
          leases (manager.live.eraseIdx position) key exclusive = leases manager.live key exclusive := by
        intro key other exclusive
        rw [taken key exclusive, if_neg fun same => other (congrArg RepositoryLease.key same), Nat.add_zero]
      constructor
      · intro key
        simp only [drop_entry counted position held found]
        by_cases same : key = held.lease.key
        · split
          · rw [Keyed.lookup_erase, if_pos same, same, if_pos (by assumption)]
          · rw [Keyed.lookup_insert, if_pos same, same, if_neg (by assumption)]
        · rw [others key (Ne.symm same), others key (Ne.symm same), ← counted.table key]
          split
          · rw [Keyed.lookup_erase, if_neg same]
          · rw [Keyed.lookup_insert, if_neg same]
      · intro key
        have before := counted.alone key
        have writers := taken key true
        have readers := taken key false
        dsimp only
        omega

theorem counted_default : Counted (.default : Manager Path Directory) where
  table key := by
    rw [if_pos ⟨rfl, rfl⟩]
    exact Std.ExtTreeMap.getElem?_empty
  alone key := .inl rfl

theorem counted_next (counted : Counted manager) (call : Call Path Directory) : Counted (next system manager call) := by
  cases call with
  | acquire request => exact counted_acquire counted request
  | drop position => exact counted_drop counted position

theorem run_snoc (calls : List (Call Path Directory)) (call : Call Path Directory) :
    run system (calls ++ [call]) = next system (run system calls) call := List.foldl_concat ..

theorem run_counted (calls : List (Call Path Directory)) : Counted (run system calls) := by
  induction calls using List.reverseRecOn with
  | nil => exact counted_default
  | append_singleton calls call ih =>
      rw [run_snoc]
      exact counted_next ih call

-- What a granted request must not meet.
theorem excluded_acquire (counted : Counted manager) (excluded : Excluded manager) (request : Request Path Directory) :
    Excluded (next system manager (.acquire request)) ↔ Recognised system manager request := by
  rcases acquire_cases counted request with ⟨refused, same⟩ | ⟨key, computed, vacant, after⟩
  · rw [same]
    exact iff_of_true excluded fun key computed _ => refused key computed
  · rw [after]
    have beside : Excluded ⟨manager.repositories.insert key
          ⟨leases manager.live key false + if request.exclusive then 0 else 1, request.exclusive⟩,
        ⟨⟨key, request.exclusive⟩, request⟩ :: manager.live⟩ ↔
          ∀ held ∈ manager.live, Compatible ⟨⟨key, request.exclusive⟩, request⟩ held :=
      List.pairwise_cons.trans (and_iff_left excluded)
    rw [beside]
    constructor
    · intro compatible other computedAgain conflict
      obtain ⟨held, member, same, conflicts⟩ := conflict
      obtain ⟨shared, read⟩ := compatible held member same.symm
      rcases conflicts with written | alone
      · simp [read] at written
      · exact absurd alone (by simpa using shared)
    · intro recognised held member same
      by_contra conflict
      refine vacant (recognised key computed ⟨held, member, same.symm, ?_⟩)
      rw [Conflicting]
      cases one : held.lease.exclusive <;> cases other : request.exclusive <;> simp_all

theorem excluded_drop (excluded : Excluded manager) (position : Nat) : Excluded (next system manager (.drop position)) := by
  rw [next]
  cases manager.live[position]? with
  | none => exact excluded
  | some held => exact excluded.sublist (List.eraseIdx_sublist ..)

-- A prefix of the calls is a state that the manager passes through.
theorem excluded_iff (calls : List (Call Path Directory)) :
    (∀ before, before <+: calls → Excluded (run system before)) ↔
      ∀ before request, before ++ [.acquire request] <+: calls → Recognised system (run system before) request := by
  constructor
  · intro excluded before request reached
    have granted := excluded _ reached
    rw [run_snoc] at granted
    exact (excluded_acquire (run_counted before) (excluded before ((List.prefix_append ..).trans reached)) request).mp granted
  · intro recognised before reached
    induction before using List.reverseRecOn with
    | nil => exact .nil
    | append_singleton before call ih =>
        have excluded := ih ((List.prefix_append ..).trans reached)
        rw [run_snoc]
        cases call with
        | acquire request => exact (excluded_acquire (run_counted before) excluded request).mpr (recognised before request reached)
        | drop position => exact excluded_drop excluded position

theorem idle_granted (calls : List (Call Path Directory)) (idle : (run system calls).live = []) (request : Request Path Directory)
    (key : String) (computed : normalizedPath system request.now request.path = .ok key) :
    (tryAcquireRepository system (run system calls).repositories request).1 = .ok ⟨key, request.exclusive⟩ := by
  have vacant : ¬ Occupied (run system calls) key request := by
    have full : ¬ usizeMax ≤ 0 := by decide
    simp [occupied_iff, idle, leases, full]
  rw [tryAcquireRepository, computed]
  exact congrArg Prod.fst (lease_granted (run_counted calls) _ key request vacant)

-- The key of a live lease is the one of the path that was asked for.
theorem run_held (calls : List (Call Path Directory)) (held : Held Path Directory) (member : held ∈ (run system calls).live) :
    .acquire held.request ∈ calls ∧ normalizedPath system held.request.now held.request.path = .ok held.lease.key := by
  induction calls using List.reverseRecOn with
  | nil => cases member
  | append_singleton calls call ih =>
      have kept : held ∈ (run system calls).live → .acquire held.request ∈ calls ++ [call] ∧
          normalizedPath system held.request.now held.request.path = .ok held.lease.key :=
        fun before => ⟨List.mem_append_left _ (ih before).1, (ih before).2⟩
      rw [run_snoc] at member
      cases call with
      | acquire request =>
          rcases acquire_cases (run_counted calls) request with ⟨_, same⟩ | ⟨key, computed, _, after⟩
          · rw [same] at member
            exact kept member
          · rw [after] at member
            rcases List.mem_cons.mp member with rfl | before
            · exact ⟨List.mem_append_right _ (List.mem_singleton.mpr rfl), computed⟩
            · exact kept before
      | drop position =>
          rw [next] at member
          split at member
          · exact kept member
          · exact kept ((List.eraseIdx_sublist ..).mem member)

-- It is enough that the key is the same whenever the directory is.
theorem named_excluded (calls : List (Call Path Directory)) (name : Directory → String)
    (named : ∀ request, .acquire request ∈ calls → normalizedPath system request.now request.path = .ok (name request.directory))
    (before : List (Call Path Directory)) (reached : before <+: calls) : Excluded (run system before) := by
  refine (excluded_iff calls).mpr (fun before request reached key computed taken => ?_) before reached
  obtain ⟨held, member, same, conflict⟩ := taken
  obtain ⟨asked, own⟩ := run_held before held member
  have inside := reached.subset
  rw [named request (inside (by simp)), ← same, ← named held.request (inside (by simp [asked])), own, Except.ok.injEq] at computed
  exact .inl ⟨held, member, computed, conflict⟩

-- A directory that is there when it is asked for, and that resolves to one path.
def Resolved (canonical : Directory → Path) (request : Request Path Directory) : Prop :=
  request.now.present request.path = true ∧ request.now.canonicalize request.path = .ok (canonical request.directory)

theorem resolved_named (canonical : Directory → Path) (request : Request Path Directory) (resolved : Resolved canonical request) :
    normalizedPath system request.now request.path = .ok (foldCase system (forwardSlashes system (canonical request.directory))) := by
  rw [normalizedPath, if_pos resolved.1, normalizedExistingPath, resolved.2]
  rfl

theorem repository_leases_exact (calls : List (Call Path Directory)) :
    ((∀ before, before <+: calls → Excluded (run system before)) ↔
      ∀ before request, before ++ [.acquire request] <+: calls → Recognised system (run system before) request) ∧
    ((run system calls).live = [] → ∀ (request : Request Path Directory) (key : String),
      normalizedPath system request.now request.path = .ok key →
      (tryAcquireRepository system (run system calls).repositories request).1 = .ok ⟨key, request.exclusive⟩) ∧
    ∀ canonical : Directory → Path, (∀ request, .acquire request ∈ calls → Resolved canonical request) →
      ∀ before, before <+: calls → Excluded (run system before) :=
  ⟨excluded_iff calls, idle_granted calls, fun canonical resolved =>
    named_excluded calls (fun directory => foldCase system (forwardSlashes system (canonical directory)))
      fun request asked => resolved_named canonical request (resolved request asked)⟩

end Runs

namespace LeaseSample

-- Windows answers with the extended form of a path that it resolves.
def windows : PathSystem String where
  toStringLossy path := path
  display path := path
  isAbsolute _ := true
  join _ path := path
  windows := true
  toLowercase text := String.ofList (text.toList.map Char.toLower)

def moment (created : Bool) : Moment String Unit where
  present _ := created
  canonicalize path := if created then .ok ("\\\\?\\" ++ path) else .error "not found"
  currentDir := .ok "C:\\"
  directory _ := ()

def request (created : Bool) : Request String Unit := ⟨moment created, "C:\\Sync\\repo", true⟩

-- The directory is made while its first lease is live.
def calls : List (Call String Unit) := [.acquire (request false), .acquire (request true)]

theorem created_held : (run windows calls).live.map (fun held => held.lease) =
    [⟨"//?/c:/sync/repo", true⟩, ⟨"c:/sync/repo", true⟩] := by
  decide +kernel

theorem created_shared : ¬ Excluded (run windows calls) := by
  intro excluded
  have shared : ((run windows calls).live.map fun held => held.lease).Pairwise fun one other =>
    one.exclusive = false ∧ other.exclusive = false :=
    List.pairwise_map.mpr (excluded.imp fun compatible => compatible rfl)
  rw [created_held, List.pairwise_pair] at shared
  exact absurd shared.1 (by decide)

end LeaseSample

end SessionSync.Jobs
