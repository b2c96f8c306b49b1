import SessionSync.Checkout.StagedExact
import SessionSync.Import.ImportExact

set_option autoImplicit false

namespace SessionSync.Checkout.Staging

open SessionSync.Core Checked Local Storage Rollout

-- The caller has just made both directories.
structure Ready (style : PathStyle) (tree : Tree) : Prop where
  sessions : tree.nodes [style.sameName "sessions"] = some .directory
  archived : tree.nodes [style.sameName "archived_sessions"] = some .directory

section One

variable (env : StageEnv) (thread : ThreadBundle)

-- Wherever the staging of one thread is cut off.
def StageCut (start tree : Tree) : Prop :=
  tree = start ∨ ∃ path, safeRolloutPath env.style thread = .ok path ∧
    start.present (targetAt env path) (env.style.directoryText path) = false ∧
    Touched start (targetAt env path) (temporaryAt env thread path) (rough env thread) tree

def StagedThread (start after : Tree) : Prop :=
  ∃ path, safeRolloutPath env.style thread = .ok path ∧
    start.present (targetAt env path) (env.style.directoryText path) = false ∧
    Staged start after (targetAt env path) (temporaryAt env thread path) (stagedContent env thread) (normalizes env thread)
      (env.refusesRemoval thread)

variable {env thread}

theorem length_comes {crash : Tree → Prop} (path : List Char) (tree : Tree) (faults : List Bool) (here : crash tree) :
    SafeAccess crash (checkLength env thread path) (comesTo faults (fun _ after => after = tree) True) ⟨tree, faults⟩ := by
  unfold checkLength
  cases env.v4 with
  | true => exact comes_done _ _ _ _ _ here rfl
  | false =>
      apply comes_follow _ _ (fun _ state => state = tree) _ _ _ _ (comes_inspect _ _ _ _ _ here (fun _ _ => rfl) fun _ _ => trivial)
      intro bytes state rest kept same _
      exact Prog.safe_mono _ _ _ _ (fun outcome last _ left => by
        obtain ⟨unchanged, quietly⟩ := left
        cases outcome with
        | error error => exact fun _ => trivial
        | ok _ => exact ⟨unchanged, quietly⟩)
        (safe_result _ (fun _ last => last.state = tree ∧ (rest = [] → last.faults = [])) _ kept ⟨same, id⟩)

theorem at_comes (path : List Char) (safe : safeRolloutPath env.style thread = .ok path) (start : Tree) (faults : List Bool) :
    SafeAccess (StageCut env thread start) (stageAt env thread path) (comesTo faults (fun _ => StagedThread env thread start) True)
      ⟨start, faults⟩ := by
  rw [stageAt]
  apply safe_probe _ _ _ _ (.inl rfl)
  apply comes_check _ _ _ _ _ _ (.inl rfl)
  · intro _ absent
    rw [ensure_ok] at absent
    refine safe_weaken (Touched start (targetAt env path) (temporaryAt env thread path) (rough env thread)) _
      (fun tree touched => .inr ⟨path, safe, absent, touched⟩) _ _ _ ?_
    apply comes_follow _ _ _ _ _ _ _ (directories_comes start faults opened_start)
    intro _ base rest _ opened _
    apply comes_follow _ _ _ _ _ _ _ (content_comes rest opened)
    intro _ tree later kept staged _
    apply comes_follow _ _ _ _ _ _ _ (length_comes path tree later kept)
    intro _ last faults kept same _
    exact comes_fallible _ _ _ _ kept ⟨path, safe, absent, same ▸ staged⟩
  · exact fun _ _ => trivial

theorem stage_comes (start : Tree) (faults : List Bool) :
    SafeAccess (StageCut env thread start) (stageRollout env thread) (comesTo faults (fun _ => StagedThread env thread start) True)
      ⟨start, faults⟩ := by
  rw [stageRollout]
  apply comes_follow _ _ (fun _ state => state = start) _ _ _ _ (comes_fallible _ _ _ _ (.inl rfl) rfl)
  intro _ state rest _ same _
  subst same
  apply comes_check _ _ _ _ _ _ (.inl rfl)
  · exact fun path safe => at_comes path safe state rest
  · exact fun _ _ => trivial

end One

section Places

variable {env : StageEnv} {thread : ThreadBundle} {start tree : Tree} {path : List Char}

theorem ready_root (style : PathStyle) (ready : Ready style start) (root : String)
    (known : root = "sessions" ∨ root = "archived_sessions") :
    start.nodes [style.sameName root] = some .directory := by
  rcases known with rfl | rfl
  · exact ready.sessions
  · exact ready.archived

theorem present_directory (location : Location) (directoryOnly : Bool) (there : start.nodes location = some .directory) :
    start.present location directoryOnly = true := by
  cases directoryOnly <;> simp [Tree.present, there]

-- A path that names no more than one of the two directories meets that directory.
theorem names_below (ready : Ready env.style start) (safe : safeRolloutPath env.style thread = .ok path)
    (absent : start.present (targetAt env path) (env.style.directoryText path) = false) :
    ∃ root rest, (root = "sessions" ∨ root = "archived_sessions") ∧ rest ≠ [] ∧ pathNames env.style path = root :: rest := by
  obtain ⟨_, _, root, rest, known, names⟩ := safe_path_ok env.style thread path safe
  refine ⟨root, rest, known, fun alone => ?_, names⟩
  rw [targetAt, names, alone, List.map_cons, List.map_nil, present_directory _ _ (ready_root env.style ready root known)] at absent
  cases absent

theorem target_inside (ready : Ready env.style start) (safe : safeRolloutPath env.style thread = .ok path)
    (absent : start.present (targetAt env path) (env.style.directoryText path) = false) : Inside env.style (targetAt env path) := by
  obtain ⟨root, rest, known, named, names⟩ := names_below ready safe absent
  exact ⟨root, rest.map env.style.sameName, known, by simp [named], by rw [targetAt, names, List.map_cons]⟩

theorem temporary_inside (ready : Ready env.style start) (safe : safeRolloutPath env.style thread = .ok path)
    (absent : start.present (targetAt env path) (env.style.directoryText path) = false) :
    Inside env.style (temporaryAt env thread path) := by
  obtain ⟨root, rest, known, named, names⟩ := names_below ready safe absent
  obtain ⟨front, last, rfl⟩ := List.eq_nil_or_concat rest |>.resolve_left named
  refine ⟨root, (front ++ [fileStem last ++ "." ++
    (if env.v4 then "normalized.tmp" else env.operation thread ++ ".tmp")]).map env.style.sameName,
    known, by simp, ?_⟩
  rw [temporaryAt, names, withExtension, List.concat_eq_append, ← List.cons_append, List.dropLast_concat, List.getLast?_concat]
  rfl

theorem resolve_safe (safe : safeRolloutPath env.style thread = .ok path) : resolve env.style path = some (targetAt env path) := by
  obtain ⟨anchored, parent, _⟩ := safe_path_ok env.style thread path safe
  exact resolve_names env.style _ [] anchored parent

theorem above_inside (ready : Ready env.style start) (safe : safeRolloutPath env.style thread = .ok path) (location : Location)
    (named : location ≠ []) (above : location <+: (targetAt env path).dropLast) (free : start.nodes location = none) :
    Inside env.style location := by
  obtain ⟨_, _, root, rest, known, names⟩ := safe_path_ok env.style thread path safe
  obtain ⟨name, below, rfl⟩ := List.exists_cons_of_ne_nil named
  have first : name = env.style.sameName root := by
    have reaches := above.trans (List.dropLast_prefix _)
    rw [targetAt, names, List.map_cons, List.cons_prefix_cons] at reaches
    exact reaches.1
  subst first
  refine ⟨root, below, known, fun alone => ?_, rfl⟩
  rw [alone, ready_root env.style ready root known] at free
  cases free

theorem cut_outside (ready : Ready env.style start) (cut : StageCut env thread start tree) (location : Location)
    (outside : ¬ Inside env.style location) : tree.nodes location = start.nodes location := by
  rcases cut with rfl | ⟨path, safe, absent, touched⟩
  · rfl
  · rcases touched location with same | ⟨free, named, above, _⟩ | own
    · exact same
    · exact absurd (above_inside ready safe location named above free) outside
    · rcases own with ⟨_, rfl | rfl⟩ | ⟨_, rfl⟩
      · exact absurd (target_inside ready safe absent) outside
      · exact absurd (temporary_inside ready safe absent) outside
      · exact absurd (temporary_inside ready safe absent) outside

theorem cut_files (v4 : env.v4 = true) (cut : StageCut env thread start tree) (location : Location) (node : Node)
    (held : start.nodes location = some node) : tree.nodes location = some node := by
  rcases cut with rfl | ⟨path, _, _, touched⟩
  · exact held
  · rcases touched location with same | ⟨free, _⟩ | ⟨free, _⟩ | ⟨loose, _⟩
    · exact same.trans held
    · exact absurd held (by simp [free])
    · exact absurd held (by simp [free])
    · simp [rough, v4] at loose

end Places

section All

variable (env : StageEnv)

-- What holds of a tree at any moment of the staging.
structure Confined (start tree : Tree) : Prop where
  outside : ∀ location, ¬ Inside env.style location → tree.nodes location = start.nodes location
  files : env.v4 = true → ∀ location node, start.nodes location = some node → tree.nodes location = some node

-- A normalised file is left where its own removal is refused, and at no thread's path.
def Left (threads : List ThreadBundle) (location : Location) : Prop :=
  (∃ thread ∈ threads, normalizes env thread = true ∧ env.refusesRemoval thread = true ∧
    ∃ path, safeRolloutPath env.style thread = .ok path ∧
    Inside env.style (temporaryAt env thread path) ∧ location = temporaryAt env thread path) ∧
  ∀ thread ∈ threads, ∀ path, safeRolloutPath env.style thread = .ok path → location ≠ targetAt env path

structure StagedAll (threads : List ThreadBundle) (start after : Tree) : Prop where
  kept : ∀ location node, start.nodes location = some node → after.nodes location = some node
  each : ∀ thread ∈ threads, ∃ path bytes, safeRolloutPath env.style thread = .ok path ∧ Inside env.style (targetAt env path) ∧
    start.nodes (targetAt env path) = none ∧ stagedContent env thread = .ok bytes ∧
      after.nodes (targetAt env path) = some (.file bytes)
  apart : threads.Pairwise fun one other => ∀ path next, safeRolloutPath env.style one = .ok path →
    safeRolloutPath env.style other = .ok next → targetAt env path ≠ targetAt env next
  only : ∀ location bytes, after.nodes location = some (.file bytes) → start.nodes location = some (.file bytes) ∨
    (∃ thread ∈ threads, ∃ path, safeRolloutPath env.style thread = .ok path ∧ location = targetAt env path) ∨
    (start.nodes location = none ∧ Left env threads location)

variable {env}

theorem confined_ready {start tree : Tree} (ready : Ready env.style start) (confined : Confined env start tree) :
    Ready env.style tree := by
  have root : ∀ name, ¬ Inside env.style [name] := by
    intro name inside
    obtain ⟨_, rest, _, named, same⟩ := inside
    exact named (List.cons.inj same).2.symm
  exact ⟨(confined.outside _ (root _)).trans ready.sessions, (confined.outside _ (root _)).trans ready.archived⟩

theorem confined_trans {start middle tree : Tree} (first : Confined env start middle) (later : Confined env middle tree) :
    Confined env start tree where
  outside location out := (later.outside location out).trans (first.outside location out)
  files v4 location node held := later.files v4 location node (first.files v4 location node held)

theorem staged_cons {thread : ThreadBundle} {threads : List ThreadBundle} {start middle after : Tree}
    (ready : Ready env.style start) (staged : StagedThread env thread start middle) (rest : StagedAll env threads middle after) :
    StagedAll env (thread :: threads) start after := by
  obtain ⟨path, safe, absent, free, ⟨bytes, content, held⟩, others⟩ := staged
  have inside := target_inside ready safe absent
  have grown : ∀ location node, start.nodes location = some node → middle.nodes location = some node := by
    intro location node found
    have other : location ≠ targetAt env path := fun same => by simp [same, free] at found
    rcases others location other with same | ⟨none, _⟩ | ⟨none, _⟩
    · exact same.trans found
    · simp [none] at found
    · simp [none] at found
  have before : ∀ location, middle.nodes location = none → start.nodes location = none := by
    intro location none
    cases found : start.nodes location with
    | none => rfl
    | some node => simp [grown location node found] at none
  have own : ∀ next, safeRolloutPath env.style thread = .ok next → next = path := fun next again => by
    rw [safe, Except.ok.injEq] at again
    exact again.symm
  constructor
  · exact fun location node found => rest.kept location node (grown location node found)
  · intro other member
    rcases List.mem_cons.mp member with rfl | member
    · exact ⟨path, bytes, safe, inside, free, content, rest.kept _ _ held⟩
    · obtain ⟨next, bytes, safe, inside, free, content, held⟩ := rest.each other member
      exact ⟨next, bytes, safe, inside, before _ free, content, held⟩
  · refine List.pairwise_cons.mpr ⟨fun other member first next same again equal => ?_, rest.apart⟩
    obtain ⟨found, _, safeOther, _, freeOther, _⟩ := rest.each other member
    rw [again, Except.ok.injEq] at safeOther
    rw [← safeOther, ← equal, own first same, held] at freeOther
    cases freeOther
  · intro location content found
    rcases rest.only location content found with earlier | ⟨other, member, next, safe, same⟩ | ⟨none, ⟨other, member, left⟩, apart⟩
    · by_cases target : location = targetAt env path
      · exact .inr (.inl ⟨thread, List.mem_cons_self .., path, safe, target⟩)
      · rcases others location target with same | ⟨_, _, _, directory⟩ | ⟨none, left, normal, refused, _⟩
        · exact .inl (same ▸ earlier)
        · rw [directory] at earlier
          cases earlier
        · refine .inr (.inr ⟨none,
            ⟨thread, List.mem_cons_self .., normal, refused, path, safe, temporary_inside ready safe absent, left⟩, ?_⟩)
          intro other member next safeOther same
          rcases List.mem_cons.mp member with rfl | member
          · exact target (same.trans (congrArg _ (own next safeOther)))
          · obtain ⟨found, _, again, _, freeOther, _⟩ := rest.each other member
            rw [safeOther, Except.ok.injEq] at again
            rw [← again, ← same, earlier] at freeOther
            cases freeOther
    · exact .inr (.inl ⟨other, List.mem_cons_of_mem _ member, next, safe, same⟩)
    · refine .inr (.inr ⟨before _ none, ⟨other, List.mem_cons_of_mem _ member, left⟩, ?_⟩)
      intro each among next safeEach same
      rcases List.mem_cons.mp among with rfl | among
      · rw [same, own next safeEach, held] at none
        cases none
      · exact apart each among next safeEach same

theorem rollouts_come (threads : List ThreadBundle) (start : Tree) (ready : Ready env.style start) (faults : List Bool) :
    SafeAccess (Confined env start) (stageRollouts env threads) (comesTo faults (fun _ => StagedAll env threads start) True)
      ⟨start, faults⟩ := by
  have nothing : ∀ start, Confined env start start := fun _ => ⟨fun _ _ => rfl, fun _ _ _ held => held⟩
  induction threads generalizing start faults with
  | nil =>
      have none : StagedAll env [] start start :=
        { kept := fun _ _ held => held, each := List.forall_mem_nil _, apart := .nil, only := fun _ _ found => .inl found }
      exact comes_done _ _ _ _ _ (nothing start) none
  | cons thread threads ih =>
      have confined : ∀ tree, StageCut env thread start tree → Confined env start tree := fun tree cut =>
        ⟨cut_outside ready cut, fun v4 => cut_files v4 cut⟩
      apply comes_follow _ _ _ _ _ _ _ (safe_weaken _ _ confined _ _ _ (stage_comes start faults))
      intro _ middle rest kept staged _
      refine safe_weaken _ _ (fun tree later => confined_trans kept later) _ _ _ ?_
      exact comes_mono _ _ _ _ _ _ _ (fun _ _ _ all => staged_cons ready staged all) id
        (ih middle (confined_ready ready kept) rest)

theorem rollouts_confined (threads : List ThreadBundle) (device seen : Faulty Tree) (ready : Ready env.style device.state)
    (cut : (stageRollouts env threads).Cut device seen) : Confined env device.state seen.state :=
  (Prog.safe_iff _ _ _).mp (rollouts_come threads device.state ready device.faults) |>.1 seen cut

theorem rollouts_staged (threads : List ThreadBundle) (device after : Faulty Tree) (ready : Ready env.style device.state)
    (run : (stageRollouts env threads).exec device = (.ok (), after)) :
    StagedAll env threads device.state after.state := by
  have left := (Prog.safe_iff _ _ _).mp (rollouts_come threads device.state ready device.faults) |>.2
  rw [run] at left
  exact left.1

theorem staging_contained (env : StageEnv) (threads : List ThreadBundle) (start : Tree) (faults : List Bool)
    (ready : Ready env.style start) :
    (∀ seen, (stageRollouts env threads).Cut ⟨start, faults⟩ seen →
      ∀ location, ¬ Inside env.style location → seen.state.nodes location = start.nodes location) ∧
    (env.v4 = true → ∀ before rest mid, threads = before ++ rest → (stageRollouts env before).exec ⟨start, faults⟩ = (.ok (), mid) →
      ∀ seen, (stageRollouts env rest).Cut mid seen →
        ∀ location bytes, mid.state.nodes location = some (.file bytes) → seen.state.nodes location = some (.file bytes)) ∧
    ∀ after, (stageRollouts env threads).exec ⟨start, faults⟩ = (.ok (), after) →
      (∀ thread ∈ threads, ∃ path target bytes, safeRolloutPath env.style thread = .ok path ∧ resolve env.style path = some target ∧
        Inside env.style target ∧ start.nodes target = none ∧
        stagedContent env thread = .ok bytes ∧ after.state.nodes target = some (.file bytes)) ∧
      (threads.Pairwise fun one other => ∀ path next, safeRolloutPath env.style one = .ok path →
        safeRolloutPath env.style other = .ok next → resolve env.style path ≠ resolve env.style next) ∧
      ∀ location bytes, after.state.nodes location = some (.file bytes) → start.nodes location = some (.file bytes) ∨
        (∃ thread ∈ threads, ∃ path, safeRolloutPath env.style thread = .ok path ∧ resolve env.style path = some location) ∨
        (start.nodes location = none ∧ Left env threads location) := by
  refine ⟨fun seen cut => (rollouts_confined threads _ seen ready cut).outside, ?_, fun after run => ?_⟩
  · intro v4 before rest mid _ run seen cut location bytes held
    have begun := rollouts_confined before ⟨start, faults⟩ mid ready (by
      have reached := Prog.cut_exec (stageRollouts env before) ⟨start, faults⟩
      rw [run] at reached
      exact reached)
    exact (rollouts_confined rest mid seen (confined_ready ready begun) cut).files v4 location _ held
  · have all := rollouts_staged threads ⟨start, faults⟩ after ready run
    refine ⟨fun thread member => ?_, all.apart.imp fun apart path next safe again same => ?_, fun location bytes held => ?_⟩
    · obtain ⟨path, bytes, safe, inside, free, content, held⟩ := all.each thread member
      exact ⟨path, _, bytes, safe, resolve_safe safe, inside, free, content, held⟩
    · rw [resolve_safe safe, resolve_safe again, Option.some.injEq] at same
      exact apart path next safe again same
    · rcases all.only location bytes held with before | ⟨thread, member, path, safe, same⟩ | ⟨free, left⟩
      · exact .inl before
      · exact .inr (.inl ⟨thread, member, path, safe, same ▸ resolve_safe safe⟩)
      · exact .inr (.inr ⟨free, left⟩)

end All

namespace StagingSample

def posix : PathStyle where
  windows := false
  sameName name := name
  directoryText text := text.getLast? = some '/' || ['/', '.'].isSuffixOf text

def env (refuses : ThreadBundle → Bool) : StageEnv where
  style := posix
  lib := sampleLib
  reader := Import.Sample.reader
  serde := Import.Sample.env.serde
  files := Import.Sample.env.files
  v4 := true
  operation _ := "0190"
  refusesRemoval := refuses

-- A thread whose rollout is copied as it is stored.
def copied : ThreadBundle :=
  { Import.Sample.thread with
    threadId := "u"
    rollout := { Import.Sample.thread.rollout with storage := none, logicalPath := some "archived_sessions/b.jsonl" } }

def threads : List ThreadBundle := [Import.Sample.thread, copied]

def start : Tree := ⟨fun location => if location = ["sessions"] ∨ location = ["archived_sessions"] then some .directory else none⟩

theorem start_ready (refuses : ThreadBundle → Bool) : Ready (env refuses).style start := ⟨rfl, rfl⟩

def staged (refuses : ThreadBundle → Bool) : Except String Unit × Faulty Tree :=
  (stageRollouts (env refuses) threads).exec ⟨start, []⟩

-- The staging succeeds and there are three files for two threads.
theorem refused_removal_left :
    (staged fun _ => true).1.toOption.isSome = true ∧
      (((staged fun _ => true).2.state.nodes ["sessions", "a.jsonl"]).isSome = true ∧
        ((staged fun _ => true).2.state.nodes ["archived_sessions", "b.jsonl"]).isSome = true) ∧
      (staged fun _ => true).2.state.nodes ["sessions", "a.normalized.tmp"] = some (.file Import.Sample.stored) := by
  decide +kernel

def calm : StageEnv := env fun _ => false

theorem undisturbed_run : (staged fun _ => false).1.toOption.isSome = true := by decide +kernel

-- Each of the two threads has its file, and there is no other.
theorem undisturbed_staged : ∃ after, (stageRollouts calm threads).exec ⟨start, []⟩ = (.ok (), after) ∧
    (∀ thread ∈ threads, ∃ path target bytes, safeRolloutPath calm.style thread = .ok path ∧ resolve calm.style path = some target ∧
      Inside calm.style target ∧ start.nodes target = none ∧ stagedContent calm thread = .ok bytes ∧
      after.state.nodes target = some (.file bytes)) ∧
    ∀ location bytes, after.state.nodes location = some (.file bytes) →
      ∃ thread ∈ threads, ∃ path, safeRolloutPath calm.style thread = .ok path ∧ resolve calm.style path = some location := by
  have ran := undisturbed_run
  rw [staged, ← calm] at ran
  cases run : (stageRollouts calm threads).exec ⟨start, []⟩ with
  | mk result after =>
      cases result with
      | error error =>
          rw [run] at ran
          cases ran
      | ok _ =>
          obtain ⟨each, _, only⟩ := (staging_contained calm threads start [] (start_ready _)).2.2 after run
          refine ⟨after, rfl, each, fun location bytes held => ?_⟩
          rcases only location bytes held with before | own | ⟨_, ⟨_, _, _, refused, _⟩, _⟩
          · simp only [start] at before
            split at before <;> cases before
          · exact own
          · cases refused

end StagingSample

end SessionSync.Checkout.Staging
