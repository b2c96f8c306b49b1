import SessionSync.Checkout.StagedFiles

set_option autoImplicit false

namespace SessionSync.Checkout.Staging

open SessionSync.Core Checked Local Storage Rollout

-- What a staged thread leaves: its file, new directories above it, and its normalised
-- file where the system refuses to remove that.
structure Staged (start after : Tree) (target temporary : Location) (content : Except String Bytes) (normalized refused : Bool) :
    Prop where
  free : start.nodes target = none
  held : ∃ bytes, content = .ok bytes ∧ after.nodes target = some (.file bytes)
  others : ∀ location, location ≠ target → after.nodes location = start.nodes location ∨
    (start.nodes location = none ∧ location ≠ [] ∧ location <+: target.dropLast ∧ after.nodes location = some .directory) ∨
    (start.nodes location = none ∧ location = temporary ∧ normalized = true ∧ refused = true ∧
      ∃ bytes, after.nodes location = some (.file bytes))

section Rules

variable {σ ε α β : Type} {crash : σ → Prop}

theorem comes_follow (prog : Prog (Faulty σ) ε α) (next : α → Prog (Faulty σ) ε β) (first : α → σ → Prop) (good : β → σ → Prop)
    (blocked : Prop) (state : σ) (faults : List Bool) (begins : SafeAccess crash prog (comesTo faults first blocked) ⟨state, faults⟩)
    (goes : ∀ value state rest, crash state → first value state → (faults = [] → rest = []) →
      SafeAccess crash (next value) (comesTo rest good blocked) ⟨state, rest⟩) :
    SafeAccess crash (prog >>= next) (comesTo faults good blocked) ⟨state, faults⟩ := by
  apply safe_then _ _ _ _ _ begins
  · intro value seen here left
    obtain ⟨state, rest⟩ := seen
    exact Prog.safe_mono _ _ _ _ (fun outcome last _ comes => comes_later faults rest good blocked outcome last left.2 comes)
      (goes value state rest here left.1 left.2)
  · exact fun error seen _ left => left

end Rules

section Modes

variable (env : StageEnv) (thread : ThreadBundle) (path : List Char)

-- A normalised file comes first only in the newer format; the older store may remove
-- what it did not make.
def normalizes : Bool := env.v4 && thread.rollout.storage.isSome

def rough : Bool := !env.v4 && thread.rollout.storage.isSome

theorem set_others (start tree : Tree) (target location : Location) (node : Option Node) (other : location ≠ target)
    (opened : Opened start target tree) :
    (tree.set target node).nodes location = start.nodes location ∨
      (start.nodes location = none ∧ location ≠ [] ∧ location <+: target.dropLast ∧
        (tree.set target node).nodes location = some .directory) := by
  simp only [Tree.nodes_set, if_neg other]
  exact opened location

theorem materialize_file_safe {start : Tree} {loose : Bool} (tree : Tree) (faults : List Bool) (normalized : Bytes)
    (here : Touched start (targetAt env path) (temporaryAt env thread path) loose tree)
    (read : tree.nodes (temporaryAt env thread path) = some (.file normalized))
    (fresh : tree.nodes (targetAt env path) = none → start.nodes (targetAt env path) = none) :
    SafeAccess (Touched start (targetAt env path) (temporaryAt env thread path) loose) (materializeRolloutFile env thread path)
      (wroteTo tree (targetAt env path)
        (materializeRolloutBytes env.lib env.reader normalized thread.threadId (stagedContext thread)) faults)
      ⟨tree, faults⟩ := by
  rw [materializeRolloutFile]
  apply safe_check _ _ _ _ here
  · intro _ _
    apply safe_then _ _ (fun outcome seen => seen.state = tree ∧ (outcome = .ok normalized ∨ ∃ error, outcome = .error error) ∧
      (faults = [] → seen.faults = []))
    · apply safe_inspect _ _ _ here
      · intro value rest found quiet
        rw [read_file_ok, read, Option.some.injEq, Node.file.injEq] at found
        exact ⟨rfl, .inl (found ▸ rfl), quiet⟩
      · exact fun error rest refused => ⟨rfl, .inr ⟨error, rfl⟩, fun none => (refused none).1⟩
    · intro value seen kept found
      obtain ⟨state, rest⟩ := seen
      obtain ⟨same, value_, quiet⟩ := found
      dsimp only at same
      subst same
      have value_ : value = normalized := by
        rcases value_ with same | ⟨_, impossible⟩
        · exact Except.ok.inj same
        · cases impossible
      subst value_
      refine Prog.safe_mono _ _ _ _ (fun outcome last _ wrote => ?_) (write_new_safe state rest _ _ _ kept
        fun free node => touched_set _ _ _ kept (.inl ⟨fresh free, .inl rfl⟩))
      cases outcome with
      | ok _ => exact ⟨wrote.1, fun none => wrote.2 (quiet none)⟩
      | error error => exact wrote
    · intro error seen _ found
      exact .inl found.1
  · exact fun error _ => .inl rfl

theorem fresh_target {start base : Tree} {target temporary : Location} (opened : Opened start target base) (normalized : Bytes)
    (empty : (base.set temporary (some (.file normalized))).nodes target = none) :
    target ≠ temporary ∧ start.nodes target = none := by
  by_cases apart : target = temporary
  · simp [apart] at empty
  · rw [Tree.nodes_set, if_neg apart] at empty
    exact ⟨apart, opened_free base opened _ empty⟩

theorem normalized_staged {start base after : Tree} {target temporary : Location} (opened : Opened start target base)
    (free : base.nodes temporary = none) (normalized bytes : Bytes) (content : Except String Bytes) (stored : content = .ok bytes)
    (empty : (base.set temporary (some (.file normalized))).nodes target = none) (refused : Bool)
    (removed : after = (base.set temporary (some (.file normalized))).set target (some (.file bytes)) ∨
      after = ((base.set temporary (some (.file normalized))).set target (some (.file bytes))).set temporary none)
    (still : refused = false →
      after = ((base.set temporary (some (.file normalized))).set target (some (.file bytes))).set temporary none) :
    Staged start after target temporary content true refused := by
  obtain ⟨apart, absent⟩ := fresh_target opened normalized empty
  have unheld := opened_free base opened _ free
  refine ⟨absent, ⟨bytes, stored, ?_⟩, fun location other => ?_⟩
  · rcases removed with rfl | rfl
    · simp
    · simp [apart]
  · by_cases temporary_ : location = temporary
    · subst temporary_
      cases refused with
      | false =>
          rw [still rfl]
          simp [unheld]
      | true =>
          rcases removed with rfl | rfl
          · exact .inr (.inr ⟨unheld, rfl, rfl, rfl, normalized, by simp [other]⟩)
          · simp [unheld]
    · have kept : after.nodes location = base.nodes location := by
        rcases removed with rfl | rfl
        · simp [other, temporary_]
        · simp [other, temporary_]
      rw [kept]
      exact (opened location).imp_right .inl

variable {env thread path} {start base : Tree} {loose : Bool}

theorem normalized_discarded (opened : Opened start (targetAt env path) base) (normalized : Bytes)
    (free : base.nodes (temporaryAt env thread path) = none) (content : Except String Bytes)
    (made : ∀ bytes, materializeRolloutBytes env.lib env.reader normalized thread.threadId (stagedContext thread) = .ok bytes →
      content = .ok bytes)
    (more : List Bool) (outcome : Except String Unit) (seen : Faulty Tree)
    (kept : Touched start (targetAt env path) (temporaryAt env thread path) loose seen.state)
    (wrote : wroteTo (base.set (temporaryAt env thread path) (some (.file normalized))) (targetAt env path)
      (materializeRolloutBytes env.lib env.reader normalized thread.threadId (stagedContext thread)) more outcome seen) :
    SafeAccess (Touched start (targetAt env path) (temporaryAt env thread path) loose)
      (discardFile (env.refusesRemoval thread) (temporaryAt env thread path) >>= fun _ => Prog.ofExcept outcome)
      (comesTo more (fun _ after => Staged start after (targetAt env path) (temporaryAt env thread path) content true
        (env.refusesRemoval thread)) True) seen := by
  have own : Own start (targetAt env path) (temporaryAt env thread path) loose (temporaryAt env thread path) :=
    .inl ⟨opened_free base opened _ free, .inr rfl⟩
  apply safe_then _ _ _ _ _ (discard_safe _ seen.state seen.faults _ kept (touched_set _ _ _ kept own))
  · intro _ last kept left
    apply safe_result _ _ _ kept
    cases outcome with
    | error error => exact fun _ => trivial
    | ok _ =>
        refine wrote_then _ _ _ _ _ _ wrote fun bytes rest materialized empty quietly same => ?_
        obtain ⟨_, later, removed, still⟩ := left
        subst same
        obtain ⟨apart, _⟩ := fresh_target opened normalized empty
        have normal : ((base.set (temporaryAt env thread path) (some (.file normalized))).set (targetAt env path)
            (some (.file bytes))).nodes (temporaryAt env thread path) = some (.file normalized) := by
          rw [Tree.nodes_set, if_neg (Ne.symm apart), Tree.nodes_set, if_pos rfl]
        exact ⟨normalized_staged opened free normalized bytes _ (made bytes materialized) empty _ removed
          fun removes => still removes normalized normal, fun none => later.trans (quietly none)⟩
  · exact fun error last _ left => nomatch left.1

theorem normalized_comes (storage : StorageRef) (faults : List Bool) (opened : Opened start (targetAt env path) base) :
    SafeAccess (Touched start (targetAt env path) (temporaryAt env thread path) loose) (stageNormalized env thread path storage)
      (comesTo faults (fun _ after => Staged start after (targetAt env path) (temporaryAt env thread path)
        (do
          let normalized ← normalizedContent env thread storage
          materializeRolloutBytes env.lib env.reader normalized thread.threadId (stagedContext thread)) true
        (env.refusesRemoval thread)) True)
      ⟨base, faults⟩ := by
  have here : Touched start (targetAt env path) (temporaryAt env thread path) loose base := opened_touched base opened
  rw [stageNormalized]
  apply comes_follow _ _ (fun _ state => state = base) _ _ _ _ (comes_fallible _ _ _ _ here rfl)
  intro _ state rest _ same _
  subst same
  apply safe_then _ _ _ _ _ (write_new_safe state rest _ _ _ here
    fun free node => touched_set _ _ _ here (.inl ⟨opened_free state opened _ free, .inr rfl⟩))
  · intro _ seen kept wrote
    refine wrote_then _ _ _ _ _ _ wrote fun normalized more stored free again same => ?_
    subst same
    apply safe_tries _ _ _ _ _ (materialize_file_safe env thread path _ more normalized kept (by rw [Tree.nodes_set, if_pos rfl])
      fun empty => (fresh_target opened normalized empty).2)
    intro outcome seen kept wrote
    refine Prog.safe_mono _ _ _ _ (fun _ last _ comes => comes_later _ _ _ _ _ last again comes)
      (normalized_discarded opened normalized free _
      (fun bytes materialized => ?_) more outcome seen kept wrote)
    rw [bind_ok]
    exact ⟨normalized, stored, materialized⟩
  · exact fun error seen _ _ _ => trivial

theorem opened_staged {target temporary : Location} {content : Except String Bytes} (opened : Opened start target base)
    (free : base.nodes target = none) (bytes : Bytes) (stored : content = .ok bytes) (refused : Bool) :
    Staged start (base.set target (some (.file bytes))) target temporary content false refused := by
  refine ⟨opened_free base opened target free, ⟨bytes, stored, by rw [Tree.nodes_set, if_pos rfl]⟩, fun location other => ?_⟩
  exact (set_others start base target location _ other opened).imp_right .inl

theorem write_all_made (tree : Tree) (location : Location) (bytes : Bytes) (after : Tree)
    (ran : (tree.set location (some (.file []))).writeAll location bytes = .ok after) :
    after = tree.set location (some (.file bytes)) := by
  rw [Tree.writeAll, bind_ok] at ran
  obtain ⟨before, read, ran⟩ := ran
  rw [read_file_ok, Tree.nodes_set, if_pos rfl, Option.some.injEq, Node.file.injEq] at read
  rw [pure_ok, ← read, List.nil_append, set_twice] at ran
  exact ran.symm

-- A file of the call's own goes again, and the call fails.
theorem discard_fails (refused : Bool) (location : Location) (error : String) (good : Unit → Tree → Prop) (faults : List Bool)
    (seen : Faulty Tree) {crash : Tree → Prop} (here : crash seen.state) (gone : crash (seen.state.set location none)) :
    SafeAccess crash (discardFile refused location >>= fun _ => Prog.fail error) (comesTo faults good True) seen := by
  apply safe_then _ _ _ _ _ (discard_safe refused seen.state seen.faults location here gone)
  · exact fun _ _ kept _ => ⟨kept, fun _ => trivial⟩
  · exact fun error last _ left => nomatch left.1

theorem copied_comes (faults : List Bool) (opened : Opened start (targetAt env path) base) :
    SafeAccess (Touched start (targetAt env path) (temporaryAt env thread path) loose) (copyVerifiedObject env thread path)
      (comesTo faults (fun _ after => Staged start after (targetAt env path) (temporaryAt env thread path)
        (do
          let bytes ← repositoryObject env.files env.v4 thread.rollout.sha256
          ensure (digestBytes env.lib bytes = thread.rollout.sha256) "content hash mismatch"
          return bytes) false (env.refusesRemoval thread)) True)
      ⟨base, faults⟩ := by
  have here : Touched start (targetAt env path) (temporaryAt env thread path) loose base := opened_touched base opened
  rw [copyVerifiedObject]
  apply comes_check _ _ _ _ _ _ here
  · intro bytes read
    apply comes_follow _ _ (fun _ state => base.nodes (targetAt env path) = none ∧
      state = base.set (targetAt env path) (some (.file [])))
    · apply comes_touch _ _ _ _ _ here
      · intro after ran
        obtain ⟨free, _, _, rfl⟩ := (create_new_ok _ _ _ _).mp ran
        exact ⟨touched_set _ _ _ here (.inl ⟨opened_free base opened _ free, .inl rfl⟩), free, rfl⟩
      · exact fun _ _ => trivial
    intro _ state rest kept made calm
    have own : Own start (targetAt env path) (temporaryAt env thread path) loose (targetAt env path) :=
      .inl ⟨opened_free base opened _ made.1, .inl rfl⟩
    apply safe_tries _ _ (fun _ seen => seen.state = state ∧ (rest = [] → seen.faults = []))
    · apply safe_touch _ _ _ kept
      · intro after later ran again
        cases ran
        exact ⟨kept, rfl, again⟩
      · exact fun error later refused => ⟨rfl, fun none => (refused none).1⟩
    intro outcome seen keeps same
    cases outcome with
    | error error => exact discard_fails _ (targetAt env path) error _ rest seen keeps (touched_set _ _ _ keeps own)
    | ok _ =>
        refine Prog.safe_mono _ _ _ _ (fun _ last _ comes => comes_later rest seen.faults _ _ _ last same.2 comes) ?_
        apply comes_follow _ _ (fun _ after => after = base.set (targetAt env path) (some (.file bytes)))
        · apply comes_touch _ _ _ _ _ keeps
          · intro after ran
            rw [same.1, made.2] at ran
            rw [write_all_made _ _ _ _ ran]
            exact ⟨touched_set _ _ _ here own, rfl⟩
          · exact fun _ _ => trivial
        intro _ after later kept written _
        apply comes_follow _ _ (fun _ last => last = after) _ _ _ _ (comes_fallible _ _ _ _ kept rfl)
        intro _ last faults kept unchanged _
        cases matched : ensure (digestBytes env.lib bytes = thread.rollout.sha256) "content hash mismatch" with
        | error error => exact discard_fails _ (targetAt env path) error _ _ _ kept (touched_set _ _ _ kept own)
        | ok _ =>
            apply comes_done _ _ _ _ _ kept
            rw [unchanged, written]
            refine opened_staged opened made.1 bytes ?_ _
            rw [read, bind_ok]
            refine ⟨bytes, rfl, ?_⟩
            rw [matched]
            rfl
  · exact fun _ _ => trivial

theorem rename_made (tree after : Tree) (source destination : Location) (directoryOnly : Bool) (bytes : Bytes)
    (ran : (tree.set source (some (.file bytes))).rename source destination directoryOnly = .ok after) :
    directoryOnly = false ∧ after = (tree.set source none).set destination (some (.file bytes)) := by
  simp only [Tree.rename, bind_ok, ensure_ok, pure_ok, exists_const, read_file_ok] at ran
  obtain ⟨read, held, ⟨_, _, plain⟩, rfl⟩ := ran
  rw [Tree.nodes_set, if_pos rfl, Option.some.injEq, Node.file.injEq] at held
  exact ⟨plain, by rw [held, set_twice]⟩

theorem absent_free (tree : Tree) (location : Location) (directoryOnly : Bool) (plain : directoryOnly = false)
    (absent : tree.present location directoryOnly = false) : tree.nodes location = none := by
  rw [Tree.present, plain, if_neg Bool.false_ne_true, Option.isSome_eq_false_iff, Option.isNone_iff_eq_none] at absent
  exact absent

theorem renamed_staged {target temporary : Location} {content : Except String Bytes} {tree : Tree} (opened : Opened start target tree)
    (free : start.nodes target = none) (unheld : start.nodes temporary = none) (bytes : Bytes) (stored : content = .ok bytes)
    (refused : Bool) :
    Staged start ((tree.set temporary none).set target (some (.file bytes))) target temporary content false refused := by
  refine ⟨free, ⟨bytes, stored, by rw [Tree.nodes_set, if_pos rfl]⟩, fun location other => ?_⟩
  rw [Tree.nodes_set, if_neg other, Tree.nodes_set]
  by_cases moved : location = temporary
  · rw [if_pos moved, moved, unheld]
    exact .inl rfl
  · rw [if_neg moved]
    exact (opened location).imp_right .inl

theorem stored_comes (storage : StorageRef) (faults : List Bool) (opened : Opened start (targetAt env path) base) :
    SafeAccess (Touched start (targetAt env path) (temporaryAt env thread path) true) (stageStored env thread path storage)
      (comesTo faults (fun _ after => Staged start after (targetAt env path) (temporaryAt env thread path)
        (contentV3 env.lib env.serde env.files (stagedContentRef thread storage)) false (env.refusesRemoval thread)) True)
      ⟨base, faults⟩ := by
  have here : Touched start (targetAt env path) (temporaryAt env thread path) true base := opened_touched base opened
  have loose : Own start (targetAt env path) (temporaryAt env thread path) true (temporaryAt env thread path) := .inr ⟨rfl, rfl⟩
  rw [stageStored]
  apply comes_follow _ _ (fun _ state => state = base) _ _ _ _ (comes_fallible _ _ _ _ here rfl)
  intro _ state rest _ same _
  subst same
  apply comes_check _ _ _ _ _ _ here
  · intro _ _
    apply safe_probe _ _ _ _ here
    apply comes_check _ _ _ _ _ _ here
    · intro _ absent
      rw [ensure_ok] at absent
      apply comes_follow _ _ _ _ _ _ _ (directories_comes state rest opened)
      intro _ tree later kept opened' _
      have missing : env.style.directoryText path = false → start.nodes (targetAt env path) = none := fun plain =>
        opened_free state opened _ (absent_free state _ _ plain absent)
      apply safe_tries _ _ (fun outcome seen => outcome = .ok () →
        ∃ bytes, contentV3 env.lib env.serde env.files (stagedContentRef thread storage) = .ok bytes ∧
          start.nodes (targetAt env path) = none ∧ start.nodes (temporaryAt env thread path) = none ∧
            (later = [] → seen.faults = []) ∧
          seen.state = (tree.set (temporaryAt env thread path) none).set (targetAt env path) (some (.file bytes)))
      · apply safe_then _ _ _ _ _ (write_new_safe tree later _ _ _ kept fun _ node => touched_set _ _ _ kept loose)
        · intro _ seen keeps wrote
          refine wrote_then _ _ _ _ _ _ wrote fun bytes rest stored free quietly same => ?_
          subst same
          apply safe_touch _ _ _ keeps
          · intro after last ran again
            obtain ⟨plain, rfl⟩ := rename_made _ _ _ _ _ _ ran
            refine ⟨touched_set _ _ _ (touched_set _ _ _ kept loose) (.inl ⟨missing plain, .inl rfl⟩), fun _ => ?_⟩
            exact ⟨bytes, stored, missing plain, opened_free tree opened' _ free, fun none => again (quietly none), rfl⟩
          · exact fun _ _ _ => nofun
        · exact fun error seen _ _ => nofun
      · intro outcome seen keeps renamed
        cases outcome with
        | error error => exact discard_fails _ (temporaryAt env thread path) error _ _ _ keeps (touched_set _ _ _ keeps loose)
        | ok _ =>
            obtain ⟨bytes, stored, free, unheld, quietly, same⟩ := renamed rfl
            apply safe_done _ _ _ keeps
            exact ⟨same ▸ renamed_staged opened' free unheld bytes stored _, quietly⟩
    · exact fun _ _ => trivial
  · exact fun _ _ => trivial

theorem content_comes (faults : List Bool) (opened : Opened start (targetAt env path) base) :
    SafeAccess (Touched start (targetAt env path) (temporaryAt env thread path) (rough env thread)) (stageContent env thread path)
      (comesTo faults (fun _ after => Staged start after (targetAt env path) (temporaryAt env thread path)
        (stagedContent env thread) (normalizes env thread) (env.refusesRemoval thread)) True) ⟨base, faults⟩ := by
  unfold stageContent stagedContent normalizes rough
  cases thread.rollout.storage with
  | none =>
      simp only [Option.isSome_none, Bool.and_false]
      exact copied_comes faults opened
  | some storage =>
      cases env.v4 with
      | true => exact normalized_comes storage faults opened
      | false => exact stored_comes storage faults opened

end Modes

end SessionSync.Checkout.Staging
