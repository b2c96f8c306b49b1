import SessionSync.Checkout.StageRollouts

set_option autoImplicit false

namespace SessionSync.Checkout.Staging

open SessionSync.Core Checked Local Storage Rollout

section Footprint

variable (start : Tree) (target temporary : Location) (loose : Bool)

-- What one thread may change: its two files, which are new, and the directories above
-- them. `loose` is for the older store, which removes a file that it did not make.
def Own (location : Location) : Prop :=
  (start.nodes location = none ∧ (location = target ∨ location = temporary)) ∨ (loose = true ∧ location = temporary)

def Opened (tree : Tree) : Prop :=
  ∀ location, tree.nodes location = start.nodes location ∨
    (start.nodes location = none ∧ location ≠ [] ∧ location <+: target.dropLast ∧ tree.nodes location = some .directory)

def Touched (tree : Tree) : Prop :=
  ∀ location, tree.nodes location = start.nodes location ∨
    (start.nodes location = none ∧ location ≠ [] ∧ location <+: target.dropLast ∧ tree.nodes location = some .directory) ∨
    Own start target temporary loose location

variable {start target temporary loose}

theorem opened_start : Opened start target start := fun _ => .inl rfl

theorem opened_touched (tree : Tree) (opened : Opened start target tree) : Touched start target temporary loose tree :=
  fun location => (opened location).imp_right .inl

theorem opened_free (tree : Tree) (opened : Opened start target tree) (location : Location) (free : tree.nodes location = none) :
    start.nodes location = none := by
  rcases opened location with same | ⟨absent, _⟩
  · exact same ▸ free
  · exact absent

@[simp] theorem Tree.nodes_set (tree : Tree) (location other : Location) (node : Option Node) :
    (tree.set location node).nodes other = if other = location then node else tree.nodes other := rfl

theorem touched_set (tree : Tree) (location : Location) (node : Option Node) (touched : Touched start target temporary loose tree)
    (own : Own start target temporary loose location) : Touched start target temporary loose (tree.set location node) := by
  intro other
  by_cases same : other = location
  · exact .inr (.inr (same ▸ own))
  · simp only [Tree.nodes_set, if_neg same]
    exact touched other

theorem create_dir_opened (tree after : Tree) (location : Location) (opened : Opened start target tree) (named : location ≠ [])
    (above : location <+: target.dropLast) (ran : tree.createDir location = .ok after) : Opened start target after := by
  rw [Tree.createDir] at ran
  split at ran
  · cases ran
    exact opened
  · cases ran
  · next free =>
      simp only [bind_ok, pure_ok] at ran
      obtain ⟨_, _, rfl⟩ := ran
      intro other
      by_cases same : other = location
      · subst same
        exact .inr ⟨opened_free tree opened other free, named, above, by simp⟩
      · simp only [Tree.nodes_set, if_neg same]
        exact opened other

theorem mem_inits_tail (location other : Location) (member : other ∈ location.inits.tail) : other ≠ [] ∧ other <+: location := by
  cases location with
  | nil => simp at member
  | cons head rest =>
      rw [List.inits_cons, List.tail_cons, List.mem_map] at member
      obtain ⟨names, inside, rfl⟩ := member
      exact ⟨nofun, (List.prefix_cons_inj head).mpr ((List.mem_inits names rest).mp inside)⟩

theorem directories_comes (tree : Tree) (faults : List Bool) (opened : Opened start target tree) :
    SafeAccess (Touched start target temporary loose) (createDirectories target.dropLast)
      (comesTo faults (fun _ after => Opened start target after) True) ⟨tree, faults⟩ := by
  have rounds := @comes_for_each _ (Touched start target temporary loose) _ (fun each => touch (Tree.createDir each))
    (fun items tree => (∀ item ∈ items, item ≠ [] ∧ item <+: target.dropLast) ∧ Opened start target tree) True
    (fun item rest tree faults inv => comes_touch _ _ _ _ _ (opened_touched tree inv.2)
      (fun after ran => by
        obtain ⟨named, above⟩ := inv.1 item (List.mem_cons_self ..)
        have kept := create_dir_opened tree after item inv.2 named above ran
        exact ⟨opened_touched after kept, fun item member => inv.1 item (List.mem_cons_of_mem _ member), kept⟩)
      fun _ _ => trivial)
    (fun tree inv => opened_touched tree inv.2) target.dropLast.inits.tail tree faults ⟨fun item member =>
      mem_inits_tail _ _ member, opened⟩
  exact comes_mono _ _ _ _ _ _ _ (fun _ _ _ inv => inv.2) id rounds

end Footprint

section Files

variable {crash : Tree → Prop}

-- How the writing of a new file ends: with the file as it is to be, or without it or
-- with a part of it.
def wroteTo (tree : Tree) (location : Location) (content : Except String Bytes) (faults : List Bool) :
    Except String Unit → Faulty Tree → Prop
  | .ok _, seen => (∃ bytes, content = .ok bytes ∧ tree.nodes location = none ∧ seen.state = tree.set location (some (.file bytes))) ∧
      (faults = [] → seen.faults = [])
  | .error _, seen => seen.state = tree ∨ tree.nodes location = none ∧ ∃ node, seen.state = tree.set location node

-- The goals below are large: what is known of an outcome is handed on, not taken apart.
theorem wrote_then {p : Prop} (tree : Tree) (location : Location) (content : Except String Bytes) (faults : List Bool) (value : Unit)
    (seen : Faulty Tree) (wrote : wroteTo tree location content faults (.ok value) seen)
    (next : ∀ bytes rest, content = .ok bytes → tree.nodes location = none → (faults = [] → rest = []) →
      seen = ⟨tree.set location (some (.file bytes)), rest⟩ → p) : p := by
  obtain ⟨⟨bytes, stored, free, same⟩, quiet⟩ := wrote
  exact next bytes seen.faults stored free quiet (same ▸ rfl)

theorem set_twice (tree : Tree) (location : Location) (first second : Option Node) :
    (tree.set location first).set location second = tree.set location second := by
  simp only [Tree.set, Tree.mk.injEq]
  funext other
  by_cases same : other = location
  · simp only [if_pos same]
  · simp only [if_neg same]

theorem create_new_ok (tree after : Tree) (location : Location) (directoryOnly : Bool) :
    tree.createNew location directoryOnly = .ok after ↔
      tree.nodes location = none ∧ tree.hasDirectory location.dropLast ∧ directoryOnly = false ∧
        after = tree.set location (some (.file [])) := by
  simp only [Tree.createNew, bind_ok, ensure_ok, pure_ok, exists_const, and_assoc]
  refine and_congr_right fun _ => and_congr_right fun _ => and_congr_right fun _ => eq_comm

theorem read_file_ok (tree : Tree) (location : Location) (bytes : Bytes) :
    tree.readFile location = .ok bytes ↔ tree.nodes location = some (.file bytes) := by
  rw [Tree.readFile]
  split
  · next found => simp [found]
  · next found => simp [found]
  · next found => simp [found]

theorem write_new_safe (tree : Tree) (faults : List Bool) (location : Location) (directoryOnly : Bool) (content : Except String Bytes)
    (here : crash tree) (wrote : tree.nodes location = none → ∀ node, crash (tree.set location node)) :
    SafeAccess crash (writeNewFile location directoryOnly content) (wroteTo tree location content faults) ⟨tree, faults⟩ := by
  apply safe_then _ _ (fun outcome seen =>
    (outcome = .ok () → tree.nodes location = none ∧ seen.state = tree.set location (some (.file []))) ∧
    ((∃ error, outcome = .error error) → seen.state = tree) ∧ (faults = [] → seen.faults = []))
  · apply safe_touch _ _ _ here
    · intro after rest ran quiet
      obtain ⟨free, _, _, rfl⟩ := (create_new_ok _ _ _ _).mp ran
      exact ⟨wrote free _, fun _ => ⟨free, rfl⟩, nofun, quiet⟩
    · exact fun error rest refused => ⟨nofun, fun _ => rfl, fun none => (refused none).1⟩
  · intro _ seen kept made
    obtain ⟨state, rest⟩ := seen
    obtain ⟨free, same⟩ := made.1 rfl
    have quiet := made.2.2
    dsimp only at same
    subst same
    apply safe_check _ _ _ _ kept
    · intro bytes stored
      apply safe_then _ _ (fun outcome seen => (outcome = .ok () → seen.state = tree.set location (some (.file bytes))) ∧
        ((∃ error, outcome = .error error) → seen.state = tree.set location (some (.file []))) ∧ (faults = [] → seen.faults = []))
      · apply safe_touch _ _ _ kept
        · intro after later ran again
          rw [Tree.writeAll, bind_ok] at ran
          obtain ⟨before, read, ran⟩ := ran
          rw [read_file_ok] at read
          rw [pure_ok] at ran
          simp only [Tree.nodes_set, if_true, Option.some.injEq, Node.file.injEq] at read
          rw [← read, List.nil_append, set_twice] at ran
          subst ran
          exact ⟨wrote free _, fun _ => rfl, nofun, fun none => again (quiet none)⟩
        · exact fun error later refused => ⟨nofun, fun _ => rfl, fun none => (refused (quiet none)).1⟩
      · intro _ seen kept written
        obtain ⟨state, later⟩ := seen
        have same := written.1 rfl
        dsimp only at same
        subst same
        apply safe_touch _ _ _ kept
        · intro after last ran again
          cases ran
          exact ⟨kept, ⟨bytes, stored, free, rfl⟩, fun none => again (written.2.2 none)⟩
        · exact fun error last _ => .inr ⟨free, _, rfl⟩
      · exact fun error seen _ written => .inr ⟨free, _, written.2.1 ⟨error, rfl⟩⟩
    · exact fun error _ => .inr ⟨free, _, rfl⟩
  · exact fun error seen _ made => .inl (made.2.1 ⟨error, rfl⟩)

theorem discard_safe (refused : Bool) (tree : Tree) (faults : List Bool) (location : Location) (here : crash tree)
    (gone : crash (tree.set location none)) :
    SafeAccess crash (discardFile refused location) (fun outcome seen => outcome = .ok () ∧ seen.faults = faults ∧
      (seen.state = tree ∨ seen.state = tree.set location none) ∧
      (refused = false → ∀ bytes, tree.nodes location = some (.file bytes) → seen.state = tree.set location none)) ⟨tree,
        faults⟩ := by
  refine ⟨here, ?_⟩
  cases refused with
  | true => exact ⟨here, rfl, rfl, .inl rfl, nofun⟩
  | false =>
      have removes : ∀ bytes, tree.nodes location = some (.file bytes) → tree.removeFile location = .ok (tree.set location none) := by
        intro bytes found
        rw [Tree.removeFile, (read_file_ok tree location bytes).mpr found]
        rfl
      cases ran : tree.removeFile location with
      | error error =>
          simp only [Bool.false_eq_true, if_false, ran]
          refine ⟨here, rfl, rfl, .inl rfl, fun _ bytes found => ?_⟩
          rw [removes bytes found] at ran
          cases ran
      | ok after =>
          rw [Tree.removeFile, bind_ok] at ran
          obtain ⟨bytes, read, ran⟩ := ran
          rw [pure_ok] at ran
          subst ran
          simp only [Bool.false_eq_true, if_false, removes bytes ((read_file_ok tree location bytes).mp read)]
          exact ⟨gone, rfl, rfl, .inr rfl, fun _ _ _ => rfl⟩

end Files

end SessionSync.Checkout.Staging
