import Mathlib.Data.List.Induction
import SessionSync.Config.StoreLaws

set_option autoImplicit false

namespace SessionSync.Config

open SessionSync.Core Checked

-- serde_json for one document type.
structure Serde (Document : Type) where
  parse : Bytes → Except String Document
  print : Document → Bytes

-- What serde_json writes it reads back.
def Serde.Faithful {Document : Type} (serde : Serde Document) : Prop := ∀ document, serde.parse (serde.print document) = .ok document

variable {Document Call Arguments Saved Answer Rule : Type} (store : Store Document Call Arguments Saved Answer)

section Kept

-- When a file holds a rule, and which calls take one out of the document they load.
variable (held : Option Bytes → Rule → Prop) (deletes : Call → Document → Rule → Prop)

def Undeleted (file : Option Bytes) (calls : List Call) (rule : Rule) : Prop :=
  ∀ done call rest mid document, calls = done ++ call :: rest → Replays store file done mid → loaded store mid = .ok document →
    ¬ deletes call document rule

-- One call leaves the rules that it does not delete.
def KeepsRules : Prop :=
  ∀ call file document bytes rule, loaded store file = .ok document → perform store call file = .ok bytes → held file rule →
    ¬ deletes call document rule → held (some bytes) rule

structure NoRuleLost (first : Option Bytes) (calls : List Call) (last : Option Bytes) : Prop where
  replays : Replays store first calls last
  stored : first.isSome = true ∨ calls ≠ [] → last.isSome = true
  kept : ∀ before after, calls = before ++ after → ∃ mid, Replays store first before mid ∧ Replays store mid after last ∧
    ∀ rule, held mid rule → Undeleted store deletes mid after rule → held last rule

theorem perform_loaded (call : Call) (file : Option Bytes) (bytes : Bytes) (performed : perform store call file = .ok bytes) :
    ∃ arguments document changed, (store.check call).mapError ConfigError.invalid = .ok arguments ∧ loaded store file = .ok document ∧
      (store.change arguments document).mapError ConfigError.invalid = .ok changed ∧
      (store.validate changed.1).mapError ConfigError.invalid = .ok () ∧ bytes = store.encode changed.1 := by
  simp only [perform, bind_ok] at performed
  obtain ⟨arguments, checked, document, read, changed, changes, _, valid, same⟩ := performed
  cases same
  exact ⟨arguments, document, changed, checked, read, changes, valid, rfl⟩

theorem replays_snoc (first last : Option Bytes) (calls : List Call) (call : Call)
    (replays : Replays store first (calls ++ [call]) last) :
    ∃ mid bytes, Replays store first calls mid ∧ perform store call mid = .ok bytes ∧ last = some bytes := by
  generalize same : calls ++ [call] = all at replays
  cases replays with
  | nil => exact absurd same (List.append_ne_nil_of_right_ne_nil _ (List.cons_ne_nil _ _))
  | snoc mid before other bytes earlier performed =>
      obtain ⟨rfl, one⟩ := List.append_inj' same rfl
      cases one
      exact ⟨mid, bytes, earlier, performed, rfl⟩

theorem replays_split (first last : Option Bytes) (before after : List Call) (replays : Replays store first (before ++ after) last) :
    ∃ mid, Replays store first before mid ∧ Replays store mid after last := by
  induction after using List.reverseRecOn generalizing last with
  | nil =>
      rw [List.append_nil] at replays
      exact ⟨last, replays, .nil last⟩
  | append_singleton after call ih =>
      rw [← List.append_assoc] at replays
      obtain ⟨reached, bytes, earlier, performed, rfl⟩ := replays_snoc store first last (before ++ after) call replays
      obtain ⟨mid, early, late⟩ := ih reached earlier
      exact ⟨mid, early, .snoc mid reached after call bytes late performed⟩

-- Every call keeps the rule, so their sequence does.
theorem replays_keeps (keeps : KeepsRules store held deletes) (first last : Option Bytes) (calls : List Call) (rule : Rule)
    (replays : Replays store first calls last) (there : held first rule) (undeleted : Undeleted store deletes first calls rule) :
    held last rule := by
  induction replays with
  | nil => exact there
  | snoc reached calls call bytes earlier performed ih =>
      obtain ⟨_, document, _, _, read, _⟩ := perform_loaded store call reached bytes performed
      refine keeps call reached document bytes rule read performed (ih fun done other rest mid found split => ?_) ?_
      · refine undeleted done other (rest ++ [call]) mid found ?_
        rw [split, List.append_assoc, List.cons_append]
      · exact undeleted calls call [] reached document rfl earlier read

theorem no_rule_lost (keeps : KeepsRules store held deletes) (first last : Option Bytes) (calls : List Call)
    (replays : Replays store first calls last) : NoRuleLost store held deletes first calls last where
  replays := replays
  stored := replays_stored store first last calls replays
  kept := by
    intro before after split
    subst split
    obtain ⟨mid, early, late⟩ := replays_split store first last before after replays
    exact ⟨mid, early, late, fun rule there undeleted =>
      replays_keeps store held deletes keeps mid last after rule late there undeleted⟩

end Kept

end SessionSync.Config
