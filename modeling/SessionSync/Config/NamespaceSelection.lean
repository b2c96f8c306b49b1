import SessionSync.Config.Readable

set_option autoImplicit false

namespace SessionSync.Config

open SessionSync.Core Checked

-- What the selection reads of a DetectedIdentity.
structure DetectedIdentity where
  codexHomeKey : String
  provider : Option String
  apiKeyFingerprint : Option String
deriving DecidableEq, Repr

inductive NamespaceSelectionSource where
  | manualOverride
  | mapping
  | profileDefault
  | ambiguous
  | none
deriving DecidableEq, Repr

structure NamespaceSelectionResolution where
  selectedNamespaceId : Option Uuid
  source : NamespaceSelectionSource
  matchedMappingId : Option Uuid
  ambiguousMappingIds : List Uuid
deriving DecidableEq, Repr

-- A condition that a rule has adds its weight, and the rule falls out when the identity
-- does not meet it.
def conditionScore (condition actual : Option String) (weight : Nat) : Option Nat :=
  if condition = none then some 0 else if actual = condition then some weight else none

def ruleMatchScore (rule : NamespaceMappingRule) (identity : DetectedIdentity) : Option Nat := do
  let fingerprint ← conditionScore rule.apiKeyFingerprint identity.apiKeyFingerprint 4
  let provider ← conditionScore rule.provider identity.provider 2
  let codexHome ← conditionScore rule.codexHomeKey (some identity.codexHomeKey) 1
  let score := fingerprint + provider + codexHome
  if score > 0 then some score else none

def fallbackResolution (profileDefault : Option Uuid) : NamespaceSelectionResolution :=
  { selectedNamespaceId := profileDefault
    source := if profileDefault.isSome then .profileDefault else .none
    matchedMappingId := none
    ambiguousMappingIds := [] }

abbrev ScoredRule := Nat × NamespaceMappingRule

-- The higher score first, and of equal ones the lower id.
def ranksBefore (left right : ScoredRule) : Prop := right.1 < left.1 ∨ right.1 = left.1 ∧ left.2.id.toNat ≤ right.2.id.toNat

instance : DecidableRel ranksBefore := fun left right =>
  inferInstanceAs (Decidable (right.1 < left.1 ∨ right.1 = left.1 ∧ left.2.id.toNat ≤ right.2.id.toNat))

def scoredRules (identity : DetectedIdentity) (rules : List NamespaceMappingRule) : List ScoredRule :=
  rules.filterMap fun rule => (ruleMatchScore rule identity).map fun score => (score, rule)

def chooseHighest (first : NamespaceMappingRule) (highest : List NamespaceMappingRule) : NamespaceSelectionResolution :=
  if highest.any fun rule => rule.namespaceId ≠ first.namespaceId then
    { selectedNamespaceId := none, source := .ambiguous, matchedMappingId := none,
      ambiguousMappingIds := highest.map NamespaceMappingRule.id }
  else
    { selectedNamespaceId := some first.namespaceId, source := .mapping, matchedMappingId := some first.id,
      ambiguousMappingIds := [] }

def resolveNamespaceSelection (automaticEnabled : Bool) (profileDefault : Option Uuid) (identity : DetectedIdentity)
    (rules : List NamespaceMappingRule) (manualOverride : Option Uuid) : NamespaceSelectionResolution :=
  if automaticEnabled = false then fallbackResolution profileDefault
  else match manualOverride with
    | some namespaceId =>
        { selectedNamespaceId := some namespaceId, source := .manualOverride, matchedMappingId := none, ambiguousMappingIds := [] }
    | none =>
        match (scoredRules identity rules).insertionSort ranksBefore with
        | [] => fallbackResolution profileDefault
        | first :: rest => chooseHighest first.2 (((first :: rest).takeWhile fun scored => scored.1 = first.1).map Prod.snd)

section Ranking

variable {identity : DetectedIdentity}

def Matches (identity : DetectedIdentity) (rules : List NamespaceMappingRule) (score : Nat) (rule : NamespaceMappingRule) : Prop :=
  rule ∈ rules ∧ ruleMatchScore rule identity = some score

-- The rules of a list that match with the highest score of all.
def TopMatch (identity : DetectedIdentity) (rules : List NamespaceMappingRule) (rule : NamespaceMappingRule) : Prop :=
  ∃ score, Matches identity rules score rule ∧ ∀ other another, Matches identity rules another other → another ≤ score

theorem scored_iff (rules : List NamespaceMappingRule) (scored : ScoredRule) :
    scored ∈ scoredRules identity rules ↔ Matches identity rules scored.1 scored.2 := by
  obtain ⟨score, rule⟩ := scored
  simp only [scoredRules, List.mem_filterMap, Option.map_eq_some_iff, Prod.mk.injEq, Matches]
  constructor
  · rintro ⟨other, member, found, held, rfl, rfl⟩
    exact ⟨member, held⟩
  · rintro ⟨member, held⟩
    exact ⟨rule, member, score, held, rfl, rfl⟩

instance : Std.Total ranksBefore := ⟨fun left right => by unfold ranksBefore; omega⟩

instance : IsTrans ScoredRule ranksBefore := ⟨fun one two three => by unfold ranksBefore; omega⟩

def ranked (identity : DetectedIdentity) (rules : List NamespaceMappingRule) : List ScoredRule :=
  (scoredRules identity rules).insertionSort ranksBefore

theorem ranked_iff (rules : List NamespaceMappingRule) (scored : ScoredRule) :
    scored ∈ ranked identity rules ↔ Matches identity rules scored.1 scored.2 :=
  (List.mem_insertionSort _).trans (scored_iff rules scored)

theorem ranked_sorted (rules : List NamespaceMappingRule) : (ranked identity rules).Pairwise ranksBefore :=
  List.pairwise_insertionSort _ _

theorem take_filter (score : Nat) (list : List ScoredRule) (sorted : list.Pairwise ranksBefore)
    (bound : ∀ scored ∈ list, scored.1 ≤ score) :
    list.takeWhile (fun scored => scored.1 = score) = list.filter fun scored => scored.1 = score := by
  induction list with
  | nil => rfl
  | cons head rest ih =>
      obtain ⟨after, tail⟩ := List.pairwise_cons.mp sorted
      obtain ⟨own, others⟩ := List.forall_mem_cons.mp bound
      by_cases top : head.1 = score
      · rw [List.takeWhile_cons_of_pos (by simp [top]), List.filter_cons_of_pos (by simp [top]), ih tail others]
      · rw [List.takeWhile_cons_of_neg (by simp [top]), List.filter_cons_of_neg (by simp [top]), eq_comm, List.filter_eq_nil_iff]
        intro scored member
        have below := after scored member
        unfold ranksBefore at below
        simp only [decide_eq_true_eq]
        omega

def topScore (identity : DetectedIdentity) (rules : List NamespaceMappingRule) : Option Nat :=
  (ranked identity rules).head?.map Prod.fst

def highestRules (identity : DetectedIdentity) (rules : List NamespaceMappingRule) : List NamespaceMappingRule :=
  ((ranked identity rules).filter fun scored => some scored.1 = topScore identity rules).map Prod.snd

def choose (profileDefault : Option Uuid) : List NamespaceMappingRule → NamespaceSelectionResolution
  | [] => fallbackResolution profileDefault
  | first :: rest => chooseHighest first (first :: rest)

theorem head_highest (rules : List NamespaceMappingRule) (first : ScoredRule) (rest : List ScoredRule)
    (order : ranked identity rules = first :: rest) : ∀ scored ∈ ranked identity rules, scored.1 ≤ first.1 := by
  intro scored member
  have sorted := @ranked_sorted identity rules
  rw [order] at sorted member
  rcases List.mem_cons.mp member with rfl | later
  · exact le_refl _
  · have before := (List.pairwise_cons.mp sorted).1 scored later
    unfold ranksBefore at before
    omega

theorem resolve_highest (profileDefault : Option Uuid) (rules : List NamespaceMappingRule) :
    resolveNamespaceSelection true profileDefault identity rules none = choose profileDefault (highestRules identity rules) := by
  unfold resolveNamespaceSelection highestRules topScore
  rw [if_neg (by decide)]
  change (match ranked identity rules with | [] => _ | first :: rest => _) = _
  cases order : ranked identity rules with
  | nil => rfl
  | cons first rest =>
      have bound := head_highest rules first rest order
      rw [order] at bound
      have taken := take_filter first.1 (first :: rest) (by rw [← order]; exact ranked_sorted rules) bound
      simp only [taken, List.head?_cons, Option.map_some, Option.some.injEq]
      rw [List.filter_cons_of_pos (by simp), List.map_cons, choose]

theorem highest_iff (rules : List NamespaceMappingRule) (rule : NamespaceMappingRule) :
    rule ∈ highestRules identity rules ↔ TopMatch identity rules rule := by
  unfold highestRules topScore TopMatch
  cases order : ranked identity rules with
  | nil =>
      refine iff_of_false List.not_mem_nil ?_
      rintro ⟨score, held, _⟩
      have member := (ranked_iff rules (score, rule)).mpr held
      rw [order] at member
      cases member
  | cons first rest =>
      have bound := head_highest rules first rest order
      have own := (@ranked_iff identity rules first).mp (by rw [order]; exact List.mem_cons_self)
      rw [← order]
      simp only [List.mem_map, List.mem_filter, decide_eq_true_eq, order, List.head?_cons, Option.map_some, Option.some.injEq]
      rw [← order]
      constructor
      · rintro ⟨scored, ⟨member, top⟩, rfl⟩
        refine ⟨scored.1, (ranked_iff rules scored).mp member, fun other another held => ?_⟩
        rw [top]
        exact bound _ ((ranked_iff rules (another, other)).mpr held)
      · rintro ⟨score, held, most⟩
        have member := (ranked_iff rules (score, rule)).mpr held
        exact ⟨(score, rule), ⟨member, le_antisymm (bound _ member) (most _ _ own)⟩, rfl⟩

theorem highest_sorted (rules : List NamespaceMappingRule) :
    (highestRules identity rules).Pairwise fun one other => one.id.toNat ≤ other.id.toNat := by
  refine List.pairwise_map.mpr (List.Pairwise.imp_of_mem ?_ ((ranked_sorted rules).filter _))
  intro one other oneIn otherIn before
  have first := of_decide_eq_true (List.mem_filter.mp oneIn).2
  have second := of_decide_eq_true (List.mem_filter.mp otherIn).2
  rw [← second, Option.some.injEq] at first
  unfold ranksBefore at before
  omega

theorem highest_perm (rules others : List NamespaceMappingRule) (perm : rules.Perm others) :
    (highestRules identity rules).Perm (highestRules identity others) := by
  have moved : (ranked identity rules).Perm (ranked identity others) :=
    (List.perm_insertionSort _ _).trans ((perm.filterMap _).trans (List.perm_insertionSort _ _).symm)
  have top : topScore identity rules = topScore identity others := by
    unfold topScore
    cases order : ranked identity rules with
    | nil =>
        rw [order] at moved
        rw [moved.symm.eq_nil]
    | cons first rest =>
        cases order' : ranked identity others with
        | nil =>
            rw [order'] at moved
            rw [moved.eq_nil] at order
            cases order
        | cons head tail =>
            have up := head_highest rules first rest order head (moved.mem_iff.mpr (by rw [order']; exact List.mem_cons_self))
            have down := head_highest others head tail order' first (moved.mem_iff.mp (by rw [order]; exact List.mem_cons_self))
            simp [le_antisymm up down]
  unfold highestRules
  rw [top]
  exact (moved.filter _).map _

theorem choose_perm (profileDefault : Option Uuid) (one other : List NamespaceMappingRule) (perm : one.Perm other)
    (sorted : one.Pairwise fun left right => left.id.toNat ≤ right.id.toNat)
    (sortedToo : other.Pairwise fun left right => left.id.toNat ≤ right.id.toNat) :
    choose profileDefault one = choose profileDefault other := by
  have ids : one.map NamespaceMappingRule.id = other.map NamespaceMappingRule.id := by
    have first : (one.map NamespaceMappingRule.id).Pairwise fun left right => left.toNat ≤ right.toNat := List.pairwise_map.mpr sorted
    have second : (other.map NamespaceMappingRule.id).Pairwise fun left right => left.toNat ≤ right.toNat :=
      List.pairwise_map.mpr sortedToo
    exact List.Perm.eq_of_pairwise (fun _ _ _ _ below above => BitVec.eq_of_toNat_eq (le_antisymm below above)) first
      second (perm.map _)
  cases one with
  | nil => rw [perm.symm.eq_nil]
  | cons first rest =>
      cases other with
      | nil => cases ids
      | cons head tail =>
          have firstIn : first ∈ head :: tail := perm.mem_iff.mp List.mem_cons_self
          have headIn : head ∈ first :: rest := perm.mem_iff.mpr List.mem_cons_self
          have sameId : first.id = head.id := (List.cons.inj ids).1
          by_cases agree : ∀ rule ∈ first :: rest, rule.namespaceId = first.namespaceId
          · have spaces : head.namespaceId = first.namespaceId := agree head headIn
            have agreeToo : ∀ rule ∈ head :: tail, rule.namespaceId = head.namespaceId := fun rule member => by
              rw [spaces]
              exact agree rule (perm.mem_iff.mpr member)
            rw [choose, choose, chooseHighest, chooseHighest, if_neg (by simpa using agree), if_neg (by simpa using agreeToo),
              sameId, spaces]
          · have disagree : ¬ ∀ rule ∈ head :: tail, rule.namespaceId = head.namespaceId := fun all => agree fun rule member => by
              rw [all rule (perm.mem_iff.mp member), all first firstIn]
            rw [choose, choose, chooseHighest, chooseHighest, if_pos (by simpa using agree), if_pos (by simpa using disagree), ids]

theorem resolve_perm (automaticEnabled : Bool) (profileDefault manualOverride : Option Uuid)
    (rules others : List NamespaceMappingRule) (perm : rules.Perm others) :
    resolveNamespaceSelection automaticEnabled profileDefault identity rules manualOverride =
      resolveNamespaceSelection automaticEnabled profileDefault identity others manualOverride := by
  cases automaticEnabled with
  | false => rfl
  | true =>
      cases manualOverride with
      | some namespaceId => rfl
      | none =>
          rw [resolve_highest, resolve_highest]
          exact choose_perm profileDefault _ _ (highest_perm rules others perm) (highest_sorted rules) (highest_sorted others)

-- The rules alone decide: with neither a manual override nor a switch that is off.
structure SelectsHighest (identity : DetectedIdentity) (rules : List NamespaceMappingRule) (profileDefault : Option Uuid)
    (result : NamespaceSelectionResolution) : Prop where
  unmatched : (∀ rule, ¬ TopMatch identity rules rule) → result = fallbackResolution profileDefault
  agreed : ∀ namespaceId, (∃ rule, TopMatch identity rules rule) →
    (∀ rule, TopMatch identity rules rule → rule.namespaceId = namespaceId) →
    result.selectedNamespaceId = some namespaceId ∧ result.source = .mapping
  conflict : ∀ one other, TopMatch identity rules one → TopMatch identity rules other → one.namespaceId ≠ other.namespaceId →
    result.selectedNamespaceId = none ∧ result.source = .ambiguous

theorem choose_selects (profileDefault : Option Uuid) (rules : List NamespaceMappingRule) :
    SelectsHighest identity rules profileDefault (choose profileDefault (highestRules identity rules)) := by
  have top := @highest_iff identity rules
  cases highest : highestRules identity rules with
  | nil =>
      rw [highest] at top
      have none_ : ∀ rule, ¬ TopMatch identity rules rule := fun rule matched => List.not_mem_nil ((top rule).mpr matched)
      exact ⟨fun _ => rfl, fun _ some _ => absurd some (not_exists.mpr none_), fun one _ matched => absurd matched (none_ one)⟩
  | cons first rest =>
      rw [highest] at top
      have firstTop := (top first).mp List.mem_cons_self
      refine ⟨fun none => absurd firstTop (none first), fun namespaceId _ all => ?_, fun one other oneTop otherTop differ => ?_⟩
      · have agree : ∀ rule ∈ first :: rest, rule.namespaceId = first.namespaceId := fun rule member => by
          rw [all rule ((top rule).mp member), all first firstTop]
        rw [choose, chooseHighest, if_neg (by simpa using agree), all first firstTop]
        exact ⟨rfl, rfl⟩
      · have disagree : ¬ ∀ rule ∈ first :: rest, rule.namespaceId = first.namespaceId := fun all =>
          differ ((all one ((top one).mpr oneTop)).trans (all other ((top other).mpr otherTop)).symm)
        rw [choose, chooseHighest, if_pos (by simpa using disagree)]
        exact ⟨rfl, rfl⟩

end Ranking

section Reachable

abbrev Condition := Uuid × Option String × Option String × Option String

def conditionOf (mapping : NamespaceMappingRule) : Condition :=
  (mapping.remoteId, mapping.apiKeyFingerprint, mapping.provider, mapping.codexHomeKey)

def DistinctConditions (file : NamespaceMappingFile) : Prop := (file.mappings.map conditionOf).Nodup

theorem condition_score (condition actual : Option String) (weight score : Nat) :
    conditionScore condition actual weight = some score ↔
      (condition = none ∧ score = 0) ∨ (condition ≠ none ∧ condition = actual ∧ score = weight) := by
  unfold conditionScore
  by_cases absent : condition = none
  · simp [absent, eq_comm]
  · by_cases met : actual = condition
    · simp [absent, met, eq_comm]
    · simp [absent, met, Ne.symm met]

theorem condition_weight (condition actual : Option String) (weight score : Nat)
    (scored : conditionScore condition actual weight = some score) :
    score = 0 ∨ score = weight := by
  rcases (condition_score condition actual weight score).mp scored with ⟨_, zero⟩ | ⟨_, _, full⟩
  · exact .inl zero
  · exact .inr full

theorem condition_same (one other actual : Option String) (weight score : Nat) (positive : 0 < weight)
    (first : conditionScore one actual weight = some score) (second : conditionScore other actual weight = some score) :
    one = other := by
  rcases (condition_score one actual weight score).mp first with ⟨absent, zero⟩ | ⟨_, met, full⟩
  · rcases (condition_score other actual weight score).mp second with ⟨absentToo, _⟩ | ⟨_, _, full⟩
    · rw [absent, absentToo]
    · omega
  · rcases (condition_score other actual weight score).mp second with ⟨_, zero⟩ | ⟨_, metToo, _⟩
    · omega
    · rw [met, metToo]

-- A score says which conditions a matching rule has, and the identity says what they are.
theorem score_conditions (identity : DetectedIdentity) (one other : NamespaceMappingRule) (score : Nat)
    (oneScore : ruleMatchScore one identity = some score) (otherScore : ruleMatchScore other identity = some score) :
    one.apiKeyFingerprint = other.apiKeyFingerprint ∧ one.provider = other.provider ∧ one.codexHomeKey = other.codexHomeKey := by
  have parts : ∀ rule, ruleMatchScore rule identity = some score → ∃ fingerprint provider codexHome,
      conditionScore rule.apiKeyFingerprint identity.apiKeyFingerprint 4 = some fingerprint ∧
        conditionScore rule.provider identity.provider 2 = some provider ∧
        conditionScore rule.codexHomeKey (some identity.codexHomeKey) 1 = some codexHome ∧
          fingerprint + provider + codexHome = score := by
    intro rule scored
    simp only [ruleMatchScore, Option.bind_eq_bind, Option.bind_eq_some_iff] at scored
    obtain ⟨fingerprint, one, provider, two, codexHome, three, total⟩ := scored
    split at total
    · cases total
      exact ⟨fingerprint, provider, codexHome, one, two, three, rfl⟩
    · cases total
  obtain ⟨a, b, c, key, provider, home, total⟩ := parts one oneScore
  obtain ⟨a', b', c', key', provider', home', total'⟩ := parts other otherScore
  have keyWeight := condition_weight _ _ _ _ key
  have providerWeight := condition_weight _ _ _ _ provider
  have homeWeight := condition_weight _ _ _ _ home
  have keyWeight' := condition_weight _ _ _ _ key'
  have providerWeight' := condition_weight _ _ _ _ provider'
  have homeWeight' := condition_weight _ _ _ _ home'
  -- The three weights are powers of two, so the sum tells which of them are in it.
  obtain rfl : a = a' := by omega
  obtain rfl : b = b' := by omega
  obtain rfl : c = c' := by omega
  exact ⟨condition_same _ _ _ 4 a (by decide) key key', condition_same _ _ _ 2 b (by decide) provider provider',
    condition_same _ _ _ 1 c (by decide) home home'⟩

theorem change_conditions (call : NamespaceCall) (file changed : NamespaceMappingFile) (saved : Option NamespaceMappingRule)
    (done : changeNamespace call file = .ok (changed, saved)) (distinct : DistinctConditions file) : DistinctConditions changed := by
  cases call with
  | create remoteId namespaceId label apiKeyFingerprint provider codexHomeKey id now =>
      simp only [changeNamespace, bind_ok, ensure_ok, pure_ok, Prod.mk.injEq] at done
      obtain ⟨_, _, _, fresh, rfl, _⟩ := done
      refine ((List.perm_insertionSort _ _).map conditionOf).nodup_iff.mpr ?_
      rw [List.map_append, List.nodup_append]
      refine ⟨distinct, List.nodup_singleton _, fun condition member other single => ?_⟩
      obtain ⟨mapping, listed, rfl⟩ := List.mem_map.mp member
      rw [List.map_singleton, List.mem_singleton] at single
      rw [single]
      simp only [conditionOf, ne_eq, Prod.mk.injEq]
      exact fresh mapping listed
  | delete remoteId mappingId =>
      simp only [changeNamespace, bind_ok, pure_ok, Prod.mk.injEq] at done
      obtain ⟨_, _, rfl, _⟩ := done
      exact distinct.sublist (List.filter_sublist.map conditionOf)
  | setManualOverride remoteId namespaceId codexHomeKey now =>
      cases done
      exact distinct
  | clearManualOverride remoteId codexHomeKey =>
      cases done
      exact distinct

-- The top rules of one remote all have the same conditions, so there is only one.
theorem never_ambiguous (file : NamespaceMappingFile) (distinct : DistinctConditions file) (remoteId : Uuid)
    (identity : DetectedIdentity) (one other : NamespaceMappingRule)
    (oneTop : TopMatch identity (file.mappings.filter fun mapping => mapping.remoteId = remoteId) one)
    (otherTop : TopMatch identity (file.mappings.filter fun mapping => mapping.remoteId = remoteId) other) : one = other := by
  obtain ⟨score, ⟨oneIn, oneScore⟩, most⟩ := oneTop
  obtain ⟨score', ⟨otherIn, otherScore⟩, most'⟩ := otherTop
  obtain rfl : score = score' := le_antisymm (most' one score ⟨oneIn, oneScore⟩) (most other score' ⟨otherIn, otherScore⟩)
  obtain ⟨oneIn, oneRemote⟩ := List.mem_filter.mp oneIn
  obtain ⟨otherIn, otherRemote⟩ := List.mem_filter.mp otherIn
  obtain ⟨key, provider, home⟩ := score_conditions identity one other score oneScore otherScore
  refine List.inj_on_of_nodup_map distinct oneIn otherIn ?_
  simp only [conditionOf, key, provider, home, of_decide_eq_true oneRemote, of_decide_eq_true otherRemote]

variable (lib : Primitives) (serde : Serde NamespaceMappingFile)

def KeepsConditions (state : ConfigState) : Prop :=
  ∀ document, loaded (namespaceMappingStore lib serde) state.file = .ok document → DistinctConditions document

variable {lib serde}

theorem operation_conditions (faithful : serde.Faithful) (issued : NamespaceCall × Draws) (state : ConfigState)
    (keeps : KeepsConditions lib serde state) :
    KeepsConditions lib serde ((program (namespaceMappingStore lib serde) issued).exec state).2 := by
  intro document read
  rcases @left_file _ _ _ _ _ (namespaceMappingStore lib serde) issued state with same | gone | ⟨bytes, performed, file⟩
  · rw [same] at read
    exact keeps document read
  · rw [gone] at read
    cases read
    exact List.nodup_nil
  · obtain ⟨arguments, base, changed, _, found, changes, _, rfl⟩ := perform_loaded _ issued.1 state.file bytes performed
    rw [file, loaded, map_error_ok] at read
    simp only [namespaceMappingStore, decodeNamespaces, bind_ok, pure_ok, faithful changed.1, Except.ok.injEq] at read
    obtain ⟨_, _, _, rfl, _, _, rfl⟩ := read
    exact change_conditions arguments base changed.1 changed.2 ((map_error_ok _ _ _).mp changes) (keeps base found)

theorem session_conditions (faithful : serde.Faithful) (start last : ConfigState)
    (turns : List (Turn NamespaceCall (Option NamespaceMappingRule)))
    (session : Session (namespaceMappingStore lib serde) start turns last) (keeps : KeepsConditions lib serde start) :
    KeepsConditions lib serde last := by
  induction session with
  | nil state => exact keeps
  | cons turn turns last ran rest ih =>
      have after := operation_conditions faithful turn.issued turn.before keeps
      rw [ran] at after
      exact ih after

-- The rules of one remote, as `list` gives them.
def listRules (remoteId : Uuid) (file : NamespaceMappingFile) : List NamespaceMappingRule :=
  file.mappings.filter fun mapping => mapping.remoteId = remoteId

theorem resolved_unambiguous (file : NamespaceMappingFile) (distinct : DistinctConditions file) (automaticEnabled : Bool)
    (profileDefault manualOverride : Option Uuid) (identity : DetectedIdentity) (remoteId : Uuid) :
    (resolveNamespaceSelection automaticEnabled profileDefault identity
      (listRules remoteId file) manualOverride).source ≠ .ambiguous := by
  have fallback : (fallbackResolution profileDefault).source ≠ .ambiguous := by cases profileDefault <;> simp [fallbackResolution]
  cases automaticEnabled with
  | false => exact fallback
  | true =>
      cases manualOverride with
      | some namespaceId => exact nofun
      | none =>
          have selects := @choose_selects identity profileDefault (listRules remoteId file)
          rw [← resolve_highest] at selects
          by_cases matched : ∃ rule, TopMatch identity (listRules remoteId file) rule
          · obtain ⟨rule, top⟩ := matched
            have agreed := selects.agreed rule.namespaceId ⟨rule, top⟩ fun other otherTop => by
              rw [never_ambiguous file distinct remoteId identity other rule otherTop top]
            rw [agreed.2]
            exact nofun
          · rw [selects.unmatched (not_exists.mp matched)]
            exact fallback

theorem namespace_selection (lib : Primitives) (serde : Serde NamespaceMappingFile) (faithful : serde.Faithful) :
    (∀ (automaticEnabled : Bool) (profileDefault manualOverride : Option Uuid) (identity : DetectedIdentity)
      (rules others : List NamespaceMappingRule), rules.Perm others →
      resolveNamespaceSelection automaticEnabled profileDefault identity rules manualOverride =
        resolveNamespaceSelection automaticEnabled profileDefault identity others manualOverride) ∧
    (∀ (profileDefault : Option Uuid) (identity : DetectedIdentity) (rules : List NamespaceMappingRule),
      SelectsHighest identity rules profileDefault (resolveNamespaceSelection true profileDefault identity rules none)) ∧
    (∀ (identity : DetectedIdentity) (one other : NamespaceMappingRule) (score : Nat), ruleMatchScore one identity = some score →
      ruleMatchScore other identity = some score → one.remoteId = other.remoteId → conditionOf one = conditionOf other) ∧
    ∀ (temporaries : Std.ExtTreeMap Uuid Bytes) (last : ConfigState)
      (turns : List (Turn NamespaceCall (Option NamespaceMappingRule))),
      Session (namespaceMappingStore lib serde) ⟨none, temporaries⟩ turns last →
        ∀ file, loaded (namespaceMappingStore lib serde) last.file = .ok file →
          ∀ (automaticEnabled : Bool) (profileDefault manualOverride : Option Uuid) (identity : DetectedIdentity) (remoteId : Uuid),
            (resolveNamespaceSelection automaticEnabled profileDefault identity
              (listRules remoteId file) manualOverride).source ≠ .ambiguous := by
  refine ⟨fun automaticEnabled profileDefault manualOverride identity rules others perm =>
    resolve_perm automaticEnabled profileDefault manualOverride rules others perm, fun profileDefault identity rules => ?_,
    fun identity one other score oneScore otherScore remote => ?_,
      fun temporaries last turns session file read automaticEnabled profileDefault
      manualOverride identity remoteId => ?_⟩
  · rw [resolve_highest]
    exact choose_selects profileDefault rules
  · obtain ⟨key, provider, home⟩ := score_conditions identity one other score oneScore otherScore
    simp only [conditionOf, key, provider, home, remote]
  · have kept := session_conditions faithful ⟨none, temporaries⟩ last turns session fun document fresh => by
      cases fresh
      exact List.nodup_nil
    exact resolved_unambiguous file (kept file read) automaticEnabled profileDefault manualOverride identity remoteId

end Reachable

namespace SelectionSample

open Sample

def fingerprint : String := "hmac-sha256:aaaaaaaaaaaaaaaaaaaaaaaaaaaaaaaaaaaaaaaaaaaaaaaaaaaaaaaaaaaaaaaa"

def ruleFor (id namespaceId : Uuid) (apiKeyFingerprint provider : Option String) : NamespaceMappingRule :=
  { id := id, remoteId := home, namespaceId := namespaceId, label := "rule", apiKeyFingerprint := apiKeyFingerprint,
    provider := provider, codexHomeKey := none, createdAt := "2026-01-01T00:00:00Z", updatedAt := "2026-01-01T00:00:00Z" }

def providerRule : NamespaceMappingRule := ruleFor home home none (some "openai")

def keyRule : NamespaceMappingRule := ruleFor work work (some fingerprint) none

def sampleIdentity : DetectedIdentity := { codexHomeKey := "home", provider := some "openai", apiKeyFingerprint := some fingerprint }

example : (resolveNamespaceSelection true none sampleIdentity [providerRule, keyRule] none).selectedNamespaceId = some work :=
  by decide +kernel

def createRule (rule : NamespaceMappingRule) : NamespaceCall :=
  .create rule.remoteId rule.namespaceId rule.label rule.apiKeyFingerprint rule.provider rule.codexHomeKey rule.id rule.createdAt

def providerFile : NamespaceMappingFile := { schemaVersion := 1, mappings := [providerRule], overrides := [] }

def bothFile : NamespaceMappingFile := { providerFile with mappings := [providerRule, keyRule] }

def optional (text : Option String) : List Char := (text.map quoted).getD "null".toList

def ruleLines (id : String) (rule : NamespaceMappingRule) : List (List Char) :=
  [memberLine "id" (quoted id) ",", memberLine "remoteId" (quoted "01900000-0000-7000-8000-000000000001") ",",
    memberLine "namespaceId" (quoted id) ",", memberLine "label" (quoted rule.label) ",",
    memberLine "apiKeyFingerprint" (optional rule.apiKeyFingerprint) ",", memberLine "provider" (optional rule.provider) ",",
    memberLine "codexHomeKey" (optional rule.codexHomeKey) ",", memberLine "createdAt" (quoted rule.createdAt) ",",
    memberLine "updatedAt" (quoted rule.updatedAt) ""]

def providerLines := ruleLines "01900000-0000-7000-8000-000000000001" providerRule
def keyLines := ruleLines "01900000-0000-7000-8000-000000000002" keyRule

def afterRules : List (List Char) := ["    \x7d", "  ],", "  \"overrides\": []", "\x7d"].map String.toList
def providerJson : Bytes := linesOf (opening ++ providerLines ++ afterRules)
def bothJson : Bytes := linesOf (opening ++ providerLines ++ ["    \x7d,", "    \x7b"].map String.toList ++ keyLines ++ afterRules)

def rulesSerde : Serde NamespaceMappingFile := serdeOver providerFile providerJson (serdeOf bothFile bothJson)

-- What the store accepts back.
def RulesFit (file : NamespaceMappingFile) (json : Bytes) : Prop :=
  json.length ≤ namespaceConfigBytes ∧ validateMappingFile sampleLib file = .ok ()

instance (file : NamespaceMappingFile) (json : Bytes) : Decidable (RulesFit file json) := inferInstanceAs (Decidable (_ ∧ _))

theorem rules_checked :
    (bothFile ≠ providerFile ∧ providerJson.head? ≠ some 0 ∧ bothJson.head? ≠ some 0 ∧ bothJson ≠ providerJson) ∧
    (RulesFit providerFile providerJson ∧ RulesFit bothFile bothJson) ∧
    (checkNamespace (createRule providerRule) = .ok (createRule providerRule) ∧
      changeNamespace (createRule providerRule) { schemaVersion := 1, mappings := [], overrides := [] } =
        .ok (providerFile, some providerRule)) ∧
    checkNamespace (createRule keyRule) = .ok (createRule keyRule) ∧
    changeNamespace (createRule keyRule) providerFile = .ok (bothFile, some keyRule) := by decide +kernel

theorem rules_serde_faithful : rulesSerde.Faithful := by
  obtain ⟨_, provider, both, apart⟩ := rules_checked.1
  have base : (serdeOf bothFile bothJson).Faithful := serde_faithful bothFile bothJson both
  exact over_faithful providerFile providerJson _ base fun other => print_apart bothFile other bothJson providerJson provider apart

theorem provider_printed : rulesSerde.print providerFile = providerJson := by
  simp only [rulesSerde, serdeOver, if_true]

theorem both_printed : rulesSerde.print bothFile = bothJson := by
  simp only [rulesSerde, serdeOver, serdeOf, if_neg rules_checked.1.1, if_true]

def rulesStore := namespaceMappingStore sampleLib rulesSerde

theorem rules_loaded (file : NamespaceMappingFile) (json : Bytes) (printed : rulesSerde.print file = json)
    (fits : RulesFit file json) : loaded rulesStore (some json) = .ok file := by
  obtain ⟨short, valid⟩ := fits
  have read := rules_serde_faithful file
  rw [printed] at read
  simp only [loaded, rulesStore, namespaceMappingStore, decodeNamespaces, ensure, if_pos short, read, valid, bind, Except.bind]
  rfl

theorem rule_performed (rule : NamespaceMappingRule) (file : Option Bytes) (document after : NamespaceMappingFile)
    (checked : checkNamespace (createRule rule) = .ok (createRule rule)) (read : loaded rulesStore file = .ok document)
    (changed : changeNamespace (createRule rule) document = .ok (after, some rule))
    (valid : validateMappingFile sampleLib after = .ok ()) :
    perform rulesStore (createRule rule) file = .ok (rulesSerde.print after) := by
  simp only [perform, bind_ok]
  refine ⟨createRule rule, congrArg (Except.mapError ConfigError.invalid) checked, document, read, (after, some rule),
    ?_, (), ?_, rfl⟩
  · exact congrArg (Except.mapError ConfigError.invalid) changed
  · exact congrArg (Except.mapError ConfigError.invalid) valid

theorem provider_loaded : loaded rulesStore (some providerJson) = .ok providerFile :=
  rules_loaded providerFile providerJson provider_printed rules_checked.2.1.1

theorem both_loaded : loaded rulesStore (some bothJson) = .ok bothFile :=
  rules_loaded bothFile bothJson both_printed rules_checked.2.1.2

-- A rule for the provider and then one for the key.
theorem both_created : ∃ turns last, Session rulesStore empty turns last ∧ last.file = some bothJson := by
  obtain ⟨_, ⟨provider, both⟩, ⟨asked, added⟩, askedKey, addedKey⟩ := rules_checked
  have first : perform rulesStore (createRule providerRule) none = .ok providerJson := by
    rw [← provider_printed]
    exact rule_performed providerRule none _ providerFile asked rfl added provider.2
  have second : perform rulesStore (createRule keyRule) (some providerJson) = .ok bothJson := by
    rw [← both_printed]
    exact rule_performed keyRule _ providerFile bothFile askedKey provider_loaded addedKey both.2
  have unused : ((((∅ : Std.ExtTreeMap Uuid Bytes).insert 1 []).insert 1 providerJson).erase 1).contains 2 = false := by
    rw [Std.ExtTreeMap.contains_erase, Std.ExtTreeMap.contains_insert, Std.ExtTreeMap.contains_insert]
    rfl
  obtain ⟨one, ran⟩ := call_exec rulesStore (createRule providerRule) (drawsOf 1) empty providerJson first (fun _ => rfl) rfl rfl
    fun saved => ⟨saved, fun _ _ => rfl⟩
  obtain ⟨two, again⟩ :=
    call_exec rulesStore (createRule keyRule) (drawsOf 2) ⟨some providerJson, _⟩ bothJson second (fun _ => rfl) unused rfl
    fun saved => ⟨saved, fun _ _ => rfl⟩
  exact ⟨_, _, .cons ⟨empty, (createRule providerRule, drawsOf 1), .ok one, _⟩ _ _ ran
    (.cons ⟨_, (createRule keyRule, drawsOf 2), .ok two, _⟩ [] _ again (.nil _)), rfl⟩

theorem sample_order : resolveNamespaceSelection true none sampleIdentity [providerRule, keyRule] none =
      resolveNamespaceSelection true none sampleIdentity [keyRule, providerRule] none ∧
    listRules home bothFile = [providerRule, keyRule] ∧
    (resolveNamespaceSelection true none sampleIdentity (listRules home bothFile) none).source ≠ .ambiguous := by
  have selection := namespace_selection sampleLib rulesSerde rules_serde_faithful
  obtain ⟨turns, last, session, file⟩ := both_created
  have read : loaded rulesStore last.file = .ok bothFile := by rw [file, both_loaded]
  exact ⟨selection.1 true none none sampleIdentity _ _ (.swap _ _ _), rfl,
    selection.2.2.2 ∅ last turns session bothFile read true none none sampleIdentity home⟩

end SelectionSample

end SessionSync.Config
