import SessionSync.Workspace.CwdScan

set_option autoImplicit false

namespace SessionSync.Workspace

open SessionSync.Core Checked Rollout

abbrev Members := List (Label × JsonText)

def membersOf : JsonText → Members
  | .object members _ => members
  | _ => []

variable (lex : Lexicon)

-- The values that the members of a name have, in the order of the text.
def valuesOf (name : String) (members : Members) : List JsonText :=
  (members.filter fun member => member.1.name lex = name).map Prod.snd

variable {lex}

theorem values_cons (name : String) (label : Label) (tree : JsonText) (rest : Members) :
    valuesOf lex name ((label, tree) :: rest) = (if label.name lex = name then [tree] else []) ++ valuesOf lex name rest := by
  by_cases same : label.name lex = name <;> simp [valuesOf, same]

theorem values_append (name : String) (left right : Members) :
    valuesOf lex name (left ++ right) = valuesOf lex name left ++ valuesOf lex name right := by
  simp [valuesOf]

-- Of a repeated key the last value is kept.
theorem field_members (name : String) (members : Members) (fields : Fields) :
    fieldOf (membersValue lex members fields) name =
      ((valuesOf lex name members).getLast?.map (JsonText.value lex)).or (fieldOf fields name) := by
  induction members generalizing fields with
  | nil => rfl
  | cons member rest ih =>
      obtain ⟨label, tree⟩ := member
      rw [membersValue, ih, field_insert, values_cons]
      by_cases same : label.name lex = name
      · cases later : (valuesOf lex name rest).getLast? with
        | none =>
            rw [List.getLast?_eq_none_iff] at later
            simp [same, later]
        | some last => simp [same, List.getLast?_cons, later]
      · simp [same]

theorem get_values (tree : JsonText) (name : String) :
    get (tree.value lex) name = (valuesOf lex name (membersOf tree)).getLast?.map (JsonText.value lex) := by
  cases tree with
  | word value => cases value <;> rfl
  | number token =>
      rw [JsonText.value]
      cases lex.number token <;> rfl
  | string body =>
      rw [JsonText.value]
      cases lex.string body <;> rfl
  | array elements blank => rfl
  | object members blank =>
      rw [JsonText.value, membersOf]
      exact (field_members name members []).trans Option.or_none

theorem first_value (name : String) (members : Members) (tree : JsonText) (others : List JsonText)
    (some : valuesOf lex name members = tree :: others) :
    ∃ earlier label later, members = earlier ++ (label, tree) :: later ∧ valuesOf lex name earlier = [] ∧ label.name lex = name ∧
      valuesOf lex name later = others := by
  induction members with
  | nil => cases some
  | cons member rest ih =>
      obtain ⟨label, value⟩ := member
      rw [values_cons] at some
      by_cases same : label.name lex = name
      · rw [if_pos same, List.singleton_append, List.cons.injEq] at some
        exact ⟨[], label, rest, by rw [some.1, List.nil_append], rfl, same, some.2⟩
      · rw [if_neg same, List.nil_append] at some
        obtain ⟨earlier, first, later, split, none, found, tail⟩ := ih some
        refine ⟨(label, value) :: earlier, first, later, by rw [split, List.cons_append], ?_, found, tail⟩
        rw [values_cons, if_neg same, none, List.nil_append]

theorem last_value (name : String) (members : Members) (tree : JsonText) (last : (valuesOf lex name members).getLast? = some tree) :
    ∃ earlier label later, members = earlier ++ (label, tree) :: later ∧ label.name lex = name ∧ valuesOf lex name later = [] := by
  induction members with
  | nil => cases last
  | cons member rest ih =>
      obtain ⟨label, value⟩ := member
      cases later : valuesOf lex name rest with
      | nil =>
          rw [values_cons, later, List.append_nil] at last
          by_cases same : label.name lex = name
          · rw [if_pos same, List.getLast?_singleton, Option.some.injEq] at last
            exact ⟨[], label, rest, by rw [last, List.nil_append], same, later⟩
          · rw [if_neg same] at last
            cases last
      | cons first others =>
          have inner : (valuesOf lex name rest).getLast? = some tree := by
            rw [values_cons, later, List.getLast?_append_of_ne_nil _ (List.cons_ne_nil _ _)] at last
            rw [later]
            exact last
          obtain ⟨earlier, found, after, split, named, none⟩ := ih inner
          exact ⟨(label, value) :: earlier, found, after, by rw [split, List.cons_append], named, none⟩

theorem locate_none (name : String) (index : Nat) (members : Members) (none : valuesOf lex name members = []) :
    locate lex name index members = .none := by
  induction members generalizing index with
  | nil => rfl
  | cons member rest ih =>
      obtain ⟨label, tree⟩ := member
      rw [values_cons] at none
      obtain ⟨head, tail⟩ := List.append_eq_nil_iff.mp none
      have differ : label.name lex ≠ name := by
        intro same
        rw [if_pos same] at head
        cases head
      rw [locate, if_neg differ, ih _ tail]

theorem locate_first (name : String) (index : Nat) (earlier later : Members) (label : Label) (tree : JsonText)
    (none : valuesOf lex name earlier = []) (found : label.name lex = name) :
    locate lex name index (earlier ++ (label, tree) :: later) =
      some (index + (membersText earlier).length + label.text.length,
        index + (membersText earlier).length + label.text.length + tree.text.length) := by
  induction earlier generalizing index with
  | nil => rw [List.nil_append, locate, if_pos found, membersText, List.length_nil, Nat.add_zero]
  | cons member rest ih =>
      obtain ⟨other, value⟩ := member
      rw [values_cons] at none
      obtain ⟨head, tail⟩ := List.append_eq_nil_iff.mp none
      have differ : other.name lex ≠ name := by
        intro same
        rw [if_pos same] at head
        cases head
      rw [List.cons_append, locate, if_neg differ, ih _ tail, membersText]
      simp only [List.length_append, List.length_cons, Option.some.injEq, Prod.mk.injEq]
      constructor <;> omega

-- What stands before and behind the value of a member in the text of its object.
def memberFront (earlier : Members) (label : Label) : Bytes := 123 :: (membersText earlier ++ 44 :: label.text).drop 1

def memberBack (label : Label) (later : Members) (blank : Bytes) : Bytes := label.after ++ membersText later ++ blank ++ [125]

theorem members_text_append (left right : Members) : membersText (left ++ right) = membersText left ++ membersText right := by
  induction left with
  | nil => rfl
  | cons member rest ih =>
      obtain ⟨label, tree⟩ := member
      simp only [List.cons_append, membersText, ih, List.append_assoc]

theorem object_text (earlier later : Members) (label : Label) (tree : JsonText) (blank : Bytes) :
    (JsonText.object (earlier ++ (label, tree) :: later) blank).text =
      memberFront earlier label ++ (tree.text ++ memberBack label later blank) := by
  rw [JsonText.text, members_text_append]
  cases earlier with
  | nil =>
      simp only [memberFront, memberBack, membersText, List.nil_append, List.cons_append, List.drop_succ_cons, List.drop_zero,
        List.append_assoc]
  | cons member rest =>
      obtain ⟨other, value⟩ := member
      simp only [memberFront, memberBack, membersText, List.cons_append, List.drop_succ_cons, List.drop_zero, List.append_assoc]

theorem front_length (earlier : Members) (label : Label) :
    (memberFront earlier label).length = 1 + (membersText earlier).length + label.text.length := by
  simp only [memberFront, List.length_cons, List.length_drop, List.length_append]
  omega

theorem members_sorted (members : Members) (fields : Fields) (sorted : KeysSorted fields) :
    KeysSorted (membersValue lex members fields) := by
  induction members generalizing fields with
  | nil => exact sorted
  | cons member rest ih =>
      obtain ⟨label, tree⟩ := member
      exact ih _ (insert_sorted _ _ _ sorted)

-- The value of the last member of a key may be exchanged for another.
theorem replaced_fields (name : String) (earlier later : Members) (label : Label) (old new : JsonText) (found : label.name lex = name)
    (none : valuesOf lex name later = []) :
    membersValue lex (earlier ++ (label, new) :: later) [] =
      insertField name (new.value lex) (membersValue lex (earlier ++ (label, old) :: later) []) := by
  refine fields_ext _ _ (members_sorted _ _ List.Pairwise.nil) (insert_sorted _ _ _ (members_sorted _ _ List.Pairwise.nil))
    fun other => ?_
  rw [field_members, field_insert, field_members, values_append, values_append, values_cons, values_cons, found]
  by_cases same : name = other
  · rw [if_pos same, if_pos same, ← same, none]
    simp
  · rw [if_neg same, if_neg same, if_neg same]

end SessionSync.Workspace
