import RelationalGraphQL.Selection.Collect
import Mathlib.Data.List.Forall2

/-!
# Collection as a merge of occurrences

A level of a selection set is expanded to its occurrences: the fields that its selections and the fragments in them ask
for, in document order. `Merges` says what a collected set is, given its occurrences, without any state: one entry for
each response key, made from all occurrences of the key at once, and the same again below it. Collecting merges one
occurrence after the other into the entries found so far, and arrives at that set.
-/

namespace RelationalGraphQL.Selection

variable {last : Occurrence} {fragment : OpenFragment} {change : SelectionSet → SelectionSet}
  {selection : Document.Selection} {directives : List Document.Directive} {α : Type} {fresh field : SelectedField}
  {fields : List SelectedField} {group : List Occurrence}

/-! ### Occurrences -/

/-- How many fragments are not being expanded yet. -/
def Scope.unvisited (scope : Scope) (visiting : List String) : Nat :=
  scope.fragments.countP fun entry => entry.1 ∉ visiting

theorem Scope.unvisited_cons_lt {scope : Scope} {visiting : List String} {fragment : String}
    {definition : Document.Fragment} (hknown : scope.fragments.lookup fragment = some definition)
    (hnew : fragment ∉ visiting) : scope.unvisited (fragment :: visiting) < scope.unvisited visiting := by
  obtain ⟨before, after, hsplit, -⟩ := List.lookup_eq_some_iff.1 hknown
  have hle (entries : List (String × Document.Fragment)) :
      entries.countP (fun entry => entry.1 ∉ fragment :: visiting) ≤ entries.countP fun entry => entry.1 ∉ visiting := by
    apply List.countP_mono_left
    intro entry _ hentry
    simp_all
  have hbefore := hle before
  have hafter := hle after
  have hhere : decide (fragment ∉ fragment :: visiting) = false := by simp
  simp only [unvisited, hsplit, List.countP_append, List.countP_cons, hhere, hnew]
  simp only [Bool.false_eq_true, if_false, not_false_eq_true, decide_true, if_true]
  omega

/-- A fragment as it stands in a selection set: the type it is on, if it names one, its selections, and the fragments
that are being expanded with it. -/
structure OpenFragment where
  on : Option String
  visiting : List String
  selections : List Document.Selection

/-- The fragment that a selection opens. There is none where directives exclude it, where it is not known, or where it
is being expanded already. -/
def Scope.fragment? (scope : Scope) (visiting : List String) : Document.Selection → Option OpenFragment
  | .field .. => none
  | .spread fragment directives =>
    if scope.excludes directives ∨ fragment ∈ visiting then none
    else (scope.fragments.lookup fragment).map fun definition =>
      { on := some definition.condition, visiting := fragment :: visiting, selections := definition.selections }
  | .inline on directives selections =>
    if scope.excludes directives then none else some { on, visiting, selections }

/-- The condition of the fields in a fragment, if the fragment applies. -/
def Scope.condition? (scope : Scope) (level : Level) (on : Option String) : Option (Option String) :=
  on.elim (some level.condition) fun on => scope.applicable? level.parentType on level.condition

/-- The selections that a fragment stands for, with their level and the type that the fragment is on. -/
structure Expansion where
  on : Option String
  level : Level
  selections : List Document.Selection

/-- The expansion of a selection: none for a field, and for a fragment that is not opened or does not apply. -/
def Scope.expansion? (scope : Scope) (level : Level) (selection : Document.Selection) : Option Expansion := do
  let fragment ← scope.fragment? level.visiting selection
  let condition ← scope.condition? level fragment.on
  return { on := fragment.on
           level := { level with visiting := fragment.visiting, condition }
           selections := fragment.selections }

theorem Scope.expansion?_eq_some {scope : Scope} {level : Level} {expansion : Expansion} :
    scope.expansion? level selection = some expansion ↔
      ∃ fragment condition, scope.fragment? level.visiting selection = some fragment ∧
        scope.condition? level fragment.on = some condition ∧
        expansion = ⟨fragment.on, { level with visiting := fragment.visiting, condition }, fragment.selections⟩ := by
  simp only [expansion?, Option.bind_eq_bind, Option.pure_def, Option.bind_eq_some_iff, Option.some.injEq]
  constructor
  · rintro ⟨fragment, hfragment, condition, hcondition, rfl⟩
    exact ⟨fragment, condition, hfragment, hcondition, rfl⟩
  · rintro ⟨fragment, condition, hfragment, hcondition, rfl⟩
    exact ⟨fragment, hfragment, condition, hcondition, rfl⟩

theorem Scope.fragment?_spread {scope : Scope} {visiting : List String} {name : String}
    (hfragment : scope.fragment? visiting (.spread name directives) = some fragment) :
    ∃ definition, scope.fragments.lookup name = some definition ∧ name ∉ visiting ∧
      fragment = ⟨some definition.condition, name :: visiting, definition.selections⟩ := by
  rw [fragment?] at hfragment
  split at hfragment
  · cases hfragment
  · rename_i hopen
    obtain ⟨definition, hknown, rfl⟩ := Option.map_eq_some_iff.1 hfragment
    exact ⟨definition, hknown, fun hvisited => hopen (.inr hvisited), rfl⟩

theorem Scope.fragment?_inline {scope : Scope} {visiting : List String} {on : Option String}
    {selections : List Document.Selection}
    (hfragment : scope.fragment? visiting (.inline on directives selections) = some fragment) :
    fragment = ⟨on, visiting, selections⟩ := by
  rw [fragment?] at hfragment
  split at hfragment
  · cases hfragment
  · exact (Option.some.inj hfragment).symm

/-- A fragment leaves fewer fragments to expand, or its selections are part of it. -/
theorem Scope.fragment?_lt {scope : Scope} {visiting : List String}
    (hfragment : scope.fragment? visiting selection = some fragment) :
    Prod.Lex (· < ·) (· < ·) (scope.unvisited fragment.visiting, sizeOf fragment.selections)
      (scope.unvisited visiting, sizeOf selection) := by
  cases selection with
  | field => cases hfragment
  | spread name directives =>
    obtain ⟨definition, hknown, hnew, rfl⟩ := fragment?_spread hfragment
    exact .left _ _ (unvisited_cons_lt hknown hnew)
  | inline on directives selections =>
    obtain rfl := fragment?_inline hfragment
    exact .right _ (by simp only [Document.Selection.inline.sizeOf_spec]; omega)

/-- A field selection, and where it was met. -/
structure Occurrence where
  aliasName : Option String
  name : String
  arguments : List (String × Document.Value)
  directives : List Document.Directive
  selections : List Document.Selection
  position : Document.Position
  level : Level
  /-- The types of the fragments around it, the innermost first. -/
  within : List String

/-- The occurrences of a level in document order. Fragments are expanded in place, and a field that directives exclude
is left out. -/
def occurrences (scope : Scope) (within : List String) (level : Level) : List Document.Selection → List Occurrence
  | [] => []
  | .field aliasName name arguments directives selections position :: rest =>
    (if scope.excludes directives then []
      else [{ aliasName, name, arguments, directives, selections, position, level, within }])
    ++ occurrences scope within level rest
  | selection :: rest =>
    (match _ : scope.expansion? level selection with
      | none => []
      | some expansion => occurrences scope (expansion.on.toList ++ within) expansion.level expansion.selections)
    ++ occurrences scope within level rest
termination_by selections => (scope.unvisited level.visiting, sizeOf selections)
decreasing_by
  · exact .right _ (by simp only [List.cons.sizeOf_spec]; omega)
  · rename_i hexpansion
    obtain ⟨fragment, condition, hfragment, -, rfl⟩ := Scope.expansion?_eq_some.1 hexpansion
    have hlt := scope.fragment?_lt hfragment
    simp only [Prod.lex_def, List.cons.sizeOf_spec] at hlt ⊢
    omega
  · exact .right _ (by simp only [List.cons.sizeOf_spec]; omega)

namespace Occurrence

def key (occurrence : Occurrence) : String := occurrence.aliasName.getD occurrence.name

/-- Whether the name of the type itself is asked for. -/
def asksTypename (occurrence : Occurrence) : Bool := occurrence.name = "__typename"

/-- The level of the selections below an occurrence. -/
def levelBelow (scope : Scope) (occurrence : Occurrence) : Level :=
  { visiting := occurrence.level.visiting
    parentType := scope.nestedType occurrence.level.parentType occurrence.level.condition occurrence.name }

/-- The occurrences below an occurrence. -/
def below (scope : Scope) (occurrence : Occurrence) : List Occurrence :=
  occurrences scope [] (occurrence.levelBelow scope) occurrence.selections

end Occurrence

/-! ### Merged sets -/

/-- The occurrences that become entries of a set. -/
def entriesOf (occurrences : List Occurrence) : List Occurrence := occurrences.filter fun o => !o.asksTypename

/-- The occurrences of a response key. -/
def entriesAt (key : String) (occurrences : List Occurrence) : List Occurrence :=
  (entriesOf occurrences).filter fun o => o.key = key

/-- The condition of all occurrences, if they agree on one. -/
def commonCondition (first : Occurrence) (rest : List Occurrence) : Option String :=
  if ∀ o ∈ rest, o.level.condition = first.level.condition then first.level.condition else none

/-- The entry of a key: selected as its first occurrence says, under the condition that all of them agree on. -/
def mergedField (scope : Scope) (first : Occurrence) (rest : List Occurrence) (selections : Option SelectionSet) :
    SelectedField where
  name := first.name
  aliasName := first.aliasName
  arguments := Document.Value.argumentTable scope.variableValues first.arguments
  directives := scope.appliedDirectives first.directives
  typeCondition := commonCondition first rest
  position := first.position
  selections

mutual

/-- A set is the merge of the occurrences of its level: one entry for each response key, in the order in which the keys
first occur. -/
inductive Merges (scope : Scope) : List Occurrence → SelectionSet → Prop where
  | intro {occurrences : List Occurrence} {fields : List SelectedField} {typename : Bool}
      (htypename : typename = occurrences.any Occurrence.asksTypename)
      (hkeys : fields.map SelectedField.responseKey = ((entriesOf occurrences).map Occurrence.key).eraseDups)
      (hfields : ∀ field ∈ fields, MergesField scope (entriesAt field.responseKey occurrences) field) :
      Merges scope occurrences ⟨fields, typename⟩

/-- An entry is the merge of the occurrences of its key. If any of them selects something below, the merge of what all
of them select there stands below the entry. -/
inductive MergesField (scope : Scope) : List Occurrence → SelectedField → Prop where
  | leaf {first : Occurrence} {rest : List Occurrence} (hleaf : ∀ o ∈ first :: rest, o.selections = []) :
      MergesField scope (first :: rest) (mergedField scope first rest none)
  | nested {first : Occurrence} {rest : List Occurrence} {set : SelectionSet}
      (hnested : ∃ o ∈ first :: rest, o.selections ≠ [])
      (hset : Merges scope ((first :: rest).flatMap (Occurrence.below scope)) set) :
      MergesField scope (first :: rest) (mergedField scope first rest (some set))

end

/-! ### One occurrence more -/

theorem nodup_eraseDups [DecidableEq α] (elements : List α) : elements.eraseDups.Nodup := by
  match elements with
  | [] => simp
  | element :: rest =>
    rw [List.eraseDups_cons, List.nodup_cons]
    refine ⟨fun hmem => ?_, nodup_eraseDups _⟩
    simpa using List.mem_eraseDups.1 hmem
termination_by elements.length
decreasing_by exact Nat.lt_succ_of_le (List.length_filter_le _ _)

theorem eraseDups_concat [DecidableEq α] (elements : List α) (element : α) :
    (elements ++ [element]).eraseDups =
      if element ∈ elements then elements.eraseDups else elements.eraseDups ++ [element] := by
  rw [List.eraseDups_append]
  split
  · rename_i hmem
    simp [List.removeAll, hmem]
  · rename_i hmem
    simp [List.removeAll, hmem, List.eraseDups_cons]

theorem keys_upsertField {key : String} {change : SelectedField → SelectedField}
    (hchange : ∀ field, (change field).responseKey = field.responseKey) (hfresh : fresh.responseKey = key)
    (fields : List SelectedField) :
    (upsertField key change fresh fields).map SelectedField.responseKey =
      if key ∈ fields.map SelectedField.responseKey then fields.map SelectedField.responseKey
      else fields.map SelectedField.responseKey ++ [key] := by
  induction fields with
  | nil => simp [upsertField, hfresh]
  | cons field rest ih =>
    by_cases hkey : field.responseKey = key
    · simp [upsertField, hkey, hchange]
    · rw [upsertField, if_neg hkey, List.map_cons, ih, List.map_cons]
      split
      · rename_i hmem
        rw [if_pos (List.mem_cons_of_mem _ hmem)]
      · rename_i hmem
        rw [if_neg (by simp [Ne.symm hkey, hmem]), List.cons_append]

theorem mem_upsertField {key : String} {change : SelectedField → SelectedField}
    (hnodup : (fields.map SelectedField.responseKey).Nodup) (hmem : field ∈ upsertField key change fresh fields) :
    (field ∈ fields ∧ field.responseKey ≠ key) ∨ (∃ old ∈ fields, old.responseKey = key ∧ field = change old) ∨
      (key ∉ fields.map SelectedField.responseKey ∧ field = fresh) := by
  induction fields with
  | nil => exact .inr (.inr ⟨by simp, by simpa [upsertField] using hmem⟩)
  | cons first rest ih =>
    rw [List.map_cons, List.nodup_cons] at hnodup
    by_cases hkey : first.responseKey = key
    · rw [upsertField, if_pos hkey, List.mem_cons] at hmem
      rcases hmem with rfl | hmem
      · exact .inr (.inl ⟨first, List.mem_cons_self, hkey, rfl⟩)
      · refine .inl ⟨List.mem_cons_of_mem _ hmem, fun hsame => hnodup.1 ?_⟩
        rw [hkey, ← hsame]
        exact List.mem_map_of_mem hmem
    · rw [upsertField, if_neg hkey, List.mem_cons] at hmem
      rcases hmem with rfl | hmem
      · exact .inl ⟨List.mem_cons_self, hkey⟩
      · rcases ih hnodup.2 hmem with ⟨hold, hother⟩ | ⟨old, hold, hsame, rfl⟩ | ⟨hnew, rfl⟩
        · exact .inl ⟨List.mem_cons_of_mem _ hold, hother⟩
        · exact .inr (.inl ⟨old, List.mem_cons_of_mem _ hold, hsame, rfl⟩)
        · exact .inr (.inr ⟨by simp [Ne.symm hkey, hnew], rfl⟩)

section

variable {scope : Scope} {within : List String} {level : Level}

theorem occurrences_nil : occurrences scope within level [] = [] := by
  rw [occurrences]

theorem occurrences_cons (selection : Document.Selection) (rest : List Document.Selection) :
    occurrences scope within level (selection :: rest) =
      occurrences scope within level [selection] ++ occurrences scope within level rest := by
  cases selection <;> simp only [occurrences, List.append_nil]

theorem occurrences_field (aliasName : Option String) (name : String) (arguments : List (String × Document.Value))
    (directives : List Document.Directive) (selections : List Document.Selection) (position : Document.Position) :
    occurrences scope within level [.field aliasName name arguments directives selections position] =
      if scope.excludes directives then []
      else [{ aliasName, name, arguments, directives, selections, position, level, within }] := by
  rw [occurrences, occurrences_nil, List.append_nil]

def expanded (scope : Scope) (within : List String) (expansion? : Option Expansion) : List Occurrence :=
  expansion?.elim [] fun expansion =>
    occurrences scope (expansion.on.toList ++ within) expansion.level expansion.selections

theorem occurrences_fragment {selection : Document.Selection}
    (hfragment : ∀ aliasName name arguments directives selections position,
      selection ≠ .field aliasName name arguments directives selections position) :
    occurrences scope within level [selection] = expanded scope within (scope.expansion? level selection) := by
  cases selection with
  | field => exact absurd rfl (hfragment _ _ _ _ _ _)
  | spread | inline =>
    rw [occurrences.eq_def]
    dsimp only
    rw [occurrences_nil, List.append_nil]
    split <;> simp [expanded, *]

end

theorem Occurrence.below_of_selections_eq_nil {scope : Scope} {occurrence : Occurrence}
    (hleaf : occurrence.selections = []) : occurrence.below scope = [] := by
  rw [Occurrence.below, hleaf, occurrences_nil]

theorem commonCondition_concat (first : Occurrence) (rest : List Occurrence) (last : Occurrence) :
    commonCondition first (rest ++ [last]) =
      if commonCondition first rest = last.level.condition then commonCondition first rest else none := by
  unfold commonCondition
  by_cases hagree : ∀ o ∈ rest, o.level.condition = first.level.condition
  · by_cases hlast : last.level.condition = first.level.condition
    · have hall : ∀ o ∈ rest ++ [last], o.level.condition = first.level.condition := by
        intro o ho
        rcases List.mem_append.1 ho with ho | ho
        · exact hagree o ho
        · rw [List.mem_singleton.1 ho, hlast]
      rw [if_pos hall, if_pos hagree, if_pos hlast.symm]
    · have hsome : ¬ ∀ o ∈ rest ++ [last], o.level.condition = first.level.condition := fun hall =>
        hlast (hall last (by simp))
      rw [if_neg hsome, if_pos hagree, if_neg (Ne.symm hlast)]
  · have hsome : ¬ ∀ o ∈ rest ++ [last], o.level.condition = first.level.condition := fun hall =>
      hagree fun o ho => hall o (List.mem_append_left _ ho)
    rw [if_neg hsome, if_neg hagree, ite_self]

/-- What merging one level into a set must do: the set then merges the occurrences of that level too. -/
def Absorbs (scope : Scope) (new : List Occurrence) (change : SelectionSet → SelectionSet) : Prop :=
  ∀ old target, Merges scope old target → Merges scope (old ++ new) (change target)

theorem Absorbs.comp {scope : Scope} {first second : List Occurrence} {change' : SelectionSet → SelectionSet}
    (hfirst : Absorbs scope first change) (hsecond : Absorbs scope second change') :
    Absorbs scope (first ++ second) fun target => change' (change target) := by
  intro old target htarget
  rw [← List.append_assoc]
  exact hsecond _ _ (hfirst _ _ htarget)

theorem Absorbs.nil {scope : Scope} : Absorbs scope [] fun target => target := by
  intro old target htarget
  rwa [List.append_nil]

theorem merges_empty {scope : Scope} : Merges scope [] .empty := .intro rfl rfl (by simp)

/-- The sets below an entry: none where no occurrence selects anything, else the merge of what they select. -/
def MergesBelow (scope : Scope) (group : List Occurrence) (selections : Option SelectionSet) : Prop :=
  (selections = none ∧ ∀ o ∈ group, o.selections = []) ∨
    ∃ set, selections = some set ∧ (∃ o ∈ group, o.selections ≠ []) ∧
      Merges scope (group.flatMap (Occurrence.below scope)) set

theorem mergesField_iff {scope : Scope} :
    MergesField scope group field ↔
      ∃ first rest, group = first :: rest ∧ MergesBelow scope group field.selections ∧
        field = mergedField scope first rest field.selections := by
  constructor
  · rintro (hleaf | ⟨hnested, hset⟩)
    · exact ⟨_, _, rfl, .inl ⟨rfl, hleaf⟩, rfl⟩
    · exact ⟨_, _, rfl, .inr ⟨_, rfl, hnested, hset⟩, rfl⟩
  · rintro ⟨first, rest, rfl, ⟨hnone, hleaf⟩ | ⟨set, hsome, hnested, hset⟩, heq⟩
    · rw [heq, hnone]
      exact .leaf hleaf
    · rw [heq, hsome]
      exact .nested hnested hset

/-- The set below an entry after one more occurrence of its key. -/
theorem MergesBelow.concat {scope : Scope} {selections : Option SelectionSet}
    (hbelow : MergesBelow scope group selections) (hchange : Absorbs scope (last.below scope) change) :
    MergesBelow scope (group ++ [last])
      (if last.selections.isEmpty then selections else some (change (selections.getD .empty))) := by
  cases hlast : last.selections with
  | nil =>
    have hlastBelow : last.below scope = [] := Occurrence.below_of_selections_eq_nil hlast
    rcases hbelow with ⟨hnone, hleaf⟩ | ⟨set, hsome, ⟨o, ho, hne⟩, hset⟩
    · refine .inl ⟨hnone, fun o ho => ?_⟩
      rcases List.mem_append.1 ho with ho | ho
      · exact hleaf o ho
      · rw [List.mem_singleton.1 ho, hlast]
    · refine .inr ⟨set, hsome, ⟨o, List.mem_append_left _ ho, hne⟩, ?_⟩
      simpa [hlastBelow] using hset
  | cons selection rest =>
    refine .inr ⟨_, rfl, ⟨last, by simp, by simp [hlast]⟩, ?_⟩
    rw [List.flatMap_append, List.flatMap_singleton]
    apply hchange
    rcases hbelow with ⟨hnone, hleaf⟩ | ⟨set, hsome, -, hset⟩
    · have hnil : group.flatMap (Occurrence.below scope) = [] :=
        List.flatMap_eq_nil_iff.2 fun o ho => Occurrence.below_of_selections_eq_nil (hleaf o ho)
      rw [hnone, hnil]
      exact merges_empty
    · rw [hsome]
      exact hset

theorem entriesOf_concat (hentry : last.asksTypename = false) (old : List Occurrence) :
    entriesOf (old ++ [last]) = entriesOf old ++ [last] := by
  simp [entriesOf, hentry]

theorem entriesAt_concat_self (hentry : last.asksTypename = false) (old : List Occurrence) :
    entriesAt last.key (old ++ [last]) = entriesAt last.key old ++ [last] := by
  simp [entriesAt, entriesOf_concat hentry]

theorem entriesAt_concat_of_ne {key : String} (hentry : last.asksTypename = false) (hkey : key ≠ last.key)
    (old : List Occurrence) : entriesAt key (old ++ [last]) = entriesAt key old := by
  simp [entriesAt, entriesOf_concat hentry, Ne.symm hkey]

theorem entriesAt_eq_nil {key : String} {occurrences : List Occurrence}
    (hkey : key ∉ (entriesOf occurrences).map Occurrence.key) : entriesAt key occurrences = [] := by
  rw [entriesAt, List.filter_eq_nil_iff]
  intro o ho hsame
  exact hkey (List.mem_map.2 ⟨o, ho, by simpa using hsame⟩)

/-- One more occurrence of a field: a later occurrence of its key changes the entry, the first one adds it. -/
theorem absorbs_entry {scope : Scope} (hentry : last.asksTypename = false)
    (hchange : Absorbs scope (last.below scope) change) : let nest (selections : Option SelectionSet) :=
      if last.selections.isEmpty then selections else some (change (selections.getD .empty))
    Absorbs scope [last] fun target =>
      { target with
        fields := upsertField last.key
          (fun field => { field with
            typeCondition := if field.typeCondition = last.level.condition then field.typeCondition else none
            selections := nest field.selections })
          (mergedField scope last [] (nest none)) target.fields } := by
  intro nest old target htarget
  obtain ⟨htypename, hkeys, hfields⟩ := htarget
  rename_i fields typename
  have hnodup : (fields.map SelectedField.responseKey).Nodup := hkeys ▸ nodup_eraseDups _
  have hknown (key : String) :
      key ∈ fields.map SelectedField.responseKey ↔ key ∈ (entriesOf old).map Occurrence.key := by
    rw [hkeys, List.mem_eraseDups]
  refine .intro (by simp [htypename, hentry]) ?_ ?_
  · refine (keys_upsertField ?_ ?_ fields).trans ?_
    · exact fun _ => rfl
    · rfl
    rw [entriesOf_concat hentry, List.map_append, List.map_singleton, eraseDups_concat, hkeys]
    simp only [List.mem_eraseDups]
  · intro field hfield
    rcases mem_upsertField hnodup hfield with ⟨hold, hother⟩ | ⟨earlier, hold, hsame, rfl⟩ | ⟨hnew, rfl⟩
    · rw [entriesAt_concat_of_ne hentry hother]
      exact hfields field hold
    · have hgroup := hfields earlier hold
      rw [hsame] at hgroup
      obtain ⟨first, rest, hsplit, hbelow, hearlier⟩ := mergesField_iff.1 hgroup
      have hkey : SelectedField.responseKey { earlier with
          typeCondition := if earlier.typeCondition = last.level.condition then earlier.typeCondition else none
          selections := nest earlier.selections } = last.key := hsame
      rw [hkey, entriesAt_concat_self hentry]
      refine mergesField_iff.2 ⟨first, rest ++ [last], by rw [hsplit, List.cons_append], hbelow.concat hchange, ?_⟩
      have hcondition : earlier.typeCondition = commonCondition first rest := congrArg SelectedField.typeCondition hearlier
      rw [hcondition, ← commonCondition_concat, hearlier]
      rfl
    · have hkey : (mergedField scope last [] (nest none)).responseKey = last.key := rfl
      rw [hkey, entriesAt_concat_self hentry, entriesAt_eq_nil (mt (hknown _).2 hnew), List.nil_append]
      have hbelow : MergesBelow scope [] none := .inl ⟨rfl, by simp⟩
      exact mergesField_iff.2 ⟨last, [], rfl, hbelow.concat hchange, rfl⟩

theorem absorbs_typename {scope : Scope} (htypename : last.asksTypename) :
    Absorbs scope [last] fun target => { target with typename := true } := by
  intro old target htarget
  obtain ⟨-, hkeys, hfields⟩ := htarget
  have hentries : entriesOf (old ++ [last]) = entriesOf old := by simp [entriesOf, htypename]
  refine .intro (by simp [htypename]) (by rw [hkeys, hentries]) fun field hfield => ?_
  rw [entriesAt, hentries]
  exact hfields field hfield

/-! ### Whole levels -/

/-- Whether spread fragments are merged as their occurrences say, when they are not being expanded already. -/
def AbsorbsFragments (scope : Scope) (visiting : List String)
    (expand : Level → List Document.Selection → SelectionSet → SelectionSet) : Prop :=
  ∀ fragment definition, scope.fragments.lookup fragment = some definition → fragment ∉ visiting →
    ∀ within parentType condition,
      let level : Level := { visiting := fragment :: visiting, parentType, condition }
      Absorbs scope (occurrences scope within level definition.selections) (expand level definition.selections)

section

variable {scope : Scope} {visiting : List String}
  {expand : Level → List Document.Selection → SelectionSet → SelectionSet}

theorem mergeOneWith_spread (level : Level) (fragment : String) (directives : List Document.Directive) :
    mergeOneWith scope expand level (.spread fragment directives) =
      (scope.expansion? level (.spread fragment directives)).elim id fun expansion =>
        expand expansion.level expansion.selections := by
  funext target
  simp only [mergeOneWith, Scope.expansion?, Scope.fragment?, Bool.or_eq_true, List.contains_iff_mem]
  split
  · rfl
  · cases scope.fragments.lookup fragment with
    | none => rfl
    | some definition =>
      simp only [Option.map_some, Option.bind_eq_bind, Option.bind_some, Scope.condition?, Option.elim_some]
      cases scope.applicable? level.parentType definition.condition level.condition <;> rfl

theorem mergeOneWith_inline (level : Level) (on : Option String) (directives : List Document.Directive)
    (selections : List Document.Selection) :
    mergeOneWith scope expand level (.inline on directives selections) =
      (scope.expansion? level (.inline on directives selections)).elim id fun expansion =>
        mergeWith scope expand expansion.level expansion.selections := by
  funext target
  simp only [mergeOneWith, Scope.expansion?, Scope.fragment?]
  split
  · rfl
  · cases on with
    | none => rfl
    | some on =>
      simp only [Option.bind_eq_bind, Option.bind_some, Scope.condition?, Option.elim_some]
      cases scope.applicable? level.parentType on level.condition <;> rfl

mutual

theorem mergeWith_absorbs (hexpand : AbsorbsFragments scope visiting expand) :
    ∀ (selections : List Document.Selection) (within : List String) (parentType : String) (condition : Option String),
      Absorbs scope (occurrences scope within { visiting, parentType, condition } selections)
        (mergeWith scope expand { visiting, parentType, condition } selections)
  | [], within, parentType, condition => by
    rw [occurrences_nil]
    exact .nil
  | selection :: rest, within, parentType, condition => by
    rw [occurrences_cons]
    exact (mergeOneWith_absorbs hexpand selection within parentType condition).comp
      (mergeWith_absorbs hexpand rest within parentType condition)

theorem mergeOneWith_absorbs (hexpand : AbsorbsFragments scope visiting expand) :
    ∀ (selection : Document.Selection) (within : List String) (parentType : String) (condition : Option String),
      Absorbs scope (occurrences scope within { visiting, parentType, condition } [selection])
        (mergeOneWith scope expand { visiting, parentType, condition } selection)
  | .field aliasName name arguments directives selections position, within, parentType, condition => by
    rw [occurrences_field]
    split
    · rename_i hexcluded
      simp only [mergeOneWith, hexcluded, if_true]
      exact .nil
    · rename_i hselected
      by_cases htypename : name = "__typename"
      · simp only [mergeOneWith, hselected, htypename, if_true]
        exact absorbs_typename (by simp [Occurrence.asksTypename])
      · have hbelow := mergeWith_absorbs hexpand selections [] (scope.nestedType parentType condition name) none
        simp only [mergeOneWith, hselected, htypename, if_false]
        exact absorbs_entry (by simpa [Occurrence.asksTypename] using htypename) hbelow
  | .spread fragment directives, within, parentType, condition => by
    rw [occurrences_fragment (by simp), mergeOneWith_spread]
    cases hexpansion : scope.expansion? { visiting, parentType, condition } (.spread fragment directives) with
    | none => exact .nil
    | some expansion =>
      obtain ⟨opened, inner, hopened, -, rfl⟩ := Scope.expansion?_eq_some.1 hexpansion
      obtain ⟨definition, hknown, hnew, rfl⟩ := Scope.fragment?_spread hopened
      exact hexpand fragment definition hknown hnew _ parentType inner
  | .inline on directives selections, within, parentType, condition => by
    rw [occurrences_fragment (by simp), mergeOneWith_inline]
    cases hexpansion : scope.expansion? { visiting, parentType, condition } (.inline on directives selections) with
    | none => exact .nil
    | some expansion =>
      obtain ⟨opened, inner, hopened, -, rfl⟩ := Scope.expansion?_eq_some.1 hexpansion
      obtain rfl := Scope.fragment?_inline hopened
      exact mergeWith_absorbs hexpand selections _ parentType inner

end

end

/-- With a depth of at least the number of fragments that can still be expanded, none is cut short. -/
theorem mergeNested_absorbs {scope : Scope} (depth : Nat) (selections : List Document.Selection) (within : List String)
    (level : Level) (hdepth : scope.unvisited level.visiting ≤ depth) :
    Absorbs scope (occurrences scope within level selections) (mergeNested scope depth level selections) := by
  induction depth generalizing selections within level with
  | zero =>
    refine mergeWith_absorbs (fun fragment definition hknown hnew => ?_) selections within level.parentType
      level.condition
    have hlt := Scope.unvisited_cons_lt hknown hnew
    omega
  | succ depth ih =>
    refine mergeWith_absorbs (fun fragment definition hknown hnew within parentType condition => ?_) selections within
      level.parentType level.condition
    have hlt := Scope.unvisited_cons_lt hknown hnew
    exact ih definition.selections within { visiting := fragment :: level.visiting, parentType, condition } (by
      dsimp only
      omega)

theorem collect_merges (scope : Scope) (parentType : String) (selections : List Document.Selection) :
    Merges scope (occurrences scope [] { parentType } selections) (collect scope parentType selections) := by
  have hdepth : scope.unvisited [] ≤ scope.fragments.length := List.countP_le_length
  exact mergeNested_absorbs scope.fragments.length selections [] { parentType } hdepth [] .empty merges_empty

/-! ### Distinct keys -/

/-- No response key occurs twice on any level. -/
inductive Distinct : SelectionSet → Prop where
  | intro {fields : List SelectedField} {typename : Bool} (hkeys : (fields.map SelectedField.responseKey).Nodup)
      (hbelow : ∀ field ∈ fields, ∀ set, field.selections = some set → Distinct set) : Distinct ⟨fields, typename⟩

mutual

theorem Merges.distinct {scope : Scope} : ∀ {occurrences : List Occurrence} {set : SelectionSet},
    Merges scope occurrences set → Distinct set
  | _, _, .intro _ hkeys hfields =>
    .intro (hkeys ▸ nodup_eraseDups _) fun field hmem => MergesField.distinct (hfields field hmem)

theorem MergesField.distinct {scope : Scope} : ∀ {group : List Occurrence} {field : SelectedField},
    MergesField scope group field → ∀ set, field.selections = some set → Distinct set
  | _, _, .leaf _, _, hset => nomatch hset
  | _, _, .nested _ hmerges, _, rfl => hmerges.distinct

end

/-! ### Only one set is the merge -/

theorem forall₂_of_keys_eq {related : SelectedField → SelectedField → Prop} {fields' : List SelectedField}
    (hkeys : fields.map SelectedField.responseKey = fields'.map SelectedField.responseKey)
    (hrelated : ∀ field ∈ fields, ∀ field' ∈ fields', field.responseKey = field'.responseKey → related field field') :
    List.Forall₂ related fields fields' := by
  induction fields generalizing fields' with
  | nil =>
    rw [List.map_nil, eq_comm, List.map_eq_nil_iff] at hkeys
    rw [hkeys]
    exact .nil
  | cons field rest ih =>
    cases fields' with
    | nil => cases hkeys
    | cons field' rest' =>
      rw [List.map_cons, List.map_cons, List.cons.injEq] at hkeys
      refine .cons (hrelated field List.mem_cons_self field' List.mem_cons_self hkeys.1) (ih hkeys.2 ?_)
      exact fun a ha b hb => hrelated a (List.mem_cons_of_mem _ ha) b (List.mem_cons_of_mem _ hb)

theorem eq_of_keys_eq {fields' : List SelectedField}
    (hkeys : fields.map SelectedField.responseKey = fields'.map SelectedField.responseKey)
    (hsame : ∀ field ∈ fields, ∀ field' ∈ fields', field.responseKey = field'.responseKey → field = field') :
    fields = fields' := by
  rw [← List.forall₂_eq_eq_eq]
  exact forall₂_of_keys_eq hkeys hsame

mutual

theorem Merges.unique {scope : Scope} : ∀ {occurrences : List Occurrence} {set set' : SelectionSet},
    Merges scope occurrences set → Merges scope occurrences set' → set = set'
  | _, _, _, .intro htypename hkeys hfields, .intro htypename' hkeys' hfields' => by
    rw [htypename, htypename', eq_of_keys_eq (hkeys.trans hkeys'.symm) fun field hfield field' hfield' hkey =>
      MergesField.unique (hfields field hfield) (hkey ▸ hfields' field' hfield')]

theorem MergesField.unique {scope : Scope} : ∀ {group : List Occurrence} {field field' : SelectedField},
    MergesField scope group field → MergesField scope group field' → field = field'
  | _, _, _, .leaf _, .leaf _ => rfl
  | _, _, _, .leaf hleaf, .nested ⟨o, ho, hne⟩ _ => absurd (hleaf o ho) hne
  | _, _, _, .nested ⟨o, ho, hne⟩ _, .leaf hleaf => absurd (hleaf o ho) hne
  | _, _, _, .nested _ hset, .nested _ hset' => by rw [Merges.unique hset hset']

end

/-- Collecting gives the one set that merges the occurrences of the selections. -/
theorem eq_collect_iff_merges (scope : Scope) (parentType : String) (selections : List Document.Selection)
    (set : SelectionSet) :
    set = collect scope parentType selections ↔ Merges scope (occurrences scope [] { parentType } selections) set := by
  constructor
  · rintro rfl
    exact collect_merges scope parentType selections
  · exact fun hset => hset.unique (collect_merges scope parentType selections)

/-- Asks for a field without arguments or directives. -/
def asks (name : String) (selections : List Document.Selection) (aliasName : Option String := none) :
    Document.Selection :=
  .field aliasName name [] [] selections {}

-- The first name is left out and the fragment is not. The name in it carries its condition and its directive.
example :
    let scope : Scope :=
      { schema :=
          { interfaces := [("Node", { name := "Node" })]
            objects := [("User", { name := "User", interfaces := ["Node"] })]
            declared := ["Node", "User"] }
        variableValues := [("full", .bool false)] }
    let whether (name : String) : Document.Directive := { name, arguments := [("if", .variable "full")] }
    let name (directives : List Document.Directive) : Document.Selection := .field none "name" [] directives [] {}
    let selections := [asks "id" [], name [whether "include"], .inline (some "User") [whether "skip"]
      [name [{ name := "upper", arguments := [("first", .boolean true)] }], asks "id" [] (some "key")], asks "id" []]
    let leaf (name : String) (aliasName typeCondition : Option String) (directives : List AppliedDirective) :=
      { name, aliasName, arguments := [], directives, typeCondition, position := {}, selections := none }
    collect scope "Node" selections =
      ⟨[leaf "id" none none [],
        leaf "name" none (some "User") [{ name := "upper", arguments := [("first", .bool true)] }],
        leaf "id" (some "key") (some "User") []], false⟩ := by
  rfl

end RelationalGraphQL.Selection
