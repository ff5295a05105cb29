import RelationalGraphQL.Proofs.Selection.Merge

/-!
# Collecting comes to an end

Collecting goes through selections one after the other with a stack of the fragments being expanded. A spread puts its
fragment on the stack, collects what the fragment selects, and takes the top off again; the selections below a field
are collected with the stack as it is, so a fragment may also spread itself through a field of its own. `Collects` says
where such a run ends, step by step and with nothing that bounds it. Every run ends, with the stack it began with and
the merged set (`collects_iff_merge`): each spread leaves fewer fragments that may still be opened, and all other steps
go to a part of the selections.
-/

namespace RelationalGraphQL.Selection

/-- The state of collecting: the fragments being expanded, the innermost first, and the set so far. -/
structure Progress where
  visiting : List String
  target : SelectionSet

/-- The set that is below a key so far, empty where there is none. -/
def belowKey (key : String) (target : SelectionSet) : SelectionSet :=
  ((target.get? key).bind SelectedField.selections).getD .empty

/-- Enters an occurrence of a field in a set, with what becomes of the set below it. -/
def enter (scope : Scope) (o : Occurrence) (nest : Option SelectionSet → Option SelectionSet) (target : SelectionSet) :
    SelectionSet :=
  { target with
    fields := upsertField o.key
      (fun field => { field with
        typeCondition := if field.typeCondition = o.level.condition then field.typeCondition else none
        selections := nest field.selections })
      (mergedField scope o [] (nest none)) target.fields }

/-- A run of collecting selections on a type, under a condition. Every step says what becomes of the stack. -/
inductive Collects (scope : Scope) :
    String → Option String → List Document.Selection → Progress → Progress → Prop where
  | done {parentType : String} {condition : Option String} {progress : Progress} :
      Collects scope parentType condition [] progress progress
  /-- A field that directives exclude is passed over. -/
  | excluded {parentType : String} {condition aliasName : Option String} {name : String}
      {arguments : List (String × Document.Value)} {directives : List Document.Directive}
      {selections rest : List Document.Selection} {position : Document.Position} {progress final : Progress}
      (hexcluded : scope.excludes directives)
      (hrest : Collects scope parentType condition rest progress final) :
      Collects scope parentType condition (.field aliasName name arguments directives selections position :: rest)
        progress final
  | typename {parentType : String} {condition aliasName : Option String}
      {arguments : List (String × Document.Value)} {directives : List Document.Directive}
      {selections rest : List Document.Selection} {position : Document.Position} {progress final : Progress}
      (hselected : ¬scope.excludes directives)
      (hrest : Collects scope parentType condition rest
        { progress with target := { progress.target with typename := true } } final) :
      Collects scope parentType condition
        (.field aliasName "__typename" arguments directives selections position :: rest) progress final
  /-- A field without selections only enters the set. -/
  | leaf {parentType : String} {condition aliasName : Option String} {name : String}
      {arguments : List (String × Document.Value)} {directives : List Document.Directive}
      {rest : List Document.Selection} {position : Document.Position} {progress final : Progress}
      (hselected : ¬scope.excludes directives) (hname : name ≠ "__typename")
      (hrest : Collects scope parentType condition rest
        { progress with
          target := enter scope
            ⟨aliasName, name, arguments, directives, [], position, ⟨progress.visiting, parentType, condition⟩, []⟩ id
            progress.target } final) :
      Collects scope parentType condition (.field aliasName name arguments directives [] position :: rest) progress final
  /-- The selections of a field are collected into the set below its key, with the stack as it is. -/
  | nested {parentType : String} {condition aliasName : Option String} {name : String}
      {arguments : List (String × Document.Value)} {directives : List Document.Directive}
      {selections rest : List Document.Selection} {position : Document.Position} {progress inner final : Progress}
      (hselected : ¬scope.excludes directives) (hname : name ≠ "__typename") (hne : selections ≠ [])
      (hbelow : Collects scope (scope.nestedType parentType condition name) none selections
        { progress with target := belowKey (aliasName.getD name) progress.target } inner)
      (hrest : Collects scope parentType condition rest
        { inner with
          target := enter scope
            ⟨aliasName, name, arguments, directives, selections, position,
              ⟨progress.visiting, parentType, condition⟩, []⟩
            (fun _ => some inner.target) progress.target } final) :
      Collects scope parentType condition (.field aliasName name arguments directives selections position :: rest)
        progress final
  /-- A spread is passed over that directives exclude, whose fragment is on the stack, is not known or does not apply. -/
  | closedSpread {parentType : String} {condition : Option String} {fragment : String}
      {directives : List Document.Directive} {rest : List Document.Selection} {progress final : Progress}
      (hclosed : scope.expansion? ⟨progress.visiting, parentType, condition⟩ (.spread fragment directives) = none)
      (hrest : Collects scope parentType condition rest progress final) :
      Collects scope parentType condition (.spread fragment directives :: rest) progress final
  /-- A fragment is put on the stack while its selections are collected. -/
  | spread {parentType : String} {condition : Option String} {fragment : String}
      {directives : List Document.Directive} {rest : List Document.Selection} {expansion : Expansion}
      {progress inner final : Progress}
      (hopened : scope.expansion? ⟨progress.visiting, parentType, condition⟩ (.spread fragment directives) =
        some expansion)
      (hwithin : Collects scope parentType expansion.level.condition expansion.selections
        { progress with visiting := fragment :: progress.visiting } inner)
      (hrest : Collects scope parentType condition rest { inner with visiting := inner.visiting.tail } final) :
      Collects scope parentType condition (.spread fragment directives :: rest) progress final
  | closedInline {parentType : String} {condition on : Option String} {directives : List Document.Directive}
      {selections rest : List Document.Selection} {progress final : Progress}
      (hclosed : scope.expansion? ⟨progress.visiting, parentType, condition⟩ (.inline on directives selections) = none)
      (hrest : Collects scope parentType condition rest progress final) :
      Collects scope parentType condition (.inline on directives selections :: rest) progress final
  | inline {parentType : String} {condition on : Option String} {directives : List Document.Directive}
      {selections rest : List Document.Selection} {expansion : Expansion} {progress inner final : Progress}
      (hopened : scope.expansion? ⟨progress.visiting, parentType, condition⟩ (.inline on directives selections) =
        some expansion)
      (hwithin : Collects scope parentType expansion.level.condition expansion.selections progress inner)
      (hrest : Collects scope parentType condition rest inner final) :
      Collects scope parentType condition (.inline on directives selections :: rest) progress final

theorem Collects.unique {scope : Scope} {parentType : String} {condition : Option String}
    {selections : List Document.Selection} {progress final final' : Progress}
    (hrun : Collects scope parentType condition selections progress final)
    (hrun' : Collects scope parentType condition selections progress final') : final = final' := by
  induction hrun generalizing final' with
  | done =>
    cases hrun'
    rfl
  | excluded hexcluded _ ih =>
    cases hrun' with
    | excluded _ hrest' => exact ih hrest'
    | typename hselected => exact absurd hexcluded hselected
    | leaf hselected => exact absurd hexcluded hselected
    | nested hselected => exact absurd hexcluded hselected
  | typename hselected _ ih =>
    cases hrun' with
    | excluded hexcluded => exact absurd hexcluded hselected
    | typename _ hrest' => exact ih hrest'
    | leaf _ hname => exact absurd rfl hname
    | nested _ hname => exact absurd rfl hname
  | leaf hselected hname _ ih =>
    cases hrun' with
    | excluded hexcluded => exact absurd hexcluded hselected
    | typename => exact absurd rfl hname
    | leaf _ _ hrest' => exact ih hrest'
    | nested _ _ hne => exact absurd rfl hne
  | nested hselected hname hne _ _ ihbelow ihrest =>
    cases hrun' with
    | excluded hexcluded => exact absurd hexcluded hselected
    | typename => exact absurd rfl hname
    | leaf => exact absurd rfl hne
    | nested _ _ _ hbelow' hrest' =>
      obtain rfl := ihbelow hbelow'
      exact ihrest hrest'
  | closedSpread hclosed _ ih =>
    cases hrun' with
    | closedSpread _ hrest' => exact ih hrest'
    | spread hopened => cases hclosed.symm.trans hopened
  | spread hopened _ _ ihwithin ihrest =>
    cases hrun' with
    | closedSpread hclosed => cases hclosed.symm.trans hopened
    | spread hopened' hwithin' hrest' =>
      obtain rfl := Option.some.inj (hopened.symm.trans hopened')
      obtain rfl := ihwithin hwithin'
      exact ihrest hrest'
  | closedInline hclosed _ ih =>
    cases hrun' with
    | closedInline _ hrest' => exact ih hrest'
    | inline hopened => cases hclosed.symm.trans hopened
  | inline hopened _ _ ihwithin ihrest =>
    cases hrun' with
    | closedInline hclosed => cases hclosed.symm.trans hopened
    | inline hopened' hwithin' hrest' =>
      obtain rfl := Option.some.inj (hopened.symm.trans hopened')
      obtain rfl := ihwithin hwithin'
      exact ihrest hrest'

/-! ### Every run ends -/

/-- Only the entry that has the key, or the fresh one where none has it, matters. -/
theorem upsertField_congr {key : String} {change change' : SelectedField → SelectedField} {fresh fresh' : SelectedField}
    {fields : List SelectedField}
    (hchange : ∀ field, fields.find? (·.responseKey = key) = some field → change field = change' field)
    (hfresh : fields.find? (·.responseKey = key) = none → fresh = fresh') :
    upsertField key change fresh fields = upsertField key change' fresh' fields := by
  induction fields with
  | nil => rw [upsertField, upsertField, hfresh rfl]
  | cons field rest ih =>
    by_cases hkey : field.responseKey = key
    · rw [upsertField, upsertField, if_pos hkey, if_pos hkey,
        hchange field (List.find?_cons_of_pos (by simpa using hkey))]
    · have hskip : (field :: rest).find? (·.responseKey = key) = rest.find? (·.responseKey = key) :=
        List.find?_cons_of_neg (by simpa using hkey)
      rw [hskip] at hchange hfresh
      rw [upsertField, upsertField, if_neg hkey, if_neg hkey, ih hchange hfresh]

theorem enter_congr (scope : Scope) (o : Occurrence) (nest nest' : Option SelectionSet → Option SelectionSet)
    (target : SelectionSet)
    (hnest : nest ((target.get? o.key).bind SelectedField.selections) =
      nest' ((target.get? o.key).bind SelectedField.selections)) :
    enter scope o nest target = enter scope o nest' target := by
  refine congrArg (fun fields => ({ target with fields } : SelectionSet)) (upsertField_congr ?_ ?_)
  · intro field hfield
    rw [SelectionSet.get?, hfield, Option.bind_some] at hnest
    rw [hnest]
  · intro hfield
    rw [SelectionSet.get?, hfield, Option.bind_none] at hnest
    rw [hnest]

/-- Whether every fragment that is not on the stack is collected, by runs that restore the stack. -/
def CollectsFragments (scope : Scope) (visiting : List String)
    (expand : Level → List Document.Selection → SelectionSet → SelectionSet) : Prop :=
  ∀ fragment definition, scope.fragments.lookup fragment = some definition → fragment ∉ visiting →
    ∀ parentType condition target,
      Collects scope parentType condition definition.selections ⟨fragment :: visiting, target⟩
        ⟨fragment :: visiting, expand ⟨fragment :: visiting, parentType, condition⟩ definition.selections target⟩

section

variable {scope : Scope} {visiting : List String}
  {expand : Level → List Document.Selection → SelectionSet → SelectionSet}

mutual

theorem mergeWith_collects (hexpand : CollectsFragments scope visiting expand) :
    ∀ (selections : List Document.Selection) (parentType : String) (condition : Option String) (target : SelectionSet),
      Collects scope parentType condition selections ⟨visiting, target⟩
        ⟨visiting, mergeWith scope expand ⟨visiting, parentType, condition⟩ selections target⟩
  | [], _, _, _ => .done
  | selection :: rest, parentType, condition, target =>
    mergeOneWith_collects hexpand selection parentType condition target
      (mergeWith_collects hexpand rest parentType condition _)

/-- One selection is collected, and then the others. -/
theorem mergeOneWith_collects (hexpand : CollectsFragments scope visiting expand) :
    ∀ (selection : Document.Selection) (parentType : String) (condition : Option String) (target : SelectionSet)
      {rest : List Document.Selection} {final : Progress},
      Collects scope parentType condition rest
        ⟨visiting, mergeOneWith scope expand ⟨visiting, parentType, condition⟩ selection target⟩ final →
      Collects scope parentType condition (selection :: rest) ⟨visiting, target⟩ final
  | .field aliasName name arguments directives selections position, parentType, condition, target, rest, final => by
    intro hrest
    by_cases hexcluded : scope.excludes directives
    · rw [mergeOneWith, if_pos hexcluded] at hrest
      exact .excluded hexcluded hrest
    by_cases hname : name = "__typename"
    · subst hname
      rw [mergeOneWith, if_neg hexcluded, if_pos rfl] at hrest
      exact .typename hexcluded hrest
    rw [mergeOneWith, if_neg hexcluded, if_neg hname] at hrest
    cases hselections : selections with
    | nil =>
      subst hselections
      exact .leaf hexcluded hname hrest
    | cons first others =>
      rw [← hselections]
      have hne : selections ≠ [] := by simp [hselections]
      have hbelow := mergeWith_collects hexpand selections (scope.nestedType parentType condition name) none
        (belowKey (aliasName.getD name) target)
      refine .nested hexcluded hname hne hbelow ?_
      -- merging changes the set of the entry that has the key, and that is the one below the key so far
      rw [enter_congr scope ⟨aliasName, name, arguments, directives, selections, position,
          ⟨visiting, parentType, condition⟩, []⟩ _
        (fun nested => if selections.isEmpty then nested else some (mergeWith scope expand
          ⟨visiting, scope.nestedType parentType condition name, none⟩ selections (nested.getD .empty)))]
      · exact hrest
      · rw [if_neg (by simp [hne])]
        rfl
  | .spread fragment directives, parentType, condition, target, rest, final => by
    intro hrest
    rw [mergeOneWith_spread] at hrest
    cases hexpansion : scope.expansion? ⟨visiting, parentType, condition⟩ (.spread fragment directives) with
    | none =>
      rw [hexpansion] at hrest
      exact .closedSpread hexpansion hrest
    | some expansion =>
      rw [hexpansion] at hrest
      obtain ⟨opened, inner, hopened, -, rfl⟩ := Scope.expansion?_eq_some.1 hexpansion
      obtain ⟨definition, hknown, hnew, rfl⟩ := Scope.fragment?_spread hopened
      exact .spread hexpansion (hexpand fragment definition hknown hnew parentType inner target) hrest
  | .inline on directives selections, parentType, condition, target, rest, final => by
    intro hrest
    rw [mergeOneWith_inline] at hrest
    cases hexpansion : scope.expansion? ⟨visiting, parentType, condition⟩ (.inline on directives selections) with
    | none =>
      rw [hexpansion] at hrest
      exact .closedInline hexpansion hrest
    | some expansion =>
      rw [hexpansion] at hrest
      obtain ⟨opened, inner, hopened, -, rfl⟩ := Scope.expansion?_eq_some.1 hexpansion
      obtain rfl := Scope.fragment?_inline hopened
      exact .inline hexpansion (mergeWith_collects hexpand selections parentType inner target) hrest

end

end

/-- With a depth of at least the number of fragments that can still be opened, merging follows a run. -/
theorem mergeNested_collects {scope : Scope} (depth : Nat) (level : Level) (selections : List Document.Selection)
    (target : SelectionSet) (hdepth : scope.unvisited level.visiting ≤ depth) :
    Collects scope level.parentType level.condition selections ⟨level.visiting, target⟩
      ⟨level.visiting, mergeNested scope depth level selections target⟩ := by
  induction depth generalizing level selections target with
  | zero =>
    -- every known fragment is on the stack, so none is opened
    refine mergeWith_collects (fun fragment definition hknown hnew => ?_) selections level.parentType level.condition
      target
    have hlt := Scope.unvisited_cons_lt hknown hnew
    omega
  | succ depth ih =>
    refine mergeWith_collects (fun fragment definition hknown hnew parentType condition target => ?_) selections
      level.parentType level.condition target
    have hlt := Scope.unvisited_cons_lt hknown hnew
    exact ih ⟨fragment :: level.visiting, parentType, condition⟩ definition.selections target (by
      dsimp only
      omega)

/-- Whatever a run starts with, it has the stack in the end that it had at the start, and the selections merged into
its set. -/
theorem collects_iff_merge (scope : Scope) (level : Level) (selections : List Document.Selection)
    (target : SelectionSet) (final : Progress) :
    Collects scope level.parentType level.condition selections ⟨level.visiting, target⟩ final ↔
      final = ⟨level.visiting, merge scope level selections target⟩ := by
  have hdepth : scope.unvisited level.visiting ≤ scope.fragments.length := List.countP_le_length
  have hrun := mergeNested_collects scope.fragments.length level selections target hdepth
  constructor
  · exact fun hfinal => hfinal.unique hrun
  · rintro rfl
    exact hrun

/-- Collecting comes to an end on every document, whatever its fragments spread. A run that begins with nothing on the
stack and an empty set ends in one state only, with the collected set and nothing on the stack; and every run within
it, from whatever state it begins, ends in one state only, with the stack as it was. -/
theorem collect_terminates (scope : Scope) :
    (∀ parentType selections final,
      Collects scope parentType none selections ⟨[], .empty⟩ final ↔
        final = ⟨[], collect scope parentType selections⟩) ∧
    ∀ parentType condition selections progress, ∃ final,
      Collects scope parentType condition selections progress final ∧ final.visiting = progress.visiting ∧
        ∀ other, Collects scope parentType condition selections progress other → other = final := by
  constructor
  · intro parentType selections final
    exact collects_iff_merge scope { parentType } selections .empty final
  · intro parentType condition selections progress
    have hruns := collects_iff_merge scope ⟨progress.visiting, parentType, condition⟩ selections progress.target
    exact ⟨_, (hruns _).2 rfl, rfl, fun other hother => (hruns other).1 hother⟩

end RelationalGraphQL.Selection
