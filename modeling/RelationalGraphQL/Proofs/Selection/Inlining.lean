import RelationalGraphQL.Proofs.Selection.RuntimeType
import Mathlib.Logic.Relation

/-!
# Fragments written out

A spread can be written out by hand as an inline fragment with the same directives, the condition of the fragment and
its selections, again written out. Where fragments do not spread themselves this comes to an end (`Inlines`), and
collecting never meets a fragment that is being expanded already: the fragments under way all reach what is spread
below them (`Scope.Above`). So the occurrences of selections and of their written out form go side by side, and the
merged sets agree.

One thing is lost. A spread of an unknown fragment leaves nothing behind, and a field that selects nothing but those
becomes a leaf, where it had an empty set below it before (`field_of_missing_fragments`). `Thins` allows for that, and
`Scope.Fills` excludes it.
-/

namespace RelationalGraphQL

namespace Document

mutual

/-- The fragments that a selection spreads, at any depth. -/
def Selection.spreads : Selection → List String
  | .field _ _ _ _ selections _ => spreadsOf selections
  | .spread fragment _ => [fragment]
  | .inline _ _ selections => spreadsOf selections

def spreadsOf : List Selection → List String
  | [] => []
  | selection :: rest => selection.spreads ++ spreadsOf rest

end

end Document

namespace Selection

open Document (spreadsOf)
open Relation (TransGen)

/-! ### Writing out -/

namespace Scope

variable (scope : Scope)

/-- Whether the selections of a fragment spread another one. -/
def Spreads (fragment other : String) : Prop :=
  ∃ definition, scope.fragments.lookup fragment = some definition ∧ other ∈ spreadsOf definition.selections

/-- No fragment spreads itself, directly or through others. -/
def Acyclic : Prop := ∀ fragment, ¬TransGen scope.Spreads fragment fragment

/-- Whether a selection is anything but the spread of an unknown fragment. -/
def isKnown : Document.Selection → Bool
  | .spread fragment _ => (scope.fragments.lookup fragment).isSome
  | _ => true

/-- No field selects nothing but unknown fragments, neither here nor in a fragment that is spread here. -/
inductive Fills : List Document.Selection → Prop where
  | nil : Fills []
  | field {aliasName : Option String} {name : String} {arguments : List (String × Document.Value)}
      {directives : List Document.Directive} {selections rest : List Document.Selection} {position : Document.Position}
      (hkept : selections = [] ∨ ∃ selection ∈ selections, scope.isKnown selection) (hbelow : Fills selections)
      (hrest : Fills rest) : Fills (.field aliasName name arguments directives selections position :: rest)
  | spread {fragment : String} {directives : List Document.Directive} {rest : List Document.Selection}
      (hfragment : ∀ definition, scope.fragments.lookup fragment = some definition → Fills definition.selections)
      (hrest : Fills rest) : Fills (.spread fragment directives :: rest)
  | inline {on : Option String} {directives : List Document.Directive} {selections rest : List Document.Selection}
      (hselections : Fills selections) (hrest : Fills rest) : Fills (.inline on directives selections :: rest)

theorem Fills.tail {scope : Scope} {selection : Document.Selection} {rest : List Document.Selection}
    (hfills : scope.Fills (selection :: rest)) : scope.Fills rest := by
  cases hfills with
  | field _ _ hrest => exact hrest
  | spread _ hrest => exact hrest
  | inline _ hrest => exact hrest

end Scope

/-- Selections with every spread written out at every depth: as an inline fragment with the directives of the spread
and the condition and selections of the fragment, or as nothing if the fragment is not known. -/
inductive Inlines (scope : Scope) : List Document.Selection → List Document.Selection → Prop where
  | nil : Inlines scope [] []
  | field {aliasName : Option String} {name : String} {arguments : List (String × Document.Value)}
      {directives : List Document.Directive} {selections selections' rest rest' : List Document.Selection}
      {position : Document.Position} (hbelow : Inlines scope selections selections')
      (hrest : Inlines scope rest rest') :
      Inlines scope (.field aliasName name arguments directives selections position :: rest)
        (.field aliasName name arguments directives selections' position :: rest')
  | spread {fragment : String} {directives : List Document.Directive} {definition : Document.Fragment}
      {selections' rest rest' : List Document.Selection}
      (hknown : scope.fragments.lookup fragment = some definition)
      (hfragment : Inlines scope definition.selections selections') (hrest : Inlines scope rest rest') :
      Inlines scope (.spread fragment directives :: rest)
        (.inline (some definition.condition) directives selections' :: rest')
  | missing {fragment : String} {directives : List Document.Directive} {rest rest' : List Document.Selection}
      (hmissing : scope.fragments.lookup fragment = none) (hrest : Inlines scope rest rest') :
      Inlines scope (.spread fragment directives :: rest) rest'
  | inline {on : Option String} {directives : List Document.Directive}
      {selections selections' rest rest' : List Document.Selection} (hselections : Inlines scope selections selections')
      (hrest : Inlines scope rest rest') :
      Inlines scope (.inline on directives selections :: rest) (.inline on directives selections' :: rest')

theorem Inlines.unique {scope : Scope} {selections inlined inlined' : List Document.Selection}
    (hinlined : Inlines scope selections inlined) (hinlined' : Inlines scope selections inlined') :
    inlined = inlined' := by
  induction hinlined generalizing inlined' with
  | nil =>
    cases hinlined'
    rfl
  | field _ _ ihbelow ihrest =>
    cases hinlined' with
    | field hbelow hrest => rw [ihbelow hbelow, ihrest hrest]
  | spread hknown _ _ ihfragment ihrest =>
    cases hinlined' with
    | spread hknown' hfragment hrest =>
      obtain rfl := Option.some.inj (hknown.symm.trans hknown')
      rw [ihfragment hfragment, ihrest hrest]
    | missing hmissing => simp [hknown] at hmissing
  | missing hmissing _ ihrest =>
    cases hinlined' with
    | spread hknown => simp [hmissing] at hknown
    | missing _ hrest => rw [ihrest hrest]
  | inline _ _ ihselections ihrest =>
    cases hinlined' with
    | inline hselections hrest => rw [ihselections hselections, ihrest hrest]

/-- What is not an unknown fragment leaves something behind. -/
theorem Inlines.ne_nil {scope : Scope} {selections inlined : List Document.Selection}
    (hinlined : Inlines scope selections inlined) {selection : Document.Selection} (hmem : selection ∈ selections)
    (hknown : scope.isKnown selection) : inlined ≠ [] := by
  induction hinlined with
  | nil => cases hmem
  | field | spread | inline => exact List.cons_ne_nil _ _
  | missing hmissing _ ih =>
    rcases List.mem_cons.1 hmem with rfl | hmem
    · simp [Scope.isKnown, hmissing] at hknown
    · exact ih hmem

/-! ### Fragments under way -/

namespace Scope

variable {scope : Scope} {visiting : List String} {selections selections' : List Document.Selection}

/-- The fragments under way all lead to what is spread here. -/
def Above (scope : Scope) (visiting : List String) (selections : List Document.Selection) : Prop :=
  ∀ fragment ∈ visiting, ∀ other ∈ spreadsOf selections, TransGen scope.Spreads fragment other

theorem Above.mono (habove : scope.Above visiting selections) (hsubset : spreadsOf selections' ⊆ spreadsOf selections) :
    scope.Above visiting selections' :=
  fun fragment hfragment other hother => habove fragment hfragment other (hsubset hother)

theorem Above.tail {selection : Document.Selection} (habove : scope.Above visiting (selection :: selections)) :
    scope.Above visiting selections :=
  habove.mono (List.subset_append_right _ _)

theorem Above.field {aliasName : Option String} {name : String} {arguments : List (String × Document.Value)}
    {directives : List Document.Directive} {position : Document.Position} {rest : List Document.Selection}
    (habove : scope.Above visiting (.field aliasName name arguments directives selections position :: rest)) :
    scope.Above visiting selections :=
  habove.mono (List.subset_append_left _ _)

theorem Above.inline {on : Option String} {directives : List Document.Directive} {rest : List Document.Selection}
    (habove : scope.Above visiting (.inline on directives selections :: rest)) : scope.Above visiting selections :=
  habove.mono (List.subset_append_left _ _)

section

variable {fragment : String} {directives : List Document.Directive} {rest : List Document.Selection}

theorem Above.opened {definition : Document.Fragment}
    (habove : scope.Above visiting (.spread fragment directives :: rest))
    (hknown : scope.fragments.lookup fragment = some definition) :
    scope.Above (fragment :: visiting) definition.selections := by
  intro above habove' other hother
  have hstep : scope.Spreads fragment other := ⟨definition, hknown, hother⟩
  rcases List.mem_cons.1 habove' with rfl | hvisiting
  · exact .single hstep
  · exact (habove above hvisiting fragment List.mem_cons_self).tail hstep

/-- The check for fragments under way never fires where fragments do not spread themselves. -/
theorem Acyclic.notMem_visiting (hacyclic : scope.Acyclic)
    (habove : scope.Above visiting (.spread fragment directives :: rest)) : fragment ∉ visiting :=
  fun hvisiting => hacyclic fragment (habove fragment hvisiting fragment List.mem_cons_self)

end

/-- Fragments that spread only fragments of a smaller rank do not spread themselves. -/
theorem acyclic_of_rank (rank : String → Nat)
    (hrank : ∀ fragment other, scope.Spreads fragment other → rank other < rank fragment) : scope.Acyclic := by
  intro fragment hcycle
  have hless : ∀ other, TransGen scope.Spreads fragment other → rank other < rank fragment := by
    intro other hreaches
    induction hreaches with
    | single hstep => exact hrank _ _ hstep
    | tail _ hstep ih => exact Nat.lt_trans (hrank _ _ hstep) ih
  exact Nat.lt_irrefl _ (hless fragment hcycle)

theorem Acyclic.exists_inlines (hacyclic : scope.Acyclic) (visiting : List String)
    (selections : List Document.Selection) (habove : scope.Above visiting selections) :
    ∃ inlined, Inlines scope selections inlined := by
  match selections with
  | [] => exact ⟨[], .nil⟩
  | .field aliasName name arguments directives selections position :: rest =>
    obtain ⟨below, hbelow⟩ := exists_inlines hacyclic visiting selections habove.field
    obtain ⟨rest', hrest⟩ := exists_inlines hacyclic visiting rest habove.tail
    exact ⟨_, .field hbelow hrest⟩
  | .inline on directives selections :: rest =>
    obtain ⟨inner, hinner⟩ := exists_inlines hacyclic visiting selections habove.inline
    obtain ⟨rest', hrest⟩ := exists_inlines hacyclic visiting rest habove.tail
    exact ⟨_, .inline hinner hrest⟩
  | .spread fragment directives :: rest =>
    obtain ⟨rest', hrest⟩ := exists_inlines hacyclic visiting rest habove.tail
    cases hknown : scope.fragments.lookup fragment with
    | none => exact ⟨rest', .missing hknown hrest⟩
    | some definition =>
      -- one fragment more is under way, so fewer are left
      have hfewer := unvisited_cons_lt hknown (hacyclic.notMem_visiting habove)
      obtain ⟨inner, hinner⟩ :=
        exists_inlines hacyclic (fragment :: visiting) definition.selections (habove.opened hknown)
      exact ⟨_, .spread hknown hinner hrest⟩
termination_by (scope.unvisited visiting, sizeOf selections)
decreasing_by
  all_goals
    simp only [Prod.lex_def, List.cons.sizeOf_spec, Document.Selection.field.sizeOf_spec,
      Document.Selection.inline.sizeOf_spec, true_and]
    omega

end Scope

/-! ### Occurrences side by side -/

/-- Two occurrences of the same field, the second with its selections written out. Where `filled` holds, no field in
them loses all its selections. -/
inductive Occurrence.WrittenOut (scope : Scope) (filled : Prop) (o : Occurrence) : Occurrence → Prop where
  | intro {selections : List Document.Selection} {visiting : List String}
      (habove : scope.Above o.level.visiting o.selections) (hinlines : Inlines scope o.selections selections)
      (hfilled : filled → scope.Fills o.selections ∧ (o.selections ≠ [] → selections ≠ [])) :
      WrittenOut scope filled o { o with selections, level := { o.level with visiting } }

section

variable {scope : Scope} {filled : Prop} {within visiting : List String} {level : Level}
  {selections : List Document.Selection} {on : Option String} {directives : List Document.Directive}

/-- A fragment that is opened expands to its occurrences, if its condition can hold. -/
theorem occurrences_of_fragment? {selection : Document.Selection} {fragment : OpenFragment}
    (hfragment : scope.fragment? level.visiting selection = some fragment) :
    occurrences scope within level [selection] =
      (scope.condition? level fragment.on).elim [] fun condition =>
        occurrences scope (fragment.on.toList ++ within) { level with visiting := fragment.visiting, condition }
          fragment.selections := by
  have hnoField : ∀ aliasName name arguments directives selections position,
      selection ≠ .field aliasName name arguments directives selections position := by
    rintro _ _ _ _ _ _ rfl
    cases hfragment
  rw [occurrences_fragment hnoField, Scope.expansion?, hfragment]
  simp only [Option.bind_eq_bind, Option.bind_some]
  cases scope.condition? level fragment.on <;> rfl

theorem occurrences_of_excluded_inline (hexcluded : scope.excludes directives) :
    occurrences scope within level [.inline on directives selections] = [] := by
  rw [occurrences_fragment (by simp), Scope.expansion?, Scope.fragment?, if_pos hexcluded]
  rfl

theorem occurrences_of_closed_spread {fragment : String}
    (hclosed : scope.excludes directives ∨ scope.fragments.lookup fragment = none) :
    occurrences scope within level [.spread fragment directives] = [] := by
  have hnone : scope.fragment? level.visiting (.spread fragment directives) = none := by
    rw [Scope.fragment?]
    split
    · rfl
    · rename_i hopen
      rcases hclosed with hexcluded | hmissing
      · exact absurd (.inl hexcluded) hopen
      · rw [hmissing, Option.map_none]
  rw [occurrences_fragment (by simp), Scope.expansion?, hnone]
  rfl

/-- Fragments on the same type expand side by side if their selections do. -/
theorem forall₂_of_fragment? {left right : Document.Selection} {visiting' : List String}
    {selections' : List Document.Selection}
    (hleft : scope.fragment? level.visiting left = some ⟨on, visiting', selections⟩)
    (hright : scope.fragment? visiting right = some ⟨on, visiting, selections'⟩)
    (hinner : ∀ within condition, List.Forall₂ (Occurrence.WrittenOut scope filled)
      (occurrences scope within { level with visiting := visiting', condition } selections)
      (occurrences scope within { level with visiting, condition } selections')) :
    List.Forall₂ (Occurrence.WrittenOut scope filled) (occurrences scope within level [left])
      (occurrences scope within { level with visiting } [right]) := by
  rw [occurrences_of_fragment? hleft, occurrences_of_fragment? hright]
  have hcondition : scope.condition? { level with visiting } on = scope.condition? level on := rfl
  dsimp only
  rw [hcondition]
  cases scope.condition? level on with
  | none => exact .nil
  | some condition => exact hinner _ condition

/-- Selections and their written out form have the same occurrences, whatever is under way around the latter. -/
theorem Inlines.occurrences_forall₂ (hacyclic : scope.Acyclic) {inlined : List Document.Selection}
    (hinlines : Inlines scope selections inlined) (hfilled : filled → scope.Fills selections)
    (habove : scope.Above level.visiting selections) :
    List.Forall₂ (Occurrence.WrittenOut scope filled) (occurrences scope within level selections)
      (occurrences scope within { level with visiting } inlined) := by
  induction hinlines generalizing within level with
  | nil =>
    rw [occurrences_nil, occurrences_nil]
    exact .nil
  | @field aliasName name arguments directives selections selections' rest rest' position hbelow _ _ ihrest =>
    rw [occurrences_cons, occurrences_cons _ rest', occurrences_field, occurrences_field]
    refine List.rel_append ?_ (ihrest (fun h => (hfilled h).tail) habove.tail)
    split
    · exact .nil
    · refine .cons (.intro habove.field hbelow fun h => ?_) .nil
      cases hfilled h with
      | field hkept hfills _ =>
        refine ⟨hfills, fun hne => ?_⟩
        obtain ⟨selection, hmem, hknown⟩ := hkept.resolve_left hne
        exact hbelow.ne_nil hmem hknown
  | @spread fragment directives definition selections' rest rest' hknown _ _ ihfragment ihrest =>
    rw [occurrences_cons, occurrences_cons _ rest']
    refine List.rel_append ?_ (ihrest (fun h => (hfilled h).tail) habove.tail)
    by_cases hexcluded : scope.excludes directives
    · rw [occurrences_of_closed_spread (.inl hexcluded), occurrences_of_excluded_inline hexcluded]
      exact .nil
    · have hopen : ¬(scope.excludes directives ∨ fragment ∈ level.visiting) :=
        not_or.2 ⟨hexcluded, hacyclic.notMem_visiting habove⟩
      have hleft : scope.fragment? level.visiting (.spread fragment directives) =
          some ⟨some definition.condition, fragment :: level.visiting, definition.selections⟩ := by
        rw [Scope.fragment?, if_neg hopen, hknown, Option.map_some]
      refine forall₂_of_fragment? hleft (if_neg hexcluded) fun within condition => ?_
      refine ihfragment (fun h => ?_) (habove.opened hknown)
      cases hfilled h with
      | spread hfragment _ => exact hfragment definition hknown
  | missing hmissing _ ihrest =>
    rw [occurrences_cons, occurrences_of_closed_spread (.inr hmissing), List.nil_append]
    exact ihrest (fun h => (hfilled h).tail) habove.tail
  | @inline on directives selections selections' rest rest' _ _ ihselections ihrest =>
    rw [occurrences_cons, occurrences_cons _ rest']
    refine List.rel_append ?_ (ihrest (fun h => (hfilled h).tail) habove.tail)
    by_cases hexcluded : scope.excludes directives
    · rw [occurrences_of_excluded_inline hexcluded, occurrences_of_excluded_inline hexcluded]
      exact .nil
    · refine forall₂_of_fragment? (if_neg hexcluded) (if_neg hexcluded) fun within condition => ?_
      refine ihselections (fun h => ?_) habove.inline
      cases hfilled h with
      | inline hselections _ => exact hselections

end

/-! ### Sets side by side -/

/-- Two entries that differ at most in what stands below them, where an empty set may be missing in the second. -/
inductive ThinsField : SelectedField → SelectedField → Prop where
  | leaf {field : SelectedField} (hleaf : field.selections = none) : ThinsField field field
  | emptied {field : SelectedField} (hempty : field.selections = some .empty) :
      ThinsField field { field with selections := none }
  | nested {field : SelectedField} {set set' : SelectionSet} (hset : field.selections = some set)
      (htypename : set.typename = set'.typename) (hfields : List.Forall₂ ThinsField set.fields set'.fields) :
      ThinsField field { field with selections := some set' }

/-- Two sets with the same entries in the same order, where at any depth an empty set of the first may be missing in
the second. -/
def Thins (set set' : SelectionSet) : Prop :=
  set.typename = set'.typename ∧ List.Forall₂ ThinsField set.fields set'.fields

section

variable {scope : Scope} {filled : Prop} {o o' : Occurrence} {group group' : List Occurrence}

theorem map_eq_of_forall₂ {α : Type} {view : Occurrence → α}
    (hview : ∀ o o', Occurrence.WrittenOut scope filled o o' → view o = view o')
    (hgroups : List.Forall₂ (Occurrence.WrittenOut scope filled) group group') : group.map view = group'.map view := by
  induction hgroups with
  | nil => rfl
  | cons ho _ ih => rw [List.map_cons, List.map_cons, hview _ _ ho, ih]

theorem filter_forall₂ {view : Occurrence → Bool}
    (hview : ∀ o o', Occurrence.WrittenOut scope filled o o' → view o = view o')
    (hgroups : List.Forall₂ (Occurrence.WrittenOut scope filled) group group') :
    List.Forall₂ (Occurrence.WrittenOut scope filled) (group.filter view) (group'.filter view) :=
  List.rel_filter (fun o o' ho => iff_of_eq (congrArg (· = true) (hview o o' ho))) hgroups

theorem entriesOf_forall₂ (hgroups : List.Forall₂ (Occurrence.WrittenOut scope filled) group group') :
    List.Forall₂ (Occurrence.WrittenOut scope filled) (entriesOf group) (entriesOf group') := by
  refine filter_forall₂ ?_ hgroups
  rintro o _ ⟨⟩
  rfl

theorem entriesAt_forall₂ (hgroups : List.Forall₂ (Occurrence.WrittenOut scope filled) group group') (key : String) :
    List.Forall₂ (Occurrence.WrittenOut scope filled) (entriesAt key group) (entriesAt key group') := by
  refine filter_forall₂ ?_ (entriesOf_forall₂ hgroups)
  rintro o _ ⟨⟩
  rfl

theorem mergedField_eq {rest rest' : List Occurrence} (hfirst : Occurrence.WrittenOut scope filled o o')
    (hrest : List.Forall₂ (Occurrence.WrittenOut scope filled) rest rest') (selections : Option SelectionSet) :
    mergedField scope o' rest' selections = mergedField scope o rest selections := by
  have hconditions : rest.map (·.level.condition) = rest'.map (·.level.condition) := by
    refine map_eq_of_forall₂ ?_ hrest
    rintro o _ ⟨⟩
    rfl
  have hcommon (first : Occurrence) : commonCondition first rest' = commonCondition first rest := by
    have hagree : (∀ o ∈ rest', o.level.condition = first.level.condition) ↔
        ∀ o ∈ rest, o.level.condition = first.level.condition := by
      rw [← List.forall_mem_map (P := (· = first.level.condition)), ← hconditions, List.forall_mem_map]
    simp only [commonCondition, hagree]
  cases hfirst
  simp only [mergedField, hcommon]
  rfl

theorem Occurrence.WrittenOut.below_forall₂ (hacyclic : scope.Acyclic) (ho : Occurrence.WrittenOut scope filled o o') :
    List.Forall₂ (Occurrence.WrittenOut scope filled) (o.below scope) (o'.below scope) := by
  cases ho with
  | @intro selections visiting habove hinlines hfilled =>
    show List.Forall₂ _ (occurrences scope [] (o.levelBelow scope) o.selections)
      (occurrences scope [] { o.levelBelow scope with visiting } selections)
    exact hinlines.occurrences_forall₂ hacyclic (fun h => (hfilled h).1) habove

theorem below_forall₂ (hacyclic : scope.Acyclic)
    (hgroups : List.Forall₂ (Occurrence.WrittenOut scope filled) group group') :
    List.Forall₂ (Occurrence.WrittenOut scope filled) (group.flatMap (Occurrence.below scope))
      (group'.flatMap (Occurrence.below scope)) :=
  List.rel_flatMap hgroups fun _ _ ho => ho.below_forall₂ hacyclic

/-- Leaves are written out as leaves, and nothing else is if no field loses all its selections. -/
theorem leaves_of_forall₂ (hgroups : List.Forall₂ (Occurrence.WrittenOut scope filled) group group') :
    ((∀ o ∈ group, o.selections = []) → ∀ o ∈ group', o.selections = []) ∧
      (filled → (∀ o ∈ group', o.selections = []) → ∀ o ∈ group, o.selections = []) := by
  induction hgroups with
  | nil => exact ⟨fun _ => nofun, fun _ _ => nofun⟩
  | @cons o o' group group' ho _ ih =>
    cases ho with
    | intro _ hinlines hfilled =>
      simp only [List.forall_mem_cons]
      refine ⟨fun ⟨hleaf, hleaves⟩ => ⟨?_, ih.1 hleaves⟩, fun h ⟨hleaf, hleaves⟩ => ⟨?_, ih.2 h hleaves⟩⟩
      · rw [hleaf] at hinlines
        cases hinlines
        rfl
      · by_contra hne
        exact (hfilled h).2 hne hleaf

theorem Merges.eq_empty {set : SelectionSet} (hset : Merges scope [] set) : set = .empty :=
  hset.unique merges_empty

end

mutual

/-- The sets that occurrences and their written out forms merge to. -/
theorem Merges.thins {scope : Scope} {filled : Prop} (hacyclic : scope.Acyclic) :
    ∀ {group group' : List Occurrence} {set set' : SelectionSet}, Merges scope group set → Merges scope group' set' →
      List.Forall₂ (Occurrence.WrittenOut scope filled) group group' → Thins set set' ∧ (filled → set = set')
  | group, group', _, _, .intro htypename hkeys hfields, .intro htypename' hkeys' hfields', hgroups => by
    rename_i fields typename fields' typename'
    have htypenames : typename = typename' := by
      have hasks : group.map Occurrence.asksTypename = group'.map Occurrence.asksTypename := by
        refine map_eq_of_forall₂ ?_ hgroups
        rintro o _ ⟨⟩
        rfl
      have hany (occurrences : List Occurrence) :
          occurrences.any Occurrence.asksTypename = (occurrences.map Occurrence.asksTypename).any id := by
        rw [List.any_map, Function.id_comp]
      rw [htypename, htypename', hany, hany, hasks]
    have hsame : fields.map SelectedField.responseKey = fields'.map SelectedField.responseKey := by
      have hentries : (entriesOf group).map Occurrence.key = (entriesOf group').map Occurrence.key := by
        refine map_eq_of_forall₂ ?_ (entriesOf_forall₂ hgroups)
        rintro o _ ⟨⟩
        rfl
      rw [hkeys, hkeys', hentries]
    have hrelated : ∀ field ∈ fields, ∀ field' ∈ fields', field.responseKey = field'.responseKey →
        ThinsField field field' ∧ (filled → field = field') := by
      intro field hfield field' hfield' hkey
      exact (hfields field hfield).thins hacyclic (hkey ▸ hfields' field' hfield') (entriesAt_forall₂ hgroups _)
    refine ⟨⟨htypenames, forall₂_of_keys_eq hsame fun field hfield field' hfield' hkey =>
      (hrelated field hfield field' hfield' hkey).1⟩, fun h => ?_⟩
    rw [htypenames, eq_of_keys_eq hsame fun field hfield field' hfield' hkey =>
      (hrelated field hfield field' hfield' hkey).2 h]

theorem MergesField.thins {scope : Scope} {filled : Prop} (hacyclic : scope.Acyclic) :
    ∀ {group group' : List Occurrence} {field field' : SelectedField}, MergesField scope group field →
      MergesField scope group' field' → List.Forall₂ (Occurrence.WrittenOut scope filled) group group' →
        ThinsField field field' ∧ (filled → field = field')
  | _, _, _, _, .leaf _, .leaf _, .cons hfirst hrest => by
    rw [mergedField_eq hfirst hrest]
    exact ⟨.leaf rfl, fun _ => rfl⟩
  | _, _, _, _, .leaf hleaf, .nested ⟨o, ho, hne⟩ _, hgroups =>
    absurd ((leaves_of_forall₂ hgroups).1 hleaf o ho) hne
  | _, _, _, _, .nested ⟨o, ho, hne⟩ hset, .leaf hleaf, .cons hfirst hrest => by
    -- nothing was spread below but unknown fragments, so there is nothing to merge
    have hgroups := below_forall₂ hacyclic (.cons hfirst hrest)
    rw [List.flatMap_eq_nil_iff.2 fun o ho => Occurrence.below_of_selections_eq_nil (hleaf o ho),
      List.forall₂_nil_right_iff] at hgroups
    rw [hgroups] at hset
    rw [mergedField_eq hfirst hrest, hset.eq_empty]
    refine ⟨.emptied rfl, fun h => ?_⟩
    exact absurd ((leaves_of_forall₂ (.cons hfirst hrest)).2 h hleaf o ho) hne
  | _, _, _, _, .nested _ hset, .nested _ hset', .cons hfirst hrest => by
    obtain ⟨⟨htypename, hfields⟩, heq⟩ := hset.thins hacyclic hset' (below_forall₂ hacyclic (.cons hfirst hrest))
    rw [mergedField_eq hfirst hrest]
    exact ⟨.nested rfl htypename hfields, fun h => by rw [heq h]⟩

end

/-! ### Collected sets -/

/-- Writing fragments out by hand. Where fragments do not spread themselves, selections have exactly one written out
form, and collecting it gives the same set, except that an entry may have nothing below it where it had an empty set
before. Only fields that select nothing but unknown fragments make that difference. -/
theorem collect_inlined {scope : Scope} (hacyclic : scope.Acyclic) (parentType : String)
    (selections : List Document.Selection) :
    ∃ inlined, (∀ other, Inlines scope selections other ↔ other = inlined) ∧
      Thins (collect scope parentType selections) (collect scope parentType inlined) ∧
      (scope.Fills selections → collect scope parentType selections = collect scope parentType inlined) := by
  have habove : scope.Above [] selections := nofun
  obtain ⟨inlined, hinlines⟩ := hacyclic.exists_inlines [] selections habove
  refine ⟨inlined, fun other => ⟨fun hother => hother.unique hinlines, fun heq => heq ▸ hinlines⟩, ?_⟩
  have hoccurrences : List.Forall₂ (Occurrence.WrittenOut scope (scope.Fills selections))
      (occurrences scope [] { parentType } selections) (occurrences scope [] { parentType } inlined) :=
    hinlines.occurrences_forall₂ hacyclic id habove
  have hmerges := collect_merges scope parentType selections
  exact hmerges.thins hacyclic (collect_merges scope parentType inlined) hoccurrences

def idsFragment : Document.Fragment :=
  { name := "ids", condition := "Node", selections := [asks "id" [], .spread "missing" []] }

def namedFragment : Document.Fragment :=
  { name := "named", condition := "User", selections := [asks "name" [], asks "peer" [.spread "ids" []]] }

/-- One fragment spreads the other below a field, and that one an unknown one. -/
def namedScope : Scope := { schema := nodes, fragments := [("named", namedFragment), ("ids", idsFragment)] }

theorem namedScope_acyclic : namedScope.Acyclic := by
  refine Scope.acyclic_of_rank (fun name => if name = "named" then 2 else if name = "ids" then 1 else 0) ?_
  rintro fragment other ⟨definition, hknown, hspread⟩
  by_cases hnamed : fragment = "named"
  · subst hnamed
    cases hknown
    obtain rfl : other = "ids" := List.mem_singleton.1 hspread
    decide
  · by_cases hids : fragment = "ids"
    · subst hids
      cases hknown
      obtain rfl : other = "missing" := List.mem_singleton.1 hspread
      decide
    · simp [namedScope, List.lookup_cons, beq_false_of_ne hnamed, beq_false_of_ne hids] at hknown

theorem collect_inlined_named :
    let selections := [.spread "named" [], asks "peer" [.spread "missing" [], .spread "ids" []]]
    let ids := Document.Selection.inline (some "Node") [] [asks "id" []]
    let inlined := [.inline (some "User") [] [asks "name" [], asks "peer" [ids]], asks "peer" [ids]]
    namedScope.Acyclic ∧ namedScope.Fills selections ∧ Inlines namedScope selections inlined ∧
      collect namedScope "Node" selections = collect namedScope "Node" inlined := by
  intro selections ids inlined
  have hids : namedScope.fragments.lookup "ids" = some idsFragment := rfl
  have hnamed : namedScope.fragments.lookup "named" = some namedFragment := rfl
  have hidsInlines : Inlines namedScope [.spread "ids" []] [ids] :=
    .spread hids (.field .nil (.missing rfl .nil)) .nil
  have hinlines : Inlines namedScope selections inlined :=
    .spread hnamed (.field .nil (.field hidsInlines .nil)) (.field (.missing rfl hidsInlines) .nil)
  have hidsFills : namedScope.Fills [.spread "ids" []] := by
    refine .spread (fun definition hknown => ?_) .nil
    cases hids.symm.trans hknown
    exact .field (.inl rfl) .nil (.spread nofun .nil)
  have hfills : namedScope.Fills selections := by
    refine .spread (fun definition hknown => ?_) (.field (.inr ⟨.spread "ids" [], by simp, rfl⟩) ?_ .nil)
    · cases hnamed.symm.trans hknown
      exact .field (.inl rfl) .nil (.field (.inr ⟨.spread "ids" [], by simp, rfl⟩) hidsFills .nil)
    · exact .spread nofun hidsFills
  obtain ⟨_, hunique, -, hsame⟩ := collect_inlined namedScope_acyclic "Node" selections
  obtain rfl := (hunique inlined).1 hinlines
  exact ⟨namedScope_acyclic, hfills, hinlines, hsame hfills⟩

/-- A field that selects only an unknown fragment has an empty set below it. Nothing is left when the fragment is
written out, and the field becomes a leaf. -/
theorem field_of_missing_fragments :
    ¬∀ (scope : Scope), scope.Acyclic → ∀ parentType selections inlined, Inlines scope selections inlined →
      collect scope parentType selections = collect scope parentType inlined := by
  intro hsame
  let scope : Scope := { schema := nodes }
  have hacyclic : scope.Acyclic := Scope.acyclic_of_rank (fun _ => 0) (by rintro _ _ ⟨_, ⟨⟩, _⟩)
  have hset := hsame scope hacyclic "Node" [asks "peer" [.spread "missing" []]] [asks "peer" []]
    (.field (.missing rfl .nil) .nil)
  have hbelow := congrArg (fun set => set.fields.map fun field => field.selections.isSome) hset
  exact absurd hbelow (by decide)

end Selection

end RelationalGraphQL
