import RelationalGraphQL.Proofs.Selection.RuntimeType

/-!
# Selecting again

What a set is merged from is decided by which occurrences there are, and by which of them comes first for a key. An
occurrence that is met again is neither new nor first. So selections that stand in a selection set already can be
repeated at its end, in any order and any number of times, and the collected set is the same
(`collect_append_of_subset`).
-/

namespace RelationalGraphQL.Selection

/-! ### Occurrences of repeated selections -/

theorem flatMap_subset {α β : Type} (f : α → List β) {elements repeated : List α} (hsubset : repeated ⊆ elements) :
    repeated.flatMap f ⊆ elements.flatMap f := by
  intro image himage
  obtain ⟨element, helement, himage⟩ := List.mem_flatMap.1 himage
  exact List.mem_flatMap.2 ⟨element, hsubset helement, himage⟩

section

variable {scope : Scope} {within : List String} {level : Level}

/-- Each selection of a level has its own occurrences, whatever stands around it. -/
theorem occurrences_eq_flatMap (selections : List Document.Selection) :
    occurrences scope within level selections =
      selections.flatMap fun selection => occurrences scope within level [selection] := by
  induction selections with
  | nil => exact occurrences_nil
  | cons selection rest ih => rw [occurrences_cons, ih, List.flatMap_cons]

theorem occurrences_append (front back : List Document.Selection) :
    occurrences scope within level (front ++ back) =
      occurrences scope within level front ++ occurrences scope within level back := by
  rw [occurrences_eq_flatMap, List.flatMap_append, ← occurrences_eq_flatMap, ← occurrences_eq_flatMap]

theorem occurrences_subset {selections repeated : List Document.Selection} (hsubset : repeated ⊆ selections) :
    occurrences scope within level repeated ⊆ occurrences scope within level selections := by
  rw [occurrences_eq_flatMap, occurrences_eq_flatMap selections]
  exact flatMap_subset _ hsubset

end

/-! ### Merging what is there -/

theorem eraseDups_append_of_subset {α : Type} [DecidableEq α] {elements repeated : List α}
    (hsubset : repeated ⊆ elements) : (elements ++ repeated).eraseDups = elements.eraseDups := by
  have hnone : repeated.removeAll elements = [] := by
    rw [List.removeAll, List.filter_eq_nil_iff]
    intro element helement
    simpa using hsubset helement
  rw [List.eraseDups_append, hnone, List.eraseDups_nil, List.append_nil]

theorem entriesAt_append (key : String) (occurrences repeated : List Occurrence) :
    entriesAt key (occurrences ++ repeated) = entriesAt key occurrences ++ entriesAt key repeated := by
  simp only [entriesAt, entriesOf, List.filter_append]

theorem entriesAt_subset {occurrences repeated : List Occurrence} (hsubset : repeated ⊆ occurrences) (key : String) :
    entriesAt key repeated ⊆ entriesAt key occurrences :=
  List.filter_subset _ (List.filter_subset _ hsubset)

theorem commonCondition_append_of_subset {first : Occurrence} {rest repeated : List Occurrence}
    (hsubset : repeated ⊆ first :: rest) : commonCondition first (rest ++ repeated) = commonCondition first rest := by
  have hagree : (∀ o ∈ rest ++ repeated, o.level.condition = first.level.condition) ↔
      ∀ o ∈ rest, o.level.condition = first.level.condition := by
    refine ⟨fun hall o ho => hall o (List.mem_append_left _ ho), fun hall o ho => ?_⟩
    rcases List.mem_append.1 ho with ho | ho
    · exact hall o ho
    · rcases List.mem_cons.1 (hsubset ho) with rfl | ho
      · rfl
      · exact hall o ho
  simp only [commonCondition, hagree]

mutual

/-- A set merges occurrences that are met again too. -/
theorem Merges.append_subset {scope : Scope} : ∀ {occurrences repeated : List Occurrence} {set : SelectionSet},
    Merges scope occurrences set → repeated ⊆ occurrences → Merges scope (occurrences ++ repeated) set
  | occurrences, repeated, _, .intro htypename hkeys hfields, hsubset => by
    have hentries : entriesOf repeated ⊆ entriesOf occurrences := List.filter_subset _ hsubset
    refine .intro ?_ ?_ fun field hfield => ?_
    · rw [htypename, List.any_append]
      cases hasks : repeated.any Occurrence.asksTypename with
      | false => rw [Bool.or_false]
      | true =>
        obtain ⟨o, ho, hname⟩ := List.any_eq_true.1 hasks
        rw [Bool.or_true, List.any_eq_true]
        exact ⟨o, hsubset ho, hname⟩
    · have happend : entriesOf (occurrences ++ repeated) = entriesOf occurrences ++ entriesOf repeated :=
        List.filter_append ..
      rw [hkeys, happend, List.map_append, eraseDups_append_of_subset (List.map_subset _ hentries)]
    · -- what is met again for a key is among what is there for it, and not first
      rw [entriesAt_append]
      exact (hfields field hfield).append_subset (entriesAt_subset hsubset _)

theorem MergesField.append_subset {scope : Scope} : ∀ {group repeated : List Occurrence} {field : SelectedField},
    MergesField scope group field → repeated ⊆ group → MergesField scope (group ++ repeated) field
  | first :: rest, repeated, _, .leaf hleaf, hsubset => by
    rw [mergedField, ← commonCondition_append_of_subset hsubset, List.cons_append]
    refine .leaf fun o ho => hleaf o ?_
    rw [← List.cons_append] at ho
    exact List.append_subset.2 ⟨List.Subset.refl _, hsubset⟩ ho
  | first :: rest, repeated, _, .nested ⟨o, ho, hne⟩ hset, hsubset => by
    rw [mergedField, ← commonCondition_append_of_subset hsubset, List.cons_append]
    refine .nested ⟨o, List.mem_append_left repeated ho, hne⟩ ?_
    rw [← List.cons_append, List.flatMap_append]
    exact hset.append_subset (flatMap_subset _ hsubset)

end

/-! ### Collected sets -/

/-- Selections that stand in a selection set already change nothing at its end: not the keys and their order, nor the
arguments, conditions and nested sets of the entries at any depth. -/
theorem collect_append_of_subset (scope : Scope) (parentType : String) {selections repeated : List Document.Selection}
    (hsubset : repeated ⊆ selections) :
    collect scope parentType (selections ++ repeated) = collect scope parentType selections := by
  have hrepeated := collect_merges scope parentType (selections ++ repeated)
  rw [occurrences_append] at hrepeated
  exact hrepeated.unique ((collect_merges scope parentType selections).append_subset (occurrences_subset hsubset))

/-- The peer of a node is asked for in a fragment on users and in one on posts. -/
def peersOfBoth : List Document.Selection :=
  [asks "id" [], .spread "named" [], .inline (some "Post") [] [asks "peer" peerSelections]]

theorem collect_append_of_subset_peersOfBoth :
    let named : Document.Fragment :=
      { name := "named", condition := "User", selections := [asks "name" [], asks "peer" [asks "name" []]] }
    let scope : Scope := { schema := nodes, fragments := [("named", named)] }
    let repeated := peersOfBoth.drop 1
    repeated ⊆ peersOfBoth ∧
      ((collect scope "Node" peersOfBoth).fields.map fun field => (field.name, field.typeCondition)) =
        [("id", none), ("name", some "User"), ("peer", none)] ∧
      collect scope "Node" (peersOfBoth ++ repeated) = collect scope "Node" peersOfBoth := by
  intro named scope repeated
  have hsubset : repeated ⊆ peersOfBoth := List.drop_subset 1 peersOfBoth
  exact ⟨hsubset, rfl, collect_append_of_subset scope "Node" hsubset⟩

end RelationalGraphQL.Selection
