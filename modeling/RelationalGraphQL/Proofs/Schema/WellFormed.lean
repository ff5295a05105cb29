import RelationalGraphQL.Proofs.Arguments.Meaning
import RelationalGraphQL.Proofs.Table
import RelationalGraphQL.Schema.Build

/-!
# Well-formed schemas

What a schema built from a document keeps to: a type stands under its own name, no name belongs to types of two kinds
among objects, interfaces and unions, objects implement interfaces, and the members of unions are objects. The rest needs
of it how the types that a fragment is on are told apart: below an interface or union a fragment holds of all values only
if it is on that very type, and no type is possible below an object.
-/

namespace RelationalGraphQL

namespace Schema

variable {schema : Schema} {name : String}

/-- Every object, interface and union stands under a name of its own. -/
structure Named (schema : Schema) : Prop where
  object : ∀ name object, schema.object? name = some object → object.name = name ∧ name ∈ schema.declared
  interface : ∀ name, (schema.interface? name).isSome → schema.object? name = none ∧ name ∈ schema.declared
  union : ∀ name, (schema.union? name).isSome →
    schema.object? name = none ∧ schema.interface? name = none ∧ name ∈ schema.declared

/-- A schema in which types stand under names of their own and refer to types of the kind they need. -/
structure WellFormed (schema : Schema) : Prop extends schema.Named where
  implements : ∀ name object, schema.object? name = some object →
    ∀ interface ∈ object.interfaces, (schema.interface? interface).isSome
  members : ∀ name union, schema.union? name = some union → ∀ member ∈ union.members, (schema.object? member).isSome

theorem requireAll_eq_ok {known : String → Bool} {references : List (String × String)} :
    requireAll known references = .ok () ↔ ∀ reference ∈ references, known reference.1 := by
  unfold requireAll
  split
  · rename_i name referencedBy hfound
    constructor
    · intro hall
      cases hall
    · intro hknown
      have hunknown := List.find?_some hfound
      simp [hknown _ (List.mem_of_find?_eq_some hfound)] at hunknown
  · rename_i hnone
    simpa using List.find?_eq_none.1 hnone

theorem WellFormed.withRoots (hschema : schema.WellFormed) (query mutation subscription : Option String) :
    WellFormed { schema with queryType := query, mutationType := mutation, subscriptionType := subscription } :=
  ⟨⟨hschema.object, hschema.interface, hschema.union⟩, hschema.implements, hschema.members⟩

/-! ### Types of values -/

/-- Whether a type is an interface or a union. -/
def IsAbstract (schema : Schema) (name : String) : Prop :=
  schema.typeKind? name = some .interface ∨ schema.typeKind? name = some .union

theorem IsAbstract.object?_eq_none (habstract : schema.IsAbstract name) : schema.object? name = none := by
  unfold IsAbstract typeKind? at habstract
  cases hobject : schema.object? name with
  | none => rfl
  | some object => simp [hobject] at habstract

theorem WellFormed.mem_possibleTypes (hschema : schema.WellFormed) {abstractType : String}
    (hobject : (schema.object? name).isSome) (habstract : schema.IsAbstract abstractType)
    (hsatisfies : schema.satisfies name abstractType) : name ∈ schema.possibleTypes abstractType := by
  obtain ⟨object, hfound⟩ := Option.isSome_iff_exists.1 hobject
  obtain ⟨hname, hdeclared⟩ := hschema.object name object hfound
  have hne : name ≠ abstractType := by
    rintro rfl
    rw [habstract.object?_eq_none] at hfound
    cases hfound
  simp only [satisfies, hne, decide_false, Bool.false_or, hfound, Option.any_some, Bool.or_eq_true] at hsatisfies
  unfold possibleTypes
  cases hunion : schema.union? abstractType with
  | some union =>
    rcases hsatisfies with himplements | hmember
    · have hinterface := hschema.implements name object hfound abstractType (by simpa using himplements)
      rw [(hschema.union abstractType (by rw [hunion]; rfl)).2.1] at hinterface
      cases hinterface
    · simpa [hunion] using hmember
  | none =>
    rw [hunion, Option.any_none] at hsatisfies
    refine List.mem_map.2 ⟨object, List.mem_filter.2 ⟨?_, hsatisfies.resolve_right (by simp)⟩, hname⟩
    exact List.mem_filterMap.2 ⟨name, hdeclared, hfound⟩

end Schema

end RelationalGraphQL
