import RelationalGraphQL.Proofs.Schema.TypeNames

/-!
# Objects below interfaces and unions

Which objects a value of an interface or union can be is told in two ways: `possibleTypes` lists them, from the objects
in the order of declaration or from the members of the union, and `satisfies` answers for two names, from what the object
implements or from the union. Both say what the document says (`mem_possibleTypes_iff_satisfies`): an object is below
what its definition or any of its extensions implements, and below the unions that it is a member of. That rests on what
every schema of a document keeps to (`build_wellFormed`).
-/

namespace RelationalGraphQL

namespace Document.TypeSystemDocument

/-- A type is below another by what a document says of either. -/
inductive Below (document : TypeSystemDocument) : String → String → Prop where
  | implemented {definition : TypeDefinition} {interfaces : List String} {fields : List FieldDefinition} {name : String}
      (hdefinition : definition ∈ document.types) (hbody : definition.body = .object interfaces fields)
      (hname : name ∈ interfaces) : Below document definition.name name
  | extended {extension : ObjectExtension} {name : String} (hextension : extension ∈ document.objectExtensions)
      (hname : name ∈ extension.interfaces) : Below document extension.name name
  | member {definition : TypeDefinition} {members : List String} {name : String}
      (hdefinition : definition ∈ document.types) (hbody : definition.body = .union members)
      (hname : name ∈ members) : Below document name definition.name

theorem mem_objectInterfaces {document : TypeSystemDocument} {typeName name : String} {interfaces : List String} :
    name ∈ document.objectInterfaces typeName interfaces ↔
      name ∈ interfaces ∨ ∃ extension ∈ document.objectExtensions,
        extension.name = typeName ∧ name ∈ extension.interfaces := by
  simp only [objectInterfaces, List.mem_append, List.mem_flatMap, List.mem_filter, decide_eq_true_eq, and_assoc]

end Document.TypeSystemDocument

namespace Schema

open Document (TypeDefinition TypeSystemDocument)
open Document.TypeSystemDocument (mem_objectInterfaces)

/-! ### Schemas of documents -/

section

variable {document : TypeSystemDocument} {typeName : String}

theorem object?_assembled (hnames : document.typeNames.Nodup) {object : ObjectType} :
    (assembled document).object? typeName = some object ↔
      ∃ definition ∈ document.types, definition.name = typeName ∧
        objectOf? document.objectExtensions definition = some object := by
  obtain ⟨directives, hbuiltins⟩ := addBuiltins_eq (catalogue document document.objectExtensions)
  rw [assembled, hbuiltins]
  exact lookup_tableOf hnames

theorem union?_assembled (hnames : document.typeNames.Nodup) {union : UnionType} :
    (assembled document).union? typeName = some union ↔
      ∃ definition ∈ document.types, definition.name = typeName ∧ unionOf? definition = some union := by
  obtain ⟨directives, hbuiltins⟩ := addBuiltins_eq (catalogue document document.objectExtensions)
  rw [assembled, hbuiltins]
  exact lookup_tableOf hnames

theorem union?_assembled_isSome : ((assembled document).union? typeName).isSome ↔ document.Defines .union typeName := by
  have hholds := @holds_assembled document typeName .union
  simp only [reduceCtorEq, false_and, or_false] at hholds
  exact hholds

theorem defines_unique (hnames : document.typeNames.Nodup) {kind kind' : TypeKind}
    (hdefines : document.Defines kind typeName) (hdefines' : document.Defines kind' typeName) : kind = kind' :=
  Option.some.inj (((defines_iff hnames).1 hdefines).symm.trans ((defines_iff hnames).1 hdefines'))

theorem assembled_named (hnames : document.typeNames.Nodup) : (assembled document).Named := by
  have hdeclared {kind : TypeKind} {name : String} (hdefines : document.Defines kind name) :
      name ∈ (assembled document).declared := by
    obtain ⟨definition, hdefinition, rfl, -⟩ := hdefines
    exact mem_declared_assembled.2 (.inl (List.mem_map_of_mem hdefinition))
  have hobject {kind : TypeKind} {name : String} (hdefines : document.Defines kind name) (hkind : kind ≠ .object) :
      (assembled document).object? name = none := by
    rw [← Option.not_isSome_iff_eq_none, object?_assembled_isSome]
    exact fun hobject => hkind (defines_unique hnames hdefines hobject)
  refine ⟨?_, ?_, ?_⟩
  · intro name object hfound
    obtain ⟨definition, hdefinition, rfl, hread⟩ := (object?_assembled hnames).1 hfound
    obtain ⟨interfaces, fields, -, rfl⟩ := objectOf?_eq_some.1 hread
    exact ⟨rfl, mem_declared_assembled.2 (.inl (List.mem_map_of_mem hdefinition))⟩
  · intro name hfound
    have hdefines := interface?_assembled_isSome.1 hfound
    exact ⟨hobject hdefines (by decide), hdeclared hdefines⟩
  · intro name hfound
    have hdefines := union?_assembled_isSome.1 hfound
    refine ⟨hobject hdefines (by decide), ?_, hdeclared hdefines⟩
    rw [← Option.not_isSome_iff_eq_none, interface?_assembled_isSome]
    intro hinterface
    cases defines_unique hnames hdefines hinterface

theorem Named.wellFormed {schema : Schema} (hnamed : schema.Named) (hchecked : schema.checkReferences = .ok ()) :
    schema.WellFormed := by
  obtain ⟨-, -, hinterfaces, hmembers, -⟩ := checkReferences_eq_ok.1 hchecked
  refine ⟨hnamed, ?_, ?_⟩
  · intro name object hobject
    exact hinterfaces _ (Table.mem_of_lookup hobject)
  · intro name union hunion
    exact hmembers _ (Table.mem_of_lookup hunion)

theorem build_wellFormed {schema : Schema} (hbuild : build document = .ok schema) : schema.WellFormed := by
  obtain ⟨hclosed, rfl⟩ := build_eq_ok.1 hbuild
  have hchecked := (references_iff.2 hclosed.references).1
  exact ((assembled_named hclosed.names).wellFormed hchecked).withRoots _ _ _

end

/-! ### Two ways to tell -/

section

variable {schema : Schema} {typeName abstractType : String}

theorem Named.isAbstract (hnamed : schema.Named)
    (habstract : (schema.interface? abstractType).isSome ∨ (schema.union? abstractType).isSome) :
    schema.IsAbstract abstractType := by
  unfold IsAbstract typeKind?
  rcases habstract with hinterface | hunion
  · obtain ⟨hobject, -⟩ := hnamed.interface abstractType hinterface
    simp [hobject, hinterface]
  · obtain ⟨hobject, hinterface, -⟩ := hnamed.union abstractType hunion
    simp [hobject, hinterface, hunion]

theorem WellFormed.object_of_mem_possibleTypes (hschema : schema.WellFormed)
    (hmem : typeName ∈ schema.possibleTypes abstractType) : (schema.object? typeName).isSome := by
  unfold possibleTypes at hmem
  split at hmem
  · rename_i union hunion
    exact hschema.members abstractType union hunion typeName hmem
  · obtain ⟨object, hobject, rfl⟩ := List.mem_map.1 hmem
    obtain ⟨name, -, hfound⟩ := List.mem_filterMap.1 (List.mem_of_mem_filter hobject)
    rw [(hschema.object name object hfound).1, hfound]
    rfl

theorem WellFormed.satisfies_of_mem_possibleTypes (hschema : schema.WellFormed)
    (hmem : typeName ∈ schema.possibleTypes abstractType) : schema.satisfies typeName abstractType := by
  unfold possibleTypes at hmem
  unfold satisfies
  split at hmem
  · rename_i union hunion
    simp [hunion, hmem]
  · obtain ⟨object, hobject, rfl⟩ := List.mem_map.1 hmem
    obtain ⟨hlisted, himplements⟩ := List.mem_filter.1 hobject
    obtain ⟨name, -, hfound⟩ := List.mem_filterMap.1 hlisted
    obtain ⟨hname, -⟩ := hschema.object name object hfound
    rw [hname, hfound, Option.any_some, himplements, Bool.or_true, Bool.true_or]

theorem WellFormed.mem_possibleTypes_iff (hschema : schema.WellFormed) (hobject : (schema.object? typeName).isSome)
    (habstract : schema.IsAbstract abstractType) :
    typeName ∈ schema.possibleTypes abstractType ↔ schema.satisfies typeName abstractType :=
  ⟨hschema.satisfies_of_mem_possibleTypes, hschema.mem_possibleTypes hobject habstract⟩

end

/-! ### What the document says -/

section

variable {document : TypeSystemDocument} {typeName abstractType : String}

theorem below_of_implements (hnames : document.typeNames.Nodup) {object : ObjectType}
    (hobject : (assembled document).object? typeName = some object) (hinterface : abstractType ∈ object.interfaces) :
    document.Below typeName abstractType := by
  obtain ⟨definition, hdefinition, rfl, hread⟩ := (object?_assembled hnames).1 hobject
  obtain ⟨interfaces, fields, hbody, rfl⟩ := objectOf?_eq_some.1 hread
  rcases mem_objectInterfaces.1 hinterface with hinterface | ⟨extension, hextension, hname, hinterface⟩
  · exact .implemented hdefinition hbody hinterface
  · rw [← hname]
    exact .extended hextension hinterface

theorem implements_of_defines (hnames : document.typeNames.Nodup) (hdefines : document.Defines .object typeName) :
    ∃ interfaces object, (assembled document).object? typeName = some object ∧
      object.interfaces = document.objectInterfaces typeName interfaces := by
  obtain ⟨definition, hdefinition, rfl, hkind⟩ := hdefines
  obtain ⟨object, hread⟩ := Option.isSome_iff_exists.1 (objectOf?_isSome.2 hkind)
  obtain ⟨interfaces, fields, -, hobject⟩ := objectOf?_eq_some.1 hread
  exact ⟨interfaces, object, (object?_assembled hnames).2 ⟨definition, hdefinition, rfl, hread⟩, by rw [hobject]⟩

theorem satisfies_of_below (hclosed : document.Closed) (hbelow : document.Below typeName abstractType) :
    (assembled document).satisfies typeName abstractType := by
  unfold satisfies
  cases hbelow with
  | @implemented definition interfaces fields name hdefinition hbody hname =>
    have hread := (@objectOf?_eq_some document definition _).2 ⟨interfaces, fields, hbody, rfl⟩
    have hobject := (object?_assembled hclosed.names).2 ⟨definition, hdefinition, rfl, hread⟩
    simp [hobject, mem_objectInterfaces.2 (.inl hname)]
  | @extended extension name hextension hname =>
    obtain ⟨interfaces, object, hobject, hinterfaces⟩ :=
      implements_of_defines hclosed.names (hclosed.extensions extension hextension)
    have himplements : abstractType ∈ document.objectInterfaces extension.name interfaces :=
      mem_objectInterfaces.2 (.inr ⟨extension, hextension, rfl, hname⟩)
    simp [hobject, hinterfaces, himplements]
  | @member definition members name hdefinition hbody hname =>
    have hread := unionOf?_eq_some.2 ⟨members, hbody, rfl⟩
    have hunion := (union?_assembled hclosed.names).2 ⟨definition, hdefinition, rfl, hread⟩
    simp [hunion, hname]

theorem below_of_satisfies (hnames : document.typeNames.Nodup) (hne : typeName ≠ abstractType)
    (hsatisfies : (assembled document).satisfies typeName abstractType) : document.Below typeName abstractType := by
  simp only [satisfies, hne, decide_false, Bool.false_or, Bool.or_eq_true, Option.any_eq_true,
    List.contains_iff_mem] at hsatisfies
  rcases hsatisfies with ⟨object, hobject, hinterface⟩ | ⟨union, hunion, hmember⟩
  · exact below_of_implements hnames hobject hinterface
  · obtain ⟨definition, hdefinition, rfl, hread⟩ := (union?_assembled hnames).1 hunion
    obtain ⟨members, hbody, rfl⟩ := unionOf?_eq_some.1 hread
    exact .member hdefinition hbody hmember

end

section

variable (schema : Schema) (query mutation subscription : Option String)

theorem object?_withRoots (name : String) :
    { schema with queryType := query, mutationType := mutation, subscriptionType := subscription }.object? name =
      schema.object? name := rfl

theorem satisfies_withRoots (typeName condition : String) :
    { schema with queryType := query, mutationType := mutation, subscriptionType := subscription }.satisfies
      typeName condition = schema.satisfies typeName condition := rfl

end

/-- The objects listed for an interface or union of a schema are those that satisfy it, and those that the document puts
below it, be it by an extension. All that are listed are objects that the document defines. -/
theorem mem_possibleTypes_iff_satisfies {text : String} {schema : Schema} (hparse : Schema.parse text = .ok schema)
    {abstractType : String}
    (habstract : (schema.interface? abstractType).isSome ∨ (schema.union? abstractType).isSome) :
    ∃ document, TypeSystemDocument.parse? text = some document ∧
      (∀ typeName, (schema.object? typeName).isSome →
        (typeName ∈ schema.possibleTypes abstractType ↔ schema.satisfies typeName abstractType) ∧
        (typeName ∈ schema.possibleTypes abstractType ↔ document.Below typeName abstractType)) ∧
      ∀ typeName ∈ schema.possibleTypes abstractType,
        document.Defines .object typeName ∧ (schema.object? typeName).isSome := by
  obtain ⟨document, hdocument, hbuild⟩ := parse_eq_ok.1 hparse
  have hschema := build_wellFormed hbuild
  have hkind := hschema.isAbstract habstract
  obtain ⟨hclosed, rfl⟩ := build_eq_ok.1 hbuild
  refine ⟨document, hdocument, ?_, ?_⟩
  · intro typeName hobject
    have hiff := hschema.mem_possibleTypes_iff hobject hkind
    refine ⟨hiff, hiff.trans ?_⟩
    rw [satisfies_withRoots]
    refine ⟨below_of_satisfies hclosed.names ?_, satisfies_of_below hclosed⟩
    rintro rfl
    rw [hkind.object?_eq_none] at hobject
    cases hobject
  · intro typeName hmem
    have hobject := hschema.object_of_mem_possibleTypes hmem
    refine ⟨object?_assembled_isSome.1 ?_, hobject⟩
    rwa [object?_withRoots] at hobject

/-- An object that comes to implement an interface by an extension which stands before both. -/
theorem mem_possibleTypes_iff_satisfies_extended :
    ∃ schema, Schema.parse "extend type Query implements Named type Query { name: ID } interface Named { name: ID }" =
        .ok schema ∧
      (schema.interface? "Named").isSome ∧ (schema.object? "Query").isSome ∧
      schema.satisfies "Query" "Named" ∧ "Query" ∈ schema.possibleTypes "Named" := by
  let text := "extend type Query implements Named type Query { name: ID } interface Named { name: ID }"
  have hknown : (Schema.parse text).toOption.map (fun schema =>
      ((schema.interface? "Named").isSome, (schema.object? "Query").isSome, schema.satisfies "Query" "Named")) =
        some (true, true, true) := by decide +kernel
  cases hparse : Schema.parse text with
  | error error => rw [hparse] at hknown; cases hknown
  | ok schema =>
    rw [hparse] at hknown
    simp only [Except.toOption, Option.map_some, Option.some.injEq, Prod.mk.injEq] at hknown
    obtain ⟨hinterface, hobject, hsatisfies⟩ := hknown
    obtain ⟨document, -, hiff, -⟩ := mem_possibleTypes_iff_satisfies hparse (.inl hinterface)
    exact ⟨schema, rfl, hinterface, hobject, hsatisfies, (hiff "Query" hobject).1.2 hsatisfies⟩

end Schema

end RelationalGraphQL
