import RelationalGraphQL.Proofs.Schema.Catalogue

/-!
# Closed documents

A document refers to types: fields and arguments to any type, objects to the interfaces they implement, unions to
objects, and its last `schema` block to the objects that operations start from. What counts is what the tables end up
with, so a field that a later one of its name replaces refers to nothing. A schema is built exactly if the document's
definitions and extensions fit together and everything referred to is there (`build_isOk_iff_closed`). The interfaces
that an interface says it implements are no references: no table keeps them.
-/

namespace RelationalGraphQL

/-! ### References -/

namespace Document

/-- What a reference asks of the type it names. -/
inductive Role where
  | type
  | object
  | interface
  deriving DecidableEq, Repr

def RootTypes.names (roots : RootTypes) : List String :=
  roots.query.toList ++ roots.mutation.toList ++ roots.subscription.toList

namespace TypeSystemDocument

variable (document : TypeSystemDocument)

/-- The fields of an object with those of its extensions, in order. -/
def objectFields (name : String) (fields : List FieldDefinition) : List FieldDefinition :=
  fields ++ (document.objectExtensions.filter (·.name = name)).flatMap ObjectExtension.fields

def objectInterfaces (name : String) (interfaces : List String) : List String :=
  interfaces ++ (document.objectExtensions.filter (·.name = name)).flatMap ObjectExtension.interfaces

/-- The fields of objects and interfaces that no later field of the same type and name replaces. -/
inductive HasField : FieldDefinition → Prop where
  | object {definition : TypeDefinition} {interfaces : List String} {fields : List FieldDefinition}
      {field : FieldDefinition} (hdefinition : definition ∈ document.types)
      (hbody : definition.body = .object interfaces fields)
      (hfield : LastOf FieldDefinition.name (document.objectFields definition.name fields) field) : HasField field
  | interface {definition : TypeDefinition} {interfaces : List String} {fields : List FieldDefinition}
      {field : FieldDefinition} (hdefinition : definition ∈ document.types)
      (hbody : definition.body = .interface interfaces fields) (hfield : LastOf FieldDefinition.name fields field) :
      HasField field

/-- The root types of the last `schema` block. -/
def LastRoots (roots : RootTypes) : Prop :=
  ∃ before after, document = before ++ .schema roots :: after ∧ ∀ roots', .schema roots' ∉ after

inductive Refers : Role → String → Prop where
  | field {field : FieldDefinition} (hfield : document.HasField field) : Refers .type field.type.namedType
  | argument {field : FieldDefinition} {argument : InputValue} (hfield : document.HasField field)
      (hargument : argument ∈ field.arguments) : Refers .type argument.type.namedType
  | inputField {definition : TypeDefinition} {fields : List InputValue} {field : InputValue}
      (hdefinition : definition ∈ document.types) (hbody : definition.body = .input fields)
      (hfield : LastOf InputValue.name fields field) : Refers .type field.type.namedType
  | implemented {definition : TypeDefinition} {interfaces : List String} {fields : List FieldDefinition} {name : String}
      (hdefinition : definition ∈ document.types) (hbody : definition.body = .object interfaces fields)
      (hname : name ∈ document.objectInterfaces definition.name interfaces) : Refers .interface name
  | member {definition : TypeDefinition} {members : List String} {name : String}
      (hdefinition : definition ∈ document.types) (hbody : definition.body = .union members)
      (hname : name ∈ members) : Refers .object name
  | root {roots : RootTypes} {name : String} (hroots : document.LastRoots roots) (hname : name ∈ roots.names) :
      Refers .object name

/-- Whether a name can be referred to in a role. -/
def Offers : Role → String → Prop
  | .type, name => name ∈ document.typeNames ∨ name ∈ Schema.builtinScalars.map Prod.fst
  | .object, name => document.Defines .object name
  | .interface, name => document.Defines .interface name

/-- A document that fits together and refers to nothing that is not there. -/
structure Closed : Prop where
  names : document.typeNames.Nodup
  relations : ∀ definition ∈ document.types, ∀ field ∈ definition.body.fields, Schema.RelationKnown field
  extendedRelations : ∀ extension ∈ document.objectExtensions, ∀ field ∈ extension.fields, Schema.RelationKnown field
  extensions : ∀ extension ∈ document.objectExtensions, document.Defines .object extension.name
  references : ∀ role name, document.Refers role name → document.Offers role name

end TypeSystemDocument

end Document

namespace Schema

variable {schema : Schema} {roots : RootTypes}

open Arguments (except_bind_eq_ok)
open Document (FieldDefinition InputValue ObjectExtension RootTypes TypeDefinition TypeSystemDocument)

/-! ### Built-in types -/

def missingScalars (schema : Schema) (builtins : List (String × String)) : List (String × String) :=
  builtins.filter fun builtin => !(schema.scalar? builtin.1).isSome

theorem foldl_addBuiltinScalar {builtins : List (String × String)} (hnames : (builtins.map Prod.fst).Nodup)
    (schema : Schema) :
    builtins.foldl addBuiltinScalar schema =
      { schema with
        declared := schema.declared ++ (schema.missingScalars builtins).map Prod.fst
        scalars := schema.scalars ++ (schema.missingScalars builtins).map fun builtin =>
          (builtin.1, { name := builtin.1, description := some builtin.2 }) } := by
  induction builtins generalizing schema with
  | nil => simp [missingScalars]
  | cons builtin builtins ih =>
    obtain ⟨hnew, hnames⟩ := List.nodup_cons.1 hnames
    rw [List.foldl_cons, ih hnames, addBuiltinScalar]
    split
    · rename_i hsome
      have hmissing : schema.missingScalars (builtin :: builtins) = schema.missingScalars builtins :=
        List.filter_cons_of_neg (by simp [hsome])
      rw [hmissing]
    · rename_i hnone
      have hmissing : schema.missingScalars (builtin :: builtins) = builtin :: schema.missingScalars builtins :=
        List.filter_cons_of_pos (by simp [hnone])
      have hinsert (scalar : ScalarType) :
          Table.insert builtin.1 scalar schema.scalars = schema.scalars ++ [(builtin.1, scalar)] := by
        apply Table.insert_of_notMem
        intro hmem
        obtain ⟨entry, hentry, hkey⟩ := List.mem_map.1 hmem
        exact hnone (List.lookup_isSome_iff.2 ⟨entry, hentry, beq_iff_eq.2 hkey.symm⟩)
      -- the one that was added is not among the others, so it does not change which of them are missing
      have hothers (scalar : ScalarType) (declared : List String) :
          missingScalars { schema with declared, scalars := schema.scalars ++ [(builtin.1, scalar)] } builtins =
            schema.missingScalars builtins := by
        apply List.filter_congr
        intro other hother
        have hne : other.1 ≠ builtin.1 := fun heq => hnew (heq ▸ List.mem_map_of_mem hother)
        rw [scalar?, scalar?, List.lookup_append, Table.lookup_cons, if_neg hne, List.lookup_nil, Option.or_none]
      rw [hinsert, hothers, hmissing]
      simp

theorem builtinScalars_nodup : (builtinScalars.map Prod.fst).Nodup := by decide

theorem foldl_addBuiltinDirective (builtins : List Directive) (schema : Schema) :
    ∃ directives, builtins.foldl addBuiltinDirective schema = { schema with directives } := by
  induction builtins generalizing schema with
  | nil => exact ⟨schema.directives, rfl⟩
  | cons builtin builtins ih =>
    rw [List.foldl_cons, addBuiltinDirective]
    split
    · exact ih schema
    · exact ih _

/-- What is added to the tables of a document: the built-in scalars that it does not define, and directives. -/
theorem addBuiltins_eq (schema : Schema) :
    ∃ directives, schema.addBuiltins =
      { schema with
        declared := schema.declared ++ (schema.missingScalars builtinScalars).map Prod.fst
        scalars := schema.scalars ++ (schema.missingScalars builtinScalars).map fun builtin =>
          (builtin.1, { name := builtin.1, description := some builtin.2 })
        directives } := by
  rw [addBuiltins, foldl_addBuiltinScalar builtinScalars_nodup]
  exact foldl_addBuiltinDirective builtinDirectives _

/-- The schema of a document before its roots are set. -/
def assembled (document : TypeSystemDocument) : Schema :=
  (catalogue document document.objectExtensions).addBuiltins

/-! ### What is there -/

section

variable {document : TypeSystemDocument} {name : String}

theorem isSome_scalar?_assembled :
    ((assembled document).scalar? name).isSome ↔
      document.Defines .scalar name ∨ name ∈ builtinScalars.map Prod.fst := by
  obtain ⟨directives, hbuiltins⟩ := addBuiltins_eq (catalogue document document.objectExtensions)
  have hcatalogue := @holds_catalogue document document.objectExtensions name .scalar
  rw [assembled, hbuiltins, scalar?, List.lookup_append, Option.isSome_or, Bool.or_eq_true, ← hcatalogue]
  constructor
  · rintro (hsome | hsome)
    · exact .inl hsome
    · obtain ⟨entry, hentry, hkey⟩ := List.lookup_isSome_iff.1 hsome
      obtain ⟨builtin, hbuiltin, rfl⟩ := List.mem_map.1 hentry
      rw [beq_iff_eq.1 hkey]
      exact .inr (List.mem_map_of_mem (List.mem_of_mem_filter hbuiltin))
  · rintro (hsome | hmem)
    · exact .inl hsome
    · obtain ⟨builtin, hbuiltin, rfl⟩ := List.mem_map.1 hmem
      cases hscalar : ((catalogue document document.objectExtensions).scalar? builtin.1).isSome with
      | true => exact .inl hscalar
      | false =>
        have hmissing : builtin ∈ missingScalars (catalogue document document.objectExtensions) builtinScalars :=
          List.mem_filter.2 ⟨hbuiltin, by simp [hscalar]⟩
        exact .inr (List.lookup_isSome_iff.2 ⟨_, List.mem_map_of_mem hmissing, beq_self_eq_true _⟩)

theorem holds_assembled (kind : TypeKind) :
    (assembled document).holds name kind ↔
      document.Defines kind name ∨ kind = .scalar ∧ name ∈ builtinScalars.map Prod.fst := by
  obtain ⟨directives, hbuiltins⟩ := addBuiltins_eq (catalogue document document.objectExtensions)
  have hcatalogue := @holds_catalogue document document.objectExtensions name kind
  cases kind with
  | scalar => simpa only [true_and, holds] using isSome_scalar?_assembled
  | _ =>
    rw [assembled, hbuiltins]
    simp only [reduceCtorEq, false_and, or_false]
    exact hcatalogue

theorem mem_declared_assembled : name ∈ (assembled document).declared ↔ document.Offers .type name := by
  obtain ⟨directives, hbuiltins⟩ := addBuiltins_eq (catalogue document document.objectExtensions)
  rw [assembled, hbuiltins]
  change name ∈ document.typeNames ++ _ ↔ name ∈ document.typeNames ∨ name ∈ builtinScalars.map Prod.fst
  rw [List.mem_append]
  constructor
  · rintro (hmem | hmem)
    · exact .inl hmem
    · obtain ⟨builtin, hbuiltin, rfl⟩ := List.mem_map.1 hmem
      exact .inr (List.mem_map_of_mem (List.mem_of_mem_filter hbuiltin))
  · rintro (hmem | hmem)
    · exact .inl hmem
    · obtain ⟨builtin, hbuiltin, rfl⟩ := List.mem_map.1 hmem
      cases hscalar : ((catalogue document document.objectExtensions).scalar? builtin.1).isSome with
      | true =>
        obtain ⟨definition, hdefinition, hname, -⟩ := (holds_catalogue .scalar).1 hscalar
        exact .inl (List.mem_map.2 ⟨definition, hdefinition, hname⟩)
      | false => exact .inr (List.mem_map_of_mem (List.mem_filter.2 ⟨hbuiltin, by simp [hscalar]⟩))

theorem object?_assembled_isSome : ((assembled document).object? name).isSome ↔ document.Offers .object name := by
  have hholds := @holds_assembled document name .object
  simp only [reduceCtorEq, false_and, or_false] at hholds
  exact hholds

theorem interface?_assembled_isSome :
    ((assembled document).interface? name).isSome ↔ document.Offers .interface name := by
  have hholds := @holds_assembled document name .interface
  simp only [reduceCtorEq, false_and, or_false] at hholds
  exact hholds

end

/-! ### What is referred to -/

theorem checkReferences_eq_ok :
    schema.checkReferences = .ok () ↔
      (∀ entry ∈ schema.objects, ∀ reference ∈ fieldReferences entry.2.name entry.2.fields,
          reference.1 ∈ schema.declared) ∧
        (∀ entry ∈ schema.interfaces, ∀ reference ∈ fieldReferences entry.2.name entry.2.fields,
          reference.1 ∈ schema.declared) ∧
        (∀ entry ∈ schema.objects, ∀ name ∈ entry.2.interfaces, (schema.interface? name).isSome) ∧
        (∀ entry ∈ schema.unions, ∀ name ∈ entry.2.members, (schema.object? name).isSome) ∧
        ∀ entry ∈ schema.inputs, ∀ field ∈ entry.2.fields, field.2.type.namedType ∈ schema.declared := by
  have hunit {p : Unit → Prop} : (∃ answer, p answer) ↔ p () := ⟨fun ⟨(), hp⟩ => hp, fun hp => ⟨(), hp⟩⟩
  simp only [checkReferences, except_bind_eq_ok, hunit, requireAll_eq_ok, List.forall_mem_flatMap, List.forall_mem_map,
    List.contains_iff_mem]

theorem forall_fieldReferences (p : String → Prop) (typeName : String) {fields : List FieldDefinition} :
    (∀ reference ∈ fieldReferences typeName (fieldTable fields), p reference.1) ↔
      ∀ field, LastOf FieldDefinition.name fields field →
        p field.type.namedType ∧ ∀ argument ∈ field.arguments, p argument.type.namedType := by
  simp only [fieldReferences, List.forall_mem_flatMap, List.forall_mem_cons, List.forall_mem_map]
  constructor
  · intro hall field hlast
    obtain ⟨htype, harguments⟩ := hall _ (mem_fieldTable.2 ⟨field, hlast, rfl⟩)
    exact ⟨htype, fun argument hargument => harguments _ (List.mem_map_of_mem hargument)⟩
  · intro hall entry hmem
    obtain ⟨field, hlast, rfl⟩ := mem_fieldTable.1 hmem
    obtain ⟨htype, harguments⟩ := hall field hlast
    refine ⟨htype, ?_⟩
    intro argument hargument
    obtain ⟨source, hsource, rfl⟩ := List.mem_map.1 hargument
    exact harguments source hsource

theorem mem_tableOf_of_read {α : Type} {read? : TypeDefinition → Option α} {types : List TypeDefinition}
    {definition : TypeDefinition} {value : α} (hmem : definition ∈ types) (hread : read? definition = some value) :
    (definition.name, value) ∈ tableOf read? types :=
  mem_tableOf.2 ⟨definition, hmem, rfl, hread⟩

section

variable {document : TypeSystemDocument} {definition : TypeDefinition}

theorem objectOf?_eq_some {object : ObjectType} :
    objectOf? document.objectExtensions definition = some object ↔
      ∃ interfaces fields, definition.body = .object interfaces fields ∧
        object = { name := definition.name, description := definition.description
                   interfaces := document.objectInterfaces definition.name interfaces
                   fields := fieldTable (document.objectFields definition.name fields) } := by
  obtain ⟨description, name, directives, body⟩ := definition
  cases body with
  | object interfaces fields =>
    simp [objectOf?, TypeSystemDocument.objectInterfaces, TypeSystemDocument.objectFields, eq_comm, and_assoc]
  | _ => simp [objectOf?]

theorem interfaceOf?_eq_some {type : InterfaceType} :
    interfaceOf? definition = some type ↔
      ∃ interfaces fields, definition.body = .interface interfaces fields ∧
        type = { name := definition.name, description := definition.description, fields := fieldTable fields } := by
  obtain ⟨description, name, directives, body⟩ := definition
  cases body <;> simp [interfaceOf?, eq_comm]

theorem unionOf?_eq_some {union : UnionType} :
    unionOf? definition = some union ↔
      ∃ members, definition.body = .union members ∧
        union = { name := definition.name, description := definition.description, members } := by
  obtain ⟨description, name, directives, body⟩ := definition
  cases body <;> simp [unionOf?, eq_comm]

theorem inputOf?_eq_some {input : InputType} :
    inputOf? definition = some input ↔
      ∃ fields, definition.body = .input fields ∧
        input = { name := definition.name, description := definition.description
                  fields := Table.ofList (fields.map fun field => (field.name, inputValueOf field)) } := by
  obtain ⟨description, name, directives, body⟩ := definition
  cases body <;> simp [inputOf?, eq_comm]

end

theorem forall_inputFields (p : String → Prop) {fields : List Document.InputValue} :
    (∀ entry ∈ Table.ofList (fields.map fun field => (field.name, inputValueOf field)), p entry.2.type.namedType) ↔
      ∀ field, LastOf Document.InputValue.name fields field → p field.type.namedType := by
  simp only [Table.mem_ofList, lastOf_map]
  constructor
  · intro hall field hlast
    exact hall _ ⟨field, hlast, rfl⟩
  · rintro hall _ ⟨field, hlast, rfl⟩
    exact hall field hlast

/-- The check after the passes, with the one for the roots, is that everything referred to is there. -/
theorem references_iff {document : TypeSystemDocument} :
    ((assembled document).checkReferences = .ok () ∧
        ∀ roots, document.LastRoots roots → ∀ name ∈ roots.names, ((assembled document).object? name).isSome) ↔
      ∀ role name, document.Refers role name → document.Offers role name := by
  rw [checkReferences_eq_ok]
  simp only [mem_declared_assembled, object?_assembled_isSome, interface?_assembled_isSome]
  obtain ⟨directives, hbuiltins⟩ := addBuiltins_eq (catalogue document document.objectExtensions)
  rw [assembled, hbuiltins]
  simp only [catalogue]
  constructor
  · rintro ⟨⟨hobjects, hinterfaces, himplemented, hmembers, hinputs⟩, hroots⟩ role name hrefers
    have hfields {field : FieldDefinition} (hfield : document.HasField field) :
        document.Offers .type field.type.namedType ∧
          ∀ argument ∈ field.arguments, document.Offers .type argument.type.namedType := by
      cases hfield with
      | object hdefinition hbody hlast =>
        have hreferences := hobjects _ (mem_tableOf_of_read hdefinition (objectOf?_eq_some.2 ⟨_, _, hbody, rfl⟩))
        exact (forall_fieldReferences (document.Offers .type) _).1 hreferences field hlast
      | interface hdefinition hbody hlast =>
        have hreferences := hinterfaces _ (mem_tableOf_of_read hdefinition (interfaceOf?_eq_some.2 ⟨_, _, hbody, rfl⟩))
        exact (forall_fieldReferences (document.Offers .type) _).1 hreferences field hlast
    cases hrefers with
    | field hfield => exact (hfields hfield).1
    | argument hfield hargument => exact (hfields hfield).2 _ hargument
    | inputField hdefinition hbody hlast =>
      have hreferences := hinputs _ (mem_tableOf_of_read hdefinition (inputOf?_eq_some.2 ⟨_, hbody, rfl⟩))
      exact (forall_inputFields (document.Offers .type)).1 hreferences _ hlast
    | implemented hdefinition hbody hname =>
      exact himplemented _ (mem_tableOf_of_read hdefinition (objectOf?_eq_some.2 ⟨_, _, hbody, rfl⟩)) name hname
    | member hdefinition hbody hname =>
      exact hmembers _ (mem_tableOf_of_read hdefinition (unionOf?_eq_some.2 ⟨_, hbody, rfl⟩)) name hname
    | root hlast hname => exact hroots _ hlast name hname
  · intro hall
    refine ⟨⟨?_, ?_, ?_, ?_, ?_⟩, fun roots hlast name hname => hall .object name (.root hlast hname)⟩
    · intro entry hmem
      obtain ⟨definition, hdefinition, -, hread⟩ := mem_tableOf.1 hmem
      obtain ⟨interfaces, fields, hbody, hobject⟩ := objectOf?_eq_some.1 hread
      rw [hobject]
      apply (forall_fieldReferences (document.Offers .type) _).2
      intro field hlast
      have hfield := TypeSystemDocument.HasField.object hdefinition hbody hlast
      exact ⟨hall .type _ (.field hfield), fun argument hargument => hall .type _ (.argument hfield hargument)⟩
    · intro entry hmem
      obtain ⟨definition, hdefinition, -, hread⟩ := mem_tableOf.1 hmem
      obtain ⟨interfaces, fields, hbody, htype⟩ := interfaceOf?_eq_some.1 hread
      rw [htype]
      apply (forall_fieldReferences (document.Offers .type) _).2
      intro field hlast
      have hfield := TypeSystemDocument.HasField.interface hdefinition hbody hlast
      exact ⟨hall .type _ (.field hfield), fun argument hargument => hall .type _ (.argument hfield hargument)⟩
    · intro entry hmem name hname
      obtain ⟨definition, hdefinition, -, hread⟩ := mem_tableOf.1 hmem
      obtain ⟨interfaces, fields, hbody, hobject⟩ := objectOf?_eq_some.1 hread
      rw [hobject] at hname
      exact hall .interface name (.implemented hdefinition hbody hname)
    · intro entry hmem name hname
      obtain ⟨definition, hdefinition, -, hread⟩ := mem_tableOf.1 hmem
      obtain ⟨members, hbody, hunion⟩ := unionOf?_eq_some.1 hread
      rw [hunion] at hname
      exact hall .object name (.member hdefinition hbody hname)
    · intro entry hmem
      obtain ⟨definition, hdefinition, -, hread⟩ := mem_tableOf.1 hmem
      obtain ⟨fields, hbody, hinput⟩ := inputOf?_eq_some.1 hread
      rw [hinput]
      apply (forall_inputFields (document.Offers .type)).2
      intro field hlast
      exact hall .type _ (.inputField hdefinition hbody hlast)

/-! ### Roots -/

theorem namedRoots?_eq_some {document : TypeSystemDocument} :
    namedRoots? document = some roots ↔ document.LastRoots roots := by
  unfold namedRoots?
  rw [List.findSome?_eq_some_iff]
  constructor
  · rintro ⟨after, item, before, hdocument, hitem, hafter⟩
    cases item with
    | schema named =>
      cases hitem
      refine ⟨before.reverse, after.reverse, ?_, ?_⟩
      · simpa using congrArg List.reverse hdocument
      · intro roots' hmem
        cases hafter _ (List.mem_reverse.1 hmem)
    | _ => cases hitem
  · rintro ⟨before, after, rfl, hafter⟩
    refine ⟨after.reverse, .schema roots, before.reverse, by simp, rfl, ?_⟩
    intro item hmem
    cases item with
    | schema roots' => exact absurd (List.mem_reverse.1 hmem) (hafter roots')
    | _ => rfl

theorem setRoots_eq_ok {schema' : Schema} :
    schema.setRoots roots = .ok schema' ↔
      (∀ name ∈ roots.names, (schema.object? name).isSome) ∧
        schema' = { schema with
          queryType := roots.query, mutationType := roots.mutation, subscriptionType := roots.subscription } := by
  have hrequire (answer : Unit) :
      requireAll (fun name => (schema.object? name).isSome)
          (roots.names.map fun name => (name, "schema definition")) = .ok answer ↔
        ∀ name ∈ roots.names, (schema.object? name).isSome := by
    rw [requireAll_eq_ok, List.forall_mem_map]
  unfold setRoots
  rw [except_bind_eq_ok]
  constructor
  · rintro ⟨answer, hroots, hschema⟩
    exact ⟨(hrequire answer).1 hroots, (Except.ok.inj hschema).symm⟩
  · rintro ⟨hroots, rfl⟩
    exact ⟨(), (hrequire ()).2 hroots, rfl⟩

theorem usualRoots_isObject (schema : Schema) : ∀ name ∈ schema.usualRoots.names, (schema.object? name).isSome := by
  intro name hname
  simp only [RootTypes.names, usualRoots, List.mem_append, Option.mem_toList] at hname
  rcases hname with (hname | hname) | hname <;>
  · split at hname
    · rename_i hsome
      exact Option.some.inj hname ▸ hsome
    · cases hname

def rootsOf (document : TypeSystemDocument) : RootTypes :=
  (namedRoots? document).getD (assembled document).usualRoots

theorem rootsOf_isObject {document : TypeSystemDocument} :
    (∀ name ∈ (rootsOf document).names, ((assembled document).object? name).isSome) ↔
      ∀ roots, document.LastRoots roots → ∀ name ∈ roots.names, ((assembled document).object? name).isSome := by
  simp only [← namedRoots?_eq_some, rootsOf]
  cases namedRoots? document with
  | none => simpa using usualRoots_isObject (assembled document)
  | some roots => simp

/-! ### Building -/

theorem build_eq_ok {document : TypeSystemDocument} :
    build document = .ok schema ↔
      document.Closed ∧
        schema = { assembled document with
          queryType := (rootsOf document).query, mutationType := (rootsOf document).mutation
          subscriptionType := (rootsOf document).subscription } := by
  unfold build
  simp only [except_bind_eq_ok, definitions_eq_ok_iff]
  constructor
  · rintro ⟨_, ⟨hdefinable, rfl⟩, _, hextend, _, hreferences, hroots⟩
    obtain ⟨hextensible, rfl⟩ := (extensions_eq_ok_iff hdefinable).1 hextend
    obtain ⟨hroots, hschema⟩ := setRoots_eq_ok.1 hroots
    refine ⟨⟨hdefinable.names, hdefinable.relations, ?_, ?_, ?_⟩, hschema⟩
    · exact fun extension hmem => (hextensible extension hmem).2
    · exact fun extension hmem => (hextensible extension hmem).1
    · exact references_iff.1 ⟨hreferences, rootsOf_isObject.1 hroots⟩
  · rintro ⟨hclosed, rfl⟩
    have hdefinable : Definable document := ⟨hclosed.names, hclosed.relations⟩
    have hextensible : Extensible document document.objectExtensions :=
      fun extension hmem => ⟨hclosed.extensions extension hmem, hclosed.extendedRelations extension hmem⟩
    obtain ⟨hreferences, hroots⟩ := references_iff.2 hclosed.references
    exact ⟨_, ⟨hdefinable, rfl⟩, _, (extensions_eq_ok_iff hdefinable).2 ⟨hextensible, rfl⟩, (), hreferences,
      setRoots_eq_ok.2 ⟨rootsOf_isObject.2 hroots, rfl⟩⟩

/-- The kinds that tables have a name under, in the order in which a kind is looked for. -/
def kinds (schema : Schema) (name : String) : List TypeKind :=
  [.object, .interface, .union, .enum, .inputObject, .scalar].filter (schema.holds name)

theorem typeKind?_eq_head? (schema : Schema) (name : String) : schema.typeKind? name = (schema.kinds name).head? := by
  simp only [typeKind?, kinds, List.head?_filter, List.find?_cons, List.find?_nil, holds]
  repeat' split <;> simp_all

theorem mem_kinds {name : String} {kind : TypeKind} : kind ∈ schema.kinds name ↔ schema.holds name kind := by
  unfold kinds
  rw [List.mem_filter]
  cases kind <;> simp

theorem typeKind?_isSome {name : String} : (schema.typeKind? name).isSome ↔ ∃ kind, schema.holds name kind := by
  rw [typeKind?_eq_head?, List.isSome_head?]
  constructor
  · intro hkinds
    obtain ⟨kind, hmem⟩ := List.exists_mem_of_ne_nil _ hkinds
    exact ⟨kind, mem_kinds.1 hmem⟩
  · rintro ⟨kind, hkind⟩
    exact List.ne_nil_of_mem (mem_kinds.2 hkind)

theorem holds_withRoots (schema : Schema) (query mutation subscription : Option String) (name : String)
    (kind : TypeKind) :
    { schema with queryType := query, mutationType := mutation, subscriptionType := subscription }.holds name kind =
      schema.holds name kind := by
  cases kind <;> rfl

theorem holds_of_offers {document : TypeSystemDocument} {role : Document.Role} {name : String}
    (hoffers : document.Offers role name) : ∃ kind, (assembled document).holds name kind := by
  cases role with
  | type =>
    rcases hoffers with hmem | hbuiltin
    · obtain ⟨definition, hdefinition, hname⟩ := List.mem_map.1 hmem
      exact ⟨_, (holds_assembled _).2 (.inl ⟨definition, hdefinition, hname, rfl⟩)⟩
    · exact ⟨.scalar, (holds_assembled .scalar).2 (.inr ⟨rfl, hbuiltin⟩)⟩
  | object => exact ⟨.object, (holds_assembled .object).2 (.inl hoffers)⟩
  | interface => exact ⟨.interface, (holds_assembled .interface).2 (.inl hoffers)⟩

/-- A schema is built of exactly the closed documents, and everything such a document refers to is a type in it. -/
theorem build_isOk_iff_closed (document : TypeSystemDocument) :
    ((∃ schema, build document = .ok schema) ↔ document.Closed) ∧
      ∀ schema, build document = .ok schema →
        ∀ role name, document.Refers role name → (schema.typeKind? name).isSome := by
  constructor
  · constructor
    · rintro ⟨schema, hbuild⟩
      exact (build_eq_ok.1 hbuild).1
    · intro hclosed
      exact ⟨_, build_eq_ok.2 ⟨hclosed, rfl⟩⟩
  · intro schema hbuild role name hrefers
    obtain ⟨hclosed, rfl⟩ := build_eq_ok.1 hbuild
    obtain ⟨kind, hkind⟩ := holds_of_offers (hclosed.references role name hrefers)
    exact typeKind?_isSome.2 ⟨kind, (holds_withRoots _ _ _ _ _ _).trans hkind⟩

/-- An extension before the object it extends, which makes it implement an interface defined behind both. -/
theorem build_isOk_iff_closed_extended :
    ∃ document schema,
      TypeSystemDocument.parse?
          "extend type Query implements Named type Query { name: ID } interface Named { name: ID }" = some document ∧
        build document = .ok schema ∧ document.Closed ∧ document.Refers .interface "Named" ∧
        (schema.typeKind? "Named").isSome := by
  let text := "extend type Query implements Named type Query { name: ID } interface Named { name: ID }"
  have hok : (TypeSystemDocument.parse? text).map (fun document => (build document).isOk) = some true := by
    decide +kernel
  have hobjects : (TypeSystemDocument.parse? text).map (fun document =>
      (document.types.filterMap (objectOf? document.objectExtensions)).map ObjectType.interfaces) = some [["Named"]] := by
    decide +kernel
  cases hdocument : TypeSystemDocument.parse? text with
  | none => rw [hdocument] at hok; cases hok
  | some document =>
    rw [hdocument, Option.map_some, Option.some.injEq] at hok hobjects
    obtain ⟨object, hobject, hinterfaces⟩ := List.mem_map.1 (hobjects ▸ List.mem_singleton_self ["Named"])
    obtain ⟨definition, hdefinition, hread⟩ := List.mem_filterMap.1 hobject
    obtain ⟨interfaces, fields, hbody, rfl⟩ := objectOf?_eq_some.1 hread
    have hnamed : document.objectInterfaces definition.name interfaces = ["Named"] := hinterfaces
    have hrefers : document.Refers .interface "Named" :=
      .implemented hdefinition hbody (hnamed ▸ List.mem_cons_self)
    obtain ⟨hclosed, hkinds⟩ := build_isOk_iff_closed document
    cases hbuild : build document with
    | error error => rw [hbuild] at hok; cases hok
    | ok schema =>
      exact ⟨document, schema, rfl, hbuild, hclosed.1 ⟨schema, hbuild⟩, hrefers, hkinds schema hbuild _ _ hrefers⟩

/-- The interfaces that an interface says it implements. -/
def implementedBy? (definition : TypeDefinition) : Option (List String) :=
  match definition.body with
  | .interface interfaces _ => some interfaces
  | _ => none

/-- What an interface implements need not be there: a schema is built, and it has no type of that name. -/
theorem build_interface_implements_missing :
    ∃ document schema,
      TypeSystemDocument.parse?
          "interface Named implements Missing { name: String } type Query { named: Named }" = some document ∧
        (∃ definition ∈ document.types, ∃ interfaces fields,
          definition.body = .interface interfaces fields ∧ "Missing" ∈ interfaces) ∧
        build document = .ok schema ∧ schema.typeKind? "Missing" = none := by
  let text := "interface Named implements Missing { name: String } type Query { named: Named }"
  have hkind : (TypeSystemDocument.parse? text).map (fun document =>
      (build document).toOption.map (·.typeKind? "Missing")) = some (some none) := by decide +kernel
  have himplemented : (TypeSystemDocument.parse? text).map (fun document => document.types.filterMap implementedBy?) =
      some [["Missing"]] := by decide +kernel
  cases hdocument : TypeSystemDocument.parse? text with
  | none => rw [hdocument] at hkind; cases hkind
  | some document =>
    rw [hdocument, Option.map_some, Option.some.injEq] at hkind himplemented
    obtain ⟨definition, hdefinition, hread⟩ := List.mem_filterMap.1 (himplemented ▸ List.mem_singleton_self ["Missing"])
    cases hbuild : build document with
    | error error => rw [hbuild] at hkind; cases hkind
    | ok schema =>
      rw [hbuild] at hkind
      refine ⟨document, schema, rfl, ⟨definition, hdefinition, ?_⟩, hbuild, Option.some.inj hkind⟩
      unfold implementedBy? at hread
      split at hread
      · rename_i interfaces fields hbody
        exact ⟨interfaces, fields, hbody, Option.some.inj hread ▸ List.mem_cons_self⟩
      · cases hread

end Schema

end RelationalGraphQL
