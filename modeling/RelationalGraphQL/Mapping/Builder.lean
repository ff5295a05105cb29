import RelationalGraphQL.Mapping.Basic

/-!
Setting up a mapping step by step. The joins by convention are worked out ahead, and again whenever a name that they
may depend on is set.
-/

namespace RelationalGraphQL.Mapping

def conventionEntries (mapping : Mapping) : List (String × Relation) :=
  mapping.schema.objects.flatMap fun (_, object) =>
    object.fields.filterMap fun (_, field) =>
      field.relation.map fun kind =>
        (fieldKey object.name field.name,
          .usual object.name field kind (field.table.getD (mapping.tableName field.type.namedType)))

/-- The joins by convention of all fields that the schema marks as relations, by key. -/
def conventions (mapping : Mapping) : List (String × Relation) := Table.ofList mapping.conventionEntries

/-- One step of setting up a mapping. -/
inductive Setting where
  | table (typeName table : String)
  | column (typeName fieldName column : String)
  | join (typeName fieldName : String) (relation : Relation)
  | plural (enabled : Bool)

/-- A mapping that is being set up, with the joins by convention of its names. -/
structure Builder where
  mapping : Mapping
  derived : List (String × Relation) := []

namespace Builder

/-- Works out the joins by convention anew, if there are to be any. -/
def refresh (builder : Builder) : Builder :=
  if builder.mapping.derivesRelations then { builder with derived := builder.mapping.conventions } else builder

def new (schema : Schema) (dialect : Sql.Dialect) : Builder := { mapping := { schema, dialect } }

/-- A mapping that joins every field the schema marks as a relation. -/
def ofSchema (schema : Schema) (dialect : Sql.Dialect) : Builder :=
  refresh { mapping := { schema, dialect, derivesRelations := true } }

def set (builder : Builder) : Setting → Builder
  | .table typeName table => refresh { builder with mapping := builder.mapping.mapTable typeName table }
  | .column typeName fieldName column => { builder with mapping := builder.mapping.mapColumn typeName fieldName column }
  | .join typeName fieldName relation =>
    { builder with mapping := builder.mapping.mapRelation typeName fieldName relation }
  | .plural enabled => refresh { builder with mapping := builder.mapping.pluralizeTables enabled }

def setAll (builder : Builder) (settings : List Setting) : Builder := settings.foldl set builder

/-- The join of a field: the one that was set, or the one by convention. -/
def relation? (builder : Builder) (typeName fieldName : String) : Option Relation :=
  let key := fieldKey typeName fieldName
  match builder.mapping.relations.lookup key with
  | some relation => some relation
  | none => builder.derived.lookup key

end Builder

end RelationalGraphQL.Mapping
