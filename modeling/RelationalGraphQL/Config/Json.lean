import RelationalGraphQL.Config.Basic

/-!
The JSON form of a configuration.
-/

namespace RelationalGraphQL.Config

def linkJson (link : Mapping.LinkTable) : Json :=
  .obj [("table", .str link.table), ("sourceKey", .str link.sourceKey), ("targetKey", .str link.targetKey)]

def Relation.toJson (relation : Relation) : Json :=
  .obj ([("type", .str relation.kind.text), ("table", .str relation.table), ("foreignKey", .str relation.foreignKey),
      ("references", .str relation.references), ("joinType", .str relation.join.text)]
    ++ relation.link.elim [] fun link => [("through", linkJson link)])

def Loading.toJson (loading : Loading) : Json :=
  .obj [("max_batch", .ofNat loading.maxBatch), ("batch_delay_ms", .ofNat loading.delay)]

def Execution.toJson (execution : Execution) : Json :=
  .obj [("timeout_ms", execution.timeout.elim .null .ofNat), ("dataloader", execution.loading.toJson)]

/-- A map of the configuration, with its values in their JSON form. -/
def tableJson {α : Type} (valueJson : α → Json) (table : Table α) : Json :=
  .obj (table.map fun (key, value) => (key, valueJson value))

def toJson (config : Config) : Json :=
  .obj [
    ("database", .obj [("dialect", .str config.dialect)]),
    ("naming", .obj [("pluralize_tables", .bool config.pluralizesTables)]),
    ("models", tableJson .str config.models),
    ("fields", tableJson .str config.fields),
    ("relations", tableJson Relation.toJson config.relations),
    ("scalars", tableJson (fun kind => .obj [("kind", .str kind.text)]) config.scalars),
    ("execution", config.execution.toJson)]

end RelationalGraphQL.Config
