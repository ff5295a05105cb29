import RelationalGraphQL.Proofs.Document.Names
import RelationalGraphQL.Proofs.Schema.WellFormed

/-!
# The tables of a document

Building a schema goes through the definitions of a document, then through its extensions. Both passes keep to a closed
form: after any part of the document the tables are those of the definitions and extensions so far
(`definitions_eq_ok_iff`, `extensions_eq_ok_iff`). So whether a pass gets through, and what it leaves, can be read off
the document.
-/

namespace RelationalGraphQL

/-! ### What a document says -/

namespace Document

structure ObjectExtension where
  name : String
  interfaces : List String
  fields : List FieldDefinition

def TypeBody.kind : TypeBody → Schema.TypeKind
  | .scalar => .scalar
  | .object _ _ => .object
  | .interface _ _ => .interface
  | .union _ => .union
  | .enum _ => .enum
  | .input _ => .inputObject

namespace TypeSystemDefinition

def type? : TypeSystemDefinition → Option TypeDefinition
  | .type definition => some definition
  | _ => none

def directive? : TypeSystemDefinition → Option DirectiveDefinition
  | .directive definition => some definition
  | _ => none

def objectExtension? : TypeSystemDefinition → Option ObjectExtension
  | .extension ⟨_, name, _, .object interfaces fields⟩ => some ⟨name, interfaces, fields⟩
  | _ => none

end TypeSystemDefinition

namespace TypeSystemDocument

def types (document : TypeSystemDocument) : List TypeDefinition := document.filterMap TypeSystemDefinition.type?

def typeNames (document : TypeSystemDocument) : List String := document.types.map TypeDefinition.name

def directives (document : TypeSystemDocument) : List DirectiveDefinition :=
  document.filterMap TypeSystemDefinition.directive?

def objectExtensions (document : TypeSystemDocument) : List ObjectExtension :=
  document.filterMap TypeSystemDefinition.objectExtension?

/-- Whether a document defines a type of a kind and name. -/
def Defines (document : TypeSystemDocument) (kind : Schema.TypeKind) (name : String) : Prop :=
  ∃ definition ∈ document.types, definition.name = name ∧ definition.body.kind = kind

end TypeSystemDocument

end Document

namespace Schema

variable {document : TypeSystemDocument} {extensions : List ObjectExtension} {schema schema' : Schema}
  {typeName : String} {ε : Type} {definitions : List FieldDefinition} {object : ObjectType}
  {extension : ObjectExtension}

open Arguments (except_bind_eq_ok)
open Document (FieldDefinition ObjectExtension TypeDefinition TypeSystemDefinition TypeSystemDocument)

/-! ### Fields -/

theorem ofText?_eq_some {text : String} {kind : RelationKind} : RelationKind.ofText? text = some kind ↔ kind.text = text := by
  constructor
  · intro hkind
    unfold RelationKind.ofText? at hkind
    split at hkind <;> cases hkind <;> rfl
  · rintro rfl
    cases kind <;> rfl

/-- A text argument of a field's first `@sql` directive. -/
def sqlText? (name : String) (definition : FieldDefinition) : Option String :=
  (definition.directives.find? (·.name = "sql")).bind fun sql => textArgument? sql name

/-- A field names no relation, or one that there is. -/
def RelationKnown (definition : FieldDefinition) : Prop :=
  ∀ text, sqlText? "relation" definition = some text → ∃ kind : RelationKind, kind.text = text

def fieldFrom (definition : FieldDefinition) : Field :=
  { name := definition.name, description := definition.description, type := definition.type,
    arguments := definition.arguments.map inputValueOf, deprecation := deprecationOf definition.directives,
    column := sqlText? "column" definition, table := sqlText? "table" definition,
    relation := (sqlText? "relation" definition).bind RelationKind.ofText? }

theorem relationOf_eq_ok {location : String} {sql : Document.Directive} {relation : Option RelationKind} :
    relationOf location sql = .ok relation ↔
      (∀ text, textArgument? sql "relation" = some text → ∃ kind : RelationKind, kind.text = text) ∧
        relation = (textArgument? sql "relation").bind RelationKind.ofText? := by
  unfold relationOf
  cases textArgument? sql "relation" with
  | none => simp [eq_comm]
  | some text =>
    dsimp only [Option.bind_some]
    cases hkind : RelationKind.ofText? text with
    | some kind =>
      constructor
      · intro hrelation
        refine ⟨?_, (Except.ok.inj hrelation).symm⟩
        rintro _ ⟨rfl⟩
        exact ⟨kind, ofText?_eq_some.1 hkind⟩
      · rintro ⟨-, rfl⟩
        rfl
    | none =>
      constructor
      · intro hrelation
        cases hrelation
      · rintro ⟨hknown, -⟩
        obtain ⟨kind, htext⟩ := hknown text rfl
        rw [ofText?_eq_some.2 htext] at hkind
        cases hkind

theorem fieldOf_eq_ok {definition : FieldDefinition} {field : Field} :
    fieldOf typeName definition = .ok field ↔ RelationKnown definition ∧ field = fieldFrom definition := by
  unfold fieldOf RelationKnown fieldFrom sqlText?
  cases definition.directives.find? (·.name = "sql") with
  | none => simp [pure, Except.pure, eq_comm]
  | some sql =>
    simp only [except_bind_eq_ok, relationOf_eq_ok, Option.bind_some]
    constructor
    · rintro ⟨_, ⟨hknown, rfl⟩, hfield⟩
      exact ⟨hknown, (Except.ok.inj hfield).symm⟩
    · rintro ⟨hknown, rfl⟩
      exact ⟨_, ⟨hknown, rfl⟩, rfl⟩

theorem mapM_eq_ok_iff {α β : Type} {f : α → Except ε β} {good : α → Prop} {g : α → β}
    (hf : ∀ a b, f a = .ok b ↔ good a ∧ b = g a) (items : List α) (results : List β) :
    items.mapM f = .ok results ↔ (∀ item ∈ items, good item) ∧ results = items.map g := by
  induction items generalizing results with
  | nil => simp [pure, Except.pure, eq_comm]
  | cons item items ih =>
    simp only [List.mapM_cons, except_bind_eq_ok, hf, ih]
    constructor
    · rintro ⟨_, ⟨hitem, rfl⟩, _, ⟨hitems, rfl⟩, hresults⟩
      cases hresults
      exact ⟨List.forall_mem_cons.2 ⟨hitem, hitems⟩, rfl⟩
    · rintro ⟨hall, rfl⟩
      obtain ⟨hitem, hitems⟩ := List.forall_mem_cons.1 hall
      exact ⟨_, ⟨hitem, rfl⟩, _, ⟨hitems, rfl⟩, rfl⟩

/-- The fields of a type by name; of a repeated name the last definition counts. -/
def fieldTable (definitions : List FieldDefinition) : List (String × Field) :=
  Table.ofList (definitions.map fun definition => (definition.name, fieldFrom definition))

theorem fieldsOf_eq_ok {fields : List (String × Field)} :
    fieldsOf typeName definitions = .ok fields ↔
      (∀ definition ∈ definitions, RelationKnown definition) ∧ fields = fieldTable definitions := by
  have hread := mapM_eq_ok_iff (fun definition field => @fieldOf_eq_ok typeName definition field) definitions
  unfold fieldsOf fieldTable
  simp only [except_bind_eq_ok, hread]
  constructor
  · rintro ⟨_, ⟨hknown, rfl⟩, hfields⟩
    cases hfields
    exact ⟨hknown, by rw [List.map_map]; rfl⟩
  · rintro ⟨hknown, rfl⟩
    exact ⟨_, ⟨hknown, rfl⟩, by rw [List.map_map]; rfl⟩

theorem mem_fieldTable {entry : String × Field} :
    entry ∈ fieldTable definitions ↔ ∃ definition, LastOf FieldDefinition.name definitions definition ∧
      entry = (definition.name, fieldFrom definition) := by
  simp only [fieldTable, Table.mem_ofList, lastOf_map, eq_comm]

theorem insertAll_fieldTable (definitions more : List FieldDefinition) :
    Table.insertAll (fieldTable more) (fieldTable definitions) = fieldTable (definitions ++ more) := by
  unfold fieldTable
  rw [Table.insertAll_ofList, Table.ofList, Table.ofList, List.map_append, Table.insertAll_append]

/-! ### Tables of types -/

section

variable {α : Type}

/-- The definitions that can be read as types of one kind, by name. -/
def tableOf (read? : TypeDefinition → Option α) (types : List TypeDefinition) : List (String × α) :=
  types.filterMap fun definition => (read? definition).map fun value => (definition.name, value)

variable {read? read?' : TypeDefinition → Option α} {types : List TypeDefinition} {definition : TypeDefinition}

theorem mem_tableOf {entry : String × α} :
    entry ∈ tableOf read? types ↔
      ∃ definition ∈ types, definition.name = entry.1 ∧ read? definition = some entry.2 := by
  simp only [tableOf, List.mem_filterMap, Option.map_eq_some_iff, Prod.ext_iff]
  constructor
  · rintro ⟨definition, hmem, value, hread, hname, rfl⟩
    exact ⟨definition, hmem, hname, hread⟩
  · rintro ⟨definition, hmem, hname, hread⟩
    exact ⟨definition, hmem, entry.2, hread, hname, rfl⟩

theorem keys_tableOf : ((tableOf read? types).map Prod.fst).Sublist (types.map TypeDefinition.name) := by
  unfold tableOf
  induction types with
  | nil => exact .slnil
  | cons definition types ih =>
    rw [List.filterMap_cons]
    cases read? definition with
    | none => exact ih.cons _
    | some value => exact ih.cons_cons _

theorem lookup_tableOf_isSome {name : String} :
    ((tableOf read? types).lookup name).isSome ↔
      ∃ definition ∈ types, definition.name = name ∧ (read? definition).isSome := by
  rw [List.lookup_isSome_iff]
  constructor
  · rintro ⟨entry, hmem, hkey⟩
    obtain ⟨definition, hdefinition, hname, hread⟩ := mem_tableOf.1 hmem
    exact ⟨definition, hdefinition, hname.trans (beq_iff_eq.1 hkey).symm, by rw [hread]; rfl⟩
  · rintro ⟨definition, hdefinition, rfl, hread⟩
    obtain ⟨value, hvalue⟩ := Option.isSome_iff_exists.1 hread
    exact ⟨(definition.name, value), mem_tableOf.2 ⟨definition, hdefinition, rfl, hvalue⟩, beq_self_eq_true _⟩

theorem lookup_tableOf (hnames : (types.map TypeDefinition.name).Nodup) {name : String} {value : α} :
    (tableOf read? types).lookup name = some value ↔
      ∃ definition ∈ types, definition.name = name ∧ read? definition = some value := by
  constructor
  · intro hlookup
    exact mem_tableOf.1 (Table.mem_of_lookup hlookup)
  · intro hdefinition
    exact Table.lookup_of_mem (keys_tableOf.nodup hnames) (mem_tableOf.2 hdefinition)

theorem tableOf_concat (read? : TypeDefinition → Option α) (types : List TypeDefinition)
    (definition : TypeDefinition) :
    tableOf read? (types ++ [definition]) =
      tableOf read? types ++ ((read? definition).map fun value => (definition.name, value)).toList := by
  unfold tableOf
  rw [List.filterMap_append, List.filterMap_cons, List.filterMap_nil]
  cases read? definition <;> rfl

/-- A type that is read anew keeps its place. -/
theorem insert_tableOf_of_mem (hnames : (types.map TypeDefinition.name).Nodup) (hmem : definition ∈ types) {value : α}
    (hold : (read? definition).isSome) (hread : read?' definition = some value)
    (hother : ∀ other ∈ types, other.name ≠ definition.name → read?' other = read? other) :
    Table.insert definition.name value (tableOf read? types) = tableOf read?' types := by
  induction types with
  | nil => cases hmem
  | cons first rest ih =>
    obtain ⟨hfirst, hnames⟩ := List.nodup_cons.1 hnames
    unfold tableOf
    rw [List.filterMap_cons, List.filterMap_cons]
    rcases List.mem_cons.1 hmem with rfl | hmem
    · obtain ⟨old, hold⟩ := Option.isSome_iff_exists.1 hold
      have hrest : tableOf read?' rest = tableOf read? rest := by
        apply List.filterMap_congr
        intro other hmem
        rw [hother other (List.mem_cons_of_mem _ hmem)]
        intro hname
        exact hfirst (hname ▸ List.mem_map_of_mem hmem)
      rw [hold, hread]
      simp only [Option.map_some, Table.insert, if_pos]
      exact congrArg _ hrest.symm
    · have hne : first.name ≠ definition.name := fun hname => hfirst (hname ▸ List.mem_map_of_mem hmem)
      have hrest := ih hnames hmem fun other hother' => hother other (List.mem_cons_of_mem _ hother')
      rw [hother first List.mem_cons_self hne]
      cases read? first with
      | none => exact hrest
      | some value =>
        simp only [Option.map_some, Table.insert, if_neg hne]
        exact congrArg _ hrest

end

def scalarOf? : TypeDefinition → Option ScalarType
  | ⟨description, name, _, .scalar⟩ => some { name, description }
  | _ => none

def objectOf? (extensions : List ObjectExtension) : TypeDefinition → Option ObjectType
  | ⟨description, name, _, .object interfaces fields⟩ =>
    let own := extensions.filter (·.name = name)
    some { name, description
           interfaces := interfaces ++ own.flatMap ObjectExtension.interfaces
           fields := fieldTable (fields ++ own.flatMap ObjectExtension.fields) }
  | _ => none

def interfaceOf? : TypeDefinition → Option InterfaceType
  | ⟨description, name, _, .interface _ fields⟩ => some { name, description, fields := fieldTable fields }
  | _ => none

def unionOf? : TypeDefinition → Option UnionType
  | ⟨description, name, _, .union members⟩ => some { name, description, members }
  | _ => none

def enumOf? : TypeDefinition → Option EnumType
  | ⟨description, name, _, .enum values⟩ => some { name, description, values := values.map enumValueOf }
  | _ => none

def inputOf? : TypeDefinition → Option InputType
  | ⟨description, name, _, .input fields⟩ =>
    some { name, description, fields := Table.ofList (fields.map fun field => (field.name, inputValueOf field)) }
  | _ => none

/-- The schema that definitions and extensions of objects amount to, without what every schema has. -/
def catalogue (document : TypeSystemDocument) (extensions : List ObjectExtension) : Schema where
  objects := tableOf (objectOf? extensions) document.types
  interfaces := tableOf interfaceOf? document.types
  unions := tableOf unionOf? document.types
  inputs := tableOf inputOf? document.types
  enums := tableOf enumOf? document.types
  scalars := tableOf scalarOf? document.types
  directives := document.directives.map directiveOf
  declared := document.typeNames

/-- Whether the table of a kind has a name. -/
def holds (schema : Schema) (name : String) : TypeKind → Bool
  | .scalar => (schema.scalar? name).isSome
  | .object => (schema.object? name).isSome
  | .interface => (schema.interface? name).isSome
  | .union => (schema.union? name).isSome
  | .enum => (schema.enum? name).isSome
  | .inputObject => (schema.input? name).isSome

theorem objectOf?_isSome {definition : TypeDefinition} :
    (objectOf? extensions definition).isSome ↔ definition.body.kind = .object := by
  obtain ⟨description, name, directives, body⟩ := definition
  cases body <;> simp [objectOf?, Document.TypeBody.kind]

theorem holds_catalogue {name : String} (kind : TypeKind) :
    (catalogue document extensions).holds name kind ↔ document.Defines kind name := by
  have hlookup {α : Type} {read? : TypeDefinition → Option α}
      (hread : ∀ definition, (read? definition).isSome ↔ definition.body.kind = kind) :
      ((tableOf read? document.types).lookup name).isSome ↔ document.Defines kind name := by
    simp only [lookup_tableOf_isSome, hread, TypeSystemDocument.Defines]
  cases kind with
  | object => exact hlookup fun definition => objectOf?_isSome
  | _ =>
    apply hlookup
    rintro ⟨description, name, directives, body⟩
    cases body <;>
      simp [scalarOf?, interfaceOf?, unionOf?, enumOf?, inputOf?, Document.TypeBody.kind]

/-! ### The two passes -/

/-- A fold whose steps keep to a closed form gets through exactly if the form is sound of the whole list. -/
theorem foldlM_eq_ok_iff {σ α : Type} {step : σ → α → Except ε σ} (form : List α → σ) (sound : List α → Prop)
    (hempty : sound []) (hinitial : ∀ front back, sound (front ++ back) → sound front)
    (hstep : ∀ front item state, sound front →
      (step (form front) item = .ok state ↔ sound (front ++ [item]) ∧ state = form (front ++ [item]))) (items : List α)
    (state : σ) : items.foldlM step (form []) = .ok state ↔ sound items ∧ state = form items := by
  suffices hfrom : ∀ front, sound front →
      (items.foldlM step (form front) = .ok state ↔ sound (front ++ items) ∧ state = form (front ++ items)) from
    hfrom [] hempty
  induction items with
  | nil =>
    intro front hfront
    simp [hfront, pure, Except.pure, eq_comm]
  | cons item items ih =>
    intro front hfront
    rw [List.foldlM_cons, except_bind_eq_ok, List.append_cons]
    constructor
    · rintro ⟨middle, hfirst, hrest⟩
      obtain ⟨hsound, rfl⟩ := (hstep front item middle hfront).1 hfirst
      exact (ih _ hsound).1 hrest
    · rintro ⟨hsound, rfl⟩
      have hnext := hinitial (front ++ [item]) items hsound
      exact ⟨_, (hstep front item _ hfront).2 ⟨hnext, rfl⟩, (ih _ hnext).2 ⟨hsound, rfl⟩⟩

section

variable (front : TypeSystemDocument) {item : TypeSystemDefinition}

theorem types_append (back : TypeSystemDocument) :
    TypeSystemDocument.types (front ++ back) = front.types ++ back.types := List.filterMap_append

theorem types_concat {definition : TypeDefinition} (hitem : item.type? = some definition) :
    TypeSystemDocument.types (front ++ [item]) = front.types ++ [definition] := by
  unfold TypeSystemDocument.types
  rw [List.filterMap_append, List.filterMap_cons_some hitem, List.filterMap_nil]

theorem types_concat_none (hitem : item.type? = none) : TypeSystemDocument.types (front ++ [item]) = front.types := by
  unfold TypeSystemDocument.types
  rw [List.filterMap_append, List.filterMap_cons_none hitem, List.filterMap_nil, List.append_nil]

theorem objectExtensions_concat {extension : ObjectExtension} (hitem : item.objectExtension? = some extension) :
    TypeSystemDocument.objectExtensions (front ++ [item]) = front.objectExtensions ++ [extension] := by
  unfold TypeSystemDocument.objectExtensions
  rw [List.filterMap_append, List.filterMap_cons_some hitem, List.filterMap_nil]

theorem objectExtensions_concat_none (hitem : item.objectExtension? = none) :
    TypeSystemDocument.objectExtensions (front ++ [item]) = front.objectExtensions := by
  unfold TypeSystemDocument.objectExtensions
  rw [List.filterMap_append, List.filterMap_cons_none hitem, List.filterMap_nil, List.append_nil]

end

/-- Definitions that fit together: their names are all different, and their fields name relations that there are. -/
structure Definable (document : TypeSystemDocument) : Prop where
  names : document.typeNames.Nodup
  relations : ∀ definition ∈ document.types, ∀ field ∈ definition.body.fields, RelationKnown field

theorem Definable.initial {front back : TypeSystemDocument} (hdefinable : Definable (front ++ back)) :
    Definable front := by
  obtain ⟨hnames, hrelations⟩ := hdefinable
  rw [TypeSystemDocument.typeNames, types_append, List.map_append] at hnames
  rw [types_append] at hrelations
  exact ⟨hnames.of_append_left, fun definition hmem => hrelations definition (List.mem_append_left _ hmem)⟩

theorem definable_concat {front : TypeSystemDocument} (hfront : Definable front) {item : TypeSystemDefinition}
    {definition : TypeDefinition} (hitem : item.type? = some definition) :
    Definable (front ++ [item]) ↔
      definition.name ∉ front.typeNames ∧ ∀ field ∈ definition.body.fields, RelationKnown field := by
  have hnames : TypeSystemDocument.typeNames (front ++ [item]) = front.typeNames.concat definition.name := by
    rw [TypeSystemDocument.typeNames, types_concat front hitem, List.map_append, List.concat_eq_append]
    rfl
  constructor
  · rintro ⟨hnodup, hrelations⟩
    rw [hnames, List.nodup_concat] at hnodup
    rw [types_concat front hitem] at hrelations
    exact ⟨hnodup.1, hrelations definition (by simp)⟩
  · rintro ⟨hnew, hrelations⟩
    constructor
    · rw [hnames]
      exact hfront.names.concat hnew
    · intro other hmem
      rw [types_concat front hitem] at hmem
      rcases List.mem_append.1 hmem with hmem | hmem
      · exact hfront.relations other hmem
      · rw [List.mem_singleton.1 hmem]
        exact hrelations

theorem definable_concat_none {front : TypeSystemDocument} (hfront : Definable front) {item : TypeSystemDefinition}
    (hitem : item.type? = none) : Definable (front ++ [item]) := by
  have htypes := types_concat_none front hitem
  refine ⟨?_, htypes ▸ hfront.relations⟩
  rw [TypeSystemDocument.typeNames, htypes]
  exact hfront.names

def withType (schema : Schema) (definition : TypeDefinition) : Schema :=
  let name := definition.name
  let description := definition.description
  let schema := { schema with declared := schema.declared ++ [name] }
  match definition.body with
  | .scalar => { schema with scalars := Table.insert name { name, description } schema.scalars }
  | .object interfaces fields =>
    { schema with
      objects := Table.insert name { name, description, interfaces, fields := fieldTable fields } schema.objects }
  | .interface _ fields =>
    { schema with
      interfaces := Table.insert name { name, description, fields := fieldTable fields } schema.interfaces }
  | .union members => { schema with unions := Table.insert name { name, description, members } schema.unions }
  | .enum values =>
    { schema with enums := Table.insert name { name, description, values := values.map enumValueOf } schema.enums }
  | .input fields =>
    let fields := Table.ofList (fields.map fun field => (field.name, inputValueOf field))
    { schema with inputs := Table.insert name { name, description, fields } schema.inputs }

theorem addType_eq_ok {definition : TypeDefinition} :
    schema.addType definition = .ok schema' ↔
      (definition.name ∉ schema.declared ∧ ∀ field ∈ definition.body.fields, RelationKnown field) ∧
        schema' = schema.withType definition := by
  obtain ⟨description, name, directives, body⟩ := definition
  by_cases hnew : name ∈ schema.declared
  · simp [addType, declare, hnew, bind, Except.bind]
  · have hdeclare : schema.declare name = .ok { schema with declared := schema.declared ++ [name] } := by
      simp [declare, hnew]
    simp only [addType, hdeclare, except_bind_eq_ok, Except.ok.injEq, exists_eq_left']
    cases body with
    | object | interface =>
      simp only [except_bind_eq_ok, fieldsOf_eq_ok]
      constructor
      · rintro ⟨_, ⟨hknown, rfl⟩, hschema⟩
        exact ⟨⟨hnew, hknown⟩, (Except.ok.inj hschema).symm⟩
      · rintro ⟨⟨-, hknown⟩, rfl⟩
        exact ⟨_, ⟨hknown, rfl⟩, rfl⟩
    | scalar | union | enum | input =>
      simp [hnew, withType, Document.TypeBody.fields, pure, Except.pure, eq_comm]

theorem withType_catalogue {front : TypeSystemDocument} {definition : TypeDefinition}
    (hnew : definition.name ∉ front.typeNames) :
    (catalogue front []).withType definition = catalogue (front ++ [.type definition]) [] := by
  have htypes := types_concat front (show (TypeSystemDefinition.type definition).type? = some definition from rfl)
  have hdirectives : TypeSystemDocument.directives (front ++ [.type definition]) = front.directives := by
    unfold TypeSystemDocument.directives
    rw [List.filterMap_append]
    exact List.append_nil _
  have hinsert {α : Type} (read? : TypeDefinition → Option α) (value : α) :
      Table.insert definition.name value (tableOf read? front.types) =
        tableOf read? front.types ++ [(definition.name, value)] :=
    Table.insert_of_notMem (fun hmem => hnew (keys_tableOf.subset hmem)) value
  simp only [catalogue, TypeSystemDocument.typeNames, htypes, hdirectives, tableOf_concat, List.map_append]
  obtain ⟨description, name, directives, body⟩ := definition
  cases body <;>
    simp [withType, hinsert, scalarOf?, objectOf?, interfaceOf?, unionOf?, enumOf?, inputOf?]

theorem addDefinition_of_none (front : TypeSystemDocument) {item : TypeSystemDefinition} (hitem : item.type? = none) :
    (catalogue front []).addDefinition item = .ok (catalogue (front ++ [item]) []) := by
  simp only [catalogue, TypeSystemDocument.typeNames, types_concat_none front hitem]
  cases item with
  | type => cases hitem
  | directive | schema | extension =>
    simp [addDefinition, TypeSystemDocument.directives, TypeSystemDefinition.directive?]

theorem addDefinition_catalogue {front : TypeSystemDocument} (hfront : Definable front) (item : TypeSystemDefinition)
    (schema : Schema) :
    (catalogue front []).addDefinition item = .ok schema ↔
      Definable (front ++ [item]) ∧ schema = catalogue (front ++ [item]) [] := by
  cases hitem : item.type? with
  | none =>
    rw [addDefinition_of_none front hitem, Except.ok.injEq]
    constructor
    · rintro rfl
      exact ⟨definable_concat_none hfront hitem, rfl⟩
    · rintro ⟨-, rfl⟩
      rfl
  | some definition =>
    rw [definable_concat hfront hitem]
    cases item with
    | type other =>
      cases hitem
      change (catalogue front []).addType definition = .ok schema ↔ _
      rw [addType_eq_ok]
      constructor
      · rintro ⟨hfits, rfl⟩
        exact ⟨hfits, withType_catalogue hfits.1⟩
      · rintro ⟨hfits, rfl⟩
        exact ⟨hfits, (withType_catalogue hfits.1).symm⟩
    | _ => cases hitem

/-- The first pass gets through exactly if the definitions fit together, and leaves their tables. -/
theorem definitions_eq_ok_iff :
    document.foldlM addDefinition {} = .ok schema ↔ Definable document ∧ schema = catalogue document [] := by
  have hempty : Definable [] := ⟨List.nodup_nil, by simp [TypeSystemDocument.types]⟩
  exact foldlM_eq_ok_iff (fun front => catalogue front []) Definable hempty
    (fun _ _ hdefinable => hdefinable.initial)
    (fun _ item schema hfront => addDefinition_catalogue hfront item schema) document schema

/-- Extensions of objects that there are, whose fields name relations that there are. -/
def Extensible (document : TypeSystemDocument) (extensions : List ObjectExtension) : Prop :=
  ∀ extension ∈ extensions, document.Defines .object extension.name ∧
    ∀ field ∈ extension.fields, RelationKnown field

def ObjectType.extend (object : ObjectType) (extension : ObjectExtension) : ObjectType :=
  { object with
    interfaces := object.interfaces ++ extension.interfaces
    fields := Table.insertAll (fieldTable extension.fields) object.fields }

theorem objectOf?_concat {definition : TypeDefinition} (hobject : objectOf? extensions definition = some object)
    (extension : ObjectExtension) :
    objectOf? (extensions ++ [extension]) definition =
      some (if extension.name = definition.name then object.extend extension else object) := by
  obtain ⟨description, name, directives, body⟩ := definition
  cases body with
  | object interfaces fields =>
    cases hobject
    by_cases hname : extension.name = name
    · simp [objectOf?, ObjectType.extend, hname, List.filter_append, insertAll_fieldTable]
    · simp [objectOf?, hname, List.filter_append]
  | _ => cases hobject

/-- Extending an object in its place is reading it with one more extension. -/
theorem insert_extended (hnames : document.typeNames.Nodup)
    (hobject : (catalogue document extensions).object? extension.name = some object) :
    Table.insert extension.name (object.extend extension) (tableOf (objectOf? extensions) document.types) =
      tableOf (objectOf? (extensions ++ [extension])) document.types := by
  obtain ⟨definition, hmem, hname, hread⟩ := (lookup_tableOf hnames).1 hobject
  rw [← hname]
  apply insert_tableOf_of_mem hnames hmem (by rw [hread]; rfl)
  · rw [objectOf?_concat hread, if_pos hname.symm]
  · intro other _ hne
    cases hother : objectOf? extensions other with
    | some found => rw [objectOf?_concat hother, if_neg (hname ▸ hne.symm)]
    | none =>
      have hnone : ¬ (objectOf? (extensions ++ [extension]) other).isSome := by
        rw [objectOf?_isSome, ← @objectOf?_isSome extensions, hother]
        simp
      simpa using hnone

theorem addExtension_eq_ok {item : TypeSystemDefinition} (hitem : item.objectExtension? = some extension) :
    schema.addExtension item = .ok schema' ↔
      (∀ field ∈ extension.fields, RelationKnown field) ∧
        ∃ object, schema.object? extension.name = some object ∧
          schema' = { schema with
            objects := Table.insert extension.name (object.extend extension) schema.objects } := by
  unfold TypeSystemDefinition.objectExtension? at hitem
  split at hitem
  · rename_i description name directives interfaces fields
    cases hitem
    simp only [addExtension, except_bind_eq_ok, fieldsOf_eq_ok]
    cases hobject : schema.object? name with
    | none =>
      constructor
      · rintro ⟨_, -, hthrow⟩
        cases hthrow
      · rintro ⟨-, _, hfound, -⟩
        cases hfound
    | some object =>
      constructor
      · rintro ⟨_, ⟨hknown, rfl⟩, hschema⟩
        exact ⟨hknown, object, rfl, (Except.ok.inj hschema).symm⟩
      · rintro ⟨hknown, _, ⟨rfl⟩, rfl⟩
        exact ⟨_, ⟨hknown, rfl⟩, rfl⟩
  · cases hitem

theorem addExtension_of_none (schema : Schema) {item : TypeSystemDefinition} (hitem : item.objectExtension? = none) :
    schema.addExtension item = .ok schema := by
  unfold addExtension
  split
  · cases hitem
  · rfl

theorem addExtension_catalogue (hdefinable : Definable document) (front : TypeSystemDocument)
    (item : TypeSystemDefinition) (schema : Schema) (hfront : Extensible document front.objectExtensions) :
    (catalogue document front.objectExtensions).addExtension item = .ok schema ↔
      Extensible document (TypeSystemDocument.objectExtensions (front ++ [item])) ∧
        schema = catalogue document (TypeSystemDocument.objectExtensions (front ++ [item])) := by
  cases hitem : item.objectExtension? with
  | none =>
    rw [addExtension_of_none _ hitem, objectExtensions_concat_none front hitem, Except.ok.injEq]
    constructor
    · rintro rfl
      exact ⟨hfront, rfl⟩
    · rintro ⟨-, rfl⟩
      rfl
  | some extension =>
    have hextend {object : ObjectType}
        (hobject : (catalogue document front.objectExtensions).object? extension.name = some object) :
        { catalogue document front.objectExtensions with
          objects := Table.insert extension.name (object.extend extension)
            (catalogue document front.objectExtensions).objects } =
          catalogue document (front.objectExtensions ++ [extension]) := by
      simp only [catalogue, insert_extended hdefinable.names hobject]
    rw [addExtension_eq_ok hitem, objectExtensions_concat front hitem]
    constructor
    · rintro ⟨hknown, object, hobject, rfl⟩
      refine ⟨?_, hextend hobject⟩
      intro other hmem
      rcases List.mem_append.1 hmem with hmem | hmem
      · exact hfront other hmem
      · rw [List.mem_singleton.1 hmem]
        exact ⟨(holds_catalogue .object).1 (Option.isSome_of_eq_some hobject), hknown⟩
    · rintro ⟨hextensible, rfl⟩
      obtain ⟨hdefines, hknown⟩ := hextensible extension (by simp)
      obtain ⟨object, hobject⟩ := Option.isSome_iff_exists.1 ((holds_catalogue .object).2 hdefines)
      exact ⟨hknown, object, hobject, (hextend hobject).symm⟩

/-- The second pass gets through exactly if the extensions fit, and leaves the extended tables. -/
theorem extensions_eq_ok_iff (hdefinable : Definable document) :
    document.foldlM addExtension (catalogue document []) = .ok schema ↔
      Extensible document document.objectExtensions ∧ schema = catalogue document document.objectExtensions := by
  have hempty : Extensible document [] := by simp [Extensible]
  refine foldlM_eq_ok_iff (fun front => catalogue document (TypeSystemDocument.objectExtensions front))
    (fun front => Extensible document (TypeSystemDocument.objectExtensions front)) hempty ?_
    (addExtension_catalogue hdefinable) document schema
  intro front back hback extension hmem
  apply hback extension
  unfold TypeSystemDocument.objectExtensions
  rw [List.filterMap_append]
  exact List.mem_append_left _ hmem

end Schema

end RelationalGraphQL
