import RelationalGraphQL.Proofs.Schema.Subtyping
import RelationalGraphQL.Schema.Introspection

/-!
# Types that introspection mentions

An answer about a schema goes from thing to thing: from the schema to its types and directives, from a type to its
fields, from a field to its arguments, and from any of them to a type by its name. What one step can reach is said once
(`Covers.step`); so whatever an answer shows, at any depth and for any selection, refers to types that the schema refers
to (`Covers.shows`). Building a schema checks these references, except those of the arguments of directives: an answer
mentions a type that is not there exactly if a directive has an argument of one (`mentioned_types_known_iff`).
-/

namespace RelationalGraphQL

/-- A value stands in another, as a whole or somewhere inside. -/
inductive Json.Holds (part : Json) : Json → Prop where
  | self : Holds part part
  | item {items : List Json} {item : Json} (hitem : item ∈ items) (hholds : Holds part item) : Holds part (.arr items)
  | entry {entries : List (String × Json)} {key : String} {value : Json} (hentry : (key, value) ∈ entries)
      (hholds : Holds part value) : Holds part (.obj entries)

theorem Table.mem_insert_of_ne {α : Type} {key : String} {table : List (String × α)} {entry : String × α}
    (hmem : entry ∈ table) (hne : entry.1 ≠ key) (value : α) : entry ∈ Table.insert key value table := by
  induction table with
  | nil => cases hmem
  | cons first rest ih =>
    rw [Table.insert]
    split
    · rename_i hkey
      rcases List.mem_cons.1 hmem with rfl | hmem
      · exact absurd hkey hne
      · exact List.mem_cons_of_mem _ hmem
    · rcases List.mem_cons.1 hmem with rfl | hmem
      · exact List.mem_cons_self
      · exact List.mem_cons_of_mem _ (ih hmem)

namespace Schema

open Document (DirectiveDefinition TypeSystemDocument)

/-! ### What an answer shows -/

/-- The things that a field of a described thing holds. -/
def MetaValue.nodes : MetaValue → List MetaNode
  | .leaf _ => []
  | .one node => node.toList
  | .many nodes => nodes

/-- What stands for a thing in an answer; null where nothing of it is selected. -/
def description (schema : Schema) (node : MetaNode) (selections : Option SelectionSet) : Json :=
  selections.elim .null (describe schema node)

/-- What stands for a field's value in an answer. -/
def valueDescription (schema : Schema) (selections : Option SelectionSet) : MetaValue → Json
  | .leaf value => value
  | .one node => node.elim .null fun node => schema.description node selections
  | .many nodes => .arr (nodes.map fun node => schema.description node selections)

theorem describeField_eq (schema : Schema) (node : MetaNode) (field : SelectedField) :
    describeField schema node field =
      schema.valueDescription field.selections (schema.metaField node field.name field.arguments) := by
  obtain ⟨name, aliasName, arguments, directives, condition, position, selections⟩ := field
  unfold describeField
  dsimp only
  cases schema.metaField node name arguments with
  | leaf value => rfl
  | one held => cases held <;> cases selections <;> rfl
  | many nodes => cases selections <;> rfl

theorem describeFields_eq_map (schema : Schema) (node : MetaNode) (fields : List SelectedField) :
    describeFields schema node fields =
      fields.map fun field => (field.responseKey, describeField schema node field) := by
  induction fields with
  | nil => rfl
  | cons field fields ih => rw [describeFields, ih, List.map_cons]

/-- What the description of a thing shows, each thing with what is selected of it: the thing itself, and what is shown
of the things that its selected fields hold. The type's name is written last, so a field under its key is not shown. -/
inductive Shows (schema : Schema) : MetaNode → Option SelectionSet → MetaNode → Option SelectionSet → Prop where
  | self (node : MetaNode) (selections : Option SelectionSet) : Shows schema node selections node selections
  | field {parent child node : MetaNode} {set : SelectionSet} {field : SelectedField} {selections : Option SelectionSet}
      (hfield : field ∈ set.fields) (hkept : set.typename → field.responseKey ≠ "__typename")
      (hchild : child ∈ (schema.metaField parent field.name field.arguments).nodes)
      (hshows : Shows schema child field.selections node selections) : Shows schema parent (some set) node selections

section

variable {schema : Schema} {parent child node : MetaNode}

theorem holds_valueDescription {part : Json} {value : MetaValue} {selections : Option SelectionSet}
    (hchild : child ∈ value.nodes) (hholds : Json.Holds part (schema.description child selections)) :
    Json.Holds part (schema.valueDescription selections value) := by
  cases value with
  | leaf value => cases hchild
  | one held =>
    obtain rfl : held = some child := Option.mem_toList.1 hchild
    exact hholds
  | many nodes => exact .item (List.mem_map_of_mem hchild) hholds

theorem Shows.holds {selections inner : Option SelectionSet} (hshows : schema.Shows parent selections node inner) :
    Json.Holds (schema.description node inner) (schema.description parent selections) := by
  induction hshows with
  | self node selections => exact .self
  | @field parent child node set field inner hfield hkept hchild _ ih =>
    have hentry : (field.responseKey, describeField schema parent field) ∈ describeFields schema parent set.fields := by
      rw [describeFields_eq_map]
      exact List.mem_map_of_mem hfield
    have hheld : Json.Holds (schema.description node inner) (describeField schema parent field) := by
      rw [describeField_eq]
      exact holds_valueDescription hchild ih
    obtain ⟨fields, typename⟩ := set
    change Json.Holds _ (describe schema parent ⟨fields, typename⟩)
    rw [describe]
    split
    · rename_i htypename
      exact .entry (Table.mem_insert_of_ne hentry (hkept htypename) _) hheld
    · exact .entry hentry hheld

end

/-! ### What a thing refers to -/

/-- The types that a thing refers to by name. -/
def MetaNode.references : MetaNode → List String
  | .schema | .enumValue _ => []
  | .type written => [written.namedType]
  | .field declared => declared.type.namedType :: declared.arguments.map fun argument => argument.type.namedType
  | .inputValue declared => [declared.type.namedType]
  | .directive declared => declared.arguments.map fun argument => argument.type.namedType

/-- The types that a thing refers to are of a certain sort. -/
def MetaNode.Refers (sort : String → Prop) (node : MetaNode) : Prop := ∀ name ∈ node.references, sort name

def MetaValue.Refers (sort : String → Prop) (value : MetaValue) : Prop := ∀ node ∈ value.nodes, node.Refers sort

/-- All types that the parts of a schema refer to are of a certain sort. -/
structure Covers (schema : Schema) (sort : String → Prop) : Prop where
  roots : ∀ name, schema.queryType = some name ∨ schema.mutationType = some name ∨ schema.subscriptionType = some name →
    sort name
  listed : ∀ name ∈ schema.typeNames, sort name
  fields : ∀ typeName fields, schema.fields? typeName = some fields → ∀ entry ∈ fields,
    (MetaNode.field entry.2).Refers sort
  interfaces : ∀ typeName object, schema.object? typeName = some object → ∀ name ∈ object.interfaces, sort name
  possible : ∀ typeName, ∀ name ∈ schema.possibleTypes typeName, sort name
  inputs : ∀ typeName input, schema.input? typeName = some input → ∀ entry ∈ input.fields,
    sort entry.2.type.namedType
  directives : ∀ directive ∈ schema.directives, (MetaNode.directive directive).Refers sort

section

variable {schema : Schema} {sort : String → Prop}

theorem refers_leaf (value : Json) : (MetaValue.leaf value).Refers sort := by
  intro node hnode
  cases hnode

theorem refers_type {type : TypeRef} (hsort : sort type.namedType) : (MetaNode.type type).Refers sort :=
  List.forall_mem_singleton.2 hsort

theorem refers_one {node : MetaNode} (hnode : node.Refers sort) : (MetaValue.one (some node)).Refers sort :=
  List.forall_mem_singleton.2 hnode

theorem refers_typeNames {names : List String} (hnames : ∀ name ∈ names, sort name) :
    (MetaValue.many (names.map .ofTypeName)).Refers sort :=
  List.forall_mem_map.2 fun name hname => refers_type (hnames name hname)

theorem refers_inputValues {values : List InputValue} (hvalues : ∀ value ∈ values, sort value.type.namedType) :
    (MetaValue.many (values.map .inputValue)).Refers sort :=
  List.forall_mem_map.2 fun value hvalue => List.forall_mem_singleton.2 (hvalues value hvalue)

theorem refers_root {root : Option String} (hroot : ∀ name, root = some name → sort name) :
    (MetaValue.one (root.map .ofTypeName)).Refers sort := by
  cases root with
  | none => exact refers_leaf .null
  | some name => exact refers_one (refers_type (hroot name rfl))

theorem refers_wrapperField (kind : String) {inner : TypeRef} (hsort : sort inner.namedType) (fieldName : String) :
    (wrapperField kind inner fieldName).Refers sort := by
  unfold wrapperField
  split
  · exact refers_leaf _
  · exact refers_one (refers_type hsort)
  · exact refers_leaf _

end

namespace Covers

variable {schema : Schema} {sort : String → Prop}

theorem schemaField (hcovers : schema.Covers sort) (fieldName : String) : (schema.schemaField fieldName).Refers sort := by
  unfold Schema.schemaField
  split
  · exact refers_typeNames fun name hname => hcovers.listed name (List.mem_of_mem_filter hname)
  · exact refers_root fun name hname => hcovers.roots name (.inl hname)
  · exact refers_root fun name hname => hcovers.roots name (.inr (.inl hname))
  · exact refers_root fun name hname => hcovers.roots name (.inr (.inr hname))
  · exact List.forall_mem_map.2 hcovers.directives
  · exact refers_leaf _

theorem namedTypeField (hcovers : schema.Covers sort) (type : String) (deprecated : Bool) (fieldName : String) :
    (schema.namedTypeField type deprecated fieldName).Refers sort := by
  unfold Schema.namedTypeField
  split
  · exact refers_leaf _
  · exact refers_leaf _
  · exact refers_leaf _
  · split
    · rename_i fields hfields
      refine List.forall_mem_map.2 fun field hfield => ?_
      obtain ⟨entry, hentry, rfl⟩ := List.mem_map.1 (List.mem_of_mem_filter hfield)
      exact hcovers.fields type fields hfields entry hentry
    · exact refers_leaf _
  · split
    · rename_i object hobject
      exact refers_typeNames (hcovers.interfaces type object hobject)
    · split
      · exact refers_leaf .null
      · exact refers_leaf _
  · split
    · exact refers_typeNames (hcovers.possible type)
    · exact refers_leaf _
  · split
    · refine List.forall_mem_map.2 fun value _ name hname => ?_
      cases hname
    · exact refers_leaf _
  · split
    · rename_i input hinput
      refine refers_inputValues fun value hvalue => ?_
      obtain ⟨entry, hentry, rfl⟩ := List.mem_map.1 hvalue
      exact hcovers.inputs type input hinput entry hentry
    · exact refers_leaf _
  · exact refers_leaf _

/-- What a field of a described thing holds refers to types that the thing or the schema refers to. -/
theorem step (hcovers : schema.Covers sort) {node : MetaNode} (hnode : node.Refers sort) (fieldName : String)
    (arguments : List (String × Json)) : (schema.metaField node fieldName arguments).Refers sort := by
  unfold metaField
  cases node with
  | schema => exact hcovers.schemaField fieldName
  | type type =>
    have hsort : sort type.namedType := hnode _ List.mem_cons_self
    cases type with
    | named type => exact hcovers.namedTypeField type _ fieldName
    | list inner => exact refers_wrapperField _ (show sort inner.namedType from hsort) fieldName
    | nonNull inner => exact refers_wrapperField _ (show sort inner.namedType from hsort) fieldName
  | field field =>
    obtain ⟨hsort, harguments⟩ := List.forall_mem_cons.1 hnode
    dsimp only
    split
    · exact refers_leaf _
    · exact refers_leaf _
    · exact refers_inputValues (List.forall_mem_map.1 harguments)
    · exact refers_one (refers_type hsort)
    · exact refers_leaf _
    · exact refers_leaf _
    · exact refers_leaf _
  | inputValue value =>
    dsimp only
    split
    · exact refers_leaf _
    · exact refers_leaf _
    · exact refers_one (refers_type (hnode _ List.mem_cons_self))
    · exact refers_leaf _
    · exact refers_leaf _
  | enumValue value =>
    dsimp only
    split <;> exact refers_leaf _
  | directive directive =>
    dsimp only
    split
    · exact refers_leaf _
    · exact refers_leaf _
    · exact refers_leaf _
    · exact refers_inputValues (List.forall_mem_map.1 hnode)
    · exact refers_leaf _
    · exact refers_leaf _

/-- All that an answer shows refers to types that its subject or the schema refers to. -/
theorem shows (hcovers : schema.Covers sort) {parent node : MetaNode} {selections inner : Option SelectionSet}
    (hshows : schema.Shows parent selections node inner) (hparent : parent.Refers sort) : node.Refers sort := by
  induction hshows with
  | self node selections => exact hparent
  | field hfield _ hchild _ ih => exact ih (hcovers.step hparent _ _ _ hchild)

theorem references_of_fieldReferences {typeName : String} {fields : List (String × Field)}
    (hfields : ∀ reference ∈ fieldReferences typeName fields, sort reference.1) :
    ∀ entry ∈ fields, (MetaNode.field entry.2).Refers sort := by
  simp only [fieldReferences, List.forall_mem_flatMap, List.forall_mem_cons, List.forall_mem_map] at hfields
  intro entry hentry
  obtain ⟨htype, harguments⟩ := hfields entry hentry
  exact List.forall_mem_cons.2 ⟨htype, List.forall_mem_map.2 harguments⟩

/-- The check of a schema covers all its references but those of directives, which it does not look at. -/
theorem of_checked (hschema : schema.WellFormed) (hchecked : schema.checkReferences = .ok ())
    (hlisted : ∀ name ∈ schema.typeNames, (schema.typeKind? name).isSome)
    (hroots : ∀ name, schema.queryType = some name ∨ schema.mutationType = some name ∨
      schema.subscriptionType = some name → (schema.object? name).isSome)
    (hknown : ∀ name, (schema.typeKind? name).isSome → sort name)
    (hdirectives : ∀ directive ∈ schema.directives, (MetaNode.directive directive).Refers sort) :
    schema.Covers sort := by
  obtain ⟨hobjects, hinterfaces, -, -, hinputs⟩ := checkReferences_eq_ok.1 hchecked
  have hdeclared (name : String) (hname : name ∈ schema.declared) : sort name :=
    hknown name (hlisted name (List.mem_append_left _ hname))
  have hobject (name : String) (hname : (schema.object? name).isSome) : sort name :=
    hknown name (typeKind?_isSome.2 ⟨.object, hname⟩)
  refine ⟨fun name hname => hobject name (hroots name hname), fun name hname => hknown name (hlisted name hname),
    ?_, ?_, ?_, ?_, hdirectives⟩
  · intro typeName fields hfields
    unfold fields? at hfields
    cases hfound : schema.object? typeName with
    | some object =>
      rw [hfound] at hfields
      cases hfields
      have hreferences := hobjects _ (Table.mem_of_lookup hfound)
      exact references_of_fieldReferences fun reference href => hdeclared _ (hreferences reference href)
    | none =>
      rw [hfound] at hfields
      obtain ⟨interface, hfound, rfl⟩ := Option.map_eq_some_iff.1 hfields
      have hreferences := hinterfaces _ (Table.mem_of_lookup hfound)
      exact references_of_fieldReferences fun reference href => hdeclared _ (hreferences reference href)
  · intro typeName object hfound name hname
    exact hknown name (typeKind?_isSome.2 ⟨.interface, hschema.implements typeName object hfound name hname⟩)
  · intro typeName name hname
    exact hobject name (hschema.object_of_mem_possibleTypes hname)
  · intro typeName input hinput entry hentry
    exact hdeclared _ (hinputs _ (Table.mem_of_lookup hinput) entry hentry)

end Covers

/-! ### What a document refers to -/

/-- The types of the arguments of directives. -/
def directiveReferences (document : TypeSystemDocument) : List String :=
  document.directives.flatMap fun definition => definition.arguments.map fun argument => argument.type.namedType

theorem foldl_addBuiltinDirective_directives (builtins : List Directive) (schema : Schema) :
    ∃ added ⊆ builtins, (builtins.foldl addBuiltinDirective schema).directives = schema.directives ++ added := by
  induction builtins generalizing schema with
  | nil => exact ⟨[], List.Subset.refl _, (List.append_nil _).symm⟩
  | cons builtin builtins ih =>
    rw [List.foldl_cons]
    obtain ⟨added, hadded, hdirectives⟩ := ih (schema.addBuiltinDirective builtin)
    rw [hdirectives, addBuiltinDirective]
    split
    · exact ⟨added, List.subset_cons_of_subset _ hadded, rfl⟩
    · exact ⟨builtin :: added, List.cons_subset_cons _ hadded, by simp⟩

theorem directives_assembled (document : TypeSystemDocument) :
    ∃ added ⊆ builtinDirectives, (assembled document).directives = document.directives.map directiveOf ++ added := by
  rw [assembled, addBuiltins, foldl_addBuiltinScalar builtinScalars_nodup]
  exact foldl_addBuiltinDirective_directives builtinDirectives _

section

variable {document : TypeSystemDocument} {schema : Schema} {name : String}

theorem typeKind?_assembled_isSome : ((assembled document).typeKind? name).isSome ↔ document.Offers .type name := by
  rw [typeKind?_isSome]
  constructor
  · rintro ⟨kind, hkind⟩
    rcases (holds_assembled kind).1 hkind with ⟨definition, hdefinition, hname, -⟩ | ⟨-, hbuiltin⟩
    · exact .inl (List.mem_map.2 ⟨definition, hdefinition, hname⟩)
    · exact .inr hbuiltin
  · exact holds_of_offers

theorem typeKind?_withRoots (schema : Schema) (query mutation subscription : Option String) (name : String) :
    { schema with queryType := query, mutationType := mutation, subscriptionType := subscription }.typeKind? name =
      schema.typeKind? name := rfl

theorem checkReferences_withRoots (schema : Schema) (query mutation subscription : Option String) :
    { schema with
      queryType := query, mutationType := mutation, subscriptionType := subscription }.checkReferences =
      schema.checkReferences := rfl

theorem typeKind?_isSome_of_build (hbuild : build document = .ok schema) :
    (schema.typeKind? name).isSome ↔ document.Offers .type name := by
  obtain ⟨-, rfl⟩ := build_eq_ok.1 hbuild
  rw [typeKind?_withRoots]
  exact typeKind?_assembled_isSome

theorem directives_of_build (hbuild : build document = .ok schema) :
    ∃ added ⊆ builtinDirectives, schema.directives = document.directives.map directiveOf ++ added := by
  obtain ⟨-, rfl⟩ := build_eq_ok.1 hbuild
  dsimp only
  exact directives_assembled document

theorem builtinDirectives_references :
    ∀ directive ∈ builtinDirectives, ∀ name ∈ (MetaNode.directive directive).references,
      name ∈ builtinScalars.map Prod.fst := by decide

/-- The references of a directive are those of the document, or to a built-in scalar. -/
theorem references_of_directive (hbuild : build document = .ok schema) {directive : Directive}
    (hdirective : directive ∈ schema.directives) (hname : name ∈ (MetaNode.directive directive).references) :
    name ∈ directiveReferences document ∨ name ∈ builtinScalars.map Prod.fst := by
  obtain ⟨added, hadded, hdirectives⟩ := directives_of_build hbuild
  rw [hdirectives] at hdirective
  rcases List.mem_append.1 hdirective with hdirective | hdirective
  · obtain ⟨definition, hdefinition, rfl⟩ := List.mem_map.1 hdirective
    obtain ⟨argument, hargument, rfl⟩ := List.mem_map.1 hname
    obtain ⟨source, hsource, rfl⟩ := List.mem_map.1 hargument
    exact .inl (List.mem_flatMap.2 ⟨definition, hdefinition, List.mem_map_of_mem hsource⟩)
  · exact .inr (builtinDirectives_references directive (hadded hdirective) name hname)

theorem typeNames_known (hbuild : build document = .ok schema) (hname : name ∈ schema.typeNames) :
    (schema.typeKind? name).isSome := by
  obtain ⟨hclosed, rfl⟩ := build_eq_ok.1 hbuild
  rw [typeNames_withRoots] at hname
  rw [typeKind?_withRoots, typeKind?_eq_head?, List.isSome_head?, ← List.length_pos_iff,
    ← count_typeNames_assembled hclosed.names]
  exact List.count_pos_iff.2 hname

theorem roots_of_build (hbuild : build document = .ok schema)
    (hroot : schema.queryType = some name ∨ schema.mutationType = some name ∨ schema.subscriptionType = some name) :
    (schema.object? name).isSome := by
  obtain ⟨hclosed, rfl⟩ := build_eq_ok.1 hbuild
  obtain ⟨-, hroots⟩ := references_iff.2 hclosed.references
  rw [object?_withRoots]
  apply rootsOf_isObject.2 hroots
  simp only [Document.RootTypes.names, List.mem_append, Option.mem_toList, or_assoc]
  exact hroot

/-- A schema that was built refers to types that are there, and by arguments of directives to others. -/
theorem covers_of_build (hbuild : build document = .ok schema) :
    schema.Covers fun name => (schema.typeKind? name).isSome ∨ name ∈ directiveReferences document := by
  have hchecked : schema.checkReferences = .ok () := by
    obtain ⟨hclosed, rfl⟩ := build_eq_ok.1 hbuild
    rw [checkReferences_withRoots]
    exact (references_iff.2 hclosed.references).1
  refine .of_checked (build_wellFormed hbuild) hchecked (fun _ => typeNames_known hbuild) (fun _ => roots_of_build hbuild)
    (fun _ => .inl) ?_
  intro directive hdirective name hname
  rcases references_of_directive hbuild hdirective hname with hreference | hbuiltin
  · exact .inr hreference
  · exact .inl ((typeKind?_isSome_of_build hbuild).2 (.inr hbuiltin))

end

/-! ### Questions -/

/-- A question about a schema: about the whole of it, or about the type with a name. -/
inductive Question where
  | schema
  | type (name : String)

namespace Question

variable {schema : Schema} {question : Question} {subject : MetaNode}

def answer (schema : Schema) (selections : Option SelectionSet) : Question → Json
  | .schema => schema.describeSchema selections
  | .type name => schema.describeType name selections

/-- What a question is about, if there is such a thing. -/
def subject? (schema : Schema) : Question → Option MetaNode
  | .schema => some .schema
  | .type name => if (schema.typeKind? name).isSome then some (.ofTypeName name) else none

theorem answer_of_subject (hsubject : question.subject? schema = some subject) (selections : Option SelectionSet) :
    question.answer schema selections = schema.description subject selections := by
  cases question with
  | schema =>
    cases hsubject
    rfl
  | type name =>
    obtain ⟨hkind, hname⟩ := Option.ite_none_right_eq_some.1 hsubject
    cases hname
    rw [answer, describeType, if_neg (by simpa [Option.isSome_iff_ne_none] using hkind)]
    rfl

theorem known_subject (hsubject : question.subject? schema = some subject) :
    subject.Refers fun name => (schema.typeKind? name).isSome := by
  cases question with
  | schema =>
    cases hsubject
    intro name hname
    cases hname
  | type name =>
    obtain ⟨hkind, hname⟩ := Option.ite_none_right_eq_some.1 hsubject
    cases hname
    exact refers_type hkind

end Question

/-- A named type that the answer to a question mentions, as it is or inside wrappings. -/
def Mentions (schema : Schema) (question : Question) (selections : Option SelectionSet) (name : String) : Prop :=
  ∃ subject type inner, question.subject? schema = some subject ∧
    schema.Shows subject selections (.type type) inner ∧ type.namedType = name

/-- A type with a name is there for those who ask: its kind is told, and a question about it is answered. -/
structure Knows (schema : Schema) (name : String) : Prop where
  kind : ∃ kind : TypeKind, ∀ field : SelectedField, field.name = "kind" →
    describeField schema (.ofTypeName name) field = .str kind.text
  answered : ∀ set, ∃ entries, (Question.type name).answer schema (some set) = .obj entries

theorem describeField_kind (schema : Schema) (name : String) {field : SelectedField} (hfield : field.name = "kind") :
    describeField schema (.ofTypeName name) field = Json.ofStr? ((schema.typeKind? name).map TypeKind.text) := by
  rw [describeField_eq, hfield]
  rfl

theorem knows_iff {schema : Schema} {name : String} : schema.Knows name ↔ (schema.typeKind? name).isSome := by
  constructor
  · rintro ⟨-, hanswered⟩
    obtain ⟨entries, hentries⟩ := hanswered .empty
    by_contra hnone
    rw [Question.answer, describeType, if_pos (by simpa using hnone)] at hentries
    cases hentries
  · intro hsome
    obtain ⟨kind, hkind⟩ := Option.isSome_iff_exists.1 hsome
    refine ⟨⟨kind, ?_⟩, ?_⟩
    · intro field hfield
      rw [describeField_kind schema name hfield, hkind]
      rfl
    · rintro ⟨fields, typename⟩
      rw [Question.answer, describeType, if_neg (by simp [hkind]), Option.elim_some, describe]
      exact ⟨_, rfl⟩

/-- A field without arguments. -/
def selected (name : String) (selections : Option SelectionSet) : SelectedField :=
  ⟨name, none, [], [], none, {}, selections⟩

/-- The directives with the types of their arguments. -/
def argumentTypes (inner : SelectionSet) : SelectionSet :=
  ⟨[selected "directives" (some ⟨[selected "args" (some ⟨[selected "type" (some inner)], false⟩)], false⟩)], false⟩

theorem shows_argumentType {document : TypeSystemDocument} {schema : Schema} (hbuild : build document = .ok schema)
    {definition : DirectiveDefinition} (hdefinition : definition ∈ document.directives)
    {argument : Document.InputValue} (hargument : argument ∈ definition.arguments) (inner : SelectionSet) :
    schema.Shows .schema (some (argumentTypes inner)) (.type argument.type) (some inner) := by
  obtain ⟨added, -, hdirectives⟩ := directives_of_build hbuild
  have hdirective : directiveOf definition ∈ schema.directives := by
    rw [hdirectives]
    exact List.mem_append_left _ (List.mem_map_of_mem hdefinition)
  have hvalue : inputValueOf argument ∈ (directiveOf definition).arguments := List.mem_map_of_mem hargument
  refine .field List.mem_cons_self (fun htypename => by cases htypename) (List.mem_map_of_mem hdirective) ?_
  refine .field List.mem_cons_self (fun htypename => by cases htypename) (List.mem_map_of_mem hvalue) ?_
  exact .field List.mem_cons_self (fun htypename => by cases htypename) List.mem_cons_self (.self _ _)

/-- Every type that an answer about a schema mentions is known, but for the types of arguments of directives. So all
are, whatever is asked, exactly if the arguments of directives have types that the document defines or that are built
in. -/
theorem mentioned_types_known_iff {text : String} {schema : Schema} (hparse : Schema.parse text = .ok schema) :
    ∃ document, TypeSystemDocument.parse? text = some document ∧
      (∀ (question : Question) selections subject type inner, question.subject? schema = some subject →
        schema.Shows subject selections (.type type) inner →
          Json.Holds (schema.description (.type type) inner) (question.answer schema selections) ∧
          (schema.Knows type.namedType ∨ type.namedType ∈ directiveReferences document)) ∧
      ((∀ question selections name, schema.Mentions question selections name → schema.Knows name) ↔
        ∀ name ∈ directiveReferences document, document.Offers .type name) := by
  obtain ⟨document, hdocument, hbuild⟩ := parse_eq_ok.1 hparse
  have hmentioned {question : Question} {selections inner : Option SelectionSet} {subject : MetaNode} {type : TypeRef}
      (hsubject : question.subject? schema = some subject)
      (hshows : schema.Shows subject selections (.type type) inner) :
      schema.Knows type.namedType ∨ type.namedType ∈ directiveReferences document := by
    rw [knows_iff]
    exact (covers_of_build hbuild).shows hshows (fun name hname => .inl (Question.known_subject hsubject name hname)) _
      List.mem_cons_self
  refine ⟨document, hdocument, ?_, ?_, ?_⟩
  · intro question selections subject type inner hsubject hshows
    refine ⟨?_, hmentioned hsubject hshows⟩
    rw [Question.answer_of_subject hsubject]
    exact hshows.holds
  · intro hknows name hname
    obtain ⟨definition, hdefinition, hname⟩ := List.mem_flatMap.1 hname
    obtain ⟨argument, hargument, rfl⟩ := List.mem_map.1 hname
    have hshows := shows_argumentType hbuild hdefinition hargument .empty
    have hknown := hknows .schema (some (argumentTypes .empty)) argument.type.namedType ⟨_, _, _, rfl, hshows, rfl⟩
    exact (typeKind?_isSome_of_build hbuild).1 (knows_iff.1 hknown)
  · rintro hoffers question selections _ ⟨subject, type, inner, hsubject, hshows, rfl⟩
    rcases hmentioned hsubject hshows with hknows | hreference
    · exact hknows
    · exact knows_iff.2 ((typeKind?_isSome_of_build hbuild).2 (hoffers _ hreference))

/-- An argument of a directive is of a type that the document defines behind it. -/
theorem mentioned_types_known_enum :
    ∃ schema, Schema.parse "directive @tag(level: [Level!]) on FIELD enum Level { LOW } type Query { a: String }" =
        .ok schema ∧
      ∀ question selections name, schema.Mentions question selections name → schema.Knows name := by
  let text := "directive @tag(level: [Level!]) on FIELD enum Level { LOW } type Query { a: String }"
  have hok : (Schema.parse text).isOk := by decide +kernel
  cases hparse : Schema.parse text with
  | error error => rw [hparse] at hok; cases hok
  | ok schema =>
    obtain ⟨document, hdocument, -, hiff⟩ := mentioned_types_known_iff hparse
    have hreferences : (TypeSystemDocument.parse? text).map directiveReferences = some ["Level"] := by decide +kernel
    have hnames : (TypeSystemDocument.parse? text).map TypeSystemDocument.typeNames = some ["Level", "Query"] := by
      decide +kernel
    rw [hdocument] at hreferences hnames
    refine ⟨schema, rfl, hiff.2 ?_⟩
    rw [Option.some.inj hreferences]
    refine List.forall_mem_singleton.2 (.inl ?_)
    rw [Option.some.inj hnames]
    exact List.mem_cons_self

/-- An argument of a directive may be of a type that is not there. The answer names it and tells no kind, and a question
about it is answered by null. -/
theorem mentioned_argument_type_unknown :
    ∃ schema, Schema.parse "directive @tag(level: Missing) on FIELD type Query { a: String }" = .ok schema ∧
      Json.Holds (.obj [("kind", .null), ("name", .str "Missing")])
        (Question.schema.answer schema (some (argumentTypes ⟨[selected "kind" none, selected "name" none], false⟩))) ∧
      (∀ selections, (Question.type "Missing").answer schema selections = .null) ∧
      ¬ ∀ question selections name, schema.Mentions question selections name → schema.Knows name := by
  let text := "directive @tag(level: Missing) on FIELD type Query { a: String }"
  have hunknown : (Schema.parse text).toOption.map (·.typeKind? "Missing") = some none := by decide +kernel
  have htypes : (TypeSystemDocument.parse? text).map (fun document =>
      document.directives.flatMap fun definition => definition.arguments.map Document.InputValue.type) =
    some [.named "Missing"] := by decide +kernel
  cases hparse : Schema.parse text with
  | error error => rw [hparse] at hunknown; cases hunknown
  | ok schema =>
    rw [hparse] at hunknown
    have hkind : schema.typeKind? "Missing" = none := Option.some.inj hunknown
    obtain ⟨document, hdocument, hbuild⟩ := parse_eq_ok.1 hparse
    rw [hdocument, Option.map_some, Option.some.injEq] at htypes
    have hmissing : TypeRef.named "Missing" ∈ document.directives.flatMap fun definition =>
        definition.arguments.map Document.InputValue.type := htypes ▸ List.mem_cons_self
    obtain ⟨definition, hdefinition, htype⟩ := List.mem_flatMap.1 hmissing
    obtain ⟨argument, hargument, htype⟩ := List.mem_map.1 htype
    have hshows (inner : SelectionSet) :
        schema.Shows .schema (some (argumentTypes inner)) (.type (.named "Missing")) (some inner) :=
      htype ▸ shows_argumentType hbuild hdefinition hargument inner
    refine ⟨schema, rfl, ?_, ?_, ?_⟩
    · have hdescription : schema.description (.ofTypeName "Missing")
          (some ⟨[selected "kind" none, selected "name" none], false⟩) =
            .obj [("kind", .null), ("name", .str "Missing")] := by
        rw [description, Option.elim_some, describe, describeFields_eq_map, List.map_cons,
          describeField_kind schema "Missing" rfl, hkind]
        rfl
      rw [← hdescription]
      exact (hshows _).holds
    · intro selections
      rw [Question.answer, describeType, if_pos (by rw [hkind]; rfl)]
    · intro hknows
      have hknown := hknows .schema _ "Missing" ⟨_, _, _, rfl, hshows .empty, rfl⟩
      rw [knows_iff, hkind] at hknown
      cases hknown

end Schema

end RelationalGraphQL
