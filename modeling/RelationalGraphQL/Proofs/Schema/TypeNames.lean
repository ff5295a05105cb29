import RelationalGraphQL.Proofs.Schema.Closure

/-!
# Names and tables

The names of a schema's types are listed once for every table that has them (`typeNames_count_kinds`). Two definitions
of one name are refused, so the only way for a name to stand in two tables is to define a type that is no scalar under
the name of a built-in scalar: the built-in one is added beside it.
-/

namespace RelationalGraphQL.Schema

open Document (TypeDefinition TypeSystemDocument)

variable {document : TypeSystemDocument}

def definedKind? (document : TypeSystemDocument) (name : String) : Option TypeKind :=
  (document.types.find? (·.name = name)).map (·.body.kind)

theorem defines_iff (hnames : document.typeNames.Nodup) {kind : TypeKind} {name : String} :
    document.Defines kind name ↔ definedKind? document name = some kind := by
  unfold definedKind?
  rw [Option.map_eq_some_iff]
  constructor
  · rintro ⟨definition, hmem, hname, hkind⟩
    refine ⟨definition, ?_, hkind⟩
    cases hfound : document.types.find? (·.name = name) with
    | none =>
      have habsent := List.find?_eq_none.1 hfound definition hmem
      simp [hname] at habsent
    | some found =>
      have hsame : found.name = name := by simpa using List.find?_some hfound
      have heq := List.inj_on_of_nodup_map hnames (List.mem_of_find?_eq_some hfound) hmem (hsame.trans hname.symm)
      rw [heq]
  · rintro ⟨definition, hfound, hkind⟩
    exact ⟨definition, List.mem_of_find?_eq_some hfound, by simpa using List.find?_some hfound, hkind⟩

theorem count_typeNames (hnames : document.typeNames.Nodup) (name : String) :
    document.typeNames.count name = (definedKind? document name).isSome.toNat := by
  rw [hnames.count]
  have hmem : name ∈ document.typeNames ↔ (definedKind? document name).isSome := by
    simp [definedKind?, TypeSystemDocument.typeNames]
  by_cases hname : name ∈ document.typeNames
  · rw [if_pos hname, hmem.1 hname]
    rfl
  · rw [if_neg hname, Bool.eq_false_iff.2 (mt hmem.2 hname)]
    rfl

def isBuiltin (name : String) : Bool := (builtinScalars.map Prod.fst).contains name

theorem count_missingScalars (hnames : document.typeNames.Nodup) (name : String) :
    ((missingScalars (catalogue document document.objectExtensions) builtinScalars).map Prod.fst).count name =
      (isBuiltin name && !(definedKind? document name == some .scalar)).toNat := by
  have hscalar (name : String) :
      ((catalogue document document.objectExtensions).scalar? name).isSome =
        (definedKind? document name == some .scalar) := by
    rw [Bool.eq_iff_iff, beq_iff_eq, ← defines_iff hnames]
    exact holds_catalogue .scalar
  have hnodup : ((missingScalars (catalogue document document.objectExtensions) builtinScalars).map Prod.fst).Nodup :=
    (List.filter_sublist.map Prod.fst).nodup builtinScalars_nodup
  have hmem : name ∈ (missingScalars (catalogue document document.objectExtensions) builtinScalars).map Prod.fst ↔
      (isBuiltin name && !(definedKind? document name == some .scalar)) := by
    rw [Bool.and_eq_true, isBuiltin, List.contains_iff_mem, List.mem_map, List.mem_map]
    constructor
    · rintro ⟨builtin, hbuiltin, rfl⟩
      obtain ⟨hbuiltin, hmissing⟩ := List.mem_filter.1 hbuiltin
      exact ⟨⟨builtin, hbuiltin, rfl⟩, hscalar builtin.1 ▸ hmissing⟩
    · rintro ⟨⟨builtin, hbuiltin, rfl⟩, hmissing⟩
      exact ⟨builtin, List.mem_filter.2 ⟨hbuiltin, hscalar builtin.1 ▸ hmissing⟩, rfl⟩
  rw [hnodup.count]
  split
  · rename_i hname
    rw [hmem.1 hname]
    rfl
  · rename_i hname
    rw [Bool.eq_false_iff.2 (mt hmem.2 hname)]
    rfl

/-- The tables that have a name: that of its definition, and that of the scalars for a built-in one. -/
theorem length_kinds (hnames : document.typeNames.Nodup) (name : String) :
    ((assembled document).kinds name).length =
      (definedKind? document name).isSome.toNat +
        (isBuiltin name && !(definedKind? document name == some .scalar)).toNat := by
  have hholds (kind : TypeKind) :
      (assembled document).holds name kind =
        (definedKind? document name == some kind || kind == .scalar && isBuiltin name) := by
    rw [Bool.eq_iff_iff, holds_assembled, defines_iff hnames]
    simp [isBuiltin]
  unfold kinds
  rw [funext hholds]
  cases definedKind? document name with
  | none => cases isBuiltin name <;> rfl
  | some kind => cases kind <;> cases isBuiltin name <;> rfl

theorem typeNames_assembled :
    (assembled document).typeNames =
      document.typeNames ++
        (missingScalars (catalogue document document.objectExtensions) builtinScalars).map Prod.fst := by
  have hlate : (Table.keys (assembled document).scalars).filter
      (fun name => !(assembled document).declared.contains name) = [] := by
    rw [List.filter_eq_nil_iff]
    intro name hname
    obtain ⟨entry, hentry, rfl⟩ := List.mem_map.1 hname
    have hscalar : ((assembled document).scalar? entry.1).isSome :=
      List.lookup_isSome_iff.2 ⟨entry, hentry, beq_self_eq_true _⟩
    have hoffers : document.Offers .type entry.1 := by
      rcases isSome_scalar?_assembled.1 hscalar with ⟨definition, hdefinition, hname, -⟩ | hbuiltin
      · exact .inl (List.mem_map.2 ⟨definition, hdefinition, hname⟩)
      · exact .inr hbuiltin
    simpa using mem_declared_assembled.2 hoffers
  obtain ⟨directives, hbuiltins⟩ := addBuiltins_eq (catalogue document document.objectExtensions)
  rw [typeNames, hlate, assembled, hbuiltins]
  simp [catalogue]

theorem count_typeNames_assembled (hnames : document.typeNames.Nodup) (name : String) :
    (assembled document).typeNames.count name = ((assembled document).kinds name).length := by
  rw [typeNames_assembled, List.count_append, count_typeNames hnames, count_missingScalars hnames,
    length_kinds hnames]

/-- A name that is listed is in some table, so the names are distinct exactly if none is in two. -/
theorem typeNames_nodup_iff (hnames : document.typeNames.Nodup) :
    (assembled document).typeNames.Nodup ↔ ∀ name, ((assembled document).kinds name).length ≤ 1 := by
  simp only [List.nodup_iff_count_le_one, count_typeNames_assembled hnames]

theorem length_kinds_le_one_iff (hnames : document.typeNames.Nodup) (name : String) :
    ((assembled document).kinds name).length ≤ 1 ↔
      ∀ kind, document.Defines kind name → name ∈ builtinScalars.map Prod.fst → kind = .scalar := by
  have hbuiltin : name ∈ builtinScalars.map Prod.fst ↔ isBuiltin name := by rw [isBuiltin, List.contains_iff_mem]
  simp only [length_kinds hnames, defines_iff hnames, hbuiltin]
  cases definedKind? document name with
  | none => cases isBuiltin name <;> simp
  | some kind =>
    by_cases hkind : kind = .scalar
    · simp [hkind]
    · have hbeq : (kind == .scalar) = false := beq_eq_false_iff_ne.2 hkind
      cases isBuiltin name <;> simp [hkind, hbeq]

theorem kinds_withRoots (schema : Schema) (query mutation subscription : Option String) :
    { schema with queryType := query, mutationType := mutation, subscriptionType := subscription }.kinds =
      schema.kinds := by
  funext name
  unfold kinds
  rw [funext (holds_withRoots schema query mutation subscription name)]

theorem typeNames_withRoots (schema : Schema) (query mutation subscription : Option String) :
    { schema with queryType := query, mutationType := mutation, subscriptionType := subscription }.typeNames =
      schema.typeNames := rfl

theorem parse_eq_ok {text : String} {schema : Schema} :
    parse text = .ok schema ↔ ∃ document, TypeSystemDocument.parse? text = some document ∧ build document = .ok schema := by
  unfold parse
  cases TypeSystemDocument.parse? text with
  | none => simp
  | some document => simp

/-- A name is listed once for every table that has it. So all names are distinct, each in exactly one table, unless the
text defines a type that is no scalar under the name of a built-in scalar. -/
theorem typeNames_count_kinds {text : String} {schema : Schema} (hparse : Schema.parse text = .ok schema) :
    ∃ document, TypeSystemDocument.parse? text = some document ∧
      (∀ name, schema.typeNames.count name = (schema.kinds name).length) ∧
      ((schema.typeNames.Nodup ∧ ∀ name ∈ schema.typeNames, (schema.kinds name).length = 1) ↔
        ∀ kind name, document.Defines kind name → name ∈ builtinScalars.map Prod.fst → kind = .scalar) := by
  obtain ⟨document, hdocument, hbuild⟩ := parse_eq_ok.1 hparse
  obtain ⟨hclosed, rfl⟩ := build_eq_ok.1 hbuild
  rw [kinds_withRoots, typeNames_withRoots]
  have hcount := count_typeNames_assembled hclosed.names
  refine ⟨document, hdocument, hcount, ?_⟩
  rw [typeNames_nodup_iff hclosed.names]
  constructor
  · rintro ⟨hone, -⟩ kind name
    exact (length_kinds_le_one_iff hclosed.names name).1 (hone name) kind
  · intro hscalar
    have hone (name : String) : ((assembled document).kinds name).length ≤ 1 :=
      (length_kinds_le_one_iff hclosed.names name).2 fun kind => hscalar kind name
    refine ⟨hone, ?_⟩
    intro name hmem
    have hpos := List.count_pos_iff.2 hmem
    have hle := hone name
    rw [hcount] at hpos
    omega

/-- A scalar may be defined under a built-in name. -/
theorem typeNames_count_kinds_ownScalar :
    ∃ schema, Schema.parse "scalar ID union Any = Query type Query { id: ID any: Any }" = .ok schema ∧
      schema.typeNames = ["ID", "Any", "Query", "Int", "Float", "String", "Boolean"] ∧
      ∀ name, schema.typeNames.count name = (schema.kinds name).length := by
  have hnames : (Schema.parse "scalar ID union Any = Query type Query { id: ID any: Any }").toOption.map typeNames =
      some ["ID", "Any", "Query", "Int", "Float", "String", "Boolean"] := by decide +kernel
  cases hparse : Schema.parse "scalar ID union Any = Query type Query { id: ID any: Any }" with
  | error error => rw [hparse] at hnames; cases hnames
  | ok schema =>
    rw [hparse] at hnames
    obtain ⟨document, -, hcount, -⟩ := typeNames_count_kinds hparse
    exact ⟨schema, rfl, Option.some.inj hnames, hcount⟩

/-- An object under a built-in name stands beside the built-in scalar. -/
theorem typeNames_builtin_object :
    ∃ schema, Schema.parse "type Int { x: String } type Query { a: String }" = .ok schema ∧
      schema.typeNames = ["Int", "Query", "Int", "Float", "String", "Boolean", "ID"] ∧
      schema.kinds "Int" = [.object, .scalar] := by
  have hnames : (Schema.parse "type Int { x: String } type Query { a: String }").toOption.map
      (fun schema => (schema.typeNames, schema.kinds "Int")) =
        some (["Int", "Query", "Int", "Float", "String", "Boolean", "ID"], [.object, .scalar]) := by decide +kernel
  cases hparse : Schema.parse "type Int { x: String } type Query { a: String }" with
  | error error => rw [hparse] at hnames; cases hnames
  | ok schema =>
    rw [hparse] at hnames
    exact ⟨schema, rfl, Prod.mk.inj (Option.some.inj hnames)⟩

end RelationalGraphQL.Schema
