import RelationalGraphQL.Config.Apply
import RelationalGraphQL.Proofs.Schema.TypeNames

/-!
# Setting up mappings

However a mapping is set up, its names and joins are those of the last setting of each key, and the joins by convention
are those of the names it ends up with (`answers_follow_last_settings`): they are kept beside the names, and every step
that changes a name they depend on works them out anew. So steps of different keys commute, and the order in which a
configuration lists its entries does not matter.
-/

namespace RelationalGraphQL

/-! ### Keys of joins -/

namespace Mapping

variable {typeName typeName' fieldName fieldName' : String}

def DotFree (name : String) : Prop := '.' ∉ name.toList

theorem dotFree_of_isName {name : String} (hname : Document.IsName name) : DotFree name :=
  fun hmem => absurd (hname '.' hmem) (by decide)

theorem toList_fieldKey (typeName fieldName : String) :
    (fieldKey typeName fieldName).toList = typeName.toList ++ '.' :: fieldName.toList := by
  rw [fieldKey, String.toList_append, String.toList_append, List.append_assoc]
  rfl

theorem takeWhile_fieldKey (hdots : DotFree typeName) (fieldName : String) :
    (fieldKey typeName fieldName).toList.takeWhile (· ≠ '.') = typeName.toList := by
  have hall : ∀ c ∈ typeName.toList, decide (c ≠ '.') = true := by
    intro c hmem
    rw [decide_eq_true_eq]
    rintro rfl
    exact hdots hmem
  rw [toList_fieldKey, List.takeWhile_append_of_pos hall]
  exact List.append_nil _

theorem fieldKey_inj (hdots : DotFree typeName) (hdots' : DotFree typeName') :
    fieldKey typeName fieldName = fieldKey typeName' fieldName' ↔ typeName = typeName' ∧ fieldName = fieldName' := by
  constructor
  · intro hkey
    have htypes : typeName.toList = typeName'.toList := by
      rw [← takeWhile_fieldKey hdots fieldName, hkey, takeWhile_fieldKey hdots']
    have hlists := congrArg String.toList hkey
    rw [toList_fieldKey, toList_fieldKey, htypes] at hlists
    have hfields := (List.cons.inj (List.append_cancel_left hlists)).2
    exact ⟨String.toList_injective htypes, String.toList_injective hfields⟩
  · rintro ⟨rfl, rfl⟩
    rfl

def keyType (key : String) : String := String.ofList (key.toList.takeWhile (· ≠ '.'))

def keyField (key : String) : String := String.ofList (key.toList.dropWhile (· ≠ '.')).tail

theorem keyType_dotFree (key : String) : DotFree (keyType key) := by
  intro hmem
  rw [keyType, String.toList_ofList] at hmem
  simpa using List.mem_takeWhile_imp hmem

theorem fieldKey_keyType_keyField {key : String} (hdot : '.' ∈ key.toList) :
    fieldKey (keyType key) (keyField key) = key := by
  apply String.toList_injective
  rw [toList_fieldKey, keyType, keyField, String.toList_ofList, String.toList_ofList]
  generalize key.toList = chars at hdot
  induction chars with
  | nil => cases hdot
  | cons c chars ih =>
    by_cases hc : c = '.'
    · simp [hc]
    · have hrest : '.' ∈ chars := (List.mem_cons.1 hdot).resolve_left (Ne.symm hc)
      simpa [hc] using ih hrest

theorem eq_of_fieldKey_eq (htype : DotFree typeName) (hfield : DotFree fieldName)
    (hkey : fieldKey typeName fieldName = fieldKey typeName' fieldName') :
    typeName = typeName' ∧ fieldName = fieldName' := by
  have hlists := congrArg String.toList hkey
  rw [toList_fieldKey, toList_fieldKey, List.append_cons_inj_of_notMem htype hfield] at hlists
  exact ⟨String.toList_injective hlists.1, String.toList_injective hlists.2.2⟩

end Mapping

/-! ### The names of a schema -/

namespace Schema

variable {document : TypeSystemDocument} {schema : Schema}

open Document (FieldDefinition IsName TypeDefinition TypeSystemDocument)

/-- Objects and their fields stand under their own names. -/
structure Keyed (schema : Schema) : Prop where
  objects : (schema.objects.map Prod.fst).Nodup
  object : ∀ entry ∈ schema.objects, entry.2.name = entry.1 ∧ IsName entry.1
  fields : ∀ entry ∈ schema.objects, (entry.2.fields.map Prod.fst).Nodup
  field : ∀ entry ∈ schema.objects, ∀ field ∈ entry.2.fields, field.2.name = field.1 ∧ IsName field.1

theorem Keyed.of_objects {parsed : Schema} (hkeyed : parsed.Keyed) (hobjects : schema.objects = parsed.objects) :
    schema.Keyed := by
  obtain ⟨hnodup, hobject, hfields, hfield⟩ := hkeyed
  rw [← hobjects] at hnodup hobject hfields hfield
  exact ⟨hnodup, hobject, hfields, hfield⟩

theorem types_named (hnames : ∀ item ∈ document, item.WellNamed) :
    ∀ definition ∈ document.types, definition.WellNamed := by
  intro definition hdefinition
  obtain ⟨item, hitem, htype⟩ := List.mem_filterMap.1 hdefinition
  cases item with
  | type other =>
    cases htype
    exact hnames _ hitem
  | _ => cases htype

theorem objectExtensions_named (hnames : ∀ item ∈ document, item.WellNamed) :
    ∀ extension ∈ document.objectExtensions, ∀ field ∈ extension.fields, IsName field.name := by
  intro extension hextension
  obtain ⟨item, hitem, hobject⟩ := List.mem_filterMap.1 hextension
  unfold Document.TypeSystemDefinition.objectExtension? at hobject
  split at hobject
  · cases hobject
    exact (hnames _ hitem).2
  · cases hobject

theorem objectFields_named (hnames : ∀ item ∈ document, item.WellNamed) {definition : TypeDefinition}
    (hdefinition : definition ∈ document.types) {interfaces : List String} {fields : List FieldDefinition}
    (hbody : definition.body = .object interfaces fields) :
    ∀ field ∈ document.objectFields definition.name fields, IsName field.name := by
  intro field hfield
  rcases List.mem_append.1 hfield with hfield | hfield
  · have hown := (types_named hnames definition hdefinition).2
    rw [hbody] at hown
    exact hown field hfield
  · obtain ⟨extension, hextension, hfield⟩ := List.mem_flatMap.1 hfield
    exact objectExtensions_named hnames extension (List.mem_of_mem_filter hextension) field hfield

theorem parse_keyed {text : String} (hparse : Schema.parse text = .ok schema) : schema.Keyed := by
  obtain ⟨document, hdocument, hbuild⟩ := parse_eq_ok.1 hparse
  obtain ⟨hclosed, rfl⟩ := build_eq_ok.1 hbuild
  have hnames := Document.parse?_names hdocument
  obtain ⟨directives, hbuiltins⟩ := addBuiltins_eq (catalogue document document.objectExtensions)
  rw [assembled, hbuiltins]
  have hread {entry : String × ObjectType}
      (hentry : entry ∈ tableOf (objectOf? document.objectExtensions) document.types) :
      (entry.2.name = entry.1 ∧ IsName entry.1) ∧
        ∃ fields, entry.2.fields = fieldTable fields ∧ ∀ field ∈ fields, IsName field.name := by
    obtain ⟨definition, hdefinition, hname, hobject⟩ := mem_tableOf.1 hentry
    obtain ⟨interfaces, fields, hbody, hobject⟩ := objectOf?_eq_some.1 hobject
    rw [hobject, ← hname]
    exact ⟨⟨rfl, (types_named hnames definition hdefinition).1⟩, _, rfl,
      objectFields_named hnames hdefinition hbody⟩
  constructor
  · exact keys_tableOf.nodup hclosed.names
  · intro entry hentry
    exact (hread hentry).1
  · intro entry hentry
    obtain ⟨-, fields, hfields, -⟩ := hread hentry
    rw [hfields]
    exact Table.nodup_keys_ofList _
  · intro entry hentry field hfield
    obtain ⟨-, fields, hfields, hnamed⟩ := hread hentry
    rw [hfields] at hfield
    obtain ⟨source, hlast, rfl⟩ := mem_fieldTable.1 hfield
    exact ⟨rfl, hnamed source hlast.mem⟩

end Schema

/-! ### Joins by convention -/

namespace Mapping

variable {settings settings' : List Setting}

theorem mem_conventionEntries {mapping : Mapping} {entry : String × Relation} :
    entry ∈ mapping.conventionEntries ↔
      ∃ object ∈ mapping.schema.objects, ∃ field ∈ object.2.fields, ∃ kind, field.2.relation = some kind ∧
        (fieldKey object.2.name field.2.name,
          .usual object.2.name field.2 kind (field.2.table.getD (mapping.tableName field.2.type.namedType))) = entry := by
  simp only [conventionEntries, List.mem_flatMap, List.mem_filterMap, Option.map_eq_some_iff]

theorem derivedRelation?_eq_some {mapping : Mapping} {typeName fieldName : String} {relation : Relation} :
    mapping.derivedRelation? typeName fieldName = some relation ↔
      ∃ object, mapping.schema.object? typeName = some object ∧ ∃ field, object.fields.lookup fieldName = some field ∧
        ∃ kind, field.relation = some kind ∧
          .usual typeName field kind (field.table.getD (mapping.tableName field.type.namedType)) = relation := by
  simp [derivedRelation?, usualJoin?, Option.bind_eq_some_iff]

section

variable {mapping : Mapping} (hkeyed : mapping.schema.Keyed)

include hkeyed

/-- The key of a join by convention tells the object and the field. -/
theorem mem_conventionEntries_fieldKey {typeName fieldName : String} {relation : Relation} :
    (fieldKey typeName fieldName, relation) ∈ mapping.conventionEntries ↔
      mapping.derivedRelation? typeName fieldName = some relation := by
  rw [mem_conventionEntries, derivedRelation?_eq_some]
  constructor
  · rintro ⟨object, hobject, field, hfield, kind, hkind, hentry⟩
    obtain ⟨hkey, hrelation⟩ := Prod.mk.inj hentry
    obtain ⟨hobjectName, hobjectIsName⟩ := hkeyed.object object hobject
    obtain ⟨hfieldName, hfieldIsName⟩ := hkeyed.field object hobject field hfield
    rw [hobjectName, hfieldName] at hkey
    obtain ⟨rfl, rfl⟩ := eq_of_fieldKey_eq (dotFree_of_isName hobjectIsName) (dotFree_of_isName hfieldIsName) hkey
    refine ⟨object.2, Table.lookup_of_mem hkeyed.objects hobject, field.2,
      Table.lookup_of_mem (hkeyed.fields object hobject) hfield, kind, hkind, ?_⟩
    rw [← hrelation, hobjectName]
  · rintro ⟨object, hobject, field, hfield, kind, hkind, rfl⟩
    have hobjectMem := Table.mem_of_lookup hobject
    have hfieldMem := Table.mem_of_lookup hfield
    have hobjectName := (hkeyed.object _ hobjectMem).1
    have hfieldName := (hkeyed.field _ hobjectMem _ hfieldMem).1
    refine ⟨_, hobjectMem, _, hfieldMem, kind, hkind, ?_⟩
    rw [hobjectName, hfieldName]

/-- The joins worked out ahead are those worked out on demand. -/
theorem lookup_conventions (typeName fieldName : String) :
    mapping.conventions.lookup (fieldKey typeName fieldName) = mapping.derivedRelation? typeName fieldName := by
  have hvalues : ∀ entry ∈ mapping.conventionEntries, ∀ other ∈ mapping.conventionEntries,
      entry.1 = other.1 → entry = other := by
    intro entry hentry other hother hkey
    obtain ⟨object, hobject, field, hfield, kind, hkind, rfl⟩ := mem_conventionEntries.1 hentry
    obtain ⟨key, relation⟩ := other
    obtain rfl : fieldKey object.2.name field.2.name = key := hkey
    have hderived := (mem_conventionEntries_fieldKey hkeyed).1 hentry
    rw [(mem_conventionEntries_fieldKey hkeyed).1 hother] at hderived
    rw [Option.some.inj hderived]
  apply Option.ext
  intro relation
  rw [← mem_conventionEntries_fieldKey hkeyed]
  exact Table.lookup_ofList hvalues

end

/-! ### Steps -/

/-- What a step sets. -/
inductive Setting.Key where
  | table (typeName : String)
  | column (typeName fieldName : String)
  | join (typeName fieldName : String)
  | plural
  deriving DecidableEq

namespace Setting

def key : Setting → Key
  | .table typeName _ => .table typeName
  | .column typeName fieldName _ => .column typeName fieldName
  | .join typeName fieldName _ => .join typeName fieldName
  | .plural _ => .plural

def text? : Setting → Option String
  | .table _ text | .column _ _ text => some text
  | _ => none

def relation? : Setting → Option Relation
  | .join _ _ relation => some relation
  | _ => none

def enabled? : Setting → Option Bool
  | .plural enabled => some enabled
  | _ => none

def apply : Setting → Mapping → Mapping
  | .table typeName text => mapTable typeName text
  | .column typeName fieldName text => mapColumn typeName fieldName text
  | .join typeName fieldName relation => mapRelation typeName fieldName relation
  | .plural enabled => pluralizeTables enabled

/-- Joins are kept by type and field name with a dot between them, so types need names without dots. -/
def DotFree : Setting → Prop
  | .join typeName _ _ => Mapping.DotFree typeName
  | _ => True

end Setting

/-- The last setting of a key. -/
def last? (settings : List Setting) (key : Setting.Key) : Option Setting := settings.reverse.find? (·.key = key)

theorem last?_concat (settings : List Setting) (setting : Setting) (key : Setting.Key) :
    last? (settings ++ [setting]) key = if setting.key = key then some setting else last? settings key := by
  unfold last?
  rw [List.reverse_append, List.reverse_singleton, List.singleton_append, List.find?_cons]
  by_cases hkey : setting.key = key
  · simp [hkey]
  · simp [hkey]

namespace Builder

theorem setAll_concat (builder : Builder) (settings : List Setting) (setting : Setting) :
    builder.setAll (settings ++ [setting]) = (builder.setAll settings).set setting := by
  unfold setAll
  rw [List.foldl_append]
  rfl

theorem refresh_mapping (builder : Builder) : builder.refresh.mapping = builder.mapping := by
  unfold refresh
  split <;> rfl

/-- The joins by convention are those of the names. -/
structure Fresh (builder : Builder) : Prop where
  derives : builder.mapping.derivesRelations
  derived : builder.derived = builder.mapping.conventions

theorem fresh_refresh {builder : Builder} (hderives : builder.mapping.derivesRelations) : builder.refresh.Fresh := by
  unfold refresh
  rw [if_pos hderives]
  exact ⟨hderives, rfl⟩

/-- Tables and the flag are all that joins by convention depend on, so other steps may leave them as they are. -/
theorem Fresh.set {builder : Builder} (hfresh : builder.Fresh) (setting : Setting) : (builder.set setting).Fresh := by
  cases setting with
  | table typeName table => exact fresh_refresh hfresh.derives
  | column typeName fieldName column => exact ⟨hfresh.derives, hfresh.derived⟩
  | join typeName fieldName relation => exact ⟨hfresh.derives, hfresh.derived⟩
  | plural enabled => exact fresh_refresh hfresh.derives

theorem Fresh.setAll {builder : Builder} (hfresh : builder.Fresh) (settings : List Setting) :
    (builder.setAll settings).Fresh := by
  induction settings using List.reverseRecOn with
  | nil => exact hfresh
  | append_singleton settings setting ih =>
    rw [setAll_concat]
    exact ih.set setting

theorem set_mapping (builder : Builder) (setting : Setting) :
    (builder.set setting).mapping = setting.apply builder.mapping := by
  cases setting with
  | table typeName table => exact refresh_mapping _
  | column typeName fieldName column => rfl
  | join typeName fieldName relation => rfl
  | plural enabled => exact refresh_mapping _

end Builder

/-! ### What the steps amount to -/

def settled (schema : Schema) (dialect : Sql.Dialect) (settings : List Setting) : Mapping :=
  ((Builder.ofSchema schema dialect).setAll settings).mapping

section

variable (schema : Schema) (dialect : Sql.Dialect)

theorem settled_concat (settings : List Setting) (setting : Setting) :
    settled schema dialect (settings ++ [setting]) = setting.apply (settled schema dialect settings) := by
  unfold settled
  rw [Builder.setAll_concat, Builder.set_mapping]

theorem settled_schema (settings : List Setting) : (settled schema dialect settings).schema = schema := by
  induction settings using List.reverseRecOn with
  | nil => rfl
  | append_singleton settings setting ih =>
    rw [settled_concat]
    cases setting <;> exact ih

theorem settled_dialect (settings : List Setting) : (settled schema dialect settings).dialect = dialect := by
  induction settings using List.reverseRecOn with
  | nil => rfl
  | append_singleton settings setting ih =>
    rw [settled_concat]
    cases setting <;> exact ih

theorem settled_tables (settings : List Setting) (typeName : String) :
    (settled schema dialect settings).tables.lookup typeName =
      (last? settings (.table typeName)).bind Setting.text? := by
  induction settings using List.reverseRecOn with
  | nil => rfl
  | append_singleton settings setting ih =>
    rw [settled_concat, last?_concat]
    cases setting with
    | table name table =>
      simp only [Setting.apply, mapTable, Table.lookup_insert, Setting.key, Setting.Key.table.injEq, ih, eq_comm]
      split <;> rfl
    | _ => exact ih

theorem settled_columns (settings : List Setting) (typeName fieldName : String) :
    (settled schema dialect settings).columns.lookup (typeName, fieldName) =
      (last? settings (.column typeName fieldName)).bind Setting.text? := by
  induction settings using List.reverseRecOn with
  | nil => rfl
  | append_singleton settings setting ih =>
    rw [settled_concat, last?_concat]
    cases setting with
    | column name field column =>
      simp only [Setting.apply, mapColumn, List.lookup_cons, Setting.key, Setting.Key.column.injEq]
      by_cases hkey : name = typeName ∧ field = fieldName
      · rw [if_pos hkey, hkey.1, hkey.2, beq_self_eq_true]
        rfl
      · have hne : (typeName, fieldName) ≠ (name, field) := by
          intro heq
          obtain ⟨rfl, rfl⟩ := Prod.mk.inj heq
          exact hkey ⟨rfl, rfl⟩
        rw [if_neg hkey, beq_eq_false_iff_ne.2 hne]
        exact (Table.lookup_filter_ne hne _).trans ih
    | _ => exact ih

theorem settled_plural (settings : List Setting) :
    (settled schema dialect settings).pluralizesTables = ((last? settings .plural).bind Setting.enabled?).getD false := by
  induction settings using List.reverseRecOn with
  | nil => rfl
  | append_singleton settings setting ih =>
    rw [settled_concat, last?_concat]
    cases setting with
    | plural enabled => rfl
    | _ => exact ih

theorem settled_relations {settings : List Setting} (hdots : ∀ setting ∈ settings, setting.DotFree) {typeName : String}
    (htype : DotFree typeName) (fieldName : String) :
    (settled schema dialect settings).relations.lookup (fieldKey typeName fieldName) =
      (last? settings (.join typeName fieldName)).bind Setting.relation? := by
  induction settings using List.reverseRecOn with
  | nil => rfl
  | append_singleton settings setting ih =>
    obtain ⟨hsettings, hsetting⟩ := List.forall_mem_append.1 hdots
    rw [settled_concat, last?_concat]
    cases setting with
    | join name field relation =>
      have hname : DotFree name := hsetting _ List.mem_cons_self
      simp only [Setting.apply, mapRelation, Table.lookup_insert, fieldKey_inj htype hname, Setting.key,
        Setting.Key.join.injEq, ih hsettings, eq_comm]
      split <;> rfl
    | _ => exact ih hsettings

end

/-! ### Answers -/

namespace Builder

/-- Two mappings that give the same names and joins for the same schema in the same dialect. -/
structure Agrees (builder builder' : Builder) : Prop where
  schema : builder.mapping.schema = builder'.mapping.schema
  dialect : builder.mapping.dialect = builder'.mapping.dialect
  table : ∀ typeName, builder.mapping.tableName typeName = builder'.mapping.tableName typeName
  column : ∀ typeName fieldName,
    builder.mapping.columnName typeName fieldName = builder'.mapping.columnName typeName fieldName
  relation : ∀ typeName fieldName, builder.relation? typeName fieldName = builder'.relation? typeName fieldName

theorem ofSchema_fresh (schema : Schema) (dialect : Sql.Dialect) : (ofSchema schema dialect).Fresh := fresh_refresh rfl

theorem Fresh.relation? {builder : Builder} (hfresh : builder.Fresh) (hkeyed : builder.mapping.schema.Keyed)
    (typeName fieldName : String) :
    builder.relation? typeName fieldName = builder.mapping.relation? typeName fieldName := by
  cases hset : builder.mapping.relations.lookup (fieldKey typeName fieldName) <;>
    simp only [Builder.relation?, Mapping.relation?, hfresh.derived, lookup_conventions hkeyed, hfresh.derives, if_true,
      hset]

end Builder

theorem tableName_settled (schema : Schema) (dialect : Sql.Dialect) (settings : List Setting) (typeName : String) :
    (settled schema dialect settings).tableName typeName =
      ((last? settings (.table typeName)).bind Setting.text?).getD
        (if ((last? settings .plural).bind Setting.enabled?).getD false then Naming.pluralize (Naming.snakeCase typeName)
          else Naming.snakeCase typeName) := by
  unfold tableName
  rw [settled_tables, settled_plural]
  cases (last? settings (.table typeName)).bind Setting.text? <;> rfl

theorem columnName_settled (schema : Schema) (dialect : Sql.Dialect) (settings : List Setting)
    (typeName fieldName : String) :
    (settled schema dialect settings).columnName typeName fieldName =
      ((last? settings (.column typeName fieldName)).bind Setting.text?).getD
        (((schema.field? typeName fieldName).bind Schema.Field.column).getD (Naming.snakeCase fieldName)) := by
  unfold columnName
  rw [settled_columns, settled_schema]
  cases (last? settings (.column typeName fieldName)).bind Setting.text? <;> rfl

theorem derivedRelation?_settled (schema : Schema) (dialect : Sql.Dialect) (settings : List Setting)
    (typeName fieldName : String) :
    (settled schema dialect settings).derivedRelation? typeName fieldName =
      usualJoin? schema (settled schema dialect settings).tableName typeName fieldName := by
  rw [derivedRelation?, settled_schema]

theorem relation?_settled (schema : Schema) (dialect : Sql.Dialect) (settings : List Setting)
    (typeName fieldName : String) :
    (settled schema dialect settings).relation? typeName fieldName =
      ((settled schema dialect settings).relations.lookup (fieldKey typeName fieldName)).or
        ((settled schema dialect settings).derivedRelation? typeName fieldName) := by
  have hderives : (settled schema dialect settings).derivesRelations :=
    ((Builder.ofSchema_fresh schema dialect).setAll settings).derives
  unfold relation?
  rw [if_pos hderives]
  cases (settled schema dialect settings).relations.lookup (fieldKey typeName fieldName) <;> rfl

theorem setAll_relation? {schema : Schema} (hkeyed : schema.Keyed) (dialect : Sql.Dialect) (settings : List Setting)
    (typeName fieldName : String) :
    ((Builder.ofSchema schema dialect).setAll settings).relation? typeName fieldName =
      (settled schema dialect settings).relation? typeName fieldName := by
  apply ((Builder.ofSchema_fresh schema dialect).setAll settings).relation?
  rw [← settled_schema schema dialect settings] at hkeyed
  exact hkeyed

theorem agrees_of_last {schema : Schema} (hkeyed : schema.Keyed) (dialect : Sql.Dialect)
    (hdots : ∀ setting ∈ settings, setting.DotFree)
    (hdots' : ∀ setting ∈ settings', setting.DotFree) (hlast : ∀ key, last? settings key = last? settings' key) :
    ((Builder.ofSchema schema dialect).setAll settings).Agrees ((Builder.ofSchema schema dialect).setAll settings') := by
  have htable (typeName : String) :
      (settled schema dialect settings).tableName typeName = (settled schema dialect settings').tableName typeName := by
    rw [tableName_settled, tableName_settled, hlast, hlast]
  constructor
  · exact (settled_schema schema dialect settings).trans (settled_schema schema dialect settings').symm
  · exact (settled_dialect schema dialect settings).trans (settled_dialect schema dialect settings').symm
  · exact htable
  · intro typeName fieldName
    change (settled schema dialect settings).columnName typeName fieldName =
      (settled schema dialect settings').columnName typeName fieldName
    rw [columnName_settled, columnName_settled, hlast]
  · intro typeName fieldName
    rw [setAll_relation? hkeyed, setAll_relation? hkeyed]
    have hdot : '.' ∈ (fieldKey typeName fieldName).toList := by simp [toList_fieldKey]
    rw [relation?_settled, relation?_settled, derivedRelation?_settled, derivedRelation?_settled, funext htable,
      ← fieldKey_keyType_keyField hdot, settled_relations schema dialect hdots (keyType_dotFree _),
      settled_relations schema dialect hdots' (keyType_dotFree _), hlast]

/-! ### Configurations -/

theorem last?_eq_some (hkeys : (settings.map Setting.key).Nodup) {key : Setting.Key} {setting : Setting} :
    last? settings key = some setting ↔ setting ∈ settings ∧ setting.key = key := by
  unfold last?
  constructor
  · intro hfound
    exact ⟨List.mem_reverse.1 (List.mem_of_find?_eq_some hfound), by simpa using List.find?_some hfound⟩
  · rintro ⟨hmem, rfl⟩
    cases hfound : settings.reverse.find? (·.key = setting.key) with
    | none =>
      have habsent := List.find?_eq_none.1 hfound setting (List.mem_reverse.2 hmem)
      simp at habsent
    | some found =>
      have hsame : found.key = setting.key := by simpa using List.find?_some hfound
      have hfoundMem := List.mem_reverse.1 (List.mem_of_find?_eq_some hfound)
      rw [List.inj_on_of_nodup_map hkeys hfoundMem hmem hsame]

theorem last?_perm (hperm : settings.Perm settings') (hkeys : (settings.map Setting.key).Nodup) (key : Setting.Key) :
    last? settings key = last? settings' key := by
  have hkeys' : (settings'.map Setting.key).Nodup := (hperm.map Setting.key).nodup_iff.1 hkeys
  apply Option.ext
  intro setting
  rw [last?_eq_some hkeys, last?_eq_some hkeys', hperm.mem_iff]

end Mapping

namespace Config

open Arguments (except_bind_eq_ok)
open Mapping (DotFree Setting fieldKey keyField keyType)

theorem splitOnce_eq (separator : Char) (chars : List Char) :
    Text.splitOnce separator chars =
      if separator ∈ chars then
        some (chars.takeWhile (· ≠ separator), (chars.dropWhile (· ≠ separator)).tail)
      else none := by
  induction chars with
  | nil => rfl
  | cons c chars ih =>
    rw [Text.splitOnce]
    by_cases hc : c = separator
    · simp [hc]
    · rw [if_neg hc, ih]
      by_cases hrest : separator ∈ chars
      · simp [hc, hrest]
      · simp [hrest, Ne.symm hc]

theorem splitFieldKey_eq_ok {part key : String} {parts : String × String} :
    splitFieldKey part key = .ok parts ↔ '.' ∈ key.toList ∧ parts = (keyType key, keyField key) := by
  unfold splitFieldKey
  rw [splitOnce_eq]
  by_cases hdot : '.' ∈ key.toList
  · simp [hdot, keyType, keyField, eq_comm]
  · simp [hdot]

/-- The steps of a configuration, all keys taken to be right. -/
def plainSettings (config : Config) : List Setting :=
  .plural config.pluralizesTables :: config.models.map (fun (typeName, table) => .table typeName table)
    ++ config.fields.map (fun (key, column) => .column (keyType key) (keyField key) column)
    ++ config.relations.map fun (key, relation) => .join (keyType key) (keyField key) relation.toMapping

theorem settings_eq_ok {config : Config} {settings : List Setting} :
    config.settings = .ok settings ↔
      ((∀ entry ∈ config.fields, '.' ∈ entry.1.toList) ∧ ∀ entry ∈ config.relations, '.' ∈ entry.1.toList) ∧
        settings = config.plainSettings := by
  have hentry {α : Type} (part : String) (make : String → String → α → Setting) (entry : String × α)
      (setting : Setting) :
      (do
        let (typeName, fieldName) ← splitFieldKey part entry.1
        return make typeName fieldName entry.2 : Except ConfigError Setting) = .ok setting ↔
        '.' ∈ entry.1.toList ∧ setting = make (keyType entry.1) (keyField entry.1) entry.2 := by
    rw [except_bind_eq_ok]
    constructor
    · rintro ⟨_, hsplit, hsetting⟩
      obtain ⟨hdot, rfl⟩ := splitFieldKey_eq_ok.1 hsplit
      exact ⟨hdot, (Except.ok.inj hsetting).symm⟩
    · rintro ⟨hdot, rfl⟩
      exact ⟨_, splitFieldKey_eq_ok.2 ⟨hdot, rfl⟩, rfl⟩
  have hcolumns := Schema.mapM_eq_ok_iff (hentry "fields" Setting.column) config.fields
  have hjoins := Schema.mapM_eq_ok_iff
    (hentry "relations" fun typeName fieldName relation => .join typeName fieldName (Relation.toMapping relation))
    config.relations
  unfold Config.settings
  rw [except_bind_eq_ok]
  constructor
  · rintro ⟨columns, hcolumn, hrest⟩
    obtain ⟨hfields, rfl⟩ := (hcolumns columns).1 hcolumn
    obtain ⟨joins, hjoin, hsettings⟩ := except_bind_eq_ok.1 hrest
    obtain ⟨hrelations, rfl⟩ := (hjoins joins).1 hjoin
    exact ⟨⟨hfields, hrelations⟩, (Except.ok.inj hsettings).symm⟩
  · rintro ⟨⟨hfields, hrelations⟩, rfl⟩
    exact ⟨_, (hcolumns _).2 ⟨hfields, rfl⟩, except_bind_eq_ok.2 ⟨_, (hjoins _).2 ⟨hrelations, rfl⟩, rfl⟩⟩

theorem plainSettings_dotFree (config : Config) : ∀ setting ∈ config.plainSettings, setting.DotFree := by
  intro setting hmem
  simp only [plainSettings, List.mem_append, List.mem_cons, List.mem_map] at hmem
  rcases hmem with ((rfl | ⟨entry, -, rfl⟩) | ⟨entry, -, rfl⟩) | ⟨entry, -, rfl⟩
  · exact trivial
  · exact trivial
  · exact trivial
  · exact Mapping.keyType_dotFree entry.1

/-- Two configurations whose maps list the same entries in another order. -/
structure Rearranged (config config' : Config) : Prop where
  dialect : config.dialect = config'.dialect
  plural : config.pluralizesTables = config'.pluralizesTables
  models : config.models.Perm config'.models
  fields : config.fields.Perm config'.fields
  relations : config.relations.Perm config'.relations
  modelKeys : (config.models.map Prod.fst).Nodup
  fieldKeys : (config.fields.map Prod.fst).Nodup
  relationKeys : (config.relations.map Prod.fst).Nodup

variable {config config' : Config}

theorem Rearranged.perm (hrearranged : Rearranged config config') :
    config.plainSettings.Perm config'.plainSettings := by
  unfold plainSettings
  rw [hrearranged.plural]
  exact (((hrearranged.models.map _).cons _).append (hrearranged.fields.map _)).append (hrearranged.relations.map _)

theorem Rearranged.keys (hrearranged : Rearranged config config')
    (hfields : ∀ entry ∈ config.fields, '.' ∈ entry.1.toList)
    (hrelations : ∀ entry ∈ config.relations, '.' ∈ entry.1.toList) :
    (config.plainSettings.map Setting.key).Nodup := by
  have hinj {key key' : String} (hdot : '.' ∈ key.toList) (hdot' : '.' ∈ key'.toList)
      (htype : keyType key = keyType key') (hfield : keyField key = keyField key') : key = key' := by
    rw [← Mapping.fieldKey_keyType_keyField hdot, htype, hfield, Mapping.fieldKey_keyType_keyField hdot']
  have hnodup {α : Type} {entries : List (String × α)} (make : String → Setting.Key)
      (hkeys : (entries.map Prod.fst).Nodup)
      (hmake : ∀ entry ∈ entries, ∀ other ∈ entries, make entry.1 = make other.1 → entry.1 = other.1) :
      (entries.map fun entry => make entry.1).Nodup := by
    apply (List.Nodup.of_map _ hkeys).map_on
    intro entry hentry other hother hsame
    exact List.inj_on_of_nodup_map hkeys hentry hother (hmake entry hentry other hother hsame)
  have htables := hnodup Setting.Key.table hrearranged.modelKeys fun _ _ _ _ => Setting.Key.table.inj
  have hcolumns := hnodup (fun key => .column (keyType key) (keyField key)) hrearranged.fieldKeys
    fun entry hentry other hother hsame =>
      hinj (hfields entry hentry) (hfields other hother) (Setting.Key.column.inj hsame).1 (Setting.Key.column.inj hsame).2
  have hjoins := hnodup (fun key => .join (keyType key) (keyField key)) hrearranged.relationKeys
    fun entry hentry other hother hsame =>
      hinj (hrelations entry hentry) (hrelations other hother) (Setting.Key.join.inj hsame).1
        (Setting.Key.join.inj hsame).2
  simp only [plainSettings, List.map_append, List.map_cons, List.map_map]
  refine List.Nodup.append (List.Nodup.append (List.nodup_cons.2 ⟨?_, htables⟩) hcolumns ?_) hjoins ?_
  · simp [Setting.key]
  · intro key hleft hright
    obtain ⟨entry, -, rfl⟩ := List.mem_map.1 hright
    simp [Setting.key] at hleft
  · intro key hleft hright
    obtain ⟨entry, -, rfl⟩ := List.mem_map.1 hright
    simp [Setting.key] at hleft

end Config

namespace Mapping

open Arguments (except_bind_eq_ok)

namespace Builder

variable {schema : Schema} {config : Config} {builder : Builder}

theorem ofConfig_eq_ok :
    ofConfig schema config = .ok builder ↔
      ((∀ entry ∈ config.fields, '.' ∈ entry.1.toList) ∧ ∀ entry ∈ config.relations, '.' ∈ entry.1.toList) ∧
        ∃ dialect, config.sqlDialect = .ok dialect ∧
          builder = (ofSchema schema dialect).setAll config.plainSettings := by
  unfold ofConfig
  rw [except_bind_eq_ok]
  constructor
  · rintro ⟨dialect, hdialect, hrest⟩
    obtain ⟨settings, hsettings, hbuilder⟩ := except_bind_eq_ok.1 hrest
    obtain ⟨hdots, rfl⟩ := Config.settings_eq_ok.1 hsettings
    exact ⟨hdots, dialect, hdialect, (Except.ok.inj hbuilder).symm⟩
  · rintro ⟨hdots, dialect, hdialect, rfl⟩
    exact ⟨dialect, hdialect, except_bind_eq_ok.2 ⟨_, Config.settings_eq_ok.2 ⟨hdots, rfl⟩, rfl⟩⟩

/-- The order of a configuration's entries decides neither whether it gives a mapping nor what that is. -/
theorem ofConfig_rearranged (hkeyed : schema.Keyed) {config' : Config} (hrearranged : config.Rearranged config')
    (hbuilder : ofConfig schema config = .ok builder) :
    ∃ builder', ofConfig schema config' = .ok builder' ∧ builder.Agrees builder' := by
  obtain ⟨⟨hfields, hrelations⟩, dialect, hdialect, rfl⟩ := ofConfig_eq_ok.1 hbuilder
  have hdialect' : config'.sqlDialect = .ok dialect := by
    rw [← hdialect, Config.sqlDialect, Config.sqlDialect, hrearranged.dialect]
  have hfields' : ∀ entry ∈ config'.fields, '.' ∈ entry.1.toList :=
    fun entry hentry => hfields entry (hrearranged.fields.mem_iff.2 hentry)
  have hrelations' : ∀ entry ∈ config'.relations, '.' ∈ entry.1.toList :=
    fun entry hentry => hrelations entry (hrearranged.relations.mem_iff.2 hentry)
  refine ⟨_, ofConfig_eq_ok.2 ⟨⟨hfields', hrelations'⟩, dialect, hdialect', rfl⟩, ?_⟩
  exact agrees_of_last hkeyed dialect config.plainSettings_dotFree config'.plainSettings_dotFree
    (last?_perm hrearranged.perm (hrearranged.keys hfields hrelations))

/-- A mapping whose names and joins are those of the last setting of each key, and whose other joins are the usual ones
to the tables that it has. -/
structure Follows (schema : Schema) (settings : List Setting) (builder : Builder) : Prop where
  table : ∀ typeName, builder.mapping.tableName typeName =
    ((last? settings (.table typeName)).bind Setting.text?).getD
      (if ((last? settings .plural).bind Setting.enabled?).getD false then Naming.pluralize (Naming.snakeCase typeName)
        else Naming.snakeCase typeName)
  column : ∀ typeName fieldName, builder.mapping.columnName typeName fieldName =
    ((last? settings (.column typeName fieldName)).bind Setting.text?).getD
      (((schema.field? typeName fieldName).bind Schema.Field.column).getD (Naming.snakeCase fieldName))
  relation : ∀ typeName fieldName, DotFree typeName → builder.relation? typeName fieldName =
    ((last? settings (.join typeName fieldName)).bind Setting.relation?).or
      (usualJoin? schema builder.mapping.tableName typeName fieldName)
  /-- Statements are compiled with the joins that the mapping tells. -/
  compiled : ∀ typeName fieldName, builder.relation? typeName fieldName = builder.mapping.relation? typeName fieldName

theorem setAll_follows (hkeyed : schema.Keyed) (dialect : Sql.Dialect) {settings : List Setting}
    (hdots : ∀ setting ∈ settings, setting.DotFree) :
    Follows schema settings ((ofSchema schema dialect).setAll settings) := by
  constructor
  · exact tableName_settled schema dialect settings
  · exact columnName_settled schema dialect settings
  · intro typeName fieldName htype
    rw [setAll_relation? hkeyed, relation?_settled, settled_relations schema dialect hdots htype,
      derivedRelation?_settled]
    rfl
  · exact setAll_relation? hkeyed dialect settings

/-- However a mapping is set up from a schema, whatever coercions its scalars have, it follows the last setting of each
key. So settings with the same last values give the same answers, and a configuration gives the same answers in whatever
order it lists its entries. -/
theorem answers_follow_last_settings {text : String} {parsed schema : Schema} (hparse : Schema.parse text = .ok parsed)
    (hobjects : schema.objects = parsed.objects) (dialect : Sql.Dialect) {settings : List Setting}
    (hdots : ∀ setting ∈ settings, setting.DotFree) :
    Follows schema settings ((ofSchema schema dialect).setAll settings) ∧
      (∀ settings', (∀ setting ∈ settings', setting.DotFree) → (∀ key, last? settings key = last? settings' key) →
        ((ofSchema schema dialect).setAll settings).Agrees ((ofSchema schema dialect).setAll settings')) ∧
      ∀ config config' : Config, config.Rearranged config' →
        ∀ builder, ofConfig schema config = .ok builder →
          ∃ builder', ofConfig schema config' = .ok builder' ∧ builder.Agrees builder' := by
  have hkeyed := (Schema.parse_keyed hparse).of_objects hobjects
  refine ⟨setAll_follows hkeyed dialect hdots, ?_, ?_⟩
  · intro settings' hdots' hlast
    exact agrees_of_last hkeyed dialect hdots hdots' hlast
  · intro config config' hrearranged builder hbuilder
    exact ofConfig_rearranged hkeyed hrearranged hbuilder

/-- A schema with a relation. -/
def postsText : String :=
  "type User \x7b posts: [Post] @sql(relation: \"hasMany\") \x7d type Post { id: ID } type Query { users: [User] }"

/-- The table of a relation's target is set twice after the relation is there, among settings in two orders. -/
theorem answers_follow_last_settings_posts :
    ∃ schema, Schema.parse postsText = .ok schema ∧
      ((ofSchema schema .postgres).setAll
          [.table "Post" "entries", .column "Post" "id" "key", .table "Post" "articles", .plural true]).relation?
          "User" "posts" =
        some { kind := .hasMany, table := "articles", sourceColumn := "id", targetColumn := "user_id" } ∧
      ((ofSchema schema .postgres).setAll
          [.table "Post" "entries", .column "Post" "id" "key", .table "Post" "articles", .plural true]).Agrees
        ((ofSchema schema .postgres).setAll
          [.plural true, .table "Post" "entries", .table "Post" "articles", .column "Post" "id" "key"]) := by
  let settings : List Setting :=
    [.table "Post" "entries", .column "Post" "id" "key", .table "Post" "articles", .plural true]
  let settings' : List Setting :=
    [.plural true, .table "Post" "entries", .table "Post" "articles", .column "Post" "id" "key"]
  have hlast : ∀ key, last? settings key = last? settings' key := by
    intro key
    cases key <;> simp [settings, settings', last?, Setting.key, List.find?_cons]
  have hdots : ∀ setting ∈ settings, setting.DotFree := by simp [settings, Setting.DotFree]
  have hdots' : ∀ setting ∈ settings', setting.DotFree := by simp [settings', Setting.DotFree]
  have hjoin : (Schema.parse postsText).toOption.map
        (fun schema => ((ofSchema schema .postgres).setAll settings).relation? "User" "posts") =
      some (some { kind := .hasMany, table := "articles", sourceColumn := "id", targetColumn := "user_id" }) := by
    decide +kernel
  cases hparse : Schema.parse postsText with
  | error error => rw [hparse] at hjoin; cases hjoin
  | ok schema =>
    rw [hparse] at hjoin
    obtain ⟨-, hagrees, -⟩ := answers_follow_last_settings hparse rfl .postgres hdots
    exact ⟨schema, rfl, Option.some.inj hjoin, hagrees settings' hdots' hlast⟩

end Builder

end Mapping

end RelationalGraphQL
