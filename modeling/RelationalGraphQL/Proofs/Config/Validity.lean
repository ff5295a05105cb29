import RelationalGraphQL.Config.Validity
import RelationalGraphQL.Proofs.Mapping.Qualified

/-!
# Valid configurations

The rules of a configuration are checked before it is used, and what is made of it relies on them (`Valid`). Every key
has one dot, so cutting it at the first dot gives a type and a field without dots; a configured join has a link table
exactly if it is many-to-many; and only the dialect can still keep the configuration from giving a mapping
(`valid_config_gives_mapping`).
-/

namespace RelationalGraphQL

open Arguments (except_bind_eq_ok)
open Mapping (DotFree keyField keyType)

/-! ### Checks in turn -/

theorem check_bind_eq_ok {ε β : Type} {check : Except ε Unit} {rest : Unit → Except ε β} {result : β} :
    check >>= rest = .ok result ↔ check = .ok () ∧ rest () = .ok result := by
  rw [except_bind_eq_ok]
  constructor
  · intro ⟨(), hcheck, hrest⟩
    exact ⟨hcheck, hrest⟩
  · intro ⟨hcheck, hrest⟩
    exact ⟨(), hcheck, hrest⟩

theorem forM_eq_ok {ε α : Type} {check : α → Except ε Unit} {items : List α} :
    items.forM check = .ok () ↔ ∀ item ∈ items, check item = .ok () := by
  rw [List.forM_eq_forM]
  induction items with
  | nil => simp [pure, Except.pure]
  | cons item items ih => rw [List.forM_cons, check_bind_eq_ok, List.forall_mem_cons, ih]

namespace Config

variable {key : String} {config : Config}

/-! ### Rules -/

/-- What the use of a configuration relies on. -/
structure Valid (config : Config) : Prop where
  fields : ∀ entry ∈ config.fields, isFieldKey entry.1
  relations : ∀ entry ∈ config.relations, isFieldKey entry.1 ∧ (entry.2.link.isSome ↔ entry.2.kind = .manyToMany)

theorem isFieldKey_of_checkFieldKey (hcheck : checkFieldKey key = .ok ()) : isFieldKey key := by
  unfold checkFieldKey at hcheck
  split at hcheck
  · assumption
  · cases hcheck

theorem link_of_checkLink {relation : Relation} (hcheck : checkLink key relation = .ok ()) :
    relation.link.isSome ↔ relation.kind = .manyToMany := by
  unfold checkLink at hcheck
  split at hcheck
  · cases hcheck
  · rename_i hkind hlink
    simp [hkind, hlink]
  · cases hcheck
  · rename_i hkind hlink
    simp_all

theorem valid_of_validated (hvalid : config.validated = .ok config) : config.Valid := by
  have hpasses {path : String} {checked : Except Violation Unit} (hnone : problemAt path checked = []) :
      checked = .ok () := by
    unfold problemAt at hnone
    split at hnone
    · rfl
    · cases hnone
  have hproblems : config.problems = [] := by
    unfold validated at hvalid
    split at hvalid
    · exact List.isEmpty_iff.1 ‹_›
    · cases hvalid
  simp only [problems, List.append_eq_nil_iff] at hproblems
  obtain ⟨⟨⟨-, hfields⟩, -⟩, hrelations⟩ := hproblems
  constructor
  · intro entry hentry
    have hfield := forM_eq_ok.1 (hpasses hfields) entry hentry
    exact isFieldKey_of_checkFieldKey (check_bind_eq_ok.1 hfield).1
  · intro entry hentry
    have hrelation := forM_eq_ok.1 (hpasses hrelations) entry hentry
    simp only [checkRelation, check_bind_eq_ok] at hrelation
    obtain ⟨hkey, -, -, -, hlink⟩ := hrelation
    exact ⟨isFieldKey_of_checkFieldKey hkey, link_of_checkLink hlink⟩

/-! ### Keys -/

/-- The keys of all configured fields. -/
def fieldKeys (config : Config) : List String := config.fields.map Prod.fst ++ config.relations.map Prod.fst

theorem Valid.isFieldKey (hvalid : config.Valid) : ∀ key ∈ config.fieldKeys, isFieldKey key := by
  intro key hkey
  rcases List.mem_append.1 hkey with hkey | hkey
  · obtain ⟨entry, hentry, rfl⟩ := List.mem_map.1 hkey
    exact hvalid.fields entry hentry
  · obtain ⟨entry, hentry, rfl⟩ := List.mem_map.1 hkey
    exact (hvalid.relations entry hentry).1

theorem count_dot_of_isFieldKey (hkey : isFieldKey key) : key.toList.count '.' = 1 := by
  have hlength := Sql.length_splitOn '.' key.toList
  unfold RelationalGraphQL.isFieldKey at hkey
  split at hkey
  · rename_i hpieces
    rw [hpieces] at hlength
    simpa using hlength.symm
  · cases hkey

theorem mem_dot_of_isFieldKey (hkey : isFieldKey key) : '.' ∈ key.toList := by
  apply List.count_pos_iff.1
  have hcount := count_dot_of_isFieldKey hkey
  omega

theorem keyField_dotFree (hkey : isFieldKey key) : DotFree (keyField key) := by
  have hcount := count_dot_of_isFieldKey hkey
  rw [← Mapping.fieldKey_keyType_keyField (mem_dot_of_isFieldKey hkey), Mapping.toList_fieldKey, List.count_append,
    List.count_cons_self] at hcount
  apply List.count_eq_zero.1
  omega

theorem eq_of_splitFieldKey_eq {part part' other : String} (hkey : isFieldKey key) (hother : isFieldKey other)
    (hsplit : splitFieldKey part key = splitFieldKey part' other) : key = other := by
  have hdot := mem_dot_of_isFieldKey hkey
  have hdot' := mem_dot_of_isFieldKey hother
  rw [splitFieldKey_eq_ok.2 ⟨hdot, rfl⟩, splitFieldKey_eq_ok.2 ⟨hdot', rfl⟩] at hsplit
  obtain ⟨htype, hfield⟩ := Prod.mk.inj (Except.ok.inj hsplit)
  rw [← Mapping.fieldKey_keyType_keyField hdot, htype, hfield, Mapping.fieldKey_keyType_keyField hdot']

theorem Valid.dots (hvalid : config.Valid) :
    (∀ entry ∈ config.fields, '.' ∈ entry.1.toList) ∧ ∀ entry ∈ config.relations, '.' ∈ entry.1.toList :=
  ⟨fun entry hentry => mem_dot_of_isFieldKey (hvalid.fields entry hentry),
    fun entry hentry => mem_dot_of_isFieldKey (hvalid.relations entry hentry).1⟩

end Config

namespace Mapping

open Config (fieldKeys splitFieldKey)

/-! ### Configured joins -/

def Setting.join? : Setting → Option (String × Relation)
  | .join typeName fieldName relation => some (fieldKey typeName fieldName, relation)
  | _ => none

theorem relations_settled (schema : Schema) (dialect : Sql.Dialect) (settings : List Setting) :
    (settled schema dialect settings).relations = Table.ofList (settings.filterMap Setting.join?) := by
  induction settings using List.reverseRecOn with
  | nil => rfl
  | append_singleton settings setting ih =>
    rw [settled_concat, List.filterMap_append]
    cases setting with
    | join typeName fieldName relation =>
      show Table.insert _ _ _ = Table.ofList (_ ++ [_])
      rw [ih, Table.ofList_concat]
    | _ =>
      show (settled schema dialect settings).relations = Table.ofList (_ ++ [])
      rw [ih, List.append_nil]

theorem entries_plainSettings {config : Config} (hdots : ∀ entry ∈ config.relations, '.' ∈ entry.1.toList) :
    config.plainSettings.filterMap Setting.join? = config.relations.map fun (key, relation) => (key, relation.toMapping) := by
  have hnone {α : Type} {entries : List α} {make : α → Setting} (hmake : ∀ entry, (make entry).join? = none) :
      (entries.map make).filterMap Setting.join? = [] := by
    rw [List.filterMap_map, List.filterMap_eq_nil_iff]
    exact fun entry _ => hmake entry
  unfold Config.plainSettings
  rw [List.filterMap_append, List.filterMap_append, List.filterMap_cons_none rfl, hnone (fun _ => rfl),
    hnone (fun _ => rfl), List.filterMap_map, List.nil_append, List.nil_append, ← List.filterMap_eq_map]
  apply List.filterMap_congr
  intro entry hentry
  show some (fieldKey _ _, _) = some _
  rw [fieldKey_keyType_keyField (hdots entry hentry)]

namespace Builder

theorem ofConfig_eq_error {schema : Schema} {config : Config} (hvalid : config.Valid) {error : ConfigError} :
    ofConfig schema config = .error error ↔
      Sql.Dialect.ofName? config.dialect = none ∧ error = .unsupportedDialect config.dialect := by
  have hsettings := Config.settings_eq_ok.2 ⟨hvalid.dots, rfl⟩
  unfold ofConfig Config.sqlDialect
  cases hdialect : Sql.Dialect.ofName? config.dialect with
  | none =>
    show Except.error _ = _ ↔ _
    simp [eq_comm]
  | some dialect =>
    rw [hsettings]
    show Except.ok _ = _ ↔ _
    simp

/-- A configuration that passes validation gives a mapping of every schema unless its dialect is unknown. Its keys cut
at their only dot into a type and a field that tell the key, and its joins, which the mapping keeps under their keys,
have a link table exactly if they are many-to-many. -/
theorem valid_config_gives_mapping {config : Config} (hvalid : config.validated = .ok config) (schema : Schema) :
    (∀ error, ofConfig schema config = .error error ↔
      Sql.Dialect.ofName? config.dialect = none ∧ error = .unsupportedDialect config.dialect) ∧
    (∀ key ∈ config.fieldKeys, key.toList.count '.' = 1 ∧
      ∀ part, ∃ typeName fieldName, splitFieldKey part key = .ok (typeName, fieldName) ∧
        DotFree typeName ∧ DotFree fieldName ∧ fieldKey typeName fieldName = key) ∧
    (∀ key ∈ config.fieldKeys, ∀ other ∈ config.fieldKeys, ∀ part part',
      splitFieldKey part key = splitFieldKey part' other → key = other) ∧
    (∀ entry ∈ config.relations, entry.2.link.isSome ↔ entry.2.kind = .manyToMany) ∧
    ∀ builder, ofConfig schema config = .ok builder →
      builder.mapping.relations = Table.ofList (config.relations.map fun (key, relation) => (key, relation.toMapping)) ∧
      ∀ entry ∈ builder.mapping.relations, entry.2.link.isSome ↔ entry.2.kind = .manyToMany := by
  replace hvalid := Config.valid_of_validated hvalid
  refine ⟨fun error => ofConfig_eq_error hvalid, ?_, ?_, ?_, ?_⟩
  · intro key hkey
    have hfieldKey := hvalid.isFieldKey key hkey
    have hdot := Config.mem_dot_of_isFieldKey hfieldKey
    refine ⟨Config.count_dot_of_isFieldKey hfieldKey, fun part => ?_⟩
    exact ⟨keyType key, keyField key, Config.splitFieldKey_eq_ok.2 ⟨hdot, rfl⟩, keyType_dotFree key,
      Config.keyField_dotFree hfieldKey, fieldKey_keyType_keyField hdot⟩
  · intro key hkey other hother part part' hsplit
    exact Config.eq_of_splitFieldKey_eq (hvalid.isFieldKey key hkey) (hvalid.isFieldKey other hother) hsplit
  · intro entry hentry
    exact (hvalid.relations entry hentry).2
  · intro builder hbuilder
    obtain ⟨-, dialect, -, rfl⟩ := ofConfig_eq_ok.1 hbuilder
    have hrelations := relations_settled schema dialect config.plainSettings
    rw [entries_plainSettings hvalid.dots.2] at hrelations
    refine ⟨hrelations, ?_⟩
    intro entry hentry
    rw [← settled, hrelations, Table.mem_ofList] at hentry
    obtain ⟨source, hsource, rfl⟩ := List.mem_map.1 hentry.mem
    exact (hvalid.relations source hsource).2

/-- The blog's relations give a mapping, one of them with a link table; in a dialect that is not known they do not. -/
theorem valid_config_gives_mapping_blog :
    Config.blog.validated = .ok Config.blog ∧
    (∃ builder, ofConfig userPosts.schema Config.blog = .ok builder ∧
      (builder.mapping.relations.map fun (key, relation) => (key, relation.link.isSome)) =
        [("User.posts", false), ("Post.author", false), ("Post.tags", true)]) ∧
    ofConfig userPosts.schema { Config.blog with dialect := "oracle" } = .error (.unsupportedDialect "oracle") := by
  have hvalid (config : Config) (hnone : config.problems.isEmpty) : config.validated = .ok config := if_pos hnone
  have hblog := hvalid Config.blog (by decide)
  have horacle := hvalid { Config.blog with dialect := "oracle" } (by decide)
  refine ⟨hblog, ?_, ((valid_config_gives_mapping horacle userPosts.schema).1 _).2 ⟨by decide, rfl⟩⟩
  obtain ⟨herror, -, -, -, hbuilders⟩ := valid_config_gives_mapping hblog userPosts.schema
  cases hbuilder : ofConfig userPosts.schema Config.blog with
  | error error => exact absurd ((herror error).1 hbuilder).1 (by decide)
  | ok builder =>
    refine ⟨builder, rfl, ?_⟩
    rw [(hbuilders builder hbuilder).1]
    decide

end Builder

end Mapping

end RelationalGraphQL
