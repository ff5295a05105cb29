import RelationalGraphQL.Proofs.Arguments.Acceptance
import RelationalGraphQL.Proofs.Mapping.Scope
import RelationalGraphQL.Proofs.Schema.WellFormed

/-!
# When a field is compiled

A SELECT reads the arguments of its field, and of each to-many relation that the selection reaches through to-one
relations. No other arguments are looked at, so these alone decide: the field is compiled exactly if they are
well-formed, and else refused for one of them that is not (`compiles_iff_well_formed`).
-/

namespace RelationalGraphQL.Mapping

open Arguments (Offending WellFormed readRowChoice readRowChoice_refusal run_bind_eq_error wellFormed_of_readRowChoice)
open Sql (Column)

/-! ### The arguments that are read -/

/-- The value of an argument: the one given, or the schema's default. -/
def supplied (mapping : Mapping) (owner : String) (field : SelectedField) (name : String) : Option Json :=
  (field.arguments.lookup name).or
    ((mapping.schema.field? owner field.name).bind fun definition =>
      definition.arguments.findSome? fun argument => if argument.name = name then argument.default else none)

theorem lookup_argumentsWithDefaults (mapping : Mapping) (owner : String) (field : SelectedField) (name : String) :
    (argumentsWithDefaults mapping owner field).lookup name = supplied mapping owner field name := by
  unfold argumentsWithDefaults supplied
  cases mapping.schema.field? owner field.name with
  | none => simp
  | some definition =>
    rw [Option.bind_some]
    dsimp only
    generalize field.arguments = given, definition.arguments = declared
    induction declared generalizing given with
    | nil => simp
    | cons argument rest ih =>
      rw [List.foldl_cons, ih, List.findSome?_cons]
      cases argument.default with
      | none => simp
      | some value =>
        dsimp only
        rw [Table.lookup_insertNew, Option.or_assoc]
        by_cases hname : name = argument.name
        · simp [hname]
        · simp [hname, Ne.symm hname]

/-- The to-many relations whose arguments are read for a field of a type, each with the type it is a field of. -/
inductive Asks (mapping : Mapping) : String → SelectedField → String → SelectedField → Prop where
  | toMany {typeName : String} {field : SelectedField} {relation : Relation} {set : SelectionSet}
      (hrelation : mapping.relation? typeName field.name = some relation) (hmany : relation.kind.isToMany)
      (hset : field.selections = some set) : Asks mapping typeName field typeName field
  | toOne {typeName owner : String} {field child asked : SelectedField} {relation : Relation} {set : SelectionSet}
      (hrelation : mapping.relation? typeName field.name = some relation) (hone : relation.kind.isToMany = false)
      (hset : field.selections = some set) (hchild : child ∈ set.fields)
      (hasks : Asks mapping (targetType mapping typeName field.name) child owner asked) :
      Asks mapping typeName field owner asked

/-- The fields whose arguments a SELECT reads. -/
inductive Asked (mapping : Mapping) (parentType : String) (type : TypeRef) (field : SelectedField) :
    String → SelectedField → Prop where
  | root : Asked mapping parentType type field parentType field
  | below {child asked : SelectedField} {owner : String} (hchild : child ∈ field.children)
      (hasks : Asks mapping type.namedType child owner asked) : Asked mapping parentType type field owner asked

/-- Integers have at most 64 bits, as their readers leave them. -/
def Sized (given : String → Option Json) : Prop :=
  ∀ name n, given name = some (.num (.int n)) → n < UInt64.bound

/-- An error that names an argument, and the argument is not well-formed. -/
def Blames (given : String → Option Json) (e : ConversionError) : Prop :=
  ∃ name message, Offending given name ∧ e = .invalidArgument name message

theorem not_wellFormed_of_blames {given : String → Option Json} {e : ConversionError} (hblames : Blames given e) :
    ¬WellFormed given := by
  obtain ⟨name, message, ⟨shape, value, hchooses, hvalue, hfits⟩, -⟩ := hblames
  exact fun hformed => hfits (hformed shape name value hchooses hvalue)

/-! ### Reading and refusing -/

section

variable {mapping : Mapping} {parentType : String} {field : SelectedField} {column : String → Column} {draft : Draft}
  {e : ConversionError}

theorem wellFormed_of_read {result : Arguments.RowChoice Column × Sql.Parameters} {bound : Sql.Parameters}
    (hread : (readRowChoice (argumentsWithDefaults mapping parentType field) column).run bound = .ok result)
    (hsized : Sized (supplied mapping parentType field)) : WellFormed (supplied mapping parentType field) := by
  have hsupplied := funext (lookup_argumentsWithDefaults mapping parentType field)
  rw [← hsupplied] at hsized ⊢
  exact wellFormed_of_readRowChoice hread hsized

theorem rowChoice_blames (hpages : mapping.dialect.supports .limitOffset)
    (hrun : (rowChoice mapping parentType field column).run draft = .error e) :
    Blames (supplied mapping parentType field) e := by
  have hread : (readRowChoice (argumentsWithDefaults mapping parentType field) column).run draft.parameters =
      .error e := by
    unfold rowChoice at hrun
    rcases run_bind_eq_error.1 hrun with hlowering | ⟨choice, middle, -, hchoice⟩
    · rw [StateT.run, lowering] at hlowering
      split at hlowering
      · cases hlowering
      · rename_i error herror
        cases hlowering
        exact herror
    · rw [if_neg (by simp [hpages])] at hchoice
      cases hchoice
  obtain ⟨name, hoffending, message, rfl⟩ := readRowChoice_refusal hread
  rw [funext (lookup_argumentsWithDefaults mapping parentType field)] at hoffending
  exact ⟨name, message, hoffending, rfl⟩

theorem lateralJoin_blames {parent target : Source} {relation : Relation} {children : List SelectedField}
    (hpages : mapping.dialect.supports .limitOffset)
    (hrun : (lateralJoin mapping parent field relation target children).run draft = .error e) :
    Blames (supplied mapping parent.typeName field) e := by
  simp only [lateralJoin, run_bind_eq_error] at hrun
  rcases hrun with hleaves | ⟨_, _, -, hchoice | ⟨_, _, -, hjoin⟩⟩
  · cases hleaves.symm.trans (forM_addColumn_run.2 rfl)
  · exact rowChoice_blames hpages hchoice
  · cases hjoin

end

mutual

theorem addSelections_blames {mapping : Mapping} (hpages : mapping.dialect.supports .limitOffset) {joined : Bool}
    {source : Source} : ∀ (set : SelectionSet) {draft : Draft} {e : ConversionError},
      (addSelections mapping joined source set).run draft = .error e →
        ∃ child ∈ set.fields, ∃ owner asked, Asks mapping source.typeName child owner asked ∧
          Blames (supplied mapping owner asked) e
  | ⟨fields, _⟩, _, _, hrun => addFields_blames hpages fields hrun

theorem addFields_blames {mapping : Mapping} (hpages : mapping.dialect.supports .limitOffset) {joined : Bool}
    {source : Source} : ∀ (fields : List SelectedField) {draft : Draft} {e : ConversionError},
      (addFields mapping joined source fields).run draft = .error e →
        ∃ child ∈ fields, ∃ owner asked, Asks mapping source.typeName child owner asked ∧
          Blames (supplied mapping owner asked) e
  | [], _, _, hrun => by cases hrun
  | field :: rest, _, _, hrun => by
    simp only [addFields, run_bind_eq_error] at hrun
    rcases hrun with hfield | ⟨_, _, -, hrest⟩
    · exact ⟨field, List.mem_cons_self, addField_blames hpages field hfield⟩
    · obtain ⟨child, hchild, hasks⟩ := addFields_blames hpages rest hrest
      exact ⟨child, List.mem_cons_of_mem _ hchild, hasks⟩

theorem addField_blames {mapping : Mapping} (hpages : mapping.dialect.supports .limitOffset) {joined : Bool}
    {source : Source} : ∀ (field : SelectedField) {draft : Draft} {e : ConversionError},
      (addField mapping joined source field).run draft = .error e →
        ∃ owner asked, Asks mapping source.typeName field owner asked ∧ Blames (supplied mapping owner asked) e
  | ⟨name, _, _, _, _, _, selections⟩, draft, e, hrun => by
    unfold addField at hrun
    dsimp only at hrun
    split at hrun
    · cases hrun
    · rename_i relation set hrelation
      rcases run_bind_eq_error.1 hrun with halias | ⟨aliasName, middle, -, hrun⟩
      · cases halias
      · split at hrun
        · rename_i hlateral
          exact ⟨_, _, .toMany hrelation hlateral rfl, lateralJoin_blames hpages hrun⟩
        · rename_i hsingle
          rcases run_bind_eq_error.1 hrun with hjoin | ⟨_, _, -, hbelow⟩
          · cases hjoin
          · obtain ⟨child, hchild, owner, asked, hasks, hblames⟩ := addSelections_blames hpages set hbelow
            exact ⟨owner, asked, .toOne hrelation (Bool.eq_false_iff.2 hsingle) rfl hchild hasks, hblames⟩
    · split at hrun
      · cases hrun
      · cases hrun

end

/-- Of what a walk has passed, all arguments that were read are well-formed. -/
theorem Draft.Walk.wellFormed {mapping : Mapping} {joined : Bool} {source : Source} {fields : List SelectedField}
    {draft draft' : Draft} (hwalk : Draft.Walk mapping joined source fields draft draft') {child asked : SelectedField}
    {owner : String} (hchild : child ∈ fields) (hasks : Asks mapping source.typeName child owner asked)
    (hsized : Sized (supplied mapping owner asked)) : WellFormed (supplied mapping owner asked) := by
  induction hwalk generalizing child with
  | nil => cases hchild
  | skip hleaf hjoin _ ih =>
    rcases List.mem_cons.1 hchild with rfl | hchild
    · cases hasks <;> simp_all
    · exact ih hchild hasks
  | leaf hleaf _ ih =>
    rcases List.mem_cons.1 hchild with rfl | hchild
    · cases hasks <;> simp_all [isLeaf]
    · exact ih hchild hasks
  | single hrelation hsingle hset _ _ ihbelow ihrest =>
    rcases List.mem_cons.1 hchild with rfl | hchild
    · cases hasks with
      | toMany hrelation' hmany _ =>
        cases hrelation.symm.trans hrelation'
        cases hsingle.symm.trans hmany
      | toOne _ _ hset' hchild' hasks' =>
        cases hset.symm.trans hset'
        exact ihbelow hchild' hasks'
    · exact ihrest hchild hasks
  | lateral hrelation hlateral _ hread _ ih =>
    rcases List.mem_cons.1 hchild with rfl | hchild
    · cases hasks with
      | toMany => exact wellFormed_of_read hread hsized
      | toOne hrelation' hone _ _ _ =>
        cases hrelation.symm.trans hrelation'
        cases hone.symm.trans hlateral
    · exact ih hchild hasks

/-! ### Compiled fields -/

theorem isRowType_iff {mapping : Mapping} {typeName : String} :
    isRowType mapping typeName ↔
      (mapping.schema.object? typeName).isSome ∨ (mapping.schema.interface? typeName).isSome := by
  grind [isRowType, Schema.typeKind?]

section

variable {mapping : Mapping} {parentType : String} {type : TypeRef} {field : SelectedField}

/-- Nothing but the arguments can refuse a field with rows. -/
theorem compileSelect_blames (hdialect : mapping.dialect = .postgres) (hrow : isRowType mapping type.namedType)
    {e : ConversionError} (herror : compileSelect mapping parentType (some type) field = .error e) :
    ∃ owner asked, Asked mapping parentType type field owner asked ∧ Blames (supplied mapping owner asked) e := by
  -- the dialect has every capability, so only the draft can fail
  have hpages : mapping.dialect.supports .limitOffset := by rw [hdialect]; rfl
  have hbuilds : mapping.requireStatements = .ok () := requireStatements_eq_ok.2 (by rw [hdialect]; rfl)
  have hdraft : (draftSelect mapping (rootSource type.namedType) parentType field).run (rootDraft type.namedType) =
      .error e := by
    unfold compileSelect at herror
    dsimp only at herror
    rw [if_neg (by simpa using hrow), hbuilds] at herror
    change ((draftSelect mapping (rootSource type.namedType) parentType field).run (rootDraft type.namedType) >>= _) = _
      at herror
    cases hrun : (draftSelect mapping (rootSource type.namedType) parentType field).run (rootDraft type.namedType) with
    | error e =>
      rw [hrun] at herror
      cases herror
      rfl
    | ok drafted =>
      rw [hrun] at herror
      cases herror
  rw [draftSelect_eq] at hdraft
  rcases run_bind_eq_error.1 hdraft with hwalk | ⟨_, _, -, hchoice⟩
  · cases hselections : field.selections with
    | none =>
      rw [hselections] at hwalk
      cases hwalk
    | some set =>
      rw [hselections] at hwalk
      obtain ⟨child, hchild, owner, asked, hasks, hblames⟩ := addSelections_blames hpages set hwalk
      exact ⟨owner, asked, .below (by rwa [SelectedField.children, hselections]) hasks, hblames⟩
  · exact ⟨parentType, field, .root, rowChoice_blames hpages hchoice⟩

theorem wellFormed_of_compiled {result : SelectResult}
    (hcompiled : compileSelect mapping parentType (some type) field = .ok result) {owner : String}
    {asked : SelectedField} (hasked : Asked mapping parentType type field owner asked)
    (hsized : Sized (supplied mapping owner asked)) : WellFormed (supplied mapping owner asked) := by
  obtain ⟨typeName, draft, choice, hcompiled⟩ := compileSelect_eq_ok.1 hcompiled
  obtain rfl : type.namedType = typeName := Option.some.inj hcompiled.type
  cases hasked with
  | root => exact wellFormed_of_read hcompiled.read hsized
  | below hchild hasks => exact hcompiled.walk.wellFormed hchild hasks hsized

end

/-- A field is compiled exactly if its type has rows and all arguments that are read are well-formed. If the type has
rows and the field is refused, the error names an argument that is not well-formed. -/
theorem compiles_iff_well_formed {mapping : Mapping} (hdialect : mapping.dialect = .postgres) {parentType : String}
    {returnType : Option TypeRef} {field : SelectedField}
    (hsized : ∀ type ∈ returnType, ∀ owner asked, Asked mapping parentType type field owner asked →
      Sized (supplied mapping owner asked)) :
    let hasRows := fun type : TypeRef =>
      (mapping.schema.object? type.namedType).isSome ∨ (mapping.schema.interface? type.namedType).isSome
    ((∃ result, compileSelect mapping parentType returnType field = .ok result) ↔
      ∃ type, returnType = some type ∧ hasRows type ∧
        ∀ owner asked, Asked mapping parentType type field owner asked → WellFormed (supplied mapping owner asked)) ∧
    ∀ type e, returnType = some type → hasRows type → compileSelect mapping parentType returnType field = .error e →
      ∃ owner asked name message, Asked mapping parentType type field owner asked ∧
        Offending (supplied mapping owner asked) name ∧ e = .invalidArgument name message := by
  intro hasRows
  have hrefused : ∀ type e, returnType = some type → hasRows type →
      compileSelect mapping parentType returnType field = .error e →
      ∃ owner asked, Asked mapping parentType type field owner asked ∧ Blames (supplied mapping owner asked) e := by
    rintro type e rfl hrows herror
    exact compileSelect_blames hdialect (isRowType_iff.2 hrows) herror
  refine ⟨⟨?_, ?_⟩, ?_⟩
  · rintro ⟨result, hresult⟩
    obtain ⟨typeName, draft, choice, hcompiled⟩ := compileSelect_eq_ok.1 hresult
    obtain ⟨type, rfl, rfl⟩ := Option.map_eq_some_iff.1 hcompiled.type
    refine ⟨type, rfl, isRowType_iff.1 hcompiled.isRow, ?_⟩
    intro owner asked hasked
    exact wellFormed_of_compiled hresult hasked (hsized type rfl owner asked hasked)
  · rintro ⟨type, htype, hrows, hformed⟩
    cases hresult : compileSelect mapping parentType returnType field with
    | ok result => exact ⟨result, rfl⟩
    | error e =>
      obtain ⟨owner, asked, hasked, hblames⟩ := hrefused type e htype hrows hresult
      exact absurd (hformed owner asked hasked) (not_wellFormed_of_blames hblames)
  · intro type e htype hrows herror
    obtain ⟨owner, asked, hasked, name, message, hoffending, he⟩ := hrefused type e htype hrows herror
    exact ⟨owner, asked, name, message, hasked, hoffending, he⟩

def photos (limit : Int) : SelectedField := relationOf "photos" [("limit", .num (.int limit))] [leafField "url"]

/-- The photos of members' profiles, a to-many relation below a to-one relation. -/
def photosPage (limit : Int) : SelectedField := relationOf "users" [] [relationOf "profile" [] [photos limit]]

theorem photosPage_asked {limit : Int} {owner : String} {asked : SelectedField}
    (hasked : Asked members "Query" (.named "User") (photosPage limit) owner asked) :
    (owner = "Query" ∧ asked = photosPage limit) ∨ (owner = "Profile" ∧ asked = photos limit) := by
  cases hasked with
  | root => exact .inl ⟨rfl, rfl⟩
  | below hchild hasks =>
    obtain rfl := List.mem_singleton.1 hchild
    cases hasks with
    | toMany hrelation hmany _ =>
      cases hrelation
      cases hmany
    | toOne _ _ hset hchild hasks =>
      cases hset
      obtain rfl := List.mem_singleton.1 hchild
      cases hasks with
      | toMany => exact .inr ⟨rfl, rfl⟩
      | toOne hrelation hone _ _ _ =>
        cases hrelation
        cases hone

theorem photosPage_sized (limit : Int) (hlimit : limit < UInt64.bound) :
    ∀ type ∈ some (TypeRef.named "User"), ∀ owner asked,
      Asked members "Query" type (photosPage limit) owner asked → Sized (supplied members owner asked) := by
  rintro _ ⟨⟩ owner asked hasked name n hvalue
  rcases photosPage_asked hasked with ⟨rfl, rfl⟩ | ⟨rfl, rfl⟩
  · cases hvalue
  · have hsupplied : supplied members "Profile" (photos limit) name = [("limit", Json.num (.int limit))].lookup name :=
      Option.or_none
    by_cases hname : name = "limit"
    · subst hname
      cases hvalue
      exact hlimit
    · rw [hsupplied, Table.lookup_cons, if_neg hname] at hvalue
      cases hvalue

theorem compiles_iff_well_formed_photosPage :
    (∀ owner asked, Asked members "Query" (.named "User") (photosPage 3) owner asked →
      WellFormed (supplied members owner asked)) ∧
      ∃ owner asked name message, Asked members "Query" (.named "User") (photosPage (-1)) owner asked ∧
        Offending (supplied members owner asked) name ∧
        compileSelect members "Query" (some (.named "User")) (photosPage (-1)) =
          .error (.invalidArgument name message) := by
  constructor
  · obtain ⟨type, htype, -, hformed⟩ := (compiles_iff_well_formed rfl (photosPage_sized 3 (by decide))).1.1 ⟨_, rfl⟩
    cases htype
    exact hformed
  · obtain ⟨owner, asked, name, message, hasked, hoffending, he⟩ :=
      (compiles_iff_well_formed rfl (photosPage_sized (-1) (by decide))).2 (.named "User")
        (.invalidArgument "limit" "expected a non-negative integer") rfl (.inl rfl) rfl
    exact ⟨owner, asked, name, message, hasked, hoffending, he ▸ rfl⟩

end RelationalGraphQL.Mapping
