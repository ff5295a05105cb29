import RelationalGraphQL.Proofs.Execution.ErrorPath

/-!
# The shape of a response

What is executed has the shape of what was selected, whatever the resolvers return and whatever ends the request.
`Shaped` says so of an object: it has the keys of the fields that apply to the type of its value, in the order of the
selection, and the name of that type behind them if it was asked for. What stands at a key is said by `Answered`, down to
the value that the resolver returned in the session it was called in, and `Completed` follows such a value: lists stay
lists, element by element, and objects are executed again.
-/

namespace RelationalGraphQL.Execution

open Selection (asks)

/-- Whether a value is written as a leaf: it is neither null nor a list, and nothing is selected on it. -/
def isLeaf (selections : Option SelectionSet) : Json → Bool
  | .null | .arr _ => false
  | .obj _ => selections.isNone
  | .bool _ | .num _ | .str _ => true

/-- The fields of a selection set that apply to the type of a value. -/
def applying (schema : Schema) (fields : List SelectedField) (declared : String) (parent : Json) : List SelectedField :=
  fields.filter (applies schema (runtimeType schema declared parent))

/-- The entry for the name of the type of a value, if it is asked for. -/
def typenameEntry (schema : Schema) (typename : Bool) (declared : String) (parent : Json) : List (String × Json) :=
  if typename then [("__typename", .str (runtimeType schema declared parent))] else []

section

variable (schema : Schema) (host : Host Session) (operationName : Option String)

mutual

/-- The result of a selection set on a value of a declared type, between two sessions. Its keys are those of the fields
that apply, in order, and the name of the type comes last. Each field is answered in the session that the one before it
left. -/
inductive Shaped : SelectionSet → String → Json → Path → Session → Json → Session → Prop where
  | intro {fields : List SelectedField} {typename : Bool} {declared : String} {parent : Json} {path : Path}
      {entries : List (String × Json)} {sessions : Nat → Session}
      (hkeys : entries.map Prod.fst = (applying schema fields declared parent).map SelectedField.responseKey)
      (hvalues : ∀ (place : Nat) (field : SelectedField) (entry : String × Json),
        (applying schema fields declared parent)[place]? = some field → entries[place]? = some entry →
          Answered field (runtimeType schema declared parent) parent (path.withKey entry.1) (sessions place) entry.2
            (sessions (place + 1))) :
      Shaped ⟨fields, typename⟩ declared parent path (sessions 0)
        (.obj (entries ++ typenameEntry schema typename declared parent)) (sessions entries.length)

/-- What stands at the key of a field: null if the field failed, also because the request ended; what the schema says of
itself; or what becomes of the value that was resolved. -/
inductive Answered : SelectedField → String → Json → Path → Session → Json → Session → Prop where
  | failed {field : SelectedField} {parentType : String} {parent : Json} {path : Path} {session : Session}
      {error : ExecutionError}
      (hfailed : (attempt schema host operationName field parentType parent path session).resolution = .error error) :
      Answered field parentType parent path session .null
        (attempt schema host operationName field parentType parent path session).state
  | described {field : SelectedField} {parentType : String} {parent : Json} {path : Path} {session : Session}
      {value : Json}
      (hdescribed : (attempt schema host operationName field parentType parent path session).resolution = .ok value)
      (htype : (attempt schema host operationName field parentType parent path session).type = none) :
      Answered field parentType parent path session value
        (attempt schema host operationName field parentType parent path session).state
  | resolved {field : SelectedField} {parentType : String} {parent : Json} {path : Path} {session later : Session}
      {raw value : Json} {type : TypeRef}
      (hresolved : (attempt schema host operationName field parentType parent path session).resolution = .ok raw)
      (htype : (attempt schema host operationName field parentType parent path session).type = some type)
      (hcompleted : Completed field.selections type path
        (attempt schema host operationName field parentType parent path session).state raw value later) :
      Answered field parentType parent path session value later

/-- What becomes of a resolved value. A list becomes a list of the same length, each element from the one in its place,
and so do the lists in it. -/
inductive Completed : Option SelectionSet → TypeRef → Path → Session → Json → Json → Session → Prop where
  | null {selections : Option SelectionSet} {type : TypeRef} {path : Path} {session : Session} :
      Completed selections type path session .null .null session
  | list {selections : Option SelectionSet} {type : TypeRef} {path : Path} {items completed : List Json}
      {sessions : Nat → Session} (hlength : completed.length = items.length)
      (hitems : ∀ (place : Nat) (item value : Json), items[place]? = some item → completed[place]? = some value →
        Completed selections type.itemType (path.withIndex place) (sessions place) item value (sessions (place + 1))) :
      Completed selections type path (sessions 0) (.arr items) (.arr completed) (sessions items.length)
  | object {set : SelectionSet} {type : TypeRef} {path : Path} {entries : List (String × Json)} {value : Json}
      {session later : Session} (hshaped : Shaped set type.namedType (.obj entries) path session value later) :
      Completed (some set) type path session (.obj entries) value later
  | leaf {selections : Option SelectionSet} {type : TypeRef} {path : Path} {session : Session} {raw : Json}
      (hleaf : isLeaf selections raw) :
      Completed selections type path session raw (written (serializeLeaf schema type.namedType raw)) session

end

/-- Whether a selection set, executed anywhere, gives an object of its shape. -/
def ShapesAll (set : SelectionSet) : Prop := ∀ declared parent path session,
  let outcome := executeSelections schema host operationName set declared parent path session
  Shaped schema host operationName set declared parent path session outcome.result outcome.state

end

def withFirst (first : Session) (sessions : Nat → Session) : Nat → Session
  | 0 => first
  | place + 1 => sessions place

variable {schema : Schema} {host : Host Session} {operationName : Option String}

mutual

theorem complete_completed {selections : Option SelectionSet}
    (hbelow : ∀ set ∈ selections, ShapesAll schema host operationName set) (position : Document.Position)
    (type : TypeRef) (path : Path) (session : Session) : ∀ raw,
    let outcome := complete schema (below schema host operationName selections) position type path session raw
    Completed schema host operationName selections type path session raw (written outcome.result) outcome.state
  | .null => .null
  | .bool _ | .num _ | .str _ => .leaf rfl
  | .obj entries => by
    cases selections with
    | none => exact .leaf rfl
    | some set => exact .object (hbelow set rfl type.namedType (.obj entries) path session)
  | .arr items => by
    obtain ⟨sessions, hlength, hstart, hend, hitems⟩ :=
      completeItems_completed hbelow position type.itemType path 0 session items
    simp only [Nat.zero_add] at hitems
    have hlist : Completed schema host operationName selections type path _ _ _ _ := .list hlength hitems
    rw [hstart, hend] at hlist
    exact hlist

theorem completeItems_completed {selections : Option SelectionSet}
    (hbelow : ∀ set ∈ selections, ShapesAll schema host operationName set) (position : Document.Position)
    (type : TypeRef) (path : Path) (start : Nat) (session : Session) : ∀ items,
    let outcome := completeItems schema (below schema host operationName selections) position type path start session
      items
    ∃ sessions : Nat → Session, outcome.result.length = items.length ∧ sessions 0 = session ∧
      sessions items.length = outcome.state ∧
      ∀ (place : Nat) (item value : Json), items[place]? = some item → outcome.result[place]? = some value →
        Completed schema host operationName selections type (path.withIndex (start + place)) (sessions place) item value
          (sessions (place + 1))
  | [] => ⟨fun _ => session, rfl, rfl, rfl, by simp⟩
  | item :: items => by
    have hfirst := complete_completed hbelow position type (path.withIndex start) session item
    obtain ⟨sessions, hlength, hstart, hend, hrest⟩ := completeItems_completed hbelow position type path (start + 1)
      (complete schema (below schema host operationName selections) position type (path.withIndex start) session
        item).state items
    rw [completeItems_cons]
    refine ⟨withFirst session sessions, congrArg Nat.succ hlength, rfl, hend, fun place other value hother hvalue => ?_⟩
    cases place with
    | zero =>
      cases hother
      cases hvalue
      have hnext : withFirst session sessions (0 + 1) = _ := hstart
      rw [hnext]
      exact hfirst
    | succ place =>
      have hvalue := hrest place other value hother hvalue
      rwa [Nat.add_assoc, Nat.add_comm 1] at hvalue

end

theorem executeOne_answered {field : SelectedField}
    (hbelow : ∀ set ∈ field.selections, ShapesAll schema host operationName set) (parentType : String) (parent : Json)
    (path : Path) (session : Session) :
    let outcome := executeOne schema host operationName field parentType parent path session
    Answered schema host operationName field parentType parent path session (written outcome.result) outcome.state := by
  rw [executeOne_eq]
  cases hresolution : (attempt schema host operationName field parentType parent path session).resolution with
  | error error =>
    simp only [Attempt.finish, hresolution]
    exact .failed hresolution
  | ok raw =>
    cases htype : (attempt schema host operationName field parentType parent path session).type with
    | none =>
      simp only [Attempt.finish, hresolution, htype]
      exact .described hresolution htype
    | some type =>
      simp only [Attempt.finish, hresolution, htype]
      exact .resolved hresolution htype (complete_completed hbelow field.position type path _ raw)

/-- The fields that apply are answered one after another. -/
theorem executeFields_answered {fields : List SelectedField}
    (hbelow : ∀ field ∈ fields, ∀ set ∈ field.selections, ShapesAll schema host operationName set) (type : String)
    (parent : Json) (path : Path) (session : Session) :
    let outcome := executeFields schema host operationName fields type parent path session
    ∃ sessions : Nat → Session,
      outcome.result.map Prod.fst = (fields.filter (applies schema type)).map SelectedField.responseKey ∧
      sessions 0 = session ∧ sessions outcome.result.length = outcome.state ∧
      ∀ (place : Nat) (field : SelectedField) (entry : String × Json),
        (fields.filter (applies schema type))[place]? = some field → outcome.result[place]? = some entry →
          Answered schema host operationName field type parent (path.withKey entry.1) (sessions place) entry.2
            (sessions (place + 1)) := by
  induction fields generalizing session with
  | nil => exact ⟨fun _ => session, rfl, rfl, rfl, by simp⟩
  | cons field rest ih =>
    have hrest := fun other hother => hbelow other (List.mem_cons_of_mem _ hother)
    by_cases happlies : applies schema type field
    · have hfirst := executeOne_answered (hbelow field List.mem_cons_self) type parent
        (path.withKey field.responseKey) session
      obtain ⟨sessions, hkeys, hstart, hend, hvalues⟩ := ih hrest
        (executeOne schema host operationName field type parent (path.withKey field.responseKey) session).state
      rw [executeFields_cons happlies, List.filter_cons_of_pos happlies]
      refine ⟨withFirst session sessions, congrArg (field.responseKey :: ·) hkeys, rfl, hend,
        fun place other entry hother hentry => ?_⟩
      cases place with
      | zero =>
        cases hother
        cases hentry
        have hnext : withFirst session sessions (0 + 1) = _ := hstart
        rw [hnext]
        exact hfirst
      | succ place => exact hvalues place other entry hother hentry
    · rw [executeFields, if_neg happlies, List.filter_cons_of_neg happlies]
      exact ih hrest session

/-- The name of the type comes behind all fields, unless one of them has its response key. -/
theorem entries_with_typename {fields : List SelectedField} {entries : List (String × Json)} {declared : String}
    {parent : Json}
    (hkeys : entries.map Prod.fst = (applying schema fields declared parent).map SelectedField.responseKey)
    (hnames : "__typename" ∉ fields.map SelectedField.responseKey) (typename : Bool) :
    (if typename then Table.insert "__typename" (.str (runtimeType schema declared parent)) entries else entries) =
      entries ++ typenameEntry schema typename declared parent := by
  cases typename with
  | false => exact (List.append_nil entries).symm
  | true =>
    have hsublist : (applying schema fields declared parent).Sublist fields := List.filter_sublist
    have habsent : "__typename" ∉ entries.map Prod.fst := by
      rw [hkeys]
      exact fun hmem => hnames ((hsublist.map SelectedField.responseKey).subset hmem)
    exact Table.insert_of_notMem habsent _

theorem executeSelections_shaped {set : SelectionSet}
    (hlevels : Selection.Levels (fun keys => "__typename" ∉ keys) set) : ShapesAll schema host operationName set := by
  induction hlevels with
  | @intro fields typename hnames _ ih =>
    intro declared parent path session
    obtain ⟨sessions, hkeys, hstart, hend, hvalues⟩ :=
      executeFields_answered ih (runtimeType schema declared parent) parent path session
    have hshaped : Shaped schema host operationName ⟨fields, typename⟩ declared parent path _ _ _ :=
      .intro hkeys hvalues
    rw [executeSelections, entries_with_typename hkeys hnames]
    rw [hstart, hend] at hshaped
    exact hshaped

/-- The data of a response have the shape of the selection, if no field has the response key `__typename`. On every
level an object has exactly the keys of the fields that apply to the type of its value, in the order in which they were
collected, and a field that failed or was cut off has its key too; the name of the type is last, where it was asked for.
Every list that was resolved has its length, at every depth, and its elements in their places. -/
theorem data_shaped (executor : Executor) (request : Request) (operation : PreparedOperation)
    (hnames : Selection.Levels (fun keys => "__typename" ∉ keys) operation.selection) (session : Session) :
    let outcome := executor.executeOperation request operation session
    ∃ data, outcome.1.data = some data ∧
      Shaped executor.schema (executor.host request.extensions) operation.name operation.selection operation.rootType
        request.rootValue .root session data outcome.2 :=
  ⟨_, rfl, executeSelections_shaped hnames operation.rootType request.rootValue .root session⟩

/-- Books and films, of which one has no length, and their number after a while. -/
def collection : Executor where
  schema :=
    { queryType := some "Query"
      unions := [("Item", { name := "Item", members := ["Book", "Film"] })]
      objects :=
        [("Query", { name := "Query"
                     fields := ("items", { name := "items", type := .list (.named "Item") }) :: texts ["count"] }),
         ("Book", { name := "Book", fields := texts ["title"] }),
         ("Film", { name := "Film", fields := texts ["length"] })] }
  resolvers :=
    [(("Query", "items"), fun _ _ => .done (.ok (.arr
        [.obj [("__typename", .str "Film")], .obj [("__typename", .str "Book"), ("title", .str "Logic")], .null]))),
     (("Film", "length"), fun _ _ => .done (.error (.resolver "no length"))),
     (("Query", "count"), waiting 5 (.str "three"))]

def onCollection : PreparedOperation where
  name := none
  kind := .query
  rootType := "Query"
  selection := Selection.collect { schema := collection.schema } "Query"
    [asks "items" [asks "__typename" [], .inline (some "Book") [] [asks "title" []],
      .inline (some "Film") [] [asks "length" []]], asks "count" []]

theorem onCollection_keys : Selection.Levels (fun keys => "__typename" ∉ keys) onCollection.selection := by
  let leaf (name : String) (typeCondition : Option String) : SelectedField :=
    { name, aliasName := none, arguments := [], directives := [], typeCondition, position := {}, selections := none }
  let below : SelectionSet := ⟨[leaf "title" (some "Book"), leaf "length" (some "Film")], true⟩
  have hbelow : Selection.Levels (fun keys => "__typename" ∉ keys) below := .intro (by decide) (by simp [leaf])
  have hselection : onCollection.selection =
      ⟨[{ leaf "items" none with selections := some below }, leaf "count" none], false⟩ := rfl
  rw [hselection]
  exact .intro (by decide) (by simp [leaf, hbelow])

/-- Each item has the fields of its own type and the name of that type; a film has no length, and the deadline passes
after it. -/
theorem data_shaped_collection :
    let session : Session := { limits := { deadline := some 3 } }
    let outcome := collection.executeOperation { query := "" } onCollection session
    let data : Json := .obj
      [("items", .arr [.obj [("length", .null), ("__typename", .str "Film")],
        .obj [("title", .str "Logic"), ("__typename", .str "Book")], .null]), ("count", .null)]
    outcome.1.data = some data ∧
      Shaped collection.schema (collection.host []) none onCollection.selection "Query" .null .root session data
        outcome.2 := by
  intro session outcome data
  have hdata : outcome.1.data = some data := by decide +kernel
  obtain ⟨found, hfound, hshaped⟩ := data_shaped collection { query := "" } onCollection onCollection_keys session
  obtain rfl : data = found := Option.some.inj (hdata.symm.trans hfound)
  exact ⟨hdata, hshaped⟩

end RelationalGraphQL.Execution
