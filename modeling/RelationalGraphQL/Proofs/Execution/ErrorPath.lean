import RelationalGraphQL.Proofs.Execution.Interruption
import RelationalGraphQL.Proofs.Execution.Report
import Mathlib.Data.List.Nodup

/-!
# Every error points at a null

A field or an item that fails is null, and its one error has the path of that null. The errors stand in the order in
which their nulls are met in the data (`errors_point_at_nulls`). This asks that no field has the response key of the
type's name, since that name is written last and would replace the null.
-/

namespace RelationalGraphQL

/-! ### Places of a value -/

namespace Json

mutual

/-- The paths of all values in a value, depth first. -/
def places : Json → List Path
  | .arr items => [] :: itemPlaces 0 items
  | .obj entries => [] :: entryPlaces entries
  | .null | .bool _ | .num _ | .str _ => [[]]

def itemPlaces (place : Nat) : List Json → List Path
  | [] => []
  | item :: items => item.places.map (.index place :: ·) ++ itemPlaces (place + 1) items

def entryPlaces : List (String × Json) → List Path
  | [] => []
  | (key, value) :: rest => value.places.map (.key key :: ·) ++ entryPlaces rest

end

theorem entryPlaces_append (front back : List (String × Json)) :
    entryPlaces (front ++ back) = entryPlaces front ++ entryPlaces back := by
  induction front with
  | nil => rfl
  | cons entry rest ih => rw [List.cons_append, entryPlaces, entryPlaces, ih, List.append_assoc]

theorem at?_append (front back : Path) (value : Json) :
    value.at? (front ++ back) = (value.at? front).bind (at? back) := by
  induction front generalizing value with
  | nil => rfl
  | cons segment rest ih =>
    have hrest : at? (rest ++ back) = fun value => (at? rest value).bind (at? back) := funext ih
    cases segment with
    | key name => simp only [List.cons_append, at?, hrest, Option.bind_assoc]
    | index place => simp only [List.cons_append, at?, hrest, Option.bind_assoc]

theorem at?_null_cons (segment : PathSegment) (rest : Path) : Json.null.at? (segment :: rest) = none := by
  cases segment <;> rfl

end Json

namespace Execution

open Selection (asks)

variable {path : Path} {report : Report}

/-! ### Errors and nulls -/

/-- The errors of a report at a path have the paths of nulls in its value, below that path. They are all different and
in the order of the nulls. -/
structure Points (path : Path) (report : Report) (tails : List Path) : Prop where
  errors : report.errors.map ResponseError.path = tails.map fun tail => some (path ++ tail)
  nulls : ∀ tail ∈ tails, report.value.at? tail = some .null
  nodup : tails.Nodup
  ordered : tails.Sublist report.value.places

theorem Points.child {tails : List Path} {segment : PathSegment} (hpoints : Points (path ++ [segment]) report tails) :
    report.errors.map ResponseError.path = (tails.map (segment :: ·)).map fun tail => some (path ++ tail) := by
  rw [hpoints.errors, List.map_map]
  simp only [List.append_assoc, List.singleton_append, Function.comp_def]

/-- What is said of values in branches of their own, put together. -/
theorem children_point {children : List (PathSegment × Report)}
    (hsegments : (children.map Prod.fst).Nodup)
    (hchildren : ∀ child ∈ children, ∃ tails, Points (path ++ [child.1]) child.2 tails) :
    ∃ tails : List Path,
      (children.flatMap fun child => child.2.errors).map ResponseError.path = tails.map (fun tail => some (path ++ tail)) ∧
      (∀ tail ∈ tails, ∃ child ∈ children, ∃ rest, tail = child.1 :: rest ∧ child.2.value.at? rest = some .null) ∧
      tails.Nodup ∧ tails.Sublist (children.flatMap fun child => child.2.value.places.map (child.1 :: ·)) := by
  induction children with
  | nil => exact ⟨[], rfl, nofun, .nil, .slnil⟩
  | cons child rest ih =>
    obtain ⟨hnew, hsegments⟩ := List.nodup_cons.1 hsegments
    obtain ⟨own, hown⟩ := hchildren child List.mem_cons_self
    obtain ⟨others, hpaths, hnulls, hnodup, hordered⟩ :=
      ih hsegments fun other hother => hchildren other (List.mem_cons_of_mem _ hother)
    refine ⟨own.map (child.1 :: ·) ++ others, ?_, ?_, ?_, ?_⟩
    · rw [List.flatMap_cons, List.map_append, hown.child, hpaths, List.map_append]
    · intro tail htail
      rcases List.mem_append.1 htail with htail | htail
      · obtain ⟨inner, hinner, rfl⟩ := List.mem_map.1 htail
        exact ⟨child, List.mem_cons_self, inner, rfl, hown.nulls inner hinner⟩
      · obtain ⟨other, hother, hrest⟩ := hnulls tail htail
        exact ⟨other, List.mem_cons_of_mem _ hother, hrest⟩
    · refine List.nodup_append.2 ⟨List.Nodup.map (List.cons_injective (a := child.1)) hown.nodup, hnodup, ?_⟩
      -- The branches are different, so no path of the first child is one of another's.
      intro tail htail _ hother heq
      obtain ⟨inner, -, rfl⟩ := List.mem_map.1 htail
      obtain ⟨other, hmem, outer, rfl, -⟩ := hnulls _ hother
      exact hnew ((List.cons.inj heq).1 ▸ List.mem_map_of_mem hmem)
    · rw [List.flatMap_cons]
      exact (hown.ordered.map _).append hordered

theorem points_of_children (children : List (PathSegment × Report)) (hsegments : (children.map Prod.fst).Nodup)
    (hchildren : ∀ child ∈ children, ∃ tails, Points (path ++ [child.1]) child.2 tails)
    (herrors : report.errors = children.flatMap fun child => child.2.errors)
    (hat : ∀ child ∈ children, ∀ rest, report.value.at? (child.1 :: rest) = child.2.value.at? rest)
    (hplaces : (children.flatMap fun child => child.2.value.places.map (child.1 :: ·)).Sublist report.value.places) :
    ∃ tails, Points path report tails := by
  obtain ⟨tails, hpaths, hnulls, hnodup, hordered⟩ := children_point hsegments hchildren
  refine ⟨tails, herrors ▸ hpaths, ?_, hnodup, hordered.trans hplaces⟩
  intro tail htail
  obtain ⟨child, hchild, rest, rfl, hnull⟩ := hnulls tail htail
  rw [hat child hchild, hnull]

theorem itemPlaces_eq (place : Nat) (reports : List Report) :
    Json.itemPlaces place (reports.map Report.value) =
      (reports.zipIdx place).flatMap fun child => child.1.value.places.map (.index child.2 :: ·) := by
  induction reports generalizing place with
  | nil => rfl
  | cons report rest ih => rw [List.map_cons, Json.itemPlaces, ih, List.zipIdx_cons, List.flatMap_cons]

theorem entryPlaces_eq (reports : List (String × Report)) :
    Json.entryPlaces (reports.map fun (key, report) => (key, report.value)) =
      reports.flatMap fun child => child.2.value.places.map (.key child.1 :: ·) := by
  induction reports with
  | nil => rfl
  | cons entry rest ih => rw [List.map_cons, Json.entryPlaces, ih, List.flatMap_cons]

theorem points_items {reports : List Report}
    (hreports : ∀ place report, reports[place]? = some report → ∃ tails, Points (path.withIndex place) report tails) :
    ∃ tails, Points path (.items reports) tails := by
  let branch (child : Report × Nat) : PathSegment × Report := (.index child.2, child.1)
  have hmem : ∀ child ∈ reports.zipIdx.map branch, ∃ place, child.1 = .index place ∧ reports[place]? = some child.2 := by
    intro child hchild
    obtain ⟨⟨report, place⟩, hreport, rfl⟩ := List.mem_map.1 hchild
    exact ⟨place, rfl, List.mem_zipIdx_iff_getElem?.1 hreport⟩
  apply points_of_children (reports.zipIdx.map branch)
  · have hindices : (reports.zipIdx.map branch).map Prod.fst = (reports.zipIdx.map Prod.snd).map PathSegment.index := by
      rw [List.map_map, List.map_map]
      rfl
    rw [hindices, List.zipIdx_map_snd]
    exact List.Nodup.map (fun _ _ heq => PathSegment.index.inj heq) List.nodup_range'
  · intro child hchild
    obtain ⟨place, hplace, hreport⟩ := hmem child hchild
    rw [hplace]
    exact hreports place child.2 hreport
  · have herrors : reports.flatMap Report.errors = (reports.zipIdx.map Prod.fst).flatMap Report.errors := by
      rw [List.zipIdx_map_fst]
    rw [List.flatMap_map] at herrors ⊢
    exact herrors
  · intro child hchild rest
    obtain ⟨place, hplace, hreport⟩ := hmem child hchild
    rw [hplace]
    show ((reports.map Report.value)[place]?).bind (Json.at? rest) = _
    rw [List.getElem?_map, hreport]
    rfl
  · show List.Sublist _ ([] :: Json.itemPlaces 0 (reports.map Report.value))
    rw [itemPlaces_eq, List.flatMap_map]
    exact List.sublist_cons_self _ _

theorem points_entries {reports : List (String × Report)} (hkeys : (reports.map Prod.fst).Nodup)
    (hnames : "__typename" ∉ reports.map Prod.fst)
    (hreports : ∀ key report, (key, report) ∈ reports → ∃ tails, Points (path.withKey key) report tails)
    (typename : Bool) (type : String) : ∃ tails, Points path (.entries typename type reports) tails := by
  let entries := reports.map fun (key, report) => (key, report.value)
  have hentries : entries.map Prod.fst = reports.map Prod.fst := by
    rw [List.map_map]
    rfl
  apply points_of_children (reports.map fun child => (.key child.1, child.2))
  · rw [List.map_map]
    have hsegments := List.Nodup.map (fun _ _ heq => PathSegment.key.inj heq) hkeys
    rwa [List.map_map] at hsegments
  · intro child hchild
    obtain ⟨⟨key, report⟩, hreport, rfl⟩ := List.mem_map.1 hchild
    exact hreports key report hreport
  · rw [List.flatMap_map]
    rfl
  · intro child hchild rest
    obtain ⟨⟨key, report⟩, hreport, rfl⟩ := List.mem_map.1 hchild
    have hne : key ≠ "__typename" := fun heq => hnames (heq ▸ List.mem_map_of_mem hreport)
    have hlookup : entries.lookup key = some report.value :=
      Table.lookup_of_mem (hentries ▸ hkeys) (List.mem_map_of_mem hreport)
    have hwritten : (if typename then Table.insert "__typename" (.str type) entries else entries).lookup key =
        some report.value := by
      split
      · rw [Table.lookup_insert, if_neg hne, hlookup]
      · exact hlookup
    show (List.lookup key _).bind (Json.at? rest) = _
    rw [hwritten]
    rfl
  · rw [List.flatMap_map, ← entryPlaces_eq]
    apply List.Sublist.cons
    show List.Sublist _ (Json.entryPlaces (if typename then _ else entries))
    cases typename with
    | false => exact List.Sublist.refl _
    | true =>
      rw [if_pos rfl, Table.insert_of_notMem (hentries ▸ hnames), Json.entryPlaces_append]
      exact List.sublist_append_left _ _

/-- The keys of an object that is not to lose an entry to the name of its type. -/
def Unhidden (keys : List String) : Prop := keys.Nodup ∧ "__typename" ∉ keys

theorem points_hereditary : Hereditary Unhidden fun path report => ∃ tails, Points path report tails where
  sublist hsublist hkeys := ⟨hkeys.1.sublist hsublist, fun hmem => hkeys.2 (hsublist.subset hmem)⟩
  value path value := ⟨[], rfl, nofun, .nil, List.nil_sublist _⟩
  failure path error position := by
    refine ⟨[[]], ?_, ?_, List.nodup_singleton _, List.Sublist.refl _⟩
    · rw [List.map_singleton, List.append_nil]
      rfl
    · intro tail htail
      rw [List.mem_singleton.1 htail]
      rfl
  items path reports hreports := points_items hreports
  entries path typename type reports hkeys hreports := points_entries hkeys.1 hkeys.2 hreports typename type

/-! ### Responses -/

/-- In the response to an operation in which no field has the response key `__typename`, whatever ends the request: each
error has a path, which leads through the data to a null; no two errors have the same path, and none has one that
leads through another's; and the errors stand in the depth-first order of these nulls. -/
theorem errors_point_at_nulls {executor : Executor} {document : Document.QueryDocument} {request : Request}
    {operation : PreparedOperation} (hprepare : prepare executor.schema document request = .ok operation)
    (hnames : Selection.Levels (fun keys => "__typename" ∉ keys) operation.selection) (session : Session) :
    let response := (executor.executeOperation request operation session).1
    ∃ data, ∃ paths : List Path, response.data = some data ∧ response.errors.map ResponseError.path = paths.map some ∧
      (∀ path ∈ paths, data.at? path = some .null) ∧ paths.Nodup ∧
      (∀ path ∈ paths, ∀ other ∈ paths, path <+: other → path = other) ∧ paths.Sublist data.places := by
  have hlevels := (prepare_distinct hprepare).levels hnames
  -- The errors are the same kind of list in every session, so nothing is asked of the sessions on the way.
  let keeps : Session → Prop := fun _ => True
  have hkeeps : ∀ field parentType parent path session, keeps session →
      keeps (attempt executor.schema (executor.host request.extensions) operation.name field parentType parent path
        session).state := fun _ _ _ _ _ _ => trivial
  obtain ⟨⟨paths, hpoints⟩, -⟩ := points_hereditary.executeSelections hkeeps hlevels operation.rootType
    request.rootValue .root (trivial : keeps session)
  refine ⟨_, paths, rfl, hpoints.errors, hpoints.nulls, hpoints.nodup, ?_, hpoints.ordered⟩
  intro path hpath other hother hleads
  obtain ⟨rest, rfl⟩ := hleads
  cases rest with
  | nil => rw [List.append_nil]
  | cons segment rest =>
    -- Nothing is below a null.
    have hnull := hpoints.nulls _ hother
    rw [Json.at?_append, hpoints.nulls path hpath, Option.bind_some, Json.at?_null_cons] at hnull
    cases hnull

/-- Lists two books and counts them after a while. The titles at some paths are missing. -/
def shelf (missing : Path → Bool) : Executor where
  schema :=
    { queryType := some "Query"
      objects :=
        [("Query", { name := "Query"
                     fields := ("books", { name := "books", type := .list (.named "Book") }) :: texts ["count"] }),
         ("Book", { name := "Book", fields := texts ["title"] })] }
  resolvers :=
    [(("Query", "books"), fun _ _ => .done (.ok (.arr [.obj [], .obj []]))),
     (("Book", "title"), fun _ call =>
        .done (if missing call.path then .error (.resolver "no title") else .ok (.str "Logic"))),
     (("Query", "count"), waiting 5 (.str "two"))]

/-- A query for all that a shelf has, ready to be executed. -/
def onShelf : PreparedOperation where
  name := none
  kind := .query
  rootType := "Query"
  selection := Selection.collect { schema := (shelf fun _ => false).schema } "Query"
    [asks "books" [asks "title" []], asks "count" []]

theorem onShelf_keys : Selection.Levels (fun keys => "__typename" ∉ keys) onShelf.selection := by
  let leaf (name : String) : SelectedField :=
    { name, aliasName := none, arguments := [], directives := [], typeCondition := none, position := {}
      selections := none }
  have hselection : onShelf.selection =
      ⟨[{ leaf "books" with selections := some ⟨[leaf "title"], false⟩ }, leaf "count"], false⟩ := rfl
  have hbelow : Selection.Levels (fun keys => "__typename" ∉ keys) ⟨[leaf "title"], false⟩ :=
    .intro (by decide) (by simp [leaf])
  rw [hselection]
  exact .intro (by decide) (by simp [leaf, hbelow])

/-- A title is missing in a list, and the deadline passes after it. -/
theorem errors_point_at_nulls_shelf :
    let missing (path : Path) : Bool := path = [.key "books", .index 1, .key "title"]
    let response := ((shelf missing).executeOperation { query := "" } onShelf { limits := { deadline := some 3 } }).1
    response.errors.map ResponseError.path =
        [some [.key "books", .index 1, .key "title"], some [.key "count"]] ∧
      ∃ data, ∃ paths : List Path, response.data = some data ∧ response.errors.map ResponseError.path = paths.map some ∧
        (∀ path ∈ paths, data.at? path = some .null) ∧ paths.Nodup ∧
        (∀ path ∈ paths, ∀ other ∈ paths, path <+: other → path = other) ∧ paths.Sublist data.places := by
  intro missing response
  have hprepare : prepare (shelf missing).schema
      (query [asks "books" [asks "title" []], asks "count" []]) { query := "" } = .ok onShelf := rfl
  exact ⟨by decide +kernel, errors_point_at_nulls hprepare onShelf_keys _⟩

end Execution

end RelationalGraphQL
