import RelationalGraphQL.Response.Json
import RelationalGraphQL.Proofs.Table

/-!
# Responses and their JSON form

A record is an object of those of its parts that there are, and reading it finds each part under its key and misses the
others (`Record.parts?_entries`). A part that is left out when it is empty comes back by its default, and an optional
part by its absence; so a list or table that is there and empty stays apart from one that is not there. The one response
that does not come back is that whose data is null, since null is also how missing data reads
(`Response.read_back_iff`).
-/

namespace RelationalGraphQL

variable {α : Type} {write : α → Json} {read : Json → Option α}

namespace Record

/-- The entries of a record, of which some parts may be missing. -/
def entries : List String → List (Option Json) → List (String × Json)
  | key :: keys, part :: parts => part.elim [] (fun value => [(key, value)]) ++ entries keys parts
  | _, _ => []

theorem lookup_entries_of_notMem {key : String} {keys : List String} (hkey : key ∉ keys) (parts : List (Option Json)) :
    (entries keys parts).lookup key = none := by
  fun_induction entries keys parts with
  | case1 other keys part parts ih =>
    rw [List.mem_cons, not_or] at hkey
    cases part with
    | none => exact ih hkey.2
    | some value =>
      rw [Option.elim_some, List.singleton_append, Table.lookup_cons, if_neg hkey.1]
      exact ih hkey.2
  | case2 => rfl

theorem lookup_entries_cons {key other : String} (hne : key ≠ other) (keys : List String) (part : Option Json)
    (parts : List (Option Json)) :
    (entries (other :: keys) (part :: parts)).lookup key = (entries keys parts).lookup key := by
  cases part with
  | none => rfl
  | some value => rw [entries, Option.elim_some, List.singleton_append, Table.lookup_cons, if_neg hne]

theorem parts?_entries {keys : List String} (hkeys : keys.Nodup) (parts : List (Option Json))
    (hlength : parts.length = keys.length) : parts? keys (.obj (entries keys parts)) = some parts := by
  rw [parts?, Option.some.injEq]
  induction keys generalizing parts with
  | nil => rw [List.map_nil, List.eq_nil_of_length_eq_zero hlength]
  | cons key keys ih =>
    cases parts with
    | nil => cases hlength
    | cons part parts =>
      obtain ⟨hnew, hkeys⟩ := List.nodup_cons.1 hkeys
      rw [List.map_cons, List.cons_eq_cons]
      constructor
      · cases part with
        | none => exact lookup_entries_of_notMem hnew parts
        | some value => rw [entries, Option.elim_some, List.singleton_append, List.lookup_cons_self]
      · have hskip : ∀ other ∈ keys, (entries (key :: keys) (part :: parts)).lookup other =
            (entries keys parts).lookup other :=
          fun other hother => lookup_entries_cons (ne_of_mem_of_not_mem hother hnew) keys part parts
        rw [List.map_congr_left hskip]
        exact ih hkeys parts (Nat.succ.inj hlength)

end Record

theorem mapM_read_back (hread : ∀ item, read (write item) = some item) (items : List α) :
    (items.map write).mapM read = some items := by
  induction items with
  | nil => rfl
  | cons item items ih =>
    rw [List.map_cons, List.mapM_cons, hread, ih]
    rfl

/-! ### Positions and paths -/

theorem Json.nat?_ofNat (value : Nat) : (Json.ofNat value).nat? = some value := by
  rw [Json.ofNat, Json.nat?, if_pos (Int.natCast_nonneg value), Int.toNat_natCast]

theorem Document.Position.ofJson?_toJson (position : Document.Position) :
    Document.Position.ofJson? position.toJson = some position := by
  have hkeys : ["line", "column"].Nodup := by decide
  have hparts : Record.parts? ["line", "column"] position.toJson =
      some [some (.ofNat position.line), some (.ofNat position.column)] :=
    Record.parts?_entries hkeys [some (.ofNat position.line), some (.ofNat position.column)] rfl
  simp only [Document.Position.ofJson?, hparts, Record.required?, Option.bind_eq_bind, Option.bind_some,
    Json.nat?_ofNat]
  rfl

theorem PathSegment.ofJson?_toJson (segment : PathSegment) : PathSegment.ofJson? segment.toJson = some segment := by
  cases segment with
  | key name => rfl
  | index place =>
    change (Json.ofNat place).nat?.map PathSegment.index = _
    rw [Json.nat?_ofNat, Option.map_some]

theorem Path.ofJson?_toJson (path : Path) : Path.ofJson? path.toJson = some path :=
  mapM_read_back PathSegment.ofJson?_toJson path

/-! ### Errors -/

theorem withDefault?_listed (hread : ∀ item, read (write item) = some item) (items : List α) :
    Record.withDefault? (fun value => value.arr?.bind fun found => found.mapM read) []
      (if !items.isEmpty then some (.arr (items.map write)) else none) = some items := by
  cases items with
  | nil => rfl
  | cons item items => exact mapM_read_back hread (item :: items)

theorem optional?_of_ne_null (read : Json → Option α) {value : Json} (hvalue : value ≠ .null) :
    Record.optional? read (some value) = (read value).map some := by
  cases value with
  | null => exact absurd rfl hvalue
  | _ => rfl

theorem optional?_written (hread : ∀ found, read (write found) = some found) (hnull : ∀ found, write found ≠ .null)
    (value : Option α) : Record.optional? read (value.map write) = some value := by
  cases value with
  | none => rfl
  | some found => rw [Option.map_some, optional?_of_ne_null read (hnull found), hread, Option.map_some]

def ResponseError.parts (error : ResponseError) : List (Option Json) :=
  [some (.str error.message),
   if !error.locations.isEmpty then some (.arr (error.locations.map Document.Position.toJson)) else none,
   error.path.map Path.toJson,
   error.extensions.map Json.obj]

theorem ResponseError.toJson_eq (error : ResponseError) :
    error.toJson = .obj (Record.entries ["message", "locations", "path", "extensions"] error.parts) := by
  obtain ⟨message, locations, path, extensions⟩ := error
  cases locations <;> cases path <;> cases extensions <;> rfl

theorem ResponseError.ofJson?_toJson (error : ResponseError) : ResponseError.ofJson? error.toJson = some error := by
  have hkeys : ["message", "locations", "path", "extensions"].Nodup := by decide
  have hparts := Record.parts?_entries hkeys error.parts rfl
  have hlocations := withDefault?_listed Document.Position.ofJson?_toJson error.locations
  have hpath := optional?_written Path.ofJson?_toJson nofun error.path
  have hobject : ∀ extensions, Json.obj? (.obj extensions) = some extensions := fun _ => rfl
  have hextensions := optional?_written hobject nofun error.extensions
  rw [ResponseError.toJson_eq, ResponseError.ofJson?, hparts]
  simp only [ResponseError.parts, Record.required?, Json.str?, Option.bind_eq_bind, Option.bind_some, hlocations, hpath,
    hextensions]
  rfl

/-! ### Responses -/

def Response.parts (response : Response) : List (Option Json) :=
  [response.data,
   if !response.errors.isEmpty then some (.arr (response.errors.map ResponseError.toJson)) else none,
   if !response.extensions.isEmpty then some (.obj response.extensions) else none]

theorem Response.toJson_eq (response : Response) :
    response.toJson = .obj (Record.entries ["data", "errors", "extensions"] response.parts) := by
  obtain ⟨data, errors, extensions⟩ := response
  cases data <;> cases errors <;> cases extensions <;> rfl

theorem optional?_data (data : Option Json) :
    Record.optional? some data = some (data.filter fun value => !value.isNull) := by
  cases data with
  | none => rfl
  | some value => cases value <;> rfl

/-- Everything of a response is read back, except that null data is dropped. -/
theorem Response.ofJson?_toJson (response : Response) :
    Response.ofJson? response.toJson =
      some { response with data := response.data.filter fun value => !value.isNull } := by
  have hkeys : ["data", "errors", "extensions"].Nodup := by decide
  have hparts := Record.parts?_entries hkeys response.parts rfl
  have herrors := withDefault?_listed ResponseError.ofJson?_toJson response.errors
  have hextensions : Record.withDefault? Json.obj? []
      (if !response.extensions.isEmpty then some (.obj response.extensions) else none) = some response.extensions := by
    cases response.extensions <;> rfl
  rw [Response.toJson_eq, Response.ofJson?, hparts]
  simp only [Response.parts, optional?_data, Option.bind_eq_bind, Option.bind_some, herrors, hextensions]
  rfl

/-- A response reads back from its JSON form as it was exactly if its data is not null. -/
theorem Response.read_back_iff (response : Response) :
    Response.ofJson? response.toJson = some response ↔ response.data ≠ some .null := by
  rw [Response.ofJson?_toJson, Option.some.injEq]
  obtain ⟨data, errors, extensions⟩ := response
  rw [Response.mk.injEq, and_iff_left ⟨rfl, rfl⟩]
  cases data with
  | none => simp
  | some value => cases value <;> simp [Json.isNull]

end RelationalGraphQL
