import RelationalGraphQL.Proofs.Execution.Trace

/-!
# Two executions side by side

What an execution says of a field, or of a whole selection set, is a value and a list of errors: a report. Reports are
built in four ways only: from a value as it stands, from a failure, from the items of a list and from the entries of an
object. Two executions that resolve their fields alike build their reports alike, so a relation that the four ways keep
holds of what they report (`Parallel.executeSelections`). At a field where the executions part it is enough to compare
what the two say of that field. A property of a single execution is the case in which both are the same
(`Hereditary.executeSelections`).
-/

namespace RelationalGraphQL

/-- On every level of a selection set the response keys are proper. -/
inductive Selection.Levels (proper : List String → Prop) : SelectionSet → Prop where
  | intro {fields : List SelectedField} {typename : Bool} (hkeys : proper (fields.map SelectedField.responseKey))
      (hbelow : ∀ field ∈ fields, ∀ set, field.selections = some set → Levels proper set) :
      Levels proper ⟨fields, typename⟩

namespace Selection

theorem levels_of_forall {proper : List String → Prop} (hproper : ∀ keys, proper keys) (set : SelectionSet) :
    Levels proper set := by
  cases set with
  | mk fields typename => exact .intro (hproper _) (below fields)
where
  below (fields : List SelectedField) : ∀ field ∈ fields, ∀ set, field.selections = some set → Levels proper set :=
    match fields with
    | [] => nofun
    | ⟨_, _, _, _, _, _, none⟩ :: rest => by
      intro field hfield set hset
      rcases List.mem_cons.1 hfield with rfl | hfield
      · cases hset
      · exact below rest field hfield set hset
    | ⟨_, _, _, _, _, _, some inner⟩ :: rest => by
      intro field hfield set hset
      rcases List.mem_cons.1 hfield with rfl | hfield
      · cases hset
        exact levels_of_forall hproper inner
      · exact below rest field hfield set hset

theorem Distinct.levels {proper : List String → Prop} {set : SelectionSet} (hdistinct : Distinct set)
    (hlevels : Levels proper set) : Levels (fun keys => keys.Nodup ∧ proper keys) set := by
  induction hlevels with
  | intro hproper _ ih =>
    obtain ⟨hkeys, hbelow⟩ := hdistinct
    exact .intro ⟨hkeys, hproper⟩ fun field hfield set hset => ih field hfield set hset (hbelow field hfield set hset)

end Selection

namespace Execution

/-! ### Reports -/

/-- What an execution says of a part of the result. -/
structure Report where
  value : Json
  errors : List ResponseError := []

namespace Report

def failure (error : ExecutionError) (path : Path) (position : Document.Position) : Report :=
  { value := .null, errors := [.ofField error path position] }

def items (reports : List Report) : Report := { value := .arr (reports.map value), errors := reports.flatMap errors }

/-- The report of an object. The name of its type is written among the entries if it was asked for. -/
def entries (typename : Bool) (type : String) (reports : List (String × Report)) : Report :=
  let entries := reports.map fun (key, report) => (key, report.value)
  { value := .obj (if typename then Table.insert "__typename" (.str type) entries else entries)
    errors := reports.flatMap fun (_, report) => report.errors }

/-- What is said of a value that may have failed. -/
def ofOutcome (path : Path) (position : Document.Position) (outcome : Outcome (Except ExecutionError Json) Session) :
    Report :=
  { value := written outcome.result, errors := recorded path position outcome }

def ofSet (outcome : Outcome Json Session) : Report := { value := outcome.result, errors := outcome.errors }

end Report

/-- The outcome of items that were completed one after another, with what is said of each. -/
structure ItemsOf (outcome : Outcome (List Json) Session) (reports : List Report) : Prop where
  result : outcome.result = reports.map Report.value
  errors : outcome.errors = reports.flatMap Report.errors

structure EntriesOf (outcome : Outcome (List (String × Json)) Session) (reports : List (String × Report)) : Prop where
  result : outcome.result = reports.map fun (key, report) => (key, report.value)
  errors : outcome.errors = reports.flatMap fun (_, report) => report.errors

theorem ItemsOf.cons {rest : Outcome (List Json) Session} {reports : List Report} (hrest : ItemsOf rest reports)
    (path : Path) (position : Document.Position) (first : Outcome (Except ExecutionError Json) Session) :
    ItemsOf
      { result := written first.result :: rest.result
        errors := recorded path position first ++ rest.errors
        state := rest.state }
      (.ofOutcome path position first :: reports) where
  result := by rw [hrest.result]; rfl
  errors := by rw [hrest.errors]; rfl

theorem EntriesOf.cons {rest : Outcome (List (String × Json)) Session} {reports : List (String × Report)}
    (hrest : EntriesOf rest reports) (key : String) (path : Path) (position : Document.Position)
    (first : Outcome (Except ExecutionError Json) Session) :
    EntriesOf
      { result := (key, written first.result) :: rest.result
        errors := recorded path position first ++ rest.errors
        state := rest.state }
      ((key, .ofOutcome path position first) :: reports) where
  result := by rw [hrest.result]; rfl
  errors := by rw [hrest.errors]; rfl

/-- A relation between what two executions say of one place, kept by the ways in which reports are built. An object has
some of the keys that were selected. -/
structure Congruence (proper : List String → Prop) (holds : Path → Report → Report → Prop) : Prop where
  sublist : ∀ {keys keys' : List String}, keys'.Sublist keys → proper keys → proper keys'
  value : ∀ path value, holds path { value } { value }
  failure : ∀ path error position, holds path (.failure error path position) (.failure error path position)
  items : ∀ path (pairs : List (Report × Report)),
    (∀ place pair, pairs[place]? = some pair → holds (path.withIndex place) pair.1 pair.2) →
      holds path (.items (pairs.map Prod.fst)) (.items (pairs.map Prod.snd))
  entries : ∀ path typename type (pairs : List (String × Report × Report)), proper (pairs.map Prod.fst) →
    (∀ key pair, (key, pair) ∈ pairs → holds (path.withKey key) pair.1 pair.2) →
      holds path (.entries typename type (pairs.map (Prod.map id Prod.fst)))
        (.entries typename type (pairs.map (Prod.map id Prod.snd)))

variable {schema : Schema} {left right : Host Session} {operationName : Option String}
  {proper : List String → Prop} {holds : Path → Report → Report → Prop} {related : Session → Session → Prop}

/-- Two outcomes at a place are related, and so are the sessions they leave. -/
def Agree (holds : Path → Report → Report → Prop) (related : Session → Session → Prop) (path : Path)
    (position : Document.Position) (outcome outcome' : Outcome (Except ExecutionError Json) Session) : Prop :=
  holds path (.ofOutcome path position outcome) (.ofOutcome path position outcome') ∧
    related outcome.state outcome'.state

/-- Two executions that resolve a field alike in related sessions, unless what they say of the field is related
anyway. -/
structure Parallel (schema : Schema) (left right : Host Session) (operationName : Option String)
    (proper : List String → Prop) (holds : Path → Report → Report → Prop) (related : Session → Session → Prop) :
    Prop extends Congruence proper holds where
  field : ∀ field parentType parent path session session', related session session' →
    (let first := attempt schema left operationName field parentType parent path session
     let second := attempt schema right operationName field parentType parent path session'
     first.resolution = second.resolution ∧ first.type = second.type ∧ related first.state second.state) ∨
    Agree holds related path field.position
      (executeOne schema left operationName field parentType parent path session)
      (executeOne schema right operationName field parentType parent path session')

def below (schema : Schema) (host : Host Session) (operationName : Option String) (selections : Option SelectionSet) :
    Option (Below Session) := (selections.map (nested schema host operationName)).map Nested.execute

/-- What two executions of a selection set say of one object is related, and so are the sessions they leave. -/
def Together (schema : Schema) (left right : Host Session) (operationName : Option String)
    (holds : Path → Report → Report → Prop) (related : Session → Session → Prop) (set : SelectionSet) : Prop :=
  ∀ declared parent path session session', related session session' →
    let first := executeSelections schema left operationName set declared parent path session
    let second := executeSelections schema right operationName set declared parent path session'
    holds path (.ofSet first) (.ofSet second) ∧ related first.state second.state

namespace Parallel

variable {session session' : Session}

theorem leaf (hparallel : Parallel schema left right operationName proper holds related) (path : Path)
    (position : Document.Position) (result : Except ExecutionError Json) (hrelated : related session session') :
    Agree holds related path position { result, state := session } { result, state := session' } := by
  refine ⟨?_, hrelated⟩
  cases result with
  | ok value => exact hparallel.value path value
  | error error => exact hparallel.failure path error position

mutual

theorem complete (hparallel : Parallel schema left right operationName proper holds related)
    {selections : Option SelectionSet}
    (hbelow : ∀ set ∈ selections, Together schema left right operationName holds related set)
    (position : Document.Position) (type : TypeRef) (path : Path) {session session' : Session}
    (hrelated : related session session') : ∀ value,
    Agree holds related path position
      (Execution.complete schema (below schema left operationName selections) position type path session value)
      (Execution.complete schema (below schema right operationName selections) position type path session' value)
  | .null => hparallel.leaf path position (.ok .null) hrelated
  | .bool value => hparallel.leaf path position (serializeLeaf schema type.namedType (.bool value)) hrelated
  | .num value => hparallel.leaf path position (serializeLeaf schema type.namedType (.num value)) hrelated
  | .str value => hparallel.leaf path position (serializeLeaf schema type.namedType (.str value)) hrelated
  | .obj entries => by
    cases selections with
    | none => exact hparallel.leaf path position (serializeLeaf schema type.namedType (.obj entries)) hrelated
    | some set => exact hbelow set rfl type.namedType (.obj entries) path session session' hrelated
  | .arr items => by
    obtain ⟨pairs, hleft, hright, hpairs, hrelated⟩ :=
      completeItems hparallel hbelow position type.itemType path 0 hrelated items
    refine ⟨?_, hrelated⟩
    have hitems := hparallel.items path pairs fun place pair hpair => by simpa using hpairs place pair hpair
    simp only [Report.items, ← hleft.result, ← hleft.errors, ← hright.result, ← hright.errors] at hitems
    exact hitems

theorem completeItems (hparallel : Parallel schema left right operationName proper holds related)
    {selections : Option SelectionSet}
    (hbelow : ∀ set ∈ selections, Together schema left right operationName holds related set)
    (position : Document.Position) (type : TypeRef) (path : Path) (place : Nat) {session session' : Session}
    (hrelated : related session session') : ∀ items,
    let first :=
      Execution.completeItems schema (below schema left operationName selections) position type path place session items
    let second :=
      Execution.completeItems schema (below schema right operationName selections) position type path place session'
        items
    ∃ pairs : List (Report × Report), ItemsOf first (pairs.map Prod.fst) ∧ ItemsOf second (pairs.map Prod.snd) ∧
      (∀ index pair, pairs[index]? = some pair → holds (path.withIndex (place + index)) pair.1 pair.2) ∧
      related first.state second.state
  | [] => ⟨[], ⟨rfl, rfl⟩, ⟨rfl, rfl⟩, nofun, hrelated⟩
  | item :: items => by
    obtain ⟨hitem, hrelated⟩ := complete hparallel hbelow position type (path.withIndex place) hrelated item
    obtain ⟨pairs, hleft, hright, hpairs, hrelated⟩ :=
      completeItems hparallel hbelow position type path (place + 1) hrelated items
    simp only [completeItems_cons]
    refine ⟨(_, _) :: pairs, hleft.cons _ _ _, hright.cons _ _ _, ?_, hrelated⟩
    intro index pair hpair
    cases index with
    | zero =>
      cases hpair
      exact hitem
    | succ index =>
      have hpair := hpairs index pair hpair
      rwa [Nat.add_assoc, Nat.add_comm 1] at hpair

end

/-- A field is related that is resolved alike, or that both executions say something related of. -/
theorem executeOne (hparallel : Parallel schema left right operationName proper holds related) {field : SelectedField}
    (hbelow : ∀ set ∈ field.selections, Together schema left right operationName holds related set)
    (parentType : String) (parent : Json) (path : Path) (hrelated : related session session') :
    Agree holds related path field.position
      (Execution.executeOne schema left operationName field parentType parent path session)
      (Execution.executeOne schema right operationName field parentType parent path session') := by
  rcases hparallel.field field parentType parent path session session' hrelated with hattempt | hagree
  · rw [executeOne_eq, executeOne_eq]
    generalize attempt schema left operationName field parentType parent path session = first at hattempt ⊢
    generalize attempt schema right operationName field parentType parent path session' = second at hattempt ⊢
    obtain ⟨resolution, state, type⟩ := first
    obtain ⟨_, state', _⟩ := second
    obtain ⟨rfl, rfl, hrelated⟩ := hattempt
    cases resolution with
    | error error => exact hparallel.leaf path field.position (.error error) hrelated
    | ok value =>
      cases type with
      | none => exact hparallel.leaf path field.position (.ok value) hrelated
      | some type => exact hparallel.complete hbelow field.position type path hrelated value
  · exact hagree

theorem executeFields (hparallel : Parallel schema left right operationName proper holds related)
    {fields : List SelectedField} (hbelow : ∀ field ∈ fields, ∀ set ∈ field.selections,
      Together schema left right operationName holds related set) (type : String) (parent : Json) (path : Path)
    (hrelated : related session session') :
    let first := Execution.executeFields schema left operationName fields type parent path session
    let second := Execution.executeFields schema right operationName fields type parent path session'
    ∃ pairs : List (String × Report × Report), EntriesOf first (pairs.map (Prod.map id Prod.fst)) ∧
      EntriesOf second (pairs.map (Prod.map id Prod.snd)) ∧
      (pairs.map Prod.fst).Sublist (fields.map SelectedField.responseKey) ∧
      (∀ key pair, (key, pair) ∈ pairs → holds (path.withKey key) pair.1 pair.2) ∧
      related first.state second.state := by
  induction fields generalizing session session' with
  | nil => exact ⟨[], ⟨rfl, rfl⟩, ⟨rfl, rfl⟩, .slnil, nofun, hrelated⟩
  | cons field rest ih =>
    have hrest := fun other hother => hbelow other (List.mem_cons_of_mem _ hother)
    by_cases happlies : applies schema type field
    · obtain ⟨hfield, hrelated⟩ := hparallel.executeOne (hbelow field List.mem_cons_self) type parent
        (path.withKey field.responseKey) hrelated
      obtain ⟨pairs, hleft, hright, hkeys, hpairs, hrelated⟩ := ih hrest hrelated
      simp only [executeFields_cons happlies]
      refine ⟨(field.responseKey, _, _) :: pairs, hleft.cons _ _ _ _, hright.cons _ _ _ _, hkeys.cons_cons _, ?_, hrelated⟩
      intro key pair hpair
      rcases List.mem_cons.1 hpair with heq | hpair
      · cases heq
        exact hfield
      · exact hpairs key pair hpair
    · obtain ⟨pairs, hleft, hright, hkeys, hpairs⟩ := ih hrest hrelated
      simp only [Execution.executeFields, if_neg happlies]
      exact ⟨pairs, hleft, hright, hkeys.cons _, hpairs⟩

/-- Two executions that run in parallel say related things of every object, and leave related sessions. -/
theorem executeSelections (hparallel : Parallel schema left right operationName proper holds related)
    {set : SelectionSet} (hlevels : Selection.Levels proper set) :
    Together schema left right operationName holds related set := by
  induction hlevels with
  | @intro fields typename hkeys hbelow ih =>
    intro declared parent path session session' hrelated
    obtain ⟨pairs, hleft, hright, hsublist, hpairs, hrelated⟩ :=
      hparallel.executeFields ih (runtimeType schema declared parent) parent path hrelated
    refine ⟨?_, hrelated⟩
    have hentries := hparallel.entries path typename (runtimeType schema declared parent) pairs
      (hparallel.sublist hsublist hkeys) hpairs
    simp only [Report.entries, ← hleft.result, ← hleft.errors, ← hright.result, ← hright.errors] at hentries
    exact hentries

end Parallel

/-! ### One execution -/

/-- A property of what an execution says of a place, kept by the ways in which reports are built. -/
structure Hereditary (proper : List String → Prop) (holds : Path → Report → Prop) : Prop where
  sublist : ∀ {keys keys' : List String}, keys'.Sublist keys → proper keys → proper keys'
  value : ∀ path value, holds path { value }
  failure : ∀ path error position, holds path (.failure error path position)
  items : ∀ path (reports : List Report),
    (∀ place report, reports[place]? = some report → holds (path.withIndex place) report) → holds path (.items reports)
  entries : ∀ path typename type (reports : List (String × Report)), proper (reports.map Prod.fst) →
    (∀ key report, (key, report) ∈ reports → holds (path.withKey key) report) →
      holds path (.entries typename type reports)

namespace Hereditary

variable {host : Host Session} {holds : Path → Report → Prop} {keeps : Session → Prop}

theorem congruence (hhereditary : Hereditary proper holds) :
    Congruence proper fun path report report' => report = report' ∧ holds path report where
  sublist := hhereditary.sublist
  value path value := ⟨rfl, hhereditary.value path value⟩
  failure path error position := ⟨rfl, hhereditary.failure path error position⟩
  items path pairs hpairs := by
    have hsame : pairs.map Prod.fst = pairs.map Prod.snd := by
      apply List.map_congr_left
      intro pair hpair
      obtain ⟨place, hplace⟩ := List.getElem?_of_mem hpair
      exact (hpairs place pair hplace).1
    refine ⟨congrArg Report.items hsame, hhereditary.items path _ ?_⟩
    intro place report hreport
    rw [List.getElem?_map] at hreport
    obtain ⟨pair, hpair, rfl⟩ := Option.map_eq_some_iff.1 hreport
    exact (hpairs place pair hpair).2
  entries path typename type pairs hkeys hpairs := by
    have hsame : pairs.map (Prod.map id Prod.fst) = pairs.map (Prod.map id Prod.snd) := by
      apply List.map_congr_left
      intro entry hentry
      exact congrArg (Prod.mk entry.1) (hpairs entry.1 entry.2 hentry).1
    refine ⟨congrArg (Report.entries typename type) hsame, hhereditary.entries path typename type _ ?_ ?_⟩
    · rw [List.map_map]
      exact hkeys
    · intro key report hreport
      obtain ⟨entry, hentry, heq⟩ := List.mem_map.1 hreport
      cases heq
      exact (hpairs entry.1 entry.2 hentry).2

theorem parallel (hhereditary : Hereditary proper holds)
    (hkeeps : ∀ field parentType parent path session, keeps session →
      keeps (attempt schema host operationName field parentType parent path session).state) :
    Parallel schema host host operationName proper (fun path report report' => report = report' ∧ holds path report)
      (fun session session' => session = session' ∧ keeps session) where
  toCongruence := hhereditary.congruence
  field field parentType parent path session session' hrelated := by
    obtain ⟨rfl, hsession⟩ := hrelated
    exact .inl ⟨rfl, rfl, rfl, hkeeps field parentType parent path session hsession⟩

theorem executeSelections (hhereditary : Hereditary proper holds)
    (hkeeps : ∀ field parentType parent path session, keeps session →
      keeps (attempt schema host operationName field parentType parent path session).state)
    {set : SelectionSet} (hlevels : Selection.Levels proper set) (declared : String) (parent : Json) (path : Path)
    {session : Session} (hsession : keeps session) :
    let outcome := Execution.executeSelections schema host operationName set declared parent path session
    holds path (.ofSet outcome) ∧ keeps outcome.state := by
  obtain ⟨⟨-, hholds⟩, -, hstate⟩ := (hhereditary.parallel hkeeps).executeSelections hlevels declared parent path
    session session ⟨rfl, hsession⟩
  exact ⟨hholds, hstate⟩

theorem executeOne (hhereditary : Hereditary proper holds)
    (hkeeps : ∀ field parentType parent path session, keeps session →
      keeps (attempt schema host operationName field parentType parent path session).state)
    {field : SelectedField} (hlevels : ∀ set ∈ field.selections, Selection.Levels proper set) (parentType : String)
    (parent : Json) (path : Path) {session : Session} (hsession : keeps session) :
    let outcome := Execution.executeOne schema host operationName field parentType parent path session
    holds path (.ofOutcome path field.position outcome) ∧ keeps outcome.state := by
  have hparallel := hhereditary.parallel hkeeps
  obtain ⟨⟨-, hholds⟩, -, hstate⟩ := hparallel.executeOne
    (fun set hset => hparallel.executeSelections (hlevels set hset)) parentType parent path ⟨rfl, hsession⟩
  exact ⟨hholds, hstate⟩

end Hereditary

end Execution

end RelationalGraphQL
