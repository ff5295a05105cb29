import Mathlib.Data.List.Forall2
import RelationalGraphQL.Proofs.Arguments.Meaning
import RelationalGraphQL.Word

/-!
# Accepted arguments

The arguments that choose rows have shapes, said here without the functions that read them: filters, page bounds and
orderings. Reading accepts an argument exactly if it fits its shape, whatever parameters were bound before, and a
refusal names an argument that does not fit (`readRowChoice_refusal`). So a field whose relations are left out is
compiled whenever the whole field is.
-/

namespace RelationalGraphQL.Arguments

open Sql (Condition Direction NullsOrder Parameters)

/-! ### Shapes -/

def equalityNames : List String := ["_eq", "eq", "_neq", "neq", "_ne", "ne"]

def comparisonNames : List String :=
  ["_gt", "gt", "_gte", "gte", "_ge", "ge", "_lt", "lt", "_lte", "lte", "_le", "le", "_like", "like", "_ilike", "ilike",
   "_contains", "contains", "_contained_by", "contained_by", "containedBy"]

def membershipNames : List String := ["_in", "in", "_nin", "nin", "_not_in", "not_in"]

def nullTestNames : List String := ["_is_null", "is_null", "isNull"]

/-- What an operator of a filter may be applied to. Of the comparisons only equality takes a null. -/
def OperandFits (name : String) (operand : Json) : Prop :=
  name ∈ equalityNames ∨ (name ∈ comparisonNames ∧ operand ≠ .null) ∨
    (name ∈ membershipNames ∧ ∃ items, operand = .arr items) ∨ (name ∈ nullTestNames ∧ ∃ isNull, operand = .bool isNull)

/-- The keys of a filter that combine filters. -/
def joiningKeys : List String := ["_and", "AND", "_or", "OR"]

def negatingKeys : List String := ["_not", "NOT"]

mutual

inductive FilterObject : List (String × Json) → Prop where
  | intro {entries : List (String × Json)} (hentries : ∀ entry ∈ entries, FilterEntry entry.1 entry.2) :
      FilterObject entries

/-- An entry of a filter: filters that are combined, or a field with its operators or the value it equals. -/
inductive FilterEntry : String → Json → Prop where
  | joined {key : String} {entries : List (String × Json)} (hkey : key ∈ joiningKeys) (hentries : FilterObject entries) :
      FilterEntry key (.obj entries)
  | joinedAll {key : String} {items : List Json} (hkey : key ∈ joiningKeys)
      (hobjects : ∀ item ∈ items, ∃ entries, item = .obj entries)
      (hitems : ∀ entries, .obj entries ∈ items → FilterObject entries) : FilterEntry key (.arr items)
  | negated {key : String} {entries : List (String × Json)} (hkey : key ∈ negatingKeys)
      (hentries : FilterObject entries) : FilterEntry key (.obj entries)
  | operators {key : String} {operators : List (String × Json)} (hkey : key ∉ joiningKeys ++ negatingKeys)
      (hoperators : ∀ operator ∈ operators, OperandFits operator.1 operator.2) :
      FilterEntry key (.obj operators)
  | equals {key : String} {value : Json} (hkey : key ∉ joiningKeys ++ negatingKeys)
      (hvalue : ∀ entries, value ≠ .obj entries) : FilterEntry key value

end

/-- A text is a word in capitals, up to the case of its letters. -/
def Spells (word text : String) : Prop :=
  List.Forall₂ (fun capital letter => letter = capital ∨ letter = capital.toLower) word.toList text.toList

/-- A value that may be left out, and else is one of some words. -/
def OptionalWord (words : List String) (value : Option Json) : Prop :=
  value = none ∨ value = some .null ∨ ∃ text, value = some (.str text) ∧ ∃ word ∈ words, Spells word text

structure OrderObject (entries : List (String × Json)) : Prop where
  field : ∃ name, entries.lookup "field" = some (.str name)
  direction : OptionalWord ["ASC", "DESC"] (entries.lookup "direction")
  nulls : OptionalWord ["FIRST", "LAST"] (entries.lookup "nulls")

inductive Shape where
  | filter
  | bound
  | ordering

/-- Each shape is also fit by null. -/
inductive Shape.Fits : Shape → Json → Prop where
  | null {shape : Shape} : Fits shape .null
  | filter {entries : List (String × Json)} (hentries : FilterObject entries) : Fits .filter (.obj entries)
  | bound {n : Int} (hlower : 0 ≤ n) (hupper : n < UInt64.bound) : Fits .bound (.num (.int n))
  | order {entries : List (String × Json)} (hentries : OrderObject entries) : Fits .ordering (.obj entries)
  | orders {items : List Json} (hitems : ∀ item ∈ items, ∃ entries, item = .obj entries ∧ OrderObject entries) :
      Fits .ordering (.arr items)

/-- The arguments that choose rows, among those that are given. The second name of a page bound counts only where the
first is not given. -/
inductive Chooses (given : String → Option Json) : Shape → String → Prop where
  | byWhere : Chooses given .filter "where"
  | byFilter : Chooses given .filter "filter"
  | limit : Chooses given .bound "limit"
  | first (hlimit : given "limit" = none) : Chooses given .bound "first"
  | offset : Chooses given .bound "offset"
  | skip (hoffset : given "offset" = none) : Chooses given .bound "skip"
  | orderBy : Chooses given .ordering "orderBy"

def WellFormed (given : String → Option Json) : Prop :=
  ∀ shape name value, Chooses given shape name → given name = some value → shape.Fits value

def Offending (given : String → Option Json) (name : String) : Prop :=
  ∃ shape value, Chooses given shape name ∧ given name = some value ∧ ¬shape.Fits value

/-! ### Accepted steps -/

def Accepts {σ ε α : Type} (action : StateT σ (Except ε) α) (s : σ) : Prop := ∃ result, action.run s = .ok result

section

variable {σ ε α β : Type} {action : StateT σ (Except ε) α} {next : α → StateT σ (Except ε) β} {s : σ}

theorem accepts_pure (a : α) (s : σ) : Accepts (pure a : StateT σ (Except ε) α) s := ⟨(a, s), rfl⟩

theorem not_accepts_throw (e : ε) (s : σ) : ¬Accepts (throw e : StateT σ (Except ε) α) s := by
  rintro ⟨result, hrun⟩
  cases hrun

/-- A step and what follows it, where the latter does not depend on the result. -/
theorem accepts_bind {accepted : Prop} (hnext : ∀ a s, Accepts (next a) s ↔ accepted) :
    Accepts (action >>= next) s ↔ Accepts action s ∧ accepted := by
  constructor
  · rintro ⟨result, hrun⟩
    obtain ⟨a, s', haction, hresult⟩ := run_bind_eq_ok.1 hrun
    exact ⟨⟨_, haction⟩, (hnext a s').1 ⟨_, hresult⟩⟩
  · rintro ⟨⟨⟨a, s'⟩, haction⟩, haccepted⟩
    obtain ⟨result, hresult⟩ := (hnext a s').2 haccepted
    exact ⟨result, run_bind_eq_ok.2 ⟨a, s', haction, hresult⟩⟩

theorem accepts_map (f : α → β) : Accepts (action >>= fun a => pure (f a)) s ↔ Accepts action s := by
  rw [accepts_bind fun a s => iff_true_intro (accepts_pure (f a) s), and_true]

theorem run_bind_eq_error {e : ε} :
    (action >>= next).run s = .error e ↔
      action.run s = .error e ∨ ∃ a s', action.run s = .ok (a, s') ∧ (next a).run s' = .error e := by
  rw [StateT.run_bind]
  cases action.run s with
  | error e => simp [bind, Except.bind]
  | ok pair =>
    obtain ⟨a, s'⟩ := pair
    constructor
    · intro hnext
      exact .inr ⟨a, s', rfl, hnext⟩
    · rintro (herror | ⟨a', s'', heq, hnext⟩)
      · cases herror
      · cases heq
        exact hnext

theorem run_monadLift_eq_error {action : Except ε α} {e : ε} :
    (monadLift action : StateT σ (Except ε) α).run s = .error e ↔ action = .error e := by
  rw [StateT.run_monadLift]
  cases action with
  | error e => simp [bind, Except.bind, monadLift]
  | ok a => simp [bind, Except.bind, pure, Except.pure, monadLift]

end

/-! ### Filters -/

variable {κ : Type} {column : String → κ} {bound bound' : Parameters} {value : Json} {name key first second : String}
  {e : ConversionError} {items : List Json} {limit : Option Nat}

/-- What an operator may be applied to, by what it asks of the column. -/
def FilterOperator.Takes : FilterOperator → Json → Prop
  | .compare .eq, _ | .compare .notEq, _ => True
  | .compare _, operand => operand ≠ .null
  | .anyOf, operand | .noneOf, operand => ∃ items, operand = .arr items
  | .isNull, operand => ∃ isNull, operand = .bool isNull

theorem bindOperand_accepts (operand : Json) (bound : Parameters) : Accepts (bindOperand operand) bound := ⟨_, rfl⟩

theorem operatorCondition_accepts (c : κ) (operator : FilterOperator) (operand : Json) (bound : Parameters) :
    Accepts (operatorCondition c operator operand) bound ↔ operator.Takes operand := by
  unfold operatorCondition
  split
  · exact iff_of_true (accepts_pure _ _) trivial
  · exact iff_of_true (accepts_pure _ _) trivial
  · rename_i comparison heq hnotEq
    refine iff_of_false (not_accepts_throw _ _) ?_
    unfold FilterOperator.Takes
    split <;> simp_all
  · rename_i comparison hnull heq hnotEq
    refine iff_of_true ((accepts_map _).2 (bindOperand_accepts _ _)) ?_
    unfold FilterOperator.Takes
    split <;> simp_all
  · exact iff_of_true ((accepts_map _).2 (bindOperand_accepts _ _)) ⟨_, rfl⟩
  · exact iff_of_true ((accepts_map _).2 (bindOperand_accepts _ _)) ⟨_, rfl⟩
  · rename_i hlist
    exact iff_of_false (not_accepts_throw _ _) fun ⟨items, hitems⟩ => hlist items hitems
  · rename_i hlist
    exact iff_of_false (not_accepts_throw _ _) fun ⟨items, hitems⟩ => hlist items hitems
  · exact iff_of_true (accepts_pure _ _) ⟨_, rfl⟩
  · exact iff_of_true (accepts_pure _ _) ⟨_, rfl⟩
  · rename_i htrue hfalse
    refine iff_of_false (not_accepts_throw _ _) ?_
    rintro ⟨_ | _, rfl⟩
    · exact hfalse rfl
    · exact htrue rfl

theorem operandFits_iff {operand : Json} :
    OperandFits name operand ↔ ∃ operator, FilterOperator.ofName? name = some operator ∧ operator.Takes operand := by
  constructor
  · rintro (hname | ⟨hname, hoperand⟩ | ⟨hname, hoperand⟩ | ⟨hname, hoperand⟩)
    · simp only [equalityNames, List.mem_cons, List.not_mem_nil, or_false] at hname
      rcases hname with rfl | rfl | rfl | rfl | rfl | rfl <;> exact ⟨_, rfl, trivial⟩
    · simp only [comparisonNames, List.mem_cons, List.not_mem_nil, or_false] at hname
      rcases hname with rfl | rfl | rfl | rfl | rfl | rfl | rfl | rfl | rfl | rfl | rfl | rfl | rfl | rfl | rfl | rfl |
        rfl | rfl | rfl | rfl | rfl <;> exact ⟨_, rfl, hoperand⟩
    · simp only [membershipNames, List.mem_cons, List.not_mem_nil, or_false] at hname
      rcases hname with rfl | rfl | rfl | rfl | rfl | rfl <;> exact ⟨_, rfl, hoperand⟩
    · simp only [nullTestNames, List.mem_cons, List.not_mem_nil, or_false] at hname
      rcases hname with rfl | rfl | rfl <;> exact ⟨_, rfl, hoperand⟩
  · rintro ⟨operator, hname, htakes⟩
    unfold FilterOperator.ofName? at hname
    unfold OperandFits equalityNames comparisonNames membershipNames nullTestNames
    split at hname <;> cases hname <;> simp_all [FilterOperator.Takes]

theorem operatorConditions_accepts (c : κ) (field : String) (operators : List (String × Json)) (bound : Parameters) :
    Accepts (operatorConditions c field operators) bound ↔
      ∀ operator ∈ operators, OperandFits operator.1 operator.2 := by
  induction operators generalizing bound with
  | nil => exact iff_of_true (accepts_pure _ _) (by simp)
  | cons entry rest ih =>
    obtain ⟨name, operand⟩ := entry
    rw [List.forall_mem_cons, operandFits_iff]
    unfold operatorConditions
    split
    · rename_i hname
      exact iff_of_false (not_accepts_throw _ _) (by simp [hname])
    · rename_i operator hname
      rw [accepts_bind fun condition s => (accepts_map _).trans (ih s), operatorCondition_accepts]
      simp [hname]

theorem FilterKey.ofName_cases (key : String) :
    (key ∈ joiningKeys ∧ (ofName key = .all ∨ ofName key = .any)) ∨ (key ∈ negatingKeys ∧ ofName key = .not) ∨
      (key ∉ joiningKeys ++ negatingKeys ∧ ofName key = .field) := by
  unfold ofName joiningKeys negatingKeys
  split <;> simp_all

theorem not_negating_of_joining (hkey : key ∈ joiningKeys) : key ∉ negatingKeys := by
  simp only [joiningKeys, List.mem_cons, List.not_mem_nil, or_false] at hkey
  rcases hkey with rfl | rfl | rfl | rfl <;> decide

theorem filterObject_iff {entries : List (String × Json)} :
    FilterObject entries ↔ ∀ entry ∈ entries, FilterEntry entry.1 entry.2 :=
  ⟨fun ⟨hentries⟩ => hentries, .intro⟩

/-! What an entry says, by its key. -/

theorem filterEntry_of_joining (hkey : key ∈ joiningKeys) :
    FilterEntry key value ↔ (∃ entries, value = .obj entries ∧ FilterObject entries) ∨
      ∃ items, value = .arr items ∧ (∀ item ∈ items, ∃ entries, item = .obj entries) ∧
        ∀ entries, .obj entries ∈ items → FilterObject entries := by
  constructor
  · rintro (⟨_, hentries⟩ | ⟨_, hobjects, hitems⟩ | ⟨hnegating, -⟩ | ⟨hfield, -⟩ | ⟨hfield, -⟩)
    · exact .inl ⟨_, rfl, hentries⟩
    · exact .inr ⟨_, rfl, hobjects, hitems⟩
    · exact absurd hnegating (not_negating_of_joining hkey)
    · exact absurd (List.mem_append_left _ hkey) hfield
    · exact absurd (List.mem_append_left _ hkey) hfield
  · rintro (⟨entries, rfl, hentries⟩ | ⟨items, rfl, hobjects, hitems⟩)
    · exact .joined hkey hentries
    · exact .joinedAll hkey hobjects hitems

theorem filterEntry_of_negating (hkey : key ∈ negatingKeys) :
    FilterEntry key value ↔ ∃ entries, value = .obj entries ∧ FilterObject entries := by
  constructor
  · rintro (⟨hjoining, -⟩ | ⟨hjoining, -, -⟩ | ⟨_, hentries⟩ | ⟨hfield, -⟩ | ⟨hfield, -⟩)
    · exact absurd hkey (not_negating_of_joining hjoining)
    · exact absurd hkey (not_negating_of_joining hjoining)
    · exact ⟨_, rfl, hentries⟩
    · exact absurd (List.mem_append_right _ hkey) hfield
    · exact absurd (List.mem_append_right _ hkey) hfield
  · rintro ⟨entries, rfl, hentries⟩
    exact .negated hkey hentries

theorem filterEntry_of_field (hkey : key ∉ joiningKeys ++ negatingKeys) :
    FilterEntry key value ↔
      ∀ operators, value = .obj operators → ∀ operator ∈ operators, OperandFits operator.1 operator.2 := by
  constructor
  · rintro (⟨hjoining, -⟩ | ⟨hjoining, -, -⟩ | ⟨hnegating, -⟩ | ⟨-, hoperators⟩ | ⟨-, hvalue⟩) operators heq
    · exact absurd (List.mem_append_left _ hjoining) hkey
    · exact absurd (List.mem_append_left _ hjoining) hkey
    · exact absurd (List.mem_append_right _ hnegating) hkey
    · cases heq
      exact hoperators
    · exact absurd heq (hvalue operators)
  · intro hoperators
    cases value with
    | obj operators => exact .operators hkey (hoperators operators rfl)
    | _ => exact .equals hkey (by simp)

theorem fieldConditions_accepts (field : String) (value : Json) (bound : Parameters) :
    Accepts (fieldConditions column field value) bound ↔
      ∀ operators, value = .obj operators → ∀ operator ∈ operators, OperandFits operator.1 operator.2 := by
  unfold fieldConditions
  split
  · rename_i operators
    simpa using operatorConditions_accepts (column field) field operators bound
  · rename_i hobject
    refine iff_of_true ?_ fun operators heq => absurd heq (hobject operators)
    rw [accepts_map, operatorCondition_accepts]
    trivial

theorem disjoin_accepts (before : Parameters) (branches : List (List (Condition κ))) (bound : Parameters) :
    Accepts (disjoin before branches) bound := by
  unfold disjoin
  split
  · exact ⟨_, rfl⟩
  · split
    · exact ⟨_, rfl⟩
    · exact ⟨_, rfl⟩

/-- The filters inside a value are accepted exactly if they are well-formed. -/
def PartsAccepted (column : String → κ) : Json → Prop
  | .obj entries => ∀ bound, Accepts (conditions column entries) bound ↔ FilterObject entries
  | .arr items =>
    ∀ bound, Accepts (branchConditions column items) bound ↔ ∀ entries, .obj entries ∈ items → FilterObject entries
  | _ => True

theorem all_isObject_iff : items.all isObject = true ↔ ∀ item ∈ items, ∃ entries, item = .obj entries := by
  rw [List.all_eq_true]
  refine forall₂_congr fun item _ => ?_
  cases item <;> simp [isObject]

theorem disjoined_accepts {α : Type} {action : FilterM α} (branches : α → List (List (Condition κ)))
    (bound : Parameters) :
    Accepts (get >>= fun before => action >>= fun result => disjoin before (branches result)) bound ↔
      Accepts action bound := by
  show Accepts (action >>= fun result => disjoin bound (branches result)) bound ↔ _
  rw [accepts_bind fun result s => iff_true_intro (disjoin_accepts bound (branches result) s), and_true]

theorem guarded_accepts {α : Type} {body : FilterM α} {fault : FilterFault} {bound : Parameters} {accepted : Prop}
    (hbody : Accepts body bound ↔ accepted) :
    Accepts (if items.all isObject then body else throw fault) bound ↔
      (∀ item ∈ items, ∃ entries, item = .obj entries) ∧ accepted := by
  rw [← all_isObject_iff]
  split
  · rename_i hobjects
    simpa [hobjects] using hbody
  · rename_i hobjects
    exact iff_of_false (not_accepts_throw _ _) fun hitems => hobjects hitems.1

theorem entryConditions_accepts (hparts : PartsAccepted column value) (bound : Parameters) :
    Accepts (entryConditions column key value) bound ↔ FilterEntry key value := by
  -- `_and` and `_or` differ only in what becomes of the branches once these are accepted
  rcases FilterKey.ofName_cases key with ⟨hkey, hname | hname⟩ | ⟨hkey, hname⟩ | ⟨hkey, hname⟩
  · rw [filterEntry_of_joining hkey]
    unfold entryConditions
    rw [hname]
    cases value with
    | obj entries => simpa using hparts bound
    | arr items => exact (guarded_accepts ((accepts_map List.flatten).trans (hparts bound))).trans (by simp)
    | _ => exact iff_of_false (not_accepts_throw _ _) (by simp)
  · rw [filterEntry_of_joining hkey]
    unfold entryConditions
    rw [hname]
    cases value with
    | obj entries => simpa using (disjoined_accepts (fun branch => [branch]) bound).trans (hparts bound)
    | arr items => exact (guarded_accepts ((disjoined_accepts id bound).trans (hparts bound))).trans (by simp)
    | _ => exact iff_of_false (not_accepts_throw _ _) (by simp)
  · rw [filterEntry_of_negating hkey]
    unfold entryConditions
    rw [hname]
    cases value with
    | obj entries => simpa using (accepts_map fun conditions => [Condition.negation conditions]).trans (hparts bound)
    | _ => exact iff_of_false (not_accepts_throw _ _) (by simp)
  · rw [filterEntry_of_field hkey, ← fieldConditions_accepts]
    unfold entryConditions
    rw [hname]

mutual

theorem partsAccepted : ∀ value : Json, PartsAccepted column value
  | .obj entries => conditions_accepts entries
  | .arr items => branchConditions_accepts items
  | .null | .bool _ | .num _ | .str _ => trivial

theorem conditions_accepts : ∀ (entries : List (String × Json)) (bound : Parameters),
    Accepts (conditions column entries) bound ↔ FilterObject entries
  | [], _ => by
    rw [filterObject_iff]
    exact iff_of_true (accepts_pure _ _) (by simp)
  | (key, value) :: rest, bound => by
    rw [filterObject_iff, List.forall_mem_cons, ← filterObject_iff, conditions,
      accepts_bind fun here s => (accepts_map _).trans (conditions_accepts rest s),
      entryConditions_accepts (partsAccepted value)]

theorem branchConditions_accepts : ∀ (items : List Json) (bound : Parameters),
    Accepts (branchConditions column items) bound ↔ ∀ entries, .obj entries ∈ items → FilterObject entries
  | [], _ => iff_of_true (accepts_pure _ _) (by simp)
  | .obj entries :: rest, bound => by
    rw [branchConditions, accepts_bind fun branch s => (accepts_map _).trans (branchConditions_accepts rest s),
      conditions_accepts entries]
    simp [or_imp, forall_and]
  | .null :: rest, bound | .bool _ :: rest, bound | .num _ :: rest, bound | .str _ :: rest, bound
  | .arr _ :: rest, bound => by
    simpa [branchConditions] using branchConditions_accepts rest bound

end

theorem filterConditions_accepts (filter : Json) (bound : Parameters) :
    Accepts (filterConditions column filter) bound ↔ Shape.filter.Fits filter := by
  unfold filterConditions
  split
  · exact iff_of_true (accepts_pure _ _) .null
  · rw [conditions_accepts]
    exact ⟨.filter, fun (.filter hentries) => hentries⟩
  · rename_i hnull hobject
    refine iff_of_false (not_accepts_throw _ _) ?_
    rintro (_ | _)
    · exact hnull rfl
    · exact hobject _ rfl

theorem lowerFilter_accepts (column : String → κ) (argument : String) (filter : Json) (bound : Parameters) :
    Accepts (lowerFilter argument column filter) bound ↔ Shape.filter.Fits filter :=
  (exists_congr fun _ => lowerFilter_run).trans (filterConditions_accepts filter bound)

theorem lowerFilter_refusal {argument : String} {filter : Json}
    (hrun : (lowerFilter argument column filter).run bound = .error e) :
    ¬Shape.filter.Fits filter ∧ ∃ message, e = .invalidArgument argument message := by
  constructor
  · intro hfits
    obtain ⟨result, hok⟩ := (lowerFilter_accepts column argument filter bound).2 hfits
    cases hrun.symm.trans hok
  · unfold lowerFilter at hrun
    rw [StateT.run] at hrun
    split at hrun
    · cases hrun
    · rename_i fault _
      exact ⟨fault.message, (Except.error.inj hrun).symm⟩

/-! ### Page bounds -/

theorem readBound_refusal (hread : readBound name value = .error e) :
    ¬Shape.bound.Fits value ∧ ∃ message, e = .invalidArgument name message := by
  unfold readBound at hread
  split at hread
  · cases hread
  · rename_i hnull
    split at hread
    · cases hread
    · rename_i hnat
      refine ⟨?_, _, (Except.error.inj hread).symm⟩
      rintro (_ | _ | ⟨hlower, -⟩)
      · exact hnull rfl
      · simp [Json.nat?, hlower] at hnat

theorem fits_of_readBound (hread : readBound name value = .ok limit)
    (hsized : ∀ n, value = .num (.int n) → n < UInt64.bound) : Shape.bound.Fits value := by
  unfold readBound at hread
  split at hread
  · exact .null
  · split at hread
    · rename_i hnat
      unfold Json.nat? at hnat
      split at hnat
      · split at hnat
        · rename_i hlower
          exact .bound hlower (hsized _ rfl)
        · cases hnat
      · cases hnat
    · cases hread

/-! ### Orderings -/

theorem toUpper_eq_iff {letter capital : Char} (hcapital : capital.isUpper) :
    letter.toUpper = capital ↔ letter = capital ∨ letter = capital.toLower := by
  have hcapital : 'A'.val ≤ capital.val ∧ capital.val ≤ 'Z'.val := of_decide_eq_true hcapital
  have hlower : capital.toLower.val = capital.val + 32 := by
    unfold Char.toLower
    rw [dif_pos hcapital]
    rfl
  unfold Char.toUpper
  simp only [Char.ext_iff, hlower]
  split <;> grind

theorem upperAscii_eq_iff (word text : String) (hword : word.toList.all Char.isUpper) :
    Sql.upperAscii text = word ↔ Spells word text := by
  rw [Sql.upperAscii, ← String.toList_inj, String.toList_ofList, Spells]
  generalize word.toList = capitals at hword
  generalize text.toList = letters
  induction capitals generalizing letters with
  | nil => simp
  | cons capital capitals ih =>
    cases letters with
    | nil => simp
    | cons letter letters =>
      rw [List.all_cons, Bool.and_eq_true] at hword
      rw [List.map_cons, List.cons.injEq, List.forall₂_cons, toUpper_eq_iff hword.1, ih hword.2]

theorem isSome_direction_iff (text : String) :
    (Direction.parse? text).isSome ↔ ∃ word ∈ ["ASC", "DESC"], Spells word text := by
  have hasc := upperAscii_eq_iff "ASC" text rfl
  have hdesc := upperAscii_eq_iff "DESC" text rfl
  simp only [List.mem_cons, List.not_mem_nil, or_false, exists_eq_or_imp, exists_eq_left, ← hasc, ← hdesc]
  unfold Direction.parse?
  split <;> simp_all

theorem isSome_nullsOrder_iff (text : String) :
    (NullsOrder.parse? text).isSome ↔ ∃ word ∈ ["FIRST", "LAST"], Spells word text := by
  have hfirst := upperAscii_eq_iff "FIRST" text rfl
  have hlast := upperAscii_eq_iff "LAST" text rfl
  simp only [List.mem_cons, List.not_mem_nil, or_false, exists_eq_or_imp, exists_eq_left, ← hfirst, ← hlast]
  unfold NullsOrder.parse?
  split <;> simp_all

theorem readDirection_ok_iff (value : Option Json) :
    (∃ direction, readDirection value = .ok direction) ↔ OptionalWord ["ASC", "DESC"] value := by
  unfold readDirection OptionalWord
  split
  · simp
  · simp
  · rename_i text
    have hword := isSome_direction_iff text
    split <;> simp_all
  · simp_all

theorem readNulls_ok_iff (value : Option Json) :
    (∃ nulls, readNulls value = .ok nulls) ↔ OptionalWord ["FIRST", "LAST"] value := by
  unfold readNulls OptionalWord
  split
  · simp
  · simp
  · rename_i text
    have hword := isSome_nullsOrder_iff text
    split <;> simp_all
  · simp_all

theorem readOrderItem_ok_iff (entries : List (String × Json)) :
    (∃ item, readOrderItem column entries = .ok item) ↔ OrderObject entries := by
  unfold readOrderItem
  split
  · rename_i name hfield
    constructor
    · rintro ⟨item, hitem⟩
      obtain ⟨direction, hdirection, hitem⟩ := except_bind_eq_ok.1 hitem
      obtain ⟨nulls, hnulls, -⟩ := except_bind_eq_ok.1 hitem
      exact ⟨⟨name, hfield⟩, (readDirection_ok_iff _).1 ⟨_, hdirection⟩, (readNulls_ok_iff _).1 ⟨_, hnulls⟩⟩
    · intro hobject
      obtain ⟨direction, hdirection⟩ := (readDirection_ok_iff _).2 hobject.direction
      obtain ⟨nulls, hnulls⟩ := (readNulls_ok_iff _).2 hobject.nulls
      exact ⟨_, except_bind_eq_ok.2 ⟨direction, hdirection, except_bind_eq_ok.2 ⟨nulls, hnulls, rfl⟩⟩⟩
  · rename_i hfield
    refine iff_of_false (by simp) ?_
    rintro ⟨⟨name, hname⟩, -, -⟩
    exact hfield name hname

theorem readOrderItems_ok_iff (items : List Json) :
    (∃ order, readOrderItems column items = .ok order) ↔
      ∀ item ∈ items, ∃ entries, item = .obj entries ∧ OrderObject entries := by
  induction items with
  | nil => exact iff_of_true ⟨_, rfl⟩ (by simp)
  | cons item rest ih =>
    rw [List.forall_mem_cons, ← ih]
    cases item with
    | obj entries =>
      rw [readOrderItems]
      constructor
      · rintro ⟨order, horder⟩
        obtain ⟨item, hitem, horder⟩ := except_bind_eq_ok.1 horder
        obtain ⟨tail, htail, -⟩ := except_bind_eq_ok.1 horder
        exact ⟨⟨entries, rfl, (readOrderItem_ok_iff entries).1 ⟨item, hitem⟩⟩, tail, htail⟩
      · rintro ⟨⟨_, heq, hentries⟩, tail, htail⟩
        cases heq
        obtain ⟨item, hitem⟩ := (readOrderItem_ok_iff entries).2 hentries
        exact ⟨item :: tail, except_bind_eq_ok.2 ⟨item, hitem, except_bind_eq_ok.2 ⟨tail, htail, rfl⟩⟩⟩
    | _ => simp [readOrderItems]

theorem readOrder_ok_iff (column : String → κ) (order : Json) :
    (∃ items, readOrder column order = .ok items) ↔ Shape.ordering.Fits order := by
  unfold readOrder
  split
  · exact iff_of_true ⟨_, rfl⟩ .null
  · rename_i entries
    constructor
    · rintro ⟨items, hitems⟩
      obtain ⟨item, hitem, -⟩ := except_bind_eq_ok.1 hitems
      exact .order ((readOrderItem_ok_iff entries).1 ⟨item, hitem⟩)
    · rintro (_ | _ | _ | hentries)
      obtain ⟨item, hitem⟩ := (readOrderItem_ok_iff entries).2 hentries
      exact ⟨[item], except_bind_eq_ok.2 ⟨item, hitem, rfl⟩⟩
  · rw [readOrderItems_ok_iff]
    exact ⟨.orders, fun (.orders hitems) => hitems⟩
  · rename_i hnull hobject hlist
    refine iff_of_false (by simp) ?_
    rintro (_ | _ | _ | _ | _)
    · exact hnull rfl
    · exact hobject _ rfl
    · exact hlist _ rfl

theorem lowerOrder_ok_iff (column : String → κ) (order : Json) :
    (∃ items, lowerOrder column order = .ok items) ↔ Shape.ordering.Fits order := by
  rw [← readOrder_ok_iff column]
  unfold lowerOrder
  cases readOrder column order <;> simp

theorem lowerOrder_refusal {order : Json} (hread : lowerOrder column order = .error e) :
    ¬Shape.ordering.Fits order ∧ ∃ message, e = .invalidArgument "orderBy" message := by
  constructor
  · intro hfits
    obtain ⟨items, hok⟩ := (lowerOrder_ok_iff column order).2 hfits
    cases hread.symm.trans hok
  · unfold lowerOrder at hread
    split at hread
    · cases hread
    · rename_i fault _
      exact ⟨fault.message, (Except.error.inj hread).symm⟩

/-! ### Arguments -/

variable {arguments : List (String × Json)}

theorem filterArgument_accepts (name : String) (bound : Parameters) :
    Accepts (filterArgument arguments column name) bound ↔
      ∀ filter, arguments.lookup name = some filter → Shape.filter.Fits filter := by
  unfold filterArgument
  split
  · rename_i hlookup
    exact iff_of_true (accepts_pure _ _) (by simp [hlookup])
  · rename_i filter hlookup
    rw [accepts_map, lowerFilter_accepts]
    simp [hlookup]

theorem filterArgument_refusal (hrun : (filterArgument arguments column name).run bound = .error e) :
    ∃ filter, arguments.lookup name = some filter ∧ ¬Shape.filter.Fits filter ∧
      ∃ message, e = .invalidArgument name message := by
  unfold filterArgument at hrun
  split at hrun
  · cases hrun
  · rename_i filter hlookup
    rcases run_bind_eq_error.1 hrun with hrefused | ⟨_, _, -, hpure⟩
    · exact ⟨filter, hlookup, lowerFilter_refusal hrefused⟩
    · cases hpure

theorem idArgument_accepts (arguments : List (String × Json)) (column : String → κ) (bound : Parameters) :
    Accepts (idArgument arguments column) bound := by
  unfold idArgument
  split
  · exact accepts_pure _ _
  · exact accepts_pure _ _
  · exact ⟨_, rfl⟩

/-- Of two names for a page bound, the one that counts. -/
def CountsAs (arguments : List (String × Json)) (first second name : String) : Prop :=
  name = first ∨ name = second ∧ arguments.lookup first = none

theorem fits_of_pageBound (hread : pageBound arguments first second = .ok limit)
    (hcounts : CountsAs arguments first second name) (hvalue : arguments.lookup name = some value)
    (hsized : ∀ n, value = .num (.int n) → n < UInt64.bound) : Shape.bound.Fits value := by
  unfold pageBound at hread
  rcases hcounts with rfl | ⟨rfl, hfirst⟩
  · rw [hvalue] at hread
    exact fits_of_readBound hread hsized
  · rw [hfirst, hvalue] at hread
    exact fits_of_readBound hread hsized

theorem pageBound_refusal (hread : pageBound arguments first second = .error e) :
    ∃ name value, CountsAs arguments first second name ∧ arguments.lookup name = some value ∧ ¬Shape.bound.Fits value ∧
      ∃ message, e = .invalidArgument name message := by
  unfold pageBound at hread
  split at hread
  · rename_i value hfirst
    exact ⟨first, value, .inl rfl, hfirst, readBound_refusal hread⟩
  · rename_i value hfirst hsecond
    exact ⟨second, value, .inr ⟨rfl, hfirst⟩, hsecond, readBound_refusal hread⟩
  · cases hread

theorem wellFormed_of_readRowChoice {result : RowChoice κ × Parameters}
    (hread : (readRowChoice arguments column).run bound = .ok result)
    (hsized : ∀ name n, arguments.lookup name = some (.num (.int n)) → n < UInt64.bound) :
    WellFormed fun name => arguments.lookup name := by
  obtain ⟨_, _, _, _, _, hwhere, hfilter, hid, -, horder, hlimit, hoffset⟩ := readRowChoice_run_eq_ok.1 hread
  intro shape name value hchooses (hvalue : arguments.lookup name = some value)
  have hsized : ∀ n, value = .num (.int n) → n < UInt64.bound := by
    rintro n rfl
    exact hsized name n hvalue
  cases hchooses with
  | byWhere => exact (filterArgument_accepts "where" _).1 ⟨_, hwhere⟩ value hvalue
  | byFilter => exact (filterArgument_accepts "filter" _).1 ⟨_, hfilter⟩ value hvalue
  | limit => exact fits_of_pageBound hlimit (.inl rfl) hvalue hsized
  | first hnone => exact fits_of_pageBound hlimit (.inr ⟨rfl, hnone⟩) hvalue hsized
  | offset => exact fits_of_pageBound hoffset (.inl rfl) hvalue hsized
  | skip hnone => exact fits_of_pageBound hoffset (.inr ⟨rfl, hnone⟩) hvalue hsized
  | orderBy =>
    rw [orderArgument, hvalue] at horder
    exact (lowerOrder_ok_iff column value).1 ⟨_, horder⟩

/-- A refusal names an argument that is not well-formed. -/
theorem readRowChoice_refusal (hread : (readRowChoice arguments column).run bound = .error e) :
    ∃ name, Offending (fun name => arguments.lookup name) name ∧ ∃ message, e = .invalidArgument name message := by
  simp only [readRowChoice_eq, run_bind_eq_error, run_monadLift_eq_error] at hread
  rcases hread with hwhere | ⟨_, _, -, hfilter | ⟨_, _, -, hid | ⟨_, _, -, hlimit | ⟨_, _, -, hoffset | ⟨_, _, -, horder |
    ⟨_, _, -, hpure⟩⟩⟩⟩⟩⟩
  · obtain ⟨value, hvalue, hfits, hmessage⟩ := filterArgument_refusal hwhere
    exact ⟨"where", ⟨_, value, .byWhere, hvalue, hfits⟩, hmessage⟩
  · obtain ⟨value, hvalue, hfits, hmessage⟩ := filterArgument_refusal hfilter
    exact ⟨"filter", ⟨_, value, .byFilter, hvalue, hfits⟩, hmessage⟩
  · obtain ⟨result, hok⟩ := idArgument_accepts arguments column _
    cases hid.symm.trans hok
  · obtain ⟨name, value, rfl | ⟨rfl, hnone⟩, hvalue, hfits, hmessage⟩ := pageBound_refusal hlimit
    · exact ⟨"limit", ⟨_, value, .limit, hvalue, hfits⟩, hmessage⟩
    · exact ⟨"first", ⟨_, value, .first hnone, hvalue, hfits⟩, hmessage⟩
  · obtain ⟨name, value, rfl | ⟨rfl, hnone⟩, hvalue, hfits, hmessage⟩ := pageBound_refusal hoffset
    · exact ⟨"offset", ⟨_, value, .offset, hvalue, hfits⟩, hmessage⟩
    · exact ⟨"skip", ⟨_, value, .skip hnone, hvalue, hfits⟩, hmessage⟩
  · unfold orderArgument at horder
    cases hvalue : arguments.lookup "orderBy" with
    | none =>
      rw [hvalue] at horder
      cases horder
    | some value =>
      rw [hvalue] at horder
      obtain ⟨hfits, hmessage⟩ := lowerOrder_refusal horder
      exact ⟨"orderBy", ⟨_, value, .orderBy, hvalue, hfits⟩, hmessage⟩
  · cases hpure

theorem filterArgument_steady {result : List (List (Condition κ)) × Parameters}
    (hrun : (filterArgument arguments column name).run bound = .ok result) (other : Parameters) :
    ∃ result', (filterArgument arguments column name).run other = .ok result' :=
  (filterArgument_accepts name other).2 ((filterArgument_accepts name bound).1 ⟨_, hrun⟩)

/-- Arguments that are accepted after some parameters are accepted after any, and ask for the same order and page. -/
theorem readRowChoice_steady {choice : RowChoice κ}
    (hread : (readRowChoice arguments column).run bound = .ok (choice, bound')) (other : Parameters) :
    ∃ choice' other', (readRowChoice arguments column).run other = .ok (choice', other') ∧
      choice'.order = choice.order ∧ choice'.limit = choice.limit ∧ choice'.offset = choice.offset := by
  obtain ⟨_, _, _, _, _, hwhere, hfilter, hid, -, horder, hlimit, hoffset⟩ := readRowChoice_run_eq_ok.1 hread
  obtain ⟨⟨byWhere, afterWhere⟩, hwhere'⟩ := filterArgument_steady hwhere other
  obtain ⟨⟨byFilter, afterFilter⟩, hfilter'⟩ := filterArgument_steady hfilter afterWhere
  obtain ⟨⟨byId, afterId⟩, hid'⟩ := idArgument_accepts arguments column afterFilter
  refine ⟨{ choice with conditions := byWhere ++ byFilter ++ byId }, afterId, ?_, rfl, rfl, rfl⟩
  exact readRowChoice_run_eq_ok.2
    ⟨byWhere, afterWhere, byFilter, afterFilter, byId, hwhere', hfilter', hid', rfl, horder, hlimit, hoffset⟩

end RelationalGraphQL.Arguments
