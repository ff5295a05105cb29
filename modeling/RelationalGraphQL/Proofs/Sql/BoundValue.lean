import RelationalGraphQL.Sql.Value
import Mathlib.Data.Set.Function

/-!
# Bound values and their JSON form

A JSON value is bound as it is, object by object and list by list, with one exception: an integer beyond the signed
64-bit range is bound by its digits, as a text. So a bound value shows the JSON value that it was made from exactly if
no such integer stands outside an object, and exactly then it is also what the unmarked JSON form reads as
(`bound_values_keep_json`).
-/

namespace RelationalGraphQL

namespace Json

/-- An integer stands in a value, on its own or in a list, but not in an object. -/
inductive HoldsInteger (value : Int) : Json → Prop where
  | self : HoldsInteger value (.num (.int value))
  | item {items : List Json} {item : Json} (hitem : item ∈ items) (hholds : HoldsInteger value item) :
      HoldsInteger value (.arr items)

/-- No integer outside the objects of a value is beyond the signed 64-bit range. -/
def FitsWords (json : Json) : Prop := ∀ value, json.HoldsInteger value → value < Int64.bound

theorem fitsWords_int {value : Int} : FitsWords (.num (.int value)) ↔ value < Int64.bound := by
  constructor
  · intro hfits
    exact hfits value .self
  · intro hvalue other hother
    cases hother
    exact hvalue

theorem fitsWords_arr {items : List Json} : FitsWords (.arr items) ↔ ∀ item ∈ items, FitsWords item := by
  constructor
  · intro hfits item hitem value hholds
    exact hfits value (.item hitem hholds)
  · intro hitems value hholds
    cases hholds with
    | item hitem hholds => exact hitems _ hitem value hholds

/-- What holds of a list if it holds of its items, and of whatever is no list, holds of every value. -/
@[elab_as_elim]
theorem list_induction {motive : Json → Prop} (null : motive .null) (bool : ∀ value, motive (.bool value))
    (int : ∀ value, motive (.num (.int value))) (float : ∀ value, motive (.num (.float value)))
    (str : ∀ value, motive (.str value)) (arr : ∀ items, (∀ item ∈ items, motive item) → motive (.arr items))
    (obj : ∀ entries, motive (.obj entries)) : ∀ json, motive json
  | .null => null
  | .bool value => bool value
  | .num (.int value) => int value
  | .num (.float value) => float value
  | .str value => str value
  | .arr items => arr items fun item _ => list_induction null bool int float str arr obj item
  | .obj entries => obj entries

end Json

namespace Sql.Value

open Json (FitsWords fitsWords_arr fitsWords_int)

/-! ### Lists item by item -/

theorem ofItems_eq_map (items : List Json) : ofItems items = items.map ofJson := by
  induction items with
  | nil => rfl
  | cons item items ih => rw [ofItems, ih, List.map_cons]

theorem toItems_eq_map (items : List Value) : toItems items = items.map toJson := by
  induction items with
  | nil => rfl
  | cons item items ih => rw [toItems, ih, List.map_cons]

theorem readItems_eq_map (items : List Json) : readItems items = items.map read := by
  induction items with
  | nil => rfl
  | cons item items ih => rw [readItems, ih, List.map_cons]

/-! ### What a bound value shows -/

theorem toJson_ofJson_iff (json : Json) : (ofJson json).toJson = json ↔ json.FitsWords := by
  induction json using Json.list_induction with
  | null => exact iff_of_true rfl nofun
  | bool value => exact iff_of_true rfl nofun
  | int value =>
    rw [fitsWords_int, ofJson]
    split
    · rename_i hvalue
      exact iff_of_true rfl hvalue
    · rename_i hvalue
      exact iff_of_false nofun hvalue
  | float value => exact iff_of_true rfl nofun
  | str value => exact iff_of_true rfl nofun
  | arr items ih =>
    have hitems : items.map (toJson ∘ ofJson) = items.map id ↔ ∀ item ∈ items, item.FitsWords := by
      rw [List.map_inj_left]
      exact forall₂_congr ih
    rw [ofJson, toJson, ofItems_eq_map, toItems_eq_map, List.map_map, Json.arr.injEq, fitsWords_arr, ← hitems,
      List.map_id]
  | obj entries => exact iff_of_true rfl nofun

theorem read_eq_ofJson_iff (json : Json) : read json = ofJson json ↔ json.FitsWords := by
  induction json using Json.list_induction with
  | null => exact iff_of_true rfl nofun
  | bool value => exact iff_of_true rfl nofun
  | int value =>
    rw [fitsWords_int, read, ofJson]
    by_cases hvalue : value < Int64.bound
    · rw [if_pos hvalue, if_pos hvalue]
      exact iff_of_true rfl hvalue
    · rw [if_neg hvalue, if_neg hvalue]
      cases Binary64.ofInt value with
      | none => exact iff_of_false nofun hvalue
      | some double => exact iff_of_false nofun hvalue
  | float value => exact iff_of_true rfl nofun
  | str value => exact iff_of_true rfl nofun
  | arr items ih =>
    rw [read, ofJson, readItems_eq_map, ofItems_eq_map, Value.array.injEq, List.map_inj_left, fitsWords_arr]
    exact forall₂_congr ih
  | obj entries => exact iff_of_true rfl nofun

/-- A bound value whose JSON form tells what it is: no integer is beyond the signed 64-bit range, and of JSON documents
there are objects only. -/
inductive Plain : Value → Prop where
  | null : Plain .null
  | boolean (value : Bool) : Plain (.boolean value)
  | integer {value : Int} (hvalue : value < Int64.bound) : Plain (.integer value)
  | float (value : Binary64) : Plain (.float value)
  | text (value : String) : Plain (.text value)
  | array {items : List Value} (hitems : ∀ item ∈ items, Plain item) : Plain (.array items)
  | object (entries : List (String × Json)) : Plain (.json (.obj entries))

theorem plain_ofJson {json : Json} (hfits : json.FitsWords) : (ofJson json).Plain := by
  induction json using Json.list_induction with
  | null => exact .null
  | bool value => exact .boolean value
  | int value =>
    have hvalue := fitsWords_int.1 hfits
    rw [ofJson, if_pos hvalue]
    exact .integer hvalue
  | float value => exact .float value
  | str value => exact .text value
  | arr items ih =>
    rw [ofJson, ofItems_eq_map]
    apply Plain.array
    rw [List.forall_mem_map]
    intro item hitem
    exact ih item hitem (fitsWords_arr.1 hfits item hitem)
  | obj entries => exact .object entries

theorem ofJson_toJson {value : Value} (hplain : value.Plain) : ofJson value.toJson = value := by
  induction hplain with
  | null => rfl
  | boolean value => rfl
  | integer hvalue => rw [toJson, ofJson, if_pos hvalue]
  | float value => rfl
  | text value => rfl
  | @array items _ ih =>
    have hitems : items.map (ofJson ∘ toJson) = items.map id := List.map_inj_left.2 ih
    rw [toJson, ofJson, toItems_eq_map, ofItems_eq_map, List.map_map, hitems, List.map_id]
  | object entries => rfl

theorem fitsWords_toJson {value : Value} (hplain : value.Plain) : value.toJson.FitsWords :=
  (toJson_ofJson_iff _).1 (congrArg toJson (ofJson_toJson hplain))

/-- The JSON form of a bound value is the value that it was made from, and reading that value gives the bound value,
exactly if no integer outside an object is beyond the signed 64-bit range. Between these JSON values and the bound
values that their form tells apart, making a bound value, writing it and reading it are inverse to each other. -/
theorem bound_values_keep_json :
    (∀ json, (ofJson json).toJson = json ↔ json.FitsWords) ∧
      (∀ json, read json = ofJson json ↔ json.FitsWords) ∧
      Set.BijOn ofJson {json | json.FitsWords} {value | value.Plain} ∧
      Set.InvOn toJson ofJson {json | json.FitsWords} {value | value.Plain} ∧
      Set.InvOn toJson read {json | json.FitsWords} {value | value.Plain} := by
  have hofJson : Set.InvOn toJson ofJson {json | json.FitsWords} {value | value.Plain} :=
    ⟨fun json hfits => (toJson_ofJson_iff json).2 hfits, fun _ hplain => ofJson_toJson hplain⟩
  have hread : Set.EqOn ofJson read {json | json.FitsWords} :=
    fun json hfits => ((read_eq_ofJson_iff json).2 hfits).symm
  have hmaps : Set.MapsTo toJson {value | value.Plain} {json | json.FitsWords} :=
    fun _ hplain => fitsWords_toJson hplain
  refine ⟨toJson_ofJson_iff, read_eq_ofJson_iff, ?_, hofJson, ?_⟩
  · exact hofJson.bijOn (fun _ hfits => plain_ofJson hfits) hmaps
  · exact ⟨hofJson.1.congr_right hread, hofJson.2.congr_right hmaps hread⟩

end Sql.Value

end RelationalGraphQL
