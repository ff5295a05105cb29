import RelationalGraphQL.Table
import Mathlib.Data.List.Induction
import Mathlib.Data.List.Nodup

/-!
Ordered tables. A key has the value that was set last, in the place of its first setting, so a table made of a list of
entries holds exactly the last entry of every key.
-/

namespace RelationalGraphQL

/-- An item that no later one of its name replaces. -/
def LastOf {α : Type} (nameOf : α → String) (items : List α) (item : α) : Prop :=
  ∃ before after, items = before ++ item :: after ∧ ∀ later ∈ after, nameOf later ≠ nameOf item

theorem lastOf_concat {α : Type} {nameOf : α → String} {items : List α} {last item : α} :
    LastOf nameOf (items ++ [last]) item ↔ item = last ∨ nameOf item ≠ nameOf last ∧ LastOf nameOf items item := by
  constructor
  · rintro ⟨before, after, hitems, hafter⟩
    rcases List.eq_nil_or_concat after with rfl | ⟨middle, final, rfl⟩
    · have hend := List.append_inj_right' hitems rfl
      exact .inl (List.head_eq_of_cons_eq hend).symm
    · rw [List.concat_eq_append] at hitems hafter
      rw [← List.cons_append, ← List.append_assoc] at hitems
      have hend := List.append_inj_right' hitems rfl
      have hlast : last = final := List.head_eq_of_cons_eq hend
      refine .inr ⟨?_, before, middle, List.append_inj_left' hitems rfl, ?_⟩
      · rw [hlast]
        exact (hafter final (by simp)).symm
      · intro later hlater
        exact hafter later (by simp [hlater])
  · rintro (rfl | ⟨hname, before, after, rfl, hafter⟩)
    · exact ⟨items, [], rfl, nofun⟩
    · refine ⟨before, after ++ [last], by simp, ?_⟩
      intro later hlater
      rcases List.mem_append.1 hlater with hlater | hlater
      · exact hafter later hlater
      · rw [List.mem_singleton.1 hlater]
        exact hname.symm

theorem LastOf.mem {α : Type} {nameOf : α → String} {items : List α} {item : α} (hlast : LastOf nameOf items item) :
    item ∈ items := by
  obtain ⟨before, after, rfl, -⟩ := hlast
  simp

theorem lastOf_map {α β : Type} {nameOf : β → String} {f : α → β} {items : List α} {value : β} :
    LastOf nameOf (items.map f) value ↔ ∃ item, LastOf (fun item => nameOf (f item)) items item ∧ f item = value := by
  constructor
  · rintro ⟨before, after, hitems, hafter⟩
    obtain ⟨front, rest, rfl, rfl, hrest⟩ := List.map_eq_append_iff.1 hitems
    obtain ⟨item, back, rfl, rfl, rfl⟩ := List.map_eq_cons_iff.1 hrest
    refine ⟨item, ⟨front, back, rfl, ?_⟩, rfl⟩
    intro later hlater
    exact hafter (f later) (List.mem_map_of_mem hlater)
  · rintro ⟨item, ⟨before, after, rfl, hafter⟩, rfl⟩
    refine ⟨before.map f, after.map f, by simp, ?_⟩
    intro later hlater
    obtain ⟨source, hsource, rfl⟩ := List.mem_map.1 hlater
    exact hafter source hsource

namespace Table

variable {α : Type} {table entries : List (String × α)} {key : String} {value : α} {entry : String × α}

theorem lookup_cons (key : String) (value : α) (table : List (String × α)) (name : String) :
    List.lookup name ((key, value) :: table) = if name = key then some value else table.lookup name := by
  rw [List.lookup_cons]
  by_cases hname : name = key
  · rw [if_pos hname, beq_iff_eq.2 hname]
  · rw [if_neg hname, beq_eq_false_iff_ne.2 hname]

theorem lookup_insert (key : String) (value : α) (table : List (String × α)) (name : String) :
    (Table.insert key value table).lookup name = if name = key then some value else table.lookup name := by
  induction table with
  | nil => exact Table.lookup_cons key value [] name
  | cons entry table ih =>
    obtain ⟨k, v⟩ := entry
    rw [Table.insert]
    split
    · rename_i hkey
      rw [Table.lookup_cons, Table.lookup_cons, hkey]
      split <;> rfl
    · rename_i hkey
      rw [Table.lookup_cons, Table.lookup_cons, ih]
      by_cases hname : name = k
      · rw [if_pos hname, if_pos hname, if_neg (hname ▸ hkey)]
      · rw [if_neg hname, if_neg hname]

theorem lookup_insertNew (key : String) (value : α) (table : List (String × α)) (name : String) :
    (Table.insertNew key value table).lookup name = (table.lookup name).or (if name = key then some value else none) := by
  unfold Table.insertNew
  split
  · rename_i hsome
    by_cases hname : name = key
    · obtain ⟨old, hold⟩ := Option.isSome_iff_exists.1 hsome
      rw [hname, hold, Option.some_or]
    · rw [if_neg hname, Option.or_none]
  · rw [List.lookup_append, Table.lookup_cons, List.lookup_nil]

theorem lookup_filter_ne {κ : Type} [DecidableEq κ] [BEq κ] [LawfulBEq κ] {key other : κ} (hne : key ≠ other)
    (entries : List (κ × α)) : (entries.filter fun entry => entry.1 ≠ other).lookup key = entries.lookup key := by
  induction entries with
  | nil => rfl
  | cons entry entries ih =>
    by_cases hother : entry.1 = other
    · have hkey : (key == entry.1) = false := beq_eq_false_iff_ne.2 (hother ▸ hne)
      rw [List.filter_cons_of_neg (by simp [hother]), ih, List.lookup_cons, hkey]
    · rw [List.filter_cons_of_pos (by simp [hother]), List.lookup_cons, List.lookup_cons, ih]

theorem insert_of_notMem (hkey : key ∉ table.map Prod.fst) (value : α) :
    Table.insert key value table = table ++ [(key, value)] := by
  induction table with
  | nil => rfl
  | cons entry rest ih =>
    have hne : entry.1 ≠ key := fun heq => hkey (heq ▸ List.mem_cons_self)
    rw [Table.insert, if_neg hne, ih fun hrest => hkey (List.mem_cons_of_mem _ hrest), List.cons_append]

theorem lookup_of_mem (hkeys : (table.map Prod.fst).Nodup) (hmem : (key, value) ∈ table) :
    table.lookup key = some value := by
  induction table with
  | nil => cases hmem
  | cons entry rest ih =>
    obtain ⟨hnew, hkeys⟩ := List.nodup_cons.1 hkeys
    rw [Table.lookup_cons]
    rcases List.mem_cons.1 hmem with rfl | hmem
    · exact if_pos rfl
    · have hne : key ≠ entry.1 := fun heq => hnew (heq ▸ List.mem_map_of_mem hmem)
      rw [if_neg hne, ih hkeys hmem]

theorem mem_of_lookup {name : String} (hlookup : table.lookup name = some value) : (name, value) ∈ table := by
  obtain ⟨before, after, rfl, -⟩ := List.lookup_eq_some_iff.1 hlookup
  simp

theorem keys_insert (key : String) (value : α) (table : List (String × α)) :
    (Table.insert key value table).map Prod.fst =
      if key ∈ table.map Prod.fst then table.map Prod.fst else table.map Prod.fst ++ [key] := by
  induction table with
  | nil => rfl
  | cons entry rest ih =>
    rw [Table.insert]
    by_cases hkey : entry.1 = key
    · simp [hkey]
    · rw [if_neg hkey, List.map_cons, ih, List.map_cons]
      by_cases hrest : key ∈ rest.map Prod.fst
      · rw [if_pos hrest, if_pos (List.mem_cons_of_mem _ hrest)]
      · have hne : key ∉ entry.1 :: rest.map Prod.fst := by
          simp only [List.mem_cons, not_or]
          exact ⟨fun heq => hkey heq.symm, hrest⟩
        rw [if_neg hrest, if_neg hne, List.cons_append]

theorem nodup_keys_insert (hkeys : (table.map Prod.fst).Nodup) (key : String) (value : α) :
    ((Table.insert key value table).map Prod.fst).Nodup := by
  rw [keys_insert]
  split
  · exact hkeys
  · rename_i hkey
    rw [← List.concat_eq_append]
    exact hkeys.concat hkey

theorem ofList_concat (entries : List (String × α)) (entry : String × α) :
    Table.ofList (entries ++ [entry]) = Table.insert entry.1 entry.2 (Table.ofList entries) := by
  unfold Table.ofList Table.insertAll
  rw [List.foldl_append]
  rfl

theorem nodup_keys_ofList (entries : List (String × α)) : ((Table.ofList entries).map Prod.fst).Nodup := by
  induction entries using List.reverseRecOn with
  | nil => exact List.nodup_nil
  | append_singleton entries entry ih =>
    rw [ofList_concat]
    exact nodup_keys_insert ih entry.1 entry.2

theorem mem_insert (hkeys : (table.map Prod.fst).Nodup) :
    entry ∈ Table.insert key value table ↔ entry = (key, value) ∨ entry.1 ≠ key ∧ entry ∈ table := by
  have hlookup := lookup_insert key value table entry.1
  constructor
  · intro hmem
    rw [lookup_of_mem (nodup_keys_insert hkeys key value) hmem] at hlookup
    split at hlookup
    · rename_i hkey
      exact .inl (Prod.ext hkey (Option.some.inj hlookup))
    · rename_i hkey
      exact .inr ⟨hkey, mem_of_lookup hlookup.symm⟩
  · intro hentry
    change (entry.1, entry.2) ∈ Table.insert key value table
    apply mem_of_lookup
    rcases hentry with rfl | ⟨hkey, hmem⟩
    · rw [hlookup, if_pos rfl]
    · rw [hlookup, if_neg hkey]
      exact lookup_of_mem hkeys hmem

/-- A table holds the last entry of every key. -/
theorem mem_ofList : entry ∈ Table.ofList entries ↔ LastOf Prod.fst entries entry := by
  induction entries using List.reverseRecOn with
  | nil =>
    constructor
    · intro hmem
      cases hmem
    · intro hlast
      cases hlast.mem
  | append_singleton entries last ih => rw [ofList_concat, mem_insert (nodup_keys_ofList _), lastOf_concat, ih]

theorem lookup_ofList (hvalues : ∀ entry ∈ entries, ∀ other ∈ entries, entry.1 = other.1 → entry = other) :
    (Table.ofList entries).lookup key = some value ↔ (key, value) ∈ entries := by
  have hmem (entry : String × α) : entry ∈ Table.ofList entries ↔ entry ∈ entries := by
    induction entries using List.reverseRecOn with
    | nil => exact Iff.rfl
    | append_singleton entries last ih =>
      have hold : ∀ entry ∈ entries, ∀ other ∈ entries, entry.1 = other.1 → entry = other :=
        fun entry hentry other hother =>
          hvalues entry (List.mem_append_left _ hentry) other (List.mem_append_left _ hother)
      rw [ofList_concat, mem_insert (nodup_keys_ofList _), ih hold, List.mem_append, List.mem_singleton]
      constructor
      · rintro (hlast | ⟨-, hentry⟩)
        · exact .inr hlast
        · exact .inl hentry
      · rintro (hentry | hlast)
        · by_cases hkey : entry.1 = last.1
          · exact .inl (hvalues entry (List.mem_append_left _ hentry) last (by simp) hkey)
          · exact .inr ⟨hkey, hentry⟩
        · exact .inl hlast
  rw [← hmem]
  constructor
  · exact mem_of_lookup
  · exact lookup_of_mem (nodup_keys_ofList entries)

/-- A key that is there already keeps its place, so setting it commutes with setting other keys. -/
theorem insert_comm {other : String} (hkey : key ∈ table.map Prod.fst) (hne : other ≠ key) (value value' : α) :
    Table.insert key value (Table.insert other value' table) =
      Table.insert other value' (Table.insert key value table) := by
  induction table with
  | nil => cases hkey
  | cons entry rest ih =>
    obtain ⟨first, old⟩ := entry
    by_cases hfirst : first = key
    · subst hfirst
      have hswap : first ≠ other := fun heq => hne heq.symm
      simp [Table.insert, hswap]
    · have hrest : key ∈ rest.map Prod.fst := by
        rcases List.mem_cons.1 hkey with heq | hrest
        · exact absurd heq.symm hfirst
        · exact hrest
      by_cases hother : first = other
      · subst hother
        simp [Table.insert, hne]
      · simp [Table.insert, hfirst, hother, ih hrest]

theorem insertAll_cons (entry : String × α) (entries table : List (String × α)) :
    Table.insertAll (entry :: entries) table = Table.insertAll entries (Table.insert entry.1 entry.2 table) := rfl

theorem insertAll_append (entries entries' table : List (String × α)) :
    Table.insertAll (entries ++ entries') table = Table.insertAll entries' (Table.insertAll entries table) :=
  List.foldl_append

theorem insert_insertAll (hnew : key ∉ entries.map Prod.fst)
    (hkey : key ∈ table.map Prod.fst) (value : α) :
    Table.insert key value (Table.insertAll entries table) = Table.insertAll entries (Table.insert key value table) := by
  induction entries generalizing table with
  | nil => rfl
  | cons entry entries ih =>
    rw [List.map_cons, List.mem_cons, not_or] at hnew
    have hthere : key ∈ (Table.insert entry.1 entry.2 table).map Prod.fst := by
      rw [keys_insert]
      split
      · exact hkey
      · exact List.mem_append_left _ hkey
    rw [insertAll_cons, insertAll_cons, ih hnew.2 hthere, insert_comm hkey (fun heq => hnew.1 heq.symm)]

theorem insert_insert (key : String) (value value' : α) (table : List (String × α)) :
    Table.insert key value (Table.insert key value' table) = Table.insert key value table := by
  induction table with
  | nil => simp [Table.insert]
  | cons entry rest ih =>
    by_cases hkey : entry.1 = key
    · simp [Table.insert, hkey]
    · simp [Table.insert, hkey, ih]

/-- Setting a key in a list of entries first, or behind them, comes to the same. -/
theorem insertAll_insert (hkeys : (entries.map Prod.fst).Nodup) (key : String) (value : α)
    (table : List (String × α)) :
    Table.insertAll (Table.insert key value entries) table = Table.insert key value (Table.insertAll entries table) := by
  induction entries generalizing table with
  | nil => rfl
  | cons entry entries ih =>
    obtain ⟨hnew, hkeys⟩ := List.nodup_cons.1 hkeys
    rw [Table.insert]
    split
    · rename_i hkey
      have hthere : key ∈ (Table.insert entry.1 entry.2 table).map Prod.fst := by
        rw [hkey, keys_insert]
        split
        · assumption
        · simp
      rw [insertAll_cons, insertAll_cons, insert_insertAll (hkey ▸ hnew) hthere, hkey, insert_insert]
    · rw [insertAll_cons, ih hkeys, insertAll_cons]

theorem insertAll_ofList (entries table : List (String × α)) :
    Table.insertAll (Table.ofList entries) table = Table.insertAll entries table := by
  induction entries using List.reverseRecOn with
  | nil => rfl
  | append_singleton entries entry ih =>
    rw [ofList_concat, insertAll_insert (nodup_keys_ofList _), ih, insertAll_append]
    rfl

end Table

end RelationalGraphQL
