import RelationalGraphQL.Proofs.Document.Scanning
import Mathlib.Data.List.Induction

/-!
# Literals read back

The notation of documents for a JSON value quotes text with the escapes of JSON, while a document is read with escapes
of its own. The two agree on every character but one, and so a literal, however nested, is read as the value it was
written for (`readValue_literal`).
-/

namespace RelationalGraphQL.Document

/-! ### Readers and the lexemes they take -/

section Readers

variable {α β : Type} {reader : Reader α} {lexemes : List Lexeme}

/-- On tokens with these lexemes a reader gives the value, and leaves what follows. -/
def Takes (reader : Reader α) (lexemes : List Lexeme) (value : α) : Prop :=
  ∀ found rest, found.map Token.lexeme = lexemes → reader (found ++ rest) = some (value, rest)

theorem takes_pure (value : α) : Takes (pure value) [] value := by
  intro found rest hfound
  rw [List.map_eq_nil_iff.1 hfound]
  rfl

theorem Takes.bind {next : α → Reader β} {lexemes' : List Lexeme} {value : α} {value' : β}
    (hreader : Takes reader lexemes value) (hnext : Takes (next value) lexemes' value') :
    Takes (reader >>= next) (lexemes ++ lexemes') value' := by
  intro found rest hfound
  obtain ⟨front, back, rfl, hfront, hback⟩ := List.map_eq_append_iff.1 hfound
  rw [List.append_assoc]
  exact Option.bind_eq_some_iff.2 ⟨(value, back ++ rest), hreader front (back ++ rest) hfront, hnext back rest hback⟩

theorem Takes.bind_pure {value : α} (hreader : Takes reader lexemes value) (f : α → β) :
    Takes (reader >>= fun found => pure (f found)) lexemes (f value) := by
  rw [← List.append_nil lexemes]
  exact hreader.bind (takes_pure (f value))

/-- A reader may be replaced by what it does on the first of the lexemes. -/
theorem Takes.of_first {reader' : Reader α} {first : Lexeme} {others : List Lexeme} {value : α}
    (htakes : Takes reader' (first :: others) value)
    (hreader : ∀ position tokens, reader (⟨first, position⟩ :: tokens) = reader' (⟨first, position⟩ :: tokens)) :
    Takes reader (first :: others) value := by
  intro found rest hfound
  obtain ⟨⟨lexeme, position⟩, found, rfl, rfl, hothers⟩ := List.map_eq_cons_iff.1 hfound
  rw [List.cons_append, hreader]
  exact htakes _ rest hfound

theorem takes_expect (lexeme : Lexeme) : Takes (expect lexeme) [lexeme] () := by
  intro found rest hfound
  obtain ⟨token, rfl, htoken⟩ := List.map_eq_singleton_iff.1 hfound
  exact if_pos htoken

theorem takes_name (text : String) : Takes name [word text] text := by
  intro found rest hfound
  obtain ⟨⟨lexeme, position⟩, rfl, rfl⟩ := List.map_eq_singleton_iff.1 hfound
  rfl

theorem takes_named {value : α} (hreader : Takes reader lexemes value) (key : String) :
    Takes (named reader) (word key :: punctuator ':' :: lexemes) (key, value) := by
  exact (takes_name key).bind ((takes_expect (punctuator ':')).bind (hreader.bind_pure fun value => (key, value)))

variable {close : Lexeme} {item : Reader α} {parts : List β} {lexemesOf : β → List Lexeme} {valueOf : β → α}

/-- Items are read one after another. Each takes a token, so that the tokens at hand bound their number. -/
theorem repeatWhile_takes (hparts : ∀ part ∈ parts, Takes item (lexemesOf part) (valueOf part))
    (hfirst : ∀ part ∈ parts, ∃ first others, lexemesOf part = first :: others ∧ first ≠ close)
    {found rest : List Token} (hfound : found.map Token.lexeme = parts.flatMap lexemesOf)
    (hrest : rest.head?.map Token.lexeme = some close) {fuel : Nat} (hfuel : found.length ≤ fuel) :
    repeatWhile (fun next => next ≠ some close) item fuel (found ++ rest) = some (parts.map valueOf, rest) := by
  induction parts generalizing found fuel with
  | nil =>
    rw [List.map_eq_nil_iff.1 hfound]
    cases fuel with
    | zero => rfl
    | succ fuel =>
      have hstop : ¬(decide (rest.head?.map Token.lexeme ≠ some close) = true) := by simp [hrest]
      exact congrFun (if_neg hstop) rest
  | cons part parts ih =>
    rw [List.flatMap_cons] at hfound
    obtain ⟨front, back, rfl, hfront, hback⟩ := List.map_eq_append_iff.1 hfound
    obtain ⟨first, others, hlexemes, hopen⟩ := hfirst part List.mem_cons_self
    obtain ⟨token, front', rfl, htoken, -⟩ := List.map_eq_cons_iff.1 (hfront.trans hlexemes)
    have hread := hparts part List.mem_cons_self (token :: front') (back ++ rest) hfront
    rw [List.length_append, List.length_cons] at hfuel
    cases fuel with
    | zero => omega
    | succ fuel =>
      have hothers := ih (fun part hpart => hparts part (List.mem_cons_of_mem _ hpart))
        (fun part hpart => hfirst part (List.mem_cons_of_mem _ hpart)) hback (by omega : back.length ≤ fuel)
      have hgoes : decide (some token.lexeme ≠ some close) = true := by simp [htoken, hopen]
      rw [List.append_assoc]
      refine (congrFun (if_pos hgoes) _).trans ?_
      refine Option.bind_eq_some_iff.2 ⟨_, hread, Option.bind_eq_some_iff.2 ⟨_, hothers, rfl⟩⟩

theorem takes_upTo (hparts : ∀ part ∈ parts, Takes item (lexemesOf part) (valueOf part))
    (hfirst : ∀ part ∈ parts, ∃ first others, lexemesOf part = first :: others ∧ first ≠ close) :
    Takes (upTo close item) (parts.flatMap lexemesOf ++ [close]) (parts.map valueOf) := by
  intro found rest hfound
  obtain ⟨found, last, rfl, hitems, hlast⟩ := List.map_eq_append_iff.1 hfound
  obtain ⟨token, rfl, htoken⟩ := List.map_eq_singleton_iff.1 hlast
  have hmany : many (fun next => next ≠ some close) item (found ++ token :: rest) =
      some (parts.map valueOf, token :: rest) := by
    apply repeatWhile_takes hparts hfirst hitems
    · exact congrArg some htoken
    · simp
  rw [List.append_assoc]
  refine Option.bind_eq_some_iff.2 ⟨_, hmany, Option.bind_eq_some_iff.2 ⟨((), rest), ?_, rfl⟩⟩
  exact if_pos htoken

end Readers

/-! ### Values -/

section Values

variable (withVariables : Bool) (nested : Option (Reader Value))

theorem takes_nameValue (text : String) : Takes (valueWith withVariables nested) [word text] (nameValue text) := by
  have htakes := (takes_expect (word text)).bind_pure fun _ => nameValue text
  exact htakes.of_first fun _ _ => rfl

theorem takes_int (number : Int) : Takes (valueWith withVariables nested) [.int number] (.int number) := by
  have htakes := (takes_expect (.int number)).bind_pure fun _ => Value.int number
  exact htakes.of_first fun _ _ => rfl

theorem takes_text (content : String) : Takes (valueWith withVariables nested) [.text content] (.text content) := by
  have htakes := (takes_expect (.text content)).bind_pure fun _ => Value.text content
  exact htakes.of_first fun _ _ => rfl

variable {item : Reader Value} {lexemes : List Lexeme}

theorem takes_list {items : List Value} (hitems : Takes (upTo (punctuator ']') item) lexemes items) :
    Takes (valueWith withVariables (some item)) (punctuator '[' :: lexemes) (.list items) := by
  have htakes : Takes (do expect (punctuator '['); return Value.list (← upTo (punctuator ']') item))
      (punctuator '[' :: lexemes) (Value.list items) :=
    (takes_expect (punctuator '[')).bind (hitems.bind_pure Value.list)
  exact htakes.of_first fun _ _ => rfl

theorem takes_object {entries : List (String × Value)}
    (hentries : Takes (upTo (punctuator '\x7d') (named item)) lexemes entries) :
    Takes (valueWith withVariables (some item)) (punctuator '\x7b' :: lexemes) (.object (sortedEntries entries)) := by
  have htakes : Takes
      (do expect (punctuator '\x7b'); return Value.object (sortedEntries (← upTo (punctuator '\x7d') (named item))))
      (punctuator '\x7b' :: lexemes) (Value.object (sortedEntries entries)) :=
    (takes_expect (punctuator '\x7b')).bind (hentries.bind_pure fun entries => Value.object (sortedEntries entries))
  exact htakes.of_first fun _ _ => rfl

end Values

/-! ### Entries in order -/

theorem insertSorted_last {key : String} {value : Value} {entries : List (String × Value)}
    (hkeys : ∀ entry ∈ entries, entry.1 < key) : insertSorted key value entries = entries ++ [(key, value)] := by
  induction entries with
  | nil => rfl
  | cons entry entries ih =>
    have hentry : entry.1 < key := hkeys entry List.mem_cons_self
    have hne : key ≠ entry.1 := by
      intro heq
      rw [heq] at hentry
      exact String.lt_irrefl _ hentry
    rw [insertSorted, if_neg (String.lt_asymm hentry), if_neg hne,
      ih fun entry' hentry' => hkeys entry' (List.mem_cons_of_mem entry hentry'), List.cons_append]

theorem sortedEntries_of_pairwise {entries : List (String × Value)}
    (hsorted : entries.Pairwise fun entry entry' => entry.1 < entry'.1) : sortedEntries entries = entries := by
  induction entries using List.reverseRecOn with
  | nil => rfl
  | append_singleton entries entry ih =>
    obtain ⟨hfront, -, hlast⟩ := List.pairwise_append.1 hsorted
    have hentries := ih hfront
    rw [sortedEntries] at hentries ⊢
    rw [List.foldl_append, hentries]
    exact insertSorted_last fun entry' hentry' => hlast entry' hentry' entry List.mem_cons_self

/-! ### Literals -/

/-- The values whose literals can be read with so many brackets open: integers have at most 64 bits, text is without
U+0008, and the keys of an object are names in their order. -/
inductive Writable : Nat → Json → Prop where
  | null {brackets} : Writable brackets .null
  | bool {brackets} (value : Bool) : Writable brackets (.bool value)
  | int {brackets value} (hvalue : Int64.Within value) : Writable brackets (.num (.int value))
  | str {brackets value} (hvalue : ∀ c ∈ value.toList, c.toNat ≠ 8) : Writable brackets (.str value)
  | arr {brackets items} (hitems : ∀ item ∈ items, Writable brackets item) : Writable (brackets + 1) (.arr items)
  | obj {brackets entries} (hnames : ∀ entry ∈ entries, isNameText entry.1.toList)
      (hsorted : entries.Pairwise fun entry entry' => entry.1 < entry'.1)
      (hvalues : ∀ entry ∈ entries, Writable brackets entry.2) : Writable (brackets + 1) (.obj entries)

/-- A literal stands for these lexemes, and they are read as a value whose JSON form is the value written. -/
structure ReadBack (brackets : Nat) (json : Json) (lexemes : List Lexeme) (written : Value) : Prop where
  lexes : Lexes (literal json).toList lexemes
  opens : ∃ first others, lexemes = first :: others ∧ first ≠ punctuator ']'
  takes : ∀ withVariables, Takes (value withVariables brackets) lexemes written
  toJson : ∀ variableValues, written.toJson variableValues = json

theorem exists_value_eq (withVariables : Bool) (brackets : Nat) :
    ∃ nested, value withVariables brackets = valueWith withVariables nested := by
  cases brackets with
  | zero => exact ⟨none, rfl⟩
  | succ brackets => exact ⟨some (value withVariables brackets), rfl⟩

theorem readBack_word {brackets : Nat} {json : Json} {text : String} (hliteral : literal json = text)
    (hname : isNameText text.toList) (hjson : ∀ variableValues, (nameValue text).toJson variableValues = json) :
    ReadBack brackets json [word text] (nameValue text) where
  lexes := by
    rw [hliteral]
    exact lexes_name hname
  opens := ⟨word text, [], rfl, Lexeme.noConfusion⟩
  takes withVariables := by
    obtain ⟨nested, hvalue⟩ := exists_value_eq withVariables brackets
    rw [hvalue]
    exact takes_nameValue withVariables nested text
  toJson := hjson

theorem readBack_int {brackets : Nat} {number : Int} (hnumber : Int64.Within number) :
    ReadBack brackets (.num (.int number)) [.int number] (.int number) where
  lexes := lexes_int hnumber
  opens := ⟨.int number, [], rfl, Lexeme.noConfusion⟩
  takes withVariables := by
    obtain ⟨nested, hvalue⟩ := exists_value_eq withVariables brackets
    rw [hvalue]
    exact takes_int withVariables nested number
  toJson _ := rfl

theorem readBack_str {brackets : Nat} {content : String} (hcontent : ∀ c ∈ content.toList, c.toNat ≠ 8) :
    ReadBack brackets (.str content) [.text content] (.text content) where
  lexes := lexes_quote hcontent
  opens := ⟨.text content, [], rfl, Lexeme.noConfusion⟩
  takes withVariables := by
    obtain ⟨nested, hvalue⟩ := exists_value_eq withVariables brackets
    rw [hvalue]
    exact takes_text withVariables nested content
  toJson _ := rfl

theorem itemLiterals_eq_map (items : List Json) : itemLiterals items = items.map literal := by
  induction items with
  | nil => rfl
  | cons item items ih => rw [itemLiterals, ih, List.map_cons]

theorem entryLiterals_eq_map (entries : List (String × Json)) :
    entryLiterals entries = entries.map fun entry => entry.1 ++ ": " ++ literal entry.2 := by
  induction entries with
  | nil => rfl
  | cons entry entries ih => rw [entryLiterals, ih, List.map_cons]

theorem itemsToJson_eq_map (variableValues : List (String × Json)) (items : List Value) :
    Value.itemsToJson variableValues items = items.map (Value.toJson variableValues) := by
  induction items with
  | nil => rfl
  | cons item items ih => rw [Value.itemsToJson, ih, List.map_cons]

theorem entriesToJson_eq_map (variableValues : List (String × Json)) (entries : List (String × Value)) :
    Value.entriesToJson variableValues entries = entries.map fun entry => (entry.1, entry.2.toJson variableValues) := by
  induction entries with
  | nil => rfl
  | cons entry entries ih => rw [Value.entriesToJson, ih, List.map_cons]

theorem readBack_arr {brackets : Nat} {items : List Json} {lexemesOf : Json → List Lexeme} {writtenOf : Json → Value}
    (hitems : ∀ item ∈ items, ReadBack brackets item (lexemesOf item) (writtenOf item)) :
    ReadBack (brackets + 1) (.arr items) (punctuator '[' :: (items.flatMap lexemesOf ++ [punctuator ']']))
      (.list (items.map writtenOf)) where
  lexes := by
    have htext : (literal (.arr items)).toList =
        '[' :: ((", ".intercalate (items.map literal)).toList ++ [']']) := by
      rw [literal, itemLiterals_eq_map, String.toList_append, String.toList_append]
      rfl
    rw [htext]
    exact lexes_enclosed rfl rfl (lexes_intercalate fun item hitem => (hitems item hitem).lexes)
  opens := ⟨_, _, rfl, by decide⟩
  takes withVariables := by
    apply takes_list withVariables
    apply takes_upTo
    · intro item hitem
      exact (hitems item hitem).takes withVariables
    · intro item hitem
      exact (hitems item hitem).opens
  toJson variableValues := by
    have hback (item : Json) (hitem : item ∈ items) : (writtenOf item).toJson variableValues = item :=
      (hitems item hitem).toJson variableValues
    rw [Value.toJson, itemsToJson_eq_map, List.map_map]
    exact congrArg Json.arr ((List.map_congr_left hback).trans (List.map_id' items))

theorem readBack_obj {brackets : Nat} {entries : List (String × Json)} {lexemesOf : String × Json → List Lexeme}
    {writtenOf : String × Json → Value} (hnames : ∀ entry ∈ entries, isNameText entry.1.toList)
    (hsorted : entries.Pairwise fun entry entry' => entry.1 < entry'.1)
    (hvalues : ∀ entry ∈ entries, ReadBack brackets entry.2 (lexemesOf entry) (writtenOf entry)) :
    ReadBack (brackets + 1) (.obj entries)
      (punctuator '\x7b' :: ((entries.flatMap fun entry => word entry.1 :: punctuator ':' :: lexemesOf entry) ++
        [punctuator '\x7d']))
      (.object (entries.map fun entry => (entry.1, writtenOf entry))) where
  lexes := by
    have htext : (literal (.obj entries)).toList = '\x7b' ::
        ((", ".intercalate (entries.map fun entry => entry.1 ++ ": " ++ literal entry.2)).toList ++ ['\x7d']) := by
      rw [literal, entryLiterals_eq_map, String.toList_append, String.toList_append]
      rfl
    rw [htext]
    apply lexes_enclosed rfl rfl
    apply lexes_intercalate
    intro entry hentry
    rw [String.append_assoc, String.toList_append, String.toList_append]
    exact (lexes_name (hnames entry hentry)).append
      (lexes_punctuator rfl (lexes_skip (.inl rfl) (hvalues entry hentry).lexes)) fun rest _ => parted_cons (by decide) _
  opens := ⟨_, _, rfl, by decide⟩
  takes withVariables := by
    have hentries : Takes (upTo (punctuator '\x7d') (named (value withVariables brackets)))
        ((entries.flatMap fun entry => word entry.1 :: punctuator ':' :: lexemesOf entry) ++ [punctuator '\x7d'])
        (entries.map fun entry => (entry.1, writtenOf entry)) := by
      apply takes_upTo
      · intro entry hentry
        exact takes_named ((hvalues entry hentry).takes withVariables) entry.1
      · intro entry _
        exact ⟨_, _, rfl, Lexeme.noConfusion⟩
    have horder : sortedEntries (entries.map fun entry => (entry.1, writtenOf entry)) =
        entries.map fun entry => (entry.1, writtenOf entry) :=
      sortedEntries_of_pairwise (List.pairwise_map.2 hsorted)
    rw [← horder]
    exact takes_object withVariables hentries
  toJson variableValues := by
    have hback (entry : String × Json) (hentry : entry ∈ entries) :
        (entry.1, (writtenOf entry).toJson variableValues) = entry := by
      rw [(hvalues entry hentry).toJson variableValues]
    rw [Value.toJson, entriesToJson_eq_map, List.map_map]
    exact congrArg Json.obj ((List.map_congr_left hback).trans (List.map_id' entries))

theorem Writable.exists_readBack {brackets : Nat} {json : Json} (hjson : Writable brackets json) :
    ∃ lexemes written, ReadBack brackets json lexemes written := by
  induction hjson with
  | null => exact ⟨_, _, readBack_word rfl (by decide) fun _ => rfl⟩
  | bool value =>
    cases value with
    | false => exact ⟨_, _, readBack_word rfl (by decide) fun _ => rfl⟩
    | true => exact ⟨_, _, readBack_word rfl (by decide) fun _ => rfl⟩
  | int hvalue => exact ⟨_, _, readBack_int hvalue⟩
  | str hvalue => exact ⟨_, _, readBack_str hvalue⟩
  | arr _ ih =>
    choose! lexemesOf writtenOf hitems using ih
    exact ⟨_, _, readBack_arr hitems⟩
  | obj hnames hsorted _ ih =>
    choose! lexemesOf writtenOf hvalues using ih
    exact ⟨_, _, readBack_obj hnames hsorted hvalues⟩

/-- Reads a text that is one value and nothing else. -/
def readValue (withVariables : Bool) (text : String) : Option Value := do
  let (written, rest) ← value withVariables bracketLimit (← tokens text)
  if rest.isEmpty then some written else none

/-- A literal is read as a value whose JSON form is the value it was written for, whether or not variables may stand
there. -/
theorem readValue_literal {json : Json} (hjson : Writable bracketLimit json) (withVariables : Bool)
    (variableValues : List (String × Json)) :
    (readValue withVariables (literal json)).map (Value.toJson variableValues) = some json := by
  obtain ⟨lexemes, written, hread⟩ := hjson.exists_readBack
  obtain ⟨found, final, hfound, hscans⟩ := hread.lexes {} [] parted_nil
  rw [List.append_nil] at hscans
  have htokens : tokens (literal json) = some found := tokens_eq_of_scans hscans
  have htakes := hread.takes withVariables found [] hfound
  rw [List.append_nil] at htakes
  have hvalue : readValue withVariables (literal json) = some written := by
    unfold readValue
    rw [htokens, Option.bind_eq_bind, Option.bind_some, htakes]
    rfl
  rw [hvalue, Option.map_some, hread.toJson variableValues]

/-- An object with a list, a negative number and text with every kind of escape. -/
def nestedSample : Json :=
  .obj [("list", .arr [.null, .bool true, .num (.int (-120))]), ("text", .str "a\"b\\c\n\t\u0001é")]

theorem readValue_literal_nestedSample : Writable bracketLimit nestedSample ∧
    (readValue false (literal nestedSample)).map (Value.toJson []) = some nestedSample := by
  have hlist : Writable 49 (.arr [.null, .bool true, .num (.int (-120))]) := by
    apply Writable.arr
    intro item hitem
    simp only [List.mem_cons, List.not_mem_nil, or_false] at hitem
    rcases hitem with rfl | rfl | rfl
    · exact .null
    · exact .bool true
    · exact .int (by decide)
  have hsample : Writable bracketLimit nestedSample := by
    apply Writable.obj
    · decide
    · decide
    · intro entry hentry
      simp only [List.mem_cons, List.not_mem_nil, or_false] at hentry
      rcases hentry with rfl | rfl
      · exact hlist
      · exact .str (by simp)
  exact ⟨hsample, readValue_literal hsample false []⟩

end RelationalGraphQL.Document
