import RelationalGraphQL.Proofs.Sql.Lexeme
import RelationalGraphQL.Proofs.Sql.Reading
import RelationalGraphQL.Sql.Text

/-!
# The placeholders of a statement

A statement is written clause after clause, and every clause starts behind a separator. So the placeholders of its text
are those of its fragments, in the order in which the fragments are written (`Select.places` and its companions for the
other statements), and no name or alias adds one.

`Places` says how a text is put together and which placeholders it has that way. That reading the text finds the same
ones is `Places.eq_some`. What a sort of texts needs so that conditions and orderings can be written in it is said once,
by `Composes`.
-/

namespace RelationalGraphQL.Sql

/-! ### Placeholders of a text -/

def Token.position? : Token → Option Nat
  | .parameter position => some position
  | _ => none

/-- The positions of the placeholders of a text from left to right, none if a quoted identifier is not closed. What
stands inside a quoted identifier is no placeholder. -/
def placeholders (text : String) : Option (List Nat) := (tokens text.toList).map (List.filterMap Token.position?)

/-! ### Texts in pieces -/

def separators : List Char := [' ', '\n', '(', ')', ',']

def vocabulary : List String := keywords ++ operators ++ ["*"]

/-- A part of a name: an alias, the row that a conflict excluded, or anything in quotes. -/
def IsPart (text : String) : Prop := isAlias text ∨ text = "EXCLUDED" ∨ ∃ name, text = quoteIdentifier name

/-- A text with these placeholders, put together from words, names, numbers and placeholders. -/
inductive Places : String → List Nat → Prop where
  | empty : Places "" []
  | word {text : String} (hword : text ∈ vocabulary) : Places text []
  | name {parts : List String} (hparts : ∀ part ∈ parts, IsPart part) : Places (".".intercalate parts) []
  | number (n : Nat) : Places (toString n) []
  | placeholder (position : Nat) : Places (Dialect.postgres.placeholder position) [position]
  | separated {front back : String} {before after : List Nat} {c : Char} (hfront : Places front before)
      (hseparator : c ∈ separators) (hback : Places back after) :
      Places (front ++ (String.ofList [c] ++ back)) (before ++ after)

/-- A text that can follow any other: it is empty or set off by a separator. -/
def Trails (text : String) (positions : List Nat) : Prop :=
  text = "" ∧ positions = [] ∨
    ∃ c rest, text = String.ofList [c] ++ rest ∧ c ∈ separators ∧ Places rest positions

/-- Whether a text consists of known words, given the word under way. -/
def isPhraseFrom (run : List Char) : List Char → Bool
  | [] => run.isEmpty || vocabulary.contains (String.ofList run)
  | c :: rest =>
    if c ∈ separators then (run.isEmpty || vocabulary.contains (String.ofList run)) && isPhraseFrom [] rest
    else isPhraseFrom (run ++ [c]) rest

def isPhrase (text : String) : Bool := isPhraseFrom [] text.toList

/-- Whether a text without placeholders can stand before any other: it is empty or ends with a separator. -/
def opens (text : String) : Bool :=
  text = "" || (text.toList.getLast?.any (· ∈ separators) && isPhrase (String.ofList text.toList.dropLast))

/-- Whether a text without placeholders can stand between any two others. -/
def bridges (text : String) : Bool :=
  match text.toList with
  | [] => false
  | c :: rest => c ∈ separators && opens (String.ofList rest)

theorem places_of_isPhraseFrom {run text : List Char} (hphrase : isPhraseFrom run text) :
    Places (String.ofList (run ++ text)) [] := by
  have hrun {run : List Char} (hrun : (run.isEmpty || vocabulary.contains (String.ofList run)) = true) :
      Places (String.ofList run) [] := by
    rw [Bool.or_eq_true, List.isEmpty_iff, List.contains_iff_mem] at hrun
    rcases hrun with rfl | hmem
    · exact .empty
    · exact .word hmem
  induction text generalizing run with
  | nil =>
    rw [List.append_nil]
    exact hrun hphrase
  | cons c text ih =>
    rw [isPhraseFrom] at hphrase
    split at hphrase
    · rename_i hseparator
      rw [Bool.and_eq_true] at hphrase
      have hplaces := (hrun hphrase.1).separated hseparator (ih hphrase.2)
      rwa [List.nil_append, ← String.ofList_append, ← String.ofList_append, List.singleton_append] at hplaces
    · have hplaces := ih hphrase
      rwa [List.append_assoc, List.singleton_append] at hplaces

theorem Places.phrase (text : String) (hphrase : isPhrase text) : Places text [] := by
  have hplaces := places_of_isPhraseFrom hphrase
  rwa [List.nil_append, String.ofList_toList] at hplaces

namespace Trails

variable {front back literal body : String} {before after positions : List Nat}

theorem nil : Trails "" [] := .inl ⟨rfl, rfl⟩

theorem after_places (hback : Trails back after) (hfront : Places front before) :
    Places (front ++ back) (before ++ after) := by
  rcases hback with ⟨rfl, rfl⟩ | ⟨c, rest, rfl, hseparator, hrest⟩
  · simpa using hfront
  · exact hfront.separated hseparator hrest

theorem append (hfront : Trails front before) (hback : Trails back after) :
    Trails (front ++ back) (before ++ after) := by
  rcases hfront with ⟨rfl, rfl⟩ | ⟨c, rest, rfl, hseparator, hrest⟩
  · simpa using hback
  · exact .inr ⟨c, rest ++ back, String.append_assoc, hseparator, hback.after_places hrest⟩

end Trails

theorem Places.opening (literal : String) {body : String} {positions : List Nat} (hopens : opens literal)
    (hbody : Places body positions) : Places (literal ++ body) positions := by
  simp only [opens, Bool.or_eq_true, decide_eq_true_eq, Bool.and_eq_true] at hopens
  rcases hopens with rfl | ⟨hlast, hfront⟩
  · simpa using hbody
  · obtain ⟨c, hc, hseparator⟩ := (Option.any_eq_true _ _).1 hlast
    have hliteral : literal = String.ofList literal.toList.dropLast ++ String.ofList [c] := by
      obtain ⟨front, hfront⟩ := List.getLast?_eq_some_iff.1 hc
      rw [hfront, List.dropLast_concat, ← String.ofList_append, ← hfront, String.ofList_toList]
    have hplaces := (Places.phrase _ hfront).separated (of_decide_eq_true hseparator) hbody
    rwa [← String.append_assoc, ← hliteral] at hplaces

theorem Trails.bridge (literal : String) {body : String} {positions : List Nat} (hbridges : bridges literal)
    (hbody : Places body positions) : Trails (literal ++ body) positions := by
  unfold bridges at hbridges
  split at hbridges
  · cases hbridges
  · rename_i c rest hliteral
    rw [Bool.and_eq_true, decide_eq_true_eq] at hbridges
    refine .inr ⟨c, String.ofList rest ++ body, ?_, hbridges.1, hbody.opening _ hbridges.2⟩
    rw [← String.append_assoc, ← String.ofList_append, List.singleton_append, ← hliteral, String.ofList_toList]

theorem Trails.closing : Trails ")" [] := Trails.bridge ")" (by decide) Places.empty

/-! ### Parts of a statement -/

/-- Fixed texts that stand by themselves in the parts of a statement. -/
def loneTexts : List String :=
  ["", "*", "NULL", "NOT (TRUE)", booleanLiteral true, UnaryOperator.isNull.keyword, UnaryOperator.isNotNull.keyword]
    ++ [Direction.asc, .desc].map Direction.keyword ++ [NullsOrder.first, .last].map NullsOrder.keyword

def openingTexts : List String := ["(", "NOT ("]

/-- Fixed texts that stand behind one part and before another. -/
def linkTexts : List String :=
  [" ", ")", ", ", " AND ", " OR ", " AS ", " = ", " = ANY(", " <> ALL("]
    ++ Test.comparisons.map fun operator => " " ++ operator.symbol ++ " "

/-- A sort of texts with placeholders, and what can stand behind them, in which the parts of a statement are written if
their columns are. -/
structure Composes (sort behind : String → List Nat → Prop) : Prop where
  lone : ∀ text ∈ loneTexts, sort text []
  opening : ∀ literal ∈ openingTexts, ∀ {body positions}, sort body positions → sort (literal ++ body) positions
  link : ∀ literal ∈ linkTexts, ∀ {body positions}, sort body positions → behind (literal ++ body) positions
  nil : behind "" []
  append : ∀ {front back before after}, sort front before → behind back after → sort (front ++ back) (before ++ after)
  placeholder : ∀ position, sort (Dialect.postgres.placeholder position) [position]

namespace Composes

variable {sort behind : String → List Nat → Prop} (h : Composes sort behind)

include h

theorem closed {body : String} {positions : List Nat} (hbody : sort body positions) : sort (body ++ ")") positions := by
  simpa using h.append hbody (h.link ")" (by decide) (h.lone "" (by decide)))

section

variable {φ : Type} {write : φ → String} {positions : φ → List Nat}

theorem intercalate {separator : String}
    (hseparator : ∀ {body positions}, sort body positions → behind (separator ++ body) positions) {parts : List φ}
    (hparts : ∀ part ∈ parts, sort (write part) (positions part)) :
    sort (separator.intercalate (parts.map write)) (parts.flatMap positions) := by
  induction parts with
  | nil => exact h.lone "" (by decide)
  | cons part parts ih =>
    obtain ⟨hpart, hparts⟩ := List.forall_mem_cons.1 hparts
    have hrest := ih hparts
    cases parts with
    | nil => simpa using hpart
    | cons next parts =>
      have hjoined := h.append hpart (hseparator hrest)
      simpa [String.intercalate_cons_cons, String.append_assoc] using hjoined

theorem columnList {columns : List φ} (hcolumns : ∀ column ∈ columns, sort (write column) (positions column)) :
    sort (columnList (columns.map write)) (columns.flatMap positions) := by
  unfold Sql.columnList
  cases columns with
  | nil => exact h.lone "*" (by decide)
  | cons column columns => simpa [commaList] using h.intercalate (h.link ", " (by decide)) hcolumns

theorem orderItem {item : OrderItem φ} (hitem : sort (write item.column) (positions item.column)) :
    sort (item.map write).text (positions item.column) := by
  obtain ⟨column, direction, nulls⟩ := item
  have hdirection : sort direction.keyword [] := h.lone _ (by cases direction <;> decide)
  have hnulls : behind (nulls.elim "" fun nulls => " " ++ nulls.keyword) [] := by
    cases nulls with
    | none => exact h.nil
    | some nulls => exact h.link " " (by decide) (h.lone _ (by cases nulls <;> decide))
  have hjoined := h.append hitem (h.link " " (by decide) (h.append hdirection hnulls))
  simpa [OrderItem.text, OrderItem.map, String.append_assoc] using hjoined

end

section

variable {κ : Type} {column : κ → String} {known : κ → Prop}

theorem conjunctionText {conditions : List (Condition κ)}
    (hconditions : ∀ condition ∈ conditions,
      sort (Condition.text column Dialect.postgres.placeholder condition) (Condition.positions [condition])) :
    sort (Condition.conjunctionText column Dialect.postgres.placeholder conditions) (Condition.positions conditions) := by
  have hjoined := h.intercalate (h.link " AND " (by decide)) hconditions
  rw [Condition.conjunctionText, Condition.texts_eq_map]
  simpa [Condition.positions] using hjoined

theorem asking {c : κ} {asked : Test Nat} (hcolumn : sort (column c) []) (hwritten : asked.Written) :
    sort (Condition.text column Dialect.postgres.placeholder (.asking c asked)) (Condition.positions [.asking c asked]) := by
  have hpositions : Condition.positions [.asking c asked] = asked.operands := by
    simp [Condition.positions, Condition.formula_asking, Formula.positions]
  rw [hpositions]
  cases asked with
  | isNull =>
    have hwords := h.append hcolumn (h.link " " (by decide) (h.lone UnaryOperator.isNull.keyword (by decide)))
    simpa [Condition.asking, Condition.text, Test.operands, String.append_assoc] using hwords
  | isNotNull =>
    have hwords := h.append hcolumn (h.link " " (by decide) (h.lone UnaryOperator.isNotNull.keyword (by decide)))
    simpa [Condition.asking, Condition.text, Test.operands, String.append_assoc] using hwords
  | compare operator position =>
    have hlink : " " ++ operator.symbol ++ " " ∈ linkTexts := List.mem_append_right _ (List.mem_map_of_mem hwritten)
    have hoperand := h.append hcolumn (h.link _ hlink (h.placeholder position))
    simpa [Condition.asking, Condition.text, Test.operands, String.append_assoc] using hoperand
  | anyOf position =>
    have hlist := h.append hcolumn (h.link " = ANY(" (by decide) (h.closed (h.placeholder position)))
    simpa [Condition.asking, Condition.text, Test.operands, String.append_assoc] using hlist
  | noneOf position =>
    have hlist := h.append hcolumn (h.link " <> ALL(" (by decide) (h.closed (h.placeholder position)))
    simpa [Condition.asking, Condition.text, Test.operands, String.append_assoc] using hlist

theorem condition {condition : Condition κ} (hnames : ∀ c, known c → sort (column c) [])
    (hreadable : condition.Readable known) :
    sort (condition.text column Dialect.postgres.placeholder) (Condition.positions [condition]) := by
  induction hreadable with
  | @asking c asked hknown hwritten => exact h.asking (hnames c hknown) hwritten
  | @disjunction branches _ _ _ ih =>
    have hinner := h.intercalate (h.link " OR " (by decide)) fun branch hbranch => h.conjunctionText (ih branch hbranch)
    rw [Condition.positions_disjunction, Condition.text, Condition.branchTexts_eq_map, String.append_assoc]
    exact h.opening "(" (by decide) (h.closed hinner)
  | @negation conditions _ ih =>
    have hinner := h.conjunctionText ih
    rw [Condition.positions_negation]
    cases conditions with
    | nil => exact h.lone "NOT (TRUE)" (by decide)
    | cons condition conditions =>
      rw [Condition.text, String.append_assoc]
      exact h.opening "NOT (" (by decide) (h.closed hinner)

theorem conjunction {conditions : List (Condition κ)} (hnames : ∀ c, known c → sort (column c) [])
    (hreadable : ∀ condition ∈ conditions, condition.Readable known) :
    sort (Condition.conjunctionText column Dialect.postgres.placeholder conditions) (Condition.positions conditions) :=
  h.conjunctionText fun condition hcondition => h.condition hnames (hreadable condition hcondition)

end

end Composes

theorem Places.composes : Composes Places Trails where
  lone text htext := .phrase text ((by decide : ∀ text ∈ loneTexts, isPhrase text) text htext)
  opening literal hliteral := .opening literal ((by decide : ∀ literal ∈ openingTexts, opens literal) literal hliteral)
  link literal hliteral := .bridge literal ((by decide : ∀ literal ∈ linkTexts, bridges literal) literal hliteral)
  nil := .nil
  append hfront hback := hback.after_places hfront
  placeholder := .placeholder

theorem Places.intercalate {φ : Type} {write : φ → String} {positions : φ → List Nat} (separator : String)
    (hseparator : bridges separator) {parts : List φ} (hparts : ∀ part ∈ parts, Places (write part) (positions part)) :
    Places (separator.intercalate (parts.map write)) (parts.flatMap positions) :=
  Places.composes.intercalate (.bridge separator hseparator) hparts

/-! ### Names -/

theorem places_part {text : String} (hpart : IsPart text) : Places text [] := by
  have hplaces := Places.name (List.forall_mem_singleton.2 hpart)
  rwa [String.intercalate_singleton] at hplaces

theorem places_quoteIdentifier (name : String) : Places (quoteIdentifier name) [] := places_part (.inr (.inr ⟨name, rfl⟩))

theorem places_quoteQualified (name : String) : Places (quoteQualified name) [] := by
  apply Places.name
  intro part hpart
  obtain ⟨piece, -, rfl⟩ := List.mem_map.1 hpart
  exact .inr (.inr ⟨piece, rfl⟩)

theorem places_qualified {qualifier : String} (hqualifier : IsPart qualifier) (name : String) :
    Places (qualifier ++ "." ++ quoteIdentifier name) [] := by
  have hplaces := Places.name (List.forall_mem_cons.2 ⟨hqualifier,
    List.forall_mem_singleton.2 (show IsPart (quoteIdentifier name) from .inr (.inr ⟨name, rfl⟩))⟩)
  rwa [String.intercalate_cons_cons, String.intercalate_singleton] at hplaces

/-! ### Placeholders in pieces -/

theorem isAlphanum_of_isAlias {text : String} (halias : isAlias text) : ∀ c ∈ text.toList, c.isAlphanum := by
  unfold isAlias at halias
  split at halias
  · cases halias
  · rename_i first digits htext
    rw [Bool.and_eq_true, List.all_eq_true] at halias
    rw [htext]
    intro c hc
    rcases List.mem_cons.1 hc with rfl | hc
    · unfold Char.isAlphanum Char.isAlpha
      simp [halias.1]
    · simp [Char.isAlphanum, halias.2 c hc]

theorem IsPart.continuesWord {text : String} (hpart : IsPart text) :
    continuesWord false text.toList ∧ ∃ c rest, text.toList = c :: rest ∧ c ≠ '$' := by
  rcases hpart with halias | rfl | ⟨name, rfl⟩
  · refine ⟨continuesWord_of_isAlphanum (isAlphanum_of_isAlias halias), ?_⟩
    cases htext : text.toList with
    | nil => simp [isAlias, htext] at halias
    | cons c rest =>
      refine ⟨c, rest, rfl, ?_⟩
      rintro rfl
      exact absurd (isAlphanum_of_isAlias halias '$' (by simp [htext])) (by decide)
  · exact ⟨by decide, 'E', _, rfl, by decide⟩
  · exact ⟨continuesWord_quoteIdentifier name, '"', _, toList_quoteIdentifier name, by decide⟩

theorem continuesWord_name {parts : List String} (hparts : ∀ part ∈ parts, IsPart part) :
    continuesWord false (".".intercalate parts).toList := by
  induction parts with
  | nil => rfl
  | cons part parts ih =>
    have hpart := (hparts part List.mem_cons_self).continuesWord.1
    have hrest := ih fun other hother => hparts other (List.mem_cons_of_mem _ hother)
    cases parts with
    | nil => simpa using hpart
    | cons next parts =>
      have hdot : continuesWord false ".".toList := by decide
      simpa [String.intercalate_cons_cons] using continuesWord_append hpart (continuesWord_append hdot hrest)

theorem placeholders_word {text : String} (hword : continuesWord false text.toList)
    (hhead : text.toList.head? ≠ some '$') : placeholders text = some [] := by
  by_cases hempty : text.toList = []
  · simp [placeholders, hempty]
  · have hparameter : parameterOf? text.toList = none := by
      unfold parameterOf?
      split
      · rename_i digits htext
        simp [htext] at hhead
      · rfl
    have hposition : (Token.ofWord text.toList).position? = none := by
      rw [Token.ofWord, hparameter]
      cases Keyword.ofWord? (String.ofList text.toList) <;> rfl
    simp [placeholders, tokens_word hempty hword, hposition]

theorem placeholders_name {parts : List String} (hparts : ∀ part ∈ parts, IsPart part) :
    placeholders (".".intercalate parts) = some [] := by
  refine placeholders_word (continuesWord_name hparts) ?_
  cases parts with
  | nil => simp
  | cons part parts =>
    obtain ⟨-, c, rest, htext, hc⟩ := (hparts part List.mem_cons_self).continuesWord
    cases parts <;> simpa [String.intercalate_cons_cons, htext] using hc

theorem placeholders_number (n : Nat) : placeholders (toString n) = some [] := by
  apply placeholders_word (continuesWord_of_isAlphanum fun c hc => isAlphanum_of_mem_toString hc)
  intro hhead
  exact absurd (isAlphanum_of_mem_toString (List.mem_of_head? hhead)) (by decide)

theorem Places.eq_some {text : String} {positions : List Nat} (hplaces : Places text positions) :
    placeholders text = some positions := by
  induction hplaces with
  | empty => rfl
  | @word text hword =>
    have hwords : ∀ text ∈ vocabulary, placeholders text = some [] := by decide +kernel
    exact hwords text hword
  | name hparts => exact placeholders_name hparts
  | number n => exact placeholders_number n
  | placeholder position => simp [placeholders, tokens_placeholder, Token.position?]
  | @separated front back before after c _ hseparator _ hfront hback =>
    have hbetween : ∃ between, separator? c = some between ∧ between.filterMap Token.position? = [] := by
      simp only [separators, List.mem_cons, List.not_mem_nil, or_false] at hseparator
      rcases hseparator with rfl | rfl | rfl | rfl | rfl <;> exact ⟨_, rfl, rfl⟩
    obtain ⟨between, hbetween, hnone⟩ := hbetween
    obtain ⟨ahead, hahead, rfl⟩ := Option.map_eq_some_iff.1 hfront
    obtain ⟨behind, hbehind, rfl⟩ := Option.map_eq_some_iff.1 hback
    simp [placeholders, tokens_append hahead hbetween hbehind, hnone]

/-! ### Columns and fragments -/

/-- An alias is written as it is, so it has to look like one. -/
def Qualifier.Worded : Qualifier → Prop
  | .aliased name => isAlias name
  | .table _ => True

def Column.Worded (column : Column) : Prop := ∀ qualifier ∈ column.qualifier, qualifier.Worded

theorem Column.places_text {column : Column} (hworded : column.Worded) :
    Places (column.text Dialect.postgres) [] := by
  obtain ⟨_ | qualifier, name⟩ := column
  · exact places_quoteIdentifier name
  · cases qualifier with
    | aliased aliasName => exact places_qualified (.inl (hworded _ rfl)) name
    | table table => exact places_qualified (.inr (.inr ⟨table, rfl⟩)) name

namespace Fragment

def positions : Fragment → List Nat
  | .conjunction conditions => Condition.positions conditions
  | .operand (.parameter position) => [position]
  | _ => []

def isLinked : Fragment → Bool
  | .linked .. => true
  | _ => false

/-- Fragments that can be written: their aliases are words and their conditions can be read. -/
def Written : Fragment → Prop
  | .column c | .output c _ => c.Worded
  | .equal left right => left.Worded ∧ right.Worded
  | .conjunction conditions => ∀ condition ∈ conditions, condition.Readable Column.Worded
  | _ => True

theorem places_linked (target link targetKey targetColumn : String) :
    Places (text Dialect.postgres (.linked target link targetKey targetColumn)) [] := by
  have hcolumn (table name : String) : Places (Column.text Dialect.postgres { qualifier := some (.table table), name }) [] :=
    Column.places_text (by rintro _ ⟨⟩; trivial)
  have hequal := (Trails.bridge " = " (by decide) (hcolumn target targetColumn)).after_places (hcolumn link targetKey)
  have hon := (Trails.bridge " ON " (by decide) hequal).after_places (places_quoteIdentifier link)
  have hplaces := (Trails.bridge " INNER JOIN " (by decide) hon).after_places (places_quoteIdentifier target)
  simpa [text, Column.text, Qualifier.text, Dialect.postgres, String.append_assoc] using hplaces

end Fragment

theorem Composes.fragment {sort behind : String → List Nat → Prop} (h : Composes sort behind) {fragment : Fragment}
    (hwritten : fragment.Written) (hcolumn : ∀ column : Column, column.Worded → sort (column.text Dialect.postgres) [])
    (hquoted : ∀ name, sort (quoteIdentifier name) []) (hexcluded : ∀ name, sort ("EXCLUDED." ++ quoteIdentifier name) [])
    (hlinked : fragment.isLinked → sort (fragment.text Dialect.postgres) []) :
    sort (fragment.text Dialect.postgres) fragment.positions := by
  cases fragment with
  | column c => exact hcolumn c hwritten
  | output c name =>
    have hname := h.append (hcolumn c hwritten) (h.link " AS " (by decide) (hquoted name))
    simpa [Fragment.text, Fragment.positions, Dialect.postgres, String.append_assoc] using hname
  | equal left right =>
    have hequal := h.append (hcolumn left hwritten.1) (h.link " = " (by decide) (hcolumn right hwritten.2))
    simpa [Fragment.text, Fragment.positions, String.append_assoc] using hequal
  | always => exact h.lone (booleanLiteral true) (by decide)
  | conjunction conditions => exact h.conjunction hcolumn hwritten
  | linked => exact hlinked rfl
  | operand o =>
    cases o with
    | null => exact h.lone "NULL" (by decide)
    | parameter position => exact h.placeholder position
  | excluded name => exact hexcluded name

theorem Fragment.places_text {fragment : Fragment} (hwritten : fragment.Written) :
    Places (fragment.text Dialect.postgres) fragment.positions := by
  apply Places.composes.fragment hwritten (fun _ => Column.places_text) places_quoteIdentifier
  · intro name
    exact places_qualified (.inr (.inl rfl)) name
  · intro hlinked
    cases fragment with
    | linked target link targetKey targetColumn => exact places_linked target link targetKey targetColumn
    | _ => cases hlinked

/-! ### Statements -/

section

variable {φ : Type} {texts columns : List φ}

/-- The fragments of a statement in the order in which they are written. -/
def Subquery.fragments (query : Subquery φ) : List φ :=
  query.columns ++ (query.source.toList ++ (query.conditions ++ query.order.map OrderItem.column))

def Join.fragments (join : Join φ) : List φ := join.subquery.elim [] Subquery.fragments ++ join.on.toList

def Select.fragments (select : Select φ) : List φ :=
  select.distinctOn ++ (select.columns ++ (select.joins.flatMap Join.fragments ++ (select.conditions ++
    (select.groupBy ++ (select.having ++ (select.order.map OrderItem.column ++
      if select.forUpdate then select.lockedTables else []))))))

def assignmentFragments (assignments : List (φ × φ)) : List φ :=
  assignments.flatMap fun (column, value) => [column, value]

def ConflictAction.fragments : ConflictAction φ → List φ
  | .nothing => []
  | .update assignments conditions => assignmentFragments assignments ++ conditions

def Conflict.fragments (conflict : Conflict φ) : List φ := conflict.columns ++ conflict.action.fragments

def Insert.fragments (insert : Insert φ) : List φ :=
  insert.columns ++ (insert.rows.flatten ++ (insert.conflict.elim [] Conflict.fragments ++ insert.returning))

def Update.fragments (update : Update φ) : List φ :=
  assignmentFragments update.assignments ++ (update.sources ++ (update.conditions ++ update.returning))

def Delete.fragments (delete : Delete φ) : List φ := delete.sources ++ (delete.conditions ++ delete.returning)

variable {write : φ → String} {positions : φ → List Nat}

theorem places_commaList (htexts : ∀ text ∈ texts, Places (write text) (positions text)) :
    Places (commaList (texts.map write)) (texts.flatMap positions) := Places.intercalate ", " (by decide) htexts

theorem trails_clause (keyword separator : String) (hkeyword : bridges keyword) (hseparator : bridges separator)
    (htexts : ∀ text ∈ texts, Places (write text) (positions text)) :
    Trails (clause keyword separator (texts.map write)) (texts.flatMap positions) := by
  cases texts with
  | nil => exact .nil
  | cons text texts => exact .bridge keyword hkeyword (.intercalate separator hseparator htexts)

theorem trails_orderClause (keyword : String) (hkeyword : bridges keyword) {order : List (OrderItem φ)}
    (horder : ∀ column ∈ order.map OrderItem.column, Places (write column) (positions column)) :
    Trails (orderClause keyword (order.map (OrderItem.map write))) ((order.map OrderItem.column).flatMap positions) := by
  rw [orderClause, List.map_map, List.flatMap_map]
  refine trails_clause keyword ", " hkeyword (by decide) fun item hitem => ?_
  exact Places.composes.orderItem (horder item.column (List.mem_map_of_mem hitem))

theorem trails_countClause (keyword : String) (hkeyword : bridges keyword) (count : Option Nat) :
    Trails (countClause keyword count) [] := by
  cases count with
  | none => exact .nil
  | some count => exact .bridge keyword hkeyword (.number count)

theorem trails_aliasText {aliasName : Option String} (halias : ∀ name ∈ aliasName, Places name []) :
    Trails (aliasText aliasName) [] := by
  cases aliasName with
  | none => exact .nil
  | some name => exact .bridge " " (by decide) (halias name rfl)

theorem Subquery.places {query : Subquery φ} (table : String)
    (hfragments : ∀ fragment ∈ query.fragments, Places (write fragment) (positions fragment)) :
    Places ((query.map write).text table) (query.fragments.flatMap positions) := by
  simp only [Subquery.fragments, List.mem_append] at hfragments
  have hcolumns := Places.composes.columnList fun column hcolumn => hfragments column (.inl hcolumn)
  have hsource : Places ((query.source.map write).getD (quoteQualified table)) (query.source.toList.flatMap positions) := by
    cases hsource : query.source with
    | none => exact places_quoteQualified table
    | some source => simpa using hfragments source (.inr (.inl (by simp [hsource])))
  have hconditions := trails_clause "\n    WHERE " " AND " (by decide) (by decide)
    fun condition hcondition => hfragments condition (.inr (.inr (.inl hcondition)))
  have horder := trails_orderClause "\n    ORDER BY " (by decide)
    fun column hcolumn => hfragments column (.inr (.inr (.inr hcolumn)))
  have hlimit := trails_countClause "\n    LIMIT " (by decide) query.limit
  have hoffset := trails_countClause "\n    OFFSET " (by decide) query.offset
  have hend : Trails "\n)" [] := Trails.bridge "\n)" (by decide) Places.empty
  have htail := hconditions.append (horder.append (hlimit.append (hoffset.append hend)))
  have hfrom := Trails.bridge "\n    FROM " (by decide) (htail.after_places hsource)
  have hplaces := Places.opening "(\n    SELECT " (by decide) (hfrom.after_places hcolumns)
  unfold Subquery.text Subquery.map Subquery.fragments
  simpa only [String.append_assoc, List.flatMap_append, List.append_nil] using hplaces

theorem Join.trails {join : Join φ} (halias : Places join.aliasName [])
    (hfragments : ∀ fragment ∈ join.fragments, Places (write fragment) (positions fragment)) :
    Trails (join.map write).text (join.fragments.flatMap positions) := by
  obtain ⟨kind, table, aliasName, on, subquery⟩ := join
  simp only [Join.fragments, List.mem_append] at hfragments
  have hkind : bridges ("\n" ++ kind.keyword ++ " ") := by cases kind <;> decide
  have hon : Trails ((on.map write).elim "" fun condition => " ON " ++ condition) (on.toList.flatMap positions) := by
    cases on with
    | none => exact .nil
    | some condition =>
      have hcondition := hfragments condition (.inr (by simp))
      simpa using Trails.bridge " ON " (by decide) hcondition
  have hnamed := Trails.bridge " " (by decide) (hon.after_places halias)
  unfold Join.text Join.map Join.fragments
  cases subquery with
  | none =>
    have htrails := Trails.bridge _ hkind (hnamed.after_places (places_quoteQualified table))
    simpa only [String.append_assoc, Option.map_none, Option.elim_none, List.flatMap_nil, List.flatMap_append,
      List.nil_append] using htrails
  | some query =>
    have hquery := query.places table fun fragment hfragment => hfragments fragment (.inl hfragment)
    have htrails := Trails.bridge _ hkind (hnamed.after_places hquery)
    simpa only [String.append_assoc, Option.map_some, Option.elim_some, List.flatMap_append, List.nil_append]
      using htrails

theorem trails_joins {joins : List (Join φ)} (haliases : ∀ join ∈ joins, Places join.aliasName [])
    (hfragments : ∀ fragment ∈ joins.flatMap Join.fragments, Places (write fragment) (positions fragment)) :
    Trails (String.join ((joins.map (Join.map write)).map Join.text)) ((joins.flatMap Join.fragments).flatMap positions) := by
  induction joins with
  | nil => exact .nil
  | cons join joins ih =>
    simp only [List.flatMap_cons, List.mem_append] at hfragments
    have hjoin := Join.trails (haliases join (by simp)) fun fragment hfragment => hfragments fragment (.inl hfragment)
    have hrest := ih (fun join hjoin => haliases join (by simp [hjoin])) fun fragment hfragment =>
      hfragments fragment (.inr hfragment)
    simpa [String.join_cons] using hjoin.append hrest

theorem Select.places {select : Select φ} (halias : ∀ name ∈ select.aliasName, Places name [])
    (haliases : ∀ join ∈ select.joins, Places join.aliasName [])
    (hfragments : ∀ fragment ∈ select.fragments, Places (write fragment) (positions fragment)) :
    Places (select.map write).text (select.fragments.flatMap positions) := by
  simp only [Select.fragments, List.mem_append] at hfragments
  have hcolumns := Places.composes.columnList fun column hcolumn => hfragments column (.inr (.inl hcolumn))
  have hjoins := trails_joins haliases fun fragment hfragment => hfragments fragment (.inr (.inr (.inl hfragment)))
  have hconditions := trails_clause "\nWHERE " "\n  AND " (by decide) (by decide)
    fun condition hcondition => hfragments condition (.inr (.inr (.inr (.inl hcondition))))
  have hgroup := trails_clause "\nGROUP BY " ", " (by decide) (by decide)
    fun column hcolumn => hfragments column (.inr (.inr (.inr (.inr (.inl hcolumn)))))
  have hhaving := trails_clause "\nHAVING " " AND " (by decide) (by decide)
    fun condition hcondition => hfragments condition (.inr (.inr (.inr (.inr (.inr (.inl hcondition))))))
  have horder := trails_orderClause "\nORDER BY " (by decide)
    fun column hcolumn => hfragments column (.inr (.inr (.inr (.inr (.inr (.inr (.inl hcolumn)))))))
  have hlimit := trails_countClause "\nLIMIT " (by decide) select.limit
  have hoffset := trails_countClause " OFFSET " (by decide) select.offset
  have hlock : Trails (if select.forUpdate then "\nFOR UPDATE" ++ clause " OF " ", " (select.lockedTables.map write) else "")
      ((if select.forUpdate then select.lockedTables else []).flatMap positions) := by
    split
    · rename_i hlock
      have htables := trails_clause " OF " ", " (by decide) (by decide) fun table htable =>
        hfragments table (.inr (.inr (.inr (.inr (.inr (.inr (.inr (by simpa [hlock] using htable))))))))
      have hwords : Trails "\nFOR UPDATE" [] := Trails.bridge "\n" (by decide) (.phrase "FOR UPDATE" (by decide))
      simpa using hwords.append htables
    · exact .nil
  have htail := (trails_aliasText halias).append (hjoins.append (hconditions.append (hgroup.append (hhaving.append
    (horder.append (hlimit.append (hoffset.append hlock)))))))
  have hfrom := Trails.bridge "\nFROM " (by decide) (htail.after_places (places_quoteQualified select.table))
  have hdistinct : Places ((if (select.distinctOn.map write).isEmpty then ""
      else "DISTINCT ON (" ++ commaList (select.distinctOn.map write) ++ ") ") ++ columnList (select.columns.map write))
      (select.distinctOn.flatMap positions ++ select.columns.flatMap positions) := by
    have hexpressions := places_commaList fun expression hexpression => hfragments expression (.inl hexpression)
    cases hdistinct : select.distinctOn with
    | nil => simpa using hcolumns
    | cons expression rest =>
      rw [hdistinct] at hexpressions
      have hclosed := (Trails.bridge ") " (by decide) hcolumns).after_places hexpressions
      simpa [String.append_assoc] using Places.opening "DISTINCT ON (" (by decide) hclosed
  have hplaces := Places.opening "SELECT " (by decide) (hfrom.after_places hdistinct)
  unfold Select.text Select.map Select.fragments
  simpa only [String.append_assoc, List.flatMap_append, List.append_assoc, List.nil_append] using hplaces

theorem places_assignmentList {assignments : List (φ × φ)}
    (hassignments : ∀ fragment ∈ assignmentFragments assignments, Places (write fragment) (positions fragment)) :
    Places (assignmentList (assignments.map fun (column, value) => (write column, write value)))
      ((assignmentFragments assignments).flatMap positions) := by
  have hparts : Places (", ".intercalate (assignments.map fun assignment =>
      write assignment.1 ++ " = " ++ write assignment.2))
      (assignments.flatMap fun assignment => positions assignment.1 ++ positions assignment.2) := by
    refine .intercalate ", " (by decide) fun assignment hassignment => ?_
    have hmem : ∀ fragment ∈ [assignment.1, assignment.2], Places (write fragment) (positions fragment) :=
      fun fragment hfragment => hassignments fragment (List.mem_flatMap.2 ⟨assignment, hassignment, hfragment⟩)
    have hvalue := Trails.bridge " = " (by decide) (hmem assignment.2 (by simp))
    simpa only [String.append_assoc] using hvalue.after_places (hmem assignment.1 (by simp))
  simpa [assignmentList, commaList, assignmentFragments, List.flatMap_assoc, Function.comp_def] using hparts

theorem trails_returning (hcolumns : ∀ column ∈ columns, Places (write column) (positions column)) :
    Trails (returningClause (columns.map write)) (columns.flatMap positions) :=
  trails_clause "\nRETURNING " ", " (by decide) (by decide) hcolumns

theorem ConflictAction.trails {action : ConflictAction φ}
    (hfragments : ∀ fragment ∈ action.fragments, Places (write fragment) (positions fragment)) :
    Trails (action.map write).text (action.fragments.flatMap positions) := by
  cases action with
  | nothing => exact .bridge " " (by decide) (.phrase "DO NOTHING" (by decide))
  | update assignments conditions =>
    simp only [ConflictAction.fragments, List.mem_append] at hfragments
    have hassignments := places_assignmentList fun fragment hfragment => hfragments fragment (.inl hfragment)
    have hconditions := trails_clause " WHERE " " AND " (by decide) (by decide)
      fun condition hcondition => hfragments condition (.inr hcondition)
    have htrails := Trails.bridge " DO UPDATE SET " (by decide) (hconditions.after_places hassignments)
    unfold ConflictAction.map ConflictAction.text ConflictAction.fragments
    simpa only [String.append_assoc, List.flatMap_append] using htrails

theorem Conflict.trails {conflict : Conflict φ}
    (hfragments : ∀ fragment ∈ conflict.fragments, Places (write fragment) (positions fragment)) :
    Trails (conflict.map write).text (conflict.fragments.flatMap positions) := by
  simp only [Conflict.fragments, List.mem_append] at hfragments
  have hwords : Trails "\nON CONFLICT" [] := Trails.bridge "\n" (by decide) (.phrase "ON CONFLICT" (by decide))
  have hcolumns : Trails (if (conflict.columns.map write).isEmpty then ""
      else " (" ++ commaList (conflict.columns.map write) ++ ")") (conflict.columns.flatMap positions) := by
    have hlist := places_commaList fun column hcolumn => hfragments column (.inl hcolumn)
    cases hcolumns : conflict.columns with
    | nil => exact .nil
    | cons column columns =>
      rw [hcolumns] at hlist
      simpa [String.append_assoc] using Trails.bridge " (" (by decide) (Trails.closing.after_places hlist)
  have haction := ConflictAction.trails fun fragment hfragment => hfragments fragment (.inr hfragment)
  have htrails := (hwords.append hcolumns).append haction
  unfold Conflict.map Conflict.text Conflict.fragments
  simpa only [List.flatMap_append, List.nil_append] using htrails

theorem Insert.places {insert : Insert φ}
    (hfragments : ∀ fragment ∈ insert.fragments, Places (write fragment) (positions fragment)) :
    Places (insert.map write).text (insert.fragments.flatMap positions) := by
  simp only [Insert.fragments, List.mem_append] at hfragments
  have hcolumns := places_commaList fun column hcolumn => hfragments column (.inl hcolumn)
  have hrows : Places (commaList (insert.rows.map fun row => "(" ++ commaList (row.map write) ++ ")"))
      (insert.rows.flatten.flatMap positions) := by
    have hlist : Places (", ".intercalate (insert.rows.map fun row => "(" ++ commaList (row.map write) ++ ")"))
        (insert.rows.flatMap fun row => row.flatMap positions) := by
      refine .intercalate ", " (by decide) fun row hrow => ?_
      have hvalues := places_commaList fun value hvalue =>
        hfragments value (.inr (.inl (List.mem_flatten.2 ⟨row, hrow, hvalue⟩)))
      simpa [String.append_assoc] using Places.opening "(" (by decide) (Trails.closing.after_places hvalues)
    simpa [commaList, List.flatMap_def, List.map_flatten, List.flatten_flatten, Function.comp_def] using hlist
  have hconflict : Trails ((insert.conflict.map (Conflict.map write)).elim "" Conflict.text)
      ((insert.conflict.elim [] Conflict.fragments).flatMap positions) := by
    cases hconflict : insert.conflict with
    | none => exact .nil
    | some conflict => exact Conflict.trails fun fragment hfragment => hfragments fragment (by simp [hconflict, hfragment])
  have hreturning := trails_returning fun column hcolumn => hfragments column (.inr (.inr (.inr hcolumn)))
  have htail := (hconflict.append hreturning).after_places hrows
  have hvalues := (Trails.bridge ")\nVALUES " (by decide) htail).after_places hcolumns
  have hinto := (Trails.bridge " (" (by decide) hvalues).after_places (places_quoteQualified insert.table)
  have hplaces := Places.opening "INSERT INTO " (by decide) hinto
  unfold Insert.text Insert.map Insert.fragments
  simpa only [String.append_assoc, List.flatMap_append, List.map_map, Function.comp_def, List.nil_append] using hplaces

theorem Update.places {update : Update φ} (halias : ∀ name ∈ update.aliasName, Places name [])
    (hfragments : ∀ fragment ∈ update.fragments, Places (write fragment) (positions fragment)) :
    Places (update.map write).text (update.fragments.flatMap positions) := by
  simp only [Update.fragments, List.mem_append] at hfragments
  have hassignments := places_assignmentList fun fragment hfragment => hfragments fragment (.inl hfragment)
  have hsources := trails_clause "\nFROM " ", " (by decide) (by decide)
    fun source hsource => hfragments source (.inr (.inl hsource))
  have hconditions := trails_clause "\nWHERE " " AND " (by decide) (by decide)
    fun condition hcondition => hfragments condition (.inr (.inr (.inl hcondition)))
  have hreturning := trails_returning fun column hcolumn => hfragments column (.inr (.inr (.inr hcolumn)))
  have htail := (hsources.append (hconditions.append hreturning)).after_places hassignments
  have hset := (trails_aliasText halias).append (Trails.bridge "\nSET " (by decide) htail)
  have hplaces := Places.opening "UPDATE " (by decide) (hset.after_places (places_quoteQualified update.table))
  unfold Update.text Update.map Update.fragments
  simpa only [String.append_assoc, List.flatMap_append, List.nil_append] using hplaces

theorem Delete.places {delete : Delete φ} (halias : ∀ name ∈ delete.aliasName, Places name [])
    (hfragments : ∀ fragment ∈ delete.fragments, Places (write fragment) (positions fragment)) :
    Places (delete.map write).text (delete.fragments.flatMap positions) := by
  simp only [Delete.fragments, List.mem_append] at hfragments
  have hsources := trails_clause "\nUSING " ", " (by decide) (by decide)
    fun source hsource => hfragments source (.inl hsource)
  have hconditions := trails_clause "\nWHERE " " AND " (by decide) (by decide)
    fun condition hcondition => hfragments condition (.inr (.inl hcondition))
  have hreturning := trails_returning fun column hcolumn => hfragments column (.inr (.inr hcolumn))
  have htail := (trails_aliasText halias).append (hsources.append (hconditions.append hreturning))
  have hplaces := Places.opening "DELETE FROM " (by decide) (htail.after_places (places_quoteQualified delete.table))
  unfold Delete.text Delete.map Delete.fragments
  simpa only [String.append_assoc, List.flatMap_append, List.nil_append] using hplaces

end

/-! ### Statements of fragments -/

section

variable {positions : List Nat}

theorem places_fragments {fragments : List Fragment} (hwritten : ∀ fragment ∈ fragments, fragment.Written) :
    ∀ fragment ∈ fragments, Places (fragment.text Dialect.postgres) fragment.positions :=
  fun fragment hfragment => Fragment.places_text (hwritten fragment hfragment)

theorem Select.places_text {select : Select Fragment} (halias : ∀ name ∈ select.aliasName, Places name [])
    (haliases : ∀ join ∈ select.joins, Places join.aliasName [])
    (hwritten : ∀ fragment ∈ select.fragments, fragment.Written)
    (hpositions : select.fragments.flatMap Fragment.positions = positions) :
    Places (select.map (Fragment.text .postgres)).text positions :=
  hpositions ▸ Select.places halias haliases (places_fragments hwritten)

theorem Insert.places_text {insert : Insert Fragment} (hwritten : ∀ fragment ∈ insert.fragments, fragment.Written)
    (hpositions : insert.fragments.flatMap Fragment.positions = positions) :
    Places (insert.map (Fragment.text .postgres)).text positions :=
  hpositions ▸ Insert.places (places_fragments hwritten)

theorem Update.places_text {update : Update Fragment} (halias : ∀ name ∈ update.aliasName, Places name [])
    (hwritten : ∀ fragment ∈ update.fragments, fragment.Written)
    (hpositions : update.fragments.flatMap Fragment.positions = positions) :
    Places (update.map (Fragment.text .postgres)).text positions :=
  hpositions ▸ Update.places halias (places_fragments hwritten)

theorem Delete.places_text {delete : Delete Fragment} (halias : ∀ name ∈ delete.aliasName, Places name [])
    (hwritten : ∀ fragment ∈ delete.fragments, fragment.Written)
    (hpositions : delete.fragments.flatMap Fragment.positions = positions) :
    Places (delete.map (Fragment.text .postgres)).text positions :=
  hpositions ▸ Delete.places halias (places_fragments hwritten)

end

end RelationalGraphQL.Sql
