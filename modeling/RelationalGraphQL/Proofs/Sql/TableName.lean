import RelationalGraphQL.Proofs.Sql.Placeholder

/-!
# The tables of a text

A table stands right behind FROM or JOIN, as a name in quotes, and `tables` finds those of a text. They are put together
from the tables of its pieces, as long as no piece ends where a table has to follow (`Lists`). A piece that is set off
by a separator can stand behind any other (`Behind`), and a clause is such a piece.

Columns, conditions and orderings have no tables, whatever their names hold.
-/

namespace RelationalGraphQL.Sql

/-! ### Tables behind keywords -/

/-- The words that a table can follow. -/
def tableKeywords : List String := ["FROM", "JOIN", "LATERAL"]

def Token.introduces : Token → Bool
  | .name text => tableKeywords.contains text
  | _ => false

/-- The text of a name that begins in quotes. -/
def Token.quotedName? : Token → Option String
  | .name text => if text.toList.head? = some '"' then some text else none
  | _ => none

def tablesOf : List Token → List String
  | token :: next :: rest => (if token.introduces then next.quotedName?.toList else []) ++ tablesOf (next :: rest)
  | _ => []

/-- The tables in FROM and JOIN positions of a text, as they are written there, from left to right; none if a quoted
identifier is not closed. -/
def tables (text : String) : Option (List String) := (tokens text.toList).map tablesOf

/-- Whether no table has to follow. -/
def closes (found : List Token) : Bool := found.getLast?.all fun last => !last.introduces

theorem closes_append {front back : List Token} (hfront : closes front) (hback : closes back) :
    closes (front ++ back) := by
  unfold closes at *
  rw [List.getLast?_append]
  cases hlast : back.getLast? with
  | none => exact hfront
  | some last => rwa [hlast] at hback

theorem tablesOf_append {front back : List Token} (hfront : closes front) :
    tablesOf (front ++ back) = tablesOf front ++ tablesOf back := by
  induction front with
  | nil => rfl
  | cons token front ih =>
    cases front with
    | nil =>
      cases back with
      | nil => rfl
      | cons next back =>
        have htoken : token.introduces = false := by simpa [closes] using hfront
        simp [tablesOf, htoken]
    | cons next front =>
      have hrest : closes (next :: front) := by simpa [closes, List.getLast?_cons_cons] using hfront
      rw [List.cons_append, List.cons_append, tablesOf, tablesOf, ← List.cons_append, ih hrest, List.append_assoc]

theorem tablesOf_concat {found : List Token} {last : Token} (hlast : found.getLast? = some last)
    (hintroduces : last.introduces) (next : Token) :
    tablesOf (found ++ [next]) = tablesOf found ++ next.quotedName?.toList := by
  induction found with
  | nil => cases hlast
  | cons token found ih =>
    cases found with
    | nil =>
      obtain rfl : token = last := by simpa using hlast
      simp [tablesOf, hintroduces]
    | cons second found =>
      rw [List.getLast?_cons_cons] at hlast
      rw [List.cons_append, List.cons_append, tablesOf, tablesOf, ← List.cons_append, ih hlast, List.append_assoc]

theorem introduces_name {text : String} (hquote : '"' ∈ text.toList) : (Token.name text).introduces = false := by
  have hkeywords : ∀ word ∈ tableKeywords, '"' ∉ word.toList := by decide
  rw [Token.introduces, ← Bool.not_eq_true, List.contains_iff_mem]
  exact fun hmem => hkeywords text hmem hquote

/-! ### Texts in pieces -/

/-- A text with these tables, behind which none has to follow. -/
def Lists (text : String) (names : List String) : Prop :=
  ∃ found, tokens text.toList = some found ∧ closes found ∧ tablesOf found = names

/-- A text with these tables that can stand behind any other. -/
def Behind (text : String) (names : List String) : Prop :=
  ∀ (front : String) (before : List String), Lists front before → Lists (front ++ text) (before ++ names)

def isQuiet (text : String) : Bool := (tokens text.toList).any fun found => closes found && (tablesOf found).isEmpty

/-- A fixed text without tables that ends with a separator. -/
def leadsIn (text : String) : Bool :=
  text.toList.getLast?.any (· ∈ separators) && isQuiet (String.ofList text.toList.dropLast)

/-- A fixed text without tables that can stand between any two others. -/
def leadsOn (text : String) : Bool :=
  match text.toList with
  | [] => false
  | c :: rest => c ∈ separators && (rest.isEmpty || leadsIn (String.ofList rest))

/-- A fixed text that can stand between any other and a table. -/
def leadsToTable (text : String) : Bool :=
  match text.toList with
  | [] => false
  | c :: rest => c ∈ separators && rest.getLast? = some ' ' &&
    (tokens rest.dropLast).any fun found => found.getLast?.any Token.introduces && (tablesOf found).isEmpty

section

variable {front back body name : String} {before after names : List String}

theorem Lists.tables_eq (hlists : Lists body names) : tables body = some names := by
  obtain ⟨found, hfound, -, rfl⟩ := hlists
  rw [tables, hfound, Option.map_some]

theorem toList_separated (front back : String) (c : Char) :
    (front ++ (String.ofList [c] ++ back)).toList = front.toList ++ c :: back.toList := by simp

theorem Lists.separated {c : Char} (hfront : Lists front before) (hseparator : c ∈ separators)
    (hback : Lists back after) : Lists (front ++ (String.ofList [c] ++ back)) (before ++ after) := by
  -- a separator is a token at most, and no word that a table follows
  have hbetween : ∃ between, separator? c = some between ∧ closes between ∧ tablesOf between = [] := by
    simp only [separators, List.mem_cons, List.not_mem_nil, or_false] at hseparator
    rcases hseparator with rfl | rfl | rfl | rfl | rfl <;> exact ⟨_, rfl, rfl, rfl⟩
  obtain ⟨between, hbetween, hopen, hnone⟩ := hbetween
  obtain ⟨ahead, hahead, hcloses, rfl⟩ := hfront
  obtain ⟨behind, hbehind, hcloses', rfl⟩ := hback
  refine ⟨ahead ++ between ++ behind, ?_, closes_append (closes_append hcloses hopen) hcloses', ?_⟩
  · rw [toList_separated]
    exact tokens_append hahead hbetween hbehind
  · rw [tablesOf_append (closes_append hcloses hopen), tablesOf_append hcloses, hnone, List.append_nil]

theorem Lists.quiet (text : String) (hquiet : isQuiet text) : Lists text [] := by
  obtain ⟨found, hfound, hchecks⟩ := (Option.any_eq_true _ _).1 hquiet
  rw [Bool.and_eq_true, List.isEmpty_iff] at hchecks
  exact ⟨found, hfound, hchecks⟩

theorem eq_append_last {text : List Char} {c : Char} (hlast : text.getLast? = some c) :
    String.ofList text = String.ofList text.dropLast ++ String.ofList [c] := by
  obtain ⟨front, rfl⟩ := List.getLast?_eq_some_iff.1 hlast
  rw [List.dropLast_concat, String.ofList_append]

theorem Lists.opening (literal : String) (hliteral : leadsIn literal) (hbody : Lists body names) :
    Lists (literal ++ body) names := by
  rw [leadsIn, Bool.and_eq_true] at hliteral
  obtain ⟨c, hlast, hseparator⟩ := (Option.any_eq_true _ _).1 hliteral.1
  have hsplit := eq_append_last hlast
  rw [String.ofList_toList] at hsplit
  rw [hsplit, String.append_assoc]
  exact (Lists.quiet _ hliteral.2).separated (of_decide_eq_true hseparator) hbody

theorem Lists.append (hfront : Lists front before) (hback : Behind back after) :
    Lists (front ++ back) (before ++ after) := hback front before hfront

theorem Behind.nil : Behind "" [] := by
  intro front before hfront
  rwa [String.append_empty, List.append_nil]

theorem Behind.append (hfront : Behind front before) (hback : Behind back after) :
    Behind (front ++ back) (before ++ after) := by
  intro first firsts hfirst
  rw [← String.append_assoc, ← List.append_assoc]
  exact (hfirst.append hfront).append hback

theorem Behind.bridge (literal : String) (hliteral : leadsOn literal) (hbody : Lists body names) :
    Behind (literal ++ body) names := by
  intro front before hfront
  unfold leadsOn at hliteral
  split at hliteral
  · cases hliteral
  · rename_i c rest hchars
    rw [Bool.and_eq_true, decide_eq_true_eq, Bool.or_eq_true, List.isEmpty_iff] at hliteral
    obtain ⟨hseparator, hrest⟩ := hliteral
    have hsplit : literal = String.ofList [c] ++ String.ofList rest := by
      rw [← String.ofList_append, List.singleton_append, ← hchars, String.ofList_toList]
    rw [hsplit, String.append_assoc]
    refine hfront.separated hseparator ?_
    rcases hrest with rfl | hleads
    · simpa using hbody
    · exact hbody.opening _ hleads

/-- A text that is one name and begins in quotes. -/
def IsTableName (text : String) : Prop := IsName text ∧ text.toList.head? = some '"'

theorem Behind.table (literal : String) (hliteral : leadsToTable literal) (hname : IsTableName name) :
    Behind (literal ++ name) [name] := by
  intro front before hfront
  unfold leadsToTable at hliteral
  split at hliteral
  · cases hliteral
  · rename_i c rest hchars
    rw [Bool.and_eq_true, Bool.and_eq_true, decide_eq_true_eq, decide_eq_true_eq] at hliteral
    obtain ⟨⟨hseparator, hlast⟩, hwords⟩ := hliteral
    obtain ⟨found, hfound, hchecks⟩ := (Option.any_eq_true _ _).1 hwords
    rw [Bool.and_eq_true, List.isEmpty_iff] at hchecks
    obtain ⟨last, hend, hintroduces⟩ := (Option.any_eq_true _ _).1 hchecks.1
    have hsplit : literal = String.ofList [c] ++ (String.ofList rest.dropLast ++ String.ofList [' ']) := by
      rw [← eq_append_last hlast, ← String.ofList_append, List.singleton_append, ← hchars, String.ofList_toList]
    rw [hsplit, String.append_assoc, String.append_assoc]
    refine hfront.separated hseparator ⟨found ++ [] ++ [.name name], ?_, ?_, ?_⟩
    · rw [toList_separated, String.toList_ofList]
      exact tokens_append hfound separator_blank hname.1
    · simp [closes, introduces_name (List.mem_of_head? hname.2)]
    · rw [List.append_nil, tablesOf_concat hend hintroduces, hchecks.2, Token.quotedName?, if_pos hname.2]
      rfl

end

/-! ### Words -/

theorem introduces_ofWord {run : List Char} (hhead : ∀ c ∈ run.head?, c ∉ ['F', 'J', 'L']) :
    (Token.ofWord run).introduces = false := by
  unfold Token.ofWord
  split
  · rfl
  · rfl
  · rw [Token.introduces, ← Bool.not_eq_true, List.contains_iff_mem]
    intro hmem
    simp only [tableKeywords, List.mem_cons, List.not_mem_nil, or_false] at hmem
    rcases hmem with hword | hword | hword <;>
      exact hhead _ (by rw [← String.toList_ofList (l := run), hword]; rfl) (by decide)

theorem Lists.word {text : String} (hword : continuesWord false text.toList)
    (hhead : ∀ c ∈ text.toList.head?, c ∉ ['F', 'J', 'L']) : Lists text [] := by
  by_cases hempty : text.toList = []
  · exact ⟨[], by rw [hempty, tokens_nil], rfl, rfl⟩
  · refine ⟨[Token.ofWord text.toList], tokens_word hempty hword, ?_, rfl⟩
    simp [closes, introduces_ofWord hhead]

theorem lists_alias {name : String} (halias : isAlias name) : Lists name [] := by
  refine .word (continuesWord_of_isAlphanum (isAlphanum_of_isAlias halias)) fun c hc hmem => ?_
  unfold isAlias at halias
  split at halias
  · cases halias
  · rename_i first digits hchars
    rw [hchars, List.head?_cons, Option.mem_some_iff] at hc
    rw [Bool.and_eq_true, hc] at halias
    have hupper : ∀ c ∈ ['F', 'J', 'L'], c.isLower = false := by simp
    exact absurd halias.1 (by rw [hupper c hmem]; decide)

theorem lists_number (n : Nat) : Lists (toString n) [] := by
  refine .word (continuesWord_of_isAlphanum fun c hc => isAlphanum_of_mem_toString hc) fun c hc hmem => ?_
  have hdigit := isDigit_of_mem_toString (List.mem_of_head? hc)
  have hletters : ∀ c ∈ ['F', 'J', 'L'], c.isDigit = false := by simp
  rw [hletters c hmem] at hdigit
  cases hdigit

theorem lists_placeholder (position : Nat) : Lists (Dialect.postgres.placeholder position) [] :=
  ⟨[.parameter position], tokens_placeholder position, rfl, rfl⟩

theorem lists_quoted {text : String} (hname : IsName text) (hquote : '"' ∈ text.toList) : Lists text [] :=
  ⟨[.name text], hname, by simp [closes, introduces_name hquote], rfl⟩

theorem lists_quoteIdentifier (name : String) : Lists (quoteIdentifier name) [] :=
  lists_quoted (isName_of_quoted (mem_quoteIdentifier name) (continuesWord_quoteIdentifier name))
    (mem_quoteIdentifier name)

theorem Column.lists_text {column : Column} (hworded : column.Worded) : Lists (column.text Dialect.postgres) [] := by
  refine lists_quoted (Column.isName_text fun qualifier hqualifier => ?_) ?_
  · have halias := hworded qualifier hqualifier
    cases qualifier with
    | aliased name => exact continuesWord_of_isAlphanum (isAlphanum_of_isAlias halias)
    | table => trivial
  · obtain ⟨_ | qualifier, name⟩ := column
    · exact mem_quoteIdentifier name
    · simp only [Column.text, String.toList_append, List.mem_append]
      exact .inr (mem_quoteIdentifier name)

theorem isTableName_quoteIdentifier (name : String) : IsTableName (quoteIdentifier name) :=
  ⟨isName_of_quoted (mem_quoteIdentifier name) (continuesWord_quoteIdentifier name), by
    rw [toList_quoteIdentifier, List.head?_cons]⟩

theorem isTableName_quoteQualified (name : String) : IsTableName (quoteQualified name) := by
  have hhead : (quoteQualified name).toList.head? = some '"' := by
    obtain ⟨first, rest, hpieces⟩ := List.exists_cons_of_ne_nil (List.splitOn_ne_nil '.' name.toList)
    rw [quoteQualified, Text.pieces, hpieces]
    cases rest <;> simp [String.intercalate_cons_cons, toList_quoteIdentifier]
  refine ⟨isName_of_quoted (List.mem_of_head? hhead) (continuesWord_name ?_), hhead⟩
  intro part hpart
  obtain ⟨piece, -, rfl⟩ := List.mem_map.1 hpart
  exact .inr (.inr ⟨piece, rfl⟩)

/-! ### Fragments -/

theorem Lists.composes : Composes (fun text _ => Lists text []) fun text _ => Behind text [] where
  lone text htext := .quiet text ((by decide : ∀ text ∈ loneTexts, isQuiet text) text htext)
  opening literal hliteral := .opening literal ((by decide : ∀ literal ∈ openingTexts, leadsIn literal) literal hliteral)
  link literal hliteral := .bridge literal ((by decide : ∀ literal ∈ linkTexts, leadsOn literal) literal hliteral)
  nil := .nil
  append hfront hback := hfront.append hback
  placeholder := lists_placeholder

theorem Lists.intercalate {φ : Type} {write : φ → String} (separator : String) (hseparator : leadsOn separator)
    {parts : List φ} (hparts : ∀ part ∈ parts, Lists (write part) []) :
    Lists (separator.intercalate (parts.map write)) [] :=
  @Composes.intercalate _ _ Lists.composes φ write (fun _ => []) separator (.bridge separator hseparator) parts hparts

theorem isName_excluded (name : String) :
    IsName ("EXCLUDED." ++ quoteIdentifier name) ∧ '"' ∈ ("EXCLUDED." ++ quoteIdentifier name).toList := by
  have hquote : '"' ∈ ("EXCLUDED." ++ quoteIdentifier name).toList := by
    rw [String.toList_append]
    exact List.mem_append_right _ (mem_quoteIdentifier name)
  refine ⟨isName_of_quoted hquote ?_, hquote⟩
  rw [String.toList_append]
  exact continuesWord_append (by decide) (continuesWord_quoteIdentifier name)

theorem Fragment.lists_text {fragment : Fragment} (hwritten : fragment.Written) (hlinked : fragment.isLinked = false) :
    Lists (fragment.text Dialect.postgres) [] := by
  apply Lists.composes.fragment hwritten (fun _ => Column.lists_text) lists_quoteIdentifier
  · intro name
    obtain ⟨hname, hquote⟩ := isName_excluded name
    exact lists_quoted hname hquote
  · rw [hlinked]
    intro hfalse
    cases hfalse

/-! ### Clauses -/

section

variable {φ : Type} {write : φ → String}

theorem lists_columnList {columns : List φ} (hcolumns : ∀ column ∈ columns, Lists (write column) []) :
    Lists (columnList (columns.map write)) [] :=
  @Composes.columnList _ _ Lists.composes φ write (fun _ => []) columns hcolumns

theorem behind_clause (keyword separator : String) (hkeyword : leadsOn keyword) (hseparator : leadsOn separator)
    {texts : List φ} (htexts : ∀ text ∈ texts, Lists (write text) []) :
    Behind (clause keyword separator (texts.map write)) [] := by
  cases texts with
  | nil => exact .nil
  | cons text texts => exact .bridge keyword hkeyword (.intercalate separator hseparator htexts)

theorem behind_orderClause (keyword : String) (hkeyword : leadsOn keyword) {order : List (OrderItem φ)}
    (horder : ∀ column ∈ order.map OrderItem.column, Lists (write column) []) :
    Behind (orderClause keyword (order.map (OrderItem.map write))) [] := by
  rw [orderClause, List.map_map]
  refine behind_clause keyword ", " hkeyword (by decide) fun item hitem => ?_
  exact @Composes.orderItem _ _ Lists.composes φ write (fun _ => []) item
    (horder item.column (List.mem_map_of_mem hitem))

theorem behind_countClause (keyword : String) (hkeyword : leadsOn keyword) (count : Option Nat) :
    Behind (countClause keyword count) [] := by
  cases count with
  | none => exact .nil
  | some count => exact .bridge keyword hkeyword (lists_number count)

end

/-! ### Joins -/

/-- The tables of a join as they are written: the two sides of a linked source, or else the joined table. -/
def sourceTables (table : String) : Option Fragment → List String
  | some (.linked target link _ _) => [quoteIdentifier target, quoteIdentifier link]
  | _ => [quoteQualified table]

theorem behind_source (keyword table : String) (hkeyword : leadsToTable keyword) {source : Option Fragment}
    (hsource : ∀ fragment ∈ source, fragment.isLinked) :
    Behind (keyword ++ (source.map (Fragment.text .postgres)).getD (quoteQualified table))
      (sourceTables table source) := by
  cases source with
  | none => exact .table keyword hkeyword (isTableName_quoteQualified table)
  | some fragment =>
    cases fragment with
    | linked target link targetKey targetColumn =>
      have hequal : Fragment.Written (.equal { qualifier := some (.table link), name := targetKey }
          { qualifier := some (.table target), name := targetColumn }) :=
        ⟨by rintro _ ⟨⟩; trivial, by rintro _ ⟨⟩; trivial⟩
      have hon := Behind.bridge " ON " (by decide) (Fragment.lists_text hequal rfl)
      have htarget := Behind.table keyword hkeyword (isTableName_quoteIdentifier target)
      have hlink := Behind.table " INNER JOIN " (by decide) (isTableName_quoteIdentifier link)
      have hbehind := htarget.append (hlink.append hon)
      simpa [Fragment.text, Column.text, Qualifier.text, Dialect.postgres, sourceTables, String.append_assoc]
        using hbehind
    | _ => cases hsource _ rfl

variable {join : Join Fragment} {query : Subquery Fragment}

def Subquery.inner (query : Subquery Fragment) : List Fragment :=
  query.columns ++ (query.conditions ++ query.order.map OrderItem.column)

theorem Subquery.behind_text (keyword table : String) (hkeyword : leadsOn (keyword ++ "(\n    SELECT "))
    (hinner : ∀ fragment ∈ query.inner, Lists (fragment.text .postgres) [])
    (hsource : ∀ fragment ∈ query.source, fragment.isLinked) :
    Behind (keyword ++ (query.map (Fragment.text .postgres)).text table) (sourceTables table query.source) := by
  simp only [Subquery.inner, List.forall_mem_append] at hinner
  obtain ⟨hcolumns, hconditions, horder⟩ := hinner
  have hfrom := behind_source "\n    FROM " table (by decide) hsource
  have hwhere := behind_clause "\n    WHERE " " AND " (by decide) (by decide) hconditions
  have hsorted := behind_orderClause "\n    ORDER BY " (by decide) horder
  have hlimit := behind_countClause "\n    LIMIT " (by decide) query.limit
  have hoffset := behind_countClause "\n    OFFSET " (by decide) query.offset
  have hend : Behind "\n)" [] := by
    have hbehind := Behind.bridge "\n)" (by decide) (.quiet "" (by decide))
    rwa [String.append_empty] at hbehind
  have htail := hfrom.append (hwhere.append (hsorted.append (hlimit.append (hoffset.append hend))))
  have hbehind := Behind.bridge _ hkeyword ((lists_columnList hcolumns).append htail)
  unfold Subquery.text Subquery.map
  simpa only [String.append_assoc, List.append_nil, List.nil_append] using hbehind

theorem Join.behind_text (halias : isAlias join.aliasName)
    (hon : ∀ condition ∈ join.on, Lists (condition.text .postgres) [])
    (hinner : ∀ query ∈ join.subquery, ∀ fragment ∈ query.inner, Lists (fragment.text .postgres) [])
    (hsource : ∀ query ∈ join.subquery, ∀ fragment ∈ query.source, fragment.isLinked) :
    Behind (join.map (Fragment.text .postgres)).text
      (sourceTables join.table (join.subquery.bind Subquery.source)) := by
  obtain ⟨kind, table, aliasName, on, subquery⟩ := join
  have hnamed : Behind (" " ++ aliasName ++
      (on.map (Fragment.text .postgres)).elim "" fun condition => " ON " ++ condition) [] := by
    have hname := Behind.bridge " " (by decide) (lists_alias halias)
    cases on with
    | none => simpa using hname
    | some condition => exact hname.append (.bridge " ON " (by decide) (hon condition rfl))
  unfold Join.text Join.map
  cases subquery with
  | none =>
    -- every kind of join has a fixed keyword, which can be looked at
    have hkeyword : leadsToTable ("\n" ++ kind.keyword ++ " ") := by cases kind <;> decide +kernel
    have htable := Behind.table _ hkeyword (isTableName_quoteQualified table)
    simpa only [String.append_assoc, Option.map_none, Option.bind_none, sourceTables, List.append_nil]
      using htable.append hnamed
  | some query =>
    have hkeyword : leadsOn ("\n" ++ kind.keyword ++ " " ++ "(\n    SELECT ") := by cases kind <;> decide +kernel
    have hquery := Subquery.behind_text _ table hkeyword (hinner query rfl) (hsource query rfl)
    simpa only [String.append_assoc, Option.map_some, Option.bind_some, List.append_nil] using hquery.append hnamed

/-! ### Statements -/

def Select.inner (select : Select Fragment) : List Fragment :=
  select.distinctOn ++ (select.columns ++ (select.conditions ++ (select.groupBy ++ (select.having ++
    (select.order.map OrderItem.column ++ select.lockedTables)))))

theorem lists_head {φ : Type} {write : φ → String} {distinctOn columns : List φ}
    (hdistinct : ∀ column ∈ distinctOn, Lists (write column) [])
    (hcolumns : ∀ column ∈ columns, Lists (write column) []) :
    Lists ("SELECT " ++ ((if (distinctOn.map write).isEmpty then ""
      else "DISTINCT ON (" ++ commaList (distinctOn.map write) ++ ") ") ++ columnList (columns.map write))) [] := by
  have hlist := lists_columnList hcolumns
  cases distinctOn with
  | nil =>
    rw [List.map_nil, List.isEmpty_nil, if_pos rfl, String.empty_append]
    exact .opening "SELECT " (by decide) hlist
  | cons column rest =>
    have hkeys : Lists (commaList ((column :: rest).map write)) [] := .intercalate ", " (by decide) hdistinct
    have hhead := hkeys.append (.bridge ") " (by decide) hlist)
    have hlists := (hhead.opening "DISTINCT ON (" (by decide)).opening "SELECT " (by decide)
    simpa only [List.map_cons, List.isEmpty_cons, Bool.false_eq_true, if_false, String.append_assoc, List.append_nil]
      using hlists

theorem Select.lists_text {select : Select Fragment} {names : List String}
    (halias : ∀ name ∈ select.aliasName, isAlias name)
    (hinner : ∀ fragment ∈ select.inner, Lists (fragment.text .postgres) [])
    (hjoins : Behind (String.join ((select.joins.map (Join.map (Fragment.text .postgres))).map Join.text)) names) :
    Lists (select.map (Fragment.text .postgres)).text (quoteQualified select.table :: names) := by
  simp only [Select.inner, List.forall_mem_append] at hinner
  obtain ⟨hdistinct, hcolumns, hconditions, hgroups, hhaving, horder, hlocked⟩ := hinner
  have hhead := lists_head hdistinct hcolumns
  have hfrom := Behind.table "\nFROM " (by decide) (isTableName_quoteQualified select.table)
  have hname : Behind (aliasText select.aliasName) [] := by
    cases hname : select.aliasName with
    | none => exact .nil
    | some name => exact .bridge " " (by decide) (lists_alias (halias name hname))
  have hwhere := behind_clause "\nWHERE " "\n  AND " (by decide) (by decide) hconditions
  have hgrouped := behind_clause "\nGROUP BY " ", " (by decide) (by decide) hgroups
  have hfiltered := behind_clause "\nHAVING " " AND " (by decide) (by decide) hhaving
  have hsorted := behind_orderClause "\nORDER BY " (by decide) horder
  have hlimit := behind_countClause "\nLIMIT " (by decide) select.limit
  have hoffset := behind_countClause " OFFSET " (by decide) select.offset
  have hlock : Behind (if select.forUpdate then
      "\nFOR UPDATE" ++ clause " OF " ", " (select.lockedTables.map (Fragment.text .postgres)) else "") [] := by
    split
    · have hwords := Behind.bridge "\n" (by decide) (.quiet "FOR UPDATE" (by decide))
      have hkeyword : "\n" ++ "FOR UPDATE" = "\nFOR UPDATE" := by decide
      rw [hkeyword] at hwords
      exact hwords.append (behind_clause " OF " ", " (by decide) (by decide) hlocked)
    · exact .nil
  have hclauses := hwhere.append (hgrouped.append (hfiltered.append (hsorted.append (hlimit.append
    (hoffset.append hlock)))))
  have hlists := hhead.append (hfrom.append (hname.append (hjoins.append hclauses)))
  unfold Select.text Select.map
  simpa only [String.append_assoc, List.append_nil, List.nil_append, List.singleton_append] using hlists

end RelationalGraphQL.Sql
