import RelationalGraphQL.Proofs.Sql.TableName

/-!
# The clauses of a statement

A statement that changes rows is a row of clauses, each opened by a word of its own, and `clauses` cuts the tokens of a
text at these words. No name of a column or a table is taken for one, since it is written in quotes. So a statement that
is written clause after clause is read clause by clause (`Says`), whatever the names in it hold.

What a clause says is read from its tokens: the columns and values of a row that is inserted, the values that columns
are set to, the condition that picks the rows.
-/

namespace RelationalGraphQL.Sql

variable {φ α : Type} {literal : String} {columns : List String}

/-! ### Cutting tokens -/

/-- The words that open a clause. -/
def clauseWords : List String :=
  ["INSERT", "INTO", "VALUES", "ON", "CONFLICT", "DO", "UPDATE", "SET", "DELETE", "FROM", "USING", "WHERE", "RETURNING"]

def Token.clauseWord? : Token → Option String
  | .name text => if clauseWords.contains text then some text else none
  | _ => none

/-- The words that open clauses, each with the tokens up to the next one. -/
abbrev Clauses := List (String × List Token)

/-- Cuts tokens at the words that open a clause, and keeps what stands before the first. -/
def cut : List Token → List Token × Clauses
  | [] => ([], [])
  | token :: rest =>
    match token.clauseWord? with
    | some word => ([], (word, (cut rest).1) :: (cut rest).2)
    | none => (token :: (cut rest).1, (cut rest).2)

/-- The clauses of a text; none if a quoted identifier is not closed or the text begins with anything else. -/
def clauses (text : String) : Option Clauses :=
  (tokens text.toList).bind fun found => if (cut found).1.isEmpty then some (cut found).2 else none

def Clauses.tokens (clauses : Clauses) : List Token := clauses.flatMap fun (word, found) => .name word :: found

/-- Tokens that open no clause. -/
def Within (found : List Token) : Prop := ∀ token ∈ found, token.clauseWord? = none

theorem Within.append {front back : List Token} (hfront : Within front) (hback : Within back) :
    Within (front ++ back) :=
  List.forall_mem_append.2 ⟨hfront, hback⟩

theorem cut_within {found : List Token} (hfound : Within found) (rest : List Token) :
    cut (found ++ rest) = (found ++ (cut rest).1, (cut rest).2) := by
  induction found with
  | nil => rfl
  | cons token found ih =>
    obtain ⟨htoken, hfound⟩ := List.forall_mem_cons.1 hfound
    rw [List.cons_append, cut, htoken, ih hfound]
    rfl

theorem cut_tokens {clauses : Clauses} (hclauses : ∀ clause ∈ clauses, clause.1 ∈ clauseWords ∧ Within clause.2) :
    cut clauses.tokens = ([], clauses) := by
  induction clauses with
  | nil => rfl
  | cons clause clauses ih =>
    obtain ⟨word, found⟩ := clause
    obtain ⟨⟨hword, hfound⟩, hclauses⟩ := List.forall_mem_cons.1 hclauses
    have hopens : (Token.name word).clauseWord? = some word := if_pos (List.contains_iff_mem.2 hword)
    have hrest := cut_within hfound (Clauses.tokens clauses)
    rw [ih hclauses, List.append_nil] at hrest
    change cut (.name word :: (found ++ Clauses.tokens clauses)) = _
    rw [cut, hopens, hrest]

/-! ### Texts inside a clause -/

structure Inner (text : String) (found : List Token) : Prop where
  tokens : tokens text.toList = some found
  within : Within found

/-- The tokens of a fixed text that ends with a separator. -/
def leading? (literal : String) : Option (List Token) := do
  let found ← tokens literal.toList.dropLast
  let after ← literal.toList.getLast?.bind separator?
  return found ++ after

/-- The tokens of a fixed text that begins and ends with a separator. -/
def linking? (literal : String) : Option (List Token) :=
  match literal.toList with
  | [] => none
  | c :: rest => do
    let before ← separator? c
    if rest.isEmpty then return before else return before ++ (← leading? (String.ofList rest))

theorem tokens_leading {back : String} {found behind : List Token} (hliteral : leading? literal = some found)
    (hback : tokens back.toList = some behind) : tokens (literal ++ back).toList = some (found ++ behind) := by
  simp only [leading?, Option.bind_eq_bind, Option.bind_eq_some_iff] at hliteral
  obtain ⟨ahead, hahead, after, ⟨c, hlast, hafter⟩, hfound⟩ := hliteral
  cases hfound
  have hsplit := eq_append_last hlast
  rw [String.ofList_toList] at hsplit
  rw [hsplit, String.append_assoc, toList_separated, String.toList_ofList]
  exact tokens_append hahead hafter hback

theorem tokens_linking {front back : String} {ahead found behind : List Token}
    (hfront : tokens front.toList = some ahead) (hliteral : linking? literal = some found)
    (hback : tokens back.toList = some behind) :
    tokens (front ++ (literal ++ back)).toList = some (ahead ++ found ++ behind) := by
  unfold linking? at hliteral
  split at hliteral
  · cases hliteral
  · rename_i c rest hchars
    obtain ⟨before, hbefore, hrest⟩ := Option.bind_eq_some_iff.1 hliteral
    have hsplit : literal = String.ofList [c] ++ String.ofList rest := by
      rw [← String.ofList_append, List.singleton_append, ← hchars, String.ofList_toList]
    rw [hsplit, String.append_assoc, toList_separated]
    split at hrest
    · rename_i hempty
      rw [List.isEmpty_iff] at hempty
      subst hempty
      cases hrest
      exact tokens_append hfront hbefore (by simpa using hback)
    · obtain ⟨after, hafter, hfound⟩ := Option.bind_eq_some_iff.1 hrest
      cases hfound
      rw [tokens_append hfront hbefore (tokens_leading hafter hback)]
      simp only [List.append_assoc]

def isWithin (found : List Token) : Bool := found.all fun token => token.clauseWord?.isNone

theorem within_of_isWithin {found : List Token} (hfound : isWithin found) : Within found := by
  intro token htoken
  exact Option.isNone_iff_eq_none.1 (List.all_eq_true.1 hfound token htoken)

namespace Inner

variable {front back body : String} {before after found : List Token} {φ : Type} {write : φ → String}
  {items : φ → List Token} {parts : List φ}

theorem fixed (literal : String) (found : List Token) (htokens : Sql.tokens literal.toList = some found)
    (hwithin : isWithin found) : Inner literal found := ⟨htokens, within_of_isWithin hwithin⟩

theorem leading (literal : String) (between : List Token) (hliteral : leading? literal = some between)
    (hwithin : isWithin between) (hbody : Inner body found) : Inner (literal ++ body) (between ++ found) where
  tokens := tokens_leading hliteral hbody.tokens
  within := (within_of_isWithin hwithin).append hbody.within

theorem link (hfront : Inner front before) (literal : String) (between : List Token)
    (hliteral : linking? literal = some between) (hwithin : isWithin between) (hback : Inner back after) :
    Inner (front ++ (literal ++ back)) (before ++ between ++ after) where
  tokens := tokens_linking hfront.tokens hliteral hback.tokens
  within := (hfront.within.append (within_of_isWithin hwithin)).append hback.within

theorem closed (hfront : Inner front before) : Inner (front ++ ")") (before ++ [.mark ')']) := by
  have hclosed := hfront.link ")" [.mark ')'] rfl rfl (.fixed "" [] rfl rfl)
  rwa [String.append_empty, List.append_nil] at hclosed

theorem name {text : String} (hname : IsName text) (hquote : '"' ∈ text.toList) : Inner text [.name text] where
  tokens := hname
  within := by
    have hwords : ∀ word ∈ clauseWords, '"' ∉ word.toList := by decide
    refine List.forall_mem_singleton.2 (if_neg ?_)
    rw [List.contains_iff_mem]
    exact fun hmem => hwords text hmem hquote

theorem quoteIdentifier (name : String) : Inner (quoteIdentifier name) [.name (Sql.quoteIdentifier name)] :=
  .name (isName_of_quoted (mem_quoteIdentifier name) (continuesWord_quoteIdentifier name)) (mem_quoteIdentifier name)

theorem placeholder (position : Nat) : Inner (Dialect.postgres.placeholder position) [.parameter position] :=
  ⟨tokens_placeholder position, List.forall_mem_singleton.2 rfl⟩

theorem intercalate (separator : String) (between : List Token) (hseparator : linking? separator = some between)
    (hwithin : isWithin between) (hparts : ∀ part ∈ parts, Inner (write part) (items part)) :
    Inner (separator.intercalate (parts.map write)) (between.intercalate (parts.map items)) := by
  induction parts with
  | nil => exact .fixed "" [] rfl rfl
  | cons part parts ih =>
    obtain ⟨hpart, hparts⟩ := List.forall_mem_cons.1 hparts
    have hrest := ih hparts
    cases parts with
    | nil => simpa using hpart
    | cons next parts =>
      have hlinked := hpart.link separator between hseparator hwithin hrest
      simpa [String.intercalate_cons_cons, List.intercalate_cons_cons, String.append_assoc] using hlinked

theorem commaList (hparts : ∀ part ∈ parts, Inner (write part) (items part)) :
    Inner (commaList (parts.map write)) ([.mark ','].intercalate (parts.map items)) :=
  .intercalate ", " [.mark ','] rfl rfl hparts

end Inner

/-! ### Conditions -/

def IsInner (text : String) : Prop := ∃ found, Inner text found

theorem IsInner.composes :
    Composes (fun text _ => IsInner text) fun text _ => ∀ front, IsInner front → IsInner (front ++ text) where
  lone text htext := by
    have hlone : ∀ text ∈ loneTexts, (tokens text.toList).any isWithin := by decide
    obtain ⟨found, hfound, hwithin⟩ := (Option.any_eq_true _ _).1 (hlone text htext)
    exact ⟨found, .fixed text found hfound hwithin⟩
  opening literal hliteral := by
    have hleading : ∀ literal ∈ openingTexts, (leading? literal).any isWithin := by decide
    obtain ⟨between, hbetween, hwithin⟩ := (Option.any_eq_true _ _).1 (hleading literal hliteral)
    rintro body - ⟨found, hbody⟩
    exact ⟨_, .leading literal between hbetween hwithin hbody⟩
  link literal hliteral := by
    have hlinking : ∀ literal ∈ linkTexts, (linking? literal).any isWithin := by decide
    obtain ⟨between, hbetween, hwithin⟩ := (Option.any_eq_true _ _).1 (hlinking literal hliteral)
    rintro body - ⟨after, hbody⟩ front ⟨before, hfront⟩
    exact ⟨_, hfront.link literal between hbetween hwithin hbody⟩
  nil front hfront := by rwa [String.append_empty]
  append hfront hback := hback _ hfront
  placeholder position := ⟨_, .placeholder position⟩

/-! ### Clause after clause -/

/-- A text that consists of these clauses. -/
structure Says (text : String) (clauses : Clauses) : Prop where
  tokens : tokens text.toList = some clauses.tokens
  known : ∀ clause ∈ clauses, clause.1 ∈ clauseWords ∧ Within clause.2

/-- A text that can stand behind any clause, and adds these. -/
def Continues (text : String) (clauses : Clauses) : Prop :=
  ∀ (front : String) (before : Clauses), Says front before → Says (front ++ text) (before ++ clauses)

/-- A clause behind words without content of their own. -/
def Clauses.behind (words : List String) (word : String) (found : List Token) : Clauses :=
  words.map (·, []) ++ [(word, found)]

theorem Clauses.tokens_append (front back : Clauses) : Clauses.tokens (front ++ back) = front.tokens ++ back.tokens :=
  List.flatMap_append

theorem Clauses.tokens_behind (words : List String) (word : String) (found : List Token) :
    (Clauses.behind words word found).tokens = (words ++ [word]).map .name ++ found := by
  rw [behind, tokens_append, tokens, tokens, List.flatMap_map, List.map_append]
  simp [List.map_eq_flatMap]

theorem Clauses.known_behind {words : List String} {word : String} {found : List Token}
    (hwords : words ++ [word] ⊆ clauseWords) (hfound : Within found) :
    ∀ clause ∈ Clauses.behind words word found, clause.1 ∈ clauseWords ∧ Within clause.2 := by
  obtain ⟨hwords, hword⟩ := List.append_subset.1 hwords
  refine List.forall_mem_append.2 ⟨List.forall_mem_map.2 fun other hother => ?_, List.forall_mem_singleton.2 ?_⟩
  · exact ⟨hwords hother, List.forall_mem_nil _⟩
  · exact ⟨hword (List.mem_singleton_self word), hfound⟩

section

variable {text front back body : String} {clauses before after : Clauses} {found : List Token}

theorem Says.clauses_eq (hsaid : Says text clauses) : Sql.clauses text = some clauses := by
  rw [Sql.clauses, hsaid.tokens, Option.bind_some, cut_tokens hsaid.known]
  rfl

theorem Says.append (hfront : Says front before) (hback : Continues back after) :
    Says (front ++ back) (before ++ after) := hback front before hfront

theorem Continues.nil : Continues "" [] := by
  intro front before hfront
  rwa [String.append_empty, List.append_nil]

theorem Continues.append (hfront : Continues front before) (hback : Continues back after) :
    Continues (front ++ back) (before ++ after) := by
  intro first clauses hfirst
  rw [← String.append_assoc, ← List.append_assoc]
  exact (hfirst.append hfront).append hback

theorem Says.opening (literal : String) (words : List String) (word : String)
    (hliteral : leading? literal = some ((words ++ [word]).map .name)) (hwords : words ++ [word] ⊆ clauseWords)
    (hbody : Inner body found) : Says (literal ++ body) (Clauses.behind words word found) where
  tokens := by rw [tokens_leading hliteral hbody.tokens, Clauses.tokens_behind]
  known := Clauses.known_behind hwords hbody.within

theorem Continues.clause (literal : String) (words : List String) (word : String)
    (hliteral : linking? literal = some ((words ++ [word]).map .name)) (hwords : words ++ [word] ⊆ clauseWords)
    (hbody : Inner body found) : Continues (literal ++ body) (Clauses.behind words word found) := by
  intro front before hfront
  refine ⟨?_, List.forall_mem_append.2 ⟨hfront.known, Clauses.known_behind hwords hbody.within⟩⟩
  rw [tokens_linking hfront.tokens hliteral hbody.tokens, Clauses.tokens_append, Clauses.tokens_behind,
    List.append_assoc]

end

/-! ### What clauses say -/

/-- The parts of a clause between commas. -/
def listed (found : List Token) : List (List Token) := found.splitOn (.mark ',')

/-- What stands in a pair of parentheses around all of it. -/
def enclosed? : List Token → Option (List Token)
  | .mark '(' :: rest => if rest.getLast? = some (.mark ')') then some rest.dropLast else none
  | _ => none

def onlyName? : List Token → Option String
  | [.name text] => some text
  | _ => none

/-- The value that an expression stands for: null, or that of the parameter it names. -/
def expression? (parameters : Parameters) : List Token → Option Value
  | [.keyword .null] => some .null
  | [.parameter position] => parameters.value? position
  | _ => none

/-- A column and what it is set to. -/
def assignment? {α : Type} (read : List Token → Option α) : List Token → Option (String × α)
  | .name column :: .operator "=" :: found => (read found).map (column, ·)
  | _ => none

/-- A condition, which is the whole of the tokens. -/
def readCondition (found : List Token) : Option (Formula String) := do
  let levels ← found.foldlM readToken [[]]
  match levels with
  | [items] => readDisjunction items
  | _ => none

/-- The truth that a condition has for a row, its parameters looked up in a list. Without a condition every row
passes. -/
def pickedTruth (outcome : String → Test Value → Truth) (parameters : Parameters) : Option (List Token) → Option Truth
  | none => some .true
  | some found => (readCondition found).bind (Formula.truth outcome parameters)

theorem readFormula_eq (text : String) : readFormula text = (tokens text.toList).bind readCondition := rfl

namespace Clauses

/-- The table that a row is inserted into, and its columns with their values. There have to be as many of one as of the
other. -/
def insertion? (parameters : Parameters) (clauses : Clauses) : Option (String × List (String × Value)) := do
  let into ← clauses.lookup "INTO"
  let table ← onlyName? (into.take 1)
  let columns ← (listed (← enclosed? (into.drop 1))).mapM onlyName?
  let values ← (listed (← enclosed? (← clauses.lookup "VALUES"))).mapM (expression? parameters)
  if columns.length = values.length then some (table, columns.zip values) else none

/-- The columns whose conflicts an insertion provides for. -/
def conflictColumns? (clauses : Clauses) : Option (List String) := do
  (listed (← enclosed? (← clauses.lookup "CONFLICT"))).mapM onlyName?

def assignments? {α : Type} (read : List Token → Option α) (clauses : Clauses) : Option (List (String × α)) := do
  (listed (← clauses.lookup "SET")).mapM (assignment? read)

/-- The truth that the condition of a statement has for a row. -/
def conditionTruth (outcome : String → Test Value → Truth) (parameters : Parameters) (clauses : Clauses) :
    Option Truth :=
  pickedTruth outcome parameters (clauses.lookup "WHERE")

end Clauses

theorem enclosed?_enclosed (found : List Token) : enclosed? (.mark '(' :: (found ++ [.mark ')'])) = some found := by
  rw [enclosed?, List.getLast?_concat, if_pos rfl, List.dropLast_concat]

theorem mapM_listed {items : φ → List Token} {parts : List φ} (hne : parts ≠ [])
    (hitems : ∀ part ∈ parts, .mark ',' ∉ items part) (read : List Token → Option α) :
    (listed ([.mark ','].intercalate (parts.map items))).mapM read = parts.mapM fun part => read (items part) := by
  rw [listed, List.splitOn_intercalate _ (List.forall_mem_map.2 hitems) (by simpa using hne), List.mapM_map]
  rfl

/-! ### Lists of names and of values -/

theorem quoteIdentifier_injective {name other : String} (heq : quoteIdentifier name = quoteIdentifier other) :
    name = other := by
  have hlexemes := lexemes_quoteIdentifier name
  rw [heq, lexemes_quoteIdentifier, Option.some.injEq, List.cons.injEq, Lexeme.identifier.injEq] at hlexemes
  exact hlexemes.1.symm

namespace Operand

def value? (parameters : Parameters) : Operand → Option Value
  | .null => some .null
  | .parameter position => parameters.value? position

def token : Operand → Token
  | .null => .keyword .null
  | .parameter position => .parameter position

theorem inner (operand : Operand) : Inner (operand.text Dialect.postgres.placeholder) [operand.token] := by
  cases operand with
  | null => exact .fixed "NULL" _ rfl rfl
  | parameter position => exact .placeholder position

theorem token_ne_comma (operand : Operand) : operand.token ≠ .mark ',' := by cases operand <;> simp [token]

theorem expression?_token (parameters : Parameters) (operand : Operand) :
    expression? parameters [operand.token] = operand.value? parameters := by
  cases operand <;> rfl

end Operand

def commaTokens (found : List Token) : List Token := [.mark ','].intercalate (found.map fun token => [token])

theorem mapM_commaTokens {found : List Token} (hne : found ≠ []) (hcomma : .mark ',' ∉ found)
    (read : List Token → Option α) : (listed (commaTokens found)).mapM read = found.mapM fun token => read [token] := by
  refine mapM_listed hne (fun token htoken hmem => ?_) read
  rw [List.mem_singleton.1 hmem] at hcomma
  exact hcomma htoken

theorem Inner.commaTokens {write : φ → String} {item : φ → Token} (parts : List φ)
    (hparts : ∀ part ∈ parts, Inner (write part) [item part]) :
    Inner (Sql.commaList (parts.map write)) (commaTokens (parts.map item)) := by
  rw [Sql.commaTokens, List.map_map]
  exact .commaList hparts

def quotedNames (names : List String) : List Token := names.map fun name => .name (quoteIdentifier name)

theorem Inner.quotedNames (names : List String) :
    Inner (Sql.commaList (names.map Sql.quoteIdentifier)) (Sql.commaTokens (quotedNames names)) :=
  .commaTokens names fun name _ => .quoteIdentifier name

theorem mapM_quotedNames {names : List String} (hne : names ≠ []) :
    (listed (commaTokens (quotedNames names))).mapM onlyName? = some (names.map quoteIdentifier) := by
  rw [mapM_commaTokens (by simpa [quotedNames] using hne) (by simp [quotedNames]), quotedNames, List.mapM_map]
  exact List.mapM_pure

def assignmentTokens (assignments : List (String × Token)) : List Token :=
  [.mark ','].intercalate (assignments.map fun (column, value) => [.name column, .operator "=", value])

theorem Inner.assignments (column : φ → String) {value : φ → String} {token : φ → Token} (parts : List φ)
    (hparts : ∀ part ∈ parts, Inner (value part) [token part]) :
    Inner (assignmentList (parts.map fun part => (Sql.quoteIdentifier (column part), value part)))
      (assignmentTokens (parts.map fun part => (Sql.quoteIdentifier (column part), token part))) := by
  rw [assignmentList, assignmentTokens, List.map_map, List.map_map]
  refine .commaList fun part hpart => ?_
  have hlinked := (Inner.quoteIdentifier (column part)).link " = " [.operator "="] rfl rfl (hparts part hpart)
  simpa [String.append_assoc] using hlinked

theorem mapM_assignmentTokens {assignments : List (String × Token)} (hne : assignments ≠ [])
    (hcomma : ∀ assignment ∈ assignments, assignment.2 ≠ .mark ',') (read : List Token → Option α) :
    (listed (assignmentTokens assignments)).mapM (assignment? read) =
      assignments.mapM fun assignment => (read [assignment.2]).map (assignment.1, ·) := by
  refine mapM_listed hne (fun assignment hassignment hmem => ?_) _
  simp only [List.mem_cons, List.not_mem_nil, or_false, reduceCtorEq, false_or] at hmem
  exact hcomma assignment hassignment hmem.symm

/-! ### Statements -/

def parenthesized (found : List Token) : List Token := .mark '(' :: (found ++ [.mark ')'])

def returnedClause (names : List String) : Clauses :=
  if names.isEmpty then [] else [("RETURNING", commaTokens (quotedNames names))]

theorem continues_returning (names : List String) :
    Continues (returningClause (names.map quoteIdentifier)) (returnedClause names) := by
  cases names with
  | nil => exact .nil
  | cons name names => exact .clause "\nRETURNING " [] "RETURNING" rfl (by decide) (.quotedNames (name :: names))

def insertionClauses (table : String) (columns : List String) (values : List Operand) (rest : Clauses) : Clauses :=
  ("INSERT", []) :: ("INTO", .name (quoteQualified table) :: parenthesized (commaTokens (quotedNames columns))) ::
    ("VALUES", parenthesized (commaTokens (values.map Operand.token))) :: rest

theorem Insert.says_text (table : String) (columns : List String) (values : List Operand)
    {conflict : Option (Conflict String)} {onConflict : Clauses}
    (hconflict : Continues (conflict.elim "" Conflict.text) onConflict) (returning : List String) :
    Says (Insert.text
        { table
          columns := columns.map quoteIdentifier
          rows := [values.map (Operand.text Dialect.postgres.placeholder)]
          conflict
          returning := returning.map quoteIdentifier })
      (insertionClauses table columns values (onConflict ++ returnedClause returning)) := by
  have htable := isTableName_quoteQualified table
  have hcolumns := (Inner.name htable.1 (List.mem_of_head? htable.2)).link " (" [.mark '('] rfl rfl
    (Inner.quotedNames columns).closed
  have hinto := Says.opening "INSERT INTO " ["INSERT"] "INTO" rfl (by decide) hcolumns
  have hrow := Inner.leading "(" [.mark '('] rfl rfl
    (Inner.commaTokens values fun operand _ => operand.inner).closed
  have hvalues := Continues.clause "\nVALUES " [] "VALUES" rfl (by decide) hrow
  have hsaid := hinto.append (hvalues.append (hconflict.append (continues_returning returning)))
  have hliteral : ")\nVALUES " = ")" ++ "\nVALUES " := rfl
  unfold Insert.text
  simpa only [hliteral, List.map_cons, List.map_nil, commaList, String.intercalate_singleton,
    String.append_assoc, Clauses.behind, insertionClauses, parenthesized, List.singleton_append, List.cons_append,
    List.nil_append] using hsaid

theorem Clauses.insertion?_eq {table : String} {values : List Operand} {parameters : Parameters} {written : List Value}
    (hcolumns : columns ≠ []) (hvalues : values ≠ []) (hlength : columns.length = written.length)
    (hwritten : values.mapM (Operand.value? parameters) = some written) (rest : Clauses) :
    insertion? parameters (insertionClauses table columns values rest) =
      some (quoteQualified table, (columns.map quoteIdentifier).zip written) := by
  have hread : (listed (commaTokens (values.map Operand.token))).mapM (expression? parameters) = some written := by
    have hcomma : .mark ',' ∉ values.map Operand.token := by
      intro hmem
      obtain ⟨operand, -, heq⟩ := List.mem_map.1 hmem
      exact operand.token_ne_comma heq
    rw [mapM_commaTokens (by simpa using hvalues) hcomma, List.mapM_map, ← hwritten]
    exact congrArg (fun read => values.mapM read) (funext fun operand => operand.expression?_token parameters)
  have hclauses : insertion? parameters (insertionClauses table columns values rest) = (do
      let columns ← (listed (← enclosed? (parenthesized (commaTokens (quotedNames columns))))).mapM onlyName?
      let values ← (listed (← enclosed? (parenthesized (commaTokens (values.map Operand.token))))).mapM
        (expression? parameters)
      if columns.length = values.length then some (quoteQualified table, columns.zip values) else none) := rfl
  rw [hclauses, parenthesized, enclosed?_enclosed, parenthesized, enclosed?_enclosed]
  simp only [Option.bind_eq_bind, Option.bind_some, mapM_quotedNames hcolumns, hread, List.length_map, hlength, if_true]

theorem inner_excluded (name : String) :
    Inner ("EXCLUDED." ++ quoteIdentifier name) [.name ("EXCLUDED." ++ quoteIdentifier name)] := by
  obtain ⟨hname, hquote⟩ := isName_excluded name
  exact .name hname hquote

theorem ConflictAction.continues_nothing :
    Continues (nothing : ConflictAction String).text [("DO", [.name "NOTHING"])] :=
  Continues.clause " DO " [] "DO" rfl (by decide) (.fixed "NOTHING" _ rfl rfl)

theorem ConflictAction.continues_update (columns : List String) :
    Continues (update (columns.map fun column => (quoteIdentifier column, "EXCLUDED." ++ quoteIdentifier column)) []).text
      [("DO", []), ("UPDATE", []), ("SET", assignmentTokens (columns.map fun column =>
        (quoteIdentifier column, .name ("EXCLUDED." ++ quoteIdentifier column))))] := by
  have hassigned := Inner.assignments id columns fun column _ => inner_excluded column
  have hclause := Continues.clause " DO UPDATE SET " ["DO", "UPDATE"] "SET" rfl (by decide) hassigned
  have htext (assigned : List (String × String)) :
      (update assigned []).text = " DO UPDATE SET " ++ assignmentList assigned := String.append_empty
  rw [htext]
  exact hclause

theorem Conflict.continues (hcolumns : columns ≠ []) {action : ConflictAction String} {after : Clauses}
    (haction : Continues action.text after) :
    Continues (Conflict.text { columns := columns.map quoteIdentifier, action })
      (("ON", []) :: ("CONFLICT", parenthesized (commaTokens (quotedNames columns))) :: after) := by
  have hlist := Inner.leading "(" [.mark '('] rfl rfl (Inner.quotedNames columns).closed
  have hclause := (Continues.clause "\nON CONFLICT " ["ON"] "CONFLICT" rfl (by decide) hlist).append haction
  have hempty : (columns.map quoteIdentifier).isEmpty = false := by simpa using hcolumns
  have htext : Conflict.text { columns := columns.map quoteIdentifier, action } =
      "\nON CONFLICT " ++ ("(" ++ (commaList (columns.map quoteIdentifier) ++ ")")) ++ action.text := by
    have hhead : "\nON CONFLICT " = "\nON CONFLICT" ++ " " := rfl
    have hopen : " (" = " " ++ "(" := rfl
    unfold text
    rw [hempty, if_neg Bool.false_ne_true, hhead, hopen]
    simp only [String.append_assoc]
  rw [htext]
  exact hclause

def pickingClause (found : Option (List Token)) : Clauses := found.toList.map ("WHERE", ·)

theorem continues_picking {conditions : List String} {found : Option (List Token)}
    (hconditions : conditions = [] ∧ found = none ∨
      ∃ condition tokens, conditions = [condition] ∧ found = some tokens ∧ Inner condition tokens) :
    Continues (clause "\nWHERE " " AND " conditions) (pickingClause found) := by
  rcases hconditions with ⟨rfl, rfl⟩ | ⟨condition, tokens, rfl, rfl, hcondition⟩
  · exact .nil
  · have hclause := Continues.clause "\nWHERE " [] "WHERE" rfl (by decide) hcondition
    simpa [clause, pickingClause, Clauses.behind] using hclause

theorem lookup_picking (found : Option (List Token)) (names : List String) :
    (pickingClause found ++ returnedClause names).lookup "WHERE" = found := by
  cases found with
  | some found => rfl
  | none => cases names <;> rfl

section

variable {aliasName : String} {conditions : List String} {picking : Clauses}

theorem inner_target (table : String) (halias : Inner aliasName [.name aliasName]) :
    Inner (quoteQualified table ++ aliasText (some aliasName)) [.name (quoteQualified table), .name aliasName] := by
  have htable := isTableName_quoteQualified table
  exact (Inner.name htable.1 (List.mem_of_head? htable.2)).link " " [] rfl rfl halias

theorem Update.says_text (table : String) (halias : Inner aliasName [.name aliasName])
    (assignments : List (String × Operand))
    (hpicking : Continues (clause "\nWHERE " " AND " conditions) picking) (returning : List String) :
    Says (Update.text
        { table
          aliasName := some aliasName
          assignments := assignments.map fun (column, operand) =>
            (quoteIdentifier column, operand.text Dialect.postgres.placeholder)
          conditions
          returning := returning.map quoteIdentifier })
      (("UPDATE", [.name (quoteQualified table), .name aliasName]) ::
        ("SET", assignmentTokens (assignments.map fun (column, operand) => (quoteIdentifier column, operand.token))) ::
        (picking ++ returnedClause returning)) := by
  have hupdate := Says.opening "UPDATE " [] "UPDATE" rfl (by decide) (inner_target table halias)
  have hset := Continues.clause "\nSET " [] "SET" rfl (by decide)
    (Inner.assignments Prod.fst assignments fun assignment _ => assignment.2.inner)
  have hsaid := hupdate.append (hset.append (hpicking.append (continues_returning returning)))
  unfold Update.text
  simpa only [clause, List.isEmpty_nil, if_true, String.append_empty, String.append_assoc, Clauses.behind,
    List.map_nil, List.nil_append, List.singleton_append] using hsaid

theorem Delete.says_text (table : String) (halias : Inner aliasName [.name aliasName])
    (hpicking : Continues (clause "\nWHERE " " AND " conditions) picking) (returning : List String) :
    Says (Delete.text { table, aliasName := some aliasName, conditions, returning := returning.map quoteIdentifier })
      (("DELETE", []) :: ("FROM", [.name (quoteQualified table), .name aliasName]) ::
        (picking ++ returnedClause returning)) := by
  have hdelete := Says.opening "DELETE FROM " ["DELETE"] "FROM" rfl (by decide) (inner_target table halias)
  have hsaid := hdelete.append (hpicking.append (continues_returning returning))
  unfold Delete.text
  simpa only [clause, List.isEmpty_nil, if_true, String.append_empty, String.append_assoc, Clauses.behind,
    List.map_cons, List.map_nil, List.singleton_append, List.cons_append, List.nil_append] using hsaid

end

end RelationalGraphQL.Sql
