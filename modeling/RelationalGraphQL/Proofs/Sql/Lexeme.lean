import RelationalGraphQL.Proofs.Sql.Token

/-!
# Identifiers and what stands between them

A quote opens an identifier and the next one closes it, where a quote written twice inside is one that belongs to the
name. Outside identifiers a statement falls into words, which blanks and marks end. The statements of this library are
made of few words beside names and numbers; a lexeme is plain if it is one of them.

Around a blank or a mark, the lexemes of a text are those of its two sides (`lexemes_separated`), and an identifier that
was quoted is read as the name it stands for (`lexemes_quoteIdentifier`).
-/

namespace RelationalGraphQL.Sql

variable {c : Char} {between behind : List Lexeme} {n : Nat}

inductive Lexeme where
  /-- A quoted identifier, by its name. -/
  | identifier (name : String)
  | word (text : String)
  | mark (character : Char)
  deriving DecidableEq, Repr

def marks : List Char := ['(', ')', ',', '.', '*']

/-- The lexemes that a blank or a mark leaves between two words, none if a character is neither. -/
def gap? (c : Char) : Option (List Lexeme) :=
  if c.isWhitespace then some [] else if c ∈ marks then some [.mark c] else none

/-- The word that ends here, if one is under way. -/
def Lexeme.ofRun (run : List Char) : List Lexeme := if run = [] then [] else [.word (String.ofList run)]

mutual

/-- Reads outside identifiers, with the word under way. -/
def outside (run : List Char) : List Char → Option (List Lexeme)
  | [] => some (Lexeme.ofRun run)
  | c :: rest =>
    if c = '"' then (inside [] rest).map (Lexeme.ofRun run ++ ·)
    else
      match gap? c with
      | some between => (outside [] rest).map (Lexeme.ofRun run ++ between ++ ·)
      | none => outside (run ++ [c]) rest

/-- Reads inside an identifier, with its name so far. -/
def inside (name : List Char) : List Char → Option (List Lexeme)
  | [] => none
  | '"' :: '"' :: rest => inside (name ++ ['"']) rest
  | c :: rest =>
    if c = '"' then (outside [] rest).map (.identifier (String.ofList name) :: ·) else inside (name ++ [c]) rest

end

/-- The lexemes of a text, none if it ends inside an identifier. -/
def lexemes (text : String) : Option (List Lexeme) := outside [] text.toList

/-! ### Plain words -/

/-- The words of statements. -/
def keywords : List String :=
  ["ALL", "AND", "ANY", "AS", "ASC", "BY", "CONFLICT", "CROSS", "DELETE", "DESC", "DISTINCT", "DO", "EXCLUDED", "FIRST",
   "FOR", "FROM", "FULL", "GROUP", "HAVING", "ILIKE", "INNER", "INSERT", "INTO", "IS", "JOIN", "LAST", "LATERAL", "LEFT",
   "LIKE", "LIMIT", "NOT", "NOTHING", "NULL", "NULLS", "OF", "OFFSET", "ON", "OR", "ORDER", "RETURNING", "RIGHT", "SELECT",
   "SET", "TRUE", "UPDATE", "USING", "VALUES", "WHERE"]

def operators : List String := ["=", "<>", "<", "<=", ">", ">=", "@>", "<@"]

/-- A lower-case letter, and digits if need be. -/
def isAlias (text : String) : Bool :=
  match text.toList with
  | [] => false
  | c :: digits => c.isLower && digits.all Char.isDigit

def isNumber (text : String) : Bool := !text.toList.isEmpty && text.toList.all Char.isDigit

/-- A dollar sign and a number. -/
def isPlaceholder (text : String) : Bool :=
  match text.toList with
  | '$' :: digits => isNumber (String.ofList digits)
  | _ => false

/-- Identifiers, keywords, operators, aliases, numbers, placeholders and marks. -/
def Lexeme.isPlain : Lexeme → Bool
  | .identifier _ => true
  | .word text =>
    keywords.contains text || operators.contains text || isAlias text || isNumber text || isPlaceholder text
  | .mark c => marks.contains c

/-! ### Pieces of a text -/

theorem gap?_ne_quote (hgap : gap? c = some between) : c ≠ '"' := by
  intro heq
  rw [heq] at hgap
  cases hgap

theorem outside_gap (hgap : gap? c = some between) {back : List Char} (hback : outside [] back = some behind)
    (run : List Char) : outside run (c :: back) = some (Lexeme.ofRun run ++ between ++ behind) := by
  rw [outside, if_neg (gap?_ne_quote hgap), hgap]
  simp only [hback, Option.map_some]

theorem inside_of_ne (hc : c ≠ '"') (name rest : List Char) : inside name (c :: rest) = inside (name ++ [c]) rest := by
  rw [inside]
  · exact if_neg hc
  · rintro _ rfl
    exact absurd rfl hc

theorem inside_doubled_quote (name rest : List Char) :
    inside name ('"' :: '"' :: rest) = inside (name ++ ['"']) rest := by rw [inside]

theorem inside_quote {rest : List Char} (hrest : rest.head? ≠ some '"') (name : List Char) :
    inside name ('"' :: rest) = (outside [] rest).map (.identifier (String.ofList name) :: ·) := by
  rw [inside]
  · exact if_pos rfl
  · rintro rest _ rfl
    exact absurd rfl hrest

mutual

theorem outside_append {c : Char} {between behind : List Lexeme} (hgap : gap? c = some between) {back : List Char}
    (hback : outside [] back = some behind) : ∀ (run front : List Char) (ahead : List Lexeme),
    outside run front = some ahead → outside run (front ++ c :: back) = some (ahead ++ between ++ behind)
  | run, [], ahead, hfront => by
    cases hfront
    exact outside_gap hgap hback run
  | run, first :: front, ahead, hfront => by
    rw [outside] at hfront
    rw [List.cons_append, outside]
    split at hfront
    · rename_i hquote
      obtain ⟨inner, hinner, rfl⟩ := Option.map_eq_some_iff.1 hfront
      rw [if_pos hquote, inside_append hgap hback [] front inner hinner]
      simp only [Option.map_some, List.append_assoc]
    · rename_i hquote
      rw [if_neg hquote]
      cases hfirst : gap? first with
      | none =>
        rw [hfirst] at hfront
        exact outside_append hgap hback (run ++ [first]) front ahead hfront
      | some left =>
        rw [hfirst] at hfront
        obtain ⟨inner, hinner, rfl⟩ := Option.map_eq_some_iff.1 hfront
        simp only [outside_append hgap hback [] front inner hinner, Option.map_some, List.append_assoc]

theorem inside_append {c : Char} {between behind : List Lexeme} (hgap : gap? c = some between) {back : List Char}
    (hback : outside [] back = some behind) : ∀ (name front : List Char) (ahead : List Lexeme),
    inside name front = some ahead → inside name (front ++ c :: back) = some (ahead ++ between ++ behind)
  | name, [], ahead, hfront => by cases hfront
  | name, [first], ahead, hfront => by
    by_cases hfirst : first = '"'
    · -- The quote closes the identifier, since the gap is no quote.
      subst hfirst
      cases hfront
      rw [List.singleton_append, inside_quote (by simpa using gap?_ne_quote hgap), outside_gap hgap hback]
      rfl
    · rw [inside_of_ne hfirst] at hfront
      cases hfront
  | name, first :: second :: front, ahead, hfront => by
    by_cases hfirst : first = '"'
    · subst hfirst
      by_cases hsecond : second = '"'
      · subst hsecond
        rw [inside_doubled_quote] at hfront
        rw [List.cons_append, List.cons_append, inside_doubled_quote]
        exact inside_append hgap hback (name ++ ['"']) front ahead hfront
      · have hhead : (second :: front).head? ≠ some '"' := by simpa using hsecond
        have hhead' : (second :: front ++ c :: back).head? ≠ some '"' := by simpa using hsecond
        rw [inside_quote hhead] at hfront
        obtain ⟨inner, hinner, rfl⟩ := Option.map_eq_some_iff.1 hfront
        rw [List.cons_append, inside_quote hhead', outside_append hgap hback [] (second :: front) inner hinner]
        rfl
    · rw [inside_of_ne hfirst] at hfront
      rw [List.cons_append, inside_of_ne hfirst]
      exact inside_append hgap hback (name ++ [first]) (second :: front) ahead hfront

end

theorem lexemes_separated {front back : String} {ahead : List Lexeme} (hfront : lexemes front = some ahead)
    (hgap : gap? c = some between) (hback : lexemes back = some behind) :
    lexemes (front ++ (String.ofList [c] ++ back)) = some (ahead ++ between ++ behind) := by
  have htext : (front ++ (String.ofList [c] ++ back)).toList = front.toList ++ c :: back.toList := by simp
  rw [lexemes, htext]
  exact outside_append hgap hback [] front.toList ahead hfront

theorem inside_doubled (text name : List Char) :
    inside name (doubled '"' text ++ ['"']) = some [.identifier (String.ofList (name ++ text))] := by
  induction text generalizing name with
  | nil =>
    rw [doubled, List.nil_append, inside_quote (by decide), List.append_nil]
    rfl
  | cons c text ih =>
    rw [doubled]
    by_cases hc : c = '"'
    · rw [if_pos hc, List.cons_append, List.cons_append, inside_doubled_quote, ih, hc, List.append_assoc]
      rfl
    · rw [if_neg hc, List.cons_append, inside_of_ne hc, ih, List.append_assoc]
      rfl

theorem toList_quoted (mark : Char) (text : String) :
    (quoted mark text).toList = mark :: (doubled mark text.toList ++ [mark]) := by
  rw [quoted, String.toList_ofList, List.cons_append]

theorem toList_quoteIdentifier (name : String) :
    (quoteIdentifier name).toList = '"' :: (doubled '"' name.toList ++ ['"']) := toList_quoted '"' name

/-- Whatever a name holds, quoting it makes one identifier of it. -/
theorem lexemes_quoteIdentifier (name : String) : lexemes (quoteIdentifier name) = some [.identifier name] := by
  rw [lexemes, toList_quoteIdentifier, outside, if_pos rfl, inside_doubled, List.nil_append, String.ofList_toList]
  rfl

theorem outside_word {text : List Char} (htext : ∀ c ∈ text, c ≠ '"' ∧ gap? c = none) (run : List Char) :
    outside run text = some (Lexeme.ofRun (run ++ text)) := by
  induction text generalizing run with
  | nil => rw [outside, List.append_nil]
  | cons c text ih =>
    obtain ⟨hquote, hgap⟩ := htext c List.mem_cons_self
    rw [outside, if_neg hquote, hgap]
    dsimp only
    rw [ih (fun d hd => htext d (List.mem_cons_of_mem _ hd)), List.append_assoc, List.singleton_append]

theorem lexemes_word {text : String} (hne : text ≠ "") (htext : ∀ c ∈ text.toList, c ≠ '"' ∧ gap? c = none) :
    lexemes text = some [.word text] := by
  have hchars : text.toList ≠ [] := by simpa using hne
  rw [lexemes, outside_word htext, List.nil_append, Lexeme.ofRun, if_neg hchars, String.ofList_toList]

theorem isDigit_of_mem_toString (hc : c ∈ (toString n).toList) : c.isDigit := by
  have hmem : c ∈ Nat.toDigits 10 n := by simpa using hc
  exact Nat.isDigit_of_mem_toDigits (by decide) (by decide) hmem

theorem isAlphanum_of_mem_toString (hc : c ∈ (toString n).toList) : c.isAlphanum := by
  rw [Char.isAlphanum, isDigit_of_mem_toString hc, Bool.or_true]

theorem isNumber_toString (n : Nat) : isNumber (toString n) := by
  have hne : (toString n).toList.isEmpty = false := by simp [Nat.toDigits_ne_nil]
  have hdigits : (toString n).toList.all Char.isDigit := List.all_eq_true.2 fun c hc => isDigit_of_mem_toString hc
  rw [isNumber, hne, hdigits]
  rfl

theorem gap?_of_isAlphanum (hc : c.isAlphanum) : c ≠ '"' ∧ gap? c = none := by
  have hmark : c ∉ marks := by
    intro hmem
    simp only [marks, List.mem_cons, List.not_mem_nil, or_false] at hmem
    rcases hmem with rfl | rfl | rfl | rfl | rfl <;> exact absurd hc (by decide)
  refine ⟨?_, ?_⟩
  · rintro rfl
    exact absurd hc (by decide)
  · rw [gap?, isWhitespace_of_isAlphanum hc, if_neg (by decide), if_neg hmark]

end RelationalGraphQL.Sql
