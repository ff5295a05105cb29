import RelationalGraphQL.Sql.Dialect
import RelationalGraphQL.Sql.Operator
import Mathlib.Tactic.ByContra

/-!
# The tokens of a statement

A statement is read one character at a time. Blanks and marks end the run before them, and a quoted identifier belongs
to the word it stands in, whatever it holds. The main fact is `tokens_append`: around a separator, the tokens of a text
are those of its two sides, so the tokens of a written statement are put together from those of its pieces.
-/

namespace RelationalGraphQL.Sql

/-- The words that a condition is made of, beside names. -/
inductive Keyword where
  | and
  | or
  | not
  | is
  | null
  | true
  | any
  | all
  | like
  | iLike
  deriving DecidableEq, Repr

namespace Keyword

def text : Keyword → String
  | .and => "AND"
  | .or => "OR"
  | .not => "NOT"
  | .is => "IS"
  | .null => "NULL"
  | .true => "TRUE"
  | .any => "ANY"
  | .all => "ALL"
  | .like => "LIKE"
  | .iLike => "ILIKE"

def every : List Keyword := [.and, .or, .not, .is, .null, .true, .any, .all, .like, .iLike]

/-- Keywords count in any case. -/
def ofWord? (word : String) : Option Keyword := every.find? fun keyword => keyword.text = upperAscii word

end Keyword

inductive Token where
  | keyword (keyword : Keyword)
  /-- Any other word; names joined by dots, bare or quoted, are one. -/
  | name (text : String)
  | parameter (position : Nat)
  | operator (text : String)
  | mark (character : Char)
  deriving DecidableEq, Repr

inductive CharKind where
  | blank
  | mark
  | word
  | operator
  deriving DecidableEq, Repr

def CharKind.of (c : Char) : CharKind :=
  if c.isWhitespace then .blank
  else if c.isAlphanum || c = '_' || c = '.' || c = '$' || c = '"' || 128 ≤ c.toNat then .word
  else
    match c with
    | '+' | '-' | '*' | '/' | '<' | '>' | '=' | '~' | '!' | '@' | '#' | '%' | '^' | '&' | '|' | '?' => .operator
    | _ => .mark

/-- The position of a parameter, of a word that is a dollar sign and digits. -/
def parameterOf? : List Char → Option Nat
  | '$' :: digits =>
    if !digits.isEmpty && digits.all Char.isDigit then some (Nat.ofDigitChars 10 digits 0) else none
  | _ => none

def Token.ofWord (run : List Char) : Token :=
  match parameterOf? run, Keyword.ofWord? (String.ofList run) with
  | some position, _ => .parameter position
  | none, some word => .keyword word
  | none, none => .name (String.ofList run)

/-- The state of reading: the tokens so far, the run of characters under way with its kind, and whether it is inside a
quoted identifier. A doubled quote inside one closes it and opens it again, within the same run. -/
structure Lexer where
  done : List Token := []
  run : List Char := []
  kind : CharKind := .blank
  quoted : Bool := false

namespace Lexer

def pending (lexer : Lexer) : List Token :=
  match lexer.run, lexer.kind with
  | [], _ => []
  | run, .operator => [.operator (String.ofList run)]
  | run, _ => [Token.ofWord run]

def flush (lexer : Lexer) : Lexer := { done := lexer.done ++ lexer.pending }

/-- Continues the run under way, or starts another if its characters are of another kind. -/
def extend (kind : CharKind) (c : Char) (lexer : Lexer) : Lexer :=
  let lexer := if lexer.kind = kind then lexer else lexer.flush
  { lexer with run := lexer.run ++ [c], kind, quoted := c = '"' }

def step (lexer : Lexer) (c : Char) : Lexer :=
  if lexer.quoted then { lexer with run := lexer.run ++ [c], quoted := c ≠ '"' }
  else
    match CharKind.of c with
    | .blank => lexer.flush
    | .mark => { done := lexer.done ++ lexer.pending ++ [.mark c] }
    | kind => lexer.extend kind c

end Lexer

/-- The tokens of a text; none if it ends inside a quoted identifier. -/
def tokens (text : List Char) : Option (List Token) :=
  let lexer := text.foldl Lexer.step {}
  if lexer.quoted then none else some (lexer.done ++ lexer.pending)

/-! ### Separators -/

/-- The tokens that a separator leaves, none if it is no separator. -/
def separator? (c : Char) : Option (List Token) :=
  match CharKind.of c with
  | .blank => some []
  | .mark => some [.mark c]
  | _ => none

theorem separator_blank : separator? ' ' = some [] := by decide

theorem separator_line : separator? '\n' = some [] := by decide

namespace Lexer

/-- What was read before stands in front and changes nothing. -/
def behind (front : List Token) (lexer : Lexer) : Lexer := { lexer with done := front ++ lexer.done }

theorem step_behind (front : List Token) (lexer : Lexer) (c : Char) :
    (lexer.behind front).step c = (lexer.step c).behind front := by
  by_cases hquoted : lexer.quoted
  · simp [step, behind, hquoted]
  · have hpending : (lexer.behind front).pending = lexer.pending := rfl
    cases hkind : CharKind.of c <;> simp only [step, behind, hquoted, hkind, flush, extend, pending, List.append_assoc,
      if_false, Bool.false_eq_true]
    all_goals split <;> simp

theorem foldl_step_behind (front : List Token) (text : List Char) (lexer : Lexer) :
    text.foldl step (lexer.behind front) = (text.foldl step lexer).behind front := by
  induction text generalizing lexer with
  | nil => rfl
  | cons c text ih => rw [List.foldl_cons, List.foldl_cons, step_behind, ih]

theorem step_separator {lexer : Lexer} {c : Char} {between : List Token} (hquoted : lexer.quoted = false)
    (hseparator : separator? c = some between) :
    lexer.step c = Lexer.behind (lexer.done ++ lexer.pending ++ between) {} := by
  unfold separator? at hseparator
  cases hkind : CharKind.of c <;> rw [hkind] at hseparator <;> simp_all [step, flush, behind]

end Lexer

theorem tokens_eq_some_iff {text : List Char} {found : List Token} :
    tokens text = some found ↔ (text.foldl Lexer.step {}).quoted = false ∧
      (text.foldl Lexer.step {}).done ++ (text.foldl Lexer.step {}).pending = found := by
  unfold tokens
  cases hquoted : (text.foldl Lexer.step {}).quoted <;> simp [hquoted]

@[simp] theorem tokens_nil : tokens [] = some [] := rfl

theorem tokens_append {front back : List Char} {c : Char} {ahead between behind : List Token}
    (hfront : tokens front = some ahead) (hseparator : separator? c = some between)
    (hback : tokens back = some behind) : tokens (front ++ c :: back) = some (ahead ++ between ++ behind) := by
  rw [tokens_eq_some_iff] at hfront hback ⊢
  have hscan : (front ++ c :: back).foldl Lexer.step {} =
      Lexer.behind (ahead ++ between) (back.foldl Lexer.step {}) := by
    rw [List.foldl_append, List.foldl_cons, Lexer.step_separator hfront.1 hseparator, hfront.2,
      Lexer.foldl_step_behind]
  rw [hscan]
  refine ⟨hback.1, ?_⟩
  change ahead ++ between ++ _ ++ (back.foldl Lexer.step {}).pending = _
  rw [List.append_assoc, hback.2]

/-! ### Words -/

/-- Whether a text, read outside or inside a quoted identifier, continues the word before it up to the end of both. -/
def continuesWord : Bool → List Char → Bool
  | quoted, [] => !quoted
  | true, c :: text => continuesWord (c ≠ '"') text
  | false, c :: text => CharKind.of c = .word && continuesWord (c = '"') text

theorem continuesWord_append {quoted : Bool} {front back : List Char} (hfront : continuesWord quoted front)
    (hback : continuesWord false back) : continuesWord quoted (front ++ back) := by
  induction front generalizing quoted with
  | nil =>
    cases quoted
    · exact hback
    · simp [continuesWord] at hfront
  | cons c front ih =>
    cases quoted
    · simp only [continuesWord, Bool.and_eq_true, List.cons_append] at hfront ⊢
      exact ⟨hfront.1, ih hfront.2⟩
    · exact ih hfront

theorem Lexer.foldl_step_word {text : List Char} {lexer : Lexer} (hkind : lexer.kind = .word)
    (htext : continuesWord lexer.quoted text) :
    text.foldl step lexer = { lexer with run := lexer.run ++ text, quoted := false } := by
  induction text generalizing lexer with
  | nil =>
    cases hquoted : lexer.quoted
    · cases lexer
      simp_all
    · simp [continuesWord, hquoted] at htext
  | cons c text ih =>
    obtain ⟨done, run, kind, quoted⟩ := lexer
    subst hkind
    cases quoted
    · simp only [continuesWord, Bool.and_eq_true, decide_eq_true_eq] at htext
      have hstep : step ⟨done, run, .word, false⟩ c = ⟨done, run ++ [c], .word, c = '"'⟩ := by
        simp [step, htext.1, extend]
      rw [List.foldl_cons, hstep, ih rfl htext.2]
      simp
    · have hstep : step ⟨done, run, .word, true⟩ c = ⟨done, run ++ [c], .word, c ≠ '"'⟩ := by simp [step]
      rw [List.foldl_cons, hstep, ih rfl htext]
      simp

theorem tokens_word {text : List Char} (hne : text ≠ []) (htext : continuesWord false text) :
    tokens text = some [Token.ofWord text] := by
  obtain ⟨c, rest, rfl⟩ := List.exists_cons_of_ne_nil hne
  simp only [continuesWord, Bool.and_eq_true, decide_eq_true_eq] at htext
  have hstart : Lexer.step {} c = { run := [c], kind := .word, quoted := c = '"' } := by
    simp [Lexer.step, htext.1, Lexer.extend, Lexer.flush, Lexer.pending]
  rw [tokens_eq_some_iff, List.foldl_cons, hstart, Lexer.foldl_step_word rfl htext.2]
  simp [Lexer.pending]

@[simp] theorem charKind_quote : CharKind.of '"' = .word := by decide

theorem continuesWord_doubled (name : List Char) : continuesWord true (doubled '"' name ++ ['"']) := by
  induction name with
  | nil => simp [doubled, continuesWord]
  | cons c name ih =>
    by_cases hquote : c = '"'
    · subst hquote
      simpa [doubled, continuesWord] using ih
    · simpa [doubled, hquote, continuesWord] using ih

theorem continuesWord_quoteIdentifier (name : String) : continuesWord false (quoteIdentifier name).toList := by
  simpa [quoteIdentifier, quoted, continuesWord] using continuesWord_doubled name.toList

/-! ### Parameters -/

theorem ofWord_placeholder (position : Nat) :
    Token.ofWord ('$' :: Nat.toDigits 10 position) = .parameter position := by
  have hdigits : (Nat.toDigits 10 position).all Char.isDigit :=
    List.all_eq_true.2 fun c hc => Nat.isDigit_of_mem_toDigits (by decide) (by decide) hc
  have hparameter : parameterOf? ('$' :: Nat.toDigits 10 position) = some position := by
    simp [parameterOf?, hdigits, Nat.toDigits_ne_nil, Nat.ofDigitChars_ten_toDigits]
  simp [Token.ofWord, hparameter]

theorem isWhitespace_of_isAlphanum {c : Char} (hc : c.isAlphanum) : c.isWhitespace = false := by
  by_contra hblank
  simp only [Char.isWhitespace, Bool.not_eq_false, Bool.or_eq_true, decide_eq_true_eq] at hblank
  rcases hblank with ((rfl | rfl) | rfl) | rfl <;> exact absurd hc (by decide)

theorem charKind_of_isAlphanum {c : Char} (hc : c.isAlphanum) : CharKind.of c = .word := by
  unfold CharKind.of
  simp only [isWhitespace_of_isAlphanum hc, hc, Bool.true_or, Bool.false_eq_true, if_false, if_true]

theorem continuesWord_of_isAlphanum {text : List Char} (htext : ∀ c ∈ text, c.isAlphanum) :
    continuesWord false text := by
  induction text with
  | nil => rfl
  | cons c text ih =>
    have hc := htext c (by simp)
    have hquote : c ≠ '"' := by
      rintro rfl
      exact absurd hc (by decide)
    simp only [continuesWord, charKind_of_isAlphanum hc, hquote]
    simpa using ih fun d hd => htext d (by simp [hd])

theorem tokens_placeholder (position : Nat) :
    tokens (Dialect.postgres.placeholder position).toList = some [.parameter position] := by
  have htext : (Dialect.postgres.placeholder position).toList = '$' :: Nat.toDigits 10 position := by
    simp [Dialect.postgres]
  have hdigits : continuesWord false (Nat.toDigits 10 position) := by
    refine continuesWord_of_isAlphanum fun c hc => ?_
    simp [Char.isAlphanum, Nat.isDigit_of_mem_toDigits (by decide) (by decide) hc]
  have hdollar : CharKind.of '$' = .word := by decide
  rw [htext, tokens_word (by simp) (by simpa [continuesWord, hdollar] using hdigits), ofWord_placeholder]

/-! ### Keywords -/

theorem tokens_keyword (word : Keyword) : tokens word.text.toList = some [.keyword word] := by
  cases word <;> decide

end RelationalGraphQL.Sql
