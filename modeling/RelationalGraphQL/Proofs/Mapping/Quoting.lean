import RelationalGraphQL.Proofs.Mapping.Numbering

/-!
# Names stay in their quotes

Tables, columns and output names come from outside and may hold anything. They are written as quoted identifiers, so
whatever they hold, a compiled statement read with its quotes ends outside of them, and outside of them stand the
library's own words, its aliases, numbers and placeholders (`names_stay_quoted`).
-/

namespace RelationalGraphQL

namespace Sql

/-! ### Plain texts -/

/-- A text that does not end inside an identifier, and is plain outside identifiers. -/
def Plain (text : String) : Prop := ∃ found, lexemes text = some found ∧ ∀ lexeme ∈ found, lexeme.isPlain

theorem Plain.word {text : String} (hne : text ≠ "") (htext : ∀ c ∈ text.toList, c ≠ '"' ∧ gap? c = none)
    (hplain : (Lexeme.word text).isPlain) : Plain text :=
  ⟨[.word text], lexemes_word hne htext, List.forall_mem_singleton.2 hplain⟩

theorem Plain.separated {front back : String} {c : Char} {between : List Lexeme} (hfront : Plain front)
    (hgap : gap? c = some between) (hbetween : ∀ lexeme ∈ between, lexeme.isPlain) (hback : Plain back) :
    Plain (front ++ (String.ofList [c] ++ back)) := by
  obtain ⟨ahead, hahead, hplain⟩ := hfront
  obtain ⟨behind, hbehind, hplain'⟩ := hback
  refine ⟨ahead ++ between ++ behind, lexemes_separated hahead hgap hbehind, ?_⟩
  exact List.forall_mem_append.2 ⟨List.forall_mem_append.2 ⟨hplain, hbetween⟩, hplain'⟩

theorem plain_vocabulary {text : String} (hword : text ∈ vocabulary) : Plain text := by
  have hwords : ∀ text ∈ vocabulary, (lexemes text).any (·.all Lexeme.isPlain) := by decide +kernel
  obtain ⟨found, hfound, hplain⟩ := (Option.any_eq_true _ _).1 (hwords text hword)
  exact ⟨found, hfound, List.all_eq_true.1 hplain⟩

theorem IsPart.plain {text : String} (hpart : IsPart text) : Plain text := by
  rcases hpart with halias | rfl | ⟨name, rfl⟩
  · refine .word ?_ (fun c hc => gap?_of_isAlphanum (isAlphanum_of_isAlias halias c hc)) ?_
    · intro hempty
      rw [hempty] at halias
      cases halias
    · simp only [Lexeme.isPlain, halias, Bool.or_true, Bool.true_or]
  · exact plain_vocabulary (by decide)
  · exact ⟨[.identifier name], lexemes_quoteIdentifier name, List.forall_mem_singleton.2 rfl⟩

theorem plain_name {parts : List String} (hparts : ∀ part ∈ parts, IsPart part) : Plain (".".intercalate parts) := by
  induction parts with
  | nil => exact ⟨[], rfl, nofun⟩
  | cons part parts ih =>
    have hpart := (hparts part List.mem_cons_self).plain
    have hrest := ih fun other hother => hparts other (List.mem_cons_of_mem _ hother)
    cases parts with
    | nil =>
      rw [String.intercalate_singleton]
      exact hpart
    | cons next parts =>
      have hdot : gap? '.' = some [.mark '.'] := by decide
      have hplain := hpart.separated hdot (by decide) hrest
      rw [String.intercalate_cons_cons, String.append_assoc]
      exact hplain

theorem plain_number (n : Nat) : Plain (toString n) := by
  have hnumber := isNumber_toString n
  refine .word ?_ ?_ ?_
  · intro hempty
    rw [hempty] at hnumber
    cases hnumber
  · exact fun c hc => gap?_of_isAlphanum (isAlphanum_of_mem_toString hc)
  · simp only [Lexeme.isPlain, hnumber, Bool.or_true, Bool.true_or]

theorem plain_placeholder (position : Nat) : Plain (Dialect.postgres.placeholder position) := by
  have htext : (Dialect.postgres.placeholder position).toList = '$' :: (toString position).toList := by
    simp [Dialect.postgres]
  have hplaceholder : isPlaceholder (Dialect.postgres.placeholder position) := by
    rw [isPlaceholder, htext]
    show isNumber (String.ofList (toString position).toList)
    rw [String.ofList_toList]
    exact isNumber_toString position
  refine .word ?_ ?_ ?_
  · intro hempty
    rw [hempty] at hplaceholder
    cases hplaceholder
  · intro c hc
    rw [htext] at hc
    rcases List.mem_cons.1 hc with rfl | hc
    · decide
    · exact gap?_of_isAlphanum (isAlphanum_of_mem_toString hc)
  · simp only [Lexeme.isPlain, hplaceholder, Bool.or_true]

/-- A text that is put together from words, names, numbers and placeholders is plain. -/
theorem Places.plain {text : String} {positions : List Nat} (hplaces : Places text positions) : Plain text := by
  induction hplaces with
  | empty => exact ⟨[], rfl, nofun⟩
  | word hword => exact plain_vocabulary hword
  | name hparts => exact plain_name hparts
  | number n => exact plain_number n
  | placeholder position => exact plain_placeholder position
  | @separated _ _ _ _ c _ hseparator _ hfront hback =>
    have hgaps : separators.all fun c => (gap? c).any (·.all Lexeme.isPlain) := by decide
    obtain ⟨between, hbetween, hplain⟩ := (Option.any_eq_true _ _).1 (List.all_eq_true.1 hgaps c hseparator)
    exact hfront.separated hbetween (List.all_eq_true.1 hplain) hback

end Sql

namespace Mapping

/-! ### Compiled statements -/

/-- Names cannot leave their quotes. Whatever the names of a mapping and an input hold, a compiled statement does not
end inside a quoted identifier, and outside of them it has keywords, operators, aliases, numbers, placeholders and
marks only. -/
theorem names_stay_quoted (mapping : Mapping) (hdialect : mapping.dialect = .postgres) :
    (∀ parentType returnType field result, compileSelect mapping parentType returnType field = .ok result →
      Sql.Plain result.sql) ∧
    (∀ typeName input returning result, compileInsert mapping typeName input returning = .ok result →
      Sql.Plain result.sql) ∧
    (∀ typeName input conflict update returning result,
      compileUpsert mapping typeName input conflict update returning = .ok result → Sql.Plain result.sql) ∧
    (∀ typeName set filter returning result, compileUpdate mapping typeName set filter returning = .ok result →
      Sql.Plain result.sql) ∧
    (∀ typeName filter returning result, compileDelete mapping typeName filter returning = .ok result →
      Sql.Plain result.sql) := by
  refine ⟨?_, ?_, ?_, ?_, ?_⟩
  · intro parentType returnType field result hcompiled
    exact (compileSelect_places hdialect hcompiled).plain
  · intro typeName input returning result hcompiled
    exact (insertWith_places hdialect (by simp) hcompiled).plain
  · intro typeName input conflict update returning result hcompiled
    exact (compileUpsert_places hdialect hcompiled).plain
  · intro typeName set filter returning result hcompiled
    exact (compileUpdate_places hdialect hcompiled).plain
  · intro typeName filter returning result hcompiled
    exact (compileDelete_places hdialect hcompiled).plain

/-- A response key that would end its identifier and the statement, if its quote were not written twice. -/
theorem names_stay_quoted_userPosts :
    let hostile : SelectedField := ⟨"id", some "x\"; DROP TABLE \"users", [], [], none, {}, none⟩
    let users : SelectedField := ⟨"users", none, [], [], none, {}, some ⟨[hostile], false⟩⟩
    ∃ result, compileSelect userPosts "Query" (some (.named "User")) users = .ok result ∧
      (Sql.lexemes result.sql).any (·.contains (.identifier "x\"; DROP TABLE \"users")) ∧ Sql.Plain result.sql := by
  intro hostile users
  refine ⟨_, rfl, by decide +kernel, ?_⟩
  exact (names_stay_quoted userPosts rfl).1 "Query" (some (.named "User")) users _ rfl

end Mapping

end RelationalGraphQL
