import RelationalGraphQL.Proofs.Sql.TableName

/-!
# Quoted texts read back

A mark opens a quoted text and the next one closes it, where a mark written twice inside is one that belongs to the
text. Whatever was quoted is read back so, and what stands behind it is left, as long as that does not start with
another mark, which would be taken for the second half of a doubled one. Identifiers joined by dots are read one after
another, and give back the parts of a name that was quoted part by part. Hence no two texts are quoted alike
(`quoting_undone_by_lexing`).
-/

namespace RelationalGraphQL.Sql

variable {mark : Char} {text name rest : List Char}

/-! ### One quoted text -/

/-- Reads on inside a quoted text: its characters up to the mark that closes it, and what stands behind. -/
def lexBody (mark : Char) : List Char → Option (List Char × List Char)
  | [] => none
  | c :: rest =>
    if c = mark then
      match rest with
      | [] => some ([], [])
      | next :: rest =>
        if next = mark then (lexBody mark rest).map (Prod.map (mark :: ·) id) else some ([], next :: rest)
    else (lexBody mark rest).map (Prod.map (c :: ·) id)

/-- Reads a quoted text from its opening mark on. -/
def lexQuoted (mark : Char) : List Char → Option (List Char × List Char)
  | [] => none
  | c :: rest => if c = mark then lexBody mark rest else none

theorem lexBody_of_ne {c : Char} (hc : c ≠ mark) (text : List Char) :
    lexBody mark (c :: text) = (lexBody mark text).map (Prod.map (c :: ·) id) := by
  cases text with
  | nil => exact if_neg hc
  | cons next text => rw [lexBody, if_neg hc]

theorem lexBody_doubled_mark (text : List Char) :
    lexBody mark (mark :: mark :: text) = (lexBody mark text).map (Prod.map (mark :: ·) id) := by
  rw [lexBody, if_pos rfl, if_pos rfl]

theorem lexBody_mark (hrest : rest.head? ≠ some mark) : lexBody mark (mark :: rest) = some ([], rest) := by
  cases rest with
  | nil => rw [lexBody, if_pos rfl]
  | cons next rest =>
    have hnext : next ≠ mark := by simpa using hrest
    rw [lexBody, if_pos rfl, if_neg hnext]

theorem lexBody_doubled (hrest : rest.head? ≠ some mark) :
    lexBody mark (doubled mark name ++ mark :: rest) = some (name, rest) := by
  induction name with
  | nil => exact lexBody_mark hrest
  | cons c name ih =>
    rw [doubled]
    by_cases hc : c = mark
    · rw [if_pos hc, List.cons_append, List.cons_append, lexBody_doubled_mark, ih, hc]
      rfl
    · rw [if_neg hc, List.cons_append, lexBody_of_ne hc, ih]
      rfl

theorem eq_doubled_of_lexBody (hlex : lexBody mark text = some (name, rest)) :
    text = doubled mark name ++ mark :: rest ∧ rest.head? ≠ some mark := by
  fun_induction lexBody mark text generalizing name with
  | case1 => cases hlex
  | case2 =>
    cases hlex
    exact ⟨rfl, by simp⟩
  | case3 text ih =>
    obtain ⟨⟨inner, _⟩, hinner, heq⟩ := Option.map_eq_some_iff.1 hlex
    cases heq
    obtain ⟨htext, hrest⟩ := ih hinner
    rw [doubled, if_pos rfl, htext]
    exact ⟨rfl, hrest⟩
  | case4 next text hnext =>
    cases hlex
    exact ⟨rfl, by simpa using hnext⟩
  | case5 c text hc ih =>
    obtain ⟨⟨inner, _⟩, hinner, heq⟩ := Option.map_eq_some_iff.1 hlex
    cases heq
    obtain ⟨htext, hrest⟩ := ih hinner
    rw [doubled, if_neg hc, htext]
    exact ⟨rfl, hrest⟩

/-- A text is read exactly if it was quoted, and then the quotation does not go on behind it. -/
theorem lexQuoted_eq_some_iff : lexQuoted mark text = some (name, rest) ↔
    text = mark :: (doubled mark name ++ mark :: rest) ∧ rest.head? ≠ some mark := by
  constructor
  · intro hlex
    cases text with
    | nil => cases hlex
    | cons c text =>
      rw [lexQuoted] at hlex
      split at hlex
      · rename_i hc
        obtain ⟨htext, hrest⟩ := eq_doubled_of_lexBody hlex
        rw [hc, htext]
        exact ⟨rfl, hrest⟩
      · cases hlex
  · rintro ⟨rfl, hrest⟩
    rw [lexQuoted, if_pos rfl, lexBody_doubled hrest]

theorem lexQuoted_quoted (name : String) (hrest : rest.head? ≠ some mark) :
    lexQuoted mark ((quoted mark name).toList ++ rest) = some (name.toList, rest) := by
  refine lexQuoted_eq_some_iff.2 ⟨?_, hrest⟩
  rw [toList_quoted, List.cons_append, List.append_assoc, List.singleton_append]

theorem quoted_injective (mark : Char) : Function.Injective (quoted mark) := by
  intro first second heq
  have hend : [].head? ≠ some mark := Option.some_ne_none mark |>.symm
  have hfirst := lexQuoted_quoted first hend
  rw [heq, lexQuoted_quoted second hend, Option.some.injEq, Prod.mk.injEq] at hfirst
  exact String.toList_inj.1 hfirst.1.symm

/-! ### Names joined by dots -/

theorem length_lt_of_lexQuoted (hlex : lexQuoted mark text = some (name, rest)) : rest.length < text.length := by
  rw [(lexQuoted_eq_some_iff.1 hlex).1]
  simp only [List.length_cons, List.length_append]
  omega

/-- Reads quoted identifiers for as long as a dot follows. -/
def lexDotted (text : List Char) : Option (List (List Char) × List Char) :=
  match hlex : lexQuoted '"' text with
  | none => none
  | some (name, rest) =>
    have := length_lt_of_lexQuoted hlex
    if rest.head? = some '.' then (lexDotted rest.tail).map (Prod.map (name :: ·) id) else some ([name], rest)
termination_by text.length
decreasing_by
  rw [List.length_tail]
  omega

theorem lexDotted_of_lexQuoted (hlex : lexQuoted '"' text = some (name, rest)) :
    lexDotted text =
      if rest.head? = some '.' then (lexDotted rest.tail).map (Prod.map (name :: ·) id) else some ([name], rest) := by
  rw [lexDotted]
  split
  · rename_i hnone
    cases hnone.symm.trans hlex
  · rename_i hsome
    cases hsome.symm.trans hlex
    rfl

theorem lexDotted_identifiers {names : List String} (hne : names ≠ []) (hquote : rest.head? ≠ some '"')
    (hdot : rest.head? ≠ some '.') :
    lexDotted ((".".intercalate (names.map quoteIdentifier)).toList ++ rest) = some (names.map String.toList, rest) := by
  induction names with
  | nil => exact absurd rfl hne
  | cons name names ih =>
    cases names with
    | nil =>
      rw [List.map_singleton, String.intercalate_singleton]
      exact (lexDotted_of_lexQuoted (lexQuoted_quoted name hquote)).trans (if_neg hdot)
    | cons next names =>
      let others := (".".intercalate ((next :: names).map quoteIdentifier)).toList ++ rest
      have htext : (".".intercalate ((name :: next :: names).map quoteIdentifier)).toList ++ rest =
          (quoteIdentifier name).toList ++ '.' :: others := by
        simp [others, String.intercalate_cons_cons]
      -- a dot is no quote, so it ends the first identifier
      have hfirst : lexQuoted '"' ((quoteIdentifier name).toList ++ '.' :: others) = some (name.toList, '.' :: others) :=
        lexQuoted_quoted name (by simp)
      rw [htext, lexDotted_of_lexQuoted hfirst, if_pos List.head?_cons, List.tail_cons,
        ih (List.cons_ne_nil next names)]
      rfl

/-! ### Texts -/

/-- Reads one quoted text at the start of a text. -/
def unquote? (mark : Char) (text : String) : Option (String × String) :=
  (lexQuoted mark text.toList).map (Prod.map String.ofList String.ofList)

def identifier? (text : String) : Option (String × String) := unquote? '"' text

def string? (text : String) : Option (String × String) := unquote? '\'' text

/-- Reads a name whose parts are quoted and joined by dots. -/
def qualified? (text : String) : Option (List String × String) :=
  (lexDotted text.toList).map (Prod.map (·.map String.ofList) String.ofList)

theorem unquote?_quoted (text : String) {rest : String} (hrest : rest.toList.head? ≠ some mark) :
    unquote? mark (quoted mark text ++ rest) = some (text, rest) := by
  rw [unquote?, String.toList_append, lexQuoted_quoted text hrest]
  simp only [Option.map_some, Prod.map_apply, String.ofList_toList]

theorem qualified?_quoteQualified (name : String) {rest : String} (hquote : rest.toList.head? ≠ some '"')
    (hdot : rest.toList.head? ≠ some '.') :
    qualified? (quoteQualified name ++ rest) = some ((name.toList.splitOn '.').map String.ofList, rest) := by
  have hne : Text.pieces '.' name ≠ [] := by
    rw [Text.pieces, ne_eq, List.map_eq_nil_iff]
    exact List.splitOn_ne_nil '.' name.toList
  rw [qualified?, String.toList_append, quoteQualified, lexDotted_identifiers hne hquote hdot, ← Text.pieces]
  simp

theorem quoteQualified_injective : Function.Injective quoteQualified := by
  intro first second heq
  have hend : "".toList.head? ≠ some '"' ∧ "".toList.head? ≠ some '.' := by decide
  have hfirst := qualified?_quoteQualified first hend.1 hend.2
  rw [heq, qualified?_quoteQualified second hend.1 hend.2, Option.some.injEq, Prod.mk.injEq] at hfirst
  -- the parts, joined by dots again, are the name
  have hparts : second.toList.splitOn '.' = first.toList.splitOn '.' :=
    (List.map_inj_right fun _ _ => String.ofList_injective).1 hfirst.1
  have hjoined := congrArg ['.'].intercalate hparts
  rw [List.intercalate_splitOn, List.intercalate_splitOn] at hjoined
  exact String.toList_inj.1 hjoined.symm

/-- Quoting is undone by reading. An identifier or a string that was quoted is read back, whatever it holds, and so are
the parts between the dots of a name that was quoted part by part; what stands behind is left. Hence no two texts are
quoted alike. -/
theorem quoting_undone_by_lexing :
    (∀ name rest : String, rest.toList.head? ≠ some '"' →
      identifier? (quoteIdentifier name ++ rest) = some (name, rest)) ∧
    (∀ text rest : String, rest.toList.head? ≠ some '\'' → string? (quoteString text ++ rest) = some (text, rest)) ∧
    (∀ name rest : String, rest.toList.head? ≠ some '"' → rest.toList.head? ≠ some '.' →
      qualified? (quoteQualified name ++ rest) = some ((name.toList.splitOn '.').map String.ofList, rest)) ∧
    Function.Injective quoteIdentifier ∧ Function.Injective quoteString ∧ Function.Injective quoteQualified := by
  refine ⟨?_, ?_, ?_, quoted_injective '"', quoted_injective '\'', quoteQualified_injective⟩
  · exact fun name rest hrest => unquote?_quoted name hrest
  · exact fun text rest hrest => unquote?_quoted text hrest
  · exact fun name rest hquote hdot => qualified?_quoteQualified name hquote hdot

/-- Quotes at the ends of texts and next to dots, and empty parts. -/
theorem quoting_undone_by_lexing_edges :
    identifier? (quoteIdentifier "\"we\"\"ird\"" ++ " AS x") = some ("\"we\"\"ird\"", " AS x") ∧
    string? (quoteString "O'Brien''" ++ ")") = some ("O'Brien''", ")") ∧
    qualified? (quoteQualified "a\"..\"b" ++ " t") = some (["a\"", "", "\"b"], " t") := by
  obtain ⟨hidentifier, hstring, hqualified, -⟩ := quoting_undone_by_lexing
  exact ⟨hidentifier _ _ (by decide), hstring _ _ (by decide), hqualified _ _ (by decide) (by decide)⟩

end RelationalGraphQL.Sql
