import RelationalGraphQL.Document.Reader
import Mathlib.Data.List.TakeWhile
import Mathlib.Data.Option.Basic
import Mathlib.Tactic.IntervalCases
import Mathlib.Tactic.SplitIfs
import Mathlib.Tactic.Tauto

/-!
# Scanning a text piece by piece

Every step of the scanner takes at least one character (`scanStep_shorter`), so the bound on its steps is never what
ends a scan, and the tokens of a text are those of its pieces in order. `Lexes` says which lexemes a piece stands for,
whatever follows it, as long as what follows cannot be taken for a part of its last token.
-/

namespace RelationalGraphQL.Document

variable {c symbol : Char} {text : List Char} {lexemes lexemes' : List Lexeme} {count : Nat} {value : Int}
  {test : Char → Bool}

/-! ### Steps -/

theorem readLineText_shorter {chars value rest : List Char} (hread : readLineText chars = some (value, count, rest)) :
    rest.length < chars.length := by
  fun_induction readLineText chars generalizing value count rest with
  | case1 => cases hread
  | case2 => cases hread; exact Nat.lt_succ_self _
  | case3 => cases hread
  | case4 a b c d chars ih =>
    obtain ⟨_, -, hread⟩ := Option.bind_eq_some_iff.1 hread
    obtain ⟨⟨value', count', rest'⟩, hrest, hread⟩ := Option.bind_eq_some_iff.1 hread
    cases hread
    have hshorter := ih hrest
    simp only [List.length_cons]
    omega
  | case5 c chars _ ih =>
    obtain ⟨_, -, hread⟩ := Option.bind_eq_some_iff.1 hread
    obtain ⟨⟨value', count', rest'⟩, hrest, hread⟩ := Option.bind_eq_some_iff.1 hread
    cases hread
    exact Nat.lt_succ_of_lt (Nat.lt_succ_of_lt (ih hrest))
  | case6 => cases hread
  | case7 c chars _ _ _ _ _ ih =>
    obtain ⟨⟨value', count', rest'⟩, hrest, hread⟩ := Option.bind_eq_some_iff.1 hread
    cases hread
    exact Nat.lt_succ_of_lt (ih hrest)

theorem readBlock_shorter {escaped : Bool} {chars raw rest : List Char}
    (hread : readBlock escaped chars = some (raw, rest)) : rest.length < chars.length := by
  fun_induction readBlock escaped chars generalizing raw rest with
  | case1 chars ih =>
    obtain ⟨⟨raw', rest'⟩, hrest, hread⟩ := Option.map_eq_some_iff.1 hread
    cases hread
    have hshorter := ih hrest
    simp only [List.length_cons]
    omega
  | case2 =>
    cases hread
    simp only [List.length_cons]
    omega
  | case3 escaped c chars _ ih =>
    obtain ⟨⟨raw', rest'⟩, hrest, hread⟩ := Option.map_eq_some_iff.1 hread
    cases hread
    exact Nat.lt_succ_of_lt (ih hrest)
  | case4 => cases hread

theorem scanStep_shorter {position position' : Position} {chars rest : List Char} {token : Option Token}
    (hstep : scanStep position chars = some (token, position', rest)) : rest.length < chars.length := by
  unfold scanStep at hstep
  split at hstep
  · cases hstep
  · rename_i c following
    have hdropped (test : Char → Bool) : (following.dropWhile test).length < (c :: following).length :=
      Nat.lt_succ_of_le (List.dropWhile_suffix test).length_le
    dsimp only at hstep
    split_ifs at hstep with hspace htab hline hreturn hcomment hpunctuator hname hnumber
    · cases hstep
      exact Nat.lt_succ_self _
    · cases hstep
      exact Nat.lt_succ_self _
    · cases hstep
      exact Nat.lt_succ_self _
    · cases hstep
      exact Nat.lt_succ_self _
    · have hafter := hdropped fun c => c ≠ '\r' && c ≠ '\n'
      split at hstep
      · cases hstep
        exact Nat.succ_pos _
      · rename_i after hline
        cases hstep
        rw [hline] at hafter
        exact Nat.lt_of_succ_lt hafter
    · cases hstep
      exact Nat.lt_succ_self _
    · cases hstep
      exact hdropped isNameChar
    · obtain ⟨lexeme, -, hstep⟩ := Option.map_eq_some_iff.1 hstep
      cases hstep
      exact hdropped fun c => !endsNumber c
    · split at hstep
      · cases hstep
        simp only [List.length_cons]
        omega
      · obtain ⟨⟨raw, after⟩, hread, hstep⟩ := Option.map_eq_some_iff.1 hstep
        cases hstep
        have hshorter := readBlock_shorter hread
        simp only [List.length_cons]
        omega
      · obtain ⟨⟨value, count, after⟩, hread, hstep⟩ := Option.map_eq_some_iff.1 hstep
        cases hstep
        exact Nat.lt_succ_of_lt (readLineText_shorter hread)
      · cases hstep

/-- From a place in a text, steps find these tokens and lead to a later place. -/
inductive Scans : Position → List Char → List Token → Position → List Char → Prop where
  | done {position chars} : Scans position chars [] position chars
  | step {position position' final chars chars' rest token found} :
      scanStep position chars = some (token, position', chars') → Scans position' chars' found final rest →
      Scans position chars (token.toList ++ found) final rest

theorem Scans.trans {position middle final : Position} {chars chars' rest : List Char} {front back : List Token}
    (hfront : Scans position chars front middle chars') (hback : Scans middle chars' back final rest) :
    Scans position chars (front ++ back) final rest := by
  induction hfront with
  | done => exact hback
  | step hstep _ ih =>
    rw [List.append_assoc]
    exact .step hstep (ih hback)

/-- The number of characters bounds the steps, as each takes one. -/
theorem Scans.scan_eq {position final : Position} {chars : List Char} {found : List Token}
    (hscans : Scans position chars found final []) {fuel : Nat} (hfuel : chars.length ≤ fuel) :
    scan fuel position chars = some found := by
  generalize hend : ([] : List Char) = rest at hscans
  induction hscans generalizing fuel with
  | done =>
    subst hend
    cases fuel <;> rfl
  | @step position position' final chars chars' rest token found hstep _ ih =>
    have hshorter := scanStep_shorter hstep
    cases fuel with
    | zero => omega
    | succ fuel =>
      cases chars with
      | nil => cases hstep
      | cons c chars =>
        have hrest : scan fuel position' chars' = some found := ih (by omega) hend
        rw [scan, hstep]
        · simp only [hrest, Option.map_some]
        · simp

theorem tokens_eq_of_scans {text : String} {final : Position} {found : List Token}
    (hscans : Scans {} text.toList found final []) : tokens text = some found :=
  hscans.scan_eq (Nat.le_refl _)

/-! ### Pieces of a text -/

/-- A text that starts with nothing that could belong to a token before it. -/
def Parted (rest : List Char) : Prop := ∀ c ∈ rest.head?, endsNumber c

theorem parted_nil : Parted [] := by
  intro c hc
  cases hc

theorem parted_cons (hc : endsNumber c) (rest : List Char) : Parted (c :: rest) := by
  intro d hd
  cases hd
  exact hc

/-- Steps through the text find these lexemes, whatever follows it. -/
def Lexes (text : List Char) (lexemes : List Lexeme) : Prop :=
  ∀ position rest, Parted rest →
    ∃ found final, found.map Token.lexeme = lexemes ∧ Scans position (text ++ rest) found final rest

theorem lexes_nil : Lexes [] [] := by
  intro position rest _
  exact ⟨[], position, rfl, .done⟩

theorem lexes_of_step (hstep : ∀ position rest, Parted rest → ∃ token final, token.toList.map Token.lexeme = lexemes ∧
      scanStep position (text ++ rest) = some (token, final, rest)) : Lexes text lexemes := by
  intro position rest hrest
  obtain ⟨token, final, hlexemes, hstep⟩ := hstep position rest hrest
  refine ⟨token.toList ++ [], final, ?_, .step hstep .done⟩
  rw [List.append_nil, hlexemes]

theorem Lexes.append {front back : List Char} (hfront : Lexes front lexemes) (hback : Lexes back lexemes')
    (hparted : ∀ rest, Parted rest → Parted (back ++ rest)) : Lexes (front ++ back) (lexemes ++ lexemes') := by
  intro position rest hrest
  obtain ⟨found, middle, hfound, hscans⟩ := hfront position (back ++ rest) (hparted rest hrest)
  obtain ⟨found', final, hfound', hscans'⟩ := hback middle rest hrest
  refine ⟨found ++ found', final, ?_, ?_⟩
  · rw [List.map_append, hfound, hfound']
  · rw [List.append_assoc]
    exact hscans.trans hscans'

theorem Lexes.cons (hstep : ∀ position rest, ∃ token final, token.toList.map Token.lexeme = lexemes ∧
      scanStep position (c :: rest) = some (token, final, rest)) (htext : Lexes text lexemes') :
    Lexes (c :: text) (lexemes ++ lexemes') := by
  intro position rest hrest
  obtain ⟨token, middle, hlexemes, hstep⟩ := hstep position (text ++ rest)
  obtain ⟨found, final, hfound, hscans⟩ := htext middle rest hrest
  refine ⟨token.toList ++ found, final, ?_, .step hstep hscans⟩
  rw [List.map_append, hlexemes, hfound]

/-- Blanks and commas stand for nothing. -/
theorem lexes_skip (hc : c = ' ' ∨ c = ',') (htext : Lexes text lexemes) : Lexes (c :: text) lexemes := by
  have hstep (position : Position) (rest : List Char) :
      scanStep position (c :: rest) = some (none, position.advance 1, rest) := by
    rcases hc with rfl | rfl <;> rfl
  exact htext.cons fun position rest => ⟨none, _, rfl, hstep position rest⟩

theorem scanStep_punctuator (hsymbol : isPunctuator symbol) (position : Position) (rest : List Char) :
    scanStep position (symbol :: rest) = some (some ⟨.punctuator symbol, position⟩, position.advance 1, rest) := by
  simp only [isPunctuator, List.mem_cons, List.not_mem_nil, or_false, decide_eq_true_eq] at hsymbol
  rcases hsymbol with rfl | rfl | rfl | rfl | rfl | rfl | rfl | rfl | rfl | rfl | rfl | rfl | rfl <;> rfl

theorem lexes_punctuator (hsymbol : isPunctuator symbol) (htext : Lexes text lexemes) :
    Lexes (symbol :: text) (punctuator symbol :: lexemes) := by
  have hstep (position : Position) (rest : List Char) : ∃ token final,
      token.toList.map Token.lexeme = [punctuator symbol] ∧
        scanStep position (symbol :: rest) = some (token, final, rest) :=
    ⟨_, _, rfl, scanStep_punctuator hsymbol position rest⟩
  exact htext.cons hstep

theorem lexes_intercalate {β : Type} {parts : List β} {write : β → String} {lexemesOf : β → List Lexeme}
    (hparts : ∀ part ∈ parts, Lexes (write part).toList (lexemesOf part)) :
    Lexes (", ".intercalate (parts.map write)).toList (parts.flatMap lexemesOf) := by
  induction parts with
  | nil => exact lexes_nil
  | cons part parts ih =>
    have hpart := hparts part List.mem_cons_self
    have hothers := ih fun part' hpart' => hparts part' (List.mem_cons_of_mem part hpart')
    cases parts with
    | nil =>
      rw [List.map_singleton, String.intercalate_singleton, List.flatMap_singleton]
      exact hpart
    | cons next parts =>
      rw [List.map_cons, List.map_cons, String.intercalate_cons_cons, String.append_assoc, String.toList_append,
        String.toList_append, ← List.map_cons, List.flatMap_cons]
      exact hpart.append (lexes_skip (.inr rfl) (lexes_skip (.inl rfl) hothers)) fun rest _ => parted_cons (by decide) _

theorem lexes_enclosed {opening closing : Char} (hopening : isPunctuator opening) (hclosing : isPunctuator closing)
    (htext : Lexes text lexemes) :
    Lexes (opening :: (text ++ [closing])) (punctuator opening :: (lexemes ++ [punctuator closing])) := by
  have hends : endsNumber closing := by
    rw [endsNumber, hclosing, Bool.or_true]
  exact lexes_punctuator hopening
    (htext.append (lexes_punctuator hclosing lexes_nil) fun rest _ => parted_cons hends rest)

/-! ### Names -/

def separators : List Char :=
  [' ', ',', '\t', '\n', '\r', Char.ofNat 0xFEFF, '#', '(', ')', '[', ']', '\x7b', '\x7d', '!', '$', ':', '=', '@', '|',
    '&']

/-- No other character is skipped or taken alone. -/
theorem not_separating (hc : c ∉ separators) :
    ¬(c = ' ' || c = ',') ∧ c ≠ '\t' ∧ c ≠ '\n' ∧ ¬(c = '\r' || c.toNat = 0xFEFF) ∧ c ≠ '#' ∧ ¬isPunctuator c := by
  have hmark : c.toNat ≠ 0xFEFF := by
    intro hmark
    apply hc
    rw [← Char.ofNat_toNat c, hmark]
    decide
  simp only [separators, List.mem_cons, not_or] at hc
  simp only [isPunctuator, List.mem_cons, decide_eq_true_eq, Bool.or_eq_true, not_or]
  tauto

theorem notMem_separators (htest : separators.all fun c => !test c) (hc : test c) : c ∉ separators := by
  intro hmem
  have hfails := List.all_eq_true.1 htest c hmem
  rw [hc] at hfails
  cases hfails

theorem scanStep_name (hstart : isNameStart c) (position : Position) (rest : List Char) :
    scanStep position (c :: rest) =
      some (some ⟨.name (String.ofList (c :: rest.takeWhile isNameChar)), position⟩,
        position.advance (c :: rest.takeWhile isNameChar).length, rest.dropWhile isNameChar) := by
  obtain ⟨hblank, htab, hline, hreturn, hcomment, hpunctuator⟩ :=
    not_separating (notMem_separators (by decide) hstart)
  unfold scanStep
  dsimp only
  rw [if_neg hblank, if_neg htab, if_neg hline, if_neg hreturn, if_neg hcomment, if_neg hpunctuator, if_pos hstart]

theorem isNameChar_of_endsNumber (hc : endsNumber c) : isNameChar c = false := by
  simp only [endsNumber, isPunctuator, List.mem_cons, List.not_mem_nil, or_false, decide_eq_true_eq,
    Bool.or_eq_true] at hc
  rcases hc with (rfl | rfl | rfl | rfl | rfl | rfl) |
    (rfl | rfl | rfl | rfl | rfl | rfl | rfl | rfl | rfl | rfl | rfl | rfl | rfl) <;> rfl

theorem takeWhile_run {run rest : List Char} (hrun : ∀ c ∈ run, test c) (hrest : ∀ c ∈ rest.head?, test c = false) :
    (run ++ rest).takeWhile test = run ∧ (run ++ rest).dropWhile test = rest := by
  rw [List.takeWhile_append_of_pos hrun, List.dropWhile_append_of_pos hrun]
  cases rest with
  | nil => exact ⟨List.append_nil run, rfl⟩
  | cons c rest =>
    have hc : ¬test c := by
      rw [hrest c rfl]
      exact Bool.false_ne_true
    rw [List.takeWhile_cons_of_neg hc, List.dropWhile_cons_of_neg hc, List.append_nil]
    exact ⟨rfl, rfl⟩

/-- A letter or an underscore, then letters, digits and underscores. -/
def isNameText : List Char → Bool
  | [] => false
  | c :: others => isNameStart c && others.all isNameChar

theorem lexes_name {text : String} (htext : isNameText text.toList) : Lexes text.toList [word text] := by
  have hname : word text = .name (String.ofList text.toList) := by
    rw [String.ofList_toList]
    rfl
  rw [hname]
  cases hchars : text.toList with
  | nil =>
    rw [hchars] at htext
    cases htext
  | cons c others =>
    rw [hchars, isNameText, Bool.and_eq_true, List.all_eq_true] at htext
    obtain ⟨hstart, hothers⟩ := htext
    apply lexes_of_step
    intro position rest hrest
    obtain ⟨htaken, hleft⟩ := takeWhile_run hothers fun d hd => isNameChar_of_endsNumber (hrest d hd)
    rw [List.cons_append, scanStep_name hstart, htaken, hleft]
    exact ⟨_, _, rfl, rfl⟩

/-! ### Integers -/

def numerals : List Char := ['-', '0', '1', '2', '3', '4', '5', '6', '7', '8', '9']

theorem mem_numerals_of_isDigit (hc : c.isDigit) : c ∈ numerals := by
  have hlow : 48 ≤ c.toNat := (Char.isDigit_iff_toNat.1 hc).1
  have hhigh : c.toNat ≤ 57 := (Char.isDigit_iff_toNat.1 hc).2
  rw [← Char.ofNat_toNat c]
  generalize c.toNat = code at hlow hhigh
  interval_cases code <;> decide

theorem scanStep_number (hc : c ∈ numerals) (position : Position) (rest : List Char) :
    scanStep position (c :: rest) =
      (numberLexeme? (c :: rest.takeWhile fun c => !endsNumber c)).map fun lexeme =>
        (some ⟨lexeme, position⟩, position.advance (c :: rest.takeWhile fun c => !endsNumber c).length,
          rest.dropWhile fun c => !endsNumber c) := by
  have hall : numerals.all fun c => c ∉ separators && !isNameStart c && (c = '-' || c.isDigit) := by decide
  have hword := List.all_eq_true.1 hall c hc
  simp only [Bool.and_eq_true, decide_eq_true_eq, Bool.not_eq_true'] at hword
  obtain ⟨⟨hseparators, hname⟩, hnumber⟩ := hword
  obtain ⟨hblank, htab, hline, hreturn, hcomment, hpunctuator⟩ := not_separating hseparators
  unfold scanStep
  dsimp only
  rw [if_neg hblank, if_neg htab, if_neg hline, if_neg hreturn, if_neg hcomment, if_neg hpunctuator,
    if_neg (Bool.eq_false_iff.1 hname), if_pos hnumber]

/-- Decimal digits have no zero in front, unless it is the only one. -/
theorem toDigits_cons (n : Nat) :
    ∃ first others, Nat.toDigits 10 n = first :: others ∧ (first = '0' → n = 0 ∧ others = []) := by
  induction n using Nat.strongRecOn with
  | ind n ih =>
    by_cases hn : n < 10
    · refine ⟨n.digitChar, [], Nat.toDigits_of_lt_base hn, ?_⟩
      intro hzero
      exact ⟨Nat.digitChar_eq_zero.1 hzero, rfl⟩
    · obtain ⟨first, others, hdigits, hzero⟩ := ih (n / 10) (by omega)
      refine ⟨first, others ++ [(n % 10).digitChar], ?_, ?_⟩
      · rw [Nat.toDigits_of_base_le (by decide) (by omega), hdigits, List.cons_append]
      · intro hfirst
        have hquotient := (hzero hfirst).1
        omega

theorem isIntText_digits {first : Char} {others : List Char} (hfirst : first.isDigit)
    (hothers : others.all Char.isDigit) (hzero : first = '0' → others = []) :
    isIntText (first :: others) ∧ isIntText ('-' :: first :: others) := by
  by_cases hlead : first = '0'
  · rw [hlead, hzero hlead]
    exact ⟨rfl, rfl⟩
  · have hsign : first ≠ '-' := by
      rintro rfl
      cases hfirst
    constructor
    · rw [isIntText] <;> simp_all
    · rw [isIntText] <;> simp_all

theorem isIntText_toDigits (n : Nat) :
    isIntText (Nat.toDigits 10 n) ∧ isIntText ('-' :: Nat.toDigits 10 n) := by
  obtain ⟨first, others, hdigits, hzero⟩ := toDigits_cons n
  have hall : (first :: others).all Char.isDigit := by
    rw [← hdigits]
    exact List.all_eq_true.2 fun c hc => Nat.isDigit_of_mem_toDigits (by decide) (by decide) hc
  rw [List.all_cons, Bool.and_eq_true] at hall
  rw [hdigits]
  exact isIntText_digits hall.1 hall.2 fun hfirst => (hzero hfirst).2

theorem toList_toString_int (value : Int) : (toString value).toList =
    if 0 ≤ value then Nat.toDigits 10 value.toNat else '-' :: Nat.toDigits 10 (-value).toNat := by
  rw [Int.toString_eq_repr, Int.repr_eq_if]
  split
  · exact Nat.toList_repr
  · rw [String.toList_append, Nat.toList_repr]
    rfl

theorem digitsValue_toDigits (n : Nat) : Json.digitsValue (Nat.toDigits 10 n) = n := Nat.ofDigitChars_ten_toDigits

theorem signedDigits_toDigits (n : Nat) : signedDigits (Nat.toDigits 10 n) = n := by
  have hvalue := digitsValue_toDigits n
  have hdigit (c : Char) (hc : c ∈ Nat.toDigits 10 n) : c.isDigit :=
    Nat.isDigit_of_mem_toDigits (by decide) (by decide) hc
  unfold signedDigits
  split
  · rename_i hdigits
    cases hdigit '-' (hdigits ▸ List.mem_cons_self)
  · rename_i hdigits
    cases hdigit '+' (hdigits ▸ List.mem_cons_self)
  · rw [hvalue]

theorem mem_numerals_of_mem_toString (hc : c ∈ (toString value).toList) : c ∈ numerals := by
  have hdigit {n : Nat} (hc : c ∈ Nat.toDigits 10 n) : c ∈ numerals :=
    mem_numerals_of_isDigit (Nat.isDigit_of_mem_toDigits (by decide) (by decide) hc)
  rw [toList_toString_int] at hc
  split at hc
  · exact hdigit hc
  · rcases List.mem_cons.1 hc with rfl | hc
    · decide
    · exact hdigit hc

theorem isIntText_toString (value : Int) :
    isIntText (toString value).toList ∧ signedDigits (toString value).toList = value := by
  rw [toList_toString_int]
  split
  · rename_i hvalue
    refine ⟨(isIntText_toDigits value.toNat).1, ?_⟩
    rw [signedDigits_toDigits, Int.toNat_of_nonneg hvalue]
  · rename_i hvalue
    refine ⟨(isIntText_toDigits (-value).toNat).2, ?_⟩
    rw [signedDigits, digitsValue_toDigits]
    omega

theorem numberLexeme?_toString (hvalue : Int64.Within value) :
    numberLexeme? (toString value).toList = some (.int value) := by
  have hall : numerals.all fun c => !(c = 'e' || c = 'E') && c ≠ '.' := by decide
  have hmarks (c : Char) (hc : c ∈ (toString value).toList) : !(c = 'e' || c = 'E') ∧ c ≠ '.' := by
    have hplain := List.all_eq_true.1 hall c (mem_numerals_of_mem_toString hc)
    rwa [Bool.and_eq_true, decide_eq_true_eq] at hplain
  obtain ⟨hint, hsigned⟩ := isIntText_toString value
  have hexponent : splitLast (fun c => c = 'e' || c = 'E') (toString value).toList = none := by
    unfold splitLast
    dsimp only
    rw [List.dropWhile_eq_nil_iff.2]
    intro c hc
    exact (hmarks c (List.mem_reverse.1 hc)).1
  have hpoint : ¬(toString value).toList.contains '.' := by
    rw [List.contains_iff_mem]
    intro hmem
    exact (hmarks '.' hmem).2 rfl
  unfold numberLexeme?
  rw [hexponent]
  dsimp only
  rw [if_neg hpoint, hsigned, if_pos]
  rw [hint, Bool.true_and, decide_eq_true_eq]
  exact hvalue

theorem lexes_int (hvalue : Int64.Within value) : Lexes (toString value).toList [.int value] := by
  have hlexeme := numberLexeme?_toString hvalue
  have hnumerals (c : Char) (hc : c ∈ (toString value).toList) : c ∈ numerals := mem_numerals_of_mem_toString hc
  generalize (toString value).toList = text at hlexeme hnumerals
  cases text with
  | nil => cases hlexeme
  | cons c others =>
    apply lexes_of_step
    intro position rest hrest
    have hall : numerals.all fun c => !endsNumber c := by decide
    obtain ⟨htaken, hleft⟩ := takeWhile_run
      (fun d hd => List.all_eq_true.1 hall d (hnumerals d (List.mem_cons_of_mem c hd)))
      fun d hd => by rw [hrest d hd]; rfl
    rw [List.cons_append, scanStep_number (hnumerals c List.mem_cons_self), htaken, hleft, hlexeme]
    exact ⟨_, _, rfl, rfl⟩

/-! ### Quoted text -/

theorem codeChar?_control (hc : c.toNat < 0x20) :
    codeChar? '0' '0' (Json.hexDigit (c.toNat / 16)) (Json.hexDigit c.toNat) = some c := by
  have hcode : ∀ code < 0x20,
      codeChar? '0' '0' (Json.hexDigit (code / 16)) (Json.hexDigit code) = some (Char.ofNat code) := by
    decide
  rw [hcode c.toNat hc, Char.ofNat_toNat]

theorem readLineText_letter {letter : Char} {chars value rest : List Char} (hletter : letter ≠ 'u')
    (hc : escapedChar? letter = some c) (hread : readLineText chars = some (value, count, rest)) :
    readLineText ('\\' :: letter :: chars) = some (c :: value, count + 2, rest) := by
  simp [readLineText, hletter, hc, hread]

/-- Every way a character is escaped is read back, but for the letter that stands for U+0010. -/
theorem readLineText_escapeChar {chars value rest : List Char} (hc : c.toNat ≠ 8)
    (hread : readLineText chars = some (value, count, rest)) :
    ∃ count', readLineText (Json.escapeChar c ++ chars) = some (c :: value, count', rest) := by
  unfold Json.escapeChar
  split_ifs with hquote hbackslash hline hreturn htab hfeed hcontrol
  · subst hquote
    exact ⟨_, readLineText_letter (by decide) rfl hread⟩
  · subst hbackslash
    exact ⟨_, readLineText_letter (by decide) rfl hread⟩
  · subst hline
    exact ⟨_, readLineText_letter (by decide) rfl hread⟩
  · subst hreturn
    exact ⟨_, readLineText_letter (by decide) rfl hread⟩
  · subst htab
    exact ⟨_, readLineText_letter (by decide) rfl hread⟩
  · rw [← Char.ofNat_toNat c, hfeed]
    exact ⟨_, readLineText_letter (by decide) rfl hread⟩
  · exact ⟨count + 6, by simp [readLineText, codeChar?_control hcontrol, hread]⟩
  · exact ⟨count + 1, by simp [readLineText, hbackslash, hread]⟩

theorem readLineText_escaped (htext : ∀ c ∈ text, c.toNat ≠ 8) (rest : List Char) :
    ∃ count, readLineText (text.flatMap Json.escapeChar ++ '"' :: rest) = some (text, count, rest) := by
  induction text with
  | nil => exact ⟨1, rfl⟩
  | cons c text ih =>
    obtain ⟨count, hread⟩ := ih fun d hd => htext d (List.mem_cons_of_mem c hd)
    rw [List.flatMap_cons, List.append_assoc]
    exact readLineText_escapeChar (htext c List.mem_cons_self) hread

theorem escapeChar_cons (c : Char) : ∃ first others, Json.escapeChar c = first :: others ∧ first ≠ '"' := by
  unfold Json.escapeChar
  split_ifs with hquote <;> first | exact ⟨c, [], rfl, hquote⟩ | exact ⟨_, _, rfl, by decide⟩

theorem scanStep_quote {chars : List Char} (hblock : ∀ rest, chars ≠ '"' :: '"' :: rest) (position : Position) :
    scanStep position ('"' :: chars) = (readLineText chars).map fun (value, count, rest) =>
      (some ⟨.text (String.ofList value), position⟩, position.advance (count + 1), rest) := by
  unfold scanStep
  dsimp only
  rw [if_neg (by decide), if_neg (by decide), if_neg (by decide), if_neg (by decide), if_neg (by decide),
    if_neg (by decide), if_neg (by decide), if_neg (by decide)]
  split
  · rename_i hdot
    exact absurd hdot (by decide)
  · rename_i rest _
    exact absurd rfl (hblock rest)
  · rfl
  · rename_i hother _ _
    exact absurd rfl hother

theorem lexes_quote {text : String} (htext : ∀ c ∈ text.toList, c.toNat ≠ 8) :
    Lexes (Json.quote text).toList [.text text] := by
  apply lexes_of_step
  intro position rest hrest
  obtain ⟨count, hread⟩ := readLineText_escaped htext rest
  have hquote : (Json.quote text).toList ++ rest =
      '"' :: (text.toList.flatMap Json.escapeChar ++ '"' :: rest) := by
    unfold Json.quote
    rw [String.toList_ofList, List.append_assoc]
    rfl
  rw [hquote, scanStep_quote, hread]
  · exact ⟨_, _, by rw [String.ofList_toList]; rfl, rfl⟩
  · -- Three quotes would open a block, but a quote inside the text is escaped and none follows it.
    intro after hblock
    cases hchars : text.toList with
    | nil =>
      rw [hchars] at hblock
      cases hblock
      cases hrest '"' rfl
    | cons c chars =>
      obtain ⟨first, others, hescape, hfirst⟩ := escapeChar_cons c
      rw [hchars, List.flatMap_cons, hescape, List.cons_append, List.cons_append] at hblock
      exact hfirst (List.cons.inj hblock).1

end RelationalGraphQL.Document
