import RelationalGraphQL.Proofs.Sql.Token
import RelationalGraphQL.Sql.Fragment

/-!
# Reading a condition

What the text of a condition says. `readFormula` takes a text apart the way SQL does: parentheses first, then OR, then
AND, then NOT, then the comparisons, and gives the formula it stands for; `Formula.truth` is the truth of a formula on
a row, in three-valued logic, with the values of its parameters. The rest needs one fact of both: the text of
conditions that hold together reads as the conjunction of their formulas (`readFormula_joined`).
-/

namespace RelationalGraphQL.Sql

/-! ### Truth -/

inductive Truth where
  | true
  | false
  | unknown
  deriving DecidableEq, Repr

namespace Truth

def and : Truth → Truth → Truth
  | .false, _ | _, .false => .false
  | .true, .true => .true
  | .unknown, _ | _, .unknown => .unknown

def or : Truth → Truth → Truth
  | .true, _ | _, .true => .true
  | .false, .false => .false
  | .unknown, _ | _, .unknown => .unknown

def not : Truth → Truth
  | .true => .false
  | .false => .true
  | .unknown => .unknown

def all (truths : List Truth) : Truth := truths.foldr and .true

def any (truths : List Truth) : Truth := truths.foldr or .false

@[simp] theorem true_and (t : Truth) : and .true t = t := by cases t <;> rfl

@[simp] theorem and_true (t : Truth) : and t .true = t := by cases t <;> rfl

theorem and_assoc (s t u : Truth) : and (and s t) u = and s (and t u) := by cases s <;> cases t <;> cases u <;> rfl

theorem and_eq_true {s t : Truth} : and s t = .true ↔ s = .true ∧ t = .true := by cases s <;> cases t <;> decide

@[simp] theorem or_false (t : Truth) : or t .false = t := by cases t <;> rfl

@[simp] theorem true_or (t : Truth) : or .true t = .true := by cases t <;> rfl

@[simp] theorem or_true (t : Truth) : or t .true = .true := by cases t <;> rfl

theorem all_append (ss ts : List Truth) : all (ss ++ ts) = and (all ss) (all ts) := by
  induction ss with
  | nil => simp [all]
  | cons s ss ih =>
    change and s (all (ss ++ ts)) = and (and s (all ss)) (all ts)
    rw [ih, and_assoc]

theorem any_singleton (t : Truth) : any [t] = t := by cases t <;> rfl

theorem any_of_mem {ts : List Truth} (hmem : .true ∈ ts) : any ts = .true := by
  induction ts with
  | nil => simp at hmem
  | cons t ts ih =>
    change or t (any ts) = .true
    rcases List.mem_cons.1 hmem with rfl | hmem
    · exact true_or _
    · rw [ih hmem, or_true]

end Truth

/-! ### Formulas -/

inductive Test (α : Type) where
  | isNull
  | isNotNull
  | compare (operator : BinaryOperator) (operand : α)
  | anyOf (operand : α)
  | noneOf (operand : α)
  deriving DecidableEq

namespace Test

variable {α β : Type}

def map (f : α → β) : Test α → Test β
  | .isNull => .isNull
  | .isNotNull => .isNotNull
  | .compare operator operand => .compare operator (f operand)
  | .anyOf operand => .anyOf (f operand)
  | .noneOf operand => .noneOf (f operand)

def operands : Test α → List α
  | .isNull | .isNotNull => []
  | .compare _ operand | .anyOf operand | .noneOf operand => [operand]

def comparisons : List BinaryOperator :=
  [.eq, .notEq, .lt, .ltEq, .gt, .gtEq, .like, .iLike, .jsonContains, .jsonContainedBy]

/-- Tests that can be written: an operator is one of the comparisons. -/
def Written : Test α → Prop
  | .compare operator _ => operator ∈ comparisons
  | _ => True

end Test

/-- A condition as it is understood, with parameters by their positions. -/
inductive Formula (κ : Type) where
  | always
  | test (column : κ) (asked : Test Nat)
  | not (formula : Formula κ)
  | and (left right : Formula κ)
  | or (left right : Formula κ)

/-- The value of the parameter at a position counted from 1. -/
def Parameters.value? (parameters : Parameters) : Nat → Option Value
  | 0 => none
  | index + 1 => parameters[index]?

def Test.resolve (parameters : Parameters) : Test Nat → Option (Test Value)
  | .isNull => some .isNull
  | .isNotNull => some .isNotNull
  | .compare operator position => (parameters.value? position).map (.compare operator)
  | .anyOf position => (parameters.value? position).map .anyOf
  | .noneOf position => (parameters.value? position).map .noneOf

theorem Test.resolve_bound {bound parameters : Parameters} (asked : Test Value)
    (hparameters : bound ++ asked.operands <+: parameters) :
    (asked.map fun _ => bound.length + 1).resolve parameters = some asked := by
  obtain ⟨rest, rfl⟩ := hparameters
  cases asked <;> simp [map, resolve, operands, Parameters.value?]

namespace Formula

variable {κ γ : Type}

def all : List (Formula κ) → Formula κ
  | [] => .always
  | [formula] => formula
  | formula :: next :: rest => .and formula (all (next :: rest))

def any : List (Formula κ) → Formula κ
  | [] => .not .always
  | [formula] => formula
  | formula :: next :: rest => .or formula (any (next :: rest))

/-- The truth of a formula, given the outcome of each test. There is none if a parameter has no value. -/
def truth (outcome : κ → Test Value → Truth) (parameters : Parameters) : Formula κ → Option Truth
  | .always => some .true
  | .test column asked => (asked.resolve parameters).map (outcome column)
  | .not formula => (formula.truth outcome parameters).map Truth.not
  | .and left right => do return Truth.and (← left.truth outcome parameters) (← right.truth outcome parameters)
  | .or left right => do return Truth.or (← left.truth outcome parameters) (← right.truth outcome parameters)

variable (outcome : κ → Test Value → Truth) (parameters : Parameters)

theorem truth_all (formulas : List (Formula κ)) :
    (all formulas).truth outcome parameters = (formulas.mapM (truth outcome parameters)).map Truth.all := by
  induction formulas with
  | nil => rfl
  | cons formula rest ih =>
    cases rest with
    | nil => cases hhead : formula.truth outcome parameters <;> simp [all, Truth.all, hhead]
    | cons next rest =>
      rw [all, truth, ih, List.mapM_cons (a := formula)]
      cases formula.truth outcome parameters <;> cases (next :: rest).mapM (truth outcome parameters) <;> rfl

theorem truth_any (formulas : List (Formula κ)) :
    (any formulas).truth outcome parameters = (formulas.mapM (truth outcome parameters)).map Truth.any := by
  induction formulas with
  | nil => rfl
  | cons formula rest ih =>
    cases rest with
    | nil => cases hhead : formula.truth outcome parameters <;> simp [any, Truth.any, hhead]
    | cons next rest =>
      rw [any, truth, ih, List.mapM_cons (a := formula)]
      cases formula.truth outcome parameters <;> cases (next :: rest).mapM (truth outcome parameters) <;> rfl

def positions : Formula κ → List Nat
  | .always => []
  | .test _ asked => asked.operands
  | .not formula => formula.positions
  | .and left right | .or left right => left.positions ++ right.positions

theorem positions_all (formulas : List (Formula κ)) : (all formulas).positions = formulas.flatMap positions := by
  induction formulas with
  | nil => rfl
  | cons formula rest ih =>
    cases rest with
    | nil => simp [all]
    | cons next rest => rw [all, positions, ih]; rfl

theorem positions_any (formulas : List (Formula κ)) : (any formulas).positions = formulas.flatMap positions := by
  induction formulas with
  | nil => rfl
  | cons formula rest ih =>
    cases rest with
    | nil => simp [any]
    | cons next rest => rw [any, positions, ih]; rfl

end Formula

/-! ### From tokens to formulas -/

/-- What stands between two keywords: a token, or what a pair of parentheses holds. -/
inductive Item where
  | token (token : Token)
  | formula (formula : Formula String)
  | parameter (position : Nat)

namespace Item

def isKeyword (keyword : Keyword) : Item → Bool
  | .token (.keyword other) => other = keyword
  | _ => false

end Item

def Token.comparison? : Token → Option BinaryOperator
  | .operator "=" => some .eq
  | .operator "<>" => some .notEq
  | .operator "<" => some .lt
  | .operator "<=" => some .ltEq
  | .operator ">" => some .gt
  | .operator ">=" => some .gtEq
  | .operator "@>" => some .jsonContains
  | .operator "<@" => some .jsonContainedBy
  | .keyword .like => some .like
  | .keyword .iLike => some .iLike
  | _ => none

def readTest : List Item → Option (Formula String)
  | [.token (.name column), .token (.keyword .is), .token (.keyword .null)] => some (.test column .isNull)
  | [.token (.name column), .token (.keyword .is), .token (.keyword .not), .token (.keyword .null)] =>
    some (.test column .isNotNull)
  | [.token (.name column), .token (.operator "="), .token (.keyword .any), .parameter position] =>
    some (.test column (.anyOf position))
  | [.token (.name column), .token (.operator "<>"), .token (.keyword .all), .parameter position] =>
    some (.test column (.noneOf position))
  | [.token (.name column), .token comparison, .token (.parameter position)] =>
    comparison.comparison?.map fun operator => .test column (.compare operator position)
  | _ => none

/-- NOT binds closer than AND: it negates what is left when the items are cut at AND. -/
def readFactor : List Item → Option (Formula String)
  | [.token (.keyword .true)] => some .always
  | [.formula formula] => some formula
  | .token (.keyword .not) :: rest => (readFactor rest).map .not
  | items => readTest items

def readConjunction (items : List Item) : Option (Formula String) :=
  ((items.splitOnP (Item.isKeyword .and)).mapM readFactor).map Formula.all

/-- OR binds loosest: the items are cut at it first. -/
def readDisjunction (items : List Item) : Option (Formula String) :=
  ((items.splitOnP (Item.isKeyword .or)).mapM readConjunction).map Formula.any

def readEnclosed : List Item → Option Item
  | [.token (.parameter position)] => some (.parameter position)
  | items => (readDisjunction items).map .formula

/-- Reads one token. Each open parenthesis has its own items, the innermost first. -/
def readToken (levels : List (List Item)) (token : Token) : Option (List (List Item)) :=
  match token, levels with
  | .mark '(', levels => some ([] :: levels)
  | .mark ')', inner :: outer :: levels => do
    let item ← readEnclosed inner
    return (outer ++ [item]) :: levels
  | .mark ')', _ => none
  | token, items :: levels => some ((items ++ [.token token]) :: levels)
  | _, [] => none

def readFormula (text : String) : Option (Formula String) := do
  let found ← tokens text.toList
  let levels ← found.foldlM readToken [[]]
  match levels with
  | [items] => readDisjunction items
  | _ => none

/-! ### Texts and their items -/

/-- A text whose tokens add items at the level they are read on. -/
def Reads (text : List Char) (items : List Item) : Prop :=
  ∃ found, tokens text = some found ∧
    ∀ front levels, found.foldlM readToken (front :: levels) = some ((front ++ items) :: levels)

namespace Reads

theorem of_token {text : List Char} {token : Token} (htokens : tokens text = some [token])
    (hplain : ∀ items levels, readToken (items :: levels) token = some ((items ++ [.token token]) :: levels)) :
    Reads text [.token token] := by
  refine ⟨[token], htokens, fun front levels => ?_⟩
  simp [hplain]

theorem keyword (word : Keyword) : Reads word.text.toList [.token (.keyword word)] :=
  of_token (tokens_keyword word) fun _ _ => rfl

theorem blank {front back : List Char} {before after : List Item} {c : Char} (hfront : Reads front before)
    (hback : Reads back after) (hblank : separator? c = some []) : Reads (front ++ c :: back) (before ++ after) := by
  obtain ⟨ahead, hahead, hbefore⟩ := hfront
  obtain ⟨behind, hbehind, hafter⟩ := hback
  refine ⟨ahead ++ behind, by simpa using tokens_append hahead hblank hbehind, fun front levels => ?_⟩
  simp [List.foldlM_append, hbefore, hafter]

theorem enclosed {front inner : List Char} {before within : List Item} {item : Item} (hfront : Reads front before)
    (hinner : Reads inner within) (hitem : readEnclosed within = some item) :
    Reads (front ++ '(' :: (inner ++ [')'])) (before ++ [item]) := by
  obtain ⟨ahead, hahead, hbefore⟩ := hfront
  obtain ⟨amid, hamid, hwithin⟩ := hinner
  have hclose : tokens (inner ++ [')']) = some (amid ++ [.mark ')']) := by
    simpa using tokens_append hamid (show separator? ')' = some [.mark ')'] by decide) tokens_nil
  refine ⟨ahead ++ [.mark '('] ++ (amid ++ [.mark ')']), tokens_append hahead (by decide) hclose, fun front levels => ?_⟩
  simp [List.foldlM_append, hbefore, hwithin, readToken, hitem]

theorem nil : Reads [] [] := ⟨[], rfl, fun _ _ => by simp⟩

end Reads

/-! ### Joined texts -/

/-- A separator that reads as a keyword. -/
def Joins (separator : List Char) (word : Keyword) : Prop :=
  ∀ {front back : List Char} {before after : List Item}, Reads front before → Reads back after →
    Reads (front ++ separator ++ back) (before ++ .token (.keyword word) :: after)

theorem joins_blank (word : Keyword) : Joins (' ' :: word.text.toList ++ [' ']) word := by
  intro front back before after hfront hback
  have hword := (Reads.keyword word).blank hback separator_blank
  simpa using hfront.blank hword separator_blank

theorem joins_and : Joins " AND ".toList .and := joins_blank .and

theorem joins_or : Joins " OR ".toList .or := joins_blank .or

theorem joins_line : Joins "\n  AND ".toList .and := by
  intro front back before after hfront hback
  have hword := (Reads.keyword .and).blank hback separator_blank
  have hindented := Reads.nil.blank (Reads.nil.blank hword separator_blank) separator_blank
  simpa [Keyword.text] using hfront.blank hindented separator_line

/-- A text that a keyword cuts into parts, each with its formula. -/
def ReadsParts (word : Keyword) (read : List Item → Option (Formula String)) (kept : Item → Prop) (text : List Char)
    (formulas : List (Formula String)) : Prop :=
  ∃ items, Reads text items ∧ (∀ item ∈ items, kept item) ∧
    (items.splitOnP (Item.isKeyword word)).mapM read = some formulas

namespace ReadsParts

variable {word : Keyword} {read : List Item → Option (Formula String)} {kept : Item → Prop}

theorem join {separator front back : List Char} {before after : List (Formula String)} (hjoins : Joins separator word)
    (hkept : kept (.token (.keyword word))) (hfront : ReadsParts word read kept front before)
    (hback : ReadsParts word read kept back after) :
    ReadsParts word read kept (front ++ separator ++ back) (before ++ after) := by
  obtain ⟨ahead, hahead, hkeptAhead, hbefore⟩ := hfront
  obtain ⟨behind, hbehind, hkeptBehind, hafter⟩ := hback
  refine ⟨ahead ++ .token (.keyword word) :: behind, hjoins hahead hbehind, ?_, ?_⟩
  · intro item hitem
    rcases List.mem_append.1 hitem with hitem | hitem
    · exact hkeptAhead item hitem
    · rcases List.mem_cons.1 hitem with rfl | hitem
      · exact hkept
      · exact hkeptBehind item hitem
  · rw [List.splitOnP_append_cons _ _ (by simp [Item.isKeyword]), List.mapM_append, hbefore, hafter]
    rfl

/-- Texts joined by the keyword are cut there again. -/
theorem intercalate {α : Type} {separator : List Char} (hjoins : Joins separator word) {text : α → List Char}
    {formulas : α → List (Formula String)} {parts : List α} (hne : parts ≠ [])
    (hparts : ∀ part ∈ parts, ReadsParts word read kept (text part) (formulas part))
    (hkept : kept (.token (.keyword word))) :
    ReadsParts word read kept (separator.intercalate (parts.map text)) (parts.flatMap formulas) := by
  induction parts with
  | nil => exact absurd rfl hne
  | cons part parts ih =>
    have hpart := hparts part (by simp)
    cases parts with
    | nil => simpa using hpart
    | cons next parts =>
      have hrest := ih (by simp) fun part hpart => hparts part (by simp [hpart])
      simpa [List.intercalate_cons_cons] using hpart.join hjoins hkept hrest

end ReadsParts

/-- A text that can stand beside AND. -/
def ReadsFactor (text : List Char) (formula : Formula String) : Prop :=
  ∃ items, Reads text items ∧ (∀ item ∈ items, item.isKeyword .or = false ∧ item.isKeyword .and = false) ∧
    readFactor items = some formula

abbrev ReadsConjunction := ReadsParts .and readFactor fun item => item.isKeyword .or = false

abbrev ReadsDisjunction := ReadsParts .or readConjunction fun _ => True

theorem ReadsFactor.conjunction {text : List Char} {formula : Formula String} (hread : ReadsFactor text formula) :
    ReadsConjunction text [formula] := by
  obtain ⟨items, htext, hitems, hread⟩ := hread
  refine ⟨items, htext, fun item hitem => (hitems item hitem).1, ?_⟩
  rw [List.splitOnP_eq_singleton fun item hitem => (hitems item hitem).2]
  simp [hread]

theorem ReadsConjunction.disjunction {text : List Char} {formulas : List (Formula String)}
    (hread : ReadsConjunction text formulas) : ReadsDisjunction text [.all formulas] := by
  obtain ⟨items, htext, hitems, hread⟩ := hread
  refine ⟨items, htext, fun _ _ => trivial, ?_⟩
  rw [List.splitOnP_eq_singleton hitems]
  simp [readConjunction, hread]

/-- A parameter by itself is no condition, so what reads as a condition is not taken for one. -/
theorem readEnclosed_of_readDisjunction {items : List Item} {formula : Formula String}
    (hread : readDisjunction items = some formula) : readEnclosed items = some (.formula formula) := by
  unfold readEnclosed
  split
  · rename_i position
    have hnone : readDisjunction [.token (.parameter position)] = none := rfl
    simp [hnone] at hread
  · simp [hread]

/-! ### Names -/

/-- A text that is one name: identifiers, bare or quoted, with dots between them, and no keyword. -/
def IsName (text : String) : Prop := tokens text.toList = some [.name text]

/-- A quote inside a word makes it a name: no keyword and no placeholder has one. -/
theorem isName_of_quoted {text : String} (hquote : '"' ∈ text.toList) (hword : continuesWord false text.toList) :
    IsName text := by
  have hparameter : parameterOf? text.toList = none := by
    unfold parameterOf?
    split
    · rename_i digits htext
      rw [htext] at hquote
      have hmem : '"' ∈ digits := by simpa using hquote
      rw [if_neg]
      simp only [Bool.and_eq_true, List.all_eq_true, not_and]
      exact fun _ hdigits => absurd (hdigits _ hmem) (by decide)
    · rfl
  have hkeyword : Keyword.ofWord? text = none := by
    refine List.find?_eq_none.2 fun word _ => ?_
    have hupper : '"' ∈ (upperAscii text).toList := by
      simpa [upperAscii] using ⟨'"', hquote, by decide⟩
    have hnone : '"' ∉ word.text.toList := by cases word <;> decide
    simp only [decide_eq_true_eq]
    exact fun heq => hnone (heq ▸ hupper)
  rw [IsName, tokens_word (List.ne_nil_of_mem hquote) hword]
  simp [Token.ofWord, hparameter, hkeyword]

theorem mem_quoteIdentifier (name : String) : '"' ∈ (quoteIdentifier name).toList := by
  simp [quoteIdentifier, quoted]

/-- An alias is written as it is, so it has to be a word. -/
def Qualifier.IsWord : Qualifier → Prop
  | .aliased name => continuesWord false name.toList
  | .table _ => True

theorem Column.isName_text {column : Column} (hqualifier : ∀ qualifier ∈ column.qualifier, qualifier.IsWord) :
    IsName (column.text Dialect.postgres) := by
  obtain ⟨qualifier, name⟩ := column
  have hname := continuesWord_quoteIdentifier name
  have hquote := mem_quoteIdentifier name
  cases qualifier with
  | none => exact isName_of_quoted hquote hname
  | some qualifier =>
    have hfront : continuesWord false (qualifier.text Dialect.postgres).toList := by
      cases qualifier with
      | aliased name => exact hqualifier _ rfl
      | table name => exact continuesWord_quoteIdentifier name
    have hdot : continuesWord false ".".toList := by decide
    refine isName_of_quoted ?_ ?_
    · simp only [Column.text, String.toList_append, List.mem_append]
      exact .inr hquote
    · simp only [Column.text, String.toList_append]
      exact continuesWord_append (continuesWord_append hfront hdot) hname

/-! ### Conditions -/

namespace Condition

variable {κ γ : Type}

section

variable (column : κ → γ)

mutual

def formula : Condition κ → Formula γ
  | .isNull c => .test (column c) .isNull
  | .isNotNull c => .test (column c) .isNotNull
  | .compare c operator position => .test (column c) (.compare operator position)
  | .anyOf c position => .test (column c) (.anyOf position)
  | .noneOf c position => .test (column c) (.noneOf position)
  | .disjunction branches => .any (branchFormulas branches)
  | .negation conditions => .not (.all (formulas conditions))

def formulas : List (Condition κ) → List (Formula γ)
  | [] => []
  | condition :: conditions => formula condition :: formulas conditions

def branchFormulas : List (List (Condition κ)) → List (Formula γ)
  | [] => []
  | branch :: branches => .all (formulas branch) :: branchFormulas branches

end

theorem formulas_eq_map (conditions : List (Condition κ)) : formulas column conditions = conditions.map (formula column) := by
  induction conditions with
  | nil => rfl
  | cons condition conditions ih => rw [formulas, ih, List.map_cons]

theorem branchFormulas_eq_map (branches : List (List (Condition κ))) :
    branchFormulas column branches = branches.map fun branch => .all (branch.map (formula column)) := by
  induction branches with
  | nil => rfl
  | cons branch branches ih => rw [branchFormulas, ih, formulas_eq_map, List.map_cons]

end

section

variable (column : κ → String) (placeholder : Nat → String)

theorem texts_eq_map (conditions : List (Condition κ)) :
    texts column placeholder conditions = conditions.map (text column placeholder) := by
  induction conditions with
  | nil => rfl
  | cons condition conditions ih => rw [texts, ih, List.map_cons]

theorem branchTexts_eq_map (branches : List (List (Condition κ))) :
    branchTexts column placeholder branches = branches.map (conjunctionText column placeholder) := by
  induction branches with
  | nil => rfl
  | cons branch branches ih => rw [branchTexts, ih, List.map_cons, conjunctionText]

end

section

variable (column : κ → γ) (outcome : γ → Test Value → Truth) (parameters : Parameters)

def holds (conditions : List (Condition κ)) : Option Truth :=
  (Formula.all (conditions.map (formula column))).truth outcome parameters

variable {column outcome parameters} {front back : List (Condition κ)} {truth : Truth}

@[simp] theorem holds_nil : holds column outcome parameters [] = some .true := rfl

theorem holds_singleton (condition : Condition κ) :
    holds column outcome parameters [condition] = (formula column condition).truth outcome parameters := rfl

theorem holds_eq (conditions : List (Condition κ)) :
    holds column outcome parameters conditions =
      (conditions.mapM fun condition => (formula column condition).truth outcome parameters).map Truth.all := by
  rw [holds, Formula.truth_all, List.mapM_map]
  rfl

theorem holds_append {before after : Truth} (hfront : holds column outcome parameters front = some before)
    (hback : holds column outcome parameters back = some after) :
    holds column outcome parameters (front ++ back) = some (before.and after) := by
  rw [holds_eq, Option.map_eq_some_iff] at hfront hback
  obtain ⟨ahead, hahead, rfl⟩ := hfront
  obtain ⟨behind, hbehind, rfl⟩ := hback
  rw [holds_eq, List.mapM_append, hahead, hbehind, ← Truth.all_append]
  rfl

theorem holds_of_append (h : holds column outcome parameters (front ++ back) = some truth) :
    ∃ before after, holds column outcome parameters front = some before ∧
      holds column outcome parameters back = some after ∧ truth = before.and after := by
  rw [holds_eq, List.mapM_append, Option.map_eq_some_iff] at h
  obtain ⟨truths, hboth, rfl⟩ := h
  simp only [Option.bind_eq_bind, Option.bind_eq_some_iff] at hboth
  obtain ⟨ahead, hahead, behind, hbehind, htruths⟩ := hboth
  cases htruths
  refine ⟨.all ahead, .all behind, ?_, ?_, Truth.all_append ahead behind⟩
  · rw [holds_eq, hahead, Option.map_some]
  · rw [holds_eq, hbehind, Option.map_some]

theorem holds_negation {conditions : List (Condition κ)} (h : holds column outcome parameters conditions = some truth) :
    holds column outcome parameters [.negation conditions] = some truth.not := by
  rw [holds_singleton, formula, formulas_eq_map, Formula.truth]
  change (holds column outcome parameters conditions).map Truth.not = _
  rw [h, Option.map_some]

theorem holds_disjunction {branches : List (List (Condition κ))} {truths : List Truth}
    (h : branches.mapM (holds column outcome parameters) = some truths) :
    holds column outcome parameters [.disjunction branches] = some (.any truths) := by
  rw [holds_singleton, formula, branchFormulas_eq_map, Formula.truth_any, List.mapM_map]
  change (branches.mapM (holds column outcome parameters)).map Truth.any = _
  rw [h, Option.map_some]

end

def positions (conditions : List (Condition κ)) : List Nat :=
  conditions.flatMap fun condition => (formula id condition).positions

@[simp] theorem positions_nil : positions ([] : List (Condition κ)) = [] := rfl

theorem positions_append (front back : List (Condition κ)) :
    positions (front ++ back) = positions front ++ positions back := List.flatMap_append

theorem positions_flatten (groups : List (List (Condition κ))) :
    positions groups.flatten = groups.flatMap positions := by
  induction groups with
  | nil => rfl
  | cons group groups ih => rw [List.flatten_cons, positions_append, ih, List.flatMap_cons]

theorem positions_negation (conditions : List (Condition κ)) : positions [.negation conditions] = positions conditions := by
  simp [positions, formula, formulas_eq_map, Formula.positions, Formula.positions_all, List.flatMap_map]

theorem positions_disjunction (branches : List (List (Condition κ))) :
    positions [.disjunction branches] = branches.flatMap positions := by
  simp only [positions, List.flatMap_singleton, formula, branchFormulas_eq_map, Formula.positions_any,
    Formula.positions_all, List.flatMap_map]
  rfl

def asking (c : κ) : Test Nat → Condition κ
  | .isNull => .isNull c
  | .isNotNull => .isNotNull c
  | .compare operator position => .compare c operator position
  | .anyOf position => .anyOf c position
  | .noneOf position => .noneOf c position

@[simp] theorem formula_asking (view : κ → γ) (c : κ) (asked : Test Nat) :
    formula view (asking c asked) = .test (view c) asked := by
  cases asked <;> rfl

/-- Conditions on certain columns whose text can be read again: operators are comparisons, and neither a disjunction
nor one of its branches is empty. -/
inductive Readable (known : κ → Prop) : Condition κ → Prop where
  | asking {c : κ} {asked : Test Nat} (hknown : known c) (hwritten : asked.Written) :
      Readable known (.asking c asked)
  | disjunction {branches : List (List (Condition κ))} (hne : branches ≠ []) (hbranches : ∀ branch ∈ branches, branch ≠ [])
      (hreadable : ∀ branch ∈ branches, ∀ condition ∈ branch, Readable known condition) :
      Readable known (.disjunction branches)
  | negation {conditions : List (Condition κ)} (hreadable : ∀ condition ∈ conditions, Readable known condition) :
      Readable known (.negation conditions)

theorem Readable.mono {known known' : κ → Prop} {condition : Condition κ} (hreadable : Readable known condition)
    (hknown : ∀ c, known c → known' c) : Readable known' condition := by
  induction hreadable with
  | asking hc hwritten => exact .asking (hknown _ hc) hwritten
  | disjunction hne hbranches _ ih => exact .disjunction hne hbranches ih
  | negation _ ih => exact .negation ih

/-! ### The reading of a condition's text -/

variable {column : κ → String} {known : κ → Prop}

theorem readsFactor_of_name {name : String} (hname : IsName name) {rest : List Char} {items : List Item}
    {formula : Formula String} (hrest : Reads rest items)
    (hitems : ∀ item ∈ items, item.isKeyword .or = false ∧ item.isKeyword .and = false)
    (hread : readFactor (.token (.name name) :: items) = some formula) :
    ReadsFactor (name.toList ++ ' ' :: rest) formula := by
  have hcolumn : Reads name.toList [.token (.name name)] := Reads.of_token hname fun _ _ => rfl
  refine ⟨_, hcolumn.blank hrest (by decide), ?_, hread⟩
  intro item hitem
  rcases List.mem_cons.1 hitem with rfl | hitem
  · exact ⟨rfl, rfl⟩
  · exact hitems item hitem

theorem reads_placeholder (position : Nat) :
    Reads (Dialect.postgres.placeholder position).toList [.token (.parameter position)] :=
  Reads.of_token (tokens_placeholder position) fun _ _ => rfl

theorem reads_symbol {operator : BinaryOperator} (hoperator : operator ∈ Test.comparisons) :
    ∃ token, Reads operator.symbol.toList [.token token] ∧
      (∀ column position, readFactor [.token (.name column), .token token, .token (.parameter position)] =
        some (.test column (.compare operator position))) ∧
      (Item.token token).isKeyword .or = false ∧ (Item.token token).isKeyword .and = false := by
  simp only [Test.comparisons, List.mem_cons, List.not_mem_nil, or_false] at hoperator
  rcases hoperator with rfl | rfl | rfl | rfl | rfl | rfl | rfl | rfl | rfl | rfl <;>
    exact ⟨_, Reads.of_token rfl fun _ _ => rfl, fun _ _ => rfl, rfl, rfl⟩

theorem readsFactor_asking {c : κ} {asked : Test Nat} (hname : IsName (column c)) (hwritten : asked.Written) :
    ReadsFactor (text column Dialect.postgres.placeholder (asking c asked)).toList (.test (column c) asked) := by
  cases asked with
  | isNull =>
    have hwords := (Reads.keyword .is).blank (Reads.keyword .null) separator_blank
    have hread := readsFactor_of_name hname hwords (by simp [Item.isKeyword]) rfl
    simpa [asking, text, UnaryOperator.keyword, Keyword.text] using hread
  | isNotNull =>
    have hnull := (Reads.keyword .not).blank (Reads.keyword .null) separator_blank
    have hwords := (Reads.keyword .is).blank hnull separator_blank
    have hread := readsFactor_of_name hname hwords (by simp [Item.isKeyword]) rfl
    simpa [asking, text, UnaryOperator.keyword, Keyword.text] using hread
  | compare operator position =>
    obtain ⟨token, htoken, hcompare, hor, hand⟩ := reads_symbol hwritten
    have hoperand := htoken.blank (reads_placeholder position) separator_blank
    have hread := readsFactor_of_name hname hoperand (by simp [hor, hand]; simp [Item.isKeyword]) (hcompare _ _)
    simpa [asking, text] using hread
  | anyOf position =>
    have hlist := (Reads.keyword .any).enclosed (reads_placeholder position) rfl
    have hoperator : Reads "=".toList [.token (.operator "=")] := Reads.of_token rfl fun _ _ => rfl
    have hread := readsFactor_of_name hname (hoperator.blank hlist separator_blank) (by simp [Item.isKeyword]) rfl
    simpa [asking, text, Keyword.text] using hread
  | noneOf position =>
    have hlist := (Reads.keyword .all).enclosed (reads_placeholder position) rfl
    have hoperator : Reads "<>".toList [.token (.operator "<>")] := Reads.of_token rfl fun _ _ => rfl
    have hread := readsFactor_of_name hname (hoperator.blank hlist separator_blank) (by simp [Item.isKeyword]) rfl
    simpa [asking, text, Keyword.text] using hread

theorem readsConjunction_text {conditions : List (Condition κ)} (hne : conditions ≠ [])
    (hfactors : ∀ condition ∈ conditions,
      ReadsFactor (text column Dialect.postgres.placeholder condition).toList (formula column condition)) :
    ReadsConjunction (conjunctionText column Dialect.postgres.placeholder conditions).toList
      (conditions.map (formula column)) := by
  have hread := ReadsParts.intercalate joins_and hne
    (fun condition hcondition => (hfactors condition hcondition).conjunction) rfl
  rw [← List.map_eq_flatMap] at hread
  rw [conjunctionText, texts_eq_map, String.toList_intercalate, List.map_map]
  exact hread

theorem readsFactor_enclosed {inner : List Char} {formulas : List (Formula String)}
    (hinner : ReadsDisjunction inner formulas) : ReadsFactor ('(' :: (inner ++ [')'])) (.any formulas) := by
  obtain ⟨items, hitems, -, hread⟩ := hinner
  have hformula : readDisjunction items = some (.any formulas) := by simp [readDisjunction, hread]
  have henclosed := Reads.nil.enclosed hitems (readEnclosed_of_readDisjunction hformula)
  exact ⟨[.formula (.any formulas)], henclosed, by simp [Item.isKeyword], rfl⟩

theorem readsFactor_not {text : List Char} {formula : Formula String} (htext : ReadsFactor text formula) :
    ReadsFactor ("NOT".toList ++ ' ' :: text) (.not formula) := by
  obtain ⟨items, hitems, hkeywords, hread⟩ := htext
  refine ⟨_, (Reads.keyword .not).blank hitems separator_blank, ?_, ?_⟩
  · intro item hitem
    rcases List.mem_cons.1 hitem with rfl | hitem
    · exact ⟨rfl, rfl⟩
    · exact hkeywords item hitem
  · change (readFactor items).map Formula.not = _
    rw [hread, Option.map_some]

theorem readsFactor_text {condition : Condition κ} (hnames : ∀ c, known c → IsName (column c))
    (hreadable : Readable known condition) :
    ReadsFactor (text column Dialect.postgres.placeholder condition).toList (formula column condition) := by
  induction hreadable with
  | @asking c asked hknown hwritten =>
    rw [formula_asking]
    exact readsFactor_asking (hnames c hknown) hwritten
  | @disjunction branches hne hbranches hreadable ih =>
    have hinner := ReadsParts.intercalate joins_or hne (fun branch hbranch =>
      (readsConjunction_text (hbranches branch hbranch) (ih branch hbranch)).disjunction) trivial
    rw [← List.map_eq_flatMap] at hinner
    have hread := readsFactor_enclosed hinner
    simpa [text, branchTexts_eq_map, Function.comp_def, formula, branchFormulas_eq_map] using hread
  | @negation conditions hreadable ih =>
    cases conditions with
    | nil =>
      have htrue : ReadsFactor "TRUE".toList .always := ⟨_, Reads.keyword .true, by simp [Item.isKeyword], rfl⟩
      have hread := readsFactor_not (readsFactor_enclosed htrue.conjunction.disjunction)
      simpa [text, formula, formulas, Formula.all, Formula.any] using hread
    | cons condition conditions =>
      have hinner := (readsConjunction_text (List.cons_ne_nil _ _) ih).disjunction
      have hread := readsFactor_not (readsFactor_enclosed hinner)
      simpa [text, conjunctionText, texts, formula, formulas_eq_map, Formula.any] using hread

/-- Groups of conditions that hold together, with AND inside them and between them, read as one conjunction. -/
theorem readFormula_joined {groups : List (List (Condition κ))} {separator : String}
    (hjoins : Joins separator.toList .and) (hne : groups ≠ []) (hgroups : ∀ group ∈ groups, group ≠ [])
    (hnames : ∀ c, known c → IsName (column c))
    (hreadable : ∀ group ∈ groups, ∀ condition ∈ group, Readable known condition) :
    readFormula (separator.intercalate (groups.map (conjunctionText column Dialect.postgres.placeholder))) =
      some (.all (groups.flatten.map (formula column))) := by
  have hread := ReadsParts.intercalate hjoins hne (fun group hgroup =>
    readsConjunction_text (hgroups group hgroup) fun condition hcondition =>
      readsFactor_text hnames (hreadable group hgroup condition hcondition)) rfl
  obtain ⟨items, ⟨found, htokens, hfound⟩, -, hparts⟩ := ReadsConjunction.disjunction hread
  have hformula : readDisjunction items = some (.all (groups.flatten.map (formula column))) := by
    rw [readDisjunction, hparts, List.map_flatten]
    rfl
  rw [readFormula, String.toList_intercalate, List.map_map]
  simpa [Function.comp_def, htokens, hfound] using hformula

end Condition

end RelationalGraphQL.Sql
