import RelationalGraphQL.Document.TypeSystem
import Mathlib.Data.List.TakeWhile
import Mathlib.Data.Option.Basic
import Mathlib.Tactic.SplitIfs

/-!
# Names in documents

A name token is a run of letters, digits and underscores, and readers take the names they give from tokens. So the types
of a document that was read, and their fields, have such names (`parse?_names`).
-/

namespace RelationalGraphQL.Document

def IsName (text : String) : Prop := ∀ c ∈ text.toList, isNameChar c

/-! ### Tokens -/

def Lexed (tokens : List Token) : Prop := ∀ token ∈ tokens, ∀ text, token.lexeme = .name text → IsName text

theorem lexed_nil : Lexed [] := by
  intro token htoken
  cases htoken

theorem isNameChar_of_isNameStart {c : Char} (hstart : isNameStart c) : isNameChar c := by
  simp only [isNameStart, isNameChar, Char.isAlphanum, Bool.or_eq_true] at hstart ⊢
  rcases hstart with hunderscore | halpha
  · exact .inl hunderscore
  · exact .inr (.inl halpha)

theorem numberLexeme?_ne_name {digits : List Char} {text : String} : numberLexeme? digits ≠ some (.name text) := by
  unfold numberLexeme?
  intro hname
  split at hname
  · split at hname
    · simp at hname
    · cases hname
  · split at hname
    · simp at hname
    · split at hname
      · cases hname
      · cases hname

theorem lexed_singleton {lexeme : Lexeme} {position : Position} (hname : ∀ text, lexeme = .name text → IsName text) :
    Lexed (some (Token.mk lexeme position)).toList := by
  intro token htoken
  rw [Option.toList_some, List.mem_singleton] at htoken
  rw [htoken]
  exact hname

theorem scanStep_lexed {position position' : Position} {chars rest : List Char} {token : Option Token}
    (hstep : scanStep position chars = some (token, position', rest)) : Lexed token.toList := by
  have hblank : Lexed (Option.toList none) := lexed_nil
  unfold scanStep at hstep
  split at hstep
  · cases hstep
  · rename_i c following
    dsimp only at hstep
    split_ifs at hstep with hspace htab hline hreturn hcomment hpunctuator hname hnumber
    · cases hstep
      exact hblank
    · cases hstep
      exact hblank
    · cases hstep
      exact hblank
    · cases hstep
      exact hblank
    · split at hstep <;> cases hstep <;> exact hblank
    · cases hstep
      exact lexed_singleton (by rintro _ ⟨⟩)
    · cases hstep
      apply lexed_singleton
      rintro _ ⟨rfl⟩ c hmem
      rw [String.toList_ofList] at hmem
      rcases List.mem_cons.1 hmem with rfl | hmem
      · exact isNameChar_of_isNameStart hname
      · exact List.mem_takeWhile_imp hmem
    · obtain ⟨lexeme, hlexeme, hstep⟩ := Option.map_eq_some_iff.1 hstep
      cases hstep
      apply lexed_singleton
      rintro text rfl
      exact absurd hlexeme numberLexeme?_ne_name
    · split at hstep
      · cases hstep
        exact lexed_singleton (by rintro _ ⟨⟩)
      · obtain ⟨_, -, hstep⟩ := Option.map_eq_some_iff.1 hstep
        cases hstep
        exact lexed_singleton (by rintro _ ⟨⟩)
      · obtain ⟨_, -, hstep⟩ := Option.map_eq_some_iff.1 hstep
        cases hstep
        exact lexed_singleton (by rintro _ ⟨⟩)
      · cases hstep

theorem scan_lexed {fuel : Nat} {position : Position} {chars : List Char} {tokens : List Token}
    (hscan : scan fuel position chars = some tokens) : Lexed tokens := by
  induction fuel generalizing position chars tokens with
  | zero =>
    cases chars with
    | nil =>
      rw [scan, Option.some.injEq] at hscan
      exact hscan ▸ lexed_nil
    | cons c chars => cases hscan
  | succ fuel ih =>
    cases chars with
    | nil =>
      rw [scan, Option.some.injEq] at hscan
      exact hscan ▸ lexed_nil
    | cons c chars =>
      unfold scan at hscan
      split at hscan
      · cases hscan
      · rename_i token position' rest hstep
        obtain ⟨others, hothers, rfl⟩ := Option.map_eq_some_iff.1 hscan
        intro found hfound
        rcases List.mem_append.1 hfound with hfound | hfound
        · exact scanStep_lexed hstep found hfound
        · exact ih hothers found hfound

/-! ### Readers -/

variable {α β : Type} {good : α → Prop} {reader item : Reader α} {next : α → Reader β}

/-- On tokens that hold names, a reader gives something good and leaves such tokens. -/
def Gives (reader : Reader α) (good : α → Prop) : Prop :=
  ∀ tokens value rest, Lexed tokens → reader tokens = some (value, rest) → good value ∧ Lexed rest

theorem gives_pure {value : α} (hvalue : good value) : Gives (pure value) good := by
  intro tokens found rest htokens hread
  cases hread
  exact ⟨hvalue, htokens⟩

theorem gives_bind {good' : β → Prop} (hreader : Gives reader good)
    (hnext : ∀ value, good value → Gives (next value) good') : Gives (reader >>= next) good' := by
  intro tokens value rest htokens hread
  obtain ⟨⟨first, rest'⟩, hfirst, hrest⟩ := Option.bind_eq_some_iff.1 hread
  obtain ⟨hgood, hlexed⟩ := hreader tokens first rest' htokens hfirst
  exact hnext first hgood rest' value rest hlexed hrest

theorem gives_failure : Gives failure good := nofun

theorem gives_map {f : α → β} {good : β → Prop} (hreader : Gives reader fun value => good (f value)) :
    Gives (f <$> reader) good := by
  intro tokens value rest htokens hread
  obtain ⟨⟨first, rest'⟩, hfirst, hrest⟩ := Option.bind_eq_some_iff.1 hread
  cases hrest
  exact hreader tokens first rest htokens hfirst

theorem Gives.mono {good' : α → Prop} (hreader : Gives reader good) (hgood : ∀ value, good value → good' value) :
    Gives reader good' := by
  intro tokens value rest htokens hread
  obtain ⟨hvalue, hrest⟩ := hreader tokens value rest htokens hread
  exact ⟨hgood value hvalue, hrest⟩

def Reads (reader : Reader α) : Prop := Gives reader fun _ => True

theorem Gives.reads (hreader : Gives reader good) : Reads reader :=
  hreader.mono fun _ _ => trivial

theorem reads_pure {value : α} : Reads (pure value) := gives_pure trivial

theorem reads_failure : Reads (failure : Reader α) := gives_failure

theorem reads_bind (hreader : Reads reader) (hnext : ∀ value, Reads (next value)) : Reads (reader >>= next) :=
  gives_bind hreader fun value _ => hnext value

theorem Reads.bind {good : β → Prop} (hreader : Reads reader) (hnext : ∀ value, Gives (next value) good) :
    Gives (reader >>= next) good :=
  gives_bind hreader fun value _ => hnext value

/-! ### Single tokens -/

theorem peek_reads : Reads peek := by
  intro tokens value rest htokens hread
  cases hread
  exact ⟨trivial, htokens⟩

theorem sees_reads (lexeme : Lexeme) : Reads (sees lexeme) := reads_bind peek_reads fun _ => reads_pure

theorem expect_reads (lexeme : Lexeme) : Reads (expect lexeme) := by
  intro tokens value rest htokens hread
  cases tokens with
  | nil => cases hread
  | cons token tokens =>
    rw [expect] at hread
    split at hread
    · cases hread
      exact ⟨trivial, fun other hother => htokens other (List.mem_cons_of_mem _ hother)⟩
    · cases hread

theorem accepts_reads (lexeme : Lexeme) : Reads (accepts lexeme) := by
  apply reads_bind (sees_reads lexeme)
  intro seen
  split
  · exact reads_bind (expect_reads lexeme) fun _ => reads_pure
  · exact reads_pure

theorem name_gives : Gives name IsName := by
  intro tokens value rest htokens hread
  unfold name at hread
  split at hread
  · rename_i text position rest'
    cases hread
    exact ⟨htokens _ List.mem_cons_self _ rfl, fun other hother => htokens other (List.mem_cons_of_mem _ hother)⟩
  · cases hread

theorem name?_reads : Reads name? := by
  apply reads_bind peek_reads
  intro next
  split
  · exact reads_bind name_gives.reads fun _ => reads_pure
  · exact reads_pure

theorem text?_reads : Reads text? := by
  intro tokens value rest htokens hread
  unfold text? at hread
  split at hread
  · cases hread
    exact ⟨trivial, fun other hother => htokens other (List.mem_cons_of_mem _ hother)⟩
  · cases hread
    exact ⟨trivial, htokens⟩

/-! ### Repetition -/

theorem many_gives (continues : Option Lexeme → Bool) (hitem : Gives item good) :
    Gives (many continues item) fun items => ∀ value ∈ items, good value := by
  have hrepeat (fuel : Nat) : Gives (repeatWhile continues item fuel) fun items => ∀ value ∈ items, good value := by
    induction fuel with
    | zero => exact gives_pure nofun
    | succ fuel ih =>
      apply peek_reads.bind
      intro next
      split
      · apply gives_bind hitem
        intro first hfirst
        apply gives_bind ih
        intro others hothers
        exact gives_pure (List.forall_mem_cons.2 ⟨hfirst, hothers⟩)
      · exact gives_pure nofun
  intro tokens
  exact hrepeat tokens.length tokens

theorem upTo_gives (close : Lexeme) (hitem : Gives item good) :
    Gives (upTo close item) fun items => ∀ value ∈ items, good value := by
  apply gives_bind (many_gives _ hitem)
  intro items hitems
  exact (expect_reads close).bind fun _ => gives_pure hitems

theorem someUpTo_gives (close : Lexeme) (hitem : Gives item good) :
    Gives (someUpTo close item) fun items => ∀ value ∈ items, good value := by
  apply gives_bind (upTo_gives close hitem)
  intro items hitems
  split
  · exact gives_failure
  · exact gives_pure hitems

theorem namesBy_reads (separator : Lexeme) : Reads (namesBy separator) := by
  apply reads_bind name_gives.reads
  intro first
  apply reads_bind (many_gives _ (reads_bind (expect_reads separator) fun _ => name_gives.reads)).reads
  intro others
  exact reads_pure

theorem named_reads {value : Reader α} (hvalue : Reads value) : Reads (named value) := by
  apply reads_bind name_gives.reads
  intro key
  apply reads_bind (expect_reads _)
  intro _
  exact reads_bind hvalue fun _ => reads_pure

theorem parenthesized_gives (brackets : Nat) {item : Nat → Reader α} (hitem : ∀ brackets, Gives (item brackets) good) :
    Gives (parenthesized brackets item) fun items => ∀ value ∈ items, good value := by
  apply (sees_reads _).bind
  intro seen
  split
  · cases brackets with
    | zero => exact gives_failure
    | succ brackets => exact (expect_reads _).bind fun _ => someUpTo_gives _ (hitem brackets)
  · exact gives_pure nofun

theorem braced?_gives (brackets : Nat) {item : Nat → Reader α} (hitem : ∀ brackets, Gives (item brackets) good) :
    Gives (braced? brackets item) fun items => ∀ value ∈ items, good value := by
  apply (sees_reads _).bind
  intro seen
  split
  · cases brackets with
    | zero => exact gives_failure
    | succ brackets => exact (expect_reads _).bind fun _ => someUpTo_gives _ (hitem brackets)
  · exact gives_pure nofun

/-! ### Values, types and directives -/

theorem valueWith_reads (withVariables : Bool) {nested : Option (Reader Value)}
    (hnested : ∀ item ∈ nested, Reads item) : Reads (valueWith withVariables nested) := by
  apply reads_bind peek_reads
  intro next
  split
  · exact reads_bind (expect_reads _) fun _ => reads_pure
  · exact reads_bind (expect_reads _) fun _ => reads_pure
  · exact reads_bind (expect_reads _) fun _ => reads_pure
  · exact reads_bind (expect_reads _) fun _ => reads_pure
  · split
    · apply reads_bind (expect_reads _)
      intro _
      exact reads_bind name_gives.reads fun _ => reads_pure
    · exact reads_failure
  · rename_i item
    apply reads_bind (expect_reads _)
    intro _
    exact reads_bind (upTo_gives _ (hnested item rfl)).reads fun _ => reads_pure
  · rename_i item
    apply reads_bind (expect_reads _)
    intro _
    exact reads_bind (upTo_gives _ (named_reads (hnested item rfl))).reads fun _ => reads_pure
  · exact reads_failure

theorem value_reads (withVariables : Bool) (brackets : Nat) : Reads (value withVariables brackets) := by
  induction brackets with
  | zero => exact valueWith_reads withVariables nofun
  | succ brackets ih =>
    apply valueWith_reads withVariables
    rintro _ ⟨rfl⟩
    exact ih

theorem nonNullMark_reads (type : TypeRef) : Reads (nonNullMark type) := by
  apply reads_bind (accepts_reads _)
  intro accepted
  split
  · exact reads_pure
  · exact reads_pure

theorem typeWith_reads {nested : Option (Reader TypeRef)} (hnested : ∀ inner ∈ nested, Reads inner) :
    Reads (typeWith nested) := by
  apply reads_bind name?_reads
  intro found
  split
  · exact nonNullMark_reads _
  · rename_i inner
    apply reads_bind (expect_reads _)
    intro _
    apply reads_bind (hnested inner rfl)
    intro type
    exact reads_bind (expect_reads _) fun _ => nonNullMark_reads _
  · exact reads_failure

theorem typeRef_reads (brackets : Nat) : Reads (typeRef brackets) := by
  induction brackets with
  | zero => exact typeWith_reads nofun
  | succ brackets ih =>
    apply typeWith_reads
    rintro _ ⟨rfl⟩
    exact ih

theorem arguments_reads (brackets : Nat) : Reads (arguments brackets) :=
  (parenthesized_gives brackets fun brackets => named_reads (value_reads true brackets)).reads

theorem directives_reads (brackets : Nat) : Reads (directives brackets) := by
  apply Gives.reads
  apply many_gives
  apply reads_bind (expect_reads _)
  intro _
  apply reads_bind name_gives.reads
  intro name
  exact reads_bind (arguments_reads brackets) fun _ => reads_pure

theorem defaultValue?_reads (brackets : Nat) : Reads (defaultValue? brackets) := by
  apply reads_bind (accepts_reads _)
  intro accepted
  split
  · exact gives_map (value_reads false brackets)
  · exact reads_pure

/-! ### Definitions -/

theorem inputValue_reads (brackets : Nat) : Reads (inputValue brackets) := by
  apply reads_bind text?_reads
  intro description
  apply reads_bind name_gives.reads
  intro name
  apply reads_bind (expect_reads _)
  intro _
  apply reads_bind (typeRef_reads brackets)
  intro type
  apply reads_bind (defaultValue?_reads brackets)
  intro default
  exact reads_bind (directives_reads brackets) fun _ => reads_pure

theorem fieldDefinition_gives (brackets : Nat) :
    Gives (fieldDefinition brackets) fun field => IsName field.name := by
  apply text?_reads.bind
  intro description
  apply gives_bind name_gives
  intro name hname
  apply (parenthesized_gives brackets inputValue_reads).reads.bind
  intro arguments
  apply (expect_reads _).bind
  intro _
  apply (typeRef_reads brackets).bind
  intro type
  exact (directives_reads brackets).bind fun _ => gives_pure hname

theorem enumValue_reads (brackets : Nat) : Reads (enumValue brackets) := by
  apply reads_bind text?_reads
  intro description
  apply reads_bind name_gives.reads
  intro name
  exact reads_bind (directives_reads brackets) fun _ => reads_pure

theorem implemented_reads : Reads implemented := by
  apply reads_bind (accepts_reads _)
  intro accepted
  split
  · exact reads_bind (accepts_reads _) fun _ => namesBy_reads _
  · exact reads_pure

theorem unionMembers_reads : Reads unionMembers := by
  apply reads_bind (accepts_reads _)
  intro accepted
  split
  · exact reads_bind (accepts_reads _) fun _ => namesBy_reads _
  · exact reads_pure

/-- The fields of an object or interface. -/
def TypeBody.fields : TypeBody → List FieldDefinition
  | .object _ fields | .interface _ fields => fields
  | _ => []

def TypeDefinition.WellNamed (definition : TypeDefinition) : Prop :=
  IsName definition.name ∧ ∀ field ∈ definition.body.fields, IsName field.name

theorem typeAfter_gives (keyword : String) (description : Option String) (brackets : Nat) :
    Gives (typeAfter keyword description brackets) TypeDefinition.WellNamed := by
  apply gives_bind name_gives
  intro name hname
  split
  · exact (directives_reads brackets).bind fun _ => gives_pure ⟨hname, nofun⟩
  · apply implemented_reads.bind
    intro interfaces
    apply (directives_reads brackets).bind
    intro directives
    apply gives_bind (braced?_gives brackets fieldDefinition_gives)
    intro fields hfields
    exact gives_pure ⟨hname, hfields⟩
  · apply implemented_reads.bind
    intro interfaces
    apply (directives_reads brackets).bind
    intro directives
    apply gives_bind (braced?_gives brackets fieldDefinition_gives)
    intro fields hfields
    exact gives_pure ⟨hname, hfields⟩
  · apply (directives_reads brackets).bind
    intro directives
    exact unionMembers_reads.bind fun _ => gives_pure ⟨hname, nofun⟩
  · apply (directives_reads brackets).bind
    intro directives
    exact (braced?_gives brackets enumValue_reads).reads.bind fun _ => gives_pure ⟨hname, nofun⟩
  · apply (directives_reads brackets).bind
    intro directives
    exact (braced?_gives brackets inputValue_reads).reads.bind fun _ => gives_pure ⟨hname, nofun⟩
  · exact gives_failure

theorem locationList_reads : Reads locationList := by
  apply reads_bind (namesBy_reads _)
  intro places
  split
  · exact reads_pure
  · exact reads_failure

theorem locations_reads : Reads locations := by
  apply reads_bind (accepts_reads _)
  intro accepted
  split
  · exact locationList_reads
  · apply reads_bind peek_reads
    intro next
    split
    · exact locationList_reads
    · exact reads_pure

theorem directiveAfter_reads (description : Option String) (brackets : Nat) :
    Reads (directiveAfter description brackets) := by
  apply reads_bind (expect_reads _)
  intro _
  apply reads_bind name_gives.reads
  intro name
  apply reads_bind (parenthesized_gives brackets inputValue_reads).reads
  intro arguments
  apply reads_bind (accepts_reads _)
  intro repeatable
  apply reads_bind (expect_reads _)
  intro _
  exact reads_bind locations_reads fun _ => reads_pure

theorem schemaAfter_reads (brackets : Nat) : Reads (schemaAfter brackets) := by
  apply reads_bind (directives_reads brackets)
  intro _
  cases brackets with
  | zero => exact reads_failure
  | succ brackets =>
    apply reads_bind (expect_reads _)
    intro _
    apply reads_bind (upTo_gives _ (named_reads name_gives.reads)).reads
    intro entries
    split
    · exact reads_pure
    · exact reads_failure

def TypeSystemDefinition.WellNamed : TypeSystemDefinition → Prop
  | .type definition | .extension definition => definition.WellNamed
  | .schema _ | .directive _ => True

theorem typeSystemDefinition_gives (brackets : Nat) :
    Gives (typeSystemDefinition brackets) TypeSystemDefinition.WellNamed := by
  apply text?_reads.bind
  intro description
  split
  · apply name_gives.reads.bind
    intro keyword
    split
    · exact (directiveAfter_reads _ brackets).bind fun _ => gives_pure trivial
    · exact gives_bind (typeAfter_gives _ _ brackets) fun definition hdefinition => gives_pure hdefinition
  · apply name_gives.reads.bind
    intro keyword
    split
    · exact (schemaAfter_reads brackets).bind fun _ => gives_pure trivial
    · exact (directiveAfter_reads _ brackets).bind fun _ => gives_pure trivial
    · apply name_gives.reads.bind
      intro kind
      apply gives_bind (typeAfter_gives _ _ brackets)
      intro definition hdefinition
      split
      · exact gives_pure hdefinition
      · exact gives_failure
    · exact gives_bind (typeAfter_gives _ _ brackets) fun definition hdefinition => gives_pure hdefinition

/-- The types that a text defines or extends, and their fields, have names of letters, digits and underscores. -/
theorem parse?_names {text : String} {document : TypeSystemDocument}
    (hparse : TypeSystemDocument.parse? text = some document) : ∀ item ∈ document, item.WellNamed := by
  unfold TypeSystemDocument.parse? readAll at hparse
  obtain ⟨tokens, htokens, hparse⟩ := Option.bind_eq_some_iff.1 hparse
  obtain ⟨⟨items, rest⟩, hitems, hparse⟩ := Option.bind_eq_some_iff.1 hparse
  dsimp only at hparse
  split at hparse
  · cases hparse
  · cases hparse
    exact (many_gives _ (typeSystemDefinition_gives _) tokens _ rest (scan_lexed htokens) hitems).1

end RelationalGraphQL.Document
