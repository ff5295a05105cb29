import RelationalGraphQL.Proofs.Arguments.Acceptance
import RelationalGraphQL.Proofs.Binary64
import RelationalGraphQL.Proofs.Document.Scanning
import RelationalGraphQL.Scalar

/-!
# Coercion of scalars

A coercion that succeeds gives a value of its kind, which it leaves as it is when it is applied again; an integer that it
makes of a number is that number. There is one exception (`coerce_delivers_iff`): a text that stands for no number, or for
one beyond the doubles, is taken for a floating-point number and becomes null.
-/

namespace RelationalGraphQL

open Arguments (except_bind_eq_ok)
open Json (digitsValue readExponent)

/-- The number that a JSON number stands for. -/
def Number.value : Number → ℚ
  | .int value => value
  | .float value => value.value

namespace Scalar

variable {text : List Char} {exponent n : Int} {negative : Bool}

/-! ### Decimal numbers as they are written -/

/-- One or more digits. -/
def Digits (text : List Char) : Prop := text ≠ [] ∧ ∀ c ∈ text, c.isDigit

/-- An integer: digits with an optional sign. -/
inductive SignedDigits : List Char → Int → Prop where
  | plain {digits : List Char} (hdigits : Digits digits) : SignedDigits digits (digitsValue digits)
  | plus {digits : List Char} (hdigits : Digits digits) : SignedDigits ('+' :: digits) (digitsValue digits)
  | minus {digits : List Char} (hdigits : Digits digits) : SignedDigits ('-' :: digits) (-digitsValue digits)

/-- The end of a number: nothing, or a mark and an exponent. -/
inductive Exponent : List Char → Int → Prop where
  | absent : Exponent [] 0
  | marked {mark : Char} {text : List Char} {exponent : Int} (hmark : mark = 'e' ∨ mark = 'E')
      (hexponent : SignedDigits text exponent) : Exponent (mark :: text) exponent

/-- The middle of a number: nothing, or a point and digits, of which there may be none. -/
inductive Fraction : List Char → List Char → Prop where
  | absent : Fraction [] []
  | pointed {digits : List Char} (hdigits : ∀ c ∈ digits, c.isDigit) : Fraction ('.' :: digits) digits

/-- A decimal number without a sign: its digits, which may be on either side of the point, and its power of ten. -/
inductive Numeral : List Char → Nat → Int → Prop where
  | mk {whole middle fraction last : List Char} {exponent : Int} (hwhole : ∀ c ∈ whole, c.isDigit)
      (hfraction : Fraction middle fraction) (hexponent : Exponent last exponent) (hdigits : whole ++ fraction ≠ []) :
      Numeral (whole ++ (middle ++ last)) (digitsValue (whole ++ fraction)) (exponent - fraction.length)

theorem takeWhile_eq_self (hall : ∀ c ∈ text, c.isDigit) : text.takeWhile Char.isDigit = text :=
  List.takeWhile_eq_self_iff.2 hall

theorem ne_sign_of_isDigit {c : Char} (hc : c.isDigit) : c ≠ '+' ∧ c ≠ '-' := by
  constructor
  · rintro rfl
    exact absurd hc (by decide)
  · rintro rfl
    exact absurd hc (by decide)

theorem readExponent_eq_some : readExponent text = some (exponent, []) ↔ SignedDigits text exponent := by
  have hread (negative : Bool) (body : List Char) :
      (if (body.takeWhile Char.isDigit).isEmpty then none
        else some (if negative then -(digitsValue (body.takeWhile Char.isDigit) : Int)
          else digitsValue (body.takeWhile Char.isDigit), body.dropWhile Char.isDigit)) = some (exponent, []) ↔
        Digits body ∧ exponent = if negative then -(digitsValue body : Int) else digitsValue body := by
    constructor
    · intro hsome
      obtain ⟨hempty, hsome⟩ := Option.ite_none_left_eq_some.1 hsome
      obtain ⟨hvalue, hall⟩ := Prod.mk.inj (Option.some.inj hsome)
      rw [List.dropWhile_eq_nil_iff] at hall
      rw [takeWhile_eq_self hall] at hempty hvalue
      exact ⟨⟨fun hnil => hempty (by rw [hnil]; rfl), hall⟩, hvalue.symm⟩
    · rintro ⟨⟨hne, hall⟩, rfl⟩
      rw [takeWhile_eq_self hall, List.dropWhile_eq_nil_iff.2 hall, if_neg (by simpa using hne)]
  constructor
  · intro hsome
    unfold readExponent at hsome
    split at hsome
    rename_i negative body hsign
    obtain ⟨hdigits, rfl⟩ := (hread negative body).1 hsome
    split at hsign
    · cases hsign
      exact .minus hdigits
    · cases hsign
      exact .plus hdigits
    · cases hsign
      exact .plain hdigits
  · intro hsigned
    cases hsigned with
    | plain hdigits =>
      obtain ⟨c, rest, rfl⟩ := List.exists_cons_of_ne_nil hdigits.1
      obtain ⟨hplus, hminus⟩ := ne_sign_of_isDigit (hdigits.2 c List.mem_cons_self)
      unfold readExponent
      split
      rename_i hsign
      split at hsign
      · rename_i hcons
        exact absurd (List.cons.inj hcons).1 hminus
      · rename_i hcons
        exact absurd (List.cons.inj hcons).1 hplus
      · cases hsign
        exact (hread false _).2 ⟨hdigits, rfl⟩
    | plus hdigits => exact (hread false _).2 ⟨hdigits, rfl⟩
    | minus hdigits => exact (hread true _).2 ⟨hdigits, rfl⟩

def cutFraction (text : List Char) : List Char × List Char :=
  match text with
  | '.' :: rest => (rest.takeWhile Char.isDigit, rest.dropWhile Char.isDigit)
  | _ => ([], text)

def cutExponent (text : List Char) : Option (Int × List Char) :=
  match text with
  | 'e' :: rest | 'E' :: rest => readExponent rest
  | _ => some (0, text)

theorem readMagnitude_eq (negative : Bool) (text : List Char) :
    readMagnitude negative text =
      let whole := text.takeWhile Char.isDigit
      let (fraction, rest) := cutFraction (text.dropWhile Char.isDigit)
      match cutExponent rest with
      | some (exponent, []) =>
        if whole.isEmpty && fraction.isEmpty then .error .invalidFloat
        else .ok (Binary64.ofDecimal negative (digitsValue (whole ++ fraction)) (exponent - fraction.length))
      | _ => .error .invalidFloat := rfl

theorem cutExponent_eq_some : cutExponent text = some (exponent, []) ↔ Exponent text exponent := by
  constructor
  · intro hsome
    unfold cutExponent at hsome
    split at hsome
    · exact .marked (.inl rfl) (readExponent_eq_some.1 hsome)
    · exact .marked (.inr rfl) (readExponent_eq_some.1 hsome)
    · cases hsome
      exact .absent
  · intro hexponent
    cases hexponent with
    | absent => rfl
    | marked hmark hexponent => rcases hmark with rfl | rfl <;> exact readExponent_eq_some.2 hexponent

theorem exists_cutFraction (text : List Char) :
    ∃ middle, text = middle ++ (cutFraction text).2 ∧ Fraction middle (cutFraction text).1 := by
  unfold cutFraction
  split
  · rename_i rest
    exact ⟨'.' :: rest.takeWhile Char.isDigit, congrArg _ List.takeWhile_append_dropWhile.symm,
      .pointed fun _ hmem => List.mem_takeWhile_imp hmem⟩
  · exact ⟨[], rfl, .absent⟩

theorem Exponent.head (hexponent : Exponent text exponent) : ∀ c ∈ text.head?, c.isDigit = false ∧ c ≠ '.' := by
  cases hexponent with
  | absent => simp
  | marked hmark _ => rcases hmark with rfl | rfl <;> simp

theorem cutFraction_append {middle fraction last : List Char} (hfraction : Fraction middle fraction)
    (hexponent : Exponent last exponent) : cutFraction (middle ++ last) = (fraction, last) := by
  cases hfraction with
  | absent =>
    unfold cutFraction
    split
    · rename_i htext
      rw [List.nil_append] at htext
      exact absurd rfl (hexponent.head '.' (by rw [htext]; rfl)).2
    · rfl
  | pointed hdigits =>
    obtain ⟨htaken, hleft⟩ := Document.takeWhile_run hdigits fun c hc => (hexponent.head c hc).1
    exact Prod.ext htaken hleft

/-- What reads as a decimal number is one, and it is rounded once. -/
theorem readMagnitude_eq_ok {double? : Option Binary64} :
    readMagnitude negative text = .ok double? ↔
      ∃ digits exponent, Numeral text digits exponent ∧ Binary64.ofDecimal negative digits exponent = double? := by
  rw [readMagnitude_eq]
  constructor
  · intro hok
    obtain ⟨middle, hmiddle, hfraction⟩ := exists_cutFraction (text.dropWhile Char.isDigit)
    have htext : text = text.takeWhile Char.isDigit ++ (middle ++ (cutFraction (text.dropWhile Char.isDigit)).2) := by
      rw [← hmiddle, List.takeWhile_append_dropWhile]
    have hwhole : ∀ c ∈ text.takeWhile Char.isDigit, c.isDigit := fun _ hmem => List.mem_takeWhile_imp hmem
    generalize text.takeWhile Char.isDigit = whole at *
    generalize cutFraction (text.dropWhile Char.isDigit) = cut at *
    obtain ⟨fraction, last⟩ := cut
    dsimp only at *
    split at hok
    · rename_i exponent hexponent
      split at hok
      · cases hok
      · rename_i hdigits
        refine ⟨_, _, ?_, Except.ok.inj hok⟩
        rw [htext]
        exact ⟨hwhole, hfraction, cutExponent_eq_some.1 hexponent, by simpa using hdigits⟩
    · cases hok
  · rintro ⟨_, _, hnumeral, rfl⟩
    cases hnumeral with
    | mk hwhole hfraction hexponent hdigits =>
      rename_i whole middle fraction last exponent
      have hhead : ∀ c ∈ (middle ++ last).head?, c.isDigit = false := by
        cases hfraction with
        | absent => exact fun c hc => (hexponent.head c hc).1
        | pointed _ => simp
      obtain ⟨htaken, hleft⟩ := Document.takeWhile_run hwhole hhead
      have hsome : ¬ (whole.isEmpty && fraction.isEmpty) := by simpa using hdigits
      rw [htaken, hleft, cutFraction_append hfraction hexponent]
      dsimp only
      rw [cutExponent_eq_some.2 hexponent]
      dsimp only
      rw [if_neg hsome]

/-! ### Numbers beyond the doubles -/

/-- Whether an optional sign is a minus, and the text after it. -/
def cutSign (text : List Char) : Bool × List Char :=
  match text with
  | '-' :: rest => (true, rest)
  | '+' :: rest => (false, rest)
  | _ => (false, text)

/-- A number without its sign that has no nearest double: a word for one that is not finite, or a decimal too large. -/
def Beyond (text : List Char) : Prop :=
  String.ofList (text.map Char.toLower) ∈ ["inf", "infinity", "nan"] ∨
    ∃ digits exponent, Numeral text digits exponent ∧ Binary64.overflow ≤ digits * 10 ^ exponent

theorem isNonFinite_iff : isNonFinite text ↔ String.ofList (text.map Char.toLower) ∈ ["inf", "infinity", "nan"] := by
  simp [isNonFinite, or_assoc]

theorem readMagnitude_eq_none :
    readMagnitude negative text = .ok none ↔
      ∃ digits exponent, Numeral text digits exponent ∧ Binary64.overflow ≤ digits * 10 ^ exponent := by
  simp only [readMagnitude_eq_ok, Binary64.ofDecimal_eq_none]

theorem readFloat_eq (text : List Char) :
    readFloat text =
      let (negative, body) := cutSign text
      if text.isEmpty then .error .emptyFloat
      else if isNonFinite body then .ok none
      else readMagnitude negative body := rfl

theorem readFloat_eq_none : readFloat text = .ok none ↔ Beyond (cutSign text).2 := by
  have hread (negative : Bool) (body : List Char) :
      (if isNonFinite body then .ok none else readMagnitude negative body) = .ok none ↔ Beyond body := by
    unfold Beyond
    rw [← isNonFinite_iff]
    by_cases hword : isNonFinite body
    · simp [hword]
    · simp [hword, readMagnitude_eq_none]
  cases text with
  | nil =>
    apply iff_of_false
    · simp [readFloat]
    · exact (hread false []).not.1 (by decide)
  | cons c rest =>
    rw [readFloat_eq]
    dsimp only
    rw [if_neg (by simp), hread]

/-! ### Values of a kind -/

/-- The values that a kind stands for. -/
def OfKind : ScalarKind → Json → Prop
  | .string, .str _ => True
  | .int, .num (.int n) => Int64.Within n
  | .float, .num (.float _) => True
  | .boolean, .bool _ => True
  | .json, _ => True
  | _, _ => False

theorem readDigits_within {value : Int} (hvalue : Int64.Within value) (hread : readDigits negative value text = .ok n) :
    Int64.Within n := by
  induction text generalizing value with
  | nil => exact Except.ok.inj hread ▸ hvalue
  | cons c rest ih =>
    unfold readDigits at hread
    dsimp only at hread
    generalize (if negative then _ else _ : Int) = next at hread
    split at hread
    · cases hread
    · split at hread
      · cases hread
      · split at hread
        · cases hread
        · exact ih (by unfold Int64.Within; omega) hread

theorem readInteger_within (hread : readInteger text = .ok n) : Int64.Within n := by
  have hzero : Int64.Within 0 := by decide
  unfold readInteger at hread
  split at hread
  · cases hread
  · cases hread
  · cases hread
  · exact readDigits_within hzero hread
  · exact readDigits_within hzero hread
  · exact readDigits_within hzero hread

/-- A text taken for a floating-point number, which stands for none that there is a double for. -/
def LosesNumber (kind : ScalarKind) (value : Json) : Prop :=
  kind = .float ∧ ∃ text, value = .str text ∧ Beyond (cutSign (Text.trim text.toList)).2

section

variable {value result : Json}

theorem coerce_string (hresult : coerce .string value = .ok result) : ∃ text, result = .str text := by
  cases value with
  | str text => exact ⟨text, (Except.ok.inj hresult).symm⟩
  | num number => exact ⟨_, (Except.ok.inj hresult).symm⟩
  | bool truth => exact ⟨_, (Except.ok.inj hresult).symm⟩
  | _ => cases hresult

theorem coerce_boolean (hresult : coerce .boolean value = .ok result) : ∃ truth, result = .bool truth := by
  cases value with
  | bool truth => exact ⟨truth, (Except.ok.inj hresult).symm⟩
  | str text =>
    unfold coerce at hresult
    dsimp only at hresult
    split at hresult
    · exact ⟨true, (Except.ok.inj hresult).symm⟩
    · exact ⟨false, (Except.ok.inj hresult).symm⟩
    · cases hresult
  | _ => cases hresult

theorem integerOf_eq_ok {number : Number} (hleast : ∀ n, number = .int n → -Int64.bound ≤ n)
    (hresult : integerOf number = .ok result) :
    ∃ n, Int64.Within n ∧ result = .num (.int n) ∧ number.value = n := by
  cases number with
  | int n =>
    unfold integerOf at hresult
    dsimp only at hresult
    split at hresult
    · rename_i hmost
      exact ⟨n, ⟨hleast n rfl, hmost⟩, (Except.ok.inj hresult).symm, rfl⟩
    · cases hresult
  | float x =>
    unfold integerOf at hresult
    dsimp only at hresult
    split at hresult
    · rename_i n hint
      split at hresult
      · rename_i hwithin
        exact ⟨n, ⟨hwithin.1.le, hwithin.2⟩, (Except.ok.inj hresult).symm, Binary64.value_of_toInt? hint⟩
      · cases hresult
    · cases hresult

theorem coerce_int (hleast : ∀ n, value = .num (.int n) → -Int64.bound ≤ n) (hresult : coerce .int value = .ok result) :
    ∃ n, Int64.Within n ∧ result = .num (.int n) ∧ ∀ number, value = .num number → number.value = n := by
  cases value with
  | num number =>
    obtain ⟨n, hwithin, hint, hvalue⟩ := integerOf_eq_ok (fun n hn => hleast n (congrArg Json.num hn)) hresult
    exact ⟨n, hwithin, hint, fun other hother => Json.num.inj hother ▸ hvalue⟩
  | str text =>
    obtain ⟨n, hread, hint⟩ := except_bind_eq_ok.1 hresult
    exact ⟨n, readInteger_within hread, (Except.ok.inj hint).symm, fun _ hother => by cases hother⟩
  | _ => cases hresult

theorem coerce_float (hrange : ∀ n, value = .num (.int n) → -Int64.bound ≤ n ∧ n < UInt64.bound)
    (hresult : coerce .float value = .ok result) :
    LosesNumber .float value ∧ result = .null ∨ ¬ LosesNumber .float value ∧ ∃ x, result = .num (.float x) := by
  have hnumber {number : Number} : ¬ LosesNumber .float (.num number) := by
    rintro ⟨-, text, htext, -⟩
    cases htext
  cases value with
  | num number =>
    refine .inr ⟨hnumber, ?_⟩
    rw [← Except.ok.inj hresult]
    cases number with
    | int n =>
      obtain ⟨x, hx⟩ := Option.ne_none_iff_exists'.1 (Binary64.ofInt_ne_none (hrange n rfl).1 (hrange n rfl).2)
      exact ⟨x, congrArg Json.ofDouble? hx⟩
    | float x => exact ⟨x, rfl⟩
  | str text =>
    obtain ⟨double?, hread, hdouble⟩ := except_bind_eq_ok.1 hresult
    rw [← Except.ok.inj hdouble]
    cases double? with
    | none => exact .inl ⟨⟨rfl, text, rfl, readFloat_eq_none.1 hread⟩, rfl⟩
    | some x =>
      refine .inr ⟨?_, x, rfl⟩
      rintro ⟨-, other, hother, hbeyond⟩
      obtain rfl := Json.str.inj hother
      rw [readFloat_eq_none.2 hbeyond] at hread
      cases hread
  | _ => cases hresult

end

/-- What a coercion is to give: a value of its kind, the same number where it makes an integer of one, and a value that
it leaves as it is. -/
structure Delivers (kind : ScalarKind) (value result : Json) : Prop where
  ofKind : OfKind kind result
  same : kind = .int → ∀ number, value = .num number → ∃ n, result = .num (.int n) ∧ number.value = n
  again : coerce kind result = .ok result

/-- A coercion that succeeds delivers its kind unless it is given a text for a floating-point number that there is no
double for; that, and nothing else, becomes null. -/
theorem coerce_delivers_iff {kind : ScalarKind} {value result : Json} (hkind : kind ≠ .json)
    (hrange : ∀ n, value = .num (.int n) → -Int64.bound ≤ n ∧ n < UInt64.bound)
    (hresult : coerce kind value = .ok result) :
    (Delivers kind value result ↔ ¬ LosesNumber kind value) ∧ (result = .null ↔ LosesNumber kind value) := by
  have hkeeps (hdelivers : Delivers kind value result) (hsome : result ≠ .null) (hkept : ¬ LosesNumber kind value) :
      (Delivers kind value result ↔ ¬ LosesNumber kind value) ∧ (result = .null ↔ LosesNumber kind value) :=
    ⟨iff_of_true hdelivers hkept, iff_of_false hsome hkept⟩
  cases kind with
  | string =>
    obtain ⟨text, rfl⟩ := coerce_string hresult
    apply hkeeps ⟨trivial, fun hint => absurd hint (by decide), rfl⟩ (by simp)
    exact fun hloses => absurd hloses.1 (by decide)
  | int =>
    obtain ⟨n, hwithin, rfl, hsame⟩ := coerce_int (fun n hn => (hrange n hn).1) hresult
    have hagain : coerce .int (.num (.int n)) = .ok (.num (.int n)) := if_pos hwithin.2
    apply hkeeps ⟨hwithin, fun _ number hnumber => ⟨n, rfl, hsame number hnumber⟩, hagain⟩ (by simp)
    exact fun hloses => absurd hloses.1 (by decide)
  | float =>
    rcases coerce_float hrange hresult with ⟨hloses, rfl⟩ | ⟨hkept, x, rfl⟩
    · exact ⟨iff_of_false (fun hdelivers => hdelivers.ofKind) (not_not_intro hloses), iff_of_true rfl hloses⟩
    · exact hkeeps ⟨trivial, fun hint => absurd hint (by decide), rfl⟩ (by simp) hkept
  | boolean =>
    obtain ⟨truth, rfl⟩ := coerce_boolean hresult
    apply hkeeps ⟨trivial, fun hint => absurd hint (by decide), rfl⟩ (by simp)
    exact fun hloses => absurd hloses.1 (by decide)
  | json => exact absurd rfl hkind

/-- A double without a fraction gives the integer; a decimal past the doubles gives null. -/
theorem coerce_delivers_iff_large :
    Delivers .int (.num (.float ⟨true, twoPow 52, 1, by decide⟩)) (.num (.int (-9007199254740992))) ∧
      coerce .float (.str " -1.8e308\t") = .ok .null ∧ ¬ Delivers .float (.str " -1.8e308\t") .null := by
  have hwhole := coerce_delivers_iff (by decide : ScalarKind.int ≠ .json) (fun n hn => by cases hn)
    (show coerce .int (.num (.float ⟨true, twoPow 52, 1, by decide⟩)) = .ok (.num (.int (-9007199254740992))) by
      decide +kernel)
  have hnull : coerce .float (.str " -1.8e308\t") = .ok .null := by decide +kernel
  have hlarge := coerce_delivers_iff (by decide) (fun n hn => by cases hn) hnull
  refine ⟨hwhole.1.2 fun hloses => absurd hloses.1 (by decide), hnull, fun hdelivers => ?_⟩
  exact hlarge.1.1 hdelivers (hlarge.2.1 rfl)

/-- The word for infinity is taken for a number and becomes null. -/
theorem coerce_infinity_null :
    ¬ ∀ (kind : ScalarKind) (value result : Json), kind ≠ .json →
      (∀ n, value = .num (.int n) → -Int64.bound ≤ n ∧ n < UInt64.bound) → coerce kind value = .ok result →
        Delivers kind value result := by
  intro hdelivers
  have hnull : coerce .float (.str "inf") = .ok .null := by decide +kernel
  exact (hdelivers .float (.str "inf") .null (by decide) (fun n hn => by cases hn) hnull).ofKind

end Scalar

end RelationalGraphQL
