import RelationalGraphQL.Sql.Operator

/-!
Conditions on a row. Operands are parameters, given by their position, so no value is part of a condition.
-/

namespace RelationalGraphQL.Sql

/-- A condition on columns of a type that says how they are named. -/
inductive Condition (κ : Type) where
  | isNull (column : κ)
  | isNotNull (column : κ)
  | compare (column : κ) (operator : BinaryOperator) (parameter : Nat)
  /-- The column is an element of the parameter's list. -/
  | anyOf (column : κ) (parameter : Nat)
  /-- The column differs from every element of the parameter's list. -/
  | noneOf (column : κ) (parameter : Nat)
  /-- Some branch holds; all conditions of a branch hold together. -/
  | disjunction (branches : List (List (Condition κ)))
  /-- The conditions do not all hold. -/
  | negation (conditions : List (Condition κ))

namespace Condition

variable {κ : Type} (column : κ → String) (placeholder : Nat → String)

mutual

/-- The text of a condition. A disjunction is in parentheses, and the negation of no condition negates truth. -/
def text : Condition κ → String
  | .isNull c => column c ++ " " ++ UnaryOperator.isNull.keyword
  | .isNotNull c => column c ++ " " ++ UnaryOperator.isNotNull.keyword
  | .compare c operator parameter => column c ++ " " ++ operator.symbol ++ " " ++ placeholder parameter
  | .anyOf c parameter => column c ++ " = ANY(" ++ placeholder parameter ++ ")"
  | .noneOf c parameter => column c ++ " <> ALL(" ++ placeholder parameter ++ ")"
  | .disjunction branches => "(" ++ " OR ".intercalate (branchTexts branches) ++ ")"
  | .negation [] => "NOT (TRUE)"
  | .negation (condition :: conditions) =>
    "NOT (" ++ " AND ".intercalate (text condition :: texts conditions) ++ ")"

def texts : List (Condition κ) → List String
  | [] => []
  | condition :: conditions => text condition :: texts conditions

def branchTexts : List (List (Condition κ)) → List String
  | [] => []
  | branch :: branches => " AND ".intercalate (texts branch) :: branchTexts branches

end

def conjunctionText (conditions : List (Condition κ)) : String :=
  " AND ".intercalate (texts column placeholder conditions)

end Condition

end RelationalGraphQL.Sql
