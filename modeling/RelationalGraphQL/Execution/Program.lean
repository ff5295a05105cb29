import RelationalGraphQL.Loader.Basic
import RelationalGraphQL.Json.Basic

/-!
Programs: what resolvers and middleware do, step by step. A step is an action on the surroundings, and the program
goes on with the action's answer.
-/

namespace RelationalGraphQL.Execution

/-- Whether the request was cancelled, whether its deadline has passed, and whether it has one. -/
structure Status where
  cancelled : Bool
  expired : Bool
  limited : Bool
  deriving DecidableEq, Repr

inductive Action where
  /-- Let some time pass. -/
  | wait (duration : Nat)
  /-- Cancel the request. -/
  | cancel
  /-- Write down a value. -/
  | log (value : Json)
  /-- Keep a value for the rest of the request. -/
  | keep (value : Json)
  /-- The value kept last. -/
  | recall
  | status
  /-- Load keys with a named loader, all at once. -/
  | load (loader : String) (keys : List String)

/-- What an action answers. A loader that does not exist loads nothing. -/
@[reducible] def Action.Answer : Action → Type
  | .wait _ | .cancel | .log _ | .keep _ => Unit
  | .recall => Option Json
  | .status => Status
  | .load _ _ => Option (List (Except Loader.LoadError Json))

inductive Program (α : Type) where
  | done (result : α)
  | act (action : Action) (next : action.Answer → Program α)

namespace Program

def bind {α β : Type} : Program α → (α → Program β) → Program β
  | .done result, f => f result
  | .act action next, f => .act action fun answer => (next answer).bind f

instance : Monad Program where
  pure := .done
  bind := bind

def perform (action : Action) : Program action.Answer := .act action .done

end Program

end RelationalGraphQL.Execution
