import RelationalGraphQL.Document.Token
import RelationalGraphQL.Error
import RelationalGraphQL.Json.Basic
import RelationalGraphQL.Response.Path

/-!
Requests and responses as they are exchanged with a client.
-/

namespace RelationalGraphQL

/-- An entry of a response's error list. -/
structure ResponseError where
  message : String
  locations : List Document.Position := []
  path : Option Path := none
  extensions : Option (List (String × Json)) := none

namespace ResponseError

/-- Sets the code among the entry's extensions. -/
def withCode (code : String) (error : ResponseError) : ResponseError :=
  { error with extensions := some (Table.insert "code" (.str code) (error.extensions.getD [])) }

def withLocation (location : Document.Position) (error : ResponseError) : ResponseError :=
  { error with locations := error.locations ++ [location] }

def withPath (path : Path) (error : ResponseError) : ResponseError := { error with path := some path }

def ofField (error : ExecutionError) (path : Path) (location : Document.Position) : ResponseError :=
  { message := error.message, locations := [location], path := some path,
    extensions := some [("code", .str error.code)] }

def ofQuery (error : QueryError) : ResponseError :=
  { message := error.message, extensions := some [("code", .str error.code)] }

end ResponseError

/-- A response. There is no data where nothing was executed. -/
structure Response where
  data : Option Json := none
  errors : List ResponseError := []
  extensions : List (String × Json) := []

def Response.isOk (response : Response) : Bool := response.errors.isEmpty

/-- A request as a client sends it, and the value that root fields are resolved on. -/
structure Request where
  query : String
  operationName : Option String := none
  variableValues : List (String × Json) := []
  extensions : List (String × Json) := []
  rootValue : Json := .null

end RelationalGraphQL
