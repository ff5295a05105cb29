import RelationalGraphQL.Sql.Statement

/-!
What can go wrong, layer by layer. Every error has a text for people and a code for programs.
-/

namespace RelationalGraphQL

inductive SchemaError where
  | parse (message : String)
  | duplicateType (name : String)
  | unknownType (name referencedBy : String)
  | invalidDirective (location message : String)
  deriving DecidableEq, Repr

/-- A request whose document or operation cannot be used. -/
inductive QueryError where
  | parse (message : String)
  | noOperation
  | operationNameRequired (count : Nat)
  | unknownOperation (name : String)
  | unsupportedOperation (kind : String)
  | missingRootType (kind : String)
  deriving DecidableEq, Repr

/-- The failure of one field. -/
inductive ExecutionError where
  | resolver (message : String)
  | unknownField (typeName field : String)
  | timeout
  | cancelled
  | scalar (name message : String)
  deriving DecidableEq, Repr

inductive ConversionError where
  | missingReturnType (field : String)
  | unknownType (name : String)
  | unsupported (dialect capability : String)
  | invalidArgument (argument message : String)
  | invalidInput (message : String)
  | invalidStatement (findings : List Sql.Finding)
  deriving DecidableEq, Repr

/-- A rule that a configuration breaks, at a dotted path. -/
structure Problem where
  path : String
  code : String
  message : String
  deriving DecidableEq, Repr

inductive ConfigError where
  | file (path message : String)
  | yaml (message : String)
  | invalid (problems : List Problem)
  | invalidKey (part key message : String)
  | unsupportedDialect (name : String)
  deriving DecidableEq, Repr

namespace SchemaError

def message : SchemaError → String
  | .parse message => "schema parse error: " ++ message
  | .duplicateType name => "type '" ++ name ++ "' is defined more than once"
  | .unknownType name referencedBy => "type '" ++ name ++ "' referenced by " ++ referencedBy ++ " is not defined"
  | .invalidDirective location message => "invalid directive on " ++ location ++ ": " ++ message

def code : SchemaError → String
  | .parse _ => "SCHEMA_PARSE_ERROR"
  | .duplicateType _ => "SCHEMA_DUPLICATE_TYPE"
  | .unknownType _ _ => "SCHEMA_UNKNOWN_TYPE"
  | .invalidDirective _ _ => "SCHEMA_INVALID_DIRECTIVE"

end SchemaError

namespace QueryError

def message : QueryError → String
  | .parse message => "query parse error: " ++ message
  | .noOperation => "document does not contain any operation"
  | .operationNameRequired count =>
    "document contains " ++ toString count ++ " operations, an operation name is required"
  | .unknownOperation name => "unknown operation named '" ++ name ++ "'"
  | .unsupportedOperation kind => kind ++ " operations are not supported"
  | .missingRootType kind => "schema does not define a " ++ kind ++ " root type"

def code : QueryError → String
  | .parse _ => "GRAPHQL_PARSE_FAILED"
  | .noOperation | .operationNameRequired _ | .unknownOperation _ => "GRAPHQL_INVALID_OPERATION"
  | .unsupportedOperation _ => "GRAPHQL_UNSUPPORTED_OPERATION"
  | .missingRootType _ => "GRAPHQL_VALIDATION_FAILED"

end QueryError

namespace ExecutionError

def message : ExecutionError → String
  | .resolver message => message
  | .unknownField typeName field => "Cannot query field \"" ++ field ++ "\" on type \"" ++ typeName ++ "\""
  | .timeout => "operation timed out before field could be resolved"
  | .cancelled => "operation was cancelled"
  | .scalar name message => "failed to serialize scalar " ++ name ++ ": " ++ message

def code : ExecutionError → String
  | .resolver _ => "RESOLVER_ERROR"
  | .unknownField _ _ => "GRAPHQL_VALIDATION_FAILED"
  | .timeout => "TIMEOUT"
  | .cancelled => "CANCELLED"
  | .scalar _ _ => "SCALAR_SERIALIZATION_ERROR"

end ExecutionError

namespace ConversionError

def findingText (finding : Sql.Finding) : String := finding.field ++ ": " ++ finding.message

def message : ConversionError → String
  | .missingReturnType field => "resolve info for field '" ++ field ++ "' has no return type"
  | .unknownType name => "unknown GraphQL type '" ++ name ++ "'"
  | .unsupported dialect capability => "dialect '" ++ dialect ++ "' does not support " ++ capability
  | .invalidArgument argument message => "invalid argument '" ++ argument ++ "': " ++ message
  | .invalidInput message => "invalid input: " ++ message
  | .invalidStatement findings => "generated SQL failed validation: " ++ "; ".intercalate (findings.map findingText)

def code : ConversionError → String
  | .missingReturnType _ => "CONVERSION_MISSING_RETURN_TYPE"
  | .unknownType _ => "CONVERSION_UNKNOWN_TYPE"
  | .unsupported _ _ => "CONVERSION_UNSUPPORTED"
  | .invalidArgument _ _ => "CONVERSION_INVALID_ARGUMENT"
  | .invalidInput _ => "CONVERSION_INVALID_INPUT"
  | .invalidStatement _ => "SQL_VALIDATION_FAILED"

end ConversionError

namespace ConfigError

def problemText (problem : Problem) : String := problem.path ++ ": " ++ problem.message

def message : ConfigError → String
  | .file path message => "failed to read config file '" ++ path ++ "': " ++ message
  | .yaml message => "failed to parse config: " ++ message
  | .invalid problems => "Validation error: " ++ "\n".intercalate (problems.map problemText)
  | .invalidKey part key message => "invalid key '" ++ key ++ "' in " ++ part ++ ": " ++ message
  | .unsupportedDialect name => "unsupported SQL dialect '" ++ name ++ "'"

def code (_ : ConfigError) : String := "CONFIG_ERROR"

end ConfigError

inductive Error where
  | schema (error : SchemaError)
  | query (error : QueryError)
  | execution (error : ExecutionError)
  | conversion (error : ConversionError)
  | config (error : ConfigError)
  deriving DecidableEq, Repr

namespace Error

def message : Error → String
  | .schema e => e.message
  | .query e => e.message
  | .execution e => e.message
  | .conversion e => e.message
  | .config e => e.message

def code : Error → String
  | .schema e => e.code
  | .query e => e.code
  | .execution e => e.code
  | .conversion e => e.code
  | .config e => e.code

end Error

end RelationalGraphQL
