import SpecServer.Json.Path
set_option autoImplicit false

/-!
The rules that the validator holds a specification to: property names of definitions are in camel case, and
every operation has an id. A rule skips what has another shape than it expects.
-/

namespace SpecServer

inductive Rule where
  | propertyNames
  | operationId
deriving DecidableEq, Repr

def Rule.id : Rule → String
  | propertyNames => "R3016"
  | operationId => "R1001"

def Rule.name : Rule → String
  | propertyNames => "DefinitionsPropertiesNamesCamelCase"
  | operationId => "OperationIdRequired"

structure Violation where
  rule : Rule
  message : String
  path : Path
deriving DecidableEq, Repr

namespace Rule

def isLower (c : Char) : Bool :=
  'a' ≤ c && c ≤ 'z'

def isAlphanumeric (c : Char) : Bool :=
  isLower c || ('A' ≤ c && c ≤ 'Z') || ('0' ≤ c && c ≤ '9')

def isCamelCase (name : String) : Bool :=
  match name.toList with
  | [] => false
  | c :: rest => isLower c && rest.all isAlphanumeric

/-- The fields of a field of an object, as far as both are objects. -/
def fieldsOf (node : Json) (key : String) : Entries String Json :=
  ((node.field? key).bind Json.asObject?).getD []

def propertyViolation (definition property : String) : Violation :=
  { rule := propertyNames
    message := "Property named '" ++ property ++ "' of '" ++ definition ++ "' must follow camelCase style."
    path := Path.ofKeys ["definitions", definition, "properties", property] }

def propertyViolations (document : Json) : List Violation :=
  (fieldsOf document "definitions").flatMap fun definition =>
    ((fieldsOf definition.2 "properties").filter fun property => !isCamelCase property.1).map fun property =>
      propertyViolation definition.1 property.1

/-- A method of an operation, as documents and as messages spell it. -/
structure Method where
  field : String
  title : String
deriving DecidableEq, Repr

/-- The methods whose operations need an id, in the order of the findings. -/
def methods : List Method :=
  [⟨"get", "GET"⟩, ⟨"put", "PUT"⟩, ⟨"post", "POST"⟩, ⟨"patch", "PATCH"⟩, ⟨"delete", "DELETE"⟩, ⟨"head", "HEAD"⟩,
    ⟨"options", "OPTIONS"⟩]

def hasOperationId (operation : Json) : Bool :=
  ((operation.field? "operationId").bind Json.asString?).isSome

def operationViolation (path : String) (method : Method) : Violation :=
  { rule := operationId
    message := "Operation '" ++ method.title ++ " " ++ path ++ "' has no operationId."
    path := Path.ofKeys ["paths", path, method.field] }

/-- Whether a path item has an operation without an id under a method. -/
def lacksOperationId (item : Json) (method : Method) : Bool :=
  match item.field? method.field with
  | some operation => !hasOperationId operation
  | none => false

def operationViolations (document : Json) : List Violation :=
  (fieldsOf document "paths").flatMap fun path =>
    (methods.filter (lacksOperationId path.2)).map (operationViolation path.1)

def violations (document : Json) : List Violation :=
  propertyViolations document ++ operationViolations document

end Rule

end SpecServer
