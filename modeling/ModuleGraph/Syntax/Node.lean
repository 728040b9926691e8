/-! Concrete syntax of a TypeScript source file. A node keeps the source text it
spans and the role it plays in its parent, so no reader needs offsets. -/

namespace ModuleGraph

/-- The node kinds that the analysis tells apart; every other kind keeps its label. -/
inductive Kind where
  | comment
  | importStatement
  | importClause
  | namespaceImport
  | namedImports
  | importSpecifier
  | exportStatement
  | classDeclaration
  | abstractClassDeclaration
  | decorator
  | methodDefinition
  | methodSignature
  | requiredParameter
  | optionalParameter
  | identifier
  | propertyIdentifier
  | typeIdentifier
  | nestedTypeIdentifier
  | genericType
  | string
  | array
  | object
  | pair
  | callExpression
  | memberExpression
  | arrowFunction
  | other (label : String)
  deriving DecidableEq, Repr

inductive Field where
  | asName
  | arguments
  | body
  | declaration
  | function
  | key
  | name
  | object
  | parameters
  | property
  | source
  | type
  | value
  deriving DecidableEq, Repr

/-- A syntax node. Unnamed nodes are punctuation and keywords. -/
structure Node where
  kind : Kind
  field : Option Field
  named : Bool
  text : String
  children : List Node
  deriving Repr

def Kind.ofLabel (label : String) : Kind :=
  match label with
  | "comment" => .comment
  | "import_statement" => .importStatement
  | "import_clause" => .importClause
  | "namespace_import" => .namespaceImport
  | "named_imports" => .namedImports
  | "import_specifier" => .importSpecifier
  | "export_statement" => .exportStatement
  | "class_declaration" => .classDeclaration
  | "abstract_class_declaration" => .abstractClassDeclaration
  | "decorator" => .decorator
  | "method_definition" => .methodDefinition
  | "method_signature" => .methodSignature
  | "required_parameter" => .requiredParameter
  | "optional_parameter" => .optionalParameter
  | "identifier" => .identifier
  | "property_identifier" => .propertyIdentifier
  | "type_identifier" => .typeIdentifier
  | "nested_type_identifier" => .nestedTypeIdentifier
  | "generic_type" => .genericType
  | "string" => .string
  | "array" => .array
  | "object" => .object
  | "pair" => .pair
  | "call_expression" => .callExpression
  | "member_expression" => .memberExpression
  | "arrow_function" => .arrowFunction
  | _ => .other label

def Field.ofLabel? (label : String) : Option Field :=
  match label with
  | "alias" => some .asName
  | "arguments" => some .arguments
  | "body" => some .body
  | "declaration" => some .declaration
  | "function" => some .function
  | "key" => some .key
  | "name" => some .name
  | "object" => some .object
  | "parameters" => some .parameters
  | "property" => some .property
  | "source" => some .source
  | "type" => some .type
  | "value" => some .value
  | _ => none

namespace Node

def namedChildren (n : Node) : List Node :=
  n.children.filter (·.named)

/-- The first child that plays the given role, named or not. -/
def child? (n : Node) (f : Field) : Option Node :=
  n.children.find? (fun c => c.field = some f)

/-- The named children without comments. -/
def elements (n : Node) : List Node :=
  n.namedChildren.filter (fun c => c.kind ≠ .comment)

def inRole (n : Node) (f : Field) : Node :=
  { n with field := some f }

end Node

end ModuleGraph
