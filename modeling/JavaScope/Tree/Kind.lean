/-!
# Kinds of nodes

The kinds of syntax nodes that the library tells apart, and the fields that a node can have in its
parent. Every other kind or field is kept by its name.
-/

namespace JavaScope

/-- The kind of a syntax node. -/
inductive Kind where
  | program | packageDeclaration | importDeclaration | identifier | scopedIdentifier | asterisk
  | modifiers | error | classDeclaration | interfaceDeclaration | enumDeclaration
  | recordDeclaration | annotationTypeDeclaration | classBody | interfaceBody | enumBody
  | enumBodyDeclarations | annotationTypeBody | superclass | superInterfaces | extendsInterfaces
  | typeList | typeParameters | typeParameter | typeBound | fieldDeclaration
  | constantDeclaration | enumConstant | methodDeclaration | constructorDeclaration
  | compactConstructorDeclaration | staticInitializer | variableDeclarator | formalParameters
  | formalParameter | spreadParameter | catchFormalParameter | catchType | resourceSpecification
  | resource | block | constructorBody | localVariableDeclaration | expressionStatement
  | labeledStatement | ifStatement | whileStatement | forStatement | enhancedForStatement
  | doStatement | tryStatement | tryWithResourcesStatement | catchClause | switchExpression
  | switchStatement | switchBlock | switchBlockStatementGroup | switchRule | switchLabel
  | synchronizedStatement | assertStatement | returnStatement | yieldStatement | throwStatement
  | breakStatement | continueStatement | explicitConstructorInvocation | integralType
  | floatingPointType | booleanType | voidType | arrayType | genericType | typeArguments
  | typeIdentifier | scopedTypeIdentifier | annotatedType | wildcard | annotationNode
  | markerAnnotationNode | parenthesizedExpression | thisRef | superRef | fieldAccess
  | methodInvocation | objectCreationExpression | castExpression | arrayCreationExpression
  | arrayAccess | lambdaExpression | stringLiteral | textBlock | characterLiteral | trueLiteral
  | falseLiteral | decimalIntegerLiteral | hexIntegerLiteral | octalIntegerLiteral
  | binaryIntegerLiteral | decimalFloatingPointLiteral | hexFloatingPointLiteral
  | other (name : String)
  deriving DecidableEq

namespace Kind

/-- The kinds that have a constructor of their own, with their names in the grammar. -/
def table : List (Kind × String) := [
  (.program, "program"), (.packageDeclaration, "package_declaration"),
  (.importDeclaration, "import_declaration"), (.identifier, "identifier"),
  (.scopedIdentifier, "scoped_identifier"), (.asterisk, "asterisk"), (.modifiers, "modifiers"),
  (.error, "ERROR"), (.classDeclaration, "class_declaration"),
  (.interfaceDeclaration, "interface_declaration"), (.enumDeclaration, "enum_declaration"),
  (.recordDeclaration, "record_declaration"),
  (.annotationTypeDeclaration, "annotation_type_declaration"), (.classBody, "class_body"),
  (.interfaceBody, "interface_body"), (.enumBody, "enum_body"),
  (.enumBodyDeclarations, "enum_body_declarations"),
  (.annotationTypeBody, "annotation_type_body"), (.superclass, "superclass"),
  (.superInterfaces, "super_interfaces"), (.extendsInterfaces, "extends_interfaces"),
  (.typeList, "type_list"), (.typeParameters, "type_parameters"),
  (.typeParameter, "type_parameter"), (.typeBound, "type_bound"),
  (.fieldDeclaration, "field_declaration"), (.constantDeclaration, "constant_declaration"),
  (.enumConstant, "enum_constant"), (.methodDeclaration, "method_declaration"),
  (.constructorDeclaration, "constructor_declaration"),
  (.compactConstructorDeclaration, "compact_constructor_declaration"),
  (.staticInitializer, "static_initializer"), (.variableDeclarator, "variable_declarator"),
  (.formalParameters, "formal_parameters"), (.formalParameter, "formal_parameter"),
  (.spreadParameter, "spread_parameter"), (.catchFormalParameter, "catch_formal_parameter"),
  (.catchType, "catch_type"), (.resourceSpecification, "resource_specification"),
  (.resource, "resource"), (.block, "block"), (.constructorBody, "constructor_body"),
  (.localVariableDeclaration, "local_variable_declaration"),
  (.expressionStatement, "expression_statement"), (.labeledStatement, "labeled_statement"),
  (.ifStatement, "if_statement"), (.whileStatement, "while_statement"),
  (.forStatement, "for_statement"), (.enhancedForStatement, "enhanced_for_statement"),
  (.doStatement, "do_statement"), (.tryStatement, "try_statement"),
  (.tryWithResourcesStatement, "try_with_resources_statement"), (.catchClause, "catch_clause"),
  (.switchExpression, "switch_expression"), (.switchStatement, "switch_statement"),
  (.switchBlock, "switch_block"), (.switchBlockStatementGroup, "switch_block_statement_group"),
  (.switchRule, "switch_rule"), (.switchLabel, "switch_label"),
  (.synchronizedStatement, "synchronized_statement"), (.assertStatement, "assert_statement"),
  (.returnStatement, "return_statement"), (.yieldStatement, "yield_statement"),
  (.throwStatement, "throw_statement"), (.breakStatement, "break_statement"),
  (.continueStatement, "continue_statement"),
  (.explicitConstructorInvocation, "explicit_constructor_invocation"),
  (.integralType, "integral_type"), (.floatingPointType, "floating_point_type"),
  (.booleanType, "boolean_type"), (.voidType, "void_type"), (.arrayType, "array_type"),
  (.genericType, "generic_type"), (.typeArguments, "type_arguments"),
  (.typeIdentifier, "type_identifier"), (.scopedTypeIdentifier, "scoped_type_identifier"),
  (.annotatedType, "annotated_type"), (.wildcard, "wildcard"), (.annotationNode, "annotation"),
  (.markerAnnotationNode, "marker_annotation"),
  (.parenthesizedExpression, "parenthesized_expression"), (.thisRef, "this"),
  (.superRef, "super"), (.fieldAccess, "field_access"),
  (.methodInvocation, "method_invocation"),
  (.objectCreationExpression, "object_creation_expression"),
  (.castExpression, "cast_expression"), (.arrayCreationExpression, "array_creation_expression"),
  (.arrayAccess, "array_access"), (.lambdaExpression, "lambda_expression"),
  (.stringLiteral, "string_literal"), (.textBlock, "text_block"),
  (.characterLiteral, "character_literal"), (.trueLiteral, "true"), (.falseLiteral, "false"),
  (.decimalIntegerLiteral, "decimal_integer_literal"),
  (.hexIntegerLiteral, "hex_integer_literal"), (.octalIntegerLiteral, "octal_integer_literal"),
  (.binaryIntegerLiteral, "binary_integer_literal"),
  (.decimalFloatingPointLiteral, "decimal_floating_point_literal"),
  (.hexFloatingPointLiteral, "hex_floating_point_literal")]

/-- The kind of this name in the grammar. -/
def ofName (name : String) : Kind :=
  match table.find? fun entry => entry.2 == name with
  | some (kind, _) => kind
  | none => .other name

/-- The name of a kind in the grammar. -/
def name : Kind → String
  | .program => "program"
  | .packageDeclaration => "package_declaration"
  | .importDeclaration => "import_declaration"
  | .identifier => "identifier"
  | .scopedIdentifier => "scoped_identifier"
  | .asterisk => "asterisk"
  | .modifiers => "modifiers"
  | .error => "ERROR"
  | .classDeclaration => "class_declaration"
  | .interfaceDeclaration => "interface_declaration"
  | .enumDeclaration => "enum_declaration"
  | .recordDeclaration => "record_declaration"
  | .annotationTypeDeclaration => "annotation_type_declaration"
  | .classBody => "class_body"
  | .interfaceBody => "interface_body"
  | .enumBody => "enum_body"
  | .enumBodyDeclarations => "enum_body_declarations"
  | .annotationTypeBody => "annotation_type_body"
  | .superclass => "superclass"
  | .superInterfaces => "super_interfaces"
  | .extendsInterfaces => "extends_interfaces"
  | .typeList => "type_list"
  | .typeParameters => "type_parameters"
  | .typeParameter => "type_parameter"
  | .typeBound => "type_bound"
  | .fieldDeclaration => "field_declaration"
  | .constantDeclaration => "constant_declaration"
  | .enumConstant => "enum_constant"
  | .methodDeclaration => "method_declaration"
  | .constructorDeclaration => "constructor_declaration"
  | .compactConstructorDeclaration => "compact_constructor_declaration"
  | .staticInitializer => "static_initializer"
  | .variableDeclarator => "variable_declarator"
  | .formalParameters => "formal_parameters"
  | .formalParameter => "formal_parameter"
  | .spreadParameter => "spread_parameter"
  | .catchFormalParameter => "catch_formal_parameter"
  | .catchType => "catch_type"
  | .resourceSpecification => "resource_specification"
  | .resource => "resource"
  | .block => "block"
  | .constructorBody => "constructor_body"
  | .localVariableDeclaration => "local_variable_declaration"
  | .expressionStatement => "expression_statement"
  | .labeledStatement => "labeled_statement"
  | .ifStatement => "if_statement"
  | .whileStatement => "while_statement"
  | .forStatement => "for_statement"
  | .enhancedForStatement => "enhanced_for_statement"
  | .doStatement => "do_statement"
  | .tryStatement => "try_statement"
  | .tryWithResourcesStatement => "try_with_resources_statement"
  | .catchClause => "catch_clause"
  | .switchExpression => "switch_expression"
  | .switchStatement => "switch_statement"
  | .switchBlock => "switch_block"
  | .switchBlockStatementGroup => "switch_block_statement_group"
  | .switchRule => "switch_rule"
  | .switchLabel => "switch_label"
  | .synchronizedStatement => "synchronized_statement"
  | .assertStatement => "assert_statement"
  | .returnStatement => "return_statement"
  | .yieldStatement => "yield_statement"
  | .throwStatement => "throw_statement"
  | .breakStatement => "break_statement"
  | .continueStatement => "continue_statement"
  | .explicitConstructorInvocation => "explicit_constructor_invocation"
  | .integralType => "integral_type"
  | .floatingPointType => "floating_point_type"
  | .booleanType => "boolean_type"
  | .voidType => "void_type"
  | .arrayType => "array_type"
  | .genericType => "generic_type"
  | .typeArguments => "type_arguments"
  | .typeIdentifier => "type_identifier"
  | .scopedTypeIdentifier => "scoped_type_identifier"
  | .annotatedType => "annotated_type"
  | .wildcard => "wildcard"
  | .annotationNode => "annotation"
  | .markerAnnotationNode => "marker_annotation"
  | .parenthesizedExpression => "parenthesized_expression"
  | .thisRef => "this"
  | .superRef => "super"
  | .fieldAccess => "field_access"
  | .methodInvocation => "method_invocation"
  | .objectCreationExpression => "object_creation_expression"
  | .castExpression => "cast_expression"
  | .arrayCreationExpression => "array_creation_expression"
  | .arrayAccess => "array_access"
  | .lambdaExpression => "lambda_expression"
  | .stringLiteral => "string_literal"
  | .textBlock => "text_block"
  | .characterLiteral => "character_literal"
  | .trueLiteral => "true"
  | .falseLiteral => "false"
  | .decimalIntegerLiteral => "decimal_integer_literal"
  | .hexIntegerLiteral => "hex_integer_literal"
  | .octalIntegerLiteral => "octal_integer_literal"
  | .binaryIntegerLiteral => "binary_integer_literal"
  | .decimalFloatingPointLiteral => "decimal_floating_point_literal"
  | .hexFloatingPointLiteral => "hex_floating_point_literal"
  | .other name => name

/-! ## Classes of kinds -/

/-- Classes, interfaces, enums, records and annotation types. -/
def isTypeDeclaration : Kind → Bool
  | .classDeclaration | .interfaceDeclaration | .enumDeclaration | .recordDeclaration |
    .annotationTypeDeclaration => true
  | _ => false

/-- Bodies that hold the members of a type. -/
def isTypeBody : Kind → Bool
  | .classBody | .interfaceBody | .enumBody | .enumBodyDeclarations | .annotationTypeBody => true
  | _ => false

/-- Methods and constructors. -/
def isMethodDeclaration : Kind → Bool
  | .methodDeclaration | .constructorDeclaration | .compactConstructorDeclaration => true
  | _ => false

/-- Declarations of fields and of the constants of an interface. -/
def isFieldDeclaration : Kind → Bool
  | .fieldDeclaration | .constantDeclaration => true
  | _ => false

/-- Plain, varargs and catch parameters. -/
def isParameterDeclaration : Kind → Bool
  | .formalParameter | .spreadParameter | .catchFormalParameter => true
  | _ => false

/-- Plain and varargs parameters. -/
def isMethodParameter : Kind → Bool
  | .formalParameter | .spreadParameter => true
  | _ => false

/-- Blocks of statements. -/
def isBlock : Kind → Bool
  | .block | .constructorBody => true
  | _ => false

/-- Nodes whose statements may declare local types. -/
def isLocalScope : Kind → Bool
  | .block | .constructorBody | .switchBlockStatementGroup | .switchRule => true
  | _ => false

/-- Members whose bodies hold local declarations. -/
def isBodyDeclaration : Kind → Bool
  | .methodDeclaration | .constructorDeclaration | .compactConstructorDeclaration |
    .staticInitializer => true
  | _ => false

/-- Members of a type. -/
def isMemberDeclaration : Kind → Bool
  | .methodDeclaration | .constructorDeclaration | .compactConstructorDeclaration |
    .classDeclaration | .interfaceDeclaration | .enumDeclaration | .recordDeclaration |
    .annotationTypeDeclaration | .fieldDeclaration | .constantDeclaration |
    .staticInitializer | .enumConstant => true
  | _ => false

/-- Statements. -/
def isStatement : Kind → Bool
  | .block | .localVariableDeclaration | .expressionStatement | .labeledStatement |
    .ifStatement | .whileStatement | .forStatement | .enhancedForStatement | .doStatement |
    .tryStatement | .tryWithResourcesStatement | .switchExpression | .synchronizedStatement
    | .assertStatement | .returnStatement | .yieldStatement | .throwStatement |
    .breakStatement | .continueStatement | .explicitConstructorInvocation => true
  | _ => false

/-- Nodes whose class body declares an anonymous class. -/
def isAnonymousOwner : Kind → Bool
  | .objectCreationExpression | .enumConstant => true
  | _ => false

/-- Nodes that hold a text the parser could not place. -/
def isError : Kind → Bool
  | .error => true
  | _ => false

end Kind

/-! ## Fields -/

/-- The field that a node has in its parent. -/
inductive Field where
  | name | body | type | parameters | declarator | element | dimensions | value | arguments
  | object | field | condition | init | array
  | other (name : String)
  deriving DecidableEq

/-- The field of this name in the grammar. -/
def Field.ofName : String → Field
  | "name" => .name
  | "body" => .body
  | "type" => .type
  | "parameters" => .parameters
  | "declarator" => .declarator
  | "element" => .element
  | "dimensions" => .dimensions
  | "value" => .value
  | "arguments" => .arguments
  | "object" => .object
  | "field" => .field
  | "condition" => .condition
  | "init" => .init
  | "array" => .array
  | unlisted => .other unlisted

end JavaScope
