import GrammarLoader.Rule.Build
import GrammarLoader.Rule.Encode

/-!
The grammar of automn, an indentation-sensitive language for data models, and its definition as a
text.
-/

namespace GrammarLoader.Automn

open Rule

def rules : List (String × Rule) := [
  ("source_file", many (seq [symbol "_definition", many (symbol "newline")])),
  ("_definition", choice [symbol "model", symbol "function", symbol "enum"]),
  ("model",
    seq [
      symbol "identifier",
      many (choice [symbol "_atomic_value", symbol "mixin"]),
      choice [symbol "_model_body", symbol "newline"]]),
  ("_model_body",
    seq [
      symbol "indent",
      symbol "_model_child_definition",
      many (seq [symbol "newline", symbol "_model_child_definition"]),
      symbol "dedent"]),
  ("_model_child_definition",
    choice [
      symbol "field",
      symbol "_describer",
      symbol "method_function",
      symbol "associated_model"]),
  ("associated_model",
    seq [
      literal "/",
      symbol "identifier",
      many (symbol "_atomic_value"),
      choice [symbol "_model_body", symbol "newline"]]),
  ("mixin", seq [literal "&", symbol "identifier"]),
  ("field",
    seq [
      choice [symbol "identifier", symbol "_dynamic_field"],
      maybe (symbol "_type_declaration"),
      maybe (symbol "_example_declaration"),
      maybe (symbol "_literal_declaration"),
      maybe (symbol "_field_body")]),
  ("_field_body",
    seq [
      symbol "indent",
      symbol "_field_child_definition",
      many (seq [symbol "newline", symbol "_field_child_definition"]),
      symbol "dedent"]),
  ("_field_child_definition",
    choice [
      symbol "_describer",
      symbol "_type_declaration",
      symbol "_example_declaration",
      symbol "_literal_declaration",
      seq [literal ":", symbol "context_type", literal ":", symbol "type"]]),
  ("_dynamic_field",
    seq [
      symbol "open_caret",
      symbol "dynamic_field_name",
      maybe (symbol "_type_declaration"),
      symbol "close_caret"]),
  ("_literal_declaration", seq [literal "=", symbol "_value"]),
  ("_example_declaration", seq [literal "~", symbol "_value"]),
  ("function",
    seq [
      seq [symbol "identifier", literal "(", literal ")"],
      choice [symbol "_function_body", symbol "newline"]]),
  ("method_function",
    seq [
      seq [symbol "identifier", literal "(", literal ")"],
      maybe (symbol "_function_body")]),
  ("_function_body",
    seq [
      symbol "indent",
      symbol "_function_child_definition",
      many (seq [symbol "newline", symbol "_function_child_definition"]),
      symbol "dedent"]),
  ("_function_child_definition",
    choice [symbol "field", symbol "_describer", symbol "return_field"]),
  ("right_arrow", literal "->"),
  ("return_field",
    seq [
      symbol "right_arrow",
      symbol "identifier",
      maybe (symbol "_type_declaration"),
      maybe (symbol "_example_declaration"),
      maybe (symbol "_literal_declaration"),
      maybe (symbol "_field_body")]),
  ("enum",
    seq [
      literal "|",
      symbol "identifier",
      maybe (symbol "_type_declaration"),
      choice [symbol "newline", symbol "_enum_body"]]),
  ("_enum_body",
    seq [
      symbol "indent",
      choice [symbol "variant", symbol "_describer"],
      many (seq [symbol "newline", choice [symbol "variant", symbol "_describer"]]),
      symbol "dedent"]),
  ("variant",
    seq [
      symbol "variant_identifier",
      maybe (symbol "_variant_parameters"),
      maybe (symbol "_literal_declaration"),
      maybe (symbol "_variant_body")]),
  ("_variant_body", seq [symbol "indent", symbol "dedent"]),
  ("_variant_child_definition", choice [symbol "_describer", symbol "_literal_declaration"]),
  ("_variant_parameters",
    seq [
      literal "(",
      symbol "_non_enum_type",
      many (seq [literal ",", symbol "_non_enum_type"]),
      literal ")"]),
  ("_describer",
    choice [
      symbol "_tags",
      symbol "_property",
      symbol "_single_documentation",
      symbol "_multi_documentation"]),
  ("_single_documentation", seq [symbol "close_caret_operator", symbol "documentation"]),
  ("_multi_documentation",
    seq [literal ">>", symbol "indent", symbol "_multi_documentation_body", symbol "dedent"]),
  ("_multi_documentation_body",
    seq [symbol "documentation", many (seq [symbol "newline", symbol "documentation"])]),
  ("documentation", pattern "[^\\n\\r]*"),
  ("_property", seq [symbol "property_key", literal "::", symbol "_value"]),
  ("property_key", pattern "[a-zA-Z_][a-zA-Z0-9_-]*"),
  ("_tags",
    seq [
      literal "[",
      maybe (seq [symbol "tag", many (seq [literal ",", symbol "tag"])]),
      literal "]"]),
  ("tag", pattern "[a-zA-Z_][a-zA-Z0-9_-]*"),
  ("_type_declaration",
    seq [choice [literal ":", seq [literal "?", maybe (literal ":")]], symbol "type"]),
  ("type", symbol "_any_type"),
  ("atomic_type",
    seq [
      symbol "identifier",
      maybe (seq [
        literal "(",
        symbol "_atomic_value",
        many (seq [literal ",", symbol "_atomic_value"]),
        literal ")"])]),
  ("_non_enum_type",
    choice [
      symbol "atomic_type",
      symbol "_array_of_non_enum_type",
      symbol "_non_enum_type_union"]),
  ("_non_enum_type_union",
    precLeft 1 (seq [
      symbol "_non_union_non_enum_type",
      many1 (seq [literal "|", symbol "_non_union_non_enum_type"])])),
  ("_array_of_non_enum_type", seq [literal "[", symbol "_non_enum_type", literal "]"]),
  ("_any_type",
    choice [
      symbol "atomic_type",
      symbol "inline_enum",
      symbol "array_of_type",
      symbol "type_union"]),
  ("_non_union_type",
    choice [symbol "atomic_type", symbol "inline_enum", symbol "array_of_type"]),
  ("_non_union_non_enum_type", choice [symbol "atomic_type", symbol "_array_of_non_enum_type"]),
  ("inline_enum",
    precLeft 2 (seq [
      symbol "variant_identifier",
      many1 (seq [literal ",", symbol "variant_identifier"])])),
  ("array_of_type", seq [literal "[", symbol "_any_type", literal "]"]),
  ("type_union",
    precLeft 1
      (seq [symbol "_non_union_type", many1 (seq [literal "|", symbol "_non_union_type"])])),
  ("_object_key_value",
    seq [choice [symbol "string", symbol "symbol"], literal ":", symbol "_value"]),
  ("object",
    seq [
      literal "\x7b",
      maybe (seq [
        symbol "_object_key_value",
        many (seq [literal ",", symbol "_object_key_value"])]),
      literal "\x7d"]),
  ("array",
    seq [
      literal "[",
      maybe (seq [symbol "_value", many (seq [literal ",", symbol "_value"])]),
      literal "]"]),
  ("_unescaped_double_string_fragment", immediate (prec 1 (pattern "[^\"\\\\\\r\\n]+"))),
  ("_escape_sequence",
    immediate (seq [
      literal "\\",
      choice [
        pattern "[^xu0-7]",
        pattern "[0-7]\x7b1,3\x7d",
        pattern "x[0-9a-fA-F]\x7b2\x7d",
        pattern "u[0-9a-fA-F]\x7b4\x7d",
        pattern "u\\\x7b[0-9a-fA-F]+\\\x7d",
        pattern "[\\r?][\\n\\u2028\\u2029]"]])),
  ("string",
    choice [
      seq [
        literal "\"",
        many (choice [symbol "_unescaped_double_string_fragment", symbol "_escape_sequence"]),
        literal "\""]]),
  ("_atomic_value",
    choice [
      symbol "string",
      prec 2 (symbol "true"),
      prec 2 (symbol "false"),
      prec 2 (symbol "null"),
      symbol "number",
      prec 1 (symbol "symbol"),
      symbol "path"]),
  ("path", seq [literal "!", many1 (choice [symbol "path_literal", symbol "_path_dynamic"])]),
  ("path_literal", prec 4 (immediate (pattern "[A-Za-z0-9\\-\\._~:/?#\\[\\]@!$&'()*+,;=%]+"))),
  ("_path_dynamic",
    seq [
      symbol "path_open_caret",
      symbol "dynamic_field_name",
      maybe (symbol "_type_declaration"),
      maybe (symbol "_example_declaration"),
      symbol "close_caret"]),
  ("dynamic_field_name", pattern "[a-zA-Z_][a-zA-Z0-9_-]*"),
  ("path_open_caret", immediate (literal "<")),
  ("open_caret", literal "<"),
  ("close_caret", literal ">"),
  ("close_caret_operator", literal ">"),
  ("_value", choice [symbol "object", symbol "array", symbol "_atomic_value"]),
  ("true", literal "true"),
  ("false", literal "false"),
  ("null", literal "null"),
  ("number", pattern "-?[0-9]+(\\.[0-9]+)?([eE][+-]?[0-9]+)?"),
  ("context_type", pattern "[a-zA-Z_][a-zA-Z0-9_-]*"),
  ("symbol", pattern "[a-zA-Z_][a-zA-Z0-9_-]*"),
  ("identifier", pattern "[a-zA-Z_][a-zA-Z0-9_-]*"),
  ("variant_identifier", prec 1 (pattern "[a-zA-Z_][a-zA-Z0-9_-]*"))]

def extras : List Rule := [pattern "\\s"]

def externals : List Rule := [symbol "indent", symbol "dedent", symbol "newline", symbol "end"]

def json : Json.Value := .map [
  ("$schema",
    jsonString "https://tree-sitter.github.io/tree-sitter/assets/schemas/grammar.schema.json"),
  ("name", jsonString "automn"),
  ("rules", .map (rules.map fun (name, r) => (name, r.toJson))),
  ("extras", .list (extras.map toJson)),
  ("conflicts", .list []),
  ("precedences", .list []),
  ("externals", .list (externals.map toJson)),
  ("inline", .list []),
  ("supertypes", .list [])]

def definition : String := json.document

end GrammarLoader.Automn
