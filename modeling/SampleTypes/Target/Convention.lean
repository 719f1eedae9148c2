import SampleTypes.Name

/-! How a language names the property for a key, and whether the name still says which key it is. -/
namespace SampleTypes.Target

structure Convention where
  /-- The name for a key; the flag asks for camel case. -/
  convert : (camel : Bool) → (key : String) → String
  /-- Words that are no names. -/
  reserved : List String := []
  /-- What is written for a reserved word. -/
  escape : String → String := id
  /-- What a serializer of the language sees of a name. -/
  unescape : String → String := id

namespace Convention

def isReserved (c : Convention) (name : String) : Bool := c.reserved.contains name

def safeName (c : Convention) (name : String) : String :=
  if c.isReserved name then c.escape name else name

/-- The name of the property for a key. -/
def fieldName (c : Convention) (camel : Bool) (key : String) : String :=
  c.safeName (c.convert camel key)

/-- Whether a serializer would not find the key under this name without being told. -/
def isRenamed (c : Convention) (key name : String) : Bool := c.unescape name != key

/-- Whether the property for a key has to be told its key. -/
def renames (c : Convention) (camel : Bool) (key : String) : Bool :=
  c.isRenamed key (c.fieldName camel key)

end Convention

def addUnderscore (name : String) : String := name ++ "_"

def inBackticks (name : String) : String := "`" ++ name ++ "`"

/-- A name without the backticks at its two ends. -/
def stripBackticks (name : String) : String :=
  .ofList ((name.toList.dropWhile (· = '`')).reverse.dropWhile (· = '`')).reverse

/-- A property name with a capital. -/
def exportedName (camel : Bool) (key : String) : String := Name.capitalize (Name.property camel key)

/-- Characters other than ASCII letters, digits and underscores, replaced by underscores. -/
def wordChar (c : Char) : Char := if c.isAlphanum || c = '_' then c else '_'

/-- Snake case in ASCII letters, digits and underscores, not empty and without a digit in front. -/
def snakeWord (key : String) : String :=
  match (Name.snakeCase key).toList.map wordChar with
  | [] => "_"
  | c :: cs => .ofList (if c.isDigit then '_' :: c :: cs else c :: cs)

/-- Raw form of a reserved word; four of them have none. -/
def rawWord (name : String) : String :=
  if ["self", "Self", "super", "crate"].contains name then addUnderscore name else "r#" ++ name

/-- A name without the mark of its raw form. -/
def stripRaw (name : String) : String :=
  match name.toList with
  | 'r' :: '#' :: rest => .ofList rest
  | _ => name

namespace Convention

def objectiveC : Convention where
  convert := Name.property

def swift : Convention where
  convert := Name.property
  reserved := [
    "associatedtype", "class", "deinit", "enum", "extension", "fileprivate", "func", "import",
    "init", "inout", "internal", "let", "open", "operator", "private", "protocol", "public",
    "rethrows", "static", "struct", "subscript", "typealias", "var", "break", "case",
    "continue", "default", "defer", "do", "else", "fallthrough", "for", "guard", "if", "in",
    "repeat", "return", "switch", "where", "while", "as", "catch", "false", "is", "nil",
    "super", "self", "throw", "throws", "true", "try"]
  escape := inBackticks
  unescape := stripBackticks

def java : Convention where
  convert := Name.property
  reserved := [
    "abstract", "assert", "boolean", "break", "byte", "case", "catch", "char", "class",
    "const", "continue", "default", "do", "double", "else", "enum", "extends", "final",
    "finally", "float", "for", "goto", "if", "implements", "import", "instanceof", "int",
    "interface", "long", "native", "new", "package", "private", "protected", "public",
    "return", "short", "static", "strictfp", "super", "switch", "synchronized", "this",
    "throw", "throws", "transient", "try", "void", "volatile", "while", "true", "false",
    "null"]
  escape := addUnderscore

def kotlin : Convention where
  convert := Name.property
  reserved := [
    "as", "break", "class", "continue", "do", "else", "false", "for", "fun", "if", "in",
    "interface", "is", "null", "object", "package", "return", "super", "this", "throw",
    "true", "try", "typealias", "typeof", "val", "var", "when", "while"]
  escape := inBackticks
  unescape := stripBackticks

/-- Properties are named exactly as their keys. -/
def typeScript : Convention where
  convert := fun _ key => key

def go : Convention where
  convert := exportedName

/-- Names are in snake case, whether camel case is asked for or not. -/
def rust : Convention where
  convert := fun _ key => snakeWord key
  reserved := [
    "as", "async", "await", "break", "const", "continue", "crate", "dyn", "else", "enum",
    "extern", "false", "fn", "for", "if", "impl", "in", "let", "loop", "match", "mod", "move",
    "mut", "pub", "ref", "return", "self", "Self", "static", "struct", "super", "trait",
    "true", "type", "unsafe", "use", "where", "while", "abstract", "become", "box", "do",
    "final", "macro", "override", "priv", "try", "typeof", "unsized", "virtual", "yield"]
  escape := rawWord
  unescape := stripRaw

def cSharp : Convention where
  convert := exportedName

def dart : Convention where
  convert := Name.property
  reserved := [
    "assert", "break", "case", "catch", "class", "const", "continue", "default", "do", "else",
    "enum", "extends", "false", "final", "finally", "for", "if", "in", "is", "new", "null",
    "rethrow", "return", "super", "switch", "this", "throw", "true", "try", "var", "void",
    "while", "with"]
  escape := addUnderscore

end Convention

example : Convention.rust.fieldName true "type" = "r#type" ∧
    Convention.rust.fieldName true "2fa" = "_2fa" := by decide +kernel
example : Convention.swift.fieldName true "default" = "`default`" ∧
    Convention.swift.renames true "default" = false := by decide +kernel

end SampleTypes.Target
