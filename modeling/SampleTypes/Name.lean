import SampleTypes.Text.Case

/-! Names and how they are converted: camel case, Pascal case, snake case. -/
namespace SampleTypes.Name

open Text

/-- Upper case for the first character only. -/
def capitalChars : List Char → List Char
  | [] => []
  | c :: cs => upperChars c ++ cs

/-- Lower case for the first character only. -/
def uncapitalChars : List Char → List Char
  | [] => []
  | c :: cs => lowerChars c ++ cs

def isSeparator (c : Char) : Bool := c = '_' || c = '-'

/-- Camel case of a text that follows the separators `pending`. A run of separators goes, and the
character after it becomes upper case, if that is an ASCII letter or digit; any other run stays. -/
def camelChars (pending : List Char) : List Char → List Char
  | [] => pending
  | c :: cs =>
    if isSeparator c then camelChars (pending ++ [c]) cs
    else if pending.isEmpty then c :: camelChars [] cs
    else if c.isAlphanum then upperChars c ++ camelChars [] cs
    else pending ++ c :: camelChars [] cs

/-- An underscore before every upper-case character, and all in lower case. -/
def snakeChars (cs : List Char) : List Char :=
  cs.flatMap fun c => if isUpperCase c then '_' :: lowerChars c else lowerChars c

/-- A text without one underscore at its beginning. -/
def dropUnderscore : List Char → List Char
  | '_' :: cs => cs
  | cs => cs

def capitalize (s : String) : String := .ofList (capitalChars s.toList)

def uncapitalize (s : String) : String := .ofList (uncapitalChars s.toList)

def camelCase (s : String) : String := .ofList (camelChars [] s.toList)

/-- The name of a property: lower case at the beginning, and camel case if that is asked for. -/
def property (camel : Bool) (s : String) : String := uncapitalize (if camel then camelCase s else s)

/-- The name of a type: camel case with a capital. -/
def type (s : String) : String := capitalize (camelCase s)

/-- Snake case; every capital begins a word of its own. -/
def snakeCase (s : String) : String := .ofList (dropUnderscore (snakeChars s.toList))

def isIdentifierStart (c : Char) : Bool := c.isAlpha || c = '_' || c = '$'

def isIdentifierRest (c : Char) : Bool := c.isAlphanum || c = '_' || c = '$'

/-- A letter, underscore or dollar sign, and then such characters and digits, all ASCII. -/
def isIdentifier (s : String) : Bool :=
  match s.toList with
  | [] => false
  | c :: cs => isIdentifierStart c && cs.all isIdentifierRest

/-- A letter or underscore, and then such characters and digits, all ASCII. -/
def isWord (s : String) : Bool :=
  match s.toList with
  | [] => false
  | c :: cs => (c.isAlpha || c = '_') && cs.all fun c => c.isAlphanum || c = '_'

@[simp] theorem camelChars_nil (pending : List Char) : camelChars pending [] = pending := rfl

@[simp] theorem snakeChars_append (a b : List Char) :
    snakeChars (a ++ b) = snakeChars a ++ snakeChars b := by simp [snakeChars]

example : property true "user_id" = "userId" ∧ property true "a__.b_c" = "a__.bC" := by
  decide +kernel
example : type "shipping-address" = "ShippingAddress" ∧ snakeCase "userID" = "user_i_d" := by
  decide +kernel

end SampleTypes.Name
