import SampleTypes.Json.Number
import SampleTypes.Json.Quoted
import SampleTypes.Layout.Page
import SampleTypes.Name

/-! A sample as a literal of its own data, one item a line, indented by its depth. -/
namespace SampleTypes.Target

open Layout

inductive KeyStyle where
  | quoted
  /-- A word stands without quotes. -/
  | symbol
  deriving DecidableEq

structure LiteralStyle where
  indent : Indent
  null : String := "null"
  yes : String := "true"
  no : String := "false"
  keys : KeyStyle := .quoted

/-- Lines between two brackets, with a comma after all but the last; no lines at all stay on one. -/
def bracketed (indent : Indent) (depth : Nat) (left right : String) (items : List String) :
    String :=
  if items.isEmpty then left ++ right
  else
    left ++ "\n" ++ ",\n".intercalate (items.map (indent.times (depth + 1) ++ ·)) ++ "\n" ++
      indent.times depth ++ right

namespace LiteralStyle

def key (style : LiteralStyle) (key : String) : String :=
  if style.keys = .symbol ∧ Name.isWord key then key ++ ": " else Json.quoted key ++ ": "

mutual

def write (style : LiteralStyle) (depth : Nat) : Json → String
  | .null => style.null
  | .bool b => if b then style.yes else style.no
  | .number n => n.text
  | .string s => Json.quoted s
  | .array items => bracketed style.indent depth "[" "]" (writeItems style (depth + 1) items)
  | .object members =>
    bracketed style.indent depth "\x7b" "\x7d" (writeMembers style (depth + 1) members)

def writeItems (style : LiteralStyle) (depth : Nat) : List Json → List String
  | [] => []
  | item :: items => write style depth item :: writeItems style depth items

def writeMembers (style : LiteralStyle) (depth : Nat) : Members → List String
  | [] => []
  | (key, value) :: members =>
    (style.key key ++ write style depth value) :: writeMembers style depth members

end

/-- JSON itself, two spaces a level. -/
def json : LiteralStyle where
  indent := .spaces 2

def python : LiteralStyle where
  indent := .spaces 4
  null := "None"
  yes := "True"
  no := "False"

def ruby : LiteralStyle where
  indent := .spaces 2
  null := "nil"
  keys := .symbol

end LiteralStyle

namespace JavaScript

def literal (value : Json) : String := "const data = " ++ LiteralStyle.json.write 0 value ++ ";"

end JavaScript

namespace Php

/-- A backslash before what would end a string or escape in it. -/
def escapeChar (c : Char) : List Char := if c = '\\' ∨ c = '\'' then ['\\', c] else [c]

def singleQuoted (s : String) : String := "'" ++ .ofList (s.toList.flatMap escapeChar) ++ "'"

mutual

/-- Arrays and objects are both arrays; an empty one does not show which it was. -/
def write (depth : Nat) : Json → String
  | .null => "null"
  | .bool b => if b then "true" else "false"
  | .number n => n.text
  | .string s => singleQuoted s
  | .array items => bracketed (.spaces 4) depth "[" "]" (writeItems (depth + 1) items)
  | .object members => bracketed (.spaces 4) depth "[" "]" (writeMembers (depth + 1) members)

def writeItems (depth : Nat) : List Json → List String
  | [] => []
  | item :: items => write depth item :: writeItems depth items

def writeMembers (depth : Nat) : Members → List String
  | [] => []
  | (key, value) :: members =>
    (singleQuoted key ++ " => " ++ write depth value) :: writeMembers depth members

end

def literal (value : Json) : String := "$data = " ++ write 0 value ++ ";"

end Php

example : JavaScript.literal (.array [.null, .object []]) =
    "const data = [\n  null,\n  \x7b\x7d\n];" := by decide +kernel

end SampleTypes.Target
