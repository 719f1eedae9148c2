import SampleTypes.Layout.Page
import SampleTypes.Schema

/-! Type definitions for a whole outline: the definition of a schema, and after a blank line each
the definitions of the schemas below it. -/
namespace SampleTypes.Target

open Layout

mutual

/-- `define` gives the definition of one schema and is told whether that is the root. -/
def definitions (define : (isRoot : Bool) → Schema → List Item) (isRoot : Bool) :
    Outline → List Item
  | .node schema nested => define isRoot schema ++ nestedDefinitions define nested

def nestedDefinitions (define : (isRoot : Bool) → Schema → List Item) : List Outline → List Item
  | [] => []
  | outline :: outlines =>
    .blank :: (definitions define false outline ++ nestedDefinitions define outlines)

end

/-- A page that begins with import lines, a blank line if there are any, and then takes the lines
of a finished text. -/
def withImports (imports : List String) (body : String) : String :=
  let page : Page := { indent := .standard }
  let page := page.putAll (Item.lines imports)
  let page := if imports.isEmpty then page else page.blank
  (page.paste body).text

end SampleTypes.Target
