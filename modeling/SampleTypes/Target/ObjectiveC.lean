import SampleTypes.Json.Quoted
import SampleTypes.Target.Convention
import SampleTypes.Target.Definitions
import SampleTypes.Target.Tokens

/-! Objective-C: the interfaces of all classes, and after a banner with the name of the second file
their implementations, which map properties to keys and to the classes of their items. -/
namespace SampleTypes.Target.ObjectiveC

open Layout

def naming : Convention := .objectiveC

/-- The interface and the implementation of a class and of all classes below it. -/
structure ClassText where
  interface : String
  implementation : String

/-- How a property holds its value, and the type it is declared with. -/
def storage : FieldType → String × String
  | .bool => ("assign", "BOOL")
  | .int => ("assign", "NSInteger")
  | .float => ("assign", "CGFloat")
  | .string => ("copy", Tokens.objectiveC.string)
  | .list element => ("copy", Tokens.objectiveC.spell (.list element))
  | .any => ("strong", Tokens.objectiveC.any)
  | .record name => ("strong", Tokens.objectiveC.record name)

/-- No blank stands between the star of a pointer and the name. -/
def property (camel : Bool) (field : Field) : String :=
  let (attributes, type) := storage field.type
  let separator := if type.toList.getLast? = some '*' then "" else " "
  "@property (nonatomic, " ++ attributes ++ ") " ++ type ++ separator ++
    naming.fieldName camel field.key ++ ";"

/-- The entry that maps a renamed property to its key. -/
def keyPair? (camel : Bool) (field : Field) : Option String :=
  let name := naming.fieldName camel field.key
  if naming.isRenamed field.key name then
    some ("@" ++ Json.quoted name ++ ": @" ++ Json.quoted field.key ++ ",")
  else none

/-- The entry that maps a list of objects to their class. -/
def classPair? (camel : Bool) (field : Field) : Option String :=
  match field.type with
  | .list (.record item) =>
    some ("@" ++ Json.quoted (naming.fieldName camel field.key) ++ ": [" ++ item ++ " class],")
  | _ => none

/-- A class method that returns a dictionary of these entries; none for no entries. -/
def dictionaryMethod (signature : String) (entries : List String) : List Item :=
  if entries.isEmpty then []
  else [.block signature "\x7d" [.block "return @\x7b" "\x7d;" (Item.lines entries)], .blank]

/-- The interface of one class. The classes that its properties refer to are declared before it. -/
def interfaceItems (camel : Bool) (schema : Schema) (nested : List String) : List Item :=
  (if nested.isEmpty then []
    else Item.lines (nested.map fun name => "@class " ++ name ++ ";") ++ [.blank]) ++
  [.line ("@interface " ++ schema.name ++ " : NSObject <YYModel>"), .blank] ++
  (if schema.fields.isEmpty then []
    else Item.lines (schema.fields.map (property camel)) ++ [.blank]) ++
  [.line "@end"]

/-- The implementation of one class. -/
def implementationItems (camel : Bool) (schema : Schema) : List Item :=
  [.line ("@implementation " ++ schema.name), .blank] ++
  dictionaryMethod "+ (NSDictionary *)modelCustomPropertyMapper \x7b"
    (schema.fields.filterMap (keyPair? camel)) ++
  dictionaryMethod "+ (NSDictionary *)modelContainerPropertyGenericClass \x7b"
    (schema.fields.filterMap (classPair? camel)) ++
  [.line "@end"]

def page : Page := { indent := .spaces 4 }

/-- A page with finished texts after it, a blank line before each. -/
def pasteAll (p : Page) (texts : List String) : Page :=
  texts.foldl (fun p text => p.blank.paste text) p

mutual

def classText (camel : Bool) : Outline → ClassText
  | .node schema nested =>
    let texts := classTexts camel nested
    let names := nested.map (·.schema.name)
    { interface :=
        (pasteAll (page.putAll (interfaceItems camel schema names)) (texts.map (·.interface))).text
      implementation :=
        (pasteAll (page.putAll (implementationItems camel schema))
          (texts.map (·.implementation))).text }

def classTexts (camel : Bool) : List Outline → List ClassText
  | [] => []
  | outline :: outlines => classText camel outline :: classTexts camel outlines

end

def imports : List String :=
  ["#import <Foundation/Foundation.h>", "#import <YYModel/YYModel.h>"]

def banner : String := "// ════════════════════════════════════"

def source (camel : Bool) (outline : Outline) : String :=
  let name := outline.schema.name
  let text := classText camel outline
  let top := (page.putAll (Item.lines imports)).blank.paste text.interface
  let middle := top.putAll
    [.blank, .line banner, .line ("// " ++ name ++ ".m"), .line banner, .blank,
      .line ("#import \"" ++ name ++ ".h\""), .blank]
  (middle.paste text.implementation).text

end SampleTypes.Target.ObjectiveC
