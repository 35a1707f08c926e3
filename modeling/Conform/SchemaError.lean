/-! What can be wrong with the description of a schema. -/

namespace Conform

inductive FieldForm where
  | boolean | number | count | string | array | classNames | descriptors | properties
deriving DecidableEq, Inhabited

def FieldForm.text : FieldForm → String
  | boolean => "a boolean"
  | number => "a number"
  | count => "a non-negative integer"
  | string => "a string"
  | array => "an array"
  | classNames => "an array of class names"
  | descriptors => "an array of descriptors"
  | properties => "an object of descriptors"

inductive SchemaError where
  | unknownType (name : String)
  | invalidRegex (pattern diagnosis : String)
  | invalidField (field : String) (expected : FieldForm)
  | notAnObject
deriving DecidableEq, Inhabited

namespace SchemaError

def message : SchemaError → String
  | unknownType name => "Unknown type tag '" ++ name ++ "'"
  | invalidRegex pattern diagnosis =>
    "Invalid regular expression '" ++ pattern ++ "': " ++ diagnosis
  | invalidField field expected =>
    "Invalid descriptor field '" ++ field ++ "': expected " ++ expected.text
  | notAnObject => "Schema descriptor must be an object"

end SchemaError

end Conform
