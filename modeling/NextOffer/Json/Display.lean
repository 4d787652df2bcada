import NextOffer.Json.Value
import NextOffer.Text.Quoted

/-! # Values in messages

How a value reads inside a message: a text as it is, everything else in brackets and
quotes, with `None`, `True` and `False` for the constants.
-/

namespace NextOffer.Json.Value

def listed (parts : List String) : String := ", ".intercalate parts

mutual

def inspect : Value → String
  | .null => "None"
  | .bool value => if value then "True" else "False"
  | .number x => x.text
  | .string text => Text.quoted text
  | .array items => "[" ++ listed (inspectItems items) ++ "]"
  | .object entries => "\x7b" ++ listed (inspectEntries entries) ++ "\x7d"

def inspectItems : List Value → List String
  | [] => []
  | item :: rest => inspect item :: inspectItems rest

def inspectEntries : List (String × Value) → List String
  | [] => []
  | (name, value) :: rest =>
      (Text.quoted name ++ ": " ++ inspect value) :: inspectEntries rest

end

/-- A value in a message: a text as it is. -/
def display : Value → String
  | .string text => text
  | value => value.inspect

def kindName : Value → String
  | .null => "NoneType"
  | .bool _ => "bool"
  | .number (.int _) => "int"
  | .number (.real _) => "float"
  | .string _ => "str"
  | .array _ => "list"
  | .object _ => "dict"

end NextOffer.Json.Value
