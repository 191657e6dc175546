import PropTree.Value.Basic
import PropTree.Numeric.Form
import PropTree.Text.Quoted

set_option autoImplicit false

/-!
# The text of a value

Every value is written with its kind in front, so texts of different values differ.
-/

namespace PropTree

namespace Value

def commaSeparated (parts : List String) : String := String.intercalate ", " parts

def labelled (kind body : String) : String := kind ++ "(" ++ body ++ ")"

def listed (parts : List String) : String := "[" ++ commaSeparated parts ++ "]"

def braced (parts : List String) : String := "\x7b" ++ commaSeparated parts ++ "\x7d"

def recordText (type : String) (fields : List String) : String :=
  "Record \x7b type: " ++ Quoted.quote type ++ ", fields: " ++ braced fields ++ " \x7d"

mutual

def text : Value → String
  | .null => "Null"
  | .bool b => labelled "Bool" (toString b)
  | .integer n => labelled "Integer" (toString n.toInt)
  | .float x => labelled "Float" (NumberForm.marked.write x)
  | .string s => labelled "String" (Quoted.quote s)
  | .bytes data => labelled "Bytes" (listed (data.map fun b => toString b.toNat))
  | .array items => labelled "Array" (listed (itemTexts items))
  | .map ⟨entries⟩ => labelled "Map" (braced (entryTexts entries))
  | .record type ⟨fields⟩ => labelled "Record" (recordText type.name (entryTexts fields))

def itemTexts : List Value → List String
  | [] => []
  | v :: rest => text v :: itemTexts rest

def entryTexts : List (String × Value) → List String
  | [] => []
  | (k, v) :: rest => (Quoted.quote k ++ ": " ++ text v) :: entryTexts rest

end

end Value

end PropTree
