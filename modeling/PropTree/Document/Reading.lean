import PropTree.Document.Basic

set_option autoImplicit false

/-!
# Typed readings

A reading gives what it keeps of a document, as a document again, or refuses it.
-/

namespace PropTree

abbrev Reading := Document → Option Document

namespace Reading

def any : Reading := some

def integer (least most : Int) : Reading
  | .integer n => if least ≤ n.val ∧ n.val ≤ most then some (.integer n) else none
  | _ => none

def int64 : Reading := integer Int64.minValue.toInt Int64.maxValue.toInt

def byte : Reading := integer 0 255

def word32 : Reading := integer 0 (UInt32.size - 1)

def float : Reading
  | .integer n => some (.ofBinary64 (.ofInt n.val))
  | .float x => some (.float x)
  | _ => none

def bool : Reading
  | .bool b => some (.bool b)
  | _ => none

def string : Reading
  | .string s => some (.string s)
  | _ => none

def optional (r : Reading) : Reading
  | .null => some .null
  | d => r d

def list (r : Reading) : Reading
  | .array items => (items.mapM r).map .array
  | _ => none

def map (r : Reading) : Reading
  | .object entries =>
    (entries.entries.mapM fun (entry : String × Document) =>
      (r entry.2).map fun d => (entry.1, d)).map fun kept => .object ⟨kept⟩
  | _ => none

/-- An object with all of the named fields, whatever else it holds, or an
array with exactly these fields in order. -/
def fields (spec : List (String × Reading)) : Reading
  | .object entries => do
    let kept ← spec.mapM fun (field : String × Reading) => do
      let d ← entries.get? field.1
      let d ← field.2 d
      some (field.1, d)
    some (.object (.ofList kept))
  | .array items =>
    if items.length = spec.length then do
      let kept ← (spec.zip items).mapM fun (pair : (String × Reading) × Document) => do
        let d ← pair.1.2 pair.2
        some (pair.1.1, d)
      some (.object (.ofList kept))
    else none
  | _ => none

end Reading

end PropTree
