import PropTree.Document.Basic
import PropTree.Document.Error
import PropTree.Numeric.Form
import PropTree.Record.Schema

set_option autoImplicit false

/-!
# Documents as values of declared types

Keys of an object are matched to properties by their relaxed form, and every
property is written through its setter, in key order.
-/

namespace PropTree

namespace Document

def joinPath (path key : String) : String := if path.isEmpty then key else path ++ "." ++ key

def itemPath (path : String) (i : Nat) : String := path ++ "[" ++ toString i ++ "]"

/-- Scalars have to be of the declared kind, but any number reads as a float. -/
def typedScalar (path : String) (declared : Descriptor) (d : Document) :
    Except DocumentError Value :=
  match declared, d with
  | .bytes, .string s =>
    match Base64.decode s with
    | some data => .ok (.bytes data)
    | none => .error .decode
  | .float, .integer n => .ok (.float (.ofInt n.val))
  | .float, .float x => .ok (.float x.val)
  | .bool, .bool b => .ok (.bool b)
  | .string, .string s => .ok (.string s)
  | .integer, .integer n =>
    match valueOfInt n with
    | .integer i => .ok (.integer i)
    | v => .error (.mismatch path declared v.kind)
  | _, d => .error (.mismatch path declared d.kind)

/-- The property a key means, with its setter. -/
def propertyFor (s : Schema) (type : TypeRef) (typeName path key : String) :
    Except DocumentError (Declared Setter) :=
  match (s.definition type).findProperty key true with
  | some name =>
    match s.setter type name with
    | .ok set => .ok set
    | .error _ => .error (.property path (.noSuchProperty typeName key .setter))
  | none => .error (.property path (.noSuchProperty typeName key .setter))

mutual

def typedAt (s : Schema) (path : String) (declared : Descriptor) :
    Document → Except DocumentError Value
  | .null => .ok .null
  | .object ⟨entries⟩ =>
    match declared with
    | .unknown => .ok (.map ⟨toEntries entries⟩)
    | .record name =>
      match s.require name with
      | .error e => .error (.schema e)
      | .ok type =>
        (typedFields s path name (s.newRecord type) entries).map Value.ofRecord
    | .map element =>
      (typedEntries s path element entries).map fun values => .map ⟨values⟩
    | declared => .error (.mismatch path declared .map)
  | .array items =>
    match declared with
    | .unknown => .ok (.array (toItems items))
    | .list element => (typedItems s path element 0 items).map .array
    | declared => .error (.mismatch path declared .array)
  | d =>
    match declared with
    | .unknown => .ok d.toValue
    | declared => typedScalar path declared d

def typedItems (s : Schema) (path : String) (element : Descriptor) (i : Nat) :
    List Document → Except DocumentError (List Value)
  | [] => .ok []
  | d :: rest => do
    let v ← typedAt s (itemPath path i) element d
    let vs ← typedItems s path element (i + 1) rest
    .ok (v :: vs)

def typedEntries (s : Schema) (path : String) (element : Descriptor) :
    List (String × Document) → Except DocumentError (List (String × Value))
  | [] => .ok []
  | (key, d) :: rest => do
    let v ← typedAt s (joinPath path key) element d
    let vs ← typedEntries s path element rest
    .ok ((key, v) :: vs)

def typedFields (s : Schema) (path typeName : String) (r : Record) :
    List (String × Document) → Except DocumentError Record
  | [] => .ok r
  | (key, d) :: rest => do
    let set ← propertyFor s r.type typeName (joinPath path key) key
    let v ← typedAt s (joinPath path key) set.type d
    match set.access.invoke r v with
    | (_, .error e) => .error (.invoke (joinPath path key) e)
    | (fields, .ok ()) => typedFields s path typeName ⟨r.type, fields⟩ rest

end

def toTyped (s : Schema) (d : Document) (declared : Descriptor) : Except DocumentError Value :=
  typedAt s "" declared d

/-- The document as a record; here a null does not stand for one. -/
def toRecord (s : Schema) (d : Document) (typeName : String) : Except DocumentError Record :=
  match d with
  | .object entries =>
    match s.require typeName with
    | .error e => .error (.schema e)
    | .ok type => typedFields s "" typeName (s.newRecord type) entries.entries
  | d => .error (.mismatch "" (.record typeName) d.kind)

def keyText? : Document → Option String
  | .string s => some s
  | .bool b => some (toString b)
  | .integer n => some (toString n.val)
  | .float x => some (NumberForm.keyed.write x.val)
  | _ => none

def ofPairs (pairs : List (Document × Document)) : Except DocumentError Document := do
  let entries ← pairs.mapM fun pair =>
    match pair.1.keyText? with
    | some key => .ok (key, pair.2)
    | none => .error .keyNotText
  .ok (.object (.ofList entries))

end Document

end PropTree
