import PropTree.Record.Error
import PropTree.Text.Quoted
import PropTree.Text.UpperCase
import PropTree.Value.Basic

set_option autoImplicit false

/-!
# Record types

The two halves of a property are declared independently; a later declaration of a
name replaces the halves it declares itself and leaves the others.
-/

namespace PropTree

inductive Getter where
  | field (key : String)
  | method (run : Record → Except InvokeError Value)

/-- A setter function gives the fields it leaves, also when it refuses. It keeps
the type of its record: a function that puts another record in its place is not
a setter here. -/
inductive Setter where
  | field (key : String)
  | method (run : Record → Value → Fields × Except InvokeError Unit)

namespace Getter

def invoke (g : Getter) (r : Record) : Except InvokeError Value :=
  match g with
  | .field key => .ok ((r.fields.get? key).getD .null)
  | .method run => run r

def key? : Getter → Option String
  | .field key => some key
  | .method _ => none

def text : Getter → String
  | .field key => "Field(" ++ Quoted.quote key ++ ")"
  | .method _ => "Method(..)"

end Getter

namespace Setter

def invoke (s : Setter) (r : Record) (v : Value) : Fields × Except InvokeError Unit :=
  match s with
  | .field key => (r.fields.insert key v, .ok ())
  | .method run => run r v

def text : Setter → String
  | .field key => "Field(" ++ Quoted.quote key ++ ")"
  | .method _ => "Method(..)"

end Setter

structure Declared (α : Type) where
  type : Descriptor
  access : α

structure RecordType where
  getters : Assoc (Declared Getter) := .empty
  setters : Assoc (Declared Setter) := .empty
  defaults : Fields := .empty
  canonical : Assoc String := .empty

inductive Declaration where
  | field (name : String) (type : Descriptor)
  | readOnly (name : String) (type : Descriptor)
  | computed (name : String) (type : Descriptor)
      (get : Record → Except InvokeError Value)
  | accessor (name : String) (type : Descriptor)
      (get : Record → Except InvokeError Value)
      (set : Record → Value → Fields × Except InvokeError Unit)
  | writeOnly (name : String) (type : Descriptor)
      (set : Record → Value → Fields × Except InvokeError Unit)

def Declaration.name : Declaration → String
  | .field name _ => name
  | .readOnly name _ => name
  | .computed name _ _ => name
  | .accessor name _ _ _ => name
  | .writeOnly name _ _ => name

namespace RecordType

def relaxedForm (name : String) : String :=
  UpperCase.ofText (String.ofList (name.toList.filter (· ≠ '_')))

def withGetter (t : RecordType) (name : String) (type : Descriptor) (g : Getter) : RecordType :=
  { t with getters := t.getters.insert name ⟨type, g⟩ }

def withSetter (t : RecordType) (name : String) (type : Descriptor) (s : Setter) : RecordType :=
  { t with setters := t.setters.insert name ⟨type, s⟩ }

def withDefault (t : RecordType) (name : String) (type : Descriptor) : RecordType :=
  { t with defaults := t.defaults.insert name type.default }

def declare (t : RecordType) : Declaration → RecordType
  | .field name type =>
    ((t.withSetter name type (.field name)).withGetter name type (.field name)).withDefault
      name type
  | .readOnly name type => (t.withGetter name type (.field name)).withDefault name type
  | .computed name type get => t.withGetter name type (.method get)
  | .accessor name type get set =>
    (t.withSetter name type (.method set)).withGetter name type (.method get)
  | .writeOnly name type set => t.withSetter name type (.method set)

/-- Of names with one relaxed form the last stands for all, in the order of
the getters followed by the setters. -/
def indexNames (t : RecordType) : RecordType :=
  { t with
    canonical := .ofList ((t.getters.keys ++ t.setters.keys).map fun name =>
      (relaxedForm name, name)) }

def build (declarations : List Declaration) : RecordType :=
  (declarations.foldl declare {}).indexNames

def sparse (t : RecordType) : RecordType := { t with defaults := .empty }

def hasGetter (t : RecordType) (name : String) : Bool := t.getters.contains name

def hasSetter (t : RecordType) (name : String) : Bool := t.setters.contains name

def findProperty (t : RecordType) (name : String) (relaxed : Bool) : Option String :=
  if relaxed then t.canonical.get? (relaxedForm name)
  else if t.hasGetter name || t.hasSetter name then some name
  else none

end RecordType

end PropTree
