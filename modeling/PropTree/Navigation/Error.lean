import PropTree.Path.Segment
import PropTree.Record.Schema

set_option autoImplicit false

namespace PropTree

inductive Shape where
  | record
  | mapping
  | sequence
deriving DecidableEq, Repr

def Shape.text : Shape → String
  | .record => "bean"
  | .mapping => "map"
  | .sequence => "collection"

inductive Operation where
  | get
  | set
  | instantiateChild
  | findProperty
  | getterNames
  | setterNames
  | getterType
  | setterType
  | hasGetter
  | hasSetter
  | add
  | addAll
deriving DecidableEq, Repr

def Operation.text : Operation → String
  | .get => "get"
  | .set => "set"
  | .instantiateChild => "instantiate_child"
  | .findProperty => "find_property"
  | .getterNames => "getter_names"
  | .setterNames => "setter_names"
  | .getterType => "getter_type"
  | .setterType => "setter_type"
  | .hasGetter => "has_getter"
  | .hasSetter => "has_setter"
  | .add => "add"
  | .addAll => "add_all"

inductive NavigationError where
  | noSuchProperty (typeName property : String) (accessor : Accessor)
  | indexOutOfRange (property : String) (index length : Nat)
  | notASequence (property : String) (found : Kind)
  /-- An absent property cannot be filled with a new value of its type. -/
  | instantiation (property : String) (target : Descriptor) (cause : NavigationError)
  /-- The cause of an `instantiation` error whose new value is not there afterwards. -/
  | readsBackAbsent
  | unsupportedOperation (operation : Operation) (shape : Shape)
  | unsupportedKind (found : Kind)
  | path (e : PathError)
  | invoke (accessor : Accessor) (typeName property : String) (cause : InvokeError)
  | schema (e : SchemaError)
deriving DecidableEq, Repr

namespace NavigationError

def ofSchema : SchemaError → NavigationError
  | .noSuchProperty typeName property accessor => .noSuchProperty typeName property accessor
  | e => .schema e

def message : NavigationError → String
  | .noSuchProperty typeName property accessor =>
    (SchemaError.noSuchProperty typeName property accessor).message
  | .indexOutOfRange property index length =>
    "index " ++ toString index ++ " out of range for '" ++ property ++ "' (length " ++
      toString length ++ ")"
  | .notASequence property found =>
    "'" ++ property ++ "' is not a sequence (found " ++ found.text ++ ")"
  | .instantiation property target cause =>
    "cannot set value of property '" ++ property ++
      "' because it is absent and cannot be instantiated as " ++ target.text ++ ": " ++
      cause.message
  | .readsBackAbsent => "the instantiated value reads back as absent"
  | .unsupportedOperation operation shape =>
    operation.text ++ " is not supported on a " ++ shape.text
  | .unsupportedKind found => "cannot navigate into a value of kind " ++ found.text
  | .path e => "path error: " ++ e.message
  | .invoke accessor typeName property cause =>
    accessor.text ++ " of '" ++ property ++ "' in '" ++ typeName ++ "' failed: " ++ cause.message
  | .schema e => e.message

def cause? : NavigationError → Option String
  | .instantiation _ _ cause => some cause.message
  | .path e => some e.message
  | .invoke _ _ _ cause => some cause.message
  | .schema e => some e.message
  | _ => none

end NavigationError

def liftSchema {α : Type} : Except SchemaError α → Except NavigationError α
  | .ok a => .ok a
  | .error e => .error (.ofSchema e)

end PropTree
