import PropTree.Navigation.Error
import PropTree.Path.Basic

set_option autoImplicit false

/-!
# Queries over declared types
-/

namespace PropTree

namespace Descriptor

def ofStep (declared : Descriptor) (step : Step) : Descriptor :=
  if step.index.isSome then declared.element else declared

end Descriptor

namespace Schema

def stepType (s : Schema) (type : TypeRef) (step : Step) : Except NavigationError Descriptor :=
  match s.getter type step.name with
  | .ok g => .ok (g.type.ofStep step)
  | .error e => .error (.ofSchema e)

def propertyType (s : Schema) (type : TypeRef) (step : Step) :
    Except NavigationError (Option TypeRef) :=
  (s.stepType type step).map s.recordOf?

def hasGetter (s : Schema) (type : TypeRef) : Path → Except NavigationError Bool
  | .malformed e => .error (.path e)
  | .last step => .ok ((s.definition type).hasGetter step.name)
  | .next step rest =>
    if (s.definition type).hasGetter step.name then
      match s.propertyType type step with
      | .error e => .error e
      | .ok none => .ok false
      | .ok (some below) => s.hasGetter below rest
    else .ok false

def hasSetter (s : Schema) (type : TypeRef) : Path → Except NavigationError Bool
  | .malformed e => .error (.path e)
  | .last step => .ok ((s.definition type).hasSetter step.name)
  | .next step rest =>
    if (s.definition type).hasGetter step.name then
      match s.propertyType type step with
      | .error e => .error e
      | .ok none => .ok false
      | .ok (some below) => s.hasSetter below rest
    else .ok false

def belowUndeclared (declared : Descriptor) (rest : Path) : Except NavigationError Descriptor :=
  match declared, rest with
  | .unknown, _ => .ok .unknown
  | .map _, _ => .ok .unknown
  | _, .malformed e => .error (.path e)
  | _, .last step => .error (.noSuchProperty declared.text step.name .getter)
  | _, .next step _ => .error (.noSuchProperty declared.text step.name .getter)

def getterType (s : Schema) (type : TypeRef) : Path → Except NavigationError Descriptor
  | .malformed e => .error (.path e)
  | .last step => s.stepType type step
  | .next step rest =>
    match s.stepType type step with
    | .error e => .error e
    | .ok declared =>
      match s.recordOf? declared with
      | some below => s.getterType below rest
      | none => belowUndeclared declared rest

def setterType (s : Schema) (type : TypeRef) : Path → Except NavigationError Descriptor
  | .malformed e => .error (.path e)
  | .last step =>
    match s.setter type step.name with
    | .ok set => .ok (set.type.ofStep step)
    | .error e => .error (.ofSchema e)
  | .next step rest =>
    match s.stepType type step with
    | .error e => .error e
    | .ok declared =>
      match s.recordOf? declared with
      | some below => s.setterType below rest
      | none => belowUndeclared declared rest

def spell (name : String) (index : Option Nat) : String :=
  match index with
  | none => name
  | some i => name ++ "[" ++ toString i ++ "]"

/-- The path as declared names spell it. A longer path goes on below the
property that was found, through its getter. -/
def findProperty (s : Schema) (type : TypeRef) (relaxed : Bool) : Path → Option String
  | .malformed _ => none
  | .last step =>
    ((s.definition type).findProperty step.name relaxed).map fun name => spell name step.index
  | .next step rest =>
    match (s.definition type).findProperty step.name relaxed with
    | none => none
    | some name =>
      match s.propertyType type ⟨name, step.index⟩ with
      | .ok (some below) =>
        (s.findProperty below relaxed rest).map fun found =>
          spell name step.index ++ "." ++ found
      | _ => none

end Schema

end PropTree
