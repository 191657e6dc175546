import PropTree.Navigation.Declared
import PropTree.Navigation.Property

set_option autoImplicit false

/-!
# Queries over values
-/

namespace PropTree

namespace Value

def storedType (entries : Assoc Value) (step : Step) : Descriptor :=
  let held := (entries.get? step.name).getD .null
  match step.index with
  | none => held.descriptor
  | some index => ((held.array?.getD [])[index]?.getD .null).descriptor

def storedHas (entries : Assoc Value) (step : Step) : Bool :=
  match entries.get? step.name, step.index with
  | none, _ => false
  | some _, none => true
  | some held, some index => index < (held.array?.getD []).length

/-- How a query goes on after a step: below a value that is there, or not at
all where the value is absent or the index out of range. -/
def reached (ctx : Context) (v : Value) (step : Step) : Except NavigationError (Option Value) :=
  match v.child ctx step .read with
  | .ok found => .ok (found.map Child.value)
  | .error (.indexOutOfRange _ _ _) => .ok none
  | .error e => .error e

def getterType (ctx : Context) (v : Value) (path : Path) : Except NavigationError Descriptor :=
  match v, path with
  | .record _ _, .malformed e => .error (.path e)
  | .record type _, .last step => ctx.schema.getterType type (.last step)
  | .record type fields, .next step rest =>
    match (Value.record type fields).reached ctx step with
    | .error e => .error e
    | .ok (some u) => u.getterType ctx rest
    | .ok none => ctx.schema.getterType type (.next step rest)
  | .map _, .malformed e => .error (.path e)
  | .map entries, .last step => .ok (storedType entries step)
  | .map entries, .next step rest =>
    match (Value.map entries).reached ctx step with
    | .error e => .error e
    | .ok (some u) => u.getterType ctx rest
    | .ok none => .ok .unknown
  | v, _ => v.refuse .getterType

def setterType (ctx : Context) (v : Value) (path : Path) : Except NavigationError Descriptor :=
  match v, path with
  | .record _ _, .malformed e => .error (.path e)
  | .record type _, .last step => ctx.schema.setterType type (.last step)
  | .record type fields, .next step rest =>
    match (Value.record type fields).reached ctx step with
    | .error e => .error e
    | .ok (some u) => u.setterType ctx rest
    | .ok none => ctx.schema.setterType type (.next step rest)
  | .map entries, path => (Value.map entries).getterType ctx path
  | v, _ => v.refuse .setterType

def hasGetter (ctx : Context) (v : Value) (path : Path) : Except NavigationError Bool :=
  match v, path with
  | .record _ _, .malformed e => .error (.path e)
  | .record type _, .last step => .ok ((ctx.schema.definition type).hasGetter step.name)
  | .record type fields, .next step rest =>
    if (ctx.schema.definition type).hasGetter step.name then
      match (Value.record type fields).reached ctx step with
      | .error e => .error e
      | .ok (some u) => if u.shape?.isSome then u.hasGetter ctx rest else .ok false
      | .ok none => ctx.schema.hasGetter type (.next step rest)
    else .ok false
  | .map _, .malformed e => .error (.path e)
  | .map entries, .last step => .ok (storedHas entries step)
  | .map entries, .next step rest =>
    if entries.contains step.name then
      match (Value.map entries).child ctx step .read with
      | .error (.indexOutOfRange _ _ _) => .ok false
      | .error e => .error e
      | .ok (some found) =>
        if found.value.shape?.isSome then found.value.hasGetter ctx rest else .ok false
      | .ok none => .ok true
    else .ok false
  | v, _ => v.refuse .hasGetter

/-- A write makes what it needs, so records and mappings accept every path. -/
def hasSetter (v : Value) : Except NavigationError Bool :=
  match v with
  | .record _ _ => .ok true
  | .map _ => .ok true
  | v => v.refuse .hasSetter

def findProperty (ctx : Context) (v : Value) (path : String) (relaxed : Bool) :
    Except NavigationError (Option String) :=
  match v with
  | .record type _ => .ok (ctx.schema.findProperty type relaxed (.ofText path))
  | .map _ => .ok (some path)
  | v => v.refuse .findProperty

def getterNames (ctx : Context) (v : Value) : Except NavigationError (List String) :=
  match v with
  | .record type _ => .ok (ctx.schema.definition type).getters.keys
  | .map entries => .ok entries.keys
  | v => v.refuse .getterNames

def setterNames (ctx : Context) (v : Value) : Except NavigationError (List String) :=
  match v with
  | .record type _ => .ok (ctx.schema.definition type).setters.keys
  | .map entries => .ok entries.keys
  | v => v.refuse .setterNames

def isCollection (v : Value) : Except NavigationError Bool :=
  v.shape.map (· = .sequence)

end Value

end PropTree
