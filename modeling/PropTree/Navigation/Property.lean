import PropTree.Navigation.Element

set_option autoImplicit false

/-!
# Single steps

An operation that can change its target gives the target it leaves, also when it
fails: what was changed before the failure stays.
-/

namespace PropTree

structure Context where
  schema : Schema
  create : Factory

def Context.ofSchema (schema : Schema) : Context := ⟨schema, schema.instantiate⟩

namespace Context

def createFor (ctx : Context) (property : String) (target : Descriptor) :
    Except NavigationError Value :=
  match ctx.create target with
  | .ok v => .ok v
  | .error e => .error (.instantiation property target (.ofSchema e))

end Context

namespace Record

def invokeGetter (r : Record) (name : String) (g : Getter) : Except NavigationError Value :=
  match g.invoke r with
  | .ok v => .ok v
  | .error e => .error (.invoke .getter r.type.name name e)

def readProperty (ctx : Context) (r : Record) (name : String) : Except NavigationError Value :=
  match ctx.schema.getter r.type name with
  | .ok g => r.invokeGetter name g.access
  | .error e => .error (.ofSchema e)

def writeProperty (ctx : Context) (r : Record) (name : String) (v : Value) :
    Fields × Except NavigationError Unit :=
  match ctx.schema.setter r.type name with
  | .error e => (r.fields, .error (.ofSchema e))
  | .ok s =>
    match s.access.invoke r v with
    | (fields, .ok ()) => (fields, .ok ())
    | (fields, .error e) => (fields, .error (.invoke .setter r.type.name name e))

def get (ctx : Context) (r : Record) (step : Step) : Except NavigationError (Option Value) :=
  match r.readProperty ctx step.name with
  | .error e => .error e
  | .ok v =>
    match step.index with
    | none => .ok (some v)
    | some index => (v.element step.name index).map some

/-- The sequence to put an element into: what the property holds or, in place
of a null, a new value of the declared type. -/
def collectionFor (ctx : Context) (name : String) (declared : Descriptor) (held : Value) :
    Except NavigationError Value :=
  if held.isNull then ctx.createFor name declared else .ok held

/-- A stored sequence is changed where it is, and a field without storage gets
storage first. A sequence behind a getter function is copied, changed and
written back through the setter. -/
def setElement (ctx : Context) (r : Record) (name : String) (index : Nat) (v : Value) :
    Fields × Except NavigationError Unit :=
  match ctx.schema.getter r.type name with
  | .error e => (r.fields, .error (.ofSchema e))
  | .ok g =>
    match g.access with
    | .field key =>
      let held := (r.fields.get? key).getD .null
      match collectionFor ctx name g.type held with
      | .error e => (r.fields.insert key held, .error e)
      | .ok collection =>
        match collection.setElement name index v with
        | .error e => (r.fields.insert key collection, .error e)
        | .ok changed => (r.fields.insert key changed, .ok ())
    | .method run =>
      match r.invokeGetter name (.method run) with
      | .error e => (r.fields, .error e)
      | .ok held =>
        match collectionFor ctx name g.type held with
        | .error e => (r.fields, .error e)
        | .ok collection =>
          match collection.setElement name index v with
          | .error e => (r.fields, .error e)
          | .ok changed => r.writeProperty ctx name changed

def set (ctx : Context) (r : Record) (step : Step) (v : Value) :
    Fields × Except NavigationError Unit :=
  match step.index with
  | none => r.writeProperty ctx step.name v
  | some index => r.setElement ctx step.name index v

def childValue (held : Value) (step : Step) (lookup : Lookup) :
    Except NavigationError (Option Value) :=
  match step.index with
  | none => .ok (if held.isNull then none else some held)
  | some index => held.elementChild step.name index lookup

/-- A lookup never makes storage, so it leaves the record as it is: a field
without storage is looked at as a null. -/
def child (ctx : Context) (r : Record) (step : Step) (lookup : Lookup) :
    Except NavigationError (Option Child) :=
  match ctx.schema.getter r.type step.name with
  | .error e => .error (.ofSchema e)
  | .ok g =>
    match g.access with
    | .field key =>
      (childValue ((r.fields.get? key).getD .null) step lookup).map fun found =>
        found.map (.stored ⟨key, step.index⟩)
    | .method run =>
      match r.invokeGetter step.name (.method run) with
      | .error e => .error e
      | .ok held => (childValue held step lookup).map fun found => found.map .detached

def instantiateChild (ctx : Context) (r : Record) (step : Step) :
    Fields × Except NavigationError Child :=
  match ctx.schema.setter r.type step.name with
  | .error e => (r.fields, .error (.ofSchema e))
  | .ok s =>
    let target := if step.index.isSome then s.type.element else s.type
    match ctx.createFor step.name target with
    | .error e => (r.fields, .error e)
    | .ok created =>
      match r.set ctx step created with
      | (fields, .error e) => (fields, .error (.instantiation step.name target e))
      | (fields, .ok ()) =>
        match child ctx ⟨r.type, fields⟩ step .write with
        | .ok (some found) => (fields, .ok found)
        | .ok none => (fields, .error (.instantiation step.name target .readsBackAbsent))
        | .error e => (fields, .error (.instantiation step.name target e))

end Record

namespace Mapping

/-- A key that is not there is an absent value, but has no elements. -/
def get (entries : Assoc Value) (step : Step) : Except NavigationError (Option Value) :=
  match step.index with
  | none => .ok (entries.get? step.name)
  | some index =>
    (((entries.get? step.name).getD .null).element step.name index).map some

/-- An element may be put under a new key, and a null there becomes an empty
sequence first. -/
def set (entries : Assoc Value) (step : Step) (v : Value) :
    Assoc Value × Except NavigationError Unit :=
  match step.index with
  | none => (entries.insert step.name v, .ok ())
  | some index =>
    let held := (entries.get? step.name).getD .null
    let collection := if held.isNull then .array [] else held
    match collection.setElement step.name index v with
    | .error e => (entries.insert step.name collection, .error e)
    | .ok changed => (entries.insert step.name changed, .ok ())

def child (entries : Assoc Value) (step : Step) (lookup : Lookup) :
    Except NavigationError (Option Child) :=
  match entries.get? step.name with
  | none => .ok none
  | some held =>
    if held.isNull then .ok none
    else
      match step.index with
      | none => .ok (some (.stored ⟨step.name, none⟩ held))
      | some index =>
        (held.elementChild step.name index lookup).map fun found =>
          found.map (.stored ⟨step.name, some index⟩)

def instantiateChild (entries : Assoc Value) (step : Step) :
    Assoc Value × Except NavigationError Child :=
  match set entries step (.map .empty) with
  | (entries', .error e) => (entries', .error e)
  | (entries', .ok ()) =>
    match child entries' step .write with
    | .ok (some found) => (entries', .ok found)
    | .ok none => (entries', .error (.instantiation step.name (.map .unknown) .readsBackAbsent))
    | .error e => (entries', .error e)

end Mapping

namespace Value

def shape? : Value → Option Shape
  | .record _ _ => some .record
  | .map _ => some .mapping
  | .array _ => some .sequence
  | _ => none

def shape (v : Value) : Except NavigationError Shape :=
  match v.shape? with
  | some s => .ok s
  | none => .error (.unsupportedKind v.kind)

def refuse {α : Type} (v : Value) (operation : Operation) : Except NavigationError α :=
  match v.shape? with
  | some s => .error (.unsupportedOperation operation s)
  | none => .error (.unsupportedKind v.kind)

def get (ctx : Context) (v : Value) (step : Step) : Except NavigationError (Option Value) :=
  match v with
  | .record type fields => Record.get ctx ⟨type, fields⟩ step
  | .map entries => Mapping.get entries step
  | v => v.refuse .get

def set (ctx : Context) (v : Value) (step : Step) (new : Value) :
    Value × Except NavigationError Unit :=
  match v with
  | .record type fields =>
    let (fields', result) := Record.set ctx ⟨type, fields⟩ step new
    (.record type fields', result)
  | .map entries =>
    let (entries', result) := Mapping.set entries step new
    (.map entries', result)
  | v => (v, v.refuse .set)

/-- A lookup never makes storage, also for a write: it has no changed target to
give. -/
def child (ctx : Context) (v : Value) (step : Step) (lookup : Lookup) :
    Except NavigationError (Option Child) :=
  match v with
  | .record type fields => Record.child ctx ⟨type, fields⟩ step lookup
  | .map entries => Mapping.child entries step lookup
  | v => v.refuse .get

def instantiateChild (ctx : Context) (v : Value) (step : Step) :
    Value × Except NavigationError Child :=
  match v with
  | .record type fields =>
    let (fields', result) := Record.instantiateChild ctx ⟨type, fields⟩ step
    (.record type fields', result)
  | .map entries =>
    let (entries', result) := Mapping.instantiateChild entries step
    (.map entries', result)
  | v => (v, v.refuse .instantiateChild)

def putAt (v : Value) (place : Place) (new : Value) : Value :=
  match v with
  | .record type fields => .record type (fields.putAt place new)
  | .map entries => .map (entries.putAt place new)
  | v => v

def add (v new : Value) : Value × Except NavigationError Unit :=
  match v with
  | .array items => (.array (items ++ [new]), .ok ())
  | v => (v, v.refuse .add)

def addAll (v : Value) (new : List Value) : Value × Except NavigationError Unit :=
  match v with
  | .array items => (.array (items ++ new), .ok ())
  | v => (v, v.refuse .addAll)

end Value

end PropTree
