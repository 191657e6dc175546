import PropTree.Navigation.Inspect
import PropTree.Navigation.Walk

set_option autoImplicit false

/-!
# Queries in place

A query enters a stored child where it is, not a copy of it, so it gives the tree
that it leaves beside its answer.
-/

namespace PropTree

namespace Value

/-- Put a question to the child a step leads to and leave the parent with the
child that the question leaves. `absent` is the answer if there is no child,
`failed` what is made of an error on the way to it. -/
def askChild {α : Type} (ctx : Context) (root : Value) (step : Step)
    (absent : Except NavigationError α) (failed : NavigationError → Except NavigationError α)
    (ask : Value → Value × Except NavigationError α) : Value × Except NavigationError α :=
  match root.child ctx step .read with
  | .error e => (root, failed e)
  | .ok none => (root, absent)
  | .ok (some (.stored place v)) => (root.putAt place (ask v).1, (ask v).2)
  | .ok (some (.detached v)) => (root, (ask v).2)

/-- An index out of range counts as an absent element. -/
def unlessOutOfRange {α : Type} (answer : Except NavigationError α) :
    NavigationError → Except NavigationError α
  | .indexOutOfRange _ _ _ => answer
  | e => .error e

def readInPlace (ctx : Context) (root : Value) :
    Path → Value × Except NavigationError (Option Value)
  | .malformed e => (root, .error (.path e))
  | .last step => (root, root.get ctx step)
  | .next step rest =>
    match (do let _ ← root.shape; rest.check) with
    | .error e => (root, .error e)
    | .ok () => root.askChild ctx step (.ok none) .error fun v => v.readInPlace ctx rest

def getterTypeInPlace (ctx : Context) (root : Value) (path : Path) :
    Value × Except NavigationError Descriptor :=
  match root, path with
  | .record type fields, .next step rest =>
    let declared := ctx.schema.getterType type (.next step rest)
    (Value.record type fields).askChild ctx step declared (unlessOutOfRange declared) fun v =>
      v.getterTypeInPlace ctx rest
  | .map entries, .next step rest =>
    (Value.map entries).askChild ctx step (.ok .unknown) (unlessOutOfRange (.ok .unknown)) fun v =>
      v.getterTypeInPlace ctx rest
  | root, path => (root, root.getterType ctx path)

def setterTypeInPlace (ctx : Context) (root : Value) (path : Path) :
    Value × Except NavigationError Descriptor :=
  match root, path with
  | .record type fields, .next step rest =>
    let declared := ctx.schema.setterType type (.next step rest)
    (Value.record type fields).askChild ctx step declared (unlessOutOfRange declared) fun v =>
      v.setterTypeInPlace ctx rest
  | .map entries, path => (Value.map entries).getterTypeInPlace ctx path
  | root, path => (root, root.setterType ctx path)

def hasGetterInPlace (ctx : Context) (root : Value) (path : Path) :
    Value × Except NavigationError Bool :=
  match root, path with
  | .record type fields, .next step rest =>
    if (ctx.schema.definition type).hasGetter step.name then
      let declared := ctx.schema.hasGetter type (.next step rest)
      (Value.record type fields).askChild ctx step declared (unlessOutOfRange declared) fun v =>
        if v.shape?.isSome then v.hasGetterInPlace ctx rest else (v, .ok false)
    else (.record type fields, .ok false)
  | .map entries, .next step rest =>
    if entries.contains step.name then
      (Value.map entries).askChild ctx step (.ok true) (unlessOutOfRange (.ok false)) fun v =>
        if v.shape?.isSome then v.hasGetterInPlace ctx rest else (v, .ok false)
    else (.map entries, .ok false)
  | root, path => (root, root.hasGetter ctx path)

end Value

end PropTree
