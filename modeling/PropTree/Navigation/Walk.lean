import PropTree.Navigation.Property
import PropTree.Path.Basic

set_option autoImplicit false

/-!
# Walks along a path

A child that its parent stores is changed where it is, so a change made before an
error stays; a detached child is set again once everything below it has succeeded.
-/

namespace PropTree

def Path.check (p : Path) : Except NavigationError Unit :=
  match p.headError? with
  | some e => .error (.path e)
  | none => .ok ()

namespace Value

def read (ctx : Context) (v : Value) : Path → Except NavigationError (Option Value)
  | .malformed e => .error (.path e)
  | .last step => v.get ctx step
  | .next step rest => do
    let _ ← v.shape
    rest.check
    match ← v.child ctx step .read with
    | none => .ok none
    | some found => found.value.read ctx rest

/-- Give a changed child back to its parent: in place always, a detached one
through the setter if all went well. -/
def giveBack {α : Type} (ctx : Context) (parent : Value) (step : Step) (child : Child)
    (changed : Value × Except NavigationError α) : Value × Except NavigationError α :=
  match child with
  | .stored place _ => (parent.putAt place changed.1, changed.2)
  | .detached _ =>
    match changed.2 with
    | .error e => (parent, .error e)
    | .ok a =>
      match parent.set ctx step changed.1 with
      | (parent', .ok ()) => (parent', .ok a)
      | (parent', .error e) => (parent', .error e)

def write (ctx : Context) (root : Value) (path : Path) (new : Value) :
    Value × Except NavigationError Unit :=
  match path with
  | .malformed e => (root, .error (.path e))
  | .last step => root.set ctx step new
  | .next step rest =>
    match (do let _ ← root.shape; rest.check; root.child ctx step .write) with
    | .error e => (root, .error e)
    | .ok (some found) => root.giveBack ctx step found (found.value.write ctx rest new)
    | .ok none =>
      if new.isNull then (root, .ok ())
      else
        match root.instantiateChild ctx step with
        | (root', .error e) => (root', .error e)
        | (root', .ok made) => root'.giveBack ctx step made (made.value.write ctx rest new)

/-- Gives back the detached copies on the way only if the path leads to a
value. -/
def visit {α : Type} (ctx : Context) (root : Value) (path : Path)
    (f : Value → Value × Except NavigationError α) :
    Value × Except NavigationError (Option α) :=
  match path with
  | .malformed e => (root, .error (.path e))
  | .last step =>
    match root.child ctx step .read with
    | .error e => (root, .error e)
    | .ok none => (root, .ok none)
    | .ok (some found) =>
      root.giveBack ctx step found ((f found.value).map id (Except.map some))
  | .next step rest =>
    match root.child ctx step .read with
    | .error e => (root, .error e)
    | .ok none => (root, .ok none)
    | .ok (some found) =>
      match found.value.visit ctx rest f, found with
      | (_, .ok none), .detached _ => (root, .ok none)
      | changed, found => root.giveBack ctx step found changed

end Value

namespace Context

def getValue (ctx : Context) (root : Value) (path : String) :
    Except NavigationError (Option Value) :=
  root.read ctx (.ofText path)

def setValue (ctx : Context) (root : Value) (path : String) (new : Value) :
    Value × Except NavigationError Unit :=
  root.write ctx (.ofText path) new

end Context

end PropTree
