import PropTree.Navigation.InPlace

set_option autoImplicit false

namespace PropTree

inductive Request where
  | get (path : String)
  | set (path : String) (value : Value)
  | create (type : Descriptor)
  | find (path : String) (relaxed : Bool)
  | getterNames
  | setterNames
  | getterType (path : String)
  | setterType (path : String)
  | hasGetter (path : String)
  | hasSetter
  | isCollection
  | add (value : Value)
  | addAll (values : List Value)
  | value
  | shape
  | describe
  /-- Run a script on the value at a path. If the script stops at its first
  error, that error is the answer, and a detached value is not given back. -/
  | visit (path : String) (stops : Bool) (script : List Request)
  | stepGet (path : String)
  | stepSet (path : String) (value : Value)
  /-- The child that the first segment leads to, to be replaced by `put`. -/
  | stepChild (path : String) (lookup : Lookup) (put : Option Value)
  | stepInstantiate (path : String) (put : Option Value)

inductive Description where
  | record (typeName : String)
  | mapping
  | sequence (length : Nat)

inductive Reply where
  | done
  | found (value : Option Value)
  | value (v : Value)
  | name (name : Option String)
  | names (names : List String)
  | type (type : Descriptor)
  | truth (b : Bool)
  | shape (s : Shape)
  | description (d : Description)
  | visited (replies : Option (List (Except NavigationError Reply)))
  /-- A child; `put` tells the value that replaced it, if any. -/
  | child (child : Child) (put : Option Value)

abbrev Answer := Except NavigationError Reply

namespace Value

def headStep (v : Value) (path : String) : Except NavigationError Step :=
  match v.shape, Segment.parse path with
  | .error e, _ => .error e
  | .ok _, .error e => .error (.path e)
  | .ok _, .ok segment => .ok segment.step

/-- The parent after a value was put over a child: a detached child is no
longer part of it. -/
def putChild (v : Value) (child : Child) (put : Option Value) : Value :=
  match child, put with
  | .stored place _, some new => v.putAt place new
  | _, _ => v

def describe : Value → Except NavigationError Description
  | .record type _ => .ok (.record type.name)
  | .map _ => .ok .mapping
  | .array items => .ok (.sequence items.length)
  | v => .error (.unsupportedKind v.kind)

end Value

namespace Request

def acknowledge (o : Value × Except NavigationError Unit) : Value × Answer :=
  (o.1, o.2.map fun _ => .done)

mutual

def run (ctx : Context) (root : Value) : Request → Value × Answer
  | .get path => (root.readInPlace ctx (.ofText path)).map id (Except.map .found)
  | .set path v => acknowledge (ctx.setValue root path v)
  | .create type => (root, (liftSchema (ctx.create type)).map .value)
  | .find path relaxed => (root, (root.findProperty ctx path relaxed).map .name)
  | .getterNames => (root, (root.getterNames ctx).map .names)
  | .setterNames => (root, (root.setterNames ctx).map .names)
  | .getterType path => (root.getterTypeInPlace ctx (.ofText path)).map id (Except.map .type)
  | .setterType path => (root.setterTypeInPlace ctx (.ofText path)).map id (Except.map .type)
  | .hasGetter path => (root.hasGetterInPlace ctx (.ofText path)).map id (Except.map .truth)
  | .hasSetter => (root, root.hasSetter.map .truth)
  | .isCollection => (root, root.isCollection.map .truth)
  | .add v => acknowledge (root.add v)
  | .addAll vs => acknowledge (root.addAll vs)
  | .value => (root, .ok (.value root))
  | .shape => (root, root.shape.map .shape)
  | .describe => (root, root.describe.map .description)
  | .visit path stops script =>
    let o := root.visit ctx (.ofText path) fun v => runAll ctx stops v script
    (o.1, o.2.map .visited)
  | .stepGet path =>
    (root, (do let step ← root.headStep path; root.get ctx step).map .found)
  | .stepSet path v =>
    match root.headStep path with
    | .error e => (root, .error e)
    | .ok step => acknowledge (root.set ctx step v)
  | .stepChild path lookup put =>
    match (do let step ← root.headStep path; root.child ctx step lookup) with
    | .error e => (root, .error e)
    | .ok none => (root, .ok (.found none))
    | .ok (some child) => (root.putChild child put, .ok (.child child put))
  | .stepInstantiate path put =>
    match root.headStep path with
    | .error e => (root, .error e)
    | .ok step =>
      match root.instantiateChild ctx step with
      | (root', .error e) => (root', .error e)
      | (root', .ok child) => (root'.putChild child put, .ok (.child child put))

def runAll (ctx : Context) (stops : Bool) (root : Value) :
    List Request → Value × Except NavigationError (List Answer)
  | [] => (root, .ok [])
  | request :: rest =>
    match run ctx root request with
    | (root', answer) =>
      match stops, answer with
      | true, .error e => (root', .error e)
      | _, _ =>
        match runAll ctx stops root' rest with
        | (root'', .ok answers) => (root'', .ok (answer :: answers))
        | (root'', .error e) => (root'', .error e)

end

def changes : Request → Bool
  | .set _ _ => true
  | .add _ => true
  | .addAll _ => true
  | .visit _ _ _ => true
  | .stepSet _ _ => true
  | .stepChild _ _ _ => true
  | .stepInstantiate _ _ => true
  | _ => false

end Request

end PropTree
