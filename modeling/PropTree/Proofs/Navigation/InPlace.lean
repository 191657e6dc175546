import PropTree.Navigation.Request
import PropTree.Proofs.Navigation.Visit

set_option autoImplicit false

/-!
# Queries leave the tree as it was
-/

namespace PropTree

namespace Value

variable {ctx : Context} {root : Value} {step : Step}

section AskChild

variable {α : Type} {absent : Except NavigationError α}
  {failed : NavigationError → Except NavigationError α}

theorem askChild_of_keeps (answer : Value → Except NavigationError α) :
    root.askChild ctx step absent failed (fun v => (v, answer v)) =
      (root,
        match root.child ctx step .read with
        | .error e => failed e
        | .ok none => absent
        | .ok (some c) => answer c.value) := by
  unfold askChild
  cases hc : root.child ctx step .read with
  | error e => rfl
  | ok found =>
    cases found with
    | none => rfl
    | some c =>
      cases c with
      | stored place v => exact Prod.ext (putAt_of_child hc) rfl
      | detached v => rfl

theorem askChild_reached (declared : Except NavigationError α)
    (answer : Value → Except NavigationError α) :
    root.askChild ctx step declared (unlessOutOfRange declared) (fun v => (v, answer v)) =
      (root,
        match root.reached ctx step with
        | .error e => .error e
        | .ok (some u) => answer u
        | .ok none => declared) := by
  rw [askChild_of_keeps, reached]
  cases root.child ctx step .read with
  | error e => cases e <;> rfl
  | ok found => cases found <;> rfl

end AskChild

theorem readInPlace_eq (ctx : Context) (root : Value) (path : Path) :
    root.readInPlace ctx path = (root, root.read ctx path) := by
  induction path generalizing root with
  | malformed e => rfl
  | last step => rfl
  | next step rest ih =>
    simp only [readInPlace, ih, askChild_of_keeps, read]
    cases root.shape with
    | error e => rfl
    | ok shape =>
      cases rest.check with
      | error e => rfl
      | ok _ =>
        cases root.child ctx step .read with
        | error e => rfl
        | ok found => cases found <;> rfl

theorem getterTypeInPlace_eq (ctx : Context) (root : Value) (path : Path) :
    root.getterTypeInPlace ctx path = (root, root.getterType ctx path) := by
  induction path generalizing root with
  | malformed e => cases root <;> rfl
  | last step => cases root <;> rfl
  | next step rest ih =>
    cases root with
    | record type fields =>
      simp only [getterTypeInPlace, ih]
      exact askChild_reached _ _
    | map entries =>
      simp only [getterTypeInPlace, ih]
      exact askChild_reached _ _
    | _ => rfl

theorem setterTypeInPlace_eq (ctx : Context) (root : Value) (path : Path) :
    root.setterTypeInPlace ctx path = (root, root.setterType ctx path) := by
  induction path generalizing root with
  | malformed e => cases root <;> rfl
  | last step => cases root <;> rfl
  | next step rest ih =>
    cases root with
    | record type fields =>
      simp only [setterTypeInPlace, ih]
      exact askChild_reached _ _
    | map entries => exact getterTypeInPlace_eq ctx (.map entries) (.next step rest)
    | _ => rfl

theorem hasGetterInPlace_eq (ctx : Context) (root : Value) (path : Path) :
    root.hasGetterInPlace ctx path = (root, root.hasGetter ctx path) := by
  induction path generalizing root with
  | malformed e => cases root <;> rfl
  | last step => cases root <;> rfl
  | next step rest ih =>
    have hbelow : (fun v : Value =>
        if v.shape?.isSome then v.hasGetterInPlace ctx rest else (v, .ok false)) =
        fun v => (v, if v.shape?.isSome then v.hasGetter ctx rest else .ok false) := by
      funext v
      rw [ih]
      split <;> rfl
    cases root with
    | record type fields =>
      simp only [hasGetterInPlace, hbelow, askChild_reached, hasGetter]
      split <;> rfl
    | map entries =>
      simp only [hasGetterInPlace, hbelow, askChild_of_keeps, hasGetter]
      split
      · cases (Value.map entries).child ctx step .read with
        | error e => cases e <;> rfl
        | ok found => cases found <;> rfl
      · rfl
    | _ => rfl

end Value

namespace Request

variable {ctx : Context} {root : Value}

@[simp] theorem run_get (path : String) :
    run ctx root (.get path) = (root, (ctx.getValue root path).map .found) := by
  rw [run, Value.readInPlace_eq]
  rfl

@[simp] theorem run_getterType (path : String) :
    run ctx root (.getterType path) =
      (root, (root.getterType ctx (.ofText path)).map .type) := by
  rw [run, Value.getterTypeInPlace_eq]
  rfl

@[simp] theorem run_setterType (path : String) :
    run ctx root (.setterType path) =
      (root, (root.setterType ctx (.ofText path)).map .type) := by
  rw [run, Value.setterTypeInPlace_eq]
  rfl

@[simp] theorem run_hasGetter (path : String) :
    run ctx root (.hasGetter path) =
      (root, (root.hasGetter ctx (.ofText path)).map .truth) := by
  rw [run, Value.hasGetterInPlace_eq]
  rfl

theorem fst_run_of_not_changes {request : Request} (h : request.changes = false) :
    (run ctx root request).1 = root := by
  cases request with
  | get path => rw [run_get]
  | getterType path => rw [run_getterType]
  | setterType path => rw [run_setterType]
  | hasGetter path => rw [run_hasGetter]
  | set | add | addAll | visit | stepSet | stepChild | stepInstantiate => nomatch h
  | _ => rfl

theorem fst_runAll_of_not_changes {stops : Bool} {script : List Request}
    (h : ∀ request ∈ script, request.changes = false) :
    (runAll ctx stops root script).1 = root := by
  induction script with
  | nil => rfl
  | cons request rest ih =>
    have hrun : (run ctx root request).1 = root :=
      fst_run_of_not_changes (h request List.mem_cons_self)
    have hrest : (runAll ctx stops root rest).1 = root :=
      ih fun r hr => h r (List.mem_cons_of_mem _ hr)
    rw [runAll]
    generalize run ctx root request = ran at hrun
    obtain ⟨root', answer⟩ := ran
    obtain rfl : root' = root := hrun
    dsimp only
    split
    · rfl
    · generalize runAll ctx stops root' rest = ranRest at hrest
      obtain ⟨root'', answers⟩ := ranRest
      cases answers <;> exact hrest

/-- A query answers what a walk that only looks finds and leaves the root as it
was, and so does a visit that finds no value at its path. -/
theorem queries_keep_root (ctx : Context) (root : Value) (path : String) :
    run ctx root (.get path) = (root, (ctx.getValue root path).map .found) ∧
    run ctx root (.getterType path) =
      (root, (root.getterType ctx (.ofText path)).map .type) ∧
    run ctx root (.setterType path) =
      (root, (root.setterType ctx (.ofText path)).map .type) ∧
    run ctx root (.hasGetter path) =
      (root, (root.hasGetter ctx (.ofText path)).map .truth) ∧
    ∀ {α : Type} (f : Value → Value × Except NavigationError α),
      (root.visit ctx (.ofText path) f).2 = .ok none →
      (root.visit ctx (.ofText path) f).1 = root := by
  refine ⟨run_get path, run_getterType path, run_setterType path, run_hasGetter path, ?_⟩
  intro α f hnone
  exact Value.fst_visit_of_none hnone

end Request

def unfurnished : Value :=
  .map (.ofList
    [("boss", .record ⟨"Person", 0⟩ (.ofList [("place", .record ⟨"Office", 0⟩ .empty)]))])

/-- The boss is asked where it is stored and the office as a copy; the desks
have no storage, so there is nothing to overwrite. -/
theorem queries_keep_root_unfurnished :
    let ctx := Context.ofSchema officeSchema
    let overwritten := unfurnished.visit ctx (.ofText "boss.office.desks") fun _ =>
      (.null, .ok ())
    Request.run ctx unfurnished (.get "boss.office.desks") =
        (unfurnished, .ok (.found (some .null))) ∧
      overwritten.2 = .ok none ∧ overwritten.1 = unfurnished := by
  intro ctx overwritten
  have hpath : Path.ofText "boss.office.desks" =
      .next ⟨"boss", none⟩ (.next ⟨"office", none⟩ (.last ⟨"desks", none⟩)) := by
    have hdesks : Path.ofText "desks" = .last ⟨"desks", none⟩ := Path.ofText_of_last rfl
    have hoffice : Path.ofText "office.desks" = .next ⟨"office", none⟩ (.ofText "desks") :=
      Path.ofText_of_next rfl
    have hboss : Path.ofText "boss.office.desks" =
        .next ⟨"boss", none⟩ (.ofText "office.desks") := Path.ofText_of_next rfl
    rw [hboss, hoffice, hdesks]
  have hnone : overwritten.2 = .ok none := by
    change (unfurnished.visit ctx (.ofText "boss.office.desks") _).2 = _
    rw [hpath]
    rfl
  have hnull : ctx.getValue unfurnished "boss.office.desks" = .ok (some .null) := by
    rw [Context.getValue, hpath]
    rfl
  obtain ⟨hget, _, _, _, hvisit⟩ :=
    Request.queries_keep_root ctx unfurnished "boss.office.desks"
  rw [hnull] at hget
  exact ⟨hget, hnone, hvisit _ hnone⟩

end PropTree
