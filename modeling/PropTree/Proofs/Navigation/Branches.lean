import PropTree.Proofs.Navigation.MalformedPaths
import PropTree.Proofs.Navigation.Storage

set_option autoImplicit false

/-!
# Branches

A write into an empty mapping makes everything on its way. A new sequence takes its
first element at index zero only, so the first step with another index ends the
write, and the branch above it stays.
-/

namespace PropTree

def Step.AtFront (step : Step) : Prop := ∀ index, step.index = some index → index = 0

namespace Value

def under (step : Step) (v : Value) : Value :=
  match step.index with
  | none => .map ⟨[(step.name, v)]⟩
  | some _ => .map ⟨[(step.name, .array [v])]⟩

def branch (steps : List Step) (v : Value) : Value := steps.foldr under v

variable {ctx : Context} {entries : Assoc Value} {parent new v : Value} {step : Step}
  {rest path : Path} {before after : List Step} {index : Nat} {e : NavigationError}

/-! ### One step -/

theorem write_next_of_absent (hrest : rest.check = .ok ()) (hnew : new.isNull = false)
    (habsent : (Value.map entries).child ctx step .write = .ok none)
    (hset : (Value.map entries).set ctx step (.map .empty) = (parent, .ok ())) :
    (Value.map entries).write ctx (.next step rest) new =
      (((Value.map entries).set ctx step ((Value.map .empty).write ctx rest new).1).1,
        ((Value.map .empty).write ctx rest new).2) := by
  have hlook := lookBelow_eq_ok_iff.2 ⟨hrest, habsent⟩
  have hstored : (Value.map entries).FieldBacked ctx := trivial
  have hput (w : Value) : parent.putAt ⟨step.name, step.index⟩ w =
      ((Value.map entries).set ctx step w).1 := putAt_set hstored hset w
  rw [write_next, enter, hlook, hnew, instantiateChild_map, hset, ← hput]
  rfl

theorem write_next_of_absent_error (hrest : rest.check = .ok ()) (hnew : new.isNull = false)
    (habsent : (Value.map entries).child ctx step .write = .ok none)
    (hset : (Value.map entries).set ctx step (.map .empty) = (parent, .error e)) :
    (Value.map entries).write ctx (.next step rest) new = (parent, .error e) := by
  have hlook := lookBelow_eq_ok_iff.2 ⟨hrest, habsent⟩
  rw [write_next, enter, hlook, hnew, instantiateChild_map, hset]
  rfl

/-! ### Into an empty mapping -/

theorem set_empty (hstep : step.AtFront) (v : Value) :
    (Value.map .empty).set ctx step v = (under step v, .ok ()) := by
  obtain ⟨name, index⟩ := step
  cases index with
  | none => rfl
  | some index =>
    obtain rfl : index = 0 := hstep index rfl
    rfl

/-- The sequence is made before its element is refused. -/
theorem set_empty_of_index (hindex : step.index = some index) (hne : index ≠ 0) (v : Value) :
    (Value.map .empty).set ctx step v =
      (.map ⟨[(step.name, .array [])]⟩, .error (.indexOutOfRange step.name index 0)) := by
  have hrefused : (Value.array []).setElement step.name index v =
      .error (.indexOutOfRange step.name index 0) := by
    simp [setElement, hne]
  simp only [set, Mapping.set, hindex, Assoc.get?_empty, Option.getD_none, isNull, if_true,
    hrefused]
  rfl

theorem write_next_empty (hrest : rest.check = .ok ()) (hnew : new.isNull = false)
    (hstep : step.AtFront) :
    (Value.map .empty).write ctx (.next step rest) new =
      (under step ((Value.map .empty).write ctx rest new).1,
        ((Value.map .empty).write ctx rest new).2) := by
  rw [write_next_of_absent hrest hnew rfl (set_empty hstep _), set_empty hstep]

theorem write_empty (hpath : path.isWellFormed = true) (hnew : new.isNull = false)
    (hfront : ∀ step ∈ path.steps.1, step.AtFront) :
    (Value.map .empty).write ctx path new = (branch path.steps.1 new, .ok ()) := by
  induction path with
  | malformed e => nomatch hpath
  | last step => exact set_empty (hfront step (List.mem_singleton_self step)) new
  | next step rest ih =>
    obtain ⟨hstep, hrest⟩ := List.forall_mem_cons.1 hfront
    have hbelow : rest.isWellFormed = true := hpath
    rw [write_next_empty (Path.check_of_isWellFormed hbelow) hnew hstep, ih hbelow hrest]
    rfl

theorem write_empty_of_index (hpath : path.isWellFormed = true) (hnew : new.isNull = false)
    (hsteps : path.steps.1 = before ++ step :: after) (hbefore : ∀ s ∈ before, s.AtFront)
    (hindex : step.index = some index) (hne : index ≠ 0) :
    (Value.map .empty).write ctx path new =
      (branch before (.map ⟨[(step.name, .array [])]⟩),
        .error (.indexOutOfRange step.name index 0)) := by
  -- each step in front of this one wraps what is left below it
  induction path generalizing before with
  | malformed e => nomatch hpath
  | last s =>
    cases before with
    | nil =>
      obtain ⟨rfl, -⟩ := List.cons.inj hsteps
      exact set_empty_of_index hindex hne new
    | cons first before => simp [Path.steps] at hsteps
  | next s rest ih =>
    have hbelow : rest.isWellFormed = true := hpath
    have hrest : rest.check = .ok () := Path.check_of_isWellFormed hbelow
    cases before with
    | nil =>
      obtain ⟨rfl, -⟩ := List.cons.inj hsteps
      exact write_next_of_absent_error hrest hnew rfl (set_empty_of_index hindex hne _)
    | cons first before =>
      obtain ⟨rfl, hlater⟩ := List.cons.inj hsteps
      obtain ⟨hfirst, hbefore⟩ := List.forall_mem_cons.1 hbefore
      rw [write_next_empty hrest hnew hfirst, ih hbelow hlater hbefore]
      rfl

end Value

theorem Segments.steps_of_items {text : String} {segments : List Segment}
    (h : (Segments.ofText text).items = .ok (segments.map .ok)) :
    (Path.ofText text).isWellFormed = true ∧
      (Path.ofText text).steps.1 = segments.map Segment.step := by
  obtain ⟨found, hsteps, hall⟩ := Segment.all_eq_steps text
  rw [Segments.items_ofText, Except.ok.injEq, hall] at h
  cases herror : (Path.ofText text).steps.2 with
  | some e =>
    have hmem : (.error e : Except PathError Segment) ∈ segments.map .ok := by
      rw [← h, herror]
      simp
    simp at hmem
  | none =>
    rw [herror] at h
    have hsame : found = segments := by
      apply (List.map_inj_right fun _ _ => Except.ok.inj).1
      simpa using h
    exact ⟨Path.isWellFormed_iff.2 herror, by rw [← hsteps, hsame]⟩

theorem Step.atFront_or_first (steps : List Step) :
    (∀ step ∈ steps, step.AtFront) ∨ ∃ before step after index,
      steps = before ++ step :: after ∧ (∀ s ∈ before, s.AtFront) ∧
        step.index = some index ∧ index ≠ 0 := by
  induction steps with
  | nil => exact .inl (List.forall_mem_nil _)
  | cons step steps ih =>
    by_cases hstep : step.AtFront
    · rcases ih with hall | ⟨before, s, after, index, rfl, hbefore, hindex, hne⟩
      · exact .inl (List.forall_mem_cons.2 ⟨hstep, hall⟩)
      · exact .inr ⟨step :: before, s, after, index, rfl,
          List.forall_mem_cons.2 ⟨hstep, hbefore⟩, hindex, hne⟩
    · obtain ⟨index, hoff⟩ := Classical.not_forall.1 hstep
      obtain ⟨hindex, hne⟩ := Classical.not_imp.1 hoff
      exact .inr ⟨[], step, steps, index, rfl, List.forall_mem_nil _, hindex, hne⟩

/-- Setting a value that is not null in an empty mapping, at a path whose
segments can all be read. It succeeds exactly if every index in the path is
zero, and then the root is the single branch along the path with the value at
its end. Otherwise the first index other than zero is out of range of a new
sequence, which has no elements, and the branch up to that sequence stays. The
outcome is the same for every schema and every factory. -/
theorem Context.setValue_empty {text : String} {segments : List Segment}
    (hitems : (Segments.ofText text).items = .ok (segments.map .ok)) {v : Value}
    (hv : v ≠ .null) :
    let root := Value.map .empty
    let steps := segments.map Segment.step
    (∀ ctx : Context, (ctx.setValue root text v).2 = .ok () ↔ ∀ step ∈ steps, step.AtFront) ∧
    ((∀ step ∈ steps, step.AtFront) →
      ∀ ctx : Context, ctx.setValue root text v = (Value.branch steps v, .ok ())) ∧
    ((¬∀ step ∈ steps, step.AtFront) → ∃ before step after index,
      steps = before ++ step :: after ∧ (∀ s ∈ before, s.AtFront) ∧
        step.index = some index ∧ index ≠ 0 ∧
        ∀ ctx : Context, ctx.setValue root text v =
          (Value.branch before (.map ⟨[(step.name, .array [])]⟩),
            .error (.indexOutOfRange step.name index 0))) ∧
    ∀ ctx ctx' : Context, ctx.setValue root text v = ctx'.setValue root text v := by
  intro root steps
  obtain ⟨hpath, hsteps⟩ := Segments.steps_of_items hitems
  have hnew : v.isNull = false := Value.isNull_eq_false_iff.2 hv
  rcases Step.atFront_or_first steps with
    hfront | ⟨before, step, after, index, hcut, hbefore, hindex, hne⟩
  · have hset (ctx : Context) : ctx.setValue root text v = (Value.branch steps v, .ok ()) := by
      have hwrite : root.write ctx (.ofText text) v =
          (Value.branch (Path.ofText text).steps.1 v, .ok ()) :=
        Value.write_empty hpath hnew (by rwa [hsteps])
      rwa [hsteps] at hwrite
    refine ⟨fun ctx => ?_, fun _ => hset, fun hoff => absurd hfront hoff, fun ctx ctx' => ?_⟩
    · rw [hset ctx]
      exact iff_of_true rfl hfront
    · rw [hset ctx, hset ctx']
  · have hset (ctx : Context) : ctx.setValue root text v =
        (Value.branch before (.map ⟨[(step.name, .array [])]⟩),
          .error (.indexOutOfRange step.name index 0)) :=
      Value.write_empty_of_index hpath hnew (hsteps.trans hcut) hbefore hindex hne
    have hoff : ¬∀ s ∈ steps, s.AtFront := by
      intro hall
      have hmem : step ∈ steps := by simp [hcut]
      exact hne (hall step hmem index hindex)
    refine ⟨fun ctx => ?_, fun hfront => absurd hfront hoff,
      fun _ => ⟨before, step, after, index, hcut, hbefore, hindex, hne, hset⟩, fun ctx ctx' => ?_⟩
    · rw [hset ctx]
      exact iff_of_false nofun hoff
    · rw [hset ctx, hset ctx']

theorem setValue_empty_items :
    let ctx : Context := ⟨{}, fun d => .error (.unknownType d.text)⟩
    let root := Value.map .empty
    let price := Value.integer 5
    let early : List Segment := [⟨⟨"items", some 0⟩, "items[0]", some "price"⟩,
      ⟨⟨"price", none⟩, "price", none⟩]
    let late : List Segment := [⟨⟨"items", some 0⟩, "items[0]", some "tags[2].name"⟩,
      ⟨⟨"tags", some 2⟩, "tags[2]", some "name"⟩, ⟨⟨"name", none⟩, "name", none⟩]
    price ≠ .null ∧
      (Segments.ofText "items[0].price").items = .ok (early.map .ok) ∧
      (∀ step ∈ early.map Segment.step, step.AtFront) ∧
      ctx.setValue root "items[0].price" price =
        (.map ⟨[("items", .array [.map ⟨[("price", price)]⟩])]⟩, .ok ()) ∧
      (Segments.ofText "items[0].tags[2].name").items = .ok (late.map .ok) ∧
      (¬∀ step ∈ late.map Segment.step, step.AtFront) ∧
      ∃ before step after index, late.map Segment.step = before ++ step :: after ∧
        (∀ s ∈ before, s.AtFront) ∧ step.index = some index ∧ index ≠ 0 ∧
        ctx.setValue root "items[0].tags[2].name" price =
          (Value.branch before (.map ⟨[(step.name, .array [])]⟩),
            .error (.indexOutOfRange step.name index 0)) := by
  intro ctx root price early late
  have hprice : price ≠ .null := nofun
  have hend : Segment.all "price" = [.ok ⟨⟨"price", none⟩, "price", none⟩] :=
    Segment.all_of_last rfl rfl
  have hall : Segment.all "items[0].price" =
      .ok ⟨⟨"items", some 0⟩, "items[0]", some "price"⟩ :: Segment.all "price" :=
    Segment.all_of_next rfl rfl
  have hearly : (Segments.ofText "items[0].price").items = .ok (early.map .ok) := by
    rw [Segments.items_ofText, hall, hend]
    rfl
  have hend' : Segment.all "name" = [.ok ⟨⟨"name", none⟩, "name", none⟩] :=
    Segment.all_of_last rfl rfl
  have htags : Segment.all "tags[2].name" =
      .ok ⟨⟨"tags", some 2⟩, "tags[2]", some "name"⟩ :: Segment.all "name" :=
    Segment.all_of_next rfl rfl
  have hall' : Segment.all "items[0].tags[2].name" =
      .ok ⟨⟨"items", some 0⟩, "items[0]", some "tags[2].name"⟩ :: Segment.all "tags[2].name" :=
    Segment.all_of_next rfl rfl
  have hlate : (Segments.ofText "items[0].tags[2].name").items = .ok (late.map .ok) := by
    rw [Segments.items_ofText, hall', htags, hend']
    rfl
  have hfront : ∀ step ∈ early.map Segment.step, step.AtFront := by
    simp [early, Step.AtFront]
  have hoff : ¬∀ step ∈ late.map Segment.step, step.AtFront := by
    simp [late, Step.AtFront]
  obtain ⟨-, hmade, -, -⟩ := Context.setValue_empty hearly hprice
  obtain ⟨-, -, hended, -⟩ := Context.setValue_empty hlate hprice
  obtain ⟨before, step, after, index, hcut, hbefore, hindex, hne, hset⟩ := hended hoff
  exact ⟨hprice, hearly, hfront, hmade hfront ctx, hlate, hoff, before, step, after, index, hcut,
    hbefore, hindex, hne, hset ctx⟩

end PropTree
