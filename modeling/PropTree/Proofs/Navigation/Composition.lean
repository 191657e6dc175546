import PropTree.Proofs.Navigation.ReadBack
import PropTree.Proofs.Path.Append

set_option autoImplicit false

/-!
# Reads compose

`Value.read` asks `Value.get` at its last step and `Value.child` before. The two see
the same but for an element of a missing or null entry of a mapping, which is out
of range for `get` and absent for `child`.
-/

namespace PropTree

namespace Path

variable {path below : Path}

theorem check_of_isWellFormed (h : path.isWellFormed = true) : path.check = .ok () := by
  cases path with
  | malformed e => nomatch h
  | last step => rfl
  | next step rest => rfl

theorem check_append (h : path.isWellFormed = true) : (path.append below).check = .ok () := by
  cases path with
  | malformed e => nomatch h
  | last step => rfl
  | next step rest => rfl

end Path

namespace Value

def present? (v : Value) : Option Value := if v.isNull then none else some v

def AsksAbsentEntry (root : Value) (step : Step) : Prop :=
  ∃ entries, root = .map entries ∧ (entries.get? step.name).getD .null = .null ∧
    step.index.isSome

/-- The last step of the path asks a mapping for an element under a key that
is missing there or holds a null. -/
inductive EndsAtAbsentEntry (ctx : Context) (root : Value) : Path → Prop where
  | here {step : Step} (h : root.AsksAbsentEntry step) :
      EndsAtAbsentEntry ctx root (.last step)
  | below {path : Path} {holder : Value} {step : Step}
      (hread : root.read ctx path = .ok (some holder)) (h : holder.AsksAbsentEntry step) :
      EndsAtAbsentEntry ctx root (path.append (.last step))

variable {ctx : Context} {root held v : Value} {step : Step} {path rest below : Path}

/-! ### One step -/

theorem elementChild_read (property : String) (index : Nat) :
    held.elementChild property index .read = (held.element property index).map present? := by
  cases held with
  | array items => cases h : items[index]? <;> simp [elementChild, element, h, Except.map, present?]
  | _ => rfl

theorem childValue_read :
    Record.childValue held step .read = (held.part step).map present? := by
  unfold Record.childValue part
  cases step.index with
  | none => rfl
  | some index => exact elementChild_read step.name index

theorem record_get (r : Record) :
    r.get ctx step =
      (r.readProperty ctx step.name).bind fun held => (held.part step).map some := by
  unfold Record.get part
  cases r.readProperty ctx step.name with
  | error e => rfl
  | ok held => cases step.index <;> rfl

theorem record_child (r : Record) :
    (r.child ctx step .read).map (Option.map Child.value) =
      (r.readProperty ctx step.name).bind fun held => (held.part step).map present? := by
  cases hg : ctx.schema.getter r.type step.name with
  | error e => simp [Record.child, Record.readProperty, hg, Except.map, Except.bind]
  | ok g =>
    have hread : r.readProperty ctx step.name = r.invokeGetter step.name g.access := by
      rw [Record.readProperty, hg]
    rw [Record.child_of_getter hg, hread]
    cases r.invokeGetter step.name g.access with
    | error e => rfl
    | ok held =>
      change ((Record.childValue held step .read).map _).map _ = (held.part step).map present?
      rw [← childValue_read]
      cases Record.childValue held step .read with
      | error e => rfl
      | ok found => cases found <;> simp [Except.map, Record.childOf_value]

theorem mapping_get_of_some {entries : Assoc Value}
    (h : entries.get? step.name = some held) :
    Mapping.get entries step = (held.part step).map some := by
  unfold Mapping.get part
  cases step.index <;> simp [h, Except.map]

theorem mapping_child_of_some {entries : Assoc Value}
    (h : entries.get? step.name = some held) (hnull : held.isNull = false) :
    (Mapping.child entries step .read).map (Option.map Child.value) =
      (held.part step).map present? := by
  rw [← childValue_read, Mapping.child_of_held h hnull]
  cases Record.childValue held step .read with
  | error e => rfl
  | ok found => cases found <;> rfl

theorem mapping_child_of_null {entries : Assoc Value} {lookup : Lookup}
    (h : (entries.get? step.name).getD .null = .null) :
    Mapping.child entries step lookup = .ok none := by
  unfold Mapping.child
  cases hheld : entries.get? step.name with
  | none => rfl
  | some held =>
    obtain rfl : held = .null := by simpa [hheld] using h
    rfl

theorem child_eq_get (h : ¬root.AsksAbsentEntry step) :
    (root.child ctx step .read).map (Option.map Child.value) =
      (root.get ctx step).map (·.bind present?) := by
  cases root with
  | record type fields =>
    change (Record.child ctx ⟨type, fields⟩ step .read).map _ =
      (Record.get ctx ⟨type, fields⟩ step).map _
    rw [record_child, record_get]
    cases Record.readProperty ctx ⟨type, fields⟩ step.name with
    | error e => rfl
    | ok held => cases hpart : held.part step <;> simp [Except.bind, Except.map, hpart]
  | map entries =>
    change (Mapping.child entries step .read).map _ = (Mapping.get entries step).map _
    by_cases hnull : (entries.get? step.name).getD .null = .null
    · have hindex : step.index = none := by
        cases hi : step.index with
        | none => rfl
        | some index => exact absurd ⟨entries, rfl, hnull, by rw [hi]; rfl⟩ h
      rw [mapping_child_of_null hnull, Mapping.get, hindex]
      cases hheld : entries.get? step.name with
      | none => rfl
      | some held =>
        obtain rfl : held = .null := by simpa [hheld] using hnull
        rfl
    · cases hheld : entries.get? step.name with
      | none => simp [hheld] at hnull
      | some held =>
        have hnull : held.isNull = false := isNull_eq_false_iff.2 (by simpa [hheld] using hnull)
        rw [mapping_child_of_some hheld hnull, mapping_get_of_some hheld]
        cases held.part step <;> rfl
  | _ => rfl

theorem child_of_asksAbsentEntry (h : root.AsksAbsentEntry step) :
    root.child ctx step .read = .ok none := by
  obtain ⟨entries, rfl, hnull, _⟩ := h
  exact mapping_child_of_null hnull

/-! ### Paths -/

def readBelow (ctx : Context) (rest : Path) (found : Option Value) :
    Except NavigationError (Option Value) :=
  found.elim (.ok none) (·.read ctx rest)

theorem read_next_of_check (h : rest.check = .ok ()) :
    root.read ctx (.next step rest) =
      ((root.child ctx step .read).map (Option.map Child.value)).bind (readBelow ctx rest) := by
  rw [read_next, lookBelow, h]
  unfold shape
  cases hs : root.shape? with
  | none =>
    cases root with
    | record _ _ | map _ | array _ => cases hs
    | _ => rfl
  | some s =>
    cases root.child ctx step .read with
    | error e => rfl
    | ok found => cases found <;> rfl

theorem read_append_of_some (h : root.read ctx path = .ok (some v)) (hv : v.isNull = false)
    (below : Path) : root.read ctx (path.append below) = v.read ctx below := by
  induction path generalizing root with
  | malformed e => nomatch h
  | last step =>
    obtain ⟨c, hc, hvalue⟩ := child_of_get h hv .read
    rw [Path.append, read_next_of_child hc, hvalue]
  | next step rest ih =>
    obtain ⟨c, hc, hread⟩ := child_of_read_next h
    rw [Path.append, read_next_of_child hc, ih hread]

theorem EndsAtAbsentEntry.next {c : Child} (hc : root.child ctx step .read = .ok (some c))
    (h : EndsAtAbsentEntry ctx c.value path) : EndsAtAbsentEntry ctx root (.next step path) := by
  cases h with
  | here h =>
    have hread : root.read ctx (.last step) = .ok (some c.value) := (get_of_child hc).1
    exact .below hread h
  | @below path holder last hread h =>
    have hread : root.read ctx (.next step path) = .ok (some holder) := by
      rw [read_next_of_child hc, hread]
    exact .below hread h

theorem read_append (hpath : path.isWellFormed = true) (hbelow : below.check = .ok ())
    (h : ¬EndsAtAbsentEntry ctx root path) :
    root.read ctx (path.append below) =
      (root.read ctx path).bind fun found => readBelow ctx below (found.bind present?) := by
  induction path generalizing root with
  | malformed e => nomatch hpath
  | last step =>
    have hstep : ¬root.AsksAbsentEntry step := fun ha => h (.here ha)
    rw [Path.append, read_next_of_check hbelow, child_eq_get hstep, read]
    cases root.get ctx step <;> rfl
  | next step rest ih =>
    have hrest : rest.isWellFormed = true := hpath
    rw [Path.append, read_next_of_check (Path.check_append hrest),
      read_next_of_check (Path.check_of_isWellFormed hrest)]
    cases hc : root.child ctx step .read with
    | error e => rfl
    | ok found =>
      cases found with
      | none => rfl
      | some c => exact ih hrest fun hends => h (hends.next hc)

theorem read_append_of_endsAtAbsentEntry (hbelow : below.check = .ok ())
    (h : EndsAtAbsentEntry ctx root path) : root.read ctx (path.append below) = .ok none := by
  cases h with
  | here h =>
    rw [Path.append, read_next_of_check hbelow, child_of_asksAbsentEntry h]
    rfl
  | below hread h =>
    obtain ⟨entries, rfl, _⟩ := id h
    rw [Path.append_assoc, read_append_of_some hread rfl, Path.append,
      read_next_of_check hbelow, child_of_asksAbsentEntry h]
    rfl

end Value

/-- Getting a value along a path in two parts: from what the first part leads
to, and not at all below what is absent. An error of the first part is one of
the whole, but for an element asked of a missing or null entry of a mapping,
below which everything is absent. -/
theorem Context.getValue_append (ctx : Context) (root : Value) {path below : String}
    (hpath : (Path.ofText path).isWellFormed = true)
    (hbelow : (Path.ofText below).isWellFormed = true) :
    (∀ v, v ≠ .null → ctx.getValue root path = .ok (some v) →
      ctx.getValue root (path ++ "." ++ below) = ctx.getValue v below) ∧
    (ctx.getValue root path = .ok none ∨ ctx.getValue root path = .ok (some .null) →
      ctx.getValue root (path ++ "." ++ below) = .ok none) ∧
    ∀ e, ctx.getValue root path = .error e →
      (Value.EndsAtAbsentEntry ctx root (.ofText path) →
        ctx.getValue root (path ++ "." ++ below) = .ok none) ∧
      (¬Value.EndsAtAbsentEntry ctx root (.ofText path) →
        ctx.getValue root (path ++ "." ++ below) = .error e) := by
  have htext := Path.ofText_append hpath (Path.ne_empty_of_isWellFormed hbelow)
  have hcheck := Path.check_of_isWellFormed hbelow
  unfold Context.getValue
  rw [htext]
  refine ⟨?_, ?_, ?_⟩
  · intro v hv hread
    exact Value.read_append_of_some hread (Value.isNull_eq_false_iff.2 hv) _
  · intro hread
    by_cases hends : Value.EndsAtAbsentEntry ctx root (.ofText path)
    · exact Value.read_append_of_endsAtAbsentEntry hcheck hends
    · rw [Value.read_append hpath hcheck hends]
      rcases hread with hread | hread <;> rw [hread] <;> rfl
  · intro e hread
    refine ⟨Value.read_append_of_endsAtAbsentEntry hcheck, ?_⟩
    intro hends
    rw [Value.read_append hpath hcheck hends, hread]
    rfl

def deskOffice : Value :=
  .record ⟨"Office", 0⟩
    (.ofList [("desks", .array [.record ⟨"Desk", 0⟩ (.ofList [("label", .string "left")])])])

def staffRoot : Value :=
  .map (.ofList [("boss", .record ⟨"Person", 0⟩ (.ofList [("place", deskOffice)])),
    ("guests", .null)])

theorem ofText_boss_office :
    Path.ofText "boss.office" = .next ⟨"boss", none⟩ (.last ⟨"office", none⟩) := by
  have hoffice : Path.ofText "office" = .last ⟨"office", none⟩ := Path.ofText_of_last rfl
  have hboss : Path.ofText "boss.office" = .next ⟨"boss", none⟩ (.ofText "office") :=
    Path.ofText_of_next rfl
  rw [hboss, hoffice]

theorem ofText_desks_label :
    Path.ofText "desks[0].label" = .next ⟨"desks", some 0⟩ (.last ⟨"label", none⟩) := by
  have hlabel : Path.ofText "label" = .last ⟨"label", none⟩ := Path.ofText_of_last rfl
  have hdesks : Path.ofText "desks[0].label" = .next ⟨"desks", some 0⟩ (.ofText "label") :=
    Path.ofText_of_next rfl
  rw [hdesks, hlabel]

theorem getValue_boss_office :
    (Context.ofSchema officeSchema).getValue staffRoot "boss.office" = .ok (some deskOffice) := by
  rw [Context.getValue, ofText_boss_office]
  rfl

/-- The office is a copy that a getter gives, nobody is under no key, and the
guests are a null: the second and third part lead to nothing, one without an
error and one with. -/
theorem getValue_append_staff :
    let ctx := Context.ofSchema officeSchema
    let unseated : NavigationError := .indexOutOfRange "guests" 0 0
    (Path.ofText "boss.office").isWellFormed ∧ (Path.ofText "nobody").isWellFormed ∧
      (Path.ofText "guests[0]").isWellFormed ∧ (Path.ofText "desks[0].label").isWellFormed ∧
      ctx.getValue staffRoot "boss.office" = .ok (some deskOffice) ∧ deskOffice ≠ .null ∧
      ctx.getValue staffRoot "boss.office.desks[0].label" =
        ctx.getValue deskOffice "desks[0].label" ∧
      ctx.getValue staffRoot "nobody" = .ok none ∧
      ctx.getValue staffRoot "nobody.desks[0].label" = .ok none ∧
      ctx.getValue staffRoot "guests[0]" = .error unseated ∧
      Value.EndsAtAbsentEntry ctx staffRoot (.ofText "guests[0]") ∧
      ctx.getValue staffRoot "guests[0].desks[0].label" = .ok none := by
  intro ctx unseated
  have hnobody : Path.ofText "nobody" = .last ⟨"nobody", none⟩ := Path.ofText_of_last rfl
  have hguests : Path.ofText "guests[0]" = .last ⟨"guests", some 0⟩ := Path.ofText_of_last rfl
  have hoffice : (Path.ofText "boss.office").isWellFormed = true := by rw [ofText_boss_office]; rfl
  have hdesks : (Path.ofText "desks[0].label").isWellFormed = true := by
    rw [ofText_desks_label]
    rfl
  have hnobody' : (Path.ofText "nobody").isWellFormed = true := by rw [hnobody]; rfl
  have hguests' : (Path.ofText "guests[0]").isWellFormed = true := by rw [hguests]; rfl
  have habsent : ctx.getValue staffRoot "nobody" = .ok none := by
    rw [Context.getValue, hnobody]
    rfl
  have herror : ctx.getValue staffRoot "guests[0]" = .error unseated := by
    rw [Context.getValue, hguests]
    rfl
  have hends : Value.EndsAtAbsentEntry ctx staffRoot (.ofText "guests[0]") := by
    rw [hguests]
    exact .here ⟨_, rfl, rfl, rfl⟩
  exact ⟨hoffice, hnobody', hguests', hdesks, getValue_boss_office, nofun,
    (Context.getValue_append ctx staffRoot hoffice hdesks).1 _ nofun getValue_boss_office, habsent,
    (Context.getValue_append ctx staffRoot hnobody' hdesks).2.1 (.inl habsent), herror, hends,
    ((Context.getValue_append ctx staffRoot hguests' hdesks).2.2 _ herror).1 hends⟩

end PropTree
