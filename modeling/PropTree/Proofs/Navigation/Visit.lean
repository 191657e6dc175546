import PropTree.Proofs.Navigation.Composition

set_option autoImplicit false

/-!
# Visits
-/

namespace PropTree

namespace Value

variable {ctx : Context} {root v new : Value} {step : Step} {path rest below : Path} {c : Child}

theorem giveBack_map {α β : Type} (f : α → β) (changed : Value × Except NavigationError α) :
    root.giveBack ctx step c (changed.map id (Except.map f)) =
      (root.giveBack ctx step c changed).map id (Except.map f) := by
  obtain ⟨v, outcome⟩ := changed
  cases c with
  | stored place held => rfl
  | detached held =>
    cases outcome with
    | error e => rfl
    | ok a =>
      simp only [giveBack, Prod.map, id, Except.map]
      obtain ⟨root', result⟩ := root.set ctx step v
      cases result <;> rfl

theorem ok_of_giveBack_ok {α : Type} {a : α} {changed : Value × Except NavigationError α}
    (h : (root.giveBack ctx step c changed).2 = .ok a) : changed.2 = .ok a := by
  cases c with
  | stored place held => exact h
  | detached held =>
    unfold giveBack at h
    cases hchanged : changed.2 with
    | error e => simp [hchanged] at h
    | ok b =>
      simp only [hchanged] at h
      cases hset : root.set ctx step changed.1 with
      | mk root' result => cases result <;> simp_all

theorem isWellFormed_of_read (h : root.read ctx path = .ok (some v)) :
    path.isWellFormed = true := by
  induction path generalizing root with
  | malformed e => nomatch h
  | last step => rfl
  | next step rest ih =>
    obtain ⟨c, _, hread⟩ := child_of_read_next h
    exact ih hread

theorem write_next_of_child (hrest : rest.check = .ok ())
    (h : root.child ctx step .read = .ok (some c)) :
    root.write ctx (.next step rest) new =
      root.giveBack ctx step c (c.value.write ctx rest new) := by
  rw [write_next, enter_of_child hrest (child_of_child h .write)]

section Below

variable {α : Type} {f : Value → Value × Except NavigationError α}

theorem visit_next_of_child (hc : root.child ctx step .read = .ok (some c))
    (h : (c.value.visit ctx rest f).2 ≠ .ok none) :
    root.visit ctx (.next step rest) f = root.giveBack ctx step c (c.value.visit ctx rest f) := by
  rw [visit, hc]
  dsimp only
  generalize c.value.visit ctx rest f = visited at h
  obtain ⟨u, outcome⟩ := visited
  cases outcome with
  | error e => rfl
  | ok answer =>
    cases answer with
    | none => exact absurd rfl h
    | some a => rfl

theorem visit_next_of_none (hc : root.child ctx step .read = .ok (some c))
    (h : c.value.visit ctx rest f = (c.value, .ok none)) :
    root.visit ctx (.next step rest) f = (root, .ok none) := by
  rw [visit, hc]
  dsimp only
  rw [h]
  cases c with
  | stored place v => exact Prod.ext (putAt_of_child hc) rfl
  | detached v => rfl

/-- A visit that leads to nothing has put back every child as it was. -/
theorem fst_visit_of_none (h : (root.visit ctx path f).2 = .ok none) :
    (root.visit ctx path f).1 = root := by
  induction path generalizing root with
  | malformed e => nomatch h
  | last step =>
    unfold visit at h ⊢
    cases hc : root.child ctx step .read with
    | error e => rfl
    | ok found =>
      cases found with
      | none => rfl
      | some c =>
        simp only [hc] at h
        have hvisited := ok_of_giveBack_ok h
        cases hf : (f c.value).2 <;> simp [hf, Except.map] at hvisited
  | next step rest ih =>
    cases hc : root.child ctx step .read with
    | error e => simp [visit, hc]
    | ok found =>
      cases found with
      | none => simp [visit, hc]
      | some c =>
        by_cases hbelow : (c.value.visit ctx rest f).2 = .ok none
        · rw [visit_next_of_none hc (Prod.ext (ih hbelow) hbelow)]
        · rw [visit_next_of_child hc hbelow] at h
          exact absurd (ok_of_giveBack_ok h) hbelow

end Below

theorem visit_write (hbelow : below.check = .ok ())
    (hread : root.read ctx path = .ok (some v)) (hv : v.isNull = false) :
    root.visit ctx path (fun u => u.write ctx below new) =
      (root.write ctx (path.append below) new).map id (Except.map some) := by
  induction path generalizing root with
  | malformed e => nomatch hread
  | last step =>
    obtain ⟨c, hc, _⟩ := child_of_get hread hv .read
    rw [Path.append, write_next_of_child hbelow hc, visit, hc]
    exact giveBack_map some _
  | next step rest ih =>
    obtain ⟨c, hc, hrest⟩ := child_of_read_next hread
    have hcheck : (rest.append below).check = .ok () :=
      Path.check_append (isWellFormed_of_read hrest)
    have hvisit := ih hrest
    have hfound : (c.value.visit ctx rest fun u => u.write ctx below new).2 ≠ .ok none := by
      rw [hvisit]
      cases hwrite : (c.value.write ctx (rest.append below) new).2 <;> simp [hwrite, Except.map]
    rw [Path.append, write_next_of_child hcheck hc, visit_next_of_child hc hfound, hvisit,
      giveBack_map]

end Value

/-- Setting a value inside a visited child and setting it along the whole path
leave the same root, and either succeeds as the other does or fails with the
other's error. -/
theorem Context.visit_setValue (ctx : Context) (root : Value) {path below : String}
    (hbelow : (Path.ofText below).isWellFormed = true) {v : Value} (hv : v ≠ .null)
    (hread : ctx.getValue root path = .ok (some v)) (new : Value) :
    let visited := root.visit ctx (.ofText path) fun child => ctx.setValue child below new
    let written := ctx.setValue root (path ++ "." ++ below) new
    visited.1 = written.1 ∧ visited.2 = written.2.map some := by
  intro visited written
  have htext := Path.ofText_append (Value.isWellFormed_of_read hread)
    (Path.ne_empty_of_isWellFormed hbelow)
  have hvisit : visited = written.map id (Except.map some) := by
    change visited = (root.write ctx (.ofText (path ++ "." ++ below)) new).map id (Except.map some)
    rw [htext]
    exact Value.visit_write (Path.check_of_isWellFormed hbelow) hread
      (Value.isNull_eq_false_iff.2 hv)
  rw [hvisit]
  exact ⟨rfl, rfl⟩

theorem visit_setValue_office :
    let ctx := Context.ofSchema officeSchema
    let visited := staffRoot.visit ctx (.ofText "boss.office") fun child =>
      ctx.setValue child "desks[0].label" (.string "right")
    let written := ctx.setValue staffRoot "boss.office.desks[0].label" (.string "right")
    let office : Value := .record ⟨"Office", 0⟩
      ⟨[("desks", .array [.record ⟨"Desk", 0⟩ ⟨[("label", .string "right")]⟩])]⟩
    (Path.ofText "desks[0].label").isWellFormed ∧ deskOffice ≠ .null ∧
      ctx.getValue staffRoot "boss.office" = .ok (some deskOffice) ∧
      visited.1 = written.1 ∧ visited.2 = written.2.map some ∧
      visited = (.map ⟨[("boss", .record ⟨"Person", 0⟩ ⟨[("place", office)]⟩), ("guests", .null)]⟩,
        .ok (some ())) := by
  intro ctx visited written office
  have hdesks : (Path.ofText "desks[0].label").isWellFormed = true := by
    rw [ofText_desks_label]
    rfl
  have hvisited : visited = (.map ⟨[("boss", .record ⟨"Person", 0⟩ ⟨[("place", office)]⟩),
      ("guests", .null)]⟩, .ok (some ())) := by
    change (staffRoot.visit ctx (.ofText "boss.office") fun child =>
      child.write ctx (.ofText "desks[0].label") (.string "right")) = _
    rw [ofText_boss_office, ofText_desks_label]
    rfl
  obtain ⟨hroot, houtcome⟩ := Context.visit_setValue ctx staffRoot hdesks
    (v := deskOffice) nofun getValue_boss_office (.string "right")
  exact ⟨hdesks, nofun, getValue_boss_office, hroot, houtcome, hvisited⟩

end PropTree
