import PropTree.Proofs.Navigation.InPlace
import PropTree.Proofs.Navigation.NullWrites
import PropTree.Proofs.Path.Grammar

set_option autoImplicit false

/-!
# Malformed paths

A walk reads the segments of its path one ahead of the value it is at, so a
malformed segment is met only if the values before it are there.
-/

namespace PropTree

namespace Path

theorem isWellFormed_iff {path : Path} : path.isWellFormed = true ↔ path.steps.2 = none := by
  induction path with
  | malformed e => simp [isWellFormed, steps]
  | last step => simp [isWellFormed, steps]
  | next step rest ih => exact ih

theorem isWellFormed_of_steps_error {path : Path} {e : PathError} (h : path.steps.2 = some e) :
    path.isWellFormed = false := by
  rw [← Bool.not_eq_true, isWellFormed_iff, h]
  exact nofun

end Path

namespace Segment

theorem all_eq_steps (text : String) :
    ∃ segments : List Segment, segments.map Segment.step = (Path.ofText text).steps.1 ∧
      all text = segments.map .ok ++ (Path.ofText text).steps.2.toList.map .error := by
  induction text using Segment.all.induct with
  | case1 text e hparse =>
    rw [all_of_error hparse, Path.ofText_of_error hparse]
    exact ⟨[], rfl, rfl⟩
  | case2 text segment hparse hchildren =>
    rw [all_of_last hparse hchildren]
    obtain ⟨step, name, _⟩ := segment
    subst hchildren
    rw [Path.ofText_of_last hparse]
    exact ⟨[_], rfl, rfl⟩
  | case3 text segment hparse children hchildren ih =>
    obtain ⟨segments, hsteps, hall⟩ := ih
    rw [all_of_next hparse hchildren, hall]
    obtain ⟨step, name, _⟩ := segment
    subst hchildren
    rw [Path.ofText_of_next hparse]
    refine ⟨⟨step, name, some children⟩ :: segments, ?_, rfl⟩
    rw [List.map_cons, hsteps]
    rfl

variable {text : String} {e : PathError}

theorem error_mem_all_iff : .error e ∈ all text ↔ (Path.ofText text).steps.2 = some e := by
  obtain ⟨segments, _, hall⟩ := all_eq_steps text
  rw [hall]
  simp

theorem length_all_of_error (h : (Path.ofText text).steps.2 = some e) :
    (all text).length = (Path.ofText text).steps.1.length + 1 := by
  obtain ⟨segments, hsteps, hall⟩ := all_eq_steps text
  rw [hall, h, ← hsteps]
  simp

end Segment

namespace Value

variable {ctx : Context} {root new : Value} {path rest : Path} {step : Step} {lookup : Lookup}
  {c : Child}

/-! ### Reads -/

theorem read_of_meetsAbsent (h : root.MeetsAbsent ctx .read path) :
    root.read ctx path = .ok none := by
  induction h with
  | here hrest hc => rw [read_next, lookBelow_eq_ok_iff.2 ⟨hrest, hc⟩]
  | later hc _ ih => rw [read_next_of_child hc, ih]

theorem meetsAbsent_of_read_none (hpath : path.isWellFormed = false)
    (h : root.read ctx path = .ok none) : root.MeetsAbsent ctx .read path := by
  induction path generalizing root with
  | malformed e => nomatch h
  | last step => nomatch hpath
  | next step rest ih =>
    rw [read_next] at h
    cases hlook : root.lookBelow ctx step rest .read with
    | error e => simp [hlook] at h
    | ok found =>
      obtain ⟨hrest, hc⟩ := lookBelow_eq_ok_iff.1 hlook
      rw [hlook] at h
      cases found with
      | none => exact .here hrest hc
      | some c => exact .later hc (ih hpath h)

/-! ### Writes -/

theorem giveBack_of_error {α : Type} (e : NavigationError)
    (hc : root.child ctx step lookup = .ok (some c)) :
    root.giveBack ctx step c (c.value, (.error e : Except NavigationError α)) =
      (root, .error e) := by
  cases c with
  | stored place v => exact Prod.ext (putAt_of_child hc) rfl
  | detached v => rfl

theorem write_of_not_meetsAbsent (hpath : path.isWellFormed = false)
    (h : ¬root.MeetsAbsent ctx .write path) (new : Value) :
    ∃ e, root.write ctx path new = (root, .error e) := by
  induction path generalizing root with
  | malformed e => exact ⟨_, rfl⟩
  | last step => nomatch hpath
  | next step rest ih =>
    cases hlook : root.lookBelow ctx step rest .write with
    | error e => exact ⟨e, by rw [write_next, enter, hlook]⟩
    | ok found =>
      obtain ⟨hrest, hc⟩ := lookBelow_eq_ok_iff.1 hlook
      cases found with
      | none => exact absurd (.here hrest hc) h
      | some c =>
        obtain ⟨e, hwrite⟩ := ih hpath fun hlater => h (.later hc hlater)
        refine ⟨e, ?_⟩
        rw [write_next_of_child hrest (child_of_child hc .read), hwrite]
        exact giveBack_of_error e hc

theorem isWellFormed_of_write_ok (hnew : new.isNull = false)
    (h : (root.write ctx path new).2 = .ok ()) : path.isWellFormed = true := by
  induction path generalizing root with
  | malformed e => nomatch h
  | last step => rfl
  | next step rest ih =>
    rw [write_next] at h
    cases henter : root.enter ctx step rest new with
    | mk parent outcome =>
      rw [henter] at h
      cases outcome with
      | error e => nomatch h
      | ok found =>
        cases found with
        | none => simp [(isNull_of_enter_none henter).2] at hnew
        | some c => exact ih (ok_of_giveBack_ok h)

theorem walk_of_early_error {e : PathError} (hroot : root.shape?.isSome)
    (herror : path.steps.2 = some e) (hearly : path.steps.1.length ≤ 1) :
    root.read ctx path = .error (.path e) ∧
      ∀ new, root.write ctx path new = (root, .error (.path e)) := by
  obtain ⟨shape, hshape⟩ := Option.isSome_iff_exists.1 hroot
  cases path with
  | malformed e' =>
    obtain rfl := Option.some.inj herror
    exact ⟨rfl, fun _ => rfl⟩
  | last step => cases herror
  | next step rest =>
    cases rest with
    | malformed e' =>
      obtain rfl := Option.some.inj herror
      have hlook (lookup : Lookup) :
          root.lookBelow ctx step (.malformed e') lookup = .error (.path e') := by
        simp only [lookBelow, Value.shape, hshape]
        rfl
      refine ⟨by rw [read_next, hlook], fun new => ?_⟩
      rw [write_next, enter, hlook]
    | last step' => cases herror
    | next step' rest =>
      simp only [Path.steps, List.length_cons] at hearly
      omega

end Value

/-- What a malformed path leads to, whatever the root and the factory are. A
read gives an error, or nothing if it meets something absent first, and leaves
the root. A write gives an error and leaves the root if it meets nothing absent
first; if it does, it still gives an error unless it writes a null, which has
nothing to do there. An error in the first two segments of the path is always
the answer. -/
theorem Context.malformed_path (ctx : Context) (root : Value) {text : String}
    {items : List (Except PathError Segment)} {e : PathError}
    (hitems : (Segments.ofText text).items = .ok items) (he : .error e ∈ items) :
    let path := Path.ofText text
    (Request.run ctx root (.get text)).1 = root ∧
    (root.MeetsAbsent ctx .read path → ctx.getValue root text = .ok none) ∧
    (¬root.MeetsAbsent ctx .read path → ∃ e', ctx.getValue root text = .error e') ∧
    (¬root.MeetsAbsent ctx .write path →
      ∀ new, ∃ e', ctx.setValue root text new = (root, .error e')) ∧
    (root.MeetsAbsent ctx .write path →
      (∀ new, new ≠ .null → ∃ e', (ctx.setValue root text new).2 = .error e') ∧
      (root.TakesBack ctx path → ctx.setValue root text .null = (root, .ok ()))) ∧
    (root.shape?.isSome → items.length ≤ 2 →
      ctx.getValue root text = .error (.path e) ∧
        ∀ new, ctx.setValue root text new = (root, .error (.path e))) := by
  intro path
  obtain rfl : items = Segment.all text := by
    rw [Segments.items_ofText] at hitems
    exact (Except.ok.inj hitems).symm
  have herror : path.steps.2 = some e := Segment.error_mem_all_iff.1 he
  have hpath : path.isWellFormed = false := Path.isWellFormed_of_steps_error herror
  refine ⟨?_, Value.read_of_meetsAbsent, ?_, Value.write_of_not_meetsAbsent hpath, ?_, ?_⟩
  · rw [Request.run_get]
  · intro hnever
    cases hread : ctx.getValue root text with
    | error e' => exact ⟨e', rfl⟩
    | ok found =>
      cases found with
      | none => exact absurd (Value.meetsAbsent_of_read_none hpath hread) hnever
      | some v =>
        have hgood : path.isWellFormed = true := Value.isWellFormed_of_read hread
        simp [hpath] at hgood
  · intro hmeets
    refine ⟨?_, Value.write_null_of_meetsAbsent hmeets⟩
    intro new hnew
    cases hwrite : (ctx.setValue root text new).2 with
    | error e' => exact ⟨e', rfl⟩
    | ok u =>
      have hgood : path.isWellFormed = true :=
        Value.isWellFormed_of_write_ok (Value.isNull_eq_false_iff.2 hnew) hwrite
      simp [hpath] at hgood
  · intro hroot hearly
    rw [Segment.length_all_of_error herror] at hearly
    exact Value.walk_of_early_error hroot herror (Nat.le_of_succ_le_succ hearly)

theorem malformed_path_staff :
    let ctx := Context.ofSchema officeSchema
    let unclosed : PathError := .unclosedIndex "desks["
    (∃ items, (Segments.ofText "boss.office.desks[").items = .ok items ∧ .error unclosed ∈ items) ∧
      (∀ lookup, ¬staffRoot.MeetsAbsent ctx lookup (.ofText "boss.office.desks[")) ∧
      (∃ e, ctx.getValue staffRoot "boss.office.desks[" = .error e) ∧
      (∃ e, ctx.setValue staffRoot "boss.office.desks[" .null = (staffRoot, .error e)) ∧
      (∃ items, (Segments.ofText "nobody.desks.a[").items = .ok items ∧
        .error (.unclosedIndex "a[") ∈ items) ∧
      (∀ lookup, staffRoot.MeetsAbsent ctx lookup (.ofText "nobody.desks.a[")) ∧
      staffRoot.TakesBack ctx (.ofText "nobody.desks.a[") ∧
      ctx.getValue staffRoot "nobody.desks.a[" = .ok none ∧
      (∃ e, (ctx.setValue staffRoot "nobody.desks.a[" (.bool true)).2 = .error e) ∧
      ctx.setValue staffRoot "nobody.desks.a[" .null = (staffRoot, .ok ()) ∧
      (∃ items, (Segments.ofText "nobody.desks[").items = .ok items ∧
        .error unclosed ∈ items ∧ items.length ≤ 2) ∧
      ctx.getValue staffRoot "nobody.desks[" = .error (.path unclosed) ∧
      ctx.setValue staffRoot "nobody.desks[" .null = (staffRoot, .error (.path unclosed)) := by
  intro ctx unclosed
  have hdesks : Path.ofText "desks[" = .malformed unclosed := Path.ofText_of_error rfl
  have hoffice : Path.ofText "office.desks[" = .next ⟨"office", none⟩ (.ofText "desks[") :=
    Path.ofText_of_next rfl
  have hboss : Path.ofText "boss.office.desks[" =
      .next ⟨"boss", none⟩ (.ofText "office.desks[") := Path.ofText_of_next rfl
  have ha : Path.ofText "a[" = .malformed (.unclosedIndex "a[") := Path.ofText_of_error rfl
  have hdesks' : Path.ofText "desks.a[" = .next ⟨"desks", none⟩ (.ofText "a[") :=
    Path.ofText_of_next rfl
  have hbeyond : Path.ofText "nobody.desks.a[" =
      .next ⟨"nobody", none⟩ (.ofText "desks.a[") := Path.ofText_of_next rfl
  have hearly : Path.ofText "nobody.desks[" = .next ⟨"nobody", none⟩ (.ofText "desks[") :=
    Path.ofText_of_next rfl
  have hbehind : .error unclosed ∈ Segment.all "boss.office.desks[" :=
    Segment.error_mem_all_iff.2 (by rw [hboss, hoffice, hdesks]; rfl)
  have hmissed : .error (.unclosedIndex "a[") ∈ Segment.all "nobody.desks.a[" :=
    Segment.error_mem_all_iff.2 (by rw [hbeyond, hdesks', ha]; rfl)
  have hsecond : (Path.ofText "nobody.desks[").steps.2 = some unclosed := by
    rw [hearly, hdesks]
    rfl
  have hlength : (Segment.all "nobody.desks[").length ≤ 2 := by
    rw [Segment.length_all_of_error hsecond, hearly, hdesks]
    decide
  have hnever (lookup : Lookup) :
      ¬staffRoot.MeetsAbsent ctx lookup (.ofText "boss.office.desks[") := by
    rw [hboss, hoffice, hdesks]
    rintro (⟨_, ⟨⟩⟩ | ⟨⟨⟩, ⟨⟨⟩, _⟩ | ⟨_, ⟨⟩⟩⟩)
  have hmeets (lookup : Lookup) :
      staffRoot.MeetsAbsent ctx lookup (.ofText "nobody.desks.a[") := by
    rw [hbeyond, hdesks']
    exact .here rfl rfl
  have hback : staffRoot.TakesBack ctx (.ofText "nobody.desks.a[") := by
    rw [hbeyond]
    rintro _ ⟨⟩
  obtain ⟨_, _, hget, hset, _, _⟩ :=
    Context.malformed_path ctx staffRoot (Segments.items_ofText "boss.office.desks[") hbehind
  obtain ⟨_, hnone, _, _, hbelow, _⟩ :=
    Context.malformed_path ctx staffRoot (Segments.items_ofText "nobody.desks.a[") hmissed
  obtain ⟨_, _, _, _, _, hfirst⟩ :=
    Context.malformed_path ctx staffRoot (Segments.items_ofText "nobody.desks[")
      (Segment.error_mem_all_iff.2 hsecond)
  obtain ⟨hvalue, hnull⟩ := hbelow (hmeets .write)
  obtain ⟨hread, hwrite⟩ := hfirst rfl hlength
  exact ⟨⟨_, Segments.items_ofText _, hbehind⟩, hnever, hget (hnever .read),
    hset (hnever .write) .null, ⟨_, Segments.items_ofText _, hmissed⟩, hmeets, hback,
    hnone (hmeets .read), hvalue _ nofun, hnull hback,
    ⟨_, Segments.items_ofText _, Segment.error_mem_all_iff.2 hsecond, hlength⟩, hread,
    hwrite .null⟩

/-- The third segment is not closed, but there is nothing under the first: the
read and the write of a null do not get that far, and the write of a value has
made a mapping for the second segment when it does. -/
theorem malformed_path_below_absent :
    let ctx := Context.ofSchema officeSchema
    let root := Value.map .empty
    let unclosed : PathError := .unclosedIndex "c["
    (∃ items, (Segments.ofText "a.b.c[").items = .ok items ∧ .error unclosed ∈ items) ∧
      ctx.getValue root "a.b.c[" = .ok none ∧
      ctx.setValue root "a.b.c[" .null = (root, .ok ()) ∧
      ctx.setValue root "a.b.c[" (.bool true) =
        (.map (.ofList [("a", root)]), .error (.path unclosed)) := by
  intro ctx root unclosed
  have hc : Path.ofText "c[" = .malformed unclosed := Path.ofText_of_error rfl
  have hb : Path.ofText "b.c[" = .next ⟨"b", none⟩ (.ofText "c[") := Path.ofText_of_next rfl
  have ha : Path.ofText "a.b.c[" = .next ⟨"a", none⟩ (.ofText "b.c[") := Path.ofText_of_next rfl
  refine ⟨⟨_, Segments.items_ofText _, Segment.error_mem_all_iff.2 ?_⟩, ?_, ?_, ?_⟩
  · rw [ha, hb, hc]
    rfl
  · rw [Context.getValue, ha, hb]
    rfl
  · rw [Context.setValue, ha, hb]
    rfl
  · rw [Context.setValue, ha, hb, hc]
    rfl

end PropTree
