import PropTree.Proofs.Navigation.Separation
import PropTree.Proofs.Navigation.Visit

set_option autoImplicit false

/-!
# Nulls below what is absent

A write of a null that meets something absent makes nothing, but every copy it went
through is still given back through its setter.
-/

namespace PropTree

namespace Value

inductive MeetsAbsent (ctx : Context) (lookup : Lookup) : Value → Path → Prop where
  | here {root : Value} {step : Step} {rest : Path} (hrest : rest.check = .ok ())
      (h : root.child ctx step lookup = .ok none) : MeetsAbsent ctx lookup root (.next step rest)
  | later {root : Value} {step : Step} {rest : Path} {c : Child}
      (h : root.child ctx step lookup = .ok (some c))
      (hlater : MeetsAbsent ctx lookup c.value rest) : MeetsAbsent ctx lookup root (.next step rest)

/-- Each copy that a walk is led through can be set again unchanged, and this
leaves its parent as it was. -/
def TakesBack (ctx : Context) : Value → Path → Prop
  | root, .next step rest => ∀ c, root.child ctx step .read = .ok (some c) →
      (c.isDetached = true → root.set ctx step c.value = (root, .ok ())) ∧
        TakesBack ctx c.value rest
  | _, _ => True

variable {ctx : Context} {root : Value} {step : Step} {path rest below : Path}
  {lookup : Lookup} {c : Child}

theorem child_of_absent
    (h : root.get ctx step = .ok none ∨ root.get ctx step = .ok (some .null)) :
    root.child ctx step .read = .ok none := by
  by_cases hasks : root.AsksAbsentEntry step
  · exact child_of_asksAbsentEntry hasks
  · have hget : (root.child ctx step .read).map (Option.map Child.value) =
        (root.get ctx step).map (·.bind present?) := child_eq_get hasks
    have hnone : (root.get ctx step).map (·.bind present?) = .ok none := by
      rcases h with h | h <;> rw [h] <;> rfl
    rw [hnone] at hget
    exact map_eq_none_iff.1 hget

/-! ### Walks that stop -/

theorem MeetsAbsent.check (h : MeetsAbsent ctx lookup root path) : path.check = .ok () := by
  cases h <;> rfl

theorem MeetsAbsent.of_read (h : MeetsAbsent ctx .read root path) :
    MeetsAbsent ctx lookup root path := by
  induction h with
  | here hrest hc => exact .here hrest (child_of_none hc lookup)
  | later hc _ ih => exact .later (child_of_child hc lookup) ih

theorem meetsAbsent_append (hpath : path.isWellFormed = true) (hbelow : below.check = .ok ())
    (h : root.read ctx path = .ok none ∨ root.read ctx path = .ok (some .null)) :
    MeetsAbsent ctx .read root (path.append below) := by
  induction path generalizing root with
  | malformed e => nomatch hpath
  | last step => exact .here hbelow (child_of_absent h)
  | next step rest ih =>
    cases hc : root.child ctx step .read with
    | error e =>
      have hrest : rest.check = .ok () := Path.check_of_isWellFormed hpath
      rw [read_next_of_check hrest, hc] at h
      rcases h with h | h <;> nomatch h
    | ok found =>
      cases found with
      | none => exact .here (Path.check_append hpath) hc
      | some c =>
        rw [read_next_of_child hc] at h
        exact .later hc (ih hpath h)

/-! ### Giving back what has not changed -/

theorem giveBack_self {α : Type} (a : α) (hc : root.child ctx step lookup = .ok (some c))
    (hset : c.isDetached = true → root.set ctx step c.value = (root, .ok ())) :
    root.giveBack ctx step c (c.value, .ok a) = (root, .ok a) := by
  cases c with
  | stored place v => exact Prod.ext (putAt_of_child hc) rfl
  | detached v =>
    have hsame : root.set ctx step v = (root, .ok ()) := hset rfl
    simp only [giveBack, Child.value, hsame]

theorem write_null_of_meetsAbsent (h : MeetsAbsent ctx .write root path)
    (hback : root.TakesBack ctx path) : root.write ctx path .null = (root, .ok ()) := by
  -- the write ends at the absent value; each level above it gives back the child it took
  induction h with
  | here hrest hc =>
    rw [write_next, enter, lookBelow_eq_ok_iff.2 ⟨hrest, hc⟩]
    rfl
  | later hc hlater ih =>
    have hread := child_of_child hc .read
    obtain ⟨hset, hrest⟩ := hback _ hread
    rw [write_next_of_child hlater.check hread, ih hrest]
    exact giveBack_self () hc hset

/-- No copy is made on a walk through stored fields. -/
theorem takesBack_of_everyRecord
    (h : root.EveryRecord fun type => (ctx.schema.definition type).FieldBacked) :
    root.TakesBack ctx path := by
  induction path generalizing root with
  | malformed e => trivial
  | last step => trivial
  | next step rest ih =>
    intro c hc
    obtain ⟨v, rfl⟩ := child_of_fieldBacked h.fieldBacked hc
    exact ⟨nofun, ih (h.child hc)⟩

end Value

/-- Setting a null below a path at which there is nothing, or a null: it
succeeds and leaves the root as it was if each setter on the way takes back
what its getter gave. In a root whose records keep every property in the field
of its name there is no such setter. -/
theorem Context.setValue_null_below_absent (ctx : Context) (root : Value) {path below : String}
    (hpath : (Path.ofText path).isWellFormed = true)
    (hbelow : (Path.ofText below).isWellFormed = true)
    (habsent : ctx.getValue root path = .ok none ∨ ctx.getValue root path = .ok (some .null)) :
    let longer := path ++ "." ++ below
    (root.TakesBack ctx (.ofText longer) → ctx.setValue root longer .null = (root, .ok ())) ∧
    ((root.EveryRecord fun type => (ctx.schema.definition type).FieldBacked) →
      ctx.setValue root longer .null = (root, .ok ())) := by
  intro longer
  have htext : Path.ofText longer = (Path.ofText path).append (.ofText below) :=
    Path.ofText_append hpath (Path.ne_empty_of_isWellFormed hbelow)
  have hmeets : Value.MeetsAbsent ctx .write root (.ofText longer) := by
    rw [htext]
    exact (Value.meetsAbsent_append hpath (Path.check_of_isWellFormed hbelow) habsent).of_read
  constructor
  · intro hback
    exact Value.write_null_of_meetsAbsent hmeets hback
  · intro hstored
    exact Value.write_null_of_meetsAbsent hmeets (Value.takesBack_of_everyRecord hstored)

def vacantRoot : Value :=
  .map (.ofList [("boss", .record ⟨"Person", 0⟩
    (.ofList [("place", .record ⟨"Office", 0⟩ (.ofList [("desks", .array [.null])]))]))])

theorem setValue_null_below_vacant :
    let ctx := Context.ofSchema officeSchema
    let stored := Context.ofSchema cartSchema
    (Path.ofText "boss.office.desks[0]").isWellFormed ∧ (Path.ofText "label").isWellFormed ∧
      (Path.ofText "guest").isWellFormed ∧
      ctx.getValue vacantRoot "boss.office.desks[0]" = .ok (some .null) ∧
      vacantRoot.TakesBack ctx (.ofText "boss.office.desks[0].label") ∧
      ctx.setValue vacantRoot "boss.office.desks[0].label" .null = (vacantRoot, .ok ()) ∧
      stored.getValue cartRoot "guest" = .ok none ∧
      (cartRoot.EveryRecord fun type => (stored.schema.definition type).FieldBacked) ∧
      stored.setValue cartRoot "guest.label" .null = (cartRoot, .ok ()) := by
  intro ctx stored
  have hlabel : Path.ofText "label" = .last ⟨"label", none⟩ := Path.ofText_of_last rfl
  have hguest : Path.ofText "guest" = .last ⟨"guest", none⟩ := Path.ofText_of_last rfl
  have hdesk : Path.ofText "desks[0]" = .last ⟨"desks", some 0⟩ := Path.ofText_of_last rfl
  have hoffice : Path.ofText "office.desks[0]" = .next ⟨"office", none⟩ (.ofText "desks[0]") :=
    Path.ofText_of_next rfl
  have hboss : Path.ofText "boss.office.desks[0]" =
      .next ⟨"boss", none⟩ (.ofText "office.desks[0]") := Path.ofText_of_next rfl
  have hpath : (Path.ofText "boss.office.desks[0]").isWellFormed = true := by
    rw [hboss, hoffice, hdesk]
    rfl
  have hbelow : (Path.ofText "label").isWellFormed = true := by
    rw [hlabel]
    rfl
  have hnobody : (Path.ofText "guest").isWellFormed = true := by
    rw [hguest]
    rfl
  have hnull : ctx.getValue vacantRoot "boss.office.desks[0]" = .ok (some .null) := by
    rw [Context.getValue, hboss, hoffice, hdesk]
    rfl
  have hnone : stored.getValue cartRoot "guest" = .ok none := by
    rw [Context.getValue, hguest]
    rfl
  have hlonger : Path.ofText "boss.office.desks[0].label" =
      .next ⟨"boss", none⟩ (.next ⟨"office", none⟩ (.next ⟨"desks", some 0⟩
        (.last ⟨"label", none⟩))) := by
    have htext := Path.ofText_append hpath (Path.ne_empty_of_isWellFormed hbelow)
    rw [hboss, hoffice, hdesk, hlabel] at htext
    exact htext
  have hback : vacantRoot.TakesBack ctx (.ofText "boss.office.desks[0].label") := by
    rw [hlonger]
    rintro _ ⟨⟩
    refine ⟨by rintro ⟨⟩, ?_⟩
    rintro _ ⟨⟩
    refine ⟨fun _ => rfl, ?_⟩
    rintro _ ⟨⟩
  have hfields : cartRoot.EveryRecord fun type => (stored.schema.definition type).FieldBacked :=
    cartRoot_everyRecord fun type => (cartSchema_plain type).toFieldBacked
  exact ⟨hpath, hbelow, hnobody, hnull, hback,
    (Context.setValue_null_below_absent ctx vacantRoot hpath hbelow (.inr hnull)).1 hback,
    hnone, hfields,
    (Context.setValue_null_below_absent stored cartRoot hnobody hbelow (.inl hnone)).2 hfields⟩

def shopSchema : Schema where
  definition := fun _ => .build
    [.accessor "view" (.map .unknown) (fun r => .ok ((r.fields.get? "kept").getD .null))
      fun r v =>
        let writes := ((r.fields.get? "writes").bind Value.integer?).getD 0
        ((r.fields.insert "writes" (.integer (writes + 1))).insert "kept" v, .ok ())]
  registered := .ofList [("Shop", 0)]

def shopRoot : Value := .record ⟨"Shop", 0⟩ (.ofList [("kept", .map .empty)])

/-- There is no stock to write a null into, but the write is counted. -/
theorem setValue_null_below_absent_counted :
    let ctx := Context.ofSchema shopSchema
    (Path.ofText "view.stock").isWellFormed ∧ (Path.ofText "count").isWellFormed ∧
      ctx.getValue shopRoot "view.stock" = .ok none ∧
      ctx.setValue shopRoot "view.stock.count" .null =
        (.record ⟨"Shop", 0⟩ (.ofList [("kept", .map .empty), ("writes", .integer 1)]), .ok ()) ∧
      ctx.setValue shopRoot "view.stock.count" .null ≠ (shopRoot, .ok ()) := by
  intro ctx
  have hcount : Path.ofText "count" = .last ⟨"count", none⟩ := Path.ofText_of_last rfl
  have hstock : Path.ofText "stock" = .last ⟨"stock", none⟩ := Path.ofText_of_last rfl
  have hview : Path.ofText "view.stock" = .next ⟨"view", none⟩ (.ofText "stock") :=
    Path.ofText_of_next rfl
  have hstock' : Path.ofText "stock.count" = .next ⟨"stock", none⟩ (.ofText "count") :=
    Path.ofText_of_next rfl
  have hview' : Path.ofText "view.stock.count" = .next ⟨"view", none⟩ (.ofText "stock.count") :=
    Path.ofText_of_next rfl
  have hwrite : ctx.setValue shopRoot "view.stock.count" .null =
      (.record ⟨"Shop", 0⟩ (.ofList [("kept", .map .empty), ("writes", .integer 1)]),
        .ok ()) := by
    rw [Context.setValue, hview', hstock', hcount]
    rfl
  refine ⟨?_, ?_, ?_, hwrite, ?_⟩
  · rw [hview, hstock]
    rfl
  · rw [hcount]
    rfl
  · rw [Context.getValue, hview, hstock]
    rfl
  · rw [hwrite]
    intro hsame
    cases (Value.record.inj (Prod.mk.inj hsame).1).2

end PropTree
