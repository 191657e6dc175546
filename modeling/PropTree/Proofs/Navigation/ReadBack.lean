import PropTree.Proofs.Navigation.Walk
import PropTree.Proofs.Record.Stored
import PropTree.Proofs.Value.Records

set_option autoImplicit false

/-!
# What is written is read back

A write may have made records and sequences on its way, and may have changed
copies that had to be given back through setters.
-/

namespace PropTree

/-- Every property of a type that can be written can be read, and what its
setter accepts is what its getter gives of the record the setter leaves. -/
def Schema.ReadsBack (s : Schema) (type : TypeRef) : Prop :=
  ∀ name set, s.setter type name = .ok set →
    ∃ g, s.getter type name = .ok g ∧
      ∀ fields fields' v, set.access.invoke ⟨type, fields⟩ v = (fields', .ok ()) →
        g.access.invoke ⟨type, fields'⟩ = .ok v

def Declaration.ReadsBack (d : Declaration) : Prop :=
  ∀ set, d.setter? = some set →
    ∃ g, d.getter? = some g ∧
      ∀ r fields' v, set.access.invoke r v = (fields', .ok ()) →
        g.access.invoke ⟨r.type, fields'⟩ = .ok v

theorem Declaration.readsBack_of_isStored {d : Declaration} (h : d.isStored = true) :
    d.ReadsBack := by
  intro set hset
  cases d with
  | field name type =>
    obtain rfl := Option.some.inj hset
    refine ⟨_, rfl, ?_⟩
    intro r fields' v hinvoke
    obtain rfl := (Prod.mk.inj hinvoke).1
    simp [Getter.invoke]
  | readOnly _ _ => cases hset
  | _ => cases h

theorem Schema.readsBack_of_build {s : Schema} {type : TypeRef} {declarations : List Declaration}
    (hbuild : s.definition type = .build declarations)
    (hd : (declarations.map Declaration.name).Nodup) (h : ∀ d ∈ declarations, d.ReadsBack) :
    s.ReadsBack type := by
  intro name set hset
  rw [Schema.setter_eq_ok_iff, hbuild, RecordType.setters_build_eq_some_iff hd] at hset
  obtain ⟨d, hmem, rfl, hset⟩ := hset
  obtain ⟨g, hg, hback⟩ := h d hmem set hset
  refine ⟨g, ?_, fun fields => hback ⟨type, fields⟩⟩
  rw [Schema.getter_eq_ok_iff, hbuild, RecordType.getters_build_eq_some_iff hd]
  exact ⟨d, hmem, rfl, hg⟩

namespace Record

variable {ctx : Context} {r : Record} {name : String} {step : Step} {v : Value} {fields : Fields}

theorem readProperty_writeProperty (h : ctx.schema.ReadsBack r.type)
    (hset : r.writeProperty ctx name v = (fields, .ok ())) :
    Record.readProperty ctx ⟨r.type, fields⟩ name = .ok v := by
  unfold writeProperty at hset
  cases hs : ctx.schema.setter r.type name with
  | error e => simp [hs] at hset
  | ok s =>
    obtain ⟨g, hg, hback⟩ := h name s hs
    simp only [hs] at hset
    split at hset
    · rename_i fields' hinvoke
      obtain rfl := (Prod.mk.inj hset).1
      exact readProperty_of_getter hg (hback r.fields fields' v hinvoke)
    · nomatch hset

/-- An element is written into the stored sequence, or into a copy of it that
the setter then takes as a whole. -/
theorem get_setElement {index : Nat} (h : ctx.schema.ReadsBack r.type)
    (hset : r.setElement ctx name index v = (fields, .ok ())) :
    ∃ held, Record.readProperty ctx ⟨r.type, fields⟩ name = .ok held ∧
      held.element name index = .ok v := by
  unfold setElement at hset
  cases hg : ctx.schema.getter r.type name with
  | error e => simp [hg] at hset
  | ok g =>
    obtain ⟨type, access⟩ := g
    simp only [hg] at hset
    cases access with
    | field key =>
      dsimp only at hset
      split at hset
      · cases hset
      · split at hset
        · cases hset
        · rename_i changed hitem
          obtain rfl := (Prod.mk.inj hset).1
          obtain ⟨_, items', _, rfl, hv, _⟩ := Value.setElement_eq_ok hitem
          refine ⟨.array items', ?_, Value.element_eq_ok_iff.2 ⟨items', rfl, hv⟩⟩
          exact readProperty_of_getter hg (by simp [Getter.invoke])
    | method run =>
      dsimp only at hset
      split at hset
      · cases hset
      · split at hset
        · cases hset
        · split at hset
          · cases hset
          · rename_i changed hitem
            obtain ⟨_, items', _, rfl, hv, _⟩ := Value.setElement_eq_ok hitem
            exact ⟨.array items', readProperty_writeProperty h hset,
              Value.element_eq_ok_iff.2 ⟨items', rfl, hv⟩⟩

theorem get_set (h : ctx.schema.ReadsBack r.type) (hset : r.set ctx step v = (fields, .ok ())) :
    Record.get ctx ⟨r.type, fields⟩ step = .ok (some v) := by
  rw [get_eq_ok_iff]
  unfold set at hset
  cases hi : step.index with
  | none =>
    simp only [hi] at hset
    exact ⟨v, v, readProperty_writeProperty h hset, by simp [Value.part, hi], rfl⟩
  | some index =>
    simp only [hi] at hset
    obtain ⟨held, hread, hitem⟩ := get_setElement h hset
    exact ⟨held, v, hread, by simp [Value.part, hi, hitem], rfl⟩

end Record

namespace Value

def ReadsBack (s : Schema) : Value → Prop
  | .record type _ => s.ReadsBack type
  | _ => True

variable {P : TypeRef → Prop} {ctx : Context} {root root' parent : Value} {step : Step}
  {rest path : Path} {new : Value} {c : Child}

theorem EveryRecord.readsBack (h : root.EveryRecord P)
    (hback : ∀ type, P type → ctx.schema.ReadsBack type) : root.ReadsBack ctx.schema := by
  cases h with
  | record ht _ => exact hback _ ht
  | scalar hs =>
    cases root with
    | record _ _ => nomatch hs
    | _ => trivial
  | _ => trivial

theorem readsBack_instantiateChild {s : Schema} (h : root.ReadsBack s) :
    (root.instantiateChild ctx step).1.ReadsBack s := by
  cases root <;> exact h

theorem readsBack_enter {s : Schema} (h : root.ReadsBack s)
    (henter : root.enter ctx step rest new = (parent, .ok (some c))) : parent.ReadsBack s := by
  rcases enter_eq_some henter with ⟨rfl, -⟩ | hmade
  · exact h
  · have hparent : (root.instantiateChild ctx step).1.ReadsBack s := readsBack_instantiateChild h
    rwa [hmade] at hparent

theorem get_set (h : root.ReadsBack ctx.schema)
    (hset : root.set ctx step new = (root', .ok ())) :
    root'.get ctx step = .ok (some new) := by
  cases root with
  | record type fields =>
    simp only [set, Prod.mk.injEq] at hset
    obtain ⟨rfl, hok⟩ := hset
    exact Record.get_set (r := ⟨type, fields⟩) h (Prod.ext rfl hok)
  | map entries =>
    simp only [set, Prod.mk.injEq] at hset
    obtain ⟨rfl, hok⟩ := hset
    exact Mapping.get_set (Prod.ext rfl hok)
  | _ => cases hset

theorem value_of_set (h : root.ReadsBack ctx.schema)
    (hset : root.set ctx step new = (root', .ok ()))
    (hc : root'.child ctx step .write = .ok (some c)) : c.value = new := by
  have hget := (get_of_child hc).1.symm.trans (get_set h hset)
  exact Option.some.inj (Except.ok.inj hget)

theorem get_giveBack {changed : Value × Except NavigationError Unit}
    (h : parent.ReadsBack ctx.schema)
    (hc : parent.child ctx step .write = .ok (some c))
    (hback : (parent.giveBack ctx step c changed).2 = .ok ()) :
    changed.2 = .ok () ∧
      (parent.giveBack ctx step c changed).1.get ctx step = .ok (some changed.1) := by
  cases c with
  | stored place held => exact ⟨hback, get_putAt hc changed.1⟩
  | detached held =>
    simp only [giveBack] at hback ⊢
    cases hchanged : changed.2 with
    | error e => simp [hchanged] at hback
    | ok u =>
      simp only [hchanged] at hback ⊢
      cases hset : parent.set ctx step changed.1 with
      | mk parent' outcome =>
        cases outcome with
        | error e => simp [hset] at hback
        | ok u => exact ⟨trivial, get_set h hset⟩

theorem read_write (hback : ∀ type, P type → ctx.schema.ReadsBack type)
    (hgiven : ctx.schema.GivesOnly P) (hmade : ∀ d u, ctx.create d = .ok u → u.EveryRecord P)
    (hroot : root.EveryRecord P) (hnew : new.isNull = false)
    (hok : (root.write ctx path new).2 = .ok ()) :
    (root.write ctx path new).1.read ctx path = .ok (some new) := by
  -- the child a step leads to is read back with what was written below it
  induction path generalizing root with
  | malformed e => nomatch hok
  | last step => exact get_set (hroot.readsBack hback) (Prod.ext rfl hok)
  | next step rest ih =>
    have hreads := hroot.readsBack hback
    rw [write_next] at hok ⊢
    cases henter : root.enter ctx step rest new with
    | mk parent outcome =>
      cases outcome with
      | error e => simp [henter] at hok
      | ok found =>
        cases found with
        | none => simp [(isNull_of_enter_none henter).2] at hnew
        | some c =>
          simp only [henter] at hok ⊢
          have hc : c.value.EveryRecord P :=
            everyRecord_enter hmade (fun _ _ _ => value_of_set hreads)
              (fun _ => hroot.child_of_givesOnly hgiven) henter
          obtain ⟨hbelow, hget⟩ :=
            get_giveBack (readsBack_enter hreads henter) (child_of_enter henter) hok
          have hshape : (c.value.write ctx rest new).1.shape?.isSome := by
            rw [shape?_write]
            exact shape?_of_write_ok hbelow
          obtain ⟨c', hc', hvalue⟩ := child_of_get hget (isNull_of_shape? hshape) .read
          rw [read_next_of_child hc', hvalue]
          exact ih hc hbelow

end Value

/-- Setting a value and getting it: whatever the root, the factory and the path
are, a value other than null that was set with success is found there. Types have
to read back if they are in `P`: the root, what the factory makes and what getters
give of such records hold no others. With all types in `P` these three conditions
hold by themselves. -/
theorem Context.getValue_setValue (ctx : Context) (P : TypeRef → Prop)
    (hback : ∀ type, P type → ctx.schema.ReadsBack type) (hgiven : ctx.schema.GivesOnly P)
    (hmade : ∀ d u, ctx.create d = .ok u → u.EveryRecord P) (root : Value)
    (hroot : root.EveryRecord P) (path : String) (new : Value) (hnew : new ≠ .null)
    (hok : (ctx.setValue root path new).2 = .ok ()) :
    ctx.getValue (ctx.setValue root path new).1 path = .ok (some new) :=
  Value.read_write hback hgiven hmade hroot (Value.isNull_eq_false_iff.2 hnew) hok

/-! ### Schemas -/

def Declaration.ReadsField (d : Declaration) : Prop :=
  ∀ g, d.getter? = some g →
    ∃ key, ∀ r, g.access.invoke r = .ok ((r.fields.get? key).getD .null)

theorem Declaration.readsField_of_isStored {d : Declaration} (h : d.isStored = true) :
    d.ReadsField := by
  intro g hg
  cases d with
  | field name _ | readOnly name _ =>
    obtain rfl := Option.some.inj hg
    exact ⟨name, fun _ => rfl⟩
  | _ => cases h

namespace Schema

variable {s : Schema}

def Registers (s : Schema) (type : TypeRef) : Prop := s.find? type.name = some type

theorem readsBack_of_declares (hs : s.Declares Declaration.ReadsBack) {type : TypeRef}
    (h : s.Registers type) : s.ReadsBack type := by
  obtain ⟨declarations, hd, hall, hbuild⟩ := hs _ _ h
  exact readsBack_of_build hbuild hd hall

theorem givesOnly_of_declares (hs : s.Declares Declaration.ReadsField) :
    s.GivesOnly s.Registers := by
  intro type fields name g v hrecord hg hi
  cases hrecord with
  | scalar h => nomatch h
  | record htype hfields =>
    obtain ⟨declarations, hd, hall, hbuild⟩ := hs _ _ htype
    rw [getter_eq_ok_iff, hbuild, RecordType.getters_build_eq_some_iff hd] at hg
    obtain ⟨d, hmem, -, hg⟩ := hg
    obtain ⟨key, hkey⟩ := hall d hmem g hg
    obtain rfl := Except.ok.inj ((hkey _).symm.trans hi)
    cases hv : fields.get? key with
    | none => exact .scalar rfl
    | some v => exact hfields key v hv

theorem everyRecord_of_instantiate {P : Declaration → Prop} (hs : s.Declares P) {d : Descriptor}
    {u : Value} (hu : s.instantiate d = .ok u) : u.EveryRecord s.Registers :=
  Value.everyRecord_of_holds fun _ hr => (newRecord_of_instantiate hs hu hr).1

end Schema

def officeAccessor : Declaration :=
  .accessor "office" (.record "Office") (fun r => .ok ((r.fields.get? "place").getD .null))
    fun r v => (r.fields.insert "place" v, .ok ())

def officeSchema : Schema where
  definition := fun type =>
    if type = ⟨"Person", 0⟩ then .build [.field "name" .string, officeAccessor]
    else if type = ⟨"Office", 0⟩ then .build [.field "desks" (.list (.record "Desk"))]
    else if type = ⟨"Desk", 0⟩ then .build [.field "label" .string]
    else .build [.writeOnly "memo" .string fun r v => (r.fields.insert "memo" v, .ok ())]
  registered := .ofList [("Person", 0), ("Office", 0), ("Desk", 0)]

theorem officeSchema_declares :
    officeSchema.Declares fun d => d.isStored = true ∨ d = officeAccessor := by
  intro name type hfind
  obtain ⟨variant, hvariant, rfl⟩ := Option.map_eq_some_iff.1 hfind
  have hmem : (name, variant) ∈ [("Desk", 0), ("Office", 0), ("Person", 0)] :=
    Assoc.mem_of_findEntry hvariant
  simp only [List.mem_cons, Prod.mk.injEq, List.not_mem_nil, or_false] at hmem
  rcases hmem with ⟨rfl, rfl⟩ | ⟨rfl, rfl⟩ | ⟨rfl, rfl⟩
  · exact ⟨[.field "label" .string], by decide, by simp [Declaration.isStored], rfl⟩
  · exact ⟨[.field "desks" (.list (.record "Desk"))], by decide, by simp [Declaration.isStored],
      rfl⟩
  · exact ⟨[.field "name" .string, officeAccessor], by decide, by simp [Declaration.isStored], rfl⟩

theorem officeSchema_readsBack {type : TypeRef} (h : officeSchema.Registers type) :
    officeSchema.ReadsBack type := by
  refine Schema.readsBack_of_declares (fun name type hfind => ?_) h
  obtain ⟨declarations, hd, hall, hbuild⟩ := officeSchema_declares name type hfind
  refine ⟨declarations, hd, fun d hmem => ?_, hbuild⟩
  rcases hall d hmem with hstored | rfl
  · exact Declaration.readsBack_of_isStored hstored
  · intro set hset
    obtain rfl := Option.some.inj hset
    refine ⟨_, rfl, ?_⟩
    intro r fields' v hinvoke
    obtain rfl := (Prod.mk.inj hinvoke).1
    simp [Getter.invoke]

theorem officeSchema_givesOnly : officeSchema.GivesOnly officeSchema.Registers := by
  refine Schema.givesOnly_of_declares fun name type hfind => ?_
  obtain ⟨declarations, hd, hall, hbuild⟩ := officeSchema_declares name type hfind
  refine ⟨declarations, hd, fun d hmem => ?_, hbuild⟩
  rcases hall d hmem with hstored | rfl
  · exact Declaration.readsField_of_isStored hstored
  · intro g hg
    obtain rfl := Option.some.inj hg
    exact ⟨"place", fun _ => rfl⟩

theorem ofText_office_desk :
    Path.ofText "office.desks[0].label" =
      .next ⟨"office", none⟩ (.next ⟨"desks", some 0⟩ (.last ⟨"label", none⟩)) := by
  have hlabel : Path.ofText "label" = .last ⟨"label", none⟩ := Path.ofText_of_last rfl
  have hdesks : Path.ofText "desks[0].label" = .next ⟨"desks", some 0⟩ (.ofText "label") :=
    Path.ofText_of_next rfl
  have hoffice : Path.ofText "office.desks[0].label" =
      .next ⟨"office", none⟩ (.ofText "desks[0].label") := Path.ofText_of_next rfl
  rw [hoffice, hdesks, hlabel]

/-- A desk in an office that is not there yet: the office is a copy given back
through its setter, and the desk is appended to a new sequence. Memos are not
read back, but none is on the way. -/
theorem getValue_setValue_office :
    let ctx := Context.ofSchema officeSchema
    let root := Value.ofRecord (officeSchema.newRecord ⟨"Person", 0⟩)
    let set := ctx.setValue root "office.desks[0].label" (.string "left")
    (∀ type, officeSchema.Registers type → ctx.schema.ReadsBack type) ∧
      ¬ctx.schema.ReadsBack ⟨"Note", 0⟩ ∧ root.EveryRecord officeSchema.Registers ∧
      set.2 = .ok () ∧
      ctx.getValue set.1 "office.desks[0].label" = .ok (some (.string "left")) := by
  intro ctx root set
  have hmemo : ¬ctx.schema.ReadsBack ⟨"Note", 0⟩ := by
    intro h
    obtain ⟨g, hg, -⟩ := h "memo" _ rfl
    nomatch hg
  have hmade : ∀ d u, ctx.create d = .ok u → u.EveryRecord officeSchema.Registers :=
    fun _ _ => Schema.everyRecord_of_instantiate officeSchema_declares
  have hroot : root.EveryRecord officeSchema.Registers := hmade (.record "Person") root rfl
  have hok : (ctx.setValue root "office.desks[0].label" (.string "left")).2 = .ok () := by
    rw [Context.setValue, ofText_office_desk]
    rfl
  exact ⟨fun _ => officeSchema_readsBack, hmemo, hroot, hok,
    Context.getValue_setValue ctx officeSchema.Registers (fun _ => officeSchema_readsBack)
      officeSchema_givesOnly hmade root hroot _ _ nofun hok⟩

end PropTree
