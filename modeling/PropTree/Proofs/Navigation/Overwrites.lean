import PropTree.Proofs.Assoc
import PropTree.Proofs.Navigation.Separation
import PropTree.Proofs.Navigation.Visit

set_option autoImplicit false

/-!
# Writes over what is there
-/

namespace PropTree

namespace Assoc

variable {m m' : Assoc Value} {step : Step} {make : Except NavigationError Value} {held v : Value}

theorem setStep_of_peek (h : m.peek ⟨step.name, step.index⟩ = some held)
    (make : Except NavigationError Value) (v : Value) :
    m.setStep step make v = (m.putAt ⟨step.name, step.index⟩ v, .ok ()) := by
  unfold setStep putAt
  cases hindex : step.index with
  | none => rfl
  | some index =>
    rw [hindex] at h
    obtain ⟨items, hget, hitem⟩ := peek_element.1 h
    have hlt : index < items.length := (List.getElem?_eq_some_iff.1 hitem).1
    simp only [hget, Option.getD_some, Value.isNull, Bool.false_eq_true, if_false,
      Value.setElement, if_pos hlt]

theorem peek_setStep (h : m.setStep step make v = (m', .ok ())) :
    m'.peek ⟨step.name, step.index⟩ = some v := by
  obtain ⟨stored, hfst, hcases⟩ := setStep_cases m step make v
  rw [h] at hfst hcases
  obtain rfl : m' = _ := hfst
  refine peek_eq_some_iff.2 ⟨stored, get?_insert_self m step.name stored, ?_⟩
  unfold Value.part
  rcases hcases with ⟨hindex, rfl, _⟩ | ⟨_, _, _, _, herror⟩ |
    ⟨index, collection, hindex, _, _, hset⟩
  · rw [hindex]
  · nomatch herror
  · rw [hindex]
    obtain ⟨_, items', _, rfl, hitem, _⟩ := Value.setElement_eq_ok hset
    exact Value.element_eq_ok_iff.2 ⟨items', rfl, hitem⟩

theorem setStep_ok (h : m.setStep step make v = (m', .ok ())) (w : Value) :
    (m.setStep step make w).2 = .ok () := by
  unfold setStep at h ⊢
  cases hindex : step.index with
  | none => rfl
  | some index =>
    simp only [hindex] at h ⊢
    split at h
    · nomatch h
    · split at h
      · nomatch h
      · rename_i changed hchanged
        obtain ⟨_, _, hw⟩ := Value.setElement_setElement hchanged w
        simp only [hw]

theorem setStep_setStep (h : m.setStep step make v = (m', .ok ())) (w : Value) :
    m'.setStep step make w = m.setStep step make w :=
  calc m'.setStep step make w = (m'.putAt ⟨step.name, step.index⟩ w, .ok ()) :=
        setStep_of_peek (peek_setStep h) make w
    _ = m.setStep step make w := Prod.ext (putAt_setStep h w) (setStep_ok h w).symm

theorem putAt_putAt (m : Assoc Value) (place : Place) (v w : Value) :
    (m.putAt place v).putAt place w = m.putAt place w := by
  obtain ⟨key, index⟩ := place
  unfold putAt
  cases index with
  | none => exact insert_insert m key v w
  | some index =>
    dsimp only
    cases hget : m.get? key with
    | none => simp only [hget]
    | some held =>
      cases held with
      | array items => simp only [get?_insert_self, List.set_set, insert_insert]
      | _ => simp only [hget]

end Assoc

/-- A record that keeps every property in the field of its name and has storage
for each of them. -/
structure Record.Stocked (s : Schema) (r : Record) : Prop where
  backed : (s.definition r.type).FieldBacked
  stores : ∀ name, (s.definition r.type).hasGetter name ∨ (s.definition r.type).hasSetter name →
    r.fields.contains name

namespace Value

variable {ctx : Context} {root root' parent held new v w : Value} {step : Step} {rest path : Path}
  {lookup : Lookup} {c : Child} {place : Place} {m : Assoc Value}

/-! ### One step -/

theorem putAt_putAt (root : Value) (place : Place) (v w : Value) :
    (root.putAt place v).putAt place w = root.putAt place w := by
  cases root with
  | record type fields => exact congrArg (Value.record type) (fields.putAt_putAt place v w)
  | map entries => exact congrArg Value.map (entries.putAt_putAt place v w)
  | _ => rfl

theorem fieldBacked_putAt (hb : root.FieldBacked ctx) : (root.putAt place v).FieldBacked ctx := by
  cases root with
  | record _ _ => exact hb
  | _ => trivial

theorem fieldBacked_withTable (hb : root.FieldBacked ctx) : (root.withTable m).FieldBacked ctx := by
  cases root with
  | record _ _ => exact hb
  | _ => trivial

theorem table?_withTable (h : root.table? = some m) (m' : Assoc Value) :
    (root.withTable m').table? = some m' := by
  cases root with
  | record _ _ | map _ => rfl
  | _ => nomatch h

theorem child_putAt (hb : root.FieldBacked ctx)
    (hc : root.child ctx step lookup = .ok (some (.stored place held))) (hv : v.isNull = false)
    (other : Lookup) :
    (root.putAt place v).child ctx step other = .ok (some (.stored place v)) := by
  obtain ⟨held', hplace⟩ := child_of_fieldBacked hb hc
  obtain ⟨rfl, -⟩ := Child.stored.inj hplace
  obtain ⟨c, hchild, rfl⟩ := child_of_get (get_putAt hc v) hv other
  obtain ⟨u, rfl⟩ := child_of_fieldBacked (fieldBacked_putAt hb) hchild
  exact hchild

theorem peek_of_child (hb : root.FieldBacked ctx) (hm : root.table? = some m)
    (hc : root.child ctx step lookup = .ok (some c)) :
    m.peek ⟨step.name, step.index⟩ = some c.value := by
  obtain ⟨v, rfl⟩ := child_of_fieldBacked hb hc
  cases root with
  | record type fields =>
    obtain ⟨_, _, _, _, _, hpeek⟩ := Record.peek_of_child hc
    exact Option.some.inj hm ▸ hpeek
  | map entries => exact Option.some.inj hm ▸ (Mapping.peek_of_child hc).2
  | _ => nomatch hm

theorem set_set (hb : root.FieldBacked ctx) (h : root.set ctx step v = (root', .ok ()))
    (w : Value) : (root.set ctx step w).2 = .ok () ∧ root'.set ctx step w = root.set ctx step w := by
  rcases set_withTable hb step with ⟨e, hset⟩ | ⟨make, htable, hset⟩
  · rw [hset] at h
    nomatch h
  · obtain ⟨m, hm⟩ := Option.isSome_iff_exists.1 htable
    have hroot := hset m
    rw [withTable_of_table? hm] at hroot
    rw [hroot] at h
    obtain ⟨rfl, hok⟩ := Prod.mk.inj h
    have hm' : m.setStep step make v = ((m.setStep step make v).1, .ok ()) := Prod.ext rfl hok
    rw [hroot, hset, Assoc.setStep_setStep hm' w]
    exact ⟨Assoc.setStep_ok hm' w, rfl⟩

theorem value_of_child_set (hb : root.FieldBacked ctx)
    (h : root.set ctx step v = (root', .ok ()))
    (hc : root'.child ctx step lookup = .ok (some c)) : c.value = v := by
  rcases set_cases hb step with ⟨e, hset⟩ | ⟨m, make, hm, hset⟩
  · rw [hset] at h
    nomatch h
  · rw [hset] at h
    obtain ⟨rfl, hok⟩ := Prod.mk.inj h
    have hpeek := Assoc.peek_setStep (Prod.ext rfl hok : m.setStep step make v = (_, .ok ()))
    have hfound := peek_of_child (fieldBacked_withTable hb) (table?_withTable hm _) hc
    exact Option.some.inj (hfound.symm.trans hpeek)

theorem peek_of_get (hroot : ∀ r, root.Holds r → r.Stocked ctx.schema)
    (hm : root.table? = some m) (h : root.get ctx step = .ok (some v)) :
    m.peek ⟨step.name, step.index⟩ = some v := by
  cases root with
  | record type fields =>
    obtain rfl := Option.some.inj hm
    have hstocked := hroot _ .self
    obtain ⟨held, u, hread, hpart, hu⟩ := Record.get_eq_ok_iff.1 h
    obtain rfl := Option.some.inj hu
    obtain ⟨g, hg, hi⟩ := Record.getter_of_readProperty hread
    have hget := Schema.getter_eq_ok_iff.1 hg
    rw [hstocked.backed.reads hget] at hi
    have hcontains : fields.contains step.name = true :=
      hstocked.stores step.name (.inl (Option.isSome_iff_exists.2 ⟨g, hget⟩))
    obtain ⟨stored, hstored⟩ := Option.isSome_iff_exists.1 hcontains
    obtain rfl : stored = held := by simpa [Getter.invoke, hstored] using hi
    exact Assoc.peek_eq_some_iff.2 ⟨stored, hstored, hpart⟩
  | map entries =>
    obtain rfl := Option.some.inj hm
    exact Assoc.peek_eq_some_iff.2 (Mapping.get_eq_some_iff.1 h)
  | _ => cases hm

theorem fst_set_of_get (hroot : ∀ r, root.Holds r → r.Stocked ctx.schema)
    (h : root.get ctx step = .ok (some v)) : (root.set ctx step v).1 = root := by
  have hb : root.FieldBacked ctx :=
    (everyRecord_of_holds fun r hr => (hroot r hr).backed).fieldBacked
  rcases set_cases hb step with ⟨e, hset⟩ | ⟨m, make, hm, hset⟩
  · rw [hset]
  · have hpeek := peek_of_get hroot hm h
    rw [hset, Assoc.setStep_of_peek hpeek, Assoc.putAt_of_peek hpeek, withTable_of_table? hm]

/-! ### Entering -/

/-- On the way down a write asks of the value only whether it is null. -/
theorem enter_congr (h : v.isNull = w.isNull) :
    root.enter ctx step rest v = root.enter ctx step rest w := by
  unfold enter
  rw [h]

theorem check_of_enter {found : Option Child}
    (h : root.enter ctx step rest new = (parent, .ok found)) : rest.check = .ok () := by
  unfold enter at h
  cases hlook : root.lookBelow ctx step rest .write with
  | error e => simp [hlook] at h
  | ok found => exact (lookBelow_eq_ok_iff.1 hlook).1

/-! ### Paths -/

theorem fst_write_of_read (hroot : ∀ r, root.Holds r → r.Stocked ctx.schema)
    (h : root.read ctx path = .ok (some v)) : (root.write ctx path v).1 = root := by
  induction path generalizing root with
  | malformed e => nomatch h
  | last step => exact fst_set_of_get hroot h
  | next step rest ih =>
    obtain ⟨c, hc, hread⟩ := child_of_read_next h
    have hb : root.FieldBacked ctx :=
      (everyRecord_of_holds fun r hr => (hroot r hr).backed).fieldBacked
    obtain ⟨held, rfl⟩ := child_of_fieldBacked hb hc
    have hrest := Path.check_of_isWellFormed (isWellFormed_of_read hread)
    rw [write_next_of_child hrest hc]
    change root.putAt _ (held.write ctx rest v).1 = root
    rw [ih (fun r hr => hroot r (.of_child hc hr)) hread]
    exact putAt_of_child hc

theorem write_next_of_enter (h : root.enter ctx step rest new = (parent, .ok (some c))) :
    root.write ctx (.next step rest) new =
      parent.giveBack ctx step c (c.value.write ctx rest new) := by
  rw [write_next, h]

theorem enter_of_write_ok (hnew : new.isNull = false)
    (hok : (root.write ctx (.next step rest) new).2 = .ok ()) :
    ∃ parent c, root.enter ctx step rest new = (parent, .ok (some c)) := by
  rw [write_next] at hok
  cases henter : root.enter ctx step rest new with
  | mk parent outcome =>
    rw [henter] at hok
    cases outcome with
    | error e => nomatch hok
    | ok found =>
      cases found with
      | none => simp [(isNull_of_enter_none henter).2] at hnew
      | some c => exact ⟨parent, c, rfl⟩

theorem write_write (hroot : root.EveryRecord fun type => (ctx.schema.definition type).FieldBacked)
    (hmade : ∀ d u, ctx.create d = .ok u →
      u.EveryRecord fun type => (ctx.schema.definition type).FieldBacked)
    (hv : v.isNull = false) (hw : w.isNull = false) (hok : (root.write ctx path v).2 = .ok ()) :
    (root.write ctx path w).2 = .ok () ∧
      (root.write ctx path v).1.write ctx path w = root.write ctx path w := by
  -- both writes enter the same child, there or made; the second finds what the first put back
  induction path generalizing root with
  | malformed e => nomatch hok
  | last step => exact set_set hroot.fieldBacked (Prod.ext rfl hok) w
  | next step rest ih =>
    have hb := hroot.fieldBacked
    obtain ⟨parent, c, henter⟩ := enter_of_write_ok hv hok
    have hparent : parent.FieldBacked ctx := by
      have hentered := fieldBacked_enter hb step rest v
      rwa [henter] at hentered
    have henter' : root.enter ctx step rest w = (parent, .ok (some c)) :=
      enter_congr (hv.trans hw.symm) ▸ henter
    have hchild := child_of_enter henter
    obtain ⟨held, rfl⟩ := child_of_fieldBacked hparent hchild
    rw [write_next_of_enter henter] at hok ⊢
    rw [write_next_of_enter henter']
    simp only [giveBack, Child.value] at hok ⊢
    have hheld : held.EveryRecord fun type => (ctx.schema.definition type).FieldBacked :=
      everyRecord_enter hmade (fun _ _ _ => value_of_child_set hb)
        (fun found hfound => by
          obtain ⟨v, rfl⟩ := child_of_fieldBacked hb hfound
          exact hroot.child hfound) henter
    obtain ⟨hbelow, hagain⟩ := ih hheld hok
    have hnull : (held.write ctx rest v).1.isNull = false := by
      apply isNull_of_shape?
      rw [shape?_write]
      exact shape?_of_write_ok hok
    have hfound := child_putAt hparent hchild hnull .read
    refine ⟨hbelow, ?_⟩
    rw [write_next_of_child (check_of_enter henter) hfound, giveBack, Child.value,
      putAt_putAt, hagain]

end Value

/-- For stocked records, there or made: what is read at a path and written back
leaves the root as it was, and of two writes at a path, neither of a null, the
second succeeds if the first did and leaves what it leaves alone. -/
theorem Context.setValue_overwrites (ctx : Context) (root : Value) (path : String)
    (hroot : ∀ r, root.Holds r → r.Stocked ctx.schema)
    (hmade : ∀ d u, ctx.create d = .ok u → ∀ r, u.Holds r → r.Stocked ctx.schema) :
    (∀ w, ctx.getValue root path = .ok (some w) → (ctx.setValue root path w).1 = root) ∧
    ∀ v w, v ≠ .null → w ≠ .null → (ctx.setValue root path v).2 = .ok () →
      (ctx.setValue root path w).2 = .ok () ∧
        ctx.setValue (ctx.setValue root path v).1 path w = ctx.setValue root path w := by
  have hbacked : ∀ {u : Value}, (∀ r, u.Holds r → r.Stocked ctx.schema) →
      u.EveryRecord fun type => (ctx.schema.definition type).FieldBacked :=
    fun h => Value.everyRecord_of_holds fun r hr => (h r hr).backed
  constructor
  · intro w hread
    exact Value.fst_write_of_read hroot hread
  · intro v w hv hw hok
    exact Value.write_write (hbacked hroot) (fun d u hu => hbacked (hmade d u hu))
      (Value.isNull_eq_false_iff.2 hv) (Value.isNull_eq_false_iff.2 hw) hok

/-! ### New records -/

theorem Schema.stocked_newRecord {s : Schema} {type : TypeRef} (h : (s.definition type).Plain) :
    (s.newRecord type).Stocked s := by
  refine ⟨h.toFieldBacked, fun name hname => ?_⟩
  have hgetter : (s.definition type).hasGetter name = true := by
    refine hname.elim id fun hset => ?_
    obtain ⟨set, hset⟩ := Option.isSome_iff_exists.1 hset
    obtain ⟨g, hg, -⟩ := h.readable hset
    exact Option.isSome_iff_exists.2 ⟨g, hg⟩
  obtain ⟨g, hg⟩ := Option.isSome_iff_exists.1 hgetter
  exact Option.isSome_iff_exists.2 ⟨_, h.starts hg⟩

theorem Schema.stocked_of_instantiate {s : Schema} (hs : s.Declares fun d => d.isStored = true)
    {d : Descriptor} {u : Value} (hu : s.instantiate d = .ok u) {r : Record} (hr : u.Holds r) :
    r.Stocked s := by
  obtain ⟨hfind, hnew⟩ := newRecord_of_instantiate hs hu hr
  obtain ⟨declarations, hd, hstored, hbuild⟩ := hs _ _ hfind
  rw [hnew]
  exact stocked_newRecord (hbuild ▸ RecordType.plain_build hd hstored)

theorem cartSchema_declares : cartSchema.Declares fun d => d.isStored = true := by
  intro name type _
  unfold cartSchema
  dsimp only
  split
  · exact ⟨_, by decide, by decide, rfl⟩
  · split <;> exact ⟨_, by decide, by decide, rfl⟩

theorem cartRoot_stocked {r : Record} (hr : cartRoot.Holds r) : r.Stocked cartSchema := by
  have hstocked {type : TypeRef} {name : String} {v : Value}
      (hget : (cartSchema.definition type).getters.keys = [name])
      (hset : (cartSchema.definition type).setters.keys = [name]) :
      Record.Stocked cartSchema ⟨type, ⟨[(name, v)]⟩⟩ := by
    refine ⟨(cartSchema_plain type).toFieldBacked, fun property hproperty => ?_⟩
    have hname : property ∈ [name] := by
      rcases hproperty with h | h
      · exact hget ▸ Assoc.mem_keys_iff.2 h
      · exact hset ▸ Assoc.mem_keys_iff.2 h
    exact Assoc.mem_keys_iff.1 hname
  unfold cartRoot at hr
  cases hr with
  | entry hcart hr =>
    obtain ⟨-, rfl⟩ := Prod.mk.inj (List.mem_singleton.1 (Assoc.mem_of_findEntry hcart))
    cases hr with
    | self => exact hstocked rfl rfl
    | field hitems hr =>
      obtain ⟨-, rfl⟩ := Prod.mk.inj (List.mem_singleton.1 (Assoc.mem_of_findEntry hitems))
      cases hr with
      | item hitem hr =>
        obtain rfl := List.mem_singleton.1 hitem
        unfold cartItem at hr
        cases hr with
        | self => exact hstocked rfl rfl
        | field hsku hr =>
          obtain ⟨-, rfl⟩ := Prod.mk.inj (List.mem_singleton.1 (Assoc.mem_of_findEntry hsku))
          nomatch hr

theorem setValue_overwrites_cart :
    let ctx := Context.ofSchema cartSchema
    let added := "cart.items[1].sku"
    let first := ctx.setValue cartRoot added (.string "b")
    (∀ r, cartRoot.Holds r → r.Stocked ctx.schema) ∧
      (∀ d u, ctx.create d = .ok u → ∀ r, u.Holds r → r.Stocked ctx.schema) ∧
      ctx.getValue cartRoot "cart.items[0]" = .ok (some (cartItem "a")) ∧
      (ctx.setValue cartRoot "cart.items[0]" (cartItem "a")).1 = cartRoot ∧
      first.2 = .ok () ∧ first.1 ≠ cartRoot ∧
      ctx.setValue first.1 added (.string "c") = ctx.setValue cartRoot added (.string "c") ∧
      ctx.setValue first.1 added (.string "c") = (.map ⟨[("cart", .record ⟨"Cart", 0⟩
        ⟨[("items", .array [cartItem "a", cartItem "c"])]⟩)]⟩, .ok ()) := by
  intro ctx added first
  have hroot : ∀ r, cartRoot.Holds r → r.Stocked ctx.schema := fun _ => cartRoot_stocked
  have hmade : ∀ d u, ctx.create d = .ok u → ∀ r, u.Holds r → r.Stocked ctx.schema :=
    fun _ _ hu _ hr => Schema.stocked_of_instantiate cartSchema_declares hu hr
  have hread : ctx.getValue cartRoot "cart.items[0]" = .ok (some (cartItem "a")) := by
    have hpath : Path.ofText "cart.items[0]" = _ := ofText_cart_items "items[0]" rfl rfl
    rw [Context.getValue, hpath]
    rfl
  have hsku : Path.ofText "sku" = .last ⟨"sku", none⟩ := Path.ofText_of_last rfl
  have hitems : Path.ofText "items[1].sku" = .next ⟨"items", some 1⟩ (.ofText "sku") :=
    Path.ofText_of_next rfl
  have hadded : Path.ofText "cart.items[1].sku" = .next ⟨"cart", none⟩ (.ofText "items[1].sku") :=
    Path.ofText_of_next rfl
  have hwritten (text : String) : ctx.setValue cartRoot added (.string text) =
      (.map ⟨[("cart", .record ⟨"Cart", 0⟩
        ⟨[("items", .array [cartItem "a", cartItem text])]⟩)]⟩, .ok ()) := by
    rw [Context.setValue, show Path.ofText added = _ from hadded, hitems, hsku]
    rfl
  have hfirst : first = _ := hwritten "b"
  have hok : first.2 = .ok () := by rw [hfirst]
  have hvalue (text : String) : Value.string text ≠ .null := by
    intro hnull
    cases hnull
  have hlast : ctx.setValue first.1 added (.string "c") =
      ctx.setValue cartRoot added (.string "c") :=
    ((Context.setValue_overwrites ctx cartRoot added hroot hmade).2 (.string "b") (.string "c")
      (hvalue "b") (hvalue "c") hok).2
  refine ⟨hroot, hmade, hread,
    (Context.setValue_overwrites ctx cartRoot _ hroot hmade).1 _ hread, hok, ?_, hlast,
    hlast.trans (hwritten "c")⟩
  rw [hfirst]
  intro hsame
  simp [cartRoot] at hsame

end PropTree
