import PropTree.Proofs.Navigation.Storage

set_option autoImplicit false

/-!
# Writes leave other paths alone
-/

namespace PropTree

namespace Path

def head? : Path → Option Step
  | .malformed _ => none
  | .last step => some step
  | .next step _ => some step

inductive Diverges : Path → Path → Prop where
  | apart {p q : Path} {s t : Step} (hp : p.head? = some s) (hq : q.head? = some t)
      (h : s.Apart t) : Diverges p q
  | further {step : Step} {p q : Path} (h : Diverges p q) :
      Diverges (.next step p) (.next step q)

end Path

namespace Assoc

/-- A step that finds something in the first table finds the same in the
second. -/
def Keeps (t : Step) (m m' : Assoc Value) : Prop :=
  m'.get? t.name = m.get? t.name ∨
    ∃ j, t.index = some j ∧
      ∀ w, m.peek ⟨t.name, some j⟩ = some w → m'.peek ⟨t.name, some j⟩ = some w

variable {m m' : Assoc Value} {s t : Step}

theorem Keeps.refl (t : Step) (m : Assoc Value) : m.Keeps t m := .inl rfl

theorem keeps_insert (h : s.Apart t) {v : Value}
    (hv : ∀ i items, s.index = some i → m.get? s.name = some (.array items) →
      ∃ items', v = .array items' ∧ ∀ k, k ≠ i → items'[k]? = items[k]?) :
    m.Keeps t (m.insert s.name v) := by
  by_cases hname : s.name = t.name
  · obtain ⟨i, j, hi, hj, hij⟩ := h.resolve_left (not_not_intro hname)
    refine .inr ⟨j, hj, ?_⟩
    intro w hw
    obtain ⟨items, hitems, hitem⟩ := peek_element.1 hw
    obtain ⟨items', rfl, hsame⟩ := hv i items hi (hname ▸ hitems)
    have hget : (m.insert s.name (.array items')).get? t.name = some (.array items') := by
      rw [hname, get?_insert_self]
    exact peek_element.2 ⟨items', hget, (hsame j (Ne.symm hij)).trans hitem⟩
  · exact .inl (get?_insert_of_ne m (Ne.symm hname) v)

theorem keeps_putAt (h : s.Apart t) (v : Value) : m.Keeps t (m.putAt ⟨s.name, s.index⟩ v) := by
  unfold putAt
  dsimp only
  split
  · rename_i hi
    refine keeps_insert h ?_
    intro i items hi'
    simp [hi] at hi'
  · rename_i index hi
    split
    · rename_i items hitems
      refine keeps_insert h ?_
      intro i items₀ hi' h₀
      obtain rfl := Option.some.inj (hi.symm.trans hi')
      obtain rfl := Value.array.inj (Option.some.inj (hitems.symm.trans h₀))
      exact ⟨_, rfl, fun k hk => List.getElem?_set_ne (Ne.symm hk)⟩
    · exact Keeps.refl t m

theorem keeps_setStep (h : s.Apart t) (make : Except NavigationError Value) (v : Value) :
    m.Keeps t (m.setStep s make v).1 := by
  obtain ⟨stored, hfst, hcases⟩ := setStep_cases m s make v
  rw [hfst]
  refine keeps_insert h ?_
  intro i items hi hitems
  have hheld : (m.get? s.name).getD .null = .array items := by rw [hitems, Option.getD_some]
  rw [hheld] at hcases
  rcases hcases with ⟨hnone, _⟩ | ⟨hkept, _⟩ | ⟨index, collection, hindex, _, hkept, hset⟩
  · rw [hi] at hnone
    nomatch hnone
  · exact ⟨items, hkept.resolve_left nofun, fun _ _ => rfl⟩
  · obtain rfl := Option.some.inj (hi.symm.trans hindex)
    rw [hkept.resolve_left nofun] at hset
    obtain ⟨_, items', harray, rfl, _, hother⟩ := Value.setElement_eq_ok hset
    obtain rfl := Value.array.inj harray
    exact ⟨items', rfl, hother⟩

end Assoc

namespace Value

variable {ctx : Context} {root parent new w : Value} {s t step : Step} {p q rest : Path}
  {lookup : Lookup} {c : Child}

theorem get_of_keeps_record {type : TypeRef} {fields fields' : Fields}
    (hb : (ctx.schema.definition type).FieldBacked) (hk : fields.Keeps t fields')
    (hw : (Value.record type fields).get ctx t = .ok (some w)) :
    (Value.record type fields').get ctx t = .ok (some w) := by
  obtain ⟨held, v, hread, hpart, hv⟩ := Record.get_eq_ok_iff.1 hw
  obtain rfl := Option.some.inj hv
  obtain ⟨g, hg, hi⟩ := Record.getter_of_readProperty hread
  have haccess : g.access = .field t.name := hb.reads (Schema.getter_eq_ok_iff.1 hg)
  have hheld : held = (fields.get? t.name).getD .null := by
    rw [haccess] at hi
    exact (Except.ok.inj hi).symm
  have hread' : Record.readProperty ctx ⟨type, fields'⟩ t.name =
      .ok ((fields'.get? t.name).getD .null) :=
    Record.readProperty_of_getter (r := ⟨type, fields'⟩) hg (by rw [haccess]; rfl)
  refine Record.get_eq_ok_iff.2 ⟨_, w, hread', ?_, rfl⟩
  rcases hk with hsame | ⟨j, hj, hpeek⟩
  · rw [hsame, ← hheld]
    exact hpart
  · simp only [part, hj] at hpart ⊢
    obtain ⟨items, rfl, hitem⟩ := element_eq_ok_iff.1 hpart
    have hstored : fields.get? t.name = some (.array items) := by
      cases hf : fields.get? t.name <;> simp_all
    obtain ⟨items', hstored', hitem'⟩ :=
      Assoc.peek_element.1 (hpeek w (Assoc.peek_element.2 ⟨items, hstored, hitem⟩))
    exact element_eq_ok_iff.2 ⟨items', by rw [hstored']; rfl, hitem'⟩

theorem get_of_keeps_map {entries entries' : Assoc Value} (hk : entries.Keeps t entries')
    (hw : (Value.map entries).get ctx t = .ok (some w)) :
    (Value.map entries').get ctx t = .ok (some w) := by
  obtain ⟨held, hheld, hpart⟩ := Mapping.get_eq_some_iff.1 hw
  rcases hk with hsame | ⟨j, hj, hpeek⟩
  · exact Mapping.get_eq_some_iff.2 ⟨held, hsame.trans hheld, hpart⟩
  · have hstored : entries.peek ⟨t.name, t.index⟩ = some w :=
      Assoc.peek_eq_some_iff.2 ⟨held, hheld, hpart⟩
    rw [hj] at hstored
    have hstored' : entries'.peek ⟨t.name, t.index⟩ = some w := by
      rw [hj]
      exact hpeek w hstored
    exact Mapping.get_eq_some_iff.2 (Assoc.peek_eq_some_iff.1 hstored')

theorem get_withTable_of_keeps {m m' : Assoc Value} (hb : root.FieldBacked ctx)
    (hm : root.table? = some m) (hk : m.Keeps t m') (hw : root.get ctx t = .ok (some w)) :
    (root.withTable m').get ctx t = .ok (some w) := by
  cases root with
  | record type fields =>
    obtain rfl := Option.some.inj hm
    exact get_of_keeps_record hb hk hw
  | map entries =>
    obtain rfl := Option.some.inj hm
    exact get_of_keeps_map hk hw
  | _ => nomatch hm

theorem get_set_of_apart (hb : root.FieldBacked ctx) (h : s.Apart t)
    (hw : root.get ctx t = .ok (some w)) : (root.set ctx s new).1.get ctx t = .ok (some w) := by
  rcases set_cases hb s with ⟨e, hset⟩ | ⟨m, make, hm, hset⟩
  · rw [hset]
    exact hw
  · rw [hset]
    exact get_withTable_of_keeps hb hm (Assoc.keeps_setStep h make new) hw

theorem get_enter_of_apart (hb : root.FieldBacked ctx) (h : s.Apart t)
    (hw : root.get ctx t = .ok (some w)) (rest : Path) (new : Value) :
    (root.enter ctx s rest new).1.get ctx t = .ok (some w) := by
  rcases enter_cases ctx root s rest new with ⟨he, _⟩ | ⟨_, created, he, _⟩
  · rw [he]
    exact hw
  · rw [he]
    exact get_set_of_apart hb h hw

theorem get_giveBack_of_apart {changed : Value × Except NavigationError Unit}
    (hb : parent.FieldBacked ctx) (h : s.Apart t)
    (hc : parent.child ctx s .write = .ok (some c)) (hw : parent.get ctx t = .ok (some w)) :
    (parent.giveBack ctx s c changed).1.get ctx t = .ok (some w) := by
  obtain ⟨v, rfl⟩ := child_of_fieldBacked hb hc
  simp only [giveBack]
  cases parent with
  | record type fields => exact get_of_keeps_record hb (Assoc.keeps_putAt h changed.1) hw
  | map entries => exact get_of_keeps_map (Assoc.keeps_putAt h changed.1) hw
  | _ => cases hw

theorem get_write_of_apart (hb : root.FieldBacked ctx) (hp : p.head? = some s)
    (h : s.Apart t) (hw : root.get ctx t = .ok (some w)) :
    (root.write ctx p new).1.get ctx t = .ok (some w) := by
  cases p with
  | malformed e => nomatch hp
  | last step =>
    obtain rfl := Option.some.inj hp
    exact get_set_of_apart hb h hw
  | next step rest =>
    obtain rfl := Option.some.inj hp
    have hentered := get_enter_of_apart hb h hw rest new
    have hbacked := fieldBacked_enter hb step rest new
    rw [write_next]
    cases henter : root.enter ctx step rest new with
    | mk parent outcome =>
      rw [henter] at hentered hbacked
      cases outcome with
      | error e => exact hentered
      | ok found =>
        cases found with
        | none => exact hentered
        | some c => exact get_giveBack_of_apart hbacked h (child_of_enter henter) hentered

theorem read_of_get {root' : Value} (hq : q.head? = some t)
    (hget : ∀ v, root.get ctx t = .ok (some v) → root'.get ctx t = .ok (some v))
    (hw : root.read ctx q = .ok (some w)) : root'.read ctx q = .ok (some w) := by
  cases q with
  | malformed e => nomatch hq
  | last step =>
    obtain rfl := Option.some.inj hq
    exact hget w hw
  | next step rest =>
    obtain rfl := Option.some.inj hq
    obtain ⟨c, hc, hbelow⟩ := child_of_read_next hw
    obtain ⟨hc', hnull⟩ := get_of_child hc
    obtain ⟨c', hchild, hvalue⟩ := child_of_get (hget c.value hc') hnull .read
    rw [read_next_of_child hchild, hvalue]
    exact hbelow

theorem read_write_of_diverges
    (hroot : root.EveryRecord fun type => (ctx.schema.definition type).FieldBacked)
    (hpq : p.Diverges q) (hw : root.read ctx q = .ok (some w)) :
    (root.write ctx p new).1.read ctx q = .ok (some w) := by
  -- the child that both paths go through is changed where it is stored, so the
  -- read finds it again with what was kept below
  induction hpq generalizing root with
  | apart hp hq h =>
    exact read_of_get hq (fun v hv => get_write_of_apart hroot.fieldBacked hp h hv) hw
  | @further step p q hpq ih =>
    cases hcheck : p.check with
    | error e =>
      rw [write_next_of_check_error hcheck]
      exact hw
    | ok u =>
      obtain ⟨c, hc, hbelow⟩ := child_of_read_next hw
      obtain ⟨v, rfl⟩ := child_of_fieldBacked hroot.fieldBacked hc
      have hkept := ih (hroot.child hc) hbelow
      rw [write_next, enter_of_child hcheck (child_of_child hc .write)]
      have hget := get_putAt hc (v.write ctx p new).1
      have hnull : (v.write ctx p new).1.isNull = false := by
        apply isNull_of_shape?
        rw [shape?_write]
        exact shape?_of_read_ok hbelow
      obtain ⟨c', hc', hvalue⟩ := child_of_get hget hnull .read
      change (root.putAt ⟨step.name, step.index⟩ (v.write ctx p new).1).read ctx _ = _
      rw [read_next_of_child hc', hvalue]
      exact hkept

end Value

/-- What is found at a path stays there under every write at a path that
diverges from it. -/
theorem Context.getValue_setValue_of_diverges (ctx : Context) (root new w : Value)
    (p q : String)
    (hroot : root.EveryRecord fun type => (ctx.schema.definition type).FieldBacked)
    (hpq : (Path.ofText p).Diverges (Path.ofText q))
    (hw : ctx.getValue root q = .ok (some w)) :
    ctx.getValue (ctx.setValue root p new).1 q = .ok (some w) :=
  Value.read_write_of_diverges hroot hpq hw

def cartSchema : Schema where
  definition := fun type =>
    if type = ⟨"Cart", 0⟩ then .build [.field "items" (.list (.record "Item"))]
    else if type = ⟨"Item", 0⟩ then .build [.field "sku" .string]
    else .build []
  registered := .ofList [("Cart", 0), ("Item", 0)]

theorem cartSchema_plain (type : TypeRef) : (cartSchema.definition type).Plain := by
  unfold cartSchema
  dsimp only
  split
  · exact RecordType.plain_build (by decide) (by decide)
  · split <;> exact RecordType.plain_build (by decide) (by decide)

def cartItem (sku : String) : Value := .record ⟨"Item", 0⟩ ⟨[("sku", .string sku)]⟩

def cartRoot : Value :=
  .map ⟨[("cart", .record ⟨"Cart", 0⟩ ⟨[("items", .array [cartItem "a"])]⟩)]⟩

theorem cartRoot_everyRecord {P : TypeRef → Prop} (h : ∀ type, P type) :
    cartRoot.EveryRecord P := by
  have hitem : (cartItem "a").EveryRecord P := by
    refine .record (h _) (Assoc.forall_get? ?_)
    simpa using Value.EveryRecord.scalar rfl
  have hcart : (Value.record ⟨"Cart", 0⟩ ⟨[("items", .array [cartItem "a"])]⟩).EveryRecord P := by
    refine .record (h _) (Assoc.forall_get? ?_)
    simpa using Value.EveryRecord.array (by simpa using hitem)
  exact .map (Assoc.forall_get? (by simpa using hcart))

theorem ofText_cart_items (text : String) {i : Nat}
    (h : Segment.parse text = .ok ⟨⟨"items", some i⟩, text, none⟩)
    (hcart : Segment.parse ("cart." ++ text) = .ok ⟨⟨"cart", none⟩, "cart", some text⟩) :
    Path.ofText ("cart." ++ text) = .next ⟨"cart", none⟩ (.last ⟨"items", some i⟩) := by
  rw [Path.ofText_of_next hcart, Path.ofText_of_last h]

theorem getValue_setValue_cart :
    let ctx := Context.ofSchema cartSchema
    (Path.ofText "cart.items[1]").Diverges (Path.ofText "cart.items[0]") ∧
      ctx.getValue cartRoot "cart.items[0]" = .ok (some (cartItem "a")) ∧
      ctx.getValue (ctx.setValue cartRoot "cart.items[1]" (cartItem "b")).1 "cart.items[0]" =
        .ok (some (cartItem "a")) := by
  intro ctx
  have hp : Path.ofText "cart.items[1]" = _ := ofText_cart_items "items[1]" rfl rfl
  have hq : Path.ofText "cart.items[0]" = _ := ofText_cart_items "items[0]" rfl rfl
  have hpq : (Path.ofText "cart.items[1]").Diverges (Path.ofText "cart.items[0]") := by
    rw [hp, hq]
    exact .further (.apart rfl rfl (.inr ⟨1, 0, rfl, rfl, by decide⟩))
  have hw : ctx.getValue cartRoot "cart.items[0]" = .ok (some (cartItem "a")) := by
    rw [Context.getValue, hq]
    rfl
  exact ⟨hpq, hw, Context.getValue_setValue_of_diverges ctx cartRoot _ _ _ _
    (cartRoot_everyRecord fun type => (cartSchema_plain type).toFieldBacked) hpq hw⟩

end PropTree
