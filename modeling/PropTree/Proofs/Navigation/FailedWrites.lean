import PropTree.Proofs.Navigation.Separation
import PropTree.Proofs.Value.Extension

set_option autoImplicit false

namespace PropTree

namespace Assoc

variable {m : Assoc Value} {step : Step} {make : Except NavigationError Value} {v : Value}

theorem extendedBy_setStep_of_absent
    (h : ∀ part, ((m.get? step.name).getD .null).part step = .ok part → part = .null) :
    m.ExtendedBy (m.setStep step make v).1 := by
  obtain ⟨stored, hfst, hcases⟩ := setStep_cases m step make v
  rw [hfst]
  refine extendedBy_insert ?_
  generalize (m.get? step.name).getD .null = held at h hcases
  rcases hcases with ⟨hindex, rfl, _⟩ | ⟨hkept, _⟩ | ⟨index, collection, hindex, _, hkept, hset⟩
  · have hnull : held = .null := h held (by rw [Value.part, hindex])
    rw [hnull]
    exact .null stored
  · rcases hkept with rfl | rfl
    · exact .null stored
    · exact .refl stored
  · rcases hkept with rfl | rfl
    · exact .null stored
    · refine .of_setElement hset fun item hitem => ?_
      have hnull : item = .null := h item (by rw [Value.part, hindex]; exact hitem)
      rw [hnull]
      exact .null v

theorem extendedBy_setStep_of_error {e : NavigationError}
    (h : (m.setStep step make v).2 = .error e) : m.ExtendedBy (m.setStep step make v).1 := by
  obtain ⟨stored, hfst, hcases⟩ := setStep_cases m step make v
  rw [hfst]
  refine extendedBy_insert ?_
  rcases hcases with ⟨_, _, hok⟩ | ⟨hkept, _⟩ | ⟨_, _, _, hok, _⟩
  · rw [h] at hok
    nomatch hok
  · rcases hkept with hnull | hsame
    · rw [hnull]
      exact .null stored
    · rw [← hsame]
      exact .refl stored
  · rw [h] at hok
    nomatch hok

theorem extendedBy_putAt {place : Place} {held : Value} (h : m.peek place = some held)
    (hv : held.ExtendedBy v) : m.ExtendedBy (m.putAt place v) := by
  obtain ⟨key, index⟩ := place
  cases index with
  | none =>
    have hget : m.get? key = some held := h
    refine extendedBy_insert ?_
    rw [hget]
    exact hv
  | some index =>
    obtain ⟨items, hget, hitem⟩ := peek_element.1 h
    have hput : m.putAt ⟨key, some index⟩ v = m.insert key (.array (items.set index v)) := by
      simp only [putAt, hget]
    rw [hput]
    refine extendedBy_insert ?_
    rw [hget]
    refine .of_elements fun i x hx => ?_
    by_cases hi : i = index
    · subst hi
      have hlt : i < items.length := (List.getElem?_eq_some_iff.1 hx).1
      obtain rfl := Option.some.inj (hx.symm.trans hitem)
      exact ⟨v, by rw [List.getElem?_set_self hlt], hv⟩
    · exact ⟨x, (List.getElem?_set_ne (Ne.symm hi)).trans hx, .refl x⟩

end Assoc

namespace Value

variable {ctx : Context} {root parent new v w : Value} {step : Step} {rest path : Path}
  {lookup : Lookup} {c : Child} {place : Place} {m m' : Assoc Value}

theorem extendedBy_withTable (hm : root.table? = some m) (h : m.ExtendedBy m') :
    root.ExtendedBy (root.withTable m') := by
  cases root with
  | record type fields =>
    obtain rfl := Option.some.inj hm
    exact .record h.contains h.entry
  | map entries =>
    obtain rfl := Option.some.inj hm
    exact .map h.contains h.entry
  | _ => nomatch hm

theorem extendedBy_set_of_absent (hb : root.FieldBacked ctx)
    (h : root.child ctx step .write = .ok none) (v : Value) :
    root.ExtendedBy (root.set ctx step v).1 := by
  rcases set_cases hb step with ⟨e, hset⟩ | ⟨m, make, hm, hset⟩
  · rw [hset]
    exact .refl root
  · rw [hset]
    refine extendedBy_withTable hm (Assoc.extendedBy_setStep_of_absent ?_)
    intro part hpart
    exact part_of_child_none hb h hm hpart

theorem extendedBy_set_of_error (hb : root.FieldBacked ctx) {e : NavigationError}
    (h : (root.set ctx step v).2 = .error e) : root.ExtendedBy (root.set ctx step v).1 := by
  rcases set_cases hb step with ⟨e', hset⟩ | ⟨m, make, hm, hset⟩
  · rw [hset]
    exact .refl root
  · rw [hset] at h ⊢
    exact extendedBy_withTable hm (Assoc.extendedBy_setStep_of_error h)

theorem extendedBy_putAt (h : root.child ctx step lookup = .ok (some (.stored place v)))
    (hw : v.ExtendedBy w) : root.ExtendedBy (root.putAt place w) := by
  cases root with
  | record type fields =>
    obtain ⟨_, _, _, _, _, hpeek⟩ := Record.peek_of_child h
    exact extendedBy_withTable rfl (Assoc.extendedBy_putAt hpeek hw)
  | map entries =>
    obtain ⟨_, hpeek⟩ := Mapping.peek_of_child h
    exact extendedBy_withTable rfl (Assoc.extendedBy_putAt hpeek hw)
  | _ => nomatch h

theorem extendedBy_write_of_error
    (hroot : root.EveryRecord fun type => (ctx.schema.definition type).FieldBacked)
    {e : NavigationError} (h : (root.write ctx path new).2 = .error e) :
    root.ExtendedBy (root.write ctx path new).1 := by
  -- a child that was there is extended by what the failed write below leaves of it; one that
  -- was made takes the place of a null or of nothing, whatever becomes of it
  induction path generalizing root with
  | malformed e' => exact .refl root
  | last step => exact extendedBy_set_of_error hroot.fieldBacked h
  | next step rest ih =>
    have hb := hroot.fieldBacked
    have hcases := enter_cases ctx root step rest new
    rw [write_next] at h ⊢
    cases henter : root.enter ctx step rest new with
    | mk parent outcome =>
      have hparent := fieldBacked_enter hb step rest new
      rw [henter] at h hcases hparent
      cases outcome with
      | error e' =>
        rcases hcases with ⟨hsame, _⟩ | ⟨habsent, created, hset, _⟩
        · obtain rfl : parent = root := hsame
          exact .refl parent
        · obtain rfl : parent = _ := hset
          exact extendedBy_set_of_absent hb habsent created
      | ok found =>
        cases found with
        | none => nomatch h
        | some c =>
          obtain ⟨v, rfl⟩ := child_of_fieldBacked hparent (child_of_enter henter)
          rcases hcases with ⟨hsame, hchild⟩ | ⟨habsent, created, hset, hok⟩
          · obtain rfl : parent = root := hsame
            have hthere := hchild _ rfl
            exact extendedBy_putAt hthere (ih (hroot.child hthere) h)
          · have hmade : root.set ctx step created = (parent, .ok ()) :=
              Prod.ext hset.symm (hok _ rfl)
            change root.ExtendedBy (parent.putAt ⟨step.name, step.index⟩ (v.write ctx rest new).1)
            rw [putAt_set hb hmade]
            exact extendedBy_set_of_absent hb habsent _

end Value

/-- Whatever a write at a path fails with, and wherever on the way it fails, it
has not changed or dropped a value that was there. -/
theorem Context.extendedBy_setValue (ctx : Context) (root new : Value) (path : String)
    (e : NavigationError)
    (hroot : root.EveryRecord fun type => (ctx.schema.definition type).FieldBacked)
    (h : (ctx.setValue root path new).2 = .error e) :
    root.ExtendedBy (ctx.setValue root path new).1 :=
  Value.extendedBy_write_of_error hroot h

theorem extendedBy_setValue_cart :
    let ctx := Context.ofSchema cartSchema
    let path := "cart.items[1].sku.x"
    (cartRoot.EveryRecord fun type => (ctx.schema.definition type).FieldBacked) ∧
      (ctx.setValue cartRoot path (.bool true)).2 = .error (.unsupportedKind .string) ∧
      (ctx.setValue cartRoot path (.bool true)).1 =
        .map ⟨[("cart", .record ⟨"Cart", 0⟩ ⟨[("items", .array [cartItem "a", cartItem ""])]⟩)]⟩ ∧
      cartRoot.ExtendedBy (ctx.setValue cartRoot path (.bool true)).1 := by
  intro ctx path
  have hx : Path.ofText "x" = .last ⟨"x", none⟩ := Path.ofText_of_last rfl
  have hsku : Path.ofText "sku.x" = .next ⟨"sku", none⟩ (.ofText "x") := Path.ofText_of_next rfl
  have hitems : Path.ofText "items[1].sku.x" = .next ⟨"items", some 1⟩ (.ofText "sku.x") :=
    Path.ofText_of_next rfl
  have hpath : Path.ofText "cart.items[1].sku.x" =
      .next ⟨"cart", none⟩ (.ofText "items[1].sku.x") :=
    Path.ofText_of_next rfl
  have hroot : cartRoot.EveryRecord fun type => (ctx.schema.definition type).FieldBacked :=
    cartRoot_everyRecord fun type => (cartSchema_plain type).toFieldBacked
  have hwrite : ctx.setValue cartRoot path (.bool true) =
      (.map ⟨[("cart", .record ⟨"Cart", 0⟩ ⟨[("items", .array [cartItem "a", cartItem ""])]⟩)]⟩,
        .error (.unsupportedKind .string)) := by
    rw [Context.setValue, show Path.ofText path = _ from hpath, hitems, hsku, hx]
    rfl
  have herror : (ctx.setValue cartRoot path (.bool true)).2 =
      .error (.unsupportedKind .string) := by rw [hwrite]
  exact ⟨hroot, herror, by rw [hwrite],
    Context.extendedBy_setValue ctx cartRoot _ path _ hroot herror⟩

end PropTree
