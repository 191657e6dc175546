import PropTree.Navigation.Inspect
import PropTree.Proofs.Navigation.Composition
import PropTree.Proofs.Navigation.Visit

set_option autoImplicit false

/-!
# Types below what is there

A mapping has no declared types and answers for setters as it does for getters,
and so does everything below it.
-/

namespace PropTree

namespace Value

/-- The root is a mapping, or a first part of the path leads to one before the
path ends. -/
def PassesMapping (ctx : Context) (root : Value) (path : Path) : Prop :=
  (∃ entries, root = .map entries) ∨
    ∃ front back entries, path = front.append back ∧ root.read ctx front = .ok (some (.map entries))

variable {ctx : Context} {root v : Value} {step : Step} {path rest : Path} {c : Child}

theorem reached_of_child (h : root.child ctx step .read = .ok (some c)) :
    root.reached ctx step = .ok (some c.value) := by
  rw [reached, h]
  rfl

theorem passesMapping_next {type : TypeRef} {fields : Fields}
    (hc : (Value.record type fields).child ctx step .read = .ok (some c)) :
    (Value.record type fields).PassesMapping ctx (.next step rest) ↔
      c.value.PassesMapping ctx rest := by
  constructor
  · rintro (⟨entries, hroot⟩ | ⟨front, back, entries, hpath, hread⟩)
    · nomatch hroot
    · cases front with
      | malformed e => nomatch hpath
      | last first =>
        obtain ⟨rfl, rfl⟩ := Path.next.inj hpath
        have hget := (get_of_child hc).1.symm.trans hread
        exact .inl ⟨entries, Option.some.inj (Except.ok.inj hget)⟩
      | next first front =>
        obtain ⟨rfl, rfl⟩ := Path.next.inj hpath
        rw [read_next_of_child hc] at hread
        exact .inr ⟨front, back, entries, rfl, hread⟩
  · rintro (⟨entries, hroot⟩ | ⟨front, back, entries, rfl, hread⟩)
    · refine .inr ⟨.last step, rest, entries, rfl, ?_⟩
      rw [read, (get_of_child hc).1, hroot]
    · refine .inr ⟨.next step front, back, entries, rfl, ?_⟩
      rw [read_next_of_child hc, hread]

theorem getterType_next_of_child (h : root.child ctx step .read = .ok (some c)) :
    root.getterType ctx (.next step rest) = c.value.getterType ctx rest := by
  have hreached := reached_of_child h
  cases root with
  | record type fields => simp only [getterType, hreached]
  | map entries => simp only [getterType, hreached]
  | _ => nomatch h

theorem getterType_append (hread : root.read ctx path = .ok (some v)) (hv : v.isNull = false)
    (below : Path) : root.getterType ctx (path.append below) = v.getterType ctx below := by
  induction path generalizing root with
  | malformed e => nomatch hread
  | last step =>
    obtain ⟨c, hc, hvalue⟩ := child_of_get hread hv .read
    rw [Path.append, getterType_next_of_child hc, hvalue]
  | next step rest ih =>
    obtain ⟨c, hc, hrest⟩ := child_of_read_next hread
    rw [Path.append, getterType_next_of_child hc, ih hrest]

theorem setterType_next_of_child {type : TypeRef} {fields : Fields}
    (h : (Value.record type fields).child ctx step .read = .ok (some c)) :
    (Value.record type fields).setterType ctx (.next step rest) = c.value.setterType ctx rest := by
  simp only [setterType, reached_of_child h]

theorem setterType_append (hread : root.read ctx path = .ok (some v)) (hv : v.isNull = false)
    (hpath : ¬root.PassesMapping ctx path) (below : Path) :
    root.setterType ctx (path.append below) = v.setterType ctx below := by
  induction path generalizing root with
  | malformed e => cases hread
  | last step =>
    obtain ⟨c, hc, hvalue⟩ := child_of_get hread hv .read
    cases root with
    | record type fields => rw [Path.append, setterType_next_of_child hc, hvalue]
    | map entries => exact absurd (.inl ⟨entries, rfl⟩) hpath
    | _ => cases hc
  | next step rest ih =>
    obtain ⟨c, hc, hrest⟩ := child_of_read_next hread
    cases root with
    | record type fields =>
      rw [Path.append, setterType_next_of_child hc]
      exact ih hrest (mt (passesMapping_next hc).2 hpath)
    | map entries => exact absurd (.inl ⟨entries, rfl⟩) hpath
    | _ => cases hc

theorem setterType_append_of_passesMapping (hread : root.read ctx path = .ok (some v))
    (hv : v.isNull = false) (hpath : root.PassesMapping ctx path) (below : Path) :
    root.setterType ctx (path.append below) = v.getterType ctx below := by
  have hmap (entries : Assoc Value) (path : Path)
      (hread : (Value.map entries).read ctx path = .ok (some v)) :
      (Value.map entries).setterType ctx (path.append below) = v.getterType ctx below := by
    rw [setterType]
    exact getterType_append hread hv below
  induction path generalizing root with
  | malformed e => cases hread
  | last step =>
    obtain ⟨c, hc, -⟩ := child_of_get hread hv .read
    cases root with
    | record type fields =>
      rcases hpath with ⟨entries, hroot⟩ | ⟨front, back, entries, hfront, -⟩
      · cases hroot
      · cases front <;> cases hfront
    | map entries => exact hmap entries _ hread
    | _ => cases hc
  | next step rest ih =>
    obtain ⟨c, hc, hrest⟩ := child_of_read_next hread
    cases root with
    | record type fields =>
      rw [Path.append, setterType_next_of_child hc]
      exact ih hrest ((passesMapping_next hc).1 hpath)
    | map entries => exact hmap entries _ hread
    | _ => cases hc

end Value

/-- Below a record or mapping that a path leads to, the setter type is the one
that this value answers for the rest of the path, if only records are on the
way there. A mapping on the way answers by getter types: then it is the getter
type that the value answers, and below a record the one of the getter that its
type declares. -/
theorem Context.setterType_below (ctx : Context) (root : Value) {path below : String} {v : Value}
    (hbelow : (Path.ofText below).isWellFormed = true)
    (hread : ctx.getValue root path = .ok (some v)) (hv : v.shape?.isSome = true) :
    let whole := root.setterType ctx (.ofText (path ++ "." ++ below))
    (¬root.PassesMapping ctx (.ofText path) → whole = v.setterType ctx (.ofText below)) ∧
      (root.PassesMapping ctx (.ofText path) → whole = v.getterType ctx (.ofText below) ∧
        ∀ type fields step, v = .record type fields → Path.ofText below = .last step →
          whole = ctx.schema.stepType type step) := by
  intro whole
  have hnull := Value.isNull_of_shape? hv
  have hwhole : whole = root.setterType ctx ((Path.ofText path).append (.ofText below)) := by
    have htext := Path.ofText_append (Value.isWellFormed_of_read hread)
      (Path.ne_empty_of_isWellFormed hbelow)
    exact congrArg (root.setterType ctx) htext
  refine ⟨fun hpath => ?_, fun hpath => ?_⟩
  · rw [hwhole]
    exact Value.setterType_append hread hnull hpath _
  · have hgetter : whole = v.getterType ctx (.ofText below) := by
      rw [hwhole]
      exact Value.setterType_append_of_passesMapping hread hnull hpath _
    refine ⟨hgetter, ?_⟩
    rintro type fields step rfl hlast
    rw [hgetter, hlast]
    rfl

def accountFields : List Declaration :=
  [.writeOnly "pin" .string fun r v => (r.fields.insert "pin" v, .ok ()), .readOnly "number" .integer]

def bankSchema : Schema where
  definition := fun type =>
    if type = ⟨"Bank", 0⟩ then .build [.field "main" (.record "Account"), .field "others" .unknown]
    else if type = ⟨"Account", 0⟩ then .build accountFields
    else .build []
  registered := .ofList [("Bank", 0), ("Account", 0)]

def account : Value := .ofRecord (bankSchema.newRecord ⟨"Account", 0⟩)

def bank : Value :=
  .record ⟨"Bank", 0⟩ (.ofList [("main", account), ("others", .map (.ofList [("joint", account)]))])

theorem ofText_others_joint :
    Path.ofText "others.joint" = .next ⟨"others", none⟩ (.last ⟨"joint", none⟩) := by
  have hjoint : Path.ofText "joint" = .last ⟨"joint", none⟩ := Path.ofText_of_last rfl
  have hothers : Path.ofText "others.joint" = .next ⟨"others", none⟩ (.ofText "joint") :=
    Path.ofText_of_next rfl
  rw [hothers, hjoint]

theorem setterType_below_bank :
    let ctx := Context.ofSchema bankSchema
    let pin := Path.ofText "pin"
    pin.isWellFormed ∧ account.shape?.isSome ∧
      ctx.getValue bank "main" = .ok (some account) ∧
      ¬bank.PassesMapping ctx (.ofText "main") ∧
      ctx.getValue bank "others.joint" = .ok (some account) ∧
      bank.PassesMapping ctx (.ofText "others.joint") ∧
      bank.setterType ctx (.ofText "main.pin") = .ok .string ∧
      bank.setterType ctx (.ofText "main.number") =
        .error (.noSuchProperty "Account" "number" .setter) ∧
      bank.setterType ctx (.ofText "others.joint.pin") =
        .error (.noSuchProperty "Account" "pin" .getter) ∧
      bank.setterType ctx (.ofText "others.joint.number") = .ok .integer := by
  intro ctx pin
  have hpin : Path.ofText "pin" = .last ⟨"pin", none⟩ := Path.ofText_of_last rfl
  have hnumber : Path.ofText "number" = .last ⟨"number", none⟩ := Path.ofText_of_last rfl
  have hmain : Path.ofText "main" = .last ⟨"main", none⟩ := Path.ofText_of_last rfl
  have hpin' : (Path.ofText "pin").isWellFormed = true := by rw [hpin]; rfl
  have hnumber' : (Path.ofText "number").isWellFormed = true := by rw [hnumber]; rfl
  have hread : ctx.getValue bank "main" = .ok (some account) := by
    rw [Context.getValue, hmain]
    rfl
  have hjoint : ctx.getValue bank "others.joint" = .ok (some account) := by
    rw [Context.getValue, ofText_others_joint]
    rfl
  have hrecords : ¬bank.PassesMapping ctx (.ofText "main") := by
    rw [hmain]
    rintro (⟨entries, hroot⟩ | ⟨front, back, entries, hpath, -⟩)
    · cases hroot
    · cases front <;> cases hpath
  have hmapping : bank.PassesMapping ctx (.ofText "others.joint") := by
    rw [ofText_others_joint]
    exact .inr ⟨.last ⟨"others", none⟩, _, _, rfl, rfl⟩
  refine ⟨hpin', rfl, hread, hrecords, hjoint, hmapping, ?_, ?_, ?_, ?_⟩
  · refine ((Context.setterType_below ctx bank hpin' hread rfl).1 hrecords).trans ?_
    rw [hpin]
    rfl
  · refine ((Context.setterType_below ctx bank hnumber' hread rfl).1 hrecords).trans ?_
    rw [hnumber]
    rfl
  · exact ((Context.setterType_below ctx bank hpin' hjoint rfl).2 hmapping).2 _ _ _ rfl hpin
  · exact ((Context.setterType_below ctx bank hnumber' hjoint rfl).2 hmapping).2 _ _ _ rfl hnumber

/-- In a mapping the account's pin has no setter type and its number has one,
though the account itself says the opposite. -/
theorem setterType_in_mapping_differs :
    let ctx := Context.ofSchema bankSchema
    let root := Value.map (.ofList [("joint", account)])
    (Path.ofText "joint").isWellFormed ∧ (Path.ofText "pin").isWellFormed ∧
      ctx.getValue root "joint" = .ok (some account) ∧ account.shape? = some .record ∧
      account.setterType ctx (.ofText "pin") = .ok .string ∧
      root.setterType ctx (.ofText "joint.pin") =
        .error (.noSuchProperty "Account" "pin" .getter) ∧
      account.setterType ctx (.ofText "number") =
        .error (.noSuchProperty "Account" "number" .setter) ∧
      root.setterType ctx (.ofText "joint.number") = .ok .integer := by
  intro ctx root
  have hpin : Path.ofText "pin" = .last ⟨"pin", none⟩ := Path.ofText_of_last rfl
  have hnumber : Path.ofText "number" = .last ⟨"number", none⟩ := Path.ofText_of_last rfl
  have hjoint : Path.ofText "joint" = .last ⟨"joint", none⟩ := Path.ofText_of_last rfl
  have hjointPin : Path.ofText "joint.pin" = .next ⟨"joint", none⟩ (.ofText "pin") :=
    Path.ofText_of_next rfl
  have hjointNumber : Path.ofText "joint.number" = .next ⟨"joint", none⟩ (.ofText "number") :=
    Path.ofText_of_next rfl
  rw [Context.getValue, hjointPin, hjointNumber, hpin, hnumber, hjoint]
  exact ⟨rfl, rfl, rfl, rfl, rfl, rfl, rfl, rfl⟩

end PropTree
