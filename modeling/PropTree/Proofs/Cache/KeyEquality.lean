import PropTree.Cache.Key
import PropTree.Proofs.Value.Identical

set_option autoImplicit false

/-!
# Equal keys

Two keys compare equal exactly if their contents are one, and the content of a key
depends only on the components it was made from, taken as identical or not.
-/

namespace PropTree

namespace Key

variable {hash : List HashAtom → UInt64} {k l : Key} {xs ys : List Value}

inductive Built (hash : List HashAtom → UInt64) : Key → List Value → Prop where
  | empty : Built hash .empty []
  | ofList (vs : List Value) : Built hash (ofListWith hash vs) vs
  | update {k : Key} {xs : List Value} (h : Built hash k xs) (v : Value) :
      Built hash (k.updateWith hash v) (xs ++ [v])
  | updateAll {k : Key} {xs : List Value} (h : Built hash k xs) (vs : List Value) :
      Built hash (k.updateAllWith hash vs) (xs ++ vs)

theorem updateAllWith_append (k : Key) (xs ys : List Value) :
    k.updateAllWith hash (xs ++ ys) = (k.updateAllWith hash xs).updateAllWith hash ys :=
  List.foldl_append

theorem Built.eq_ofListWith (h : Built hash k xs) : k = ofListWith hash xs := by
  induction h with
  | empty => rfl
  | ofList vs => rfl
  | update _ v ih =>
    rw [ih, ofListWith, ofListWith, updateAllWith_append]
    rfl
  | updateAll _ vs ih => rw [ih, ofListWith, ofListWith, updateAllWith_append]

theorem updateAllWith_components (k : Key) (vs : List Value) :
    (k.updateAllWith hash vs).components = k.components ++ vs := by
  induction vs generalizing k with
  | nil => exact (List.append_nil _).symm
  | cons v vs ih =>
    calc (updateAllWith hash (k.updateWith hash v) vs).components
        = k.components ++ [v] ++ vs := ih _
      _ = k.components ++ v :: vs := List.append_assoc _ _ _

theorem Built.components_eq (h : Built hash k xs) : k.components = xs := by
  rw [h.eq_ofListWith, ofListWith, updateAllWith_components]
  rfl

/-! ### Content -/

theorem content_eq_iff : k.content = l.content ↔
    k.hash = l.hash ∧ k.checksum = l.checksum ∧
      List.Forall₂ Value.Identical k.components l.components := by
  rw [content, content, ContentKey.mk.injEq, Key.mk.injEq, (Value.identicalItems_iff _ _).2]

theorem same_iff_content : k.same l = true ↔ k.content = l.content := by
  simp only [same, content_eq_iff, Bool.and_eq_true, beq_iff_eq, (Value.identicalItems_iff _ _).1]
  constructor
  · rintro ⟨⟨⟨hhash, hchecksum⟩, -⟩, hparts⟩
    exact ⟨hhash, hchecksum, hparts⟩
  · rintro ⟨hhash, hchecksum, hparts⟩
    exact ⟨⟨⟨hhash, hchecksum⟩, hparts.length_eq⟩, hparts⟩

theorem updateWith_content (h : k.content = l.content) {v w : Value} (hv : v.Identical w) :
    (k.updateWith hash v).content = (l.updateWith hash w).content := by
  obtain ⟨hhash, hchecksum, hparts⟩ := content_eq_iff.1 h
  have hcount : k.count = l.count := hparts.length_eq
  have hdata : v.hashData = w.hashData := hv.hashData_eq
  refine content_eq_iff.2 ⟨?_, ?_, List.rel_append hparts (.cons hv .nil)⟩
  · simp only [updateWith, hhash, hcount, hdata]
  · simp only [updateWith, hchecksum, hdata]

theorem updateAllWith_content (h : k.content = l.content)
    (hparts : List.Forall₂ Value.Identical xs ys) :
    (k.updateAllWith hash xs).content = (l.updateAllWith hash ys).content := by
  induction hparts generalizing k l with
  | nil => exact h
  | cons hv _ ih => exact ih (updateWith_content h hv)

theorem Built.content_eq_iff (hk : Built hash k xs) (hl : Built hash l ys) :
    k.content = l.content ↔ List.Forall₂ Value.Identical xs ys := by
  constructor
  · intro h
    have hparts := (Key.content_eq_iff.1 h).2.2
    rwa [hk.components_eq, hl.components_eq] at hparts
  · intro h
    rw [hk.eq_ofListWith, hl.eq_ofListWith]
    exact updateAllWith_content rfl h

theorem partText_anonymous (v : Value) : partText v.anonymous = partText v := by
  cases v with
  | array items => exact Value.text_anonymous (.array items)
  | map entries => exact Value.text_anonymous (.map entries)
  | record type fields => exact Value.text_anonymous (.record type fields)
  | _ => rfl

theorem text_content (k : Key) : k.content.key.text = k.text := by
  have hparts : k.content.key.components.map (fun v => ":" ++ partText v) =
      k.components.map fun v => ":" ++ partText v := by
    change (Value.anonymousItems k.components).map _ = _
    rw [Value.anonymousItems_eq_map, List.map_map]
    exact List.map_congr_left fun v _ => congrArg (":" ++ ·) (partText_anonymous v)
  rw [text, text, partsText, partsText, hparts]
  rfl

/-- Keys compare equal exactly if they were built from lists of pairwise identical
components; the comparison is an equivalence, and equal keys feed equal data to a
hash. -/
theorem Built.same_iff_identical (hk : Built hash k xs) (hl : Built hash l ys) (m : Key) :
    (k.same l = true ↔ List.Forall₂ Value.Identical xs ys) ∧
      k.same k = true ∧
      (k.same l = true → l.same k = true) ∧
      (k.same l = true → l.same m = true → k.same m = true) ∧
      (k.same l = true → k.hashData = l.hashData) := by
  simp only [same_iff_content, true_and]
  refine ⟨hk.content_eq_iff hl, Eq.symm, Eq.trans, fun h => ?_⟩
  exact congrArg (fun c : ContentKey => c.key.hashData) h

theorem same_nan_records :
    let nan : Value := .float ⟨0x7FF8000000000000⟩
    let first : Value := .record ⟨"Point", 0⟩ ⟨[("x", nan)]⟩
    let other : Value := .record ⟨"Point", 1⟩ ⟨[("x", nan)]⟩
    let k := (ofList [nan]).update first
    let l := empty.updateAll [nan, other]
    nan.equal nan = false ∧ k.same l = true ∧ k.hashData = l.hashData := by
  intro nan first other k l
  have hk : Built HashAtom.digest k [nan, first] := .update (.ofList [nan]) first
  have hl : Built HashAtom.digest l [nan, other] := .updateAll .empty [nan, other]
  obtain ⟨hsame, -, -, -, hdata⟩ := Built.same_iff_identical hk hl k
  have hidentical : List.Forall₂ Value.Identical [nan, first] [nan, other] :=
    .cons (.float rfl) (.cons (.record rfl rfl (.cons (.float rfl) .nil)) .nil)
  exact ⟨by decide, hsame.2 hidentical, hdata (hsame.2 hidentical)⟩

example : (ofList [.float ⟨0⟩]).same (ofList [.float ⟨0x8000000000000000⟩]) = false := by
  decide

end Key

end PropTree
