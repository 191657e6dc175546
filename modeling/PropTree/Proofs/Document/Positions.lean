import PropTree.Proofs.Document.Fitting

set_option autoImplicit false

/-!
# Positions in a document
-/

namespace PropTree

inductive DocumentStep where
  | key (name : String)
  | item (i : Nat)
deriving DecidableEq, Repr

namespace DocumentStep

def text : DocumentStep → String
  | .key name => "." ++ name
  | .item i => "[" ++ toString i ++ "]"

inductive Before : DocumentStep → DocumentStep → Prop where
  | key {k l : String} (h : k < l) : Before (.key k) (.key l)
  | item {i j : Nat} (h : i < j) : Before (.item i) (.item j)

/-- Keys are joined with dots, but nothing is joined to an empty text. -/
def render : List DocumentStep → String
  | [] => ""
  | .key name :: p => if name = "" then render p else name ++ String.join (p.map text)
  | .item i :: p => (item i).text ++ String.join (p.map text)

def extend (path : String) : DocumentStep → String
  | .key name => Document.joinPath path name
  | .item i => Document.itemPath path i

theorem extend_of_ne {path : String} (h : path ≠ "") (a : DocumentStep) :
    extend path a = path ++ a.text := by
  cases a with
  | key name =>
    rw [extend, Document.joinPath, if_neg (mt String.isEmpty_iff.1 h), text, String.append_assoc]
  | item i => simp only [extend, Document.itemPath, text, String.append_assoc]

theorem foldl_extend_of_ne {path : String} (h : path ≠ "") (p : List DocumentStep) :
    p.foldl extend path = path ++ String.join (p.map text) := by
  induction p generalizing path with
  | nil => simp
  | cons a p ih =>
    have hne : path ++ a.text ≠ "" := fun he => h (String.append_eq_empty_iff.1 he).1
    rw [List.foldl_cons, extend_of_ne h, ih hne, List.map_cons, String.join_cons,
      String.append_assoc]

theorem foldl_extend (p : List DocumentStep) : p.foldl extend "" = render p := by
  induction p with
  | nil => rfl
  | cons a p ih =>
    cases a with
    | key name =>
      have hfirst : extend "" (.key name) = name := rfl
      rw [List.foldl_cons, hfirst, render]
      split
      · rename_i hempty
        rw [hempty, ih]
      · rename_i hne
        exact foldl_extend_of_ne hne p
    | item i =>
      have hfirst : extend "" (.item i) = (item i).text := by
        simp [extend, Document.itemPath, text]
      have hne : (item i).text ≠ "" := by simp [text, String.append_eq_empty_iff]
      rw [List.foldl_cons, hfirst, render, foldl_extend_of_ne hne]

example : render [.key "", .key "a", .item 0, .key "b"] = "a[0].b" := by decide

end DocumentStep

namespace Schema

/-- The type declared for a part of what has a declared type: that of the elements,
or of the setter that the key means. Parts of what may be anything may be anything. -/
def childType? (s : Schema) : Descriptor → DocumentStep → Option Descriptor
  | .unknown, _ => some .unknown
  | .list element, .item _ => some element
  | .map element, .key _ => some element
  | .record name, .key key => do
    let type ← s.find? name
    let set ← (s.definition type).relaxedSetter? key
    some set.type
  | _, _ => none

def typeAt? (s : Schema) (d : Descriptor) : List DocumentStep → Option Descriptor
  | [] => some d
  | a :: p => (s.childType? d a).bind fun t => s.typeAt? t p

theorem childType?_record_eq_some_iff {s : Schema} {name key : String} {d : Descriptor} :
    s.childType? (.record name) (.key key) = some d ↔
      ∃ type, s.find? name = some type ∧
        ∃ set, (s.definition type).relaxedSetter? key = some set ∧ set.type = d := by
  simp [childType?, Option.bind_eq_some_iff]

end Schema

namespace Document

open DocumentStep

def child? : Document → DocumentStep → Option Document
  | .object entries, .key name => entries.get? name
  | .array items, .item i => items[i]?
  | _, _ => none

def at? (j : Document) : List DocumentStep → Option Document
  | [] => some j
  | a :: p => (j.child? a).bind fun part => part.at? p

inductive Ordered : Document → Prop where
  | leaf {j : Document} (hleaf : j.isLeaf = true) : Ordered j
  | array {items : List Document} (h : ∀ j ∈ items, Ordered j) : Ordered (.array items)
  | object {entries : Assoc Document} (hsorted : entries.Sorted)
      (h : ∀ entry ∈ entries.entries, Ordered entry.2) : Ordered (.object entries)

variable {s : Schema} {d t : Descriptor} {j part : Document} {a : DocumentStep}
  {p q : List DocumentStep}

theorem at?_cons_eq_some_iff :
    j.at? (a :: p) = some part ↔ ∃ whole, j.child? a = some whole ∧ whole.at? p = some part :=
  Option.bind_eq_some_iff

/-! ### The parts of what fits -/

def FitsAt (s : Schema) (d : Descriptor) (j : Document) (q : List DocumentStep) : Prop :=
  ∀ part, j.at? q = some part → ∃ t, s.typeAt? d q = some t ∧ part.Fits s t

theorem Fits.child (h : j.Fits s d) (hpart : j.child? a = some part) :
    ∃ t, s.childType? d a = some t ∧ part.Fits s t := by
  cases h with
  | any => exact ⟨.unknown, rfl, .any⟩
  | list hitems =>
    cases a with
    | key name => nomatch hpart
    | item i => exact ⟨_, rfl, hitems part (List.mem_of_getElem? hpart)⟩
  | map hentries =>
    cases a with
    | key name => exact ⟨_, rfl, hentries (name, part) (Assoc.mem_of_findEntry hpart)⟩
    | item i => nomatch hpart
  | @record name type entries hfind hset hentries =>
    cases a with
    | key key =>
      have hmem : (key, part) ∈ entries.entries := Assoc.mem_of_findEntry hpart
      obtain ⟨set, hset⟩ := Option.isSome_iff_exists.1 (hset _ hmem)
      exact ⟨set.type, Schema.childType?_record_eq_some_iff.2 ⟨type, hfind, set, hset, rfl⟩,
        hentries _ hmem set hset⟩
    | item i => nomatch hpart
  | _ => nomatch hpart

theorem fitsAt_cons (h : ∀ whole, j.child? a = some whole →
    ∃ t, s.childType? d a = some t ∧ whole.FitsAt s t q) : j.FitsAt s d (a :: q) := by
  intro part hpart
  obtain ⟨whole, hwhole, hpart⟩ := at?_cons_eq_some_iff.1 hpart
  obtain ⟨t, ht, hfits⟩ := h whole hwhole
  obtain ⟨u, hu, hpart⟩ := hfits part hpart
  exact ⟨u, Option.bind_eq_some_iff.2 ⟨t, ht, hu⟩, hpart⟩

theorem Fits.at (h : j.Fits s d) (q : List DocumentStep) : j.FitsAt s d q := by
  induction q generalizing j d with
  | nil =>
    intro part hpart
    obtain rfl := Option.some.inj hpart
    exact ⟨d, rfl, h⟩
  | cons a q ih =>
    refine fitsAt_cons fun whole hwhole => ?_
    obtain ⟨t, ht, hfits⟩ := h.child hwhole
    exact ⟨t, ht, ih hfits⟩

/-! ### What comes before a position -/

/-- Every part that comes before the position and does not contain it fits the type
declared for it. -/
def FitsBefore (s : Schema) (d : Descriptor) (j : Document) (p : List DocumentStep) : Prop :=
  ∀ q, List.Lex Before q p → ¬q <+: p → j.FitsAt s d q

def ChildrenFitBefore (s : Schema) (d : Descriptor) (j : Document) (a : DocumentStep) : Prop :=
  ∀ b part, Before b a → j.child? b = some part → ∃ t, s.childType? d b = some t ∧ part.Fits s t

theorem ChildrenFitBefore.fitsAt {b : DocumentStep} (h : ChildrenFitBefore s d j a)
    (hbefore : Before b a) (q : List DocumentStep) : j.FitsAt s d (b :: q) := by
  refine fitsAt_cons fun whole hwhole => ?_
  obtain ⟨t, ht, hfits⟩ := h b whole hbefore hwhole
  exact ⟨t, ht, hfits.at q⟩

theorem fitsBefore_nil (s : Schema) (d : Descriptor) (j : Document) : FitsBefore s d j [] :=
  fun _ hlex _ => absurd hlex List.not_lex_nil

theorem ChildrenFitBefore.fitsBefore (h : ChildrenFitBefore s d j a) : FitsBefore s d j [a] := by
  intro q hlex hprefix
  cases hlex with
  | nil => exact absurd List.nil_prefix hprefix
  | rel hbefore => exact h.fitsAt hbefore _
  | cons hlex => exact absurd hlex List.not_lex_nil

theorem FitsBefore.below (h : FitsBefore s t part p) (hpart : j.child? a = some part)
    (htype : s.childType? d a = some t) (hearlier : ChildrenFitBefore s d j a) :
    FitsBefore s d j (a :: p) := by
  intro q hlex hprefix
  cases hlex with
  | nil => exact absurd List.nil_prefix hprefix
  | rel hbefore => exact hearlier.fitsAt hbefore _
  | @cons _ q _ hlex =>
    refine fitsAt_cons fun whole hwhole => ⟨t, htype, ?_⟩
    obtain rfl := Option.some.inj (hpart.symm.trans hwhole)
    exact h q hlex fun hq => hprefix (List.cons_prefix_cons.2 ⟨rfl, hq⟩)

end Document

end PropTree
