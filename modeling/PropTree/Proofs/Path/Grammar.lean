import PropTree.Path.Basic
import PropTree.Path.Segments
import PropTree.Proofs.Path.Append

set_option autoImplicit false

/-!
# The grammar of property paths

`Piece` says which pieces between the dots are well formed, without a word on how
they are read, and `Segment.Stands` what a segment tells about its piece.
-/

namespace PropTree

inductive Piece : List Char → Step → Prop where
  | name {name : List Char} (nonempty : name ≠ []) (plain : '[' ∉ name) :
      Piece name ⟨String.ofList name, none⟩
  | indexed {name sign digits : List Char} (nonempty : name ≠ []) (plain : '[' ∉ name)
      (signed : sign = [] ∨ sign = ['+']) (some_digit : digits ≠ [])
      (decimal : ∀ c ∈ digits, c.isDigit = true)
      (bounded : Nat.ofDigitChars 10 digits 0 < UInt64.size) :
      Piece (name ++ '[' :: (sign ++ digits ++ [']']))
        ⟨String.ofList name, some (Nat.ofDigitChars 10 digits 0)⟩

def WellFormedPiece (piece : List Char) : Prop := ∃ step, Piece piece step

/-! ### Cutting -/

section

variable {mark : Char} {cs before after : List Char}

theorem cutAt_of_not_mem (h : mark ∉ cs) : cutAt mark cs = (cs, none) := by
  induction cs with
  | nil => rfl
  | cons c cs ih =>
    obtain ⟨hc, hcs⟩ := List.ne_and_not_mem_of_not_mem_cons h
    simp [cutAt, Ne.symm hc, ih hcs]

theorem cutAt_append_of_not_mem (h : mark ∉ before) :
    cutAt mark (before ++ mark :: after) = (before, some after) := by
  rw [cutAt_append_mark, cutAt_of_not_mem h]
  rfl

theorem cutAt_eq_some_iff :
    cutAt mark cs = (before, some after) ↔ mark ∉ before ∧ cs = before ++ mark :: after := by
  constructor
  · intro h
    have hcs := cutAt_eq_some (congrArg Prod.snd h)
    have hmark := mark_not_mem_cutAt mark cs
    rw [h] at hcs hmark
    exact ⟨hmark, hcs⟩
  · rintro ⟨hmark, rfl⟩
    exact cutAt_append_of_not_mem hmark

theorem splitOn_eq_cutAt (mark : Char) (cs : List Char) :
    cs.splitOn mark =
      (cutAt mark cs).1 :: (cutAt mark cs).2.elim [] (List.splitOn mark) := by
  have hmark := mark_not_mem_cutAt mark cs
  cases hcut : (cutAt mark cs).2 with
  | none =>
    rw [cutAt_eq_none hcut] at hmark ⊢
    exact List.splitOn_eq_singleton hmark
  | some after =>
    calc cs.splitOn mark = ((cutAt mark cs).1 ++ mark :: after).splitOn mark := by
          rw [← cutAt_eq_some hcut]
      _ = (cutAt mark cs).1 :: after.splitOn mark :=
          List.splitOn_append_cons_self_of_not_mem hmark after

end

/-! ### Pieces -/

theorem digitsValue_eq_some_iff {digits : List Char} {start n : Nat} :
    digitsValue start digits = some n ↔
      (∀ c ∈ digits, c.isDigit = true) ∧ Nat.ofDigitChars 10 digits start = n := by
  induction digits generalizing start with
  | nil => simp [digitsValue]
  | cons c digits ih =>
    have hdigit : c.isDigit = true ↔ '0' ≤ c ∧ c ≤ '9' := by
      simp [Char.isDigit, Char.le_def]
    rw [digitsValue, Nat.ofDigitChars_cons]
    split
    · rename_i hc
      simp [ih, hdigit.2 hc]
    · rename_i hc
      simp [hdigit, hc]

theorem readIndex_eq_some_iff {raw : List Char} {n : Nat} :
    readIndex raw = some n ↔
      ∃ sign digits, raw = sign ++ digits ∧ (sign = [] ∨ sign = ['+']) ∧ digits ≠ [] ∧
        (∀ c ∈ digits, c.isDigit = true) ∧ Nat.ofDigitChars 10 digits 0 = n ∧
        n < UInt64.size := by
  have hdigits (digits : List Char) :
      (if digits = [] then none else (digitsValue 0 digits).filter (· < indexBound)) = some n ↔
        digits ≠ [] ∧ (∀ c ∈ digits, c.isDigit = true) ∧ Nat.ofDigitChars 10 digits 0 = n ∧
          n < UInt64.size := by
    split
    · rename_i hnil
      simp [hnil]
    · rename_i hne
      rw [Option.filter_eq_some_iff, digitsValue_eq_some_iff, decide_eq_true_iff, and_assoc]
      exact (and_iff_right hne).symm
  constructor
  · intro h
    unfold readIndex at h
    dsimp only at h
    split at h
    · exact ⟨['+'], _, rfl, .inr rfl, (hdigits _).1 h⟩
    · exact ⟨[], raw, rfl, .inl rfl, (hdigits _).1 h⟩
  · rintro ⟨sign, digits, rfl, hsign, h⟩
    have hread := (hdigits digits).2 h
    obtain ⟨hne, hdecimal, -⟩ := h
    obtain ⟨c, rest, rfl⟩ := List.exists_cons_of_ne_nil hne
    rcases hsign with rfl | rfl
    · have hc : c ≠ '+' := by
        rintro rfl
        exact absurd (hdecimal '+' List.mem_cons_self) (by decide)
      simpa [readIndex, hc] using hread
    · simpa [readIndex] using hread

theorem piece_iff {head : List Char} {step : Step} :
    Piece head step ↔ Step.parse head = .ok step ∧ step.name.isEmpty = false := by
  constructor
  · intro h
    cases h with
    | name nonempty plain =>
      rw [Step.parse, cutAt_of_not_mem plain]
      simpa using nonempty
    | @indexed name sign digits nonempty plain signed some_digit decimal bounded =>
      have hclose : ']' ∉ sign ++ digits := by
        intro hmem
        rcases List.mem_append.1 hmem with hmem | hmem
        · rcases signed with rfl | rfl
          · nomatch hmem
          · simp at hmem
        · exact absurd (decimal _ hmem) (by decide)
      have hread : readIndex (sign ++ digits) = some (Nat.ofDigitChars 10 digits 0) :=
        readIndex_eq_some_iff.2 ⟨sign, digits, rfl, signed, some_digit, decimal, rfl, bounded⟩
      rw [Step.parse, cutAt_append_of_not_mem plain]
      dsimp only
      rw [cutAt_append_of_not_mem hclose]
      dsimp only
      rw [hread]
      simpa using nonempty
  · rintro ⟨h, hname⟩
    unfold Step.parse at h
    split at h
    · rename_i hcut
      obtain rfl := Except.ok.inj h
      have hall := cutAt_eq_none (congrArg Prod.snd hcut)
      have hplain := mark_not_mem_cutAt '[' head
      rw [hall] at hplain
      exact .name (by simpa using hname) hplain
    · rename_i name inside hcut
      obtain ⟨hplain, rfl⟩ := cutAt_eq_some_iff.1 hcut
      split at h
      · nomatch h
      · rename_i raw hclose
        obtain ⟨-, rfl⟩ := cutAt_eq_some_iff.1 hclose
        split at h
        · nomatch h
        · rename_i n hread
          obtain rfl := Except.ok.inj h
          obtain ⟨sign, digits, rfl, hsign, hne, hdecimal, rfl, hbound⟩ :=
            readIndex_eq_some_iff.1 hread
          exact .indexed (by simpa using hname) hplain hsign hne hdecimal hbound
      · nomatch h

theorem not_wellFormedPiece_nil : ¬WellFormedPiece [] := by
  rintro ⟨step, h⟩
  generalize hnil : ([] : List Char) = piece at h
  cases h with
  | name nonempty plain => exact nonempty hnil.symm
  | indexed nonempty plain signed some_digit decimal bounded => simp at hnil

/-! ### Segments -/

def joined (pieces : List (List Char)) : String := String.ofList (['.'].intercalate pieces)

theorem splitOn_joined (text : String) : joined (text.toList.splitOn '.') = text := by
  rw [joined, List.intercalate_splitOn, String.ofList_toList]

namespace Segment

theorem parse_eq_ok_iff_splitOn {path : String} {s : Segment} :
    parse path = .ok s ↔
      ∃ head later, path.toList.splitOn '.' = head :: later ∧ later ≠ [[]] ∧ Piece head s.step ∧
        s.indexedName = String.ofList head ∧
        s.children = if later = [] then none else some (joined later) := by
  have hsplit := splitOn_eq_cutAt '.' path.toList
  have hlater : (cutAt '.' path.toList).2 ≠ some [] ↔
      (cutAt '.' path.toList).2.elim [] (List.splitOn '.') ≠ [[]] := by
    cases (cutAt '.' path.toList).2 with
    | none => simp
    | some after =>
      have hjoin : ['.'].intercalate (after.splitOn '.') = after := List.intercalate_splitOn '.'
      refine not_congr ?_
      rw [Option.some.injEq, Option.elim_some]
      constructor
      · rintro rfl
        rfl
      · intro h
        rw [← hjoin, h]
        rfl
  have hchildren : (cutAt '.' path.toList).2.map String.ofList =
      let later := (cutAt '.' path.toList).2.elim [] (List.splitOn '.')
      if later = [] then none else some (joined later) := by
    cases (cutAt '.' path.toList).2 with
    | none => rfl
    | some after =>
      simp [joined, List.intercalate_splitOn]
  rw [parse_eq_ok_iff, hsplit]
  constructor
  · rintro ⟨-, hdot, hstep, hname, htext, hc⟩
    exact ⟨_, _, rfl, hlater.1 hdot, piece_iff.2 ⟨hstep, hname⟩, htext, hc.trans hchildren⟩
  · rintro ⟨head, later, hcut, hdot, hpiece, htext, hc⟩
    obtain ⟨rfl, rfl⟩ := List.cons.inj hcut
    obtain ⟨hstep, hname⟩ := piece_iff.1 hpiece
    refine ⟨?_, hlater.2 hdot, hstep, hname, htext, hc.trans hchildren.symm⟩
    cases hempty : path.isEmpty with
    | false => rfl
    | true =>
      obtain rfl : path = "" := by simpa using hempty
      rw [← Except.ok.inj hstep] at hname
      simp [cutAt] at hname

theorem text_of_parse {path : String} {s : Segment} (h : parse path = .ok s) : s.text = path := by
  obtain ⟨head, later, hsplit, -, -, htext, hc⟩ := parse_eq_ok_iff_splitOn.1 h
  have hpath := splitOn_joined path
  rw [hsplit] at hpath
  rw [text, hc, htext, ← hpath]
  cases later with
  | nil => simp [joined]
  | cons piece later => simp [joined, String.ext_iff]

/-- What a segment tells about the piece at position `i`: the piece itself, its
name and index, and the text after its dot, if one follows. -/
structure Stands (pieces : List (List Char)) (i : Nat) (s : Segment) : Prop where
  piece : pieces[i]? = some s.indexedName.toList
  step : Piece s.indexedName.toList s.step
  hasChildren : s.hasChildren = true ↔ i + 1 < pieces.length
  remainder : s.remainder = joined (pieces.drop (i + 1))

/-- The piece at position `i` is not well formed, or the path ends in the dot
behind it. -/
def StopsAt (pieces : List (List Char)) (i : Nat) : Prop :=
  ∃ piece, pieces[i]? = some piece ∧ (¬WellFormedPiece piece ∨ pieces.drop (i + 1) = [[]])

theorem Stands.head {text : String} {s : Segment} (h : parse text = .ok s) :
    Stands (text.toList.splitOn '.') 0 s := by
  obtain ⟨head, later, hsplit, -, hpiece, htext, hc⟩ := parse_eq_ok_iff_splitOn.1 h
  have hhead : s.indexedName.toList = head := by rw [htext, String.toList_ofList]
  rw [hsplit]
  refine ⟨?_, ?_, ?_, ?_⟩
  · rw [hhead]
    rfl
  · rw [hhead]
    exact hpiece
  · rw [Segment.hasChildren, hc]
    cases later <;> simp
  · rw [Segment.remainder, hc]
    cases later <;> simp [joined]

theorem Stands.later {head : List Char} {later : List (List Char)} {i : Nat} {s : Segment}
    (h : Stands later i s) : Stands (head :: later) (i + 1) s := by
  obtain ⟨hpiece, hstep, hchildren, hremainder⟩ := h
  exact ⟨hpiece, hstep, by simp [hchildren], hremainder⟩

theorem stopsAt_of_parse_error {text : String} {e : PathError} (h : parse text = .error e) :
    StopsAt (text.toList.splitOn '.') 0 := by
  obtain ⟨head, later, hsplit⟩ := List.exists_cons_of_ne_nil (List.splitOn_ne_nil '.' text.toList)
  rw [hsplit]
  refine ⟨head, rfl, Classical.byContradiction fun hgood => ?_⟩
  obtain ⟨hpiece, hlater⟩ := not_or.1 hgood
  obtain ⟨step, hpiece⟩ := Classical.not_not.1 hpiece
  have hok : parse text = .ok ⟨step, String.ofList head,
      if later = [] then none else some (joined later)⟩ :=
    parse_eq_ok_iff_splitOn.2 ⟨head, later, hsplit, hlater, hpiece, rfl, rfl⟩
  rw [hok] at h
  nomatch h

theorem splitOn_of_children {text children : String} {s : Segment} (h : parse text = .ok s)
    (hc : s.children = some children) :
    text.toList.splitOn '.' = s.indexedName.toList :: children.toList.splitOn '.' := by
  obtain ⟨-, -, -, -, htext, hchildren⟩ := parse_eq_ok_iff.1 h
  obtain ⟨after, hcut, rfl⟩ := Option.map_eq_some_iff.1 (hchildren.symm.trans hc)
  rw [splitOn_eq_cutAt, hcut, htext, String.toList_ofList, String.toList_ofList]
  rfl

theorem all_reads (text : String) :
    let pieces := text.toList.splitOn '.'
    ∃ segments : List Segment, (∀ i s, segments[i]? = some s → Stands pieces i s) ∧
      (all text = segments.map .ok ∧ segments.length = pieces.length ∨
        ∃ e, all text = segments.map .ok ++ [.error e] ∧ StopsAt pieces segments.length) := by
  induction text using Segment.all.induct with
  | case1 text e hparse =>
    refine ⟨[], by simp, .inr ⟨e, ?_, stopsAt_of_parse_error hparse⟩⟩
    rw [all_of_error hparse]
    rfl
  | case2 text segment hparse hchildren =>
    have hstands := Stands.head hparse
    have hlast : ¬0 + 1 < (text.toList.splitOn '.').length := by
      rw [← hstands.hasChildren, hasChildren, hchildren]
      exact Bool.false_ne_true
    have hsome := List.length_pos_iff.2 (List.splitOn_ne_nil '.' text.toList)
    refine ⟨[segment], fun i s hs => ?_, .inl ⟨all_of_last hparse hchildren, ?_⟩⟩
    · cases i with
      | zero =>
        obtain rfl := Option.some.inj hs
        exact hstands
      | succ i => nomatch hs
    · change 1 = _
      omega
  | case3 text segment hparse children hchildren ih =>
    obtain ⟨segments, hstands, hall⟩ := ih
    have hsplit := splitOn_of_children hparse hchildren
    have hhead := Stands.head hparse
    rw [hsplit] at hhead ⊢
    refine ⟨segment :: segments, fun i s hs => ?_, ?_⟩
    · cases i with
      | zero =>
        obtain rfl := Option.some.inj hs
        exact hhead
      | succ i => exact (hstands i s hs).later
    · rw [all_of_next hparse hchildren]
      rcases hall with ⟨hall, hlength⟩ | ⟨e, hall, piece, hpiece, hstop⟩
      · exact .inl ⟨by rw [hall]; rfl, congrArg (· + 1) hlength⟩
      · exact .inr ⟨e, by rw [hall]; rfl, piece, hpiece, hstop⟩

theorem wellFormed_of_stands {pieces : List (List Char)} {segments : List Segment}
    (hstands : ∀ i s, segments[i]? = some s → Stands pieces i s)
    (hlength : segments.length = pieces.length) : ∀ piece ∈ pieces, WellFormedPiece piece := by
  intro piece hpiece
  obtain ⟨i, hi⟩ := List.mem_iff_getElem?.1 hpiece
  obtain ⟨hlt, -⟩ := List.getElem?_eq_some_iff.1 hi
  rw [← hlength] at hlt
  have hs := hstands i segments[i] (List.getElem?_eq_getElem hlt)
  obtain rfl := Option.some.inj (hi.symm.trans hs.piece)
  exact ⟨_, hs.step⟩

theorem StopsAt.not_wellFormed {pieces : List (List Char)} {i : Nat} (h : StopsAt pieces i) :
    ¬∀ piece ∈ pieces, WellFormedPiece piece := by
  obtain ⟨piece, hpiece, hbad | hdot⟩ := h
  · exact fun hall => hbad (hall piece (List.mem_of_getElem? hpiece))
  · have hempty : [] ∈ pieces := List.mem_of_mem_drop (hdot ▸ List.mem_singleton_self [])
    exact fun hall => not_wellFormedPiece_nil (hall [] hempty)

theorem next_of_all (text : String) :
    (all text).head? = some (parse text) ∧
      ∀ i item, (all text)[i]? = some item → (all text)[i + 1]? = item.toOption.bind next? := by
  induction text using Segment.all.induct with
  | case1 text e hparse =>
    rw [all_of_error hparse, hparse]
    refine ⟨rfl, fun i item hitem => ?_⟩
    cases i with
    | zero =>
      obtain rfl := Option.some.inj hitem
      rfl
    | succ i => nomatch hitem
  | case2 text segment hparse hchildren =>
    rw [all_of_last hparse hchildren, hparse]
    refine ⟨rfl, fun i item hitem => ?_⟩
    cases i with
    | zero =>
      obtain rfl := Option.some.inj hitem
      simp [Except.toOption, next?, hchildren]
    | succ i => nomatch hitem
  | case3 text segment hparse children hchildren ih =>
    obtain ⟨hfirst, hnext⟩ := ih
    rw [all_of_next hparse hchildren, hparse]
    refine ⟨rfl, fun i item hitem => ?_⟩
    cases i with
    | zero =>
      obtain rfl := Option.some.inj hitem
      simp [Except.toOption, next?, hchildren, ← hfirst, List.head?_eq_getElem?]
    | succ i => exact hnext i item hitem

end Segment

theorem sliceFrom_append (before after : String) :
    sliceFrom (before ++ after) before.utf8ByteSize = .ok after := by
  have hvalid := (String.Pos.Raw.isValid_rawEndPos (s := before)).append_right after
  have hsplits := String.Pos.splits_append_rawEndPos (s := before) (t := after)
  calc sliceFrom (before ++ after) before.utf8ByteSize
      = .ok ((before ++ after).sliceFrom ((before ++ after).pos before.rawEndPos hvalid)).copy :=
        dif_pos hvalid
    _ = .ok after := congrArg Except.ok hsplits.copy_sliceFrom_eq

namespace Segments

variable {text : String}

theorem items_eq (s : Segments) :
    s.items = match s.next with
      | .error fault => .error fault
      | .ok (none, _) => .ok []
      | .ok (some item, s') => s'.items.map (item :: ·) := by
  rw [items]
  split <;> simp_all

theorem items_of_end (failed : Bool) : items ⟨none, failed⟩ = .ok [] := by
  rw [items_eq]
  cases failed <;> rfl

theorem items_ofText (text : String) : (ofText text).items = .ok (Segment.all text) := by
  induction text using Segment.all.induct with
  | case1 text e hparse =>
    have hnext : (ofText text).next = .ok (some (.error e), ⟨none, true⟩) := by
      simp [next, ofText, hparse]
    rw [items_eq, hnext, Segment.all_of_error hparse]
    dsimp only
    rw [items_of_end]
    rfl
  | case2 text segment hparse hchildren =>
    have hnext : (ofText text).next = .ok (some (.ok segment), ⟨none, false⟩) := by
      simp [next, ofText, hparse, Segment.hasChildren, hchildren]
    rw [items_eq, hnext, Segment.all_of_last hparse hchildren]
    dsimp only
    rw [items_of_end]
    rfl
  | case3 text segment hparse children hchildren ih =>
    have htext : segment.indexedName ++ "." ++ children = text := by
      have htext := Segment.text_of_parse hparse
      rwa [Segment.text, hchildren] at htext
    have hsize : (segment.indexedName ++ ".").utf8ByteSize = segment.indexedName.utf8ByteSize + 1 :=
      String.utf8ByteSize_append
    have hslice := sliceFrom_append (segment.indexedName ++ ".") children
    rw [htext, hsize] at hslice
    have hnext : (ofText text).next = .ok (some (.ok segment), ofText children) := by
      simp [next, ofText, hparse, Segment.hasChildren, hchildren, hslice]
    rw [items_eq, hnext, Segment.all_of_next hparse hchildren]
    dsimp only
    rw [ih]
    rfl

/-- A walk over the segments of any text never takes a slice that is not there.
It gives segments only exactly if every piece between the dots is well formed,
namely one for each piece; else the segments of the pieces before the one where
reading stops, and then one error. It gives what parsing the head gives, then
what `next?` gives on each segment, and every segment is written as the text it
was read from. -/
theorem items_spell (text : String) :
    let pieces := text.toList.splitOn '.'
    ∃ items, (ofText text).items = .ok items ∧
      ((∀ item ∈ items, item.isOk = true) ↔ ∀ piece ∈ pieces, WellFormedPiece piece) ∧
      ((∀ piece ∈ pieces, WellFormedPiece piece) →
        ∃ segments : List Segment, items = segments.map .ok ∧ segments.length = pieces.length ∧
          ∀ i s, segments[i]? = some s → Segment.Stands pieces i s) ∧
      ((¬∀ piece ∈ pieces, WellFormedPiece piece) →
        ∃ (segments : List Segment) (e : PathError), items = segments.map .ok ++ [.error e] ∧
          Segment.StopsAt pieces segments.length ∧
          ∀ i s, segments[i]? = some s → Segment.Stands pieces i s) ∧
      items.head? = some (Segment.parse text) ∧
      (∀ i item, items[i]? = some item → items[i + 1]? = item.toOption.bind Segment.next?) ∧
      ∀ s, Segment.parse text = .ok s → s.text = text := by
  intro pieces
  obtain ⟨hfirst, hnext⟩ := Segment.next_of_all text
  obtain ⟨segments, hstands, hall⟩ := Segment.all_reads text
  refine ⟨Segment.all text, items_ofText text, ?_⟩
  rcases hall with ⟨hall, hlength⟩ | ⟨e, hall, hstop⟩
  · have hgood := Segment.wellFormed_of_stands hstands hlength
    have hok : ∀ item ∈ Segment.all text, item.isOk = true := by
      rw [hall]
      intro item hitem
      obtain ⟨s, -, rfl⟩ := List.mem_map.1 hitem
      rfl
    exact ⟨⟨fun _ => hgood, fun _ => hok⟩, fun _ => ⟨segments, hall, hlength, hstands⟩,
      fun hbad => absurd hgood hbad, hfirst, hnext, fun s => Segment.text_of_parse⟩
  · have hbad := hstop.not_wellFormed
    have hfails : ¬∀ item ∈ Segment.all text, item.isOk = true := by
      intro hok
      have herror : .error e ∈ Segment.all text := by simp [hall]
      nomatch hok _ herror
    exact ⟨⟨fun hok => absurd hok hfails, fun hgood => absurd hgood hbad⟩,
      fun hgood => absurd hgood hbad, fun _ => ⟨segments, e, hall, hstop, hstands⟩, hfirst, hnext,
      fun s => Segment.text_of_parse⟩

theorem items_spell_menu :
    let good := "menü.item[+07]"
    let bad := "menü.item[x].name"
    (∀ piece ∈ good.toList.splitOn '.', WellFormedPiece piece) ∧
      (∃ segments : List Segment, (ofText good).items = .ok (segments.map .ok) ∧
        segments.length = 2 ∧
        ∀ i s, segments[i]? = some s → Segment.Stands (good.toList.splitOn '.') i s) ∧
      (¬∀ piece ∈ bad.toList.splitOn '.', WellFormedPiece piece) ∧
      ∃ (segments : List Segment) (e : PathError),
        (ofText bad).items = .ok (segments.map .ok ++ [.error e]) ∧
          Segment.StopsAt (bad.toList.splitOn '.') segments.length := by
  intro good bad
  have hgoodPieces : good.toList.splitOn '.' =
      [['m', 'e', 'n', 'ü'], ['i', 't', 'e', 'm', '[', '+', '0', '7', ']']] := by
    simp [good, splitOn_eq_cutAt, cutAt]
  have hbadPiece : ['i', 't', 'e', 'm', '[', 'x', ']'] ∈ bad.toList.splitOn '.' := by
    simp [bad, splitOn_eq_cutAt, cutAt]
  have hgood : ∀ piece ∈ good.toList.splitOn '.', WellFormedPiece piece := by
    rw [hgoodPieces]
    intro piece hpiece
    rcases List.mem_cons.1 hpiece with rfl | hpiece
    · exact ⟨⟨"menü", none⟩, piece_iff.2 ⟨rfl, rfl⟩⟩
    · obtain rfl := List.mem_singleton.1 hpiece
      exact ⟨⟨"item", some 7⟩, piece_iff.2 ⟨rfl, rfl⟩⟩
  have hbad : ¬∀ piece ∈ bad.toList.splitOn '.', WellFormedPiece piece := by
    intro hall
    obtain ⟨step, hpiece⟩ := hall _ hbadPiece
    have hindex := (piece_iff.1 hpiece).1
    cases hindex
  obtain ⟨items, hitems, -, hread, -⟩ := items_spell good
  obtain ⟨segments, rfl, hlength, hstands⟩ := hread hgood
  obtain ⟨items', hitems', -, -, hstop, -⟩ := items_spell bad
  obtain ⟨segments', e, rfl, hstops, -⟩ := hstop hbad
  rw [hgoodPieces] at hlength
  exact ⟨hgood, ⟨segments, hitems, hlength, hstands⟩, hbad, segments', e, hitems', hstops⟩

end Segments

end PropTree
