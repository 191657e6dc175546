import PropTree.Text.UpperCase

set_option autoImplicit false

namespace PropTree

namespace UpperCase

/-- A character that is its own upper case and is in that of no other. -/
structure Fixed (c : Char) : Prop where
  self : ofCode c.toNat = [c.toNat]
  nonzero : c.toNat ≠ 0
  expansions : ∀ entry ∈ expansions, c.toNat ∉ entry.2
  runs : ∀ run ∈ runs, (run.last : Int) + run.shift < c.toNat ∨
    (c.toNat : Int) < run.first + run.shift

theorem fixed_dot : Fixed '.' :=
  ⟨by decide +kernel, by decide, by decide +kernel, by decide +kernel⟩

theorem fixed_bracket : Fixed '[' :=
  ⟨by decide +kernel, by decide, by decide +kernel, by decide +kernel⟩

variable {c d : Char}

theorem Fixed.eq_of_mem_ofCode (hc : Fixed c) {code : Nat} (h : c.toNat ∈ ofCode code) :
    c.toNat = code := by
  unfold ofCode at h
  split at h
  · rename_i entry hentry
    exact absurd h (hc.expansions entry (List.mem_of_find?_eq_some hentry))
  · split at h
    · rename_i run hrun
      have hcovers := List.find?_some hrun
      have hapart := hc.runs run (List.mem_of_find?_eq_some hrun)
      have hnonzero := hc.nonzero
      have hcode := List.mem_singleton.1 h
      simp only [Run.covers, Bool.and_eq_true, decide_eq_true_eq] at hcovers
      omega
    · exact List.mem_singleton.1 h

theorem eq_toNat_of_ofNat {code : Nat} (h : Char.ofNat code = c) (hnonzero : c.toNat ≠ 0) :
    code = c.toNat := by
  subst h
  by_cases hvalid : code.isValidChar
  · have hchar : Char.ofNat code = Char.ofNatAux code hvalid := dif_pos hvalid
    rw [hchar]
    rfl
  · have hzero : (Char.ofNat code).toNat = 0 := congrArg Char.toNat (dif_neg hvalid)
    exact absurd hzero hnonzero

theorem Fixed.mem_ofChar_iff (hc : Fixed c) : c ∈ ofChar d ↔ d = c := by
  constructor
  · intro h
    obtain ⟨code, hcode, heq⟩ := List.mem_map.1 h
    rw [eq_toNat_of_ofNat heq hc.nonzero] at hcode
    exact Char.toNat_inj.1 (hc.eq_of_mem_ofCode hcode).symm
  · rintro rfl
    rw [ofChar, hc.self]
    simp [Char.ofNat_toNat]

theorem Fixed.mem_ofText_iff (hc : Fixed c) {text : String} :
    c ∈ (ofText text).toList ↔ c ∈ text.toList := by
  simp [ofText, hc.mem_ofChar_iff]

end UpperCase

end PropTree
