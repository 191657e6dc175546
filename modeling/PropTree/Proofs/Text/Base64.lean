import Mathlib.Data.List.Induction
import Mathlib.Tactic.IntervalCases
import PropTree.Text.Base64

set_option autoImplicit false

/-!
# Base64 reads back

Both directions go group by group; a group is the number that its digits make in
base 64.
-/

namespace PropTree

namespace Base64

/-! ### Digits -/

theorem digitValue_digit {n : Nat} (h : n < 64) : digitValue (digit n) = some n := by
  interval_cases n <;> rfl

theorem ofNat_add_sub {c : Char} {first : Nat} (h : first ≤ c.toNat) :
    Char.ofNat (first + (c.toNat - first)) = c := by
  rw [Nat.add_sub_cancel' h, Char.ofNat_toNat]

theorem digit_of_digitValue {c : Char} {n : Nat} (h : digitValue c = some n) :
    n < 64 ∧ digit n = c := by
  unfold digitValue at h
  split at h
  · rename_i hc
    obtain rfl := Option.some.inj h
    have hlow : 65 ≤ c.toNat := hc.1
    have hhigh : c.toNat ≤ 90 := hc.2
    change c.toNat - 65 < 64 ∧ digit (c.toNat - 65) = c
    refine ⟨by omega, ?_⟩
    rw [digit, if_pos (by omega)]
    exact ofNat_add_sub hlow
  split at h
  · rename_i hc
    obtain rfl := Option.some.inj h
    have hlow : 97 ≤ c.toNat := hc.1
    have hhigh : c.toNat ≤ 122 := hc.2
    change c.toNat - 97 + 26 < 64 ∧ digit (c.toNat - 97 + 26) = c
    refine ⟨by omega, ?_⟩
    rw [digit, if_neg (by omega), if_pos (by omega), Nat.add_sub_cancel]
    exact ofNat_add_sub hlow
  split at h
  · rename_i hc
    obtain rfl := Option.some.inj h
    have hlow : 48 ≤ c.toNat := hc.1
    have hhigh : c.toNat ≤ 57 := hc.2
    change c.toNat - 48 + 52 < 64 ∧ digit (c.toNat - 48 + 52) = c
    refine ⟨by omega, ?_⟩
    rw [digit, if_neg (by omega), if_neg (by omega), if_pos (by omega), Nat.add_sub_cancel]
    exact ofNat_add_sub hlow
  split at h
  · rename_i hc
    obtain rfl := Option.some.inj h
    exact ⟨by omega, hc.symm⟩
  split at h
  · rename_i hc
    obtain rfl := Option.some.inj h
    exact ⟨by omega, hc.symm⟩
  · nomatch h

theorem digitValue_eq_some_iff {c : Char} {n : Nat} :
    digitValue c = some n ↔ n < 64 ∧ c = digit n := by
  constructor
  · intro h
    obtain ⟨hlt, hdigit⟩ := digit_of_digitValue h
    exact ⟨hlt, hdigit.symm⟩
  · rintro ⟨hlt, rfl⟩
    exact digitValue_digit hlt

theorem digit_ne_pad {n : Nat} (h : n < 64) : digit n ≠ '=' := by
  intro hpad
  have hvalue := digitValue_digit h
  rw [hpad] at hvalue
  nomatch hvalue

/-! ### Groups -/

def lastDigits : Nat → Nat → List Char
  | 0, _ => []
  | k + 1, n => lastDigits k (n / 64) ++ [digit (n % 64)]

theorem groupValue_concat (cs : List Char) (c : Char) :
    groupValue (cs ++ [c]) =
      (groupValue cs).bind fun m => (digitValue c).map fun d => m * 64 + d := by
  rw [groupValue, List.foldl_append]
  change (do return (← groupValue cs) * 64 + (← digitValue c)) = _
  cases groupValue cs with
  | none => rfl
  | some m => cases digitValue c <;> rfl

theorem groupValue_eq_some_iff {cs : List Char} {n : Nat} :
    groupValue cs = some n ↔ n < Nat.pow 64 cs.length ∧ cs = lastDigits cs.length n := by
  induction cs using List.reverseRecOn generalizing n with
  | nil =>
    change some 0 = some n ↔ n < 1 ∧ [] = []
    simp [eq_comm]
  | append_singleton cs c ih =>
    have hpow : Nat.pow 64 (cs.length + 1) = Nat.pow 64 cs.length * 64 := rfl
    rw [groupValue_concat, List.length_append, List.length_singleton, lastDigits, hpow]
    simp only [Option.bind_eq_some_iff, Option.map_eq_some_iff, ih, digitValue_eq_some_iff]
    constructor
    · rintro ⟨m, ⟨hm, hcs⟩, d, ⟨hd, rfl⟩, rfl⟩
      have hdiv : (m * 64 + d) / 64 = m := by omega
      have hmod : (m * 64 + d) % 64 = d := by omega
      rw [hdiv, hmod, ← hcs]
      exact ⟨by omega, rfl⟩
    · rintro ⟨hn, hcs⟩
      obtain ⟨hcs, hc⟩ := List.append_inj' hcs rfl
      refine ⟨n / 64, ⟨by omega, hcs⟩, n % 64, ⟨by omega, (List.cons.inj hc).1⟩, by omega⟩

theorem groupValue_two_iff {a b : Char} {n : Nat} :
    groupValue [a, b] = some n ↔ n < 4096 ∧ [a, b] = [digit (n / 64), digit (n % 64)] := by
  have hpow : Nat.pow 64 2 = 4096 := rfl
  have hdigits : lastDigits 2 n = [digit (n / 64 % 64), digit (n % 64)] := rfl
  rw [groupValue_eq_some_iff, show [a, b].length = 2 from rfl, hpow, hdigits]
  refine and_congr_right fun hn => ?_
  rw [show n / 64 % 64 = n / 64 by omega]

theorem groupValue_three_iff {a b c : Char} {n : Nat} :
    groupValue [a, b, c] = some n ↔
      n < 262144 ∧ [a, b, c] = [digit (n / 4096), digit (n / 64 % 64), digit (n % 64)] := by
  have hpow : Nat.pow 64 3 = 262144 := rfl
  have hdigits : lastDigits 3 n =
    [digit (n / 64 / 64 % 64), digit (n / 64 % 64), digit (n % 64)] := rfl
  rw [groupValue_eq_some_iff, show [a, b, c].length = 3 from rfl, hpow, hdigits]
  refine and_congr_right fun hn => ?_
  rw [show n / 64 / 64 % 64 = n / 4096 by omega]

theorem groupValue_four_iff {a b c d : Char} {n : Nat} :
    groupValue [a, b, c, d] = some n ↔ n < 16777216 ∧ [a, b, c, d] =
      [digit (n / 262144), digit (n / 4096 % 64), digit (n / 64 % 64), digit (n % 64)] := by
  have hpow : Nat.pow 64 4 = 16777216 := rfl
  have hdigits : lastDigits 4 n = [digit (n / 64 / 64 / 64 % 64), digit (n / 64 / 64 % 64),
    digit (n / 64 % 64), digit (n % 64)] := rfl
  rw [groupValue_eq_some_iff, show [a, b, c, d].length = 4 from rfl, hpow, hdigits]
  refine and_congr_right fun hn => ?_
  rw [show n / 64 / 64 / 64 % 64 = n / 262144 by omega, show n / 64 / 64 % 64 = n / 4096 % 64 by omega]

/-! ### Texts -/

theorem decodeChars_group {a b c d : Char} (hd : d ≠ '=') (rest : List Char) :
    decodeChars (a :: b :: c :: d :: rest) = (do
      let n ← groupValue [a, b, c, d]
      let bytes ← decodeChars rest
      some (UInt8.ofNat (n / 65536) :: UInt8.ofNat (n / 256 % 256) :: UInt8.ofNat (n % 256) ::
        bytes)) := by
  rw [decodeChars]
  · simp_all
  · simp_all

theorem decodeChars_two {a b c : Char} (hc : c ≠ '=') :
    decodeChars [a, b, c, '='] = (do
      let n ← groupValue [a, b, c]
      if n % 4 = 0 then some [UInt8.ofNat (n / 1024), UInt8.ofNat (n / 4 % 256)] else none) := by
  rw [decodeChars]
  simp_all

theorem decodeChars_encodeBytes (data : List UInt8) :
    decodeChars (encodeBytes data) = some data := by
  fun_induction encodeBytes data with
  | case1 => rfl
  | case2 a n =>
    have ha : a.toNat < 256 := a.toNat_lt
    have hgroup : groupValue [digit (n / 64), digit (n % 64)] = some n :=
      groupValue_two_iff.2 ⟨by omega, rfl⟩
    have hzero : n % 16 = 0 := by omega
    have hbyte : n / 16 = a.toNat := by omega
    rw [decodeChars, hgroup]
    change (if n % 16 = 0 then some [UInt8.ofNat (n / 16)] else none) = some [a]
    rw [if_pos hzero, hbyte, UInt8.ofNat_toNat]
  | case3 a b n =>
    have ha : a.toNat < 256 := a.toNat_lt
    have hb : b.toNat < 256 := b.toNat_lt
    have hgroup : groupValue [digit (n / 4096), digit (n / 64 % 64), digit (n % 64)] = some n :=
      groupValue_three_iff.2 ⟨by omega, rfl⟩
    have hzero : n % 4 = 0 := by omega
    have hfirst : n / 1024 = a.toNat := by omega
    have hsecond : n / 4 % 256 = b.toNat := by omega
    have hpad : digit (n % 64) ≠ '=' := digit_ne_pad (by omega)
    rw [decodeChars_two hpad, hgroup]
    change (if n % 4 = 0 then some [UInt8.ofNat (n / 1024), UInt8.ofNat (n / 4 % 256)] else none) =
      some [a, b]
    rw [if_pos hzero, hfirst, hsecond, UInt8.ofNat_toNat, UInt8.ofNat_toNat]
  | case4 a b c rest n ih =>
    have ha : a.toNat < 256 := a.toNat_lt
    have hb : b.toNat < 256 := b.toNat_lt
    have hc : c.toNat < 256 := c.toNat_lt
    have hgroup : groupValue [digit (n / 262144), digit (n / 4096 % 64), digit (n / 64 % 64),
        digit (n % 64)] = some n := groupValue_four_iff.2 ⟨by omega, rfl⟩
    have hfirst : n / 65536 = a.toNat := by omega
    have hsecond : n / 256 % 256 = b.toNat := by omega
    have hthird : n % 256 = c.toNat := by omega
    have hpad : digit (n % 64) ≠ '=' := digit_ne_pad (by omega)
    rw [decodeChars_group hpad, hgroup, ih]
    change some (UInt8.ofNat (n / 65536) :: UInt8.ofNat (n / 256 % 256) :: UInt8.ofNat (n % 256) ::
      rest) = some (a :: b :: c :: rest)
    rw [hfirst, hsecond, hthird, UInt8.ofNat_toNat, UInt8.ofNat_toNat, UInt8.ofNat_toNat]

theorem encodeBytes_of_decodeChars {cs : List Char} {data : List UInt8}
    (h : decodeChars cs = some data) : encodeBytes data = cs := by
  fun_induction decodeChars cs generalizing data with
  | case1 => exact Option.some.inj h ▸ rfl
  | case2 a b =>
    obtain ⟨n, hgroup, h⟩ := Option.bind_eq_some_iff.1 h
    obtain ⟨hn, hdigits⟩ := groupValue_two_iff.1 hgroup
    split at h
    · rename_i hzero
      obtain rfl := Option.some.inj h
      have hbyte : (UInt8.ofNat (n / 16)).toNat = n / 16 :=
        UInt8.toNat_ofNat_of_lt' (show n / 16 < 256 by omega)
      have hbits : n / 16 * 16 = n := by omega
      rw [encodeBytes, hbyte, hbits]
      exact congrArg (fun digits => digits ++ ['=', '=']) hdigits.symm
    · nomatch h
  | case3 a b c =>
    obtain ⟨n, hgroup, h⟩ := Option.bind_eq_some_iff.1 h
    obtain ⟨hn, hdigits⟩ := groupValue_three_iff.1 hgroup
    split at h
    · rename_i hzero
      obtain rfl := Option.some.inj h
      have hfirst : (UInt8.ofNat (n / 1024)).toNat = n / 1024 :=
        UInt8.toNat_ofNat_of_lt' (show n / 1024 < 256 by omega)
      have hsecond : (UInt8.ofNat (n / 4 % 256)).toNat = n / 4 % 256 :=
        UInt8.toNat_ofNat_of_lt' (Nat.mod_lt _ (by decide))
      have hbits : (n / 1024 * 256 + n / 4 % 256) * 4 = n := by omega
      rw [encodeBytes, hfirst, hsecond, hbits]
      exact congrArg (fun digits => digits ++ ['=']) hdigits.symm
    · nomatch h
  | case4 a b c d rest _ _ ih =>
    obtain ⟨n, hgroup, h⟩ := Option.bind_eq_some_iff.1 h
    obtain ⟨bytes, hrest, h⟩ := Option.bind_eq_some_iff.1 h
    obtain ⟨hn, hdigits⟩ := groupValue_four_iff.1 hgroup
    obtain rfl := Option.some.inj h
    have hfirst : (UInt8.ofNat (n / 65536)).toNat = n / 65536 :=
      UInt8.toNat_ofNat_of_lt' (show n / 65536 < 256 by omega)
    have hsecond : (UInt8.ofNat (n / 256 % 256)).toNat = n / 256 % 256 :=
      UInt8.toNat_ofNat_of_lt' (Nat.mod_lt _ (by decide))
    have hthird : (UInt8.ofNat (n % 256)).toNat = n % 256 :=
      UInt8.toNat_ofNat_of_lt' (Nat.mod_lt _ (by decide))
    have hbits : (n / 65536 * 256 + n / 256 % 256) * 256 + n % 256 = n := by omega
    rw [encodeBytes, hfirst, hsecond, hthird, hbits, ih hrest]
    exact congrArg (fun digits => digits ++ rest) hdigits.symm
  | case5 => nomatch h

/-- A text is read as some bytes exactly if it is their written form. -/
theorem decode_eq_some_iff {text : String} {data : List UInt8} :
    decode text = some data ↔ text = encode data := by
  constructor
  · intro h
    rw [encode, encodeBytes_of_decodeChars h, String.ofList_toList]
  · rintro rfl
    rw [decode, encode, String.toList_ofList, decodeChars_encodeBytes]

end Base64

end PropTree
