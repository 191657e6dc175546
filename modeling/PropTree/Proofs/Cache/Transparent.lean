import PropTree.Cache.Settings
import PropTree.Proofs.Cache.Calls
import PropTree.Proofs.Cache.Eviction
import PropTree.Proofs.Cache.OverLocks

set_option autoImplicit false

/-!
# Counting and blocking are transparent

A client is disciplined if it puts or removes every key that it looked up in vain
before it looks it up again, and removes no other key. The locked keys are then
those that it still owes, and these are not in the store.
-/

namespace PropTree

/-! ### Discipline -/

namespace CacheCall

def owedAfter (owed : List ContentKey) :
    CacheCall → Except CacheError (Option Value) → List ContentKey
  | .get key, .ok none => key :: owed
  | .get _, _ => owed
  | .put key _, _ => owed.filter (· ≠ key)
  | .remove key, _ => owed.filter (· ≠ key)
  | .clear, _ => owed

def Allowed (owed : List ContentKey) : CacheCall → Prop
  | .get key => key ∉ owed
  | .remove key => key ∈ owed
  | .put _ _ => True
  | .clear => True

instance (owed : List ContentKey) (c : CacheCall) : Decidable (c.Allowed owed) :=
  match c with
  | .get key => inferInstanceAs (Decidable (key ∉ owed))
  | .remove key => inferInstanceAs (Decidable (key ∈ owed))
  | .put _ _ => .isTrue trivial
  | .clear => .isTrue trivial

end CacheCall

namespace Provider

variable {σ τ ω : Type}

def Disciplined (d : Provider σ) (owed : List ContentKey) (s : σ) : List CacheCall → Prop
  | [] => True
  | c :: rest =>
    c.Allowed owed ∧ d.Disciplined (c.owedAfter owed (d.call s c).2) (d.call s c).1 rest

instance decidableDisciplined (d : Provider σ) :
    (owed : List ContentKey) → (s : σ) → (calls : List CacheCall) →
      Decidable (d.Disciplined owed s calls)
  | _, _, [] => .isTrue trivial
  | owed, s, c :: rest =>
    have := decidableDisciplined d (c.owedAfter owed (d.call s c).2) (d.call s c).1 rest
    inferInstanceAs (Decidable (_ ∧ _))

def trace (d : Provider σ) (s : σ) : List CacheCall → List (Except CacheError (Option Value) × Nat)
  | [] => []
  | c :: rest =>
    let o := d.call s c
    (o.2, d.size o.1) :: d.trace o.1 rest

theorem Lawful.call {d : Provider σ} {Good : σ → Prop} {find : σ → ContentKey → Option Value}
    (h : d.Lawful Good find) {owed : List ContentKey} {s : σ} {c : CacheCall} (hs : Good s)
    (howed : ∀ key ∈ owed, find s key = none) (hc : c.Allowed owed) :
    ∃ s' v, d.call s c = (s', .ok v) ∧ Good s' ∧
      ∀ key ∈ c.owedAfter owed (.ok v), find s' key = none := by
  cases c with
  | get key =>
    obtain ⟨s', hget, hgood, hfind⟩ := h.get s key hs
    refine ⟨s', _, hget, hgood, fun other hother => ?_⟩
    rw [hfind]
    cases hkey : find s key with
    | none =>
      rw [hkey] at hother
      rcases List.mem_cons.1 hother with rfl | hother
      · exact hkey
      · exact howed other hother
    | some v =>
      rw [hkey] at hother
      exact howed other hother
  | put key v =>
    obtain ⟨s', hput, hgood, hfind⟩ := h.put s key v hs
    refine ⟨s', none, ?_, hgood, fun other hother => ?_⟩
    · rw [Provider.call, hput]
      rfl
    · obtain ⟨hother, hne⟩ := List.mem_filter.1 hother
      exact hfind other (of_decide_eq_true hne) (howed other hother)
  | remove key =>
    refine ⟨s, none, h.remove s key hs (howed key hc), hs, fun other hother => ?_⟩
    exact howed other (List.mem_filter.1 hother).1
  | clear =>
    obtain ⟨s', hclear, hgood, hfind⟩ := h.clear s hs
    refine ⟨s', none, ?_, hgood, fun other _ => hfind other⟩
    rw [Provider.call, hclear]
    rfl

theorem Lawful.trace {d : Provider σ} {Good : σ → Prop} {find : σ → ContentKey → Option Value}
    (h : d.Lawful Good find) {owed : List ContentKey} {s : σ} {calls : List CacheCall} (hs : Good s)
    (howed : ∀ key ∈ owed, find s key = none) (hcalls : d.Disciplined owed s calls) :
    ∀ seen ∈ d.trace s calls, (∃ v, seen.1 = .ok v) ∧ ∃ s', Good s' ∧ seen.2 = d.size s' := by
  induction calls generalizing owed s with
  | nil => exact fun _ hseen => nomatch hseen
  | cons c rest ih =>
    obtain ⟨hc, hrest⟩ := hcalls
    obtain ⟨s', v, hcall, hgood, howed'⟩ := h.call hs howed hc
    rw [hcall] at hrest
    intro seen hseen
    rw [Provider.trace, hcall] at hseen
    rcases List.mem_cons.1 hseen with rfl | hseen
    · exact ⟨⟨v, rfl⟩, s', hgood, rfl⟩
    · exact ih hgood howed' hrest seen hseen

/-! ### Layers that pass on what they are asked -/

/-- A cache that does to the core of its state what `e` does, and answers as
`e` does. -/
structure Mirrors (d : Provider τ) (e : Provider σ) (core : τ → σ) : Prop where
  state : ∀ s c, core (d.call s c).1 = (e.call (core s) c).1
  answer : ∀ s c, (d.call s c).2 = (e.call (core s) c).2
  size : ∀ s, d.size s = e.size (core s)

variable {d : Provider τ} {e : Provider σ} {core : τ → σ}

theorem Mirrors.above (h : d.Mirrors e core) {layer : Provider (ω × τ)}
    (hcall : ∀ s c, ∃ own, layer.call s c = beside own (d.call s.2 c))
    (hsize : ∀ s, layer.size s = d.size s.2) : layer.Mirrors e fun s => core s.2 where
  state s c := by
    obtain ⟨own, hown⟩ := hcall s c
    rw [hown]
    exact h.state s.2 c
  answer s c := by
    obtain ⟨own, hown⟩ := hcall s c
    rw [hown]
    exact h.answer s.2 c
  size s := (hsize s).trans (h.size s.2)

theorem Mirrors.passing (h : d.Mirrors e core) :
    (d.passing (ω := ω)).Mirrors e fun s => core s.2 := by
  refine h.above (fun s c => ⟨s.1, ?_⟩) fun _ => rfl
  cases c <;> rfl

theorem Mirrors.counted (h : d.Mirrors e core) :
    (Hits.provider d).Mirrors e fun s => core s.2 := by
  refine h.above (fun s c => ?_) fun _ => rfl
  cases c with
  | get key =>
    change ∃ own, Hits.get d s key = beside own (d.get s.2 key)
    unfold Hits.get
    obtain ⟨below, _ | _ | v⟩ := d.get s.2 key <;> exact ⟨_, rfl⟩
  | put key v => exact ⟨s.1, rfl⟩
  | remove key => exact ⟨s.1, rfl⟩
  | clear => exact ⟨s.1, rfl⟩

theorem Mirrors.trace (h : d.Mirrors e core) (s : τ) (calls : List CacheCall) :
    d.trace s calls = e.trace (core s) calls := by
  induction calls generalizing s with
  | nil => rfl
  | cons c rest ih => rw [Provider.trace, Provider.trace, ih, h.size, h.state, h.answer]

theorem Mirrors.disciplined (h : d.Mirrors e core) {owed : List ContentKey} {s : τ}
    {calls : List CacheCall} :
    d.Disciplined owed s calls ↔ e.Disciplined owed (core s) calls := by
  induction calls generalizing owed s with
  | nil => exact Iff.rfl
  | cons c rest ih => rw [Disciplined, Disciplined, ih, h.state, h.answer]

theorem Mirrors.counting (h : d.Mirrors e core) (counted : Option Unit) :
    (optionally (fun (_ : Unit) d => Hits.provider d) counted d).Mirrors e fun s => core s.2 := by
  cases counted with
  | none => exact h.passing
  | some _ => exact h.counted

end Provider

/-! ### Eviction -/

/-- Whatever table the layer works with, it does to the list that the table
stands for what the layer with just that list does. -/
theorem Lru.mirrors {σ ρ : Type} {capacity : Capacity} {table : RecencyTable ρ}
    {keys : ρ → List ContentKey} (h : table.Keeps capacity keys) (d : Provider σ) :
    (layer table d).Mirrors (layer (Recency.table capacity) d) fun s => (keys s.1, s.2) := by
  have hput (s : ρ × σ) (key : ContentKey) (v : Value) :
      (keys (put table d s key v).1.1, (put table d s key v).1.2) =
          (put (Recency.table capacity) d (keys s.1, s.2) key v).1 ∧
        (put table d s key v).2 = (put (Recency.table capacity) d (keys s.1, s.2) key v).2 := by
    obtain ⟨hkeys, hdriven⟩ := h.push key s.1
    unfold put
    cases d.put s.2 key v with
    | mk below outcome =>
      cases outcome with
      | error e => exact ⟨rfl, rfl⟩
      | ok _ =>
        simp only [hdriven, Recency.table]
        split
        · exact ⟨congrArg (·, below) hkeys, rfl⟩
        · cases d.remove below _ with
          | mk below' removed => cases removed <;> exact ⟨congrArg (·, below') hkeys, rfl⟩
  refine ⟨fun s c => ?_, fun s c => ?_, fun _ => rfl⟩
  · cases c with
    | get key => exact congrArg (·, (d.get s.2 key).1) (h.touch key s.1)
    | put key v => exact (hput s key v).1
    | remove key => exact congrArg (·, (d.remove s.2 key).1) (h.drop key s.1)
    | clear => exact congrArg (·, (d.clear s.2).1) (h.clear s.1)
  · cases c with
    | put key v => exact congrArg (Except.map fun _ => none) (hput s key v).2
    | get key => rfl
    | remove key => rfl
    | clear => rfl

/-! ### Locks -/

namespace Locks

variable {σ τ : Type} {d : Provider τ} {e : Provider σ} {core : τ → σ}

/-- The layer of locks keeps just the keys that the client owes. -/
theorem call_allowed (h : d.Mirrors e core) (timeout : Option Nat) {owed : List ContentKey} {s : τ}
    {c : CacheCall} (hc : c.Allowed owed)
    (hremove : ∀ key ∈ owed, e.remove (core s) key = (core s, .ok none)) :
    ∃ s', (provider timeout d).call (owed, s) c =
        ((c.owedAfter owed (e.call (core s) c).2, s'), (e.call (core s) c).2) ∧
      core s' = (e.call (core s) c).1 := by
  have hstate := h.state s c
  have hanswer := h.answer s c
  cases c with
  | get key =>
    change core (d.get s key).1 = _ at hstate
    change (d.get s key).2 = _ at hanswer
    refine ⟨(d.get s key).1, ?_, hstate⟩
    rw [← hanswer]
    change get timeout d (owed, s) key = _
    rcases get_cases timeout d owed s key with ⟨hlocked, _⟩ | ⟨_, hmiss, hget⟩ | ⟨_, hfound, hget⟩
    · exact absurd hlocked hc
    · rw [hget, hmiss]
      rfl
    · rw [hget]
      generalize (d.get s key).2 = found at hfound
      rcases found with _ | _ | v
      · rfl
      · exact absurd rfl hfound
      · rfl
  | put key v =>
    refine ⟨(d.put s key v).1, ?_, hstate⟩
    rw [← hanswer]
    rfl
  | remove key =>
    -- the locks do not pass a remove on, and below it would take out nothing
    have hsame : e.call (core s) (.remove key) = (core s, .ok none) := hremove key hc
    refine ⟨s, ?_, ?_⟩
    · rw [hsame]
      rfl
    · rw [hsame]
  | clear =>
    refine ⟨(d.clear s).1, ?_, hstate⟩
    rw [← hanswer]
    rfl

variable {Good : σ → Prop} {find : σ → ContentKey → Option Value}

theorem trace_disciplined (h : d.Mirrors e core) (he : e.Lawful Good find) (timeout : Option Nat)
    {owed : List ContentKey} {s : τ} {calls : List CacheCall} (hs : Good (core s))
    (howed : ∀ key ∈ owed, find (core s) key = none)
    (hcalls : (provider timeout d).Disciplined owed (owed, s) calls) :
    (provider timeout d).trace (owed, s) calls = e.trace (core s) calls ∧
      e.Disciplined owed (core s) calls := by
  induction calls generalizing owed s with
  | nil => exact ⟨rfl, trivial⟩
  | cons c rest ih =>
    obtain ⟨hc, hrest⟩ := hcalls
    have hremove : ∀ key ∈ owed, e.remove (core s) key = (core s, .ok none) :=
      fun key hkey => he.remove (core s) key hs (howed key hkey)
    obtain ⟨s', hcall, hs'⟩ := call_allowed h timeout hc hremove
    obtain ⟨t, v, hbelow, hgood, howed'⟩ := he.call hs howed hc
    rw [hbelow] at hcall hs'
    rw [hcall] at hrest
    obtain rfl : core s' = t := hs'
    obtain ⟨htrace, hdisciplined⟩ := ih hgood howed' hrest
    have hsize : (provider timeout d).size (c.owedAfter owed (.ok v), s') = e.size (core s') :=
      h.size s'
    rw [Provider.trace, Provider.trace, Provider.Disciplined, hcall, hbelow, hsize, htrace]
    exact ⟨rfl, hc, hdisciplined⟩

end Locks

/-! ### Caches built from settings -/

namespace Settings

/-- Logging and blocking switched off, and with the latter its timeout, which
no settings have that do not block. -/
def plain (s : Settings) : Settings :=
  { s with logging := false, blocking := false, timeoutMs := none }

def core (id : String) (capacity : Option Capacity) : Provider (List ContentKey × Store) :=
  Provider.optionally (fun c => Lru.layer (Recency.table c)) capacity (Store.provider id)

def Good : Option Capacity → List ContentKey × Store → Prop
  | none, s => s.2.Distinct
  | some capacity, s => Lru.Kept capacity s

theorem lawful_core (id : String) (capacity : Option Capacity) :
    (core id capacity).Lawful (Good capacity) fun s => s.2.get? := by
  cases capacity with
  | none => exact (Store.lawful id).passing
  | some capacity => exact Lru.lawful capacity id

theorem good_empty (capacity : Option Capacity) : Good capacity ([], .empty) := by
  cases capacity with
  | none => exact Store.distinct_empty
  | some capacity => exact Lru.kept_empty capacity

variable {ρ : Type} {tables : Capacity → RecencyTable ρ} {keys : ρ → List ContentKey} {recent : ρ}
  {capacity : Option Capacity}

theorem mirrors_core (htables : ∀ c, capacity = some c → (tables c).Keeps c keys) (id : String) :
    (Provider.optionally (fun c => Lru.layer (tables c)) capacity (Store.provider id)).Mirrors
      (core id capacity) fun s => (keys s.1, s.2) := by
  cases capacity with
  | none =>
    refine ⟨fun s c => ?_, fun s c => ?_, fun _ => rfl⟩ <;> cases c <;> rfl
  | some c => exact Lru.mirrors (htables c rfl) (Store.provider id)

theorem stack_trace (htables : ∀ c, capacity = some c → (tables c).Keeps c keys)
    (hrecent : keys recent = []) (id : String) (s : Settings) {calls : List CacheCall}
    (hcalls : (s.stack tables id capacity).Disciplined [] (initial recent) calls) :
    (s.stack tables id capacity).trace (initial recent) calls =
        (core id capacity).trace ([], .empty) calls ∧
      (core id capacity).Disciplined [] ([], .empty) calls := by
  have hcounting := (mirrors_core htables id).counting (if s.logging then some () else none)
  have hstart : (keys recent, Store.empty) = ([], .empty) := congrArg (·, Store.empty) hrecent
  unfold stack at *
  rw [← hstart]
  cases hblocking : s.blocking with
  | false =>
    rw [hblocking] at hcalls
    have hmirrors := hcounting.passing (ω := List ContentKey)
    exact ⟨hmirrors.trace (initial recent) calls, hmirrors.disciplined.1 hcalls⟩
  | true =>
    rw [hblocking] at hcalls
    have hgood : Good capacity (keys recent, .empty) := hstart ▸ good_empty capacity
    exact Locks.trace_disciplined hcounting (lawful_core id capacity) s.timeoutMs hgood
      (fun _ hkey => nomatch hkey) hcalls

theorem stack_size (tables : Capacity → RecencyTable ρ) (id : String) (capacity : Option Capacity)
    (s s' : Settings) (x : StackState ρ) :
    (s.stack tables id capacity).size x = (s'.stack tables id capacity).size x := by
  unfold stack
  cases s.logging <;> cases s.blocking <;> cases s'.logging <;> cases s'.blocking <;> rfl

theorem size_pos_of_validate {s : Settings} (hs : s.validate = .ok ())
    (heviction : s.eviction = .lru) : 0 < s.size := by
  refine Nat.pos_of_ne_zero fun hzero => ?_
  rw [validate, if_pos ⟨heviction, hzero⟩] at hs
  nomatch hs

theorem validate_plain {s : Settings} (hs : s.validate = .ok ()) : s.plain.validate = .ok () := by
  have hsize : ¬(s.plain.eviction = .lru ∧ s.plain.size = 0) :=
    fun h => Nat.ne_of_gt (size_pos_of_validate hs h.1) h.2
  rw [validate, if_neg hsize]
  rfl

theorem capacity?_eq {s : Settings} (hs : s.validate = .ok ()) :
    ∃ capacity, s.capacity? = .ok capacity ∧
      (s.eviction = .lru → ∃ c, capacity = some c ∧ c.val = s.size) := by
  cases heviction : s.eviction with
  | lru =>
    have hpos := size_pos_of_validate hs heviction
    refine ⟨some ⟨s.size, hpos⟩, ?_, fun _ => ⟨_, rfl, rfl⟩⟩
    rw [capacity?, heviction]
    simp only [Capacity.ofNat, hpos, dif_pos]
    rfl
  | unbounded => exact ⟨none, by rw [capacity?, heviction], nofun⟩

theorem build_eq (tables : Capacity → RecencyTable ρ) {id : String} {s : Settings}
    (hid : id ≠ "") (hs : s.validate = .ok ()) (hcapacity : s.capacity? = .ok capacity) :
    s.build tables id = .ok (s.stack tables id capacity) := by
  have hempty : id.isEmpty = false := by simpa using hid
  rw [build, hempty, hs, hcapacity]
  rfl

/-- A disciplined client of a cache gets the answers and sizes that it would get
without logging and blocking, and all its calls succeed: none waits for a key.
With eviction the cache never holds more than its settings say, whatever table
of the capacity they ask for it is built with. -/
theorem build_transparent {id : String} {s : Settings} (hid : id ≠ "")
    (hs : s.validate = .ok ())
    (htables : ∀ c, s.capacity? = .ok (some c) → (tables c).Keeps c keys)
    (hrecent : keys recent = []) :
    ∃ built unwrapped, s.build tables id = .ok built ∧ s.plain.build tables id = .ok unwrapped ∧
      built.size (initial recent) = unwrapped.size (initial recent) ∧
      ∀ calls, built.Disciplined [] (initial recent) calls →
        built.trace (initial recent) calls = unwrapped.trace (initial recent) calls ∧
        ∀ seen ∈ built.trace (initial recent) calls, (∃ v, seen.1 = .ok v) ∧
          (s.eviction = .lru → seen.2 ≤ s.size) := by
  obtain ⟨capacity, hcapacity, hlru⟩ := capacity?_eq hs
  have htable : ∀ c, capacity = some c → (tables c).Keeps c keys := by
    rintro c rfl
    exact htables c hcapacity
  have hunwrapped : (s.plain.stack tables id capacity).Mirrors (core id capacity)
      fun x => (keys x.2.2.1, x.2.2.2) := (mirrors_core htable id).passing.passing
  refine ⟨_, _, build_eq tables hid hs hcapacity, build_eq tables hid (validate_plain hs) hcapacity,
    stack_size tables id capacity s s.plain _, fun calls hcalls => ?_⟩
  obtain ⟨htrace, hdisciplined⟩ := stack_trace htable hrecent id s hcalls
  have hplain : (s.plain.stack tables id capacity).trace (initial recent) calls =
      (core id capacity).trace (keys recent, .empty) calls := hunwrapped.trace _ calls
  rw [hrecent] at hplain
  refine ⟨htrace.trans hplain.symm, fun seen hseen => ?_⟩
  have hnone : ∀ key ∈ ([] : List ContentKey), Store.empty.get? key = none :=
    fun _ hkey => nomatch hkey
  rw [htrace] at hseen
  obtain ⟨hok, x, hgood, hx⟩ :=
    (lawful_core id capacity).trace (good_empty capacity) hnone hdisciplined seen hseen
  refine ⟨hok, fun heviction => ?_⟩
  obtain ⟨c, hc, hval⟩ := hlru heviction
  subst hc
  rw [hx, ← hval]
  exact Lru.Kept.size_le hgood

theorem build_transparent_names :
    let s : Settings := { size := 1, blocking := true, timeoutMs := some 5 }
    let a : ContentKey := Key.ofList [.string "a"]
    let b : ContentKey := Key.ofList [.string "b"]
    let calls : List CacheCall := [.put a (.integer 1), .get b, .get a, .put b (.integer 2), .get a,
      .get b, .clear, .remove a, .get a]
    ∃ built unwrapped, s.build Recency.table "names" = .ok built ∧
      s.plain.build Recency.table "names" = .ok unwrapped ∧
      built.trace (initial []) calls = unwrapped.trace (initial []) calls ∧
      (∀ seen ∈ built.trace (initial []) calls, (∃ v, seen.1 = .ok v) ∧ seen.2 ≤ 1) ∧
      built.trace (initial []) calls = [(.ok none, 1), (.ok none, 1),
        (.ok (some (.integer 1)), 1), (.ok none, 1), (.ok none, 1), (.ok (some (.integer 2)), 1),
        (.ok none, 0), (.ok none, 0), (.ok none, 0)] := by
  intro s a b calls
  obtain ⟨built, unwrapped, hbuilt, hunwrapped, _, h⟩ :=
    @build_transparent _ Recency.table id [] "names" s (by decide) (by decide)
      (fun c _ => Recency.table_keeps c) rfl
  have hstack : s.build Recency.table "names" =
      .ok (s.stack Recency.table "names" (some ⟨1, by decide⟩)) := rfl
  obtain rfl := Except.ok.inj (hbuilt.symm.trans hstack)
  obtain ⟨htrace, hall⟩ := h calls (by decide)
  exact ⟨_, unwrapped, hbuilt, hunwrapped, htrace,
    fun seen hseen => ⟨(hall seen hseen).1, (hall seen hseen).2 rfl⟩, by decide⟩

end Settings

end PropTree
