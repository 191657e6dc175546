import Mathlib.Data.List.Nodup
import PropTree.Cache.Directory
import PropTree.Cache.Rack

set_option autoImplicit false

/-!
# One cache for each id

A call is cut behind the lookup that finds nothing; what then looks again, builds
and enters the cache is one step.
-/

namespace PropTree

namespace CacheDirectory

structure Demand (σ γ : Type) where
  id : String
  build : σ → σ × Except CacheError γ

inductive Stage (γ : Type) where
  | started
  | missed
  | answered (answer : Except CacheError γ)
deriving DecidableEq, Repr

/-- The directory, the state of the caches and all clients. `builds` has every
build that ran, with the client it ran for and what it gave. -/
structure World (ι σ γ : Type) where
  directory : CacheDirectory γ
  below : σ
  builds : List (ι × Except CacheError γ)
  stage : ι → Stage γ

variable {ι σ γ : Type}

def Demand.noted (r : Demand σ γ) (i : ι) (s : σ × List (ι × Except CacheError γ)) :
    (σ × List (ι × Except CacheError γ)) × Except CacheError γ :=
  let o := r.build s.1
  ((o.1, s.2 ++ [(i, o.2)]), o.2)

def World.start (directory : CacheDirectory γ) (s : σ) : World ι σ γ :=
  ⟨directory, s, [], fun _ => .started⟩

variable {idOf : σ → γ → String} {demand : ι → Demand σ γ} {w w' w'' : World ι σ γ} {i : ι}

/-- What no step undoes: an entry, and that there is one is enough for no build of
its id to run. -/
structure World.Grows (demand : ι → Demand σ γ) (w w' : World ι σ γ) : Prop where
  kept : ∀ id cache, w.directory.find? id = some cache → w'.directory.find? id = some cache
  builds : ∃ later, w'.builds = w.builds ++ later ∧
    ∀ built ∈ later, w.directory.find? (demand built.1).id = none

theorem World.Grows.refl (w : World ι σ γ) : w.Grows demand w where
  kept _ _ h := h
  builds := ⟨[], (List.append_nil _).symm, nofun⟩

theorem World.Grows.trans (h : w.Grows demand w') (h' : w'.Grows demand w'') :
    w.Grows demand w'' where
  kept id cache hcache := h'.kept id cache (h.kept id cache hcache)
  builds := by
    obtain ⟨later, hlater, hmissing⟩ := h.builds
    obtain ⟨last, hlast, hmissing'⟩ := h'.builds
    refine ⟨later ++ last, by rw [hlast, hlater, List.append_assoc], fun built hbuilt => ?_⟩
    rcases List.mem_append.1 hbuilt with hbuilt | hbuilt
    · exact hmissing built hbuilt
    · -- an id that is missing later was missing before
      cases hfind : w.directory.find? (demand built.1).id with
      | none => rfl
      | some cache =>
        have hkept := h.kept _ cache hfind
        rw [hmissing' built hbuilt] at hkept
        nomatch hkept

/-! ### Steps -/

variable [DecidableEq ι]

def World.step (idOf : σ → γ → String) (demand : ι → Demand σ γ) (w : World ι σ γ) (i : ι) :
    World ι σ γ :=
  match w.stage i with
  | .started =>
    match w.directory.find? (demand i).id with
    | some cache => { w with stage := Function.update w.stage i (.answered (.ok cache)) }
    | none => { w with stage := Function.update w.stage i .missed }
  | .missed =>
    let o := createMissing (fun s => idOf s.1) (w.directory, w.below, w.builds) (demand i).id
      ((demand i).noted i)
    ⟨o.1.1, o.1.2.1, o.1.2.2, Function.update w.stage i (.answered o.2)⟩
  | .answered _ => w

def World.run (idOf : σ → γ → String) (demand : ι → Demand σ γ) (w : World ι σ γ)
    (schedule : List ι) : World ι σ γ :=
  schedule.foldl (World.step idOf demand) w

inductive World.Change (idOf : σ → γ → String) (r : Demand σ γ) (i : ι) (w : World ι σ γ) :
    World ι σ γ → Prop
  | rest {answer : Except CacheError γ} (done : w.stage i = .answered answer) : Change idOf r i w w
  | miss (absent : w.directory.find? r.id = none) :
    Change idOf r i w { w with stage := Function.update w.stage i .missed }
  | find {cache : γ} (found : w.directory.find? r.id = some cache) :
    Change idOf r i w { w with stage := Function.update w.stage i (.answered (.ok cache)) }
  | fail {e : CacheError} (absent : w.directory.find? r.id = none)
    (built : (r.build w.below).2 = .error e) :
    Change idOf r i w ⟨w.directory, (r.build w.below).1, w.builds ++ [(i, .error e)],
      Function.update w.stage i (.answered (.error e))⟩
  | misname {cache : γ} (absent : w.directory.find? r.id = none)
    (built : (r.build w.below).2 = .ok cache) (other : idOf (r.build w.below).1 cache ≠ r.id) :
    Change idOf r i w ⟨w.directory, (r.build w.below).1, w.builds ++ [(i, .ok cache)],
      Function.update w.stage i (.answered (.error (.construction r.id
        (.misnamed (idOf (r.build w.below).1 cache)))))⟩
  | enter {cache : γ} (absent : w.directory.find? r.id = none)
    (built : (r.build w.below).2 = .ok cache) (named : idOf (r.build w.below).1 cache = r.id) :
    Change idOf r i w ⟨⟨w.directory.caches.insert r.id cache⟩, (r.build w.below).1,
      w.builds ++ [(i, .ok cache)], Function.update w.stage i (.answered (.ok cache))⟩

theorem World.change_step (idOf : σ → γ → String) (demand : ι → Demand σ γ) (w : World ι σ γ)
    (i : ι) : Change idOf (demand i) i w (w.step idOf demand i) := by
  unfold step
  cases hstage : w.stage i with
  | answered answer => exact .rest hstage
  | started =>
    dsimp only
    cases hfind : w.directory.find? (demand i).id with
    | none => exact .miss hfind
    | some cache => exact .find hfind
  | missed =>
    dsimp only
    unfold createMissing Demand.noted
    dsimp only
    cases hfind : w.directory.find? (demand i).id with
    | some cache => exact .find hfind
    | none =>
      dsimp only
      cases hbuilt : ((demand i).build w.below).2 with
      | error e => exact .fail hfind hbuilt
      | ok cache =>
        dsimp only
        by_cases hname : idOf ((demand i).build w.below).1 cache = (demand i).id
        · rw [if_pos hname]
          exact .enter hfind hbuilt hname
        · rw [if_neg hname]
          exact .misname hfind hbuilt hname

/-- A call between whose steps nobody comes in does what `getOrCreate` does. -/
theorem getOrCreate_eq_steps (h : w.stage i = .started) :
    ∃ answer, ((w.step idOf demand i).step idOf demand i).stage i = .answered answer ∧
      getOrCreate idOf (w.directory, w.below) (demand i).id (demand i).build =
        ((((w.step idOf demand i).step idOf demand i).directory,
          ((w.step idOf demand i).step idOf demand i).below), answer) := by
  unfold World.step getOrCreate createMissing Demand.noted
  simp only [h]
  cases hfind : w.directory.find? (demand i).id with
  | some cache => simp
  | none =>
    cases hbuilt : (demand i).build w.below with
    | mk below result =>
      cases result with
      | error e => simp [hfind]
      | ok cache =>
        by_cases hname : idOf below cache = (demand i).id <;> simp [hfind, hname]

theorem find?_insert (directory : CacheDirectory γ) (id other : String) (cache : γ) :
    find? ⟨directory.caches.insert id cache⟩ other =
      if other = id then some cache else directory.find? other :=
  Assoc.get?_insert directory.caches id other cache

theorem World.Change.grows (h : Change idOf (demand i) i w w') : w.Grows demand w' := by
  have hone : ∀ (result : Except CacheError γ) built, built ∈ [(i, result)] →
      w.directory.find? (demand i).id = none → w.directory.find? (demand built.1).id = none := by
    intro result built hbuilt habsent
    obtain rfl := List.mem_singleton.1 hbuilt
    exact habsent
  cases h with
  | rest done => exact .refl w
  | miss absent | find found => exact ⟨fun _ _ h => h, [], (List.append_nil _).symm, nofun⟩
  | fail absent built | misname absent built other =>
    exact ⟨fun _ _ h => h, _, rfl, fun built hbuilt => hone _ built hbuilt absent⟩
  | enter absent built named =>
    refine ⟨fun id cache hcache => ?_, _, rfl, fun built hbuilt => hone _ built hbuilt absent⟩
    have hne : id ≠ (demand i).id := by
      rintro rfl
      rw [absent] at hcache
      nomatch hcache
    rw [find?_insert, if_neg hne]
    exact hcache

theorem World.grows_run (w : World ι σ γ) (schedule : List ι) :
    w.Grows demand (w.run idOf demand schedule) := by
  induction schedule generalizing w with
  | nil => exact .refl w
  | cons i rest ih => exact (change_step idOf demand w i).grows.trans (ih _)

/-! ### Whose cache a client gets -/

/-- A build makes a cache or fails. Which caches are made already, and what
their ids are, it leaves as it is. -/
structure Demand.Builds (idOf : σ → γ → String) (Made : σ → γ → Prop) (r : Demand σ γ) : Prop where
  makes : ∀ s cache, (r.build s).2 = .ok cache → Made (r.build s).1 cache
  keeps : ∀ s cache, Made s cache →
    Made (r.build s).1 cache ∧ idOf (r.build s).1 cache = idOf s cache

/-- Every cache in the directory is one that was made, under its own id. -/
def Named (idOf : σ → γ → String) (Made : σ → γ → Prop) (directory : CacheDirectory γ) (s : σ) :
    Prop :=
  ∀ id cache, directory.find? id = some cache → Made s cache ∧ idOf s cache = id

structure World.Sound (idOf : σ → γ → String) (Made : σ → γ → Prop) (demand : ι → Demand σ γ)
    (w : World ι σ γ) : Prop where
  named : w.directory.Named idOf Made w.below
  answered : ∀ i cache, w.stage i = .answered (.ok cache) →
    w.directory.find? (demand i).id = some cache

variable {Made : σ → γ → Prop}

theorem Named.build {directory : CacheDirectory γ} {s : σ} {r : Demand σ γ}
    (h : directory.Named idOf Made s) (hr : r.Builds idOf Made) :
    directory.Named idOf Made (r.build s).1 := by
  intro id cache hcache
  obtain ⟨hmade, hid⟩ := h id cache hcache
  obtain ⟨hmade', hid'⟩ := hr.keeps s cache hmade
  exact ⟨hmade', hid'.trans hid⟩

theorem World.Change.named (h : Change idOf (demand i) i w w') (hr : (demand i).Builds idOf Made)
    (hw : w.directory.Named idOf Made w.below) : w'.directory.Named idOf Made w'.below := by
  cases h with
  | rest done => exact hw
  | miss absent => exact hw
  | find found => exact hw
  | fail absent built => exact hw.build hr
  | misname absent built other => exact hw.build hr
  | enter absent built named =>
    intro id cache hcache
    rw [find?_insert] at hcache
    split at hcache
    · rename_i hid
      obtain rfl := Option.some.inj hcache
      exact ⟨hr.makes _ _ built, named.trans hid.symm⟩
    · exact hw.build hr id cache hcache

theorem World.Change.answered (h : Change idOf (demand i) i w w') {j : ι} {cache : γ}
    (hj : w'.stage j = .answered (.ok cache)) :
    w.stage j = .answered (.ok cache) ∨ w'.directory.find? (demand j).id = some cache := by
  by_cases hji : j = i
  · subst hji
    cases h with
    | rest done => exact .inl hj
    | miss absent => simp at hj
    | fail absent built => simp at hj
    | misname absent built other => simp at hj
    | @find held found =>
      have hnow : Function.update w.stage j (.answered (.ok held)) j = .answered (.ok cache) := hj
      rw [Function.update_self] at hnow
      obtain rfl := Except.ok.inj (Stage.answered.inj hnow)
      exact .inr found
    | @enter entered absent built named =>
      have hnow : Function.update w.stage j (.answered (.ok entered)) j = .answered (.ok cache) :=
        hj
      rw [Function.update_self] at hnow
      obtain rfl := Except.ok.inj (Stage.answered.inj hnow)
      exact .inr (by rw [find?_insert, if_pos rfl])
  · cases h <;> exact .inl (by simpa [Function.update_of_ne hji] using hj)

theorem World.Sound.step (hw : w.Sound idOf Made demand)
    (hbuilds : ∀ i, (demand i).Builds idOf Made) (i : ι) :
    (w.step idOf demand i).Sound idOf Made demand := by
  have hchange := change_step idOf demand w i
  refine ⟨hchange.named (hbuilds i) hw.named, fun j cache hj => ?_⟩
  rcases hchange.answered hj with hbefore | hnow
  · exact hchange.grows.kept _ cache (hw.answered j cache hbefore)
  · exact hnow

theorem World.Sound.run (hw : w.Sound idOf Made demand)
    (hbuilds : ∀ i, (demand i).Builds idOf Made) (schedule : List ι) :
    (w.run idOf demand schedule).Sound idOf Made demand := by
  induction schedule generalizing w with
  | nil => exact hw
  | cons i rest ih => exact ih (hw.step hbuilds i)

theorem World.Change.of_failed (h : Change idOf (demand i) i w w') {e : CacheError}
    (hran : w'.builds = w.builds ++ [(i, .error e)]) :
    w'.directory = w.directory ∧ w'.stage i = .answered (.error e) := by
  cases h with
  | rest | miss | find => simp at hran
  | misname | enter => simp at hran
  | @fail e' absent built =>
    obtain rfl : e' = e := by simpa using hran
    exact ⟨rfl, Function.update_self ..⟩

theorem World.Change.of_misnamed (h : Change idOf (demand i) i w w') {cache : γ}
    (hran : w'.builds = w.builds ++ [(i, .ok cache)])
    (hother : idOf w'.below cache ≠ (demand i).id) :
    w'.directory = w.directory ∧ w'.stage i = .answered (.error (.construction (demand i).id
      (.misnamed (idOf w'.below cache)))) := by
  cases h with
  | rest | miss | find | fail => simp at hran
  | @misname other absent built named =>
    obtain rfl : other = cache := by simpa using hran
    exact ⟨rfl, Function.update_self ..⟩
  | @enter entered absent built named =>
    obtain rfl : entered = cache := by simpa using hran
    exact absurd named hother

/-- Whatever the order in which clients take their steps: all who got a cache for
an id got the same one, and it has that id. Nothing replaces or removes an entry
later, and no build runs for its id later. A build that fails, or that gives a
cache of another id, leaves the directory as it was, and its client gets its own
error. -/
theorem one_cache_per_id (hbuilds : ∀ i, (demand i).Builds idOf Made)
    {directory : CacheDirectory γ} {s : σ} (hstart : directory.Named idOf Made s)
    (schedule : List ι) :
    let w := (World.start directory s).run idOf demand schedule
    (∀ i j cache cache', (demand i).id = (demand j).id → w.stage i = .answered (.ok cache) →
      w.stage j = .answered (.ok cache') → cache = cache') ∧
    (∀ i cache, w.stage i = .answered (.ok cache) → idOf w.below cache = (demand i).id) ∧
    (∀ more, let w' := w.run idOf demand more
      (∀ id cache, w.directory.find? id = some cache → w'.directory.find? id = some cache) ∧
      ∃ later, w'.builds = w.builds ++ later ∧
        ∀ built ∈ later, w.directory.find? (demand built.1).id = none) ∧
    ∀ i, let w' := w.step idOf demand i
      (∀ e, w'.builds = w.builds ++ [(i, .error e)] →
        w'.directory = w.directory ∧ w'.stage i = .answered (.error e)) ∧
      ∀ cache, w'.builds = w.builds ++ [(i, .ok cache)] → idOf w'.below cache ≠ (demand i).id →
        w'.directory = w.directory ∧ w'.stage i = .answered (.error (.construction (demand i).id
          (.misnamed (idOf w'.below cache)))) := by
  intro w
  have hnobody : (World.start directory s : World ι σ γ).Sound idOf Made demand :=
    ⟨hstart, fun _ _ h => nomatch h⟩
  have hw : w.Sound idOf Made demand := hnobody.run hbuilds schedule
  refine ⟨?_, ?_, ?_, ?_⟩
  · intro i j cache cache' hid hi hj
    have hentry := hw.answered i cache hi
    rw [hid, hw.answered j cache' hj] at hentry
    exact (Option.some.inj hentry).symm
  · intro i cache hi
    exact (hw.named _ cache (hw.answered i cache hi)).2
  · intro more
    have hgrows : w.Grows demand (w.run idOf demand more) := w.grows_run more
    exact ⟨hgrows.kept, hgrows.builds⟩
  · intro i
    have hchange := World.change_step idOf demand w i
    exact ⟨fun _ hran => hchange.of_failed hran, fun _ hran hother =>
      hchange.of_misnamed hran hother⟩

end CacheDirectory

/-! ### Builds of a rack -/

namespace Rack

theorem provider?_append (layers more : List Layer) {i : Nat} (h : i < layers.length) :
    provider? (layers ++ more) i = provider? layers i := by
  induction i using Nat.strongRecOn with
  | ind i ih =>
    have hbelow : ∀ base, base < i → provider? (layers ++ more) base = provider? layers base :=
      fun base hbase => ih base hbase (Nat.lt_trans hbase h)
    rw [provider?, provider?, List.getElem?_append_left h]
    cases layers[i]? with
    | none => rfl
    | some layer =>
      cases layer with
      | store | stack => rfl
      | lru base | hits base | locks base | transaction base | fault base =>
        by_cases hbase : base < i
        · simp only [hbase, dif_pos, hbelow base hbase]
        · simp only [hbase, dif_neg, not_false_eq_true]

def Made (r : Rack) (i : Nat) : Prop := i < r.layers.length

theorem idOf_of_layers_append {r r' : Rack} {more : List Layer}
    (h : r'.layers = r.layers ++ more) {i : Nat} (hi : r.Made i) : r'.idOf i = r.idOf i := by
  unfold idOf provider
  rw [h, provider?_append r.layers more hi]

theorem addBuilt_cases (r : Rack) (id : String) (s : Settings) :
    (∃ e, r.addBuilt id s = (r, .error e)) ∨
      ∃ layer cell, r.addBuilt id s =
        (⟨r.layers ++ [layer], r.cells ++ [cell]⟩, .ok r.layers.length) := by
  unfold addBuilt
  split
  · exact .inr ⟨_, _, rfl⟩
  · exact .inl ⟨_, rfl⟩
  · exact .inl ⟨_, rfl⟩

theorem builds_addBuilt (wanted id : String) (s : Settings) :
    CacheDirectory.Demand.Builds idOf Made ⟨wanted, fun r => r.addBuilt id s⟩ where
  makes r i h := by
    dsimp only at h ⊢
    rcases addBuilt_cases r id s with ⟨e, hbuilt⟩ | ⟨layer, cell, hbuilt⟩
    · rw [hbuilt] at h
      nomatch h
    · rw [hbuilt] at h ⊢
      obtain rfl := Except.ok.inj h
      simp [Made]
  keeps r i hi := by
    dsimp only
    rcases addBuilt_cases r id s with ⟨e, hbuilt⟩ | ⟨layer, cell, hbuilt⟩
    · rw [hbuilt]
      exact ⟨hi, rfl⟩
    · rw [hbuilt]
      refine ⟨?_, idOf_of_layers_append rfl hi⟩
      exact Nat.lt_of_lt_of_le hi (by simp)

end Rack

namespace CacheDirectory

def usersDemand : Nat → Demand Rack Nat
  | 0 => ⟨"users", fun r => r.addBuilt "orders" {}⟩
  | 1 => ⟨"users", fun r => r.addBuilt "users" { size := 0 }⟩
  | _ => ⟨"users", fun r => r.addBuilt "users" {}⟩

/-- All four clients look before anyone builds. What the first one builds has
another id, the second one's build fails, the third one's is entered, and the
last client gets that one. -/
theorem one_cache_per_id_users :
    let w := (World.start {} {}).run Rack.idOf usersDemand [0, 1, 2, 3, 0, 1, 2, 3]
    (∀ i, (usersDemand i).Builds Rack.idOf Rack.Made) ∧
      Named (γ := Nat) Rack.idOf Rack.Made {} {} ∧
      w.builds = [(0, .ok 0), (1, .error (.invalidSettings .lruSize)), (2, .ok 1)] ∧
      w.stage 0 = .answered (.error (.construction "users" (.misnamed "orders"))) ∧
      w.stage 1 = .answered (.error (.invalidSettings .lruSize)) ∧
      w.stage 2 = .answered (.ok 1) ∧ w.stage 3 = .answered (.ok 1) ∧
      Rack.idOf w.below 1 = "users" ∧
      ∀ more, (w.run Rack.idOf usersDemand more).directory.find? "users" = some 1 := by
  intro w
  have hbuilds : ∀ i, (usersDemand i).Builds Rack.idOf Rack.Made := by
    intro i
    match i with
    | 0 | 1 | _ + 2 => exact Rack.builds_addBuilt ..
  have hstart : Named (γ := Nat) Rack.idOf Rack.Made {} {} := fun _ _ h => nomatch h
  have h2 : w.stage 2 = .answered (.ok 1) := by decide +kernel
  have hfind : w.directory.find? "users" = some 1 := by decide +kernel
  obtain ⟨_, hid, hlater, _⟩ :=
    one_cache_per_id hbuilds hstart [0, 1, 2, 3, 0, 1, 2, 3]
  exact ⟨hbuilds, hstart, by decide +kernel, by decide +kernel, by decide +kernel, h2,
    by decide +kernel, hid 2 1 h2, fun more => (hlater more).1 _ _ hfind⟩

end CacheDirectory

end PropTree
