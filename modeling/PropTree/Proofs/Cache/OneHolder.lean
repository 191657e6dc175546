import PropTree.Proofs.Cache.LockSteps

set_option autoImplicit false

/-!
# One holder for each locked key

A key is locked from the step that acquired it to the one that releases it, be it
in the same call or, after a miss, in the put or remove that answers the miss.
-/

namespace PropTree

namespace Locks

def Stage.Inside (key : ContentKey) : Stage → Prop
  | .looking k | .found k _ => k = key
  | _ => False

def Client.Holds (c : Client) (key : ContentKey) : Prop := c.stage.Inside key ∨ key ∈ c.owed

/-- A client looks up only keys that it does not owe, and puts or removes only
keys that it owes. -/
def Stage.Fits (owed : List ContentKey) : Stage → Prop
  | .idle | .waiting _ => True
  | .looking key | .found key _ => key ∉ owed
  | .storing key _ | .releasing key => key ∈ owed

structure Client.WellFormed (c : Client) : Prop where
  nodup : c.owed.Nodup
  fits : c.stage.Fits c.owed

inductive Effect (c : Client) (locked : List ContentKey) (c' : Client)
    (locked' : List ContentKey) : Prop
  | none (sameLocked : locked' = locked) (sameHeld : ∀ k, c'.Holds k ↔ c.Holds k)
  | takes (key : ContentKey) (free : key ∉ locked)
    (addsLocked : ∀ k, k ∈ locked' ↔ k = key ∨ k ∈ locked)
    (addsHeld : ∀ k, c'.Holds k ↔ k = key ∨ c.Holds k)
  | gives (key : ContentKey) (held : c.Holds key)
    (dropsLocked : ∀ k, k ∈ locked' ↔ k ≠ key ∧ k ∈ locked)
    (dropsHeld : ∀ k, c'.Holds k ↔ k ≠ key ∧ c.Holds k)

variable {timeout : Option Nat} {c c' : Client} {locked locked' : List ContentKey} {s s' : Store}
variable {e : Event}

theorem Moves.effect (h : Moves timeout (c, locked, s) e (c', locked', s')) (hc : c.WellFormed) :
    Effect c locked c' locked' := by
  obtain ⟨hnodup, hfits⟩ := hc
  cases h with
  | acquire taken =>
    rename_i owed key
    obtain ⟨hfree, rfl⟩ := acquire_eq_some taken
    refine .takes key hfree (fun k => List.mem_cons) fun k => ?_
    simp [Client.Holds, Stage.Inside, eq_comm]
  | miss absent =>
    refine .none rfl fun k => ?_
    simp [Client.Holds, Stage.Inside, eq_comm]
  | answer =>
    rename_i owed key v
    refine .gives key (.inl rfl) (fun k => mem_release) fun k => ?_
    have hne : k ∈ owed → k ≠ key := fun hk hkey => hfits (hkey ▸ hk)
    simp only [Client.Holds, Stage.Inside, false_or]
    constructor
    · exact fun hk => ⟨hne hk, .inr hk⟩
    · rintro ⟨hk, rfl | h⟩
      · exact absurd rfl hk
      · exact h
  | release =>
    rename_i owed key
    refine .gives key (.inr hfits) (fun k => mem_release) fun k => ?_
    simp [Client.Holds, Stage.Inside, hnodup.mem_erase_iff]
  | callGet | timeOut | hit | callPut | store | callRemove | clear =>
    exact .none rfl fun k => Iff.rfl

theorem Moves.wellFormed (h : Moves timeout (c, locked, s) e (c', locked', s'))
    (hc : c.WellFormed) (hlocked : ∀ key ∈ c.owed, key ∈ locked) : c'.WellFormed := by
  obtain ⟨hnodup, hfits⟩ := hc
  cases h with
  | acquire taken => exact ⟨hnodup, fun hmem => (acquire_eq_some taken).1 (hlocked _ hmem)⟩
  | miss absent => exact ⟨List.nodup_cons.2 ⟨hfits, hnodup⟩, trivial⟩
  | release => exact ⟨hnodup.erase _, trivial⟩
  | hit present => exact ⟨hnodup, hfits⟩
  | store => exact ⟨hnodup, hfits⟩
  | callPut v missed => exact ⟨hnodup, missed⟩
  | callRemove missed => exact ⟨hnodup, missed⟩
  | callGet | timeOut | answer | clear => exact ⟨hnodup, trivial⟩

variable {ι : Type}

/-- The locked keys are those that have a holder, and nobody shares one. -/
structure Exclusive (locked : List ContentKey) (H : ι → ContentKey → Prop) : Prop where
  mem_locked : ∀ key, key ∈ locked ↔ ∃ i, H i key
  unique : ∀ key i j, H i key → H j key → i = j

section

variable {H H' : ι → ContentKey → Prop} {key : ContentKey} {i : ι}

theorem Exclusive.take (h : Exclusive locked H) (free : key ∉ locked)
    (hlocked : ∀ k, k ∈ locked' ↔ k = key ∨ k ∈ locked)
    (hholds : ∀ j k, H' j k ↔ j = i ∧ k = key ∨ H j k) : Exclusive locked' H' where
  mem_locked := by
    intro k
    rw [hlocked, h.mem_locked]
    constructor
    · rintro (hk | ⟨j, hj⟩)
      · exact ⟨i, (hholds i k).2 (.inl ⟨rfl, hk⟩)⟩
      · exact ⟨j, (hholds j k).2 (.inr hj)⟩
    · rintro ⟨j, hj⟩
      exact ((hholds j k).1 hj).imp (fun h => h.2) fun h => ⟨j, h⟩
  unique := by
    intro k j l hj hl
    have hnobody : ∀ j, ¬ H j key := fun j hj => free ((h.mem_locked key).2 ⟨j, hj⟩)
    rcases (hholds j k).1 hj with ⟨rfl, rfl⟩ | hj
    · rcases (hholds l k).1 hl with ⟨rfl, -⟩ | hl
      · rfl
      · exact absurd hl (hnobody l)
    · rcases (hholds l k).1 hl with ⟨-, rfl⟩ | hl
      · exact absurd hj (hnobody j)
      · exact h.unique k j l hj hl

theorem Exclusive.give (h : Exclusive locked H) (held : H i key)
    (hlocked : ∀ k, k ∈ locked' ↔ k ≠ key ∧ k ∈ locked)
    (hholds : ∀ j k, H' j k ↔ ¬ (j = i ∧ k = key) ∧ H j k) : Exclusive locked' H' where
  mem_locked := by
    intro k
    rw [hlocked, h.mem_locked]
    constructor
    · rintro ⟨hk, j, hj⟩
      exact ⟨j, (hholds j k).2 ⟨fun hsame => hk hsame.2, hj⟩⟩
    · rintro ⟨j, hj⟩
      obtain ⟨hother, hj⟩ := (hholds j k).1 hj
      refine ⟨fun hk => hother ⟨?_, hk⟩, j, hj⟩
      exact h.unique k j i hj (hk ▸ held)
  unique := by
    intro k j l hj hl
    exact h.unique k j l ((hholds j k).1 hj).2 ((hholds l k).1 hl).2

end

def World.Holds (w : World ι) (i : ι) (key : ContentKey) : Prop := (w.client i).Holds key

structure World.Sound (w : World ι) : Prop where
  wellFormed : ∀ i, (w.client i).WellFormed
  exclusive : Exclusive w.locked w.Holds

theorem sound_start (s : Store) : (World.start s : World ι).Sound where
  wellFormed _ := ⟨List.nodup_nil, trivial⟩
  exclusive := by
    have hnobody : ∀ i key, ¬ (World.start s : World ι).Holds i key := by
      simp [World.Holds, World.start, Client.Holds, Stage.Inside]
    refine ⟨fun key => ⟨?_, ?_⟩, fun key i j h => absurd h (hnobody i key)⟩
    · intro h
      nomatch h
    · rintro ⟨i, h⟩
      exact absurd h (hnobody i key)

variable [DecidableEq ι] {w w' : World ι} {events : List (ι × Event)}

theorem World.move_holds {i j : ι} {key : ContentKey} {x : ClientState} :
    (w.move i x).Holds j key ↔ if j = i then x.1.Holds key else w.Holds j key := by
  rw [World.Holds, World.move_client]
  split <;> rfl

theorem Effect.exclusive {i : ι} {x : ClientState} (h : Effect (w.client i) w.locked x.1 x.2.1)
    (hw : Exclusive w.locked w.Holds) : Exclusive (w.move i x).locked (w.move i x).Holds := by
  cases h with
  | none sameLocked sameHeld =>
    have hlocked : (w.move i x).locked = w.locked := sameLocked
    have hholds : (w.move i x).Holds = w.Holds := by
      funext j k
      rw [eq_iff_iff, World.move_holds]
      by_cases hj : j = i
      · rw [if_pos hj, hj, sameHeld]
        rfl
      · rw [if_neg hj]
    rw [hlocked, hholds]
    exact hw
  | takes key free addsLocked addsHeld =>
    refine hw.take (i := i) free addsLocked fun j k => ?_
    rw [World.move_holds]
    by_cases hj : j = i
    · rw [if_pos hj, hj, addsHeld]
      simp [World.Holds]
    · simp [hj]
  | gives key held dropsLocked dropsHeld =>
    refine hw.give (i := i) held dropsLocked fun j k => ?_
    rw [World.move_holds]
    by_cases hj : j = i
    · rw [if_pos hj, hj, dropsHeld]
      simp [World.Holds]
    · simp [hj]

theorem World.Sound.step {e : ι × Event} (h : Step timeout w e w') (hw : w.Sound) : w'.Sound := by
  obtain ⟨moves⟩ := h
  rename_i i e x
  have hlocked : ∀ key ∈ (w.client i).owed, key ∈ w.locked := fun key hkey =>
    (hw.exclusive.mem_locked key).2 ⟨i, .inr hkey⟩
  refine ⟨fun j => ?_, (moves.effect (hw.wellFormed i)).exclusive hw.exclusive⟩
  rw [World.move_client]
  split
  · exact moves.wellFormed (hw.wellFormed i) hlocked
  · exact hw.wellFormed j

theorem World.Sound.run (h : Run timeout w events w') (hw : w.Sound) : w'.Sound := by
  induction h with
  | nil => exact hw
  | cons step _ ih => exact ih (hw.step step)

variable {i : ι} {key : ContentKey} {v : Value}

theorem Moves.of_store {x y : ClientState} (h : Moves timeout x (.store key v) y) :
    x.1.stage = .storing key v ∧ y.1.stage = .releasing key ∧ y.2.2 = x.2.2.insert key v := by
  cases h
  exact ⟨rfl, rfl, rfl⟩

theorem Moves.of_lookup {x y : ClientState} {answer : Option Value}
    (h : Moves timeout x (.lookup key answer) y) : x.2.2.get? key = answer := by
  cases h with
  | hit present => exact present
  | miss absent => exact absent

theorem Moves.of_callGet {x y : ClientState} (h : Moves timeout x (.callGet key) y) :
    x.1 = ⟨.idle, x.1.owed⟩ ∧ y = (⟨.waiting key, x.1.owed⟩, x.2) := by
  cases h
  exact ⟨rfl, rfl⟩

theorem Moves.of_timeOut {x y : ClientState} (h : Moves timeout x (.timeOut key) y) :
    y = (⟨.idle, x.1.owed⟩, x.2) := by
  cases h
  rfl

/-- The store has a value for the key, and nobody is about to give it another. -/
structure World.Settled (w : World ι) (key : ContentKey) (v : Value) : Prop where
  stored : w.store.get? key = some v
  owed : ∀ i, key ∈ (w.client i).owed → (w.client i).stage = .releasing key

theorem Moves.settled (h : Moves timeout (c, locked, s) e (c', locked', s')) (hc : c.WellFormed)
    (hclear : e ≠ .clear) (hs : s.get? key = some v)
    (hc' : key ∈ c.owed → c.stage = .releasing key) :
    s'.get? key = some v ∧ (key ∈ c'.owed → c'.stage = .releasing key) := by
  obtain ⟨hnodup, hfits⟩ := hc
  cases h with
  | store =>
    rename_i owed k u
    -- a client that is to put this very key owes it, and is past its put already
    have hkey : k ≠ key := by
      rintro rfl
      nomatch hc' hfits
    rw [Store.get?_insert, if_neg hkey]
    exact ⟨hs, fun hmem => nomatch hc' hmem⟩
  | release =>
    rename_i owed k
    refine ⟨hs, fun hmem => ?_⟩
    obtain ⟨hne, hmem⟩ := hnodup.mem_erase_iff.1 hmem
    exact absurd (Stage.releasing.inj (hc' hmem)).symm hne
  | miss absent =>
    refine ⟨hs, fun hmem => ?_⟩
    rcases List.mem_cons.1 hmem with rfl | hmem
    · nomatch absent.symm.trans hs
    · nomatch hc' hmem
  | clear => exact absurd rfl hclear
  | callGet | acquire | timeOut | hit | answer | callPut | callRemove =>
    exact ⟨hs, fun hmem => nomatch hc' hmem⟩

theorem Step.settled_of_store (h : Step timeout w (i, .store key v) w') (hw : w.Sound) :
    w'.Settled key v := by
  obtain ⟨moves⟩ := h
  rename_i x
  obtain ⟨hstoring, hreleasing, hinsert⟩ := moves.of_store
  have hmem : key ∈ (w.client i).owed := by
    have hfits := (hw.wellFormed i).fits
    rw [hstoring] at hfits
    exact hfits
  constructor
  · change x.2.2.get? key = some v
    rw [hinsert, Store.get?_insert, if_pos rfl]
  · intro j hj
    rw [World.move_client] at hj ⊢
    by_cases hji : j = i
    · rw [if_pos hji]
      exact hreleasing
    · rw [if_neg hji] at hj
      exact absurd (hw.exclusive.unique key j i (.inr hj) (.inr hmem)) hji

theorem World.Settled.step {e : ι × Event} (h : Step timeout w e w') (hw : w.Sound)
    (hsettled : w.Settled key v) (hclear : e.2 ≠ .clear) : w'.Settled key v := by
  obtain ⟨moves⟩ := h
  rename_i i e x
  obtain ⟨hstored, howed⟩ :=
    moves.settled (hw.wellFormed i) hclear hsettled.stored (hsettled.owed i)
  refine ⟨hstored, fun j => ?_⟩
  rw [World.move_client]
  split
  · exact howed
  · exact hsettled.owed j

theorem World.Settled.run (h : Run timeout w events w') (hw : w.Sound)
    (hsettled : w.Settled key v) (hclear : ∀ e ∈ events, e.2 ≠ .clear) : w'.Settled key v := by
  induction h with
  | nil => exact hsettled
  | cons step _ ih =>
    have hstep := hsettled.step step hw (hclear _ List.mem_cons_self)
    exact ih (hw.step step) hstep fun e he => hclear e (List.mem_cons_of_mem _ he)

theorem Step.of_move {e : ι × Event} {c : Client}
    (h : Step timeout (w.move i (c, w.locked, w.store)) e w') (he : e.1 ≠ i) :
    ∃ u, Step timeout w e u ∧ u.client i = w.client i ∧ w' = u.move i (c, u.locked, u.store) := by
  obtain ⟨moves⟩ := h
  rename_i j e x
  rw [World.move_client, if_neg he] at moves
  -- the moves of the two clients commute
  refine ⟨w.move j x, .mk moves, ?_, ?_⟩
  · rw [World.move_client, if_neg (Ne.symm he)]
  · unfold World.move
    rw [Function.update_comm he]

theorem Run.of_move {c : Client} (h : Run timeout (w.move i (c, w.locked, w.store)) events w')
    (hevents : ∀ e ∈ events, e.1 ≠ i) :
    ∃ u, Run timeout w events u ∧ u.client i = w.client i ∧
      w' = u.move i (c, u.locked, u.store) := by
  induction events generalizing w with
  | nil =>
    cases h
    exact ⟨w, .nil w, rfl, rfl⟩
  | cons e events ih =>
    cases h with
    | cons step rest =>
      obtain ⟨w₁, hstep, hclient, rfl⟩ := step.of_move (hevents e List.mem_cons_self)
      obtain ⟨u, hrun, hu, hw'⟩ := ih rest fun e he => hevents e (List.mem_cons_of_mem _ he)
      exact ⟨u, .cons hstep hrun, hu.trans hclient, hw'⟩

theorem Run.without_timeOut {mid : List (ι × Event)}
    (h : Run timeout w ((i, .callGet key) :: (mid ++ [(i, .timeOut key)])) w')
    (hmid : ∀ e ∈ mid, e.1 ≠ i) : Run timeout w mid w' := by
  cases h with
  | cons step rest =>
    obtain ⟨called⟩ := step
    obtain ⟨hidle, rfl⟩ := called.of_callGet
    obtain ⟨_, hwaiting, hlast⟩ := run_append.1 rest
    obtain ⟨u, hrun, hclient, rfl⟩ := hwaiting.of_move hmid
    cases hlast with
    | cons step rest =>
      obtain ⟨timedOut⟩ := step
      rw [timedOut.of_timeOut] at rest
      cases rest
      have hback : Function.update u.client i ⟨.idle, (w.client i).owed⟩ = u.client := by
        rw [← hidle, ← hclient, Function.update_eq_self]
      simpa [World.move, hback] using hrun

/-- In every run of clients that put or remove just what they missed: a key is
locked exactly if a client holds it, and never more than one does; a run with a
get that timed out comes to the same world without that get, so to the same
locked keys; and after a value was put into the store, every lookup up to the
next clear finds it, whoever acquires the key then. -/
theorem one_holder (timeout : Option Nat) (s : Store) {history : List (ι × Event)} {w : World ι}
    (hrun : Run timeout (.start s) history w) :
    (∀ key, (key ∈ w.locked ↔ ∃ i, w.Holds i key) ∧
      ∀ i j, w.Holds i key → w.Holds j key → i = j) ∧
    (∀ before i key mid,
      history = before ++ (i, .callGet key) :: (mid ++ [(i, .timeOut key)]) →
        (∀ e ∈ mid, e.1 ≠ i) → Run timeout (.start s) (before ++ mid) w) ∧
    (∀ before j key v later i answer,
      history = before ++ (j, .store key v) :: (later ++ [(i, .lookup key answer)]) →
        (∀ e ∈ later, e.2 ≠ .clear) → answer = some v) := by
  have hexclusive := ((sound_start s).run hrun).exclusive
  refine ⟨fun key => ⟨hexclusive.mem_locked key, hexclusive.unique key⟩, ?_, ?_⟩
  · rintro before i key mid rfl hmid
    obtain ⟨u, hbefore, hget⟩ := run_append.1 hrun
    exact run_append.2 ⟨u, hbefore, hget.without_timeOut hmid⟩
  · rintro before j key v later i answer rfl hlater
    obtain ⟨u, hbefore, hrest⟩ := run_append.1 hrun
    have hu := (sound_start s).run hbefore
    cases hrest with
    | cons step rest =>
      obtain ⟨w₁, hafter, hlast⟩ := run_append.1 rest
      have hsettled := (step.settled_of_store hu).run hafter (hu.step step) hlater
      cases hlast with
      | cons step _ =>
        obtain ⟨looked⟩ := step
        exact looked.of_lookup.symm.trans hsettled.stored

def handover (key : ContentKey) (v : Value) (answer : Option Value) : List (Bool × Event) :=
  [(false, .callGet key), (false, .acquire key), (false, .lookup key none),
    (true, .callGet key), (true, .timeOut key), (true, .callGet key),
    (false, .callPut key v), (false, .store key v), (false, .release key),
    (true, .acquire key), (true, .lookup key answer)]

theorem one_holder_handover :
    let key : ContentKey := Key.ofList [.string "a"]
    let v := Value.integer 1
    (∃ w, Run (some 5) (.start .empty) (handover key v (some v)) w ∧
      (key ∈ w.locked ↔ ∃ i, w.Holds i key)) ∧
      ¬ ∃ w, Run (some 5) (.start .empty) (handover key v none) w := by
  intro key v
  have hrun : ∃ w, Run (some 5) (.start .empty) (handover key v (some v)) w :=
    ⟨_, .cons (.mk (.callGet key)) <| .cons (.mk (.acquire rfl)) <| .cons (.mk (.miss rfl)) <|
      .cons (.mk (.callGet key)) <| .cons (.mk (.timeOut rfl (by decide))) <|
      .cons (.mk (.callGet key)) <| .cons (.mk (.callPut v (by decide))) <| .cons (.mk .store) <|
      .cons (.mk .release) <| .cons (.mk (.acquire rfl)) <|
      .cons (.mk (.hit (by decide))) <| .nil _⟩
  constructor
  · obtain ⟨w, hrun⟩ := hrun
    exact ⟨w, hrun, ((one_holder (some 5) .empty hrun).1 key).1⟩
  · rintro ⟨w, hrun⟩
    have hanswer := (one_holder (some 5) .empty hrun).2.2
      ((handover key v none).take 7) false key v
      [(false, .release key), (true, .acquire key)] true none rfl (by simp)
    nomatch hanswer

end Locks

end PropTree
