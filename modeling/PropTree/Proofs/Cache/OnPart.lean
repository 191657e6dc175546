import PropTree.Cache.Transaction

set_option autoImplicit false

namespace PropTree

/-- `part` reads a part of a state and `withPart` replaces it. -/
structure IsPart {σ τ : Type} (part : τ → σ) (withPart : τ → σ → τ) : Prop where
  part_withPart : ∀ t s, part (withPart t s) = s
  withPart_withPart : ∀ t s s', withPart (withPart t s) s' = withPart t s'
  withPart_part : ∀ t, withPart t (part t) = t

namespace Transaction

variable {σ τ : Type} {part : τ → σ} {withPart : τ → σ → τ}

theorem putAll_onPart (h : IsPart part withPart) (d : Provider σ) (t : τ) (missed : List ContentKey)
    (writes : List (ContentKey × Value)) :
    putAll (d.onPart part withPart) t missed writes =
      let o := putAll d (part t) missed writes
      ((o.1.1, withPart t o.1.2), o.2) := by
  induction writes generalizing t missed with
  | nil =>
    change ((missed, t), Except.ok ()) = ((missed, withPart t (part t)), Except.ok ())
    rw [h.withPart_part]
  | cons entry rest ih =>
    obtain ⟨key, v⟩ := entry
    have hput : (d.onPart part withPart).put t key v =
        (withPart t (d.put (part t) key v).1, (d.put (part t) key v).2) := rfl
    rw [putAll, putAll, hput]
    obtain ⟨below, _ | _⟩ := d.put (part t) key v
    · rfl
    · have hrest := ih (withPart t below) (missed.erase key)
      rw [h.part_withPart] at hrest
      simp only [h.withPart_withPart] at hrest
      exact hrest

theorem release_onPart (h : IsPart part withPart) (d : Provider σ) (t : τ)
    (keys : List ContentKey) :
    release (d.onPart part withPart) t keys = withPart t (release d (part t) keys) := by
  induction keys generalizing t with
  | nil => exact (h.withPart_part t).symm
  | cons key rest ih =>
    change release (d.onPart part withPart) (withPart t (d.remove (part t) key).1) rest = _
    rw [ih, h.part_withPart, h.withPart_withPart]
    rfl

theorem flush_onPart (h : IsPart part withPart) (order : FlushOrder) (d : Provider σ)
    (p : Pending) (t : τ) :
    flush order (d.onPart part withPart) p t =
      let o := flush order d p (part t)
      ((o.1.1, withPart t o.1.2), o.2) := by
  unfold flush
  cases p.clearFirst with
  | false => exact putAll_onPart h d t p.missed _
  | true =>
    have hclear : (d.onPart part withPart).clear t =
        (withPart t (d.clear (part t)).1, (d.clear (part t)).2) := rfl
    simp only [if_true]
    rw [hclear]
    obtain ⟨below, _ | _⟩ := d.clear (part t)
    · rfl
    · have hputs := putAll_onPart h d (withPart t below) p.missed
        ((order.nulls p.unfilled).map (fun key => (key, Value.null)) ++
          order.entries p.entries.entries)
      rw [h.part_withPart] at hputs
      simp only [h.withPart_withPart] at hputs
      exact hputs

theorem commitBy_onPart (h : IsPart part withPart) (order : FlushOrder) (d : Provider σ)
    (p : Pending) (t : τ) :
    commitBy order (d.onPart part withPart) (p, t) =
      let o := commitBy order d (p, part t)
      ((o.1.1, withPart t o.1.2), o.2) := by
  unfold commitBy
  simp only [flush_onPart h]
  obtain ⟨⟨missed, below⟩, _ | _⟩ := flush order d p (part t)
  · simp only [release_onPart h, h.part_withPart, h.withPart_withPart]
  · rfl

theorem rollbackBy_onPart (h : IsPart part withPart) (order : FlushOrder) (d : Provider σ)
    (p : Pending) (t : τ) :
    rollbackBy order (d.onPart part withPart) (p, t) =
      let o := rollbackBy order d (p, part t)
      ((o.1.1, withPart t o.1.2), o.2) := by
  rw [rollbackBy, release_onPart h]
  rfl

theorem get_onPart (part : τ → σ) (withPart : τ → σ → τ) (d : Provider σ) (p : Pending) (t : τ)
    (key : ContentKey) :
    get (d.onPart part withPart) (p, t) key =
      let o := get d (p, part t) key
      ((o.1.1, withPart t o.1.2), o.2) := by
  have hget : (d.onPart part withPart).get t key =
      (withPart t (d.get (part t) key).1, (d.get (part t) key).2) := rfl
  rw [get, get, hget]
  obtain ⟨below, _ | _ | _⟩ := d.get (part t) key <;> rfl

end Transaction

end PropTree
