import InternalCall.Run.Context

/-!
# Single steps of a run

What each primitive computation yields, and how a run goes on from each ending.
Proofs about longer computations rewrite with these equations and do not open
the monad.
-/

namespace InternalCall

variable {σ α β : Type}

namespace Run

@[simp] theorem andThen_returned (a : α) (s : σ) (t : List Event) (f : α → Exec σ β) :
    (Run.mk (.returned a) s t).andThen f = (f a s).after t := rfl

@[simp] theorem andThen_panicked (p : Panic) (s : σ) (t : List Event) (f : α → Exec σ β) :
    (Run.mk (.panicked p) s t : Run σ α).andThen f = ⟨.panicked p, s, t⟩ := rfl

@[simp] theorem andThen_aborted (e : FatalError) (s : σ) (t : List Event) (f : α → Exec σ β) :
    (Run.mk (.aborted e) s t : Run σ α).andThen f = ⟨.aborted e, s, t⟩ := rfl

@[simp] theorem andThen_exhausted (s : σ) (t : List Event) (f : α → Exec σ β) :
    (Run.mk .exhausted s t : Run σ α).andThen f = ⟨.exhausted, s, t⟩ := rfl

@[simp] theorem after_mk (t u : List Event) (ending : Ending α) (s : σ) :
    (Run.mk ending s u).after t = ⟨ending, s, t ++ u⟩ := rfl

/-- Converting a result leaves the state as it is. -/
theorem state_andThen_pure (r : Run σ α) (f : α → β) :
    (r.andThen fun a => pure (f a)).state = r.state := by
  obtain ⟨ending, s, trace⟩ := r
  cases ending <;> rfl

end Run

namespace Exec

@[simp] theorem record_apply (e : Event) (s : σ) :
    (record e : Exec σ Unit) s = ⟨.returned (), s, [e]⟩ := rfl

@[simp] theorem log_apply (level : LogLevel) (message : String) (s : σ) :
    (log level message : Exec σ Unit) s = ⟨.returned (), s, [.log level message]⟩ := rfl

@[simp] theorem panic_apply (p : Panic) (s : σ) :
    (panic p : Exec σ α) s = ⟨.panicked p, s, []⟩ := rfl

theorem map_apply (f : α → β) (x : Exec σ α) (s : σ) :
    (f <$> x) s = (x s).andThen fun a => pure (f a) := by
  rw [map_eq_pure_bind, bind_apply]

/-- Started in the one state, the computation returns the value and leaves the other state. -/
def Yields (x : Exec σ α) (s : σ) (a : α) (s' : σ) : Prop :=
  ∃ trace, x s = ⟨.returned a, s', trace⟩

theorem Yields.pure (a : α) (s : σ) : (Pure.pure a : Exec σ α).Yields s a s := ⟨[], rfl⟩

/-- A computation that returned is followed by what its value leads to, in the state it left. -/
theorem Yields.bind {x : Exec σ α} {f : α → Exec σ β} {s s' s'' : σ} {a : α} {b : β}
    (hx : x.Yields s a s') (hf : (f a).Yields s' b s'') : (x >>= f).Yields s b s'' := by
  obtain ⟨t, hx⟩ := hx
  obtain ⟨u, hf⟩ := hf
  exact ⟨t ++ u, by rw [bind_apply, hx, Run.andThen_returned, hf, Run.after_mk]⟩

/-- Started in the one state, the computation panics and leaves the other state. -/
def Panics (x : Exec σ α) (s : σ) (p : Panic) (s' : σ) : Prop :=
  ∃ trace, x s = ⟨.panicked p, s', trace⟩

/-- Nothing follows a panic. -/
theorem Panics.bind {x : Exec σ α} {s s' : σ} {p : Panic} (hx : x.Panics s p s')
    (f : α → Exec σ β) : (x >>= f).Panics s p s' := by
  obtain ⟨t, hx⟩ := hx
  exact ⟨t, by rw [bind_apply, hx, Run.andThen_panicked]⟩

/-- What follows a computation that returned may panic in its place. -/
theorem Yields.bind_panics {x : Exec σ α} {f : α → Exec σ β} {s s' s'' : σ} {a : α} {p : Panic}
    (hx : x.Yields s a s') (hf : (f a).Panics s' p s'') : (x >>= f).Panics s p s'' := by
  obtain ⟨t, hx⟩ := hx
  obtain ⟨u, hf⟩ := hf
  exact ⟨t ++ u, by rw [bind_apply, hx, Run.andThen_returned, hf, Run.after_mk]⟩

variable [ManagedContext σ]

/-- A frame that is opened is recorded, and the run goes on with its mark. -/
theorem pushFrame_of_ok {s s' : σ} {mark : FrameMark}
    (opens : ManagedContext.pushFrame s = .ok (mark, s')) :
    pushFrame s = ⟨.returned mark, s', [.push mark]⟩ := by
  unfold pushFrame
  rw [bind_apply, get, Run.andThen_returned, opens]
  rfl

/-- A frame that cannot be opened ends the run with the panic of the context. Nothing is recorded and
the state is left alone. -/
theorem pushFrame_of_error {s : σ} {message : String}
    (refuses : ManagedContext.pushFrame s = .error message) :
    pushFrame s = ⟨.panicked (.context message), s, []⟩ := by
  unfold pushFrame
  rw [bind_apply, get, Run.andThen_returned, refuses]
  rfl

@[simp] theorem popFrame_apply (mark : FrameMark) (s : σ) :
    popFrame mark s = ⟨.returned (), ManagedContext.popFrame mark s, [.pop mark]⟩ := rfl

@[simp] theorem setPending_apply (e : ManagedError) (s : σ) :
    setPending e s = ⟨.returned (), ManagedContext.setPending e s, [.setPending e]⟩ := rfl

@[simp] theorem takePending_apply (s : σ) :
    takePending s = ⟨.returned (ManagedContext.takePending s).1, (ManagedContext.takePending s).2,
      [.takePending (ManagedContext.takePending s).1]⟩ := rfl

end Exec

/-! ## Frames of a detached context -/

namespace DetachedContext

variable {c : DetachedContext}

/-- Below the largest depth a frame is opened and counted. -/
theorem pushFrame_of_lt (room : c.depth < maxDepth) :
    ManagedContext.pushFrame c = .ok (⟨c.depth⟩, ⟨c.depth + 1, c.pending⟩) :=
  if_pos room

/-- At the largest depth no frame is opened. -/
theorem pushFrame_of_not_lt (full : ¬ c.depth < maxDepth) :
    ManagedContext.pushFrame c = .error overflow :=
  if_neg full

/-- One frame more is one more in number, as long as the count does not overflow. -/
theorem toNat_depth_succ {depth : UInt64} (room : depth < maxDepth) :
    (depth + 1).toNat = depth.toNat + 1 := by
  have bound : depth.toNat < 2 ^ 64 - 1 := UInt64.lt_iff_toNat_lt.mp room
  rw [UInt64.toNat_add, UInt64.toNat_one]
  exact Nat.mod_eq_of_lt (by omega)

end DetachedContext

/-- A fatal error is logged and then stops the run as the action says; the state is left alone. -/
theorem FatalError.escalate_apply (e : FatalError) (action : FatalAction) (s : σ) :
    (e.escalate action : Exec σ α) s =
      ⟨match action with
        | .abort => .aborted e
        | .panic => .panicked (.fatal e), s, [.log .error e.message]⟩ := by
  cases action <;> rfl

/-- Nothing follows a fatal error. -/
theorem FatalError.escalate_bind (e : FatalError) (action : FatalAction) (f : α → Exec σ β) :
    (e.escalate action >>= f) = e.escalate action := by
  cases action <;> rfl

end InternalCall
