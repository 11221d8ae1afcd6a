import InternalCall.Proofs.Session.Basic

/-!
# A stale error has no effect

An error that was pending before a call is no matter of the call. Two wrapped
calls that find different errors pending, or none, differ in what the take that
opens their frame finds and in the warning about it, and in nothing else; only at
the largest depth, where no frame is opened and nothing is taken, does what was
pending outlive the call. In a session every call ends as it would on a context
of its own, in which nothing is pending, whatever the steps before it left behind.
-/

namespace InternalCall

/-- The endings of the calls of a session if each call had the slot for the pending error to itself:
of the steps before it, only the depth that they left counts. -/
def Registry.endingsAlone (r : Registry) (allowance : Nat) :
    List SessionStep → (depth : UInt64) → List (Ending (Except CallError Value))
  | [], _ => []
  | .use u :: rest, depth => r.endingsAlone allowance rest (u.apply ⟨depth, none⟩).depth
  | .call x :: rest, depth =>
    let ending := (r.make allowance x ⟨depth, none⟩).ending
    ending :: if ending.survives then r.endingsAlone allowance rest depth else []

/-- A use of the context moves the depth alike whatever is pending. -/
theorem ContextUse.depth_apply (u : ContextUse) (c : DetachedContext) :
    (u.apply c).depth = (u.apply ⟨c.depth, none⟩).depth := by
  cases u with
  | pushFrame =>
      by_cases room : c.depth < DetachedContext.maxDepth
      · rw [apply, apply, DetachedContext.pushFrame_of_lt room,
          DetachedContext.pushFrame_of_lt (c := ⟨c.depth, none⟩) room]
      · rw [apply, apply, DetachedContext.pushFrame_of_not_lt room,
          DetachedContext.pushFrame_of_not_lt (c := ⟨c.depth, none⟩) room]
  | popFrame mark => rfl
  | setPending e => rfl
  | takePending => rfl

/-- In a session every call ends as if it had the slot to itself. -/
theorem Registry.endings_session (r : Registry) (allowance : Nat) (steps : List SessionStep)
    (c : DetachedContext) :
    (r.session allowance steps c).map (fun v => v.run.ending) =
      r.endingsAlone allowance steps c.depth := by
  induction steps generalizing c with
  | nil => rfl
  | cons step rest ih =>
      cases step with
      | use u => rw [session, endingsAlone, ih, u.depth_apply c]
      | call x =>
          have hending := r.ending_make allowance x c none
          rw [session, endingsAlone, List.map_cons, ← hending]
          congr 1
          by_cases survives : (r.make allowance x c).ending.survives = true
          · rw [if_pos survives, if_pos survives, ih, r.depth_make allowance x c survives]
          · rw [if_neg survives, if_neg survives, List.map_nil]

end InternalCall
