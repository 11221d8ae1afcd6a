import InternalCall.Proofs.Call.Invoke
import InternalCall.Registry.Basic

/-!
# Frames inside frames

All frames of a context share one slot for the pending error. A frame therefore
reports the error that was last recorded in it, as if it had a slot of its own,
unless a further frame was opened in it since: opening a frame empties the
shared slot, and then nothing is reported. A frame that the context cannot count
any more is a panic, which closes the frames around it and reports nothing.
-/

namespace InternalCall

/-- What is done while a frame is the innermost one, up to the moment at which it is closed. -/
inductive FrameRun where
  /-- Nothing more. -/
  | done
  /-- An error is recorded as pending. -/
  | setPending (e : ManagedError) (rest : FrameRun)
  /-- The slot for the pending error is emptied. -/
  | takePending (rest : FrameRun)
  /-- A further frame is opened, is the innermost one for a while, and is closed. -/
  | nested (inner rest : FrameRun)
deriving DecidableEq, Repr

namespace FrameRun

/-- Does what is done in a frame. -/
def exec : FrameRun → Exec DetachedContext Unit
  | done => return ()
  | setPending e rest => do
    Exec.setPending e
    rest.exec
  | takePending rest => do
    let _ ← Exec.takePending
    rest.exec
  | nested inner rest => do
    let _ ← Frame.within inner.exec
    rest.exec

/-- Opens a frame, does in it what is done, and closes it; this is what the closing reports. -/
def report (r : FrameRun) : Exec DetachedContext (Option ManagedError) := do
  let (_, pending?) ← Frame.within r.exec
  return pending?

/-- How many further frames are open in the frame at once, at most. -/
def height : FrameRun → Nat
  | done => 0
  | setPending _ rest | takePending rest => rest.height
  | nested inner rest => max (inner.height + 1) rest.height

/-- What a slot that belongs to the frame alone holds in the end: each error recorded in the frame
goes into it, each take empties it, and further frames do not reach it. -/
def ownSlot (slot : Option ManagedError) : FrameRun → Option ManagedError
  | done => slot
  | setPending e rest => rest.ownSlot (some e)
  | takePending rest => rest.ownSlot none
  | nested _ rest => rest.ownSlot slot

/-- Whether a further frame was opened since the slot was last set or emptied in the frame. -/
def covered (before : Bool) : FrameRun → Bool
  | done => before
  | setPending _ rest => rest.covered false
  | takePending rest => rest.covered false
  | nested _ rest => rest.covered true

/-- What the shared slot holds in the end, if it holds the error of the frame at first. -/
def sharedSlot (slot : Option ManagedError) : FrameRun → Option ManagedError
  | done => slot
  | setPending e rest => rest.sharedSlot (some e)
  | takePending rest => rest.sharedSlot none
  | nested _ rest => rest.sharedSlot none

/-- The shared slot holds what the frame's own would, as long as no further frame emptied it. -/
theorem sharedSlot_eq (r : FrameRun) (slot : Option ManagedError) (before : Bool) :
    r.sharedSlot (if before then none else slot) =
      if r.covered before then none else r.ownSlot slot := by
  induction r generalizing slot before with
  | done => rfl
  | setPending e rest ih => exact ih (some e) false
  | takePending rest ih => exact ih none false
  | nested inner rest _ ih => exact ih slot true

end FrameRun

/-! ## A body in a frame -/

section
variable {α : Type} {body : Exec DetachedContext α} {c left : DetachedContext}

/-- A frame starts its body one deeper than the context was, with an empty slot. If the body returns,
the frame reports what the slot holds then, empties it and gives back the depth. -/
theorem Frame.within_yields (room : c.depth < DetachedContext.maxDepth) {a : α}
    (inner : body.Yields ⟨c.depth + 1, none⟩ a left) :
    (Frame.within body).Yields c (a, left.pending) ⟨c.depth, none⟩ := by
  obtain ⟨trace, inner⟩ := inner
  have enters : (Frame.enter : Exec DetachedContext _).Yields c ⟨c.depth⟩ ⟨c.depth + 1, none⟩ :=
    ⟨_, Frame.enter_of_ok (DetachedContext.pushFrame_of_lt room)⟩
  refine enters.bind ?_
  have runs : (body.onPanic (Exec.popFrame ⟨c.depth⟩)).Yields ⟨c.depth + 1, none⟩ a left :=
    ⟨trace, by rw [Exec.onPanic, inner]⟩
  refine runs.bind ?_
  have leaves : (Frame.leave ⟨c.depth⟩).Yields left left.pending ⟨c.depth, none⟩ := ⟨_, rfl⟩
  exact leaves.bind (.pure _ _)

/-- If the body panics, the frame gives back the depth and leaves the slot as the body left it. -/
theorem Frame.within_panics (room : c.depth < DetachedContext.maxDepth) {p : Panic}
    (inner : body.Panics ⟨c.depth + 1, none⟩ p left) :
    (Frame.within body).Panics c p ⟨c.depth, left.pending⟩ := by
  obtain ⟨trace, inner⟩ := inner
  have enters : (Frame.enter : Exec DetachedContext _).Yields c ⟨c.depth⟩ ⟨c.depth + 1, none⟩ :=
    ⟨_, Frame.enter_of_ok (DetachedContext.pushFrame_of_lt room)⟩
  refine enters.bind_panics ?_
  have runs : (body.onPanic (Exec.popFrame ⟨c.depth⟩)).Panics ⟨c.depth + 1, none⟩ p
      ⟨c.depth, left.pending⟩ := ⟨_, by rw [Exec.onPanic, inner]; rfl⟩
  exact runs.bind _

/-- At the largest depth the frame overflows before anything is done. -/
theorem Frame.within_overflow (full : ¬ c.depth < DetachedContext.maxDepth) :
    (Frame.within body).Panics c (.context DetachedContext.overflow) c := by
  have refuses := DetachedContext.pushFrame_of_not_lt full
  have enters : (Frame.enter : Exec DetachedContext _).Panics c
      (.context DetachedContext.overflow) c := ⟨_, Frame.enter_of_error refuses⟩
  exact enters.bind _

end

namespace FrameRun

open DetachedContext (maxDepth overflow toNat_depth_succ)

/-! ## What is done in frames -/

/-- As long as the context can count its frames, what is done in a frame leaves the depth alone, and
the shared slot as `sharedSlot` says. -/
theorem exec_yields (r : FrameRun) (c : DetachedContext)
    (room : c.depth.toNat + r.height ≤ maxDepth.toNat) :
    r.exec.Yields c () ⟨c.depth, r.sharedSlot c.pending⟩ := by
  induction r generalizing c with
  | done => exact .pure () c
  | setPending e rest ih => exact .bind ⟨_, Exec.setPending_apply e c⟩ (ih ⟨c.depth, some e⟩ room)
  | takePending rest ih => exact .bind ⟨_, Exec.takePending_apply c⟩ (ih ⟨c.depth, none⟩ room)
  | nested inner rest inner_ih ih =>
      rw [height] at room
      have below : c.depth < maxDepth := UInt64.lt_iff_toNat_lt.mpr (by omega)
      have innerRoom : (c.depth + 1).toNat + inner.height ≤ maxDepth.toNat := by
        rw [toNat_depth_succ below]
        omega
      -- the further frame gives back the depth, but not what the slot held before it
      have framed := Frame.within_yields below (inner_ih ⟨c.depth + 1, none⟩ innerRoom)
      exact framed.bind (ih ⟨c.depth, none⟩ (by dsimp only; omega))

/-- If more frames are open at once than the context can count, what is done in a frame overflows,
with the depth given back. -/
theorem exec_overflows (r : FrameRun) (c : DetachedContext)
    (deep : maxDepth.toNat < c.depth.toNat + r.height) :
    ∃ pending?, r.exec.Panics c (.context overflow) ⟨c.depth, pending?⟩ := by
  induction r generalizing c with
  | done =>
      have bound : c.depth.toNat ≤ maxDepth.toNat := Nat.le_of_lt_succ c.depth.toNat_lt
      rw [height] at deep
      omega
  | setPending e rest ih =>
      obtain ⟨pending?, panics⟩ := ih ⟨c.depth, some e⟩ deep
      have sets : (Exec.setPending e).Yields c () ⟨c.depth, some e⟩ := ⟨_, Exec.setPending_apply e c⟩
      exact ⟨pending?, sets.bind_panics panics⟩
  | takePending rest ih =>
      obtain ⟨pending?, panics⟩ := ih ⟨c.depth, none⟩ deep
      have takes : Exec.takePending.Yields c c.pending ⟨c.depth, none⟩ := ⟨_, Exec.takePending_apply c⟩
      exact ⟨pending?, takes.bind_panics panics⟩
  | nested inner rest inner_ih ih =>
      by_cases below : c.depth < maxDepth
      · by_cases innerRoom : (c.depth + 1).toNat + inner.height ≤ maxDepth.toNat
        · have restDeep : maxDepth.toNat < c.depth.toNat + rest.height := by
            rw [toNat_depth_succ below] at innerRoom
            rw [height] at deep
            omega
          obtain ⟨pending?, panics⟩ := ih ⟨c.depth, none⟩ restDeep
          have framed := Frame.within_yields below (inner.exec_yields ⟨c.depth + 1, none⟩ innerRoom)
          exact ⟨pending?, framed.bind_panics panics⟩
        · obtain ⟨pending?, panics⟩ := inner_ih ⟨c.depth + 1, none⟩ (Nat.lt_of_not_le innerRoom)
          exact ⟨pending?, (Frame.within_panics below panics).bind _⟩
      · exact ⟨c.pending, (Frame.within_overflow below).bind _⟩

/-- A frame reports what the shared slot holds in the end, and gives back the depth. -/
theorem report_yields (r : FrameRun) (c : DetachedContext)
    (room : c.depth.toNat + r.height < maxDepth.toNat) :
    r.report.Yields c (r.sharedSlot none) ⟨c.depth, none⟩ := by
  have below : c.depth < maxDepth := UInt64.lt_iff_toNat_lt.mpr (by omega)
  have innerRoom : (c.depth + 1).toNat + r.height ≤ maxDepth.toNat := by
    rw [toNat_depth_succ below]
    omega
  exact (Frame.within_yields below (r.exec_yields ⟨c.depth + 1, none⟩ innerRoom)).bind (.pure _ _)

/-- A frame that needs more frames than the context can count reports nothing: it overflows. -/
theorem report_overflows (r : FrameRun) (c : DetachedContext)
    (deep : maxDepth.toNat ≤ c.depth.toNat + r.height) :
    ∃ pending?, r.report.Panics c (.context overflow) ⟨c.depth, pending?⟩ := by
  by_cases below : c.depth < maxDepth
  · have innerDeep : maxDepth.toNat < (c.depth + 1).toNat + r.height := by
      rw [toNat_depth_succ below]
      omega
    obtain ⟨pending?, panics⟩ := r.exec_overflows ⟨c.depth + 1, none⟩ innerDeep
    exact ⟨pending?, (Frame.within_panics below panics).bind _⟩
  · exact ⟨c.pending, (Frame.within_overflow below).bind _⟩

/-- A frame reports what a slot of its own would hold, unless a further frame was opened in it since
that slot was last set or emptied; then it reports nothing. If it and the frames in it are more than
the context can count, it overflows instead, and gives back the depth. So it reports as if it had a
slot of its own exactly if the context can count the frames, and such a slot would be empty or no
further frame was opened since. -/
theorem report_eq_ownSlot_iff (r : FrameRun) (c : DetachedContext) :
    (c.depth.toNat + r.height < maxDepth.toNat →
      r.report.Yields c (if r.covered false then none else r.ownSlot none) ⟨c.depth, none⟩) ∧
    (maxDepth.toNat ≤ c.depth.toNat + r.height →
      ∃ pending?, r.report.Panics c (.context overflow) ⟨c.depth, pending?⟩) ∧
    ((r.report c).ending = .returned (r.ownSlot none) ↔
      c.depth.toNat + r.height < maxDepth.toNat ∧
        (r.ownSlot none = none ∨ r.covered false = false)) := by
  have hshared : r.sharedSlot none = if r.covered false then none else r.ownSlot none :=
    r.sharedSlot_eq none false
  refine ⟨fun room => hshared ▸ r.report_yields c room, r.report_overflows c, ?_⟩
  by_cases room : c.depth.toNat + r.height < maxDepth.toNat
  · obtain ⟨trace, hrun⟩ := r.report_yields c room
    rw [hrun, hshared, Ending.returned.injEq, and_iff_right room]
    cases r.covered false with
    | false => simp
    | true => simp [eq_comm]
  · obtain ⟨pending?, trace, hrun⟩ := r.report_overflows c (Nat.le_of_not_lt room)
    rw [hrun]
    simp [room]

/-- An error that is recorded before a further frame is opened and closed is not reported, though a
slot of the frame's own would still hold it. So a managed routine that records an error and then
dispatches a wrapped call returns as if it had recorded none. -/
theorem report_loses_covered_error :
    let lost : ManagedError := .argument "recorded"
    let r : FrameRun := .setPending lost (.nested .done .done)
    let outer : Native := .managed 0
      ⟨"outer", fun _ => .setPending lost (.dispatch 9 [] fun _ => .ret .void)⟩
    let seven : Native := .allInteger 0 ⟨"seven", fun _ => .ok 7⟩
    let registry : Registry :=
      ⟨⟨#[⟨7, outer, .wrapped⟩, ⟨9, seven, .wrapped⟩]⟩, ⟨.panic, true, false⟩⟩
    r.ownSlot none = some lost ∧ (r.report {}).ending = .returned none ∧
      (registry.dispatch 2 7 [] (DetachedContext.mk 0 none)).ending = .returned (.ok .void) := by
  refine ⟨rfl, rfl, ?_⟩
  decide +kernel

end FrameRun

end InternalCall
