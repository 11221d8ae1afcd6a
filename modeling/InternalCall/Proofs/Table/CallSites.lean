import InternalCall.Proofs.Run.Steps
import InternalCall.Proofs.Table.Resolution

/-!
# Call sites that are linked when a module is loaded

Linking the tokens of a module either yields their entries, one for each token in
the order of the tokens, or reports the first token that the store lacks. After a
successful link no call site of the module can miss: it resolves to the entry that
the link yielded, whatever a miss would do to the process.
-/

namespace InternalCall

/-- The entry has the token and stands in the store, at the only position that has it. -/
def Store.Holds (store : Store) (token : UInt32) (e : Entry) : Prop :=
  e.token = token ∧ ∃ i, store.get? i = some e ∧
    ∀ (j : Nat) (f : Entry), store.get? j = some f → f.token = token → j = i

/-- In ascending order, an entry that has the token is the only one. -/
theorem Store.holds_iff {store : Store} (ascending : Ascending (store.entries.toList.map Entry.token))
    {token : UInt32} {e : Entry} : store.Holds token e ↔ e ∈ store.entries ∧ e.token = token := by
  constructor
  · rintro ⟨htoken, i, he, -⟩
    exact ⟨Array.mem_of_getElem? he, htoken⟩
  · rintro ⟨he, rfl⟩
    obtain ⟨i, hi⟩ := Array.mem_iff_getElem?.mp he
    refine ⟨rfl, i, hi, fun j f hf htoken => ?_⟩
    rw [Store.get?, ← Array.getElem?_toList] at hf
    rw [← Array.getElem?_toList] at hi
    exact ascending.position_eq hf hi htoken

namespace Resolver

section
variable {r : Resolver} (ascending : Ascending (r.store.entries.toList.map Entry.token))
include ascending

/-- A token resolves exactly to the entry that the store holds under it. -/
theorem resolve_eq_ok_iff_holds {token : UInt32} {e : Entry} :
    r.resolve token = .ok e ↔ r.store.Holds token e := by
  rw [Store.holds_iff ascending, resolve_eq_ok_iff ascending]

/-- A link yields exactly the entries that the store holds under the tokens, position by position. -/
theorem link_eq_ok_iff {tokens : List UInt32} {entries : List Entry} :
    r.link tokens = .ok entries ↔ List.Forall₂ r.store.Holds tokens entries := by
  simp only [link, mapM_eq_ok_iff, resolve_eq_ok_iff_holds ascending]

/-- A link reports the first of the tokens that the store lacks. -/
theorem link_eq_error_iff {tokens : List UInt32} {miss : NotFound} :
    r.link tokens = .error miss ↔ ∃ before token after, tokens = before ++ token :: after ∧
      (∀ earlier ∈ before, earlier ∈ r.store.tokens) ∧ token ∉ r.store.tokens ∧
      miss = ⟨token⟩ := by
  simp only [link, mapM_eq_error_iff, exists_resolve_iff ascending, resolve_eq_error_iff ascending]

/-- A link succeeds exactly if the store has all of the tokens. -/
theorem exists_link_iff {tokens : List UInt32} :
    (∃ entries, r.link tokens = .ok entries) ↔ ∀ token ∈ tokens, token ∈ r.store.tokens := by
  constructor
  · rintro ⟨entries, linked⟩ token htoken
    obtain ⟨e, -, resolved⟩ := exists_of_mem_of_forall₂ (mapM_eq_ok_iff.mp linked) htoken
    exact (exists_resolve_iff ascending).mp ⟨e, resolved⟩
  · intro present
    rw [exists_eq_ok_iff]
    intro miss failed
    obtain ⟨before, token, after, rfl, -, absent, -⟩ := (link_eq_error_iff ascending).mp failed
    exact absent (present token (by simp))

end

/-- A live call site whose token resolves gets the entry, and nothing else happens. -/
theorem resolveCallSite_of_resolve {σ : Type} {r : Resolver} {token : UInt32} {e : Entry}
    (resolved : r.resolve token = .ok e) (s : σ) :
    r.resolveCallSite token s = ⟨.returned e, s, []⟩ := by
  rw [resolveCallSite, resolved]
  rfl

end Resolver

/-- Linking the tokens of a module makes its call sites safe. The link succeeds exactly if the store
has every token. It then yields for each token, in their order, the entry that the store holds under
it, and a live call site with that token gets the entry without an event, whatever a miss would do.
Otherwise the link reports the first token that the store lacks. -/
theorem Resolver.link_secures_call_sites {store : Store}
    (built : store.IsBuilt) (onMiss : FatalAction) (tokens : List UInt32) :
    ((∃ entries, (Resolver.mk store onMiss).link tokens = .ok entries) ↔
      ∀ token ∈ tokens, token ∈ store.tokens) ∧
    (∀ entries, (Resolver.mk store onMiss).link tokens = .ok entries →
      List.Forall₂ (fun token e => store.Holds token e ∧
        ∀ {σ : Type} (action : FatalAction) (s : σ),
          (Resolver.mk store action).resolveCallSite token s = ⟨.returned e, s, []⟩)
        tokens entries) ∧
    ∀ miss, (Resolver.mk store onMiss).link tokens = .error miss ↔
      ∃ before token after, tokens = before ++ token :: after ∧
        (∀ earlier ∈ before, earlier ∈ store.tokens) ∧ token ∉ store.tokens ∧
        miss = ⟨token⟩ := by
  have ascending := built.ascending
  refine ⟨exists_link_iff ascending, fun entries linked => ?_, fun miss => link_eq_error_iff ascending⟩
  refine ((link_eq_ok_iff ascending).mp linked).imp fun token e held => ⟨held, fun action s => ?_⟩
  -- the search does not depend on what a miss would do
  have resolved : (Resolver.mk store action).resolve token = .ok e :=
    (resolve_eq_ok_iff_holds ascending).mpr held
  exact resolveCallSite_of_resolve resolved s

/-- A token that is linked twice yields an entry in both places, and its call sites get it; of two
tokens that the store lacks the first in the list is reported, not the smaller one. -/
theorem Resolver.link_secures_call_sites_repeated_token :
    let zero : Native := .allInteger 0 ⟨"zero", fun _ => .ok 0⟩
    let records : List Record := [.ofNative 1 zero .raw, .ofNative 5 zero .raw,
      .ofNative 9 zero .wrapped]
    let store : Store := ⟨#[⟨1, zero, .raw⟩, ⟨5, zero, .raw⟩, ⟨9, zero, .wrapped⟩]⟩
    let resolver : Resolver := ⟨store, .abort⟩
    Store.build records = .ok store ∧
      (∃ first second third, resolver.link [9, 5, 9] = .ok [first, second, third] ∧
        first.token = 9 ∧ second.token = 5 ∧ third.token = 9 ∧
        ∀ c : DetachedContext, resolver.resolveCallSite 9 c = ⟨.returned third, c, []⟩) ∧
      resolver.link [5, 7, 9, 3] = .error ⟨7⟩ := by
  intro zero records store resolver
  have built : Store.build records = .ok store := rfl
  have tokens : store.tokens = [1, 5, 9] := rfl
  have links := Resolver.link_secures_call_sites (.ofRecords built) .abort
  obtain ⟨entries, linked⟩ := (links [9, 5, 9]).1.mpr (by simp [tokens])
  obtain _ | ⟨first, _ | ⟨second, _ | ⟨third, _ | _⟩⟩⟩ := (links [9, 5, 9]).2.1 entries linked
  refine ⟨built, ⟨_, _, _, linked, first.1.1, second.1.1, third.1.1, third.2 .abort⟩, ?_⟩
  exact ((links [5, 7, 9, 3]).2.2 ⟨7⟩).mpr
    ⟨[5], 7, [9, 3], rfl, by simp [tokens], by simp [tokens], rfl⟩

end InternalCall
