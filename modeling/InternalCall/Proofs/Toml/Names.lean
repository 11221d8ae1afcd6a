import InternalCall.Toml.Document
import Mathlib.Data.Option.Basic

/-!
# Names in a document

Each line of a document adds entries under names that are not there yet, or changes
what stands under a name. So in the table of a document no name occurs twice, and an
entry is found under its name alone.
-/

namespace InternalCall.Toml

variable {entries entries' : Entries}

namespace Entries

theorem nodup_names_add? {name : String} {item : Item} (distinct : entries.names.Nodup)
    (h : add? name item entries = some entries') : entries'.names.Nodup := by
  rw [add?] at h
  split at h
  · next fresh =>
      cases h
      exact nodup_names_append item distinct fresh
  · cases h

/-- A change at the end of a path keeps the names distinct if the change itself does. On the way
entries are added under fresh names or exchanged. -/
theorem nodup_names_change? {form here : TableForm} {f : TableForm → Entries → Option Entries}
    (keeps : ∀ here entries entries', entries.names.Nodup → f here entries = some entries' →
      entries'.names.Nodup)
    {path : List String} (distinct : entries.names.Nodup)
    (h : change? form f path here entries = some entries') : entries'.names.Nodup := by
  cases path with
  | nil => exact keeps here entries entries' distinct h
  | cons name path =>
      rw [change?] at h
      split at h
      · next fresh =>
          obtain ⟨inner, -, hi⟩ := Option.bind_eq_some_iff.mp h
          cases hi
          exact nodup_names_append _ distinct fresh
      · obtain ⟨-, -, h⟩ := Option.bind_eq_some_iff.mp h
        obtain ⟨inner, -, hi⟩ := Option.bind_eq_some_iff.mp h
        cases hi
        rwa [names_exchange]
      · obtain ⟨last, -, h⟩ := Option.bind_eq_some_iff.mp h
        obtain ⟨last', -, hl⟩ := Option.bind_eq_some_iff.mp h
        cases hl
        rwa [names_exchange]
      · cases h

theorem nodup_names_assign? {key : Key} {item : Item} {here : TableForm}
    (distinct : entries.names.Nodup) (h : assign? key item here entries = some entries') :
    entries'.names.Nodup := by
  refine nodup_names_change? (fun _ entries entries' distinct h => ?_) distinct h
  obtain ⟨-, -, h⟩ := Option.bind_eq_some_iff.mp h
  exact nodup_names_add? distinct h

theorem nodup_names_openTable? {name : String} (distinct : entries.names.Nodup)
    (h : openTable? name entries = some entries') : entries'.names.Nodup := by
  rw [openTable?] at h
  split at h
  · next fresh =>
      cases h
      exact nodup_names_append _ distinct fresh
  · cases h
    rwa [names_exchange]
  · cases h

theorem nodup_names_openElement? {name : String} (distinct : entries.names.Nodup)
    (h : openElement? name entries = some entries') : entries'.names.Nodup := by
  rw [openElement?] at h
  split at h
  · next fresh =>
      cases h
      exact nodup_names_append _ distinct fresh
  · cases h
    rwa [names_exchange]
  · cases h

end Entries

open Entries

/-- Whatever a line says, the names stay distinct. -/
theorem Draft.nodup_names_add? {d d' : Draft} {s : Statement} (distinct : d.entries.names.Nodup)
    (h : d.add? s = some d') : d'.entries.names.Nodup := by
  cases s with
  | assign key item =>
      obtain ⟨entries, hc, hd⟩ := Option.bind_eq_some_iff.mp h
      cases hd
      exact nodup_names_change? (fun _ _ _ => nodup_names_assign?) distinct hc
  | table key =>
      obtain ⟨entries, hc, hd⟩ := Option.bind_eq_some_iff.mp h
      cases hd
      exact nodup_names_change? (fun _ _ _ => nodup_names_openTable?) distinct hc
  | element key =>
      obtain ⟨entries, hc, hd⟩ := Option.bind_eq_some_iff.mp h
      cases hd
      exact nodup_names_change? (fun _ _ _ => nodup_names_openElement?) distinct hc

theorem Draft.nodup_names_foldlM {d d' : Draft} {statements : List Statement}
    (distinct : d.entries.names.Nodup) (h : statements.foldlM Draft.add? d = some d') :
    d'.entries.names.Nodup := by
  induction statements generalizing d with
  | nil =>
      cases h
      exact distinct
  | cons s rest ih =>
      rw [List.foldlM_cons] at h
      obtain ⟨next, hs, hrest⟩ := Option.bind_eq_some_iff.mp h
      exact ih (nodup_names_add? distinct hs) hrest

/-- In the table of a document no name occurs twice. -/
theorem nodup_names_of_parse {text : String} (h : parse text = some entries) :
    entries.names.Nodup := by
  obtain ⟨statements, -, hs⟩ := Option.bind_eq_some_iff.mp h
  obtain ⟨d, hd, he⟩ := Option.bind_eq_some_iff.mp hs
  cases he
  have start : ({} : Draft).entries.names.Nodup := List.nodup_nil
  exact Draft.nodup_names_foldlM start hd

end InternalCall.Toml
