import InternalCall.Header.Layout
import InternalCall.Main
import InternalCall.Registry.Link
import InternalCall.Registry.Slot
import InternalCall.Proofs.Table.Order
import InternalCall.Proofs.Table.Search
import InternalCall.Proofs.Except
import InternalCall.Proofs.Lookup
import InternalCall.Proofs.Table.Store
import InternalCall.Proofs.Table.Failure
import InternalCall.Proofs.Table.Rules
import InternalCall.Proofs.Header.Validation
import InternalCall.Proofs.Header.SharedRules
import InternalCall.Proofs.Table.Resolution
import InternalCall.Proofs.Table.CallSites
import InternalCall.Proofs.Table.Sequences
import InternalCall.Proofs.Call.Marshal
import InternalCall.Proofs.Call.Meaning
import InternalCall.Proofs.Call.Invoke
import InternalCall.Proofs.Call.OwnCalls
import InternalCall.Proofs.Call.ContextUse
import InternalCall.Proofs.Call.Kinds
import InternalCall.Proofs.Call.Conventions
import InternalCall.Proofs.Registry.Dispatch
import InternalCall.Proofs.Native.Acts
import InternalCall.Proofs.Session.Basic
import InternalCall.Proofs.Session.StaleError
import InternalCall.Proofs.Session.Balance
import InternalCall.Proofs.Registry.Relay
import InternalCall.Proofs.Call.NestedFrames
import InternalCall.Proofs.Text.Numeral
import InternalCall.Proofs.Text.Pieces
import InternalCall.Proofs.Header.Shape
import InternalCall.Proofs.Header.Grammar
import InternalCall.Proofs.Header.Steps
import InternalCall.Proofs.Header.Assembly
import InternalCall.Proofs.Header.Recognition
import InternalCall.Proofs.Header.Printed
import InternalCall.Proofs.Header.RoundTrip
import InternalCall.Proofs.Registry.Catalog
import InternalCall.Proofs.Registry.Registrations
import InternalCall.Proofs.Registry.Linking
import InternalCall.Proofs.Registry.SlotHistory
import InternalCall.Proofs.Inspector.Agreement
import InternalCall.Proofs.Inspector.Statistics
import InternalCall.Proofs.Call.Panics
import InternalCall.Proofs.Call.CallLog
import InternalCall.Proofs.Call.ReturnKinds
import InternalCall.Proofs.Header.Rearrangement
import InternalCall.Proofs.Registry.Arity
import InternalCall.Proofs.Header.Flaws
import InternalCall.Proofs.Header.LineErrors
import InternalCall.Proofs.Header.Spacing
import InternalCall.Proofs.Header.TableErrors
import InternalCall.Proofs.Header.Composition
import InternalCall.Proofs.Header.SignatureText
import InternalCall.Proofs.Header.Parameters
import InternalCall.Proofs.Toml.Names
import InternalCall.Proofs.Settings.Document
import InternalCall.Proofs.Header.Cursor
import InternalCall.Proofs.Header.Placement
import InternalCall.Proofs.Header.ByPosition
