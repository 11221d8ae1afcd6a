import InternalCall.Header.Basic
import InternalCall.Proofs.Header.Prototype
import InternalCall.Proofs.Header.Shape

/-!
# The grammar of headers

A header is a sequence of parts: declarations, array blocks, prototypes and
ignored lines. The lines of a part are given by shape alone, so the grammar knows
nothing of a reader's state. Parts that spell a text still have to be consistent:
no array is given twice, each assembly has three arrays of one length, and each
symbol is announced with its own token, if it is announced at all. Consistent
parts determine the tables.
-/

namespace InternalCall.Header

open Text

/-- A symbol in an array of symbols, with the tokens announced since the symbol before it. -/
structure Announced where
  /-- The announced tokens. -/
  comments : List UInt32
  /-- The symbol. -/
  symbol : String

/-- What stands between the braces of an array. -/
inductive Body where
  /-- The tokens. -/
  | indexes (tokens : List UInt32)
  /-- The symbols. -/
  | funcs (symbols : List Announced)
  /-- The flag bytes. -/
  | flags (bytes : List UInt8)

/-- The array that the body belongs to. -/
def Body.array : Body → ArrayKind
  | indexes _ => .indexes
  | funcs _ => .funcs
  | flags _ => .flags

/-- The tokens in the body. -/
def Body.tokens : Body → List UInt32
  | indexes tokens => tokens
  | _ => []

/-- The symbols in the body. -/
def Body.symbols : Body → List Announced
  | funcs symbols => symbols
  | _ => []

/-- The flag bytes in the body. -/
def Body.bytes : Body → List UInt8
  | flags bytes => bytes
  | _ => []

theorem Body.tokens_eq_nil {body : Body} (h : body.array ≠ .indexes) : body.tokens = [] := by
  cases body with
  | indexes => exact absurd rfl h
  | _ => rfl

theorem Body.symbols_eq_nil {body : Body} (h : body.array ≠ .funcs) : body.symbols = [] := by
  cases body with
  | funcs => exact absurd rfl h
  | _ => rfl

theorem Body.bytes_eq_nil {body : Body} (h : body.array ≠ .flags) : body.bytes = [] := by
  cases body with
  | flags => exact absurd rfl h
  | _ => rfl

/-- The body of the array without items. -/
def Body.empty : ArrayKind → Body
  | .indexes => .indexes []
  | .funcs => .funcs []
  | .flags => .flags []

/-- A part of a header. -/
inductive Part where
  /-- There is a table for the assembly. -/
  | declaration (assembly : String)
  /-- An array of the assembly's table. -/
  | block (assembly : String) (body : Body)
  /-- The symbol has the signature. -/
  | prototype (symbol : String) (signature : Signature)
  /-- A line without meaning. -/
  | ignored

/-- The line is an item that denotes the number. -/
def NumberLine (line : List Char) (n : Nat) : Prop := ∃ item, ItemLine line item ∧ Denotes item n

/-- The lines of a body, and the tokens announced after its last symbol. -/
inductive BodyLines : List (List Char) → Body → List UInt32 → Prop where
  | empty {array : ArrayKind} : BodyLines [] (.empty array) []
  | token {lines : List (List Char)} {tokens : List UInt32} {line : List Char} {token : UInt32} :
      BodyLines lines (.indexes tokens) [] → NumberLine line token.toNat →
      BodyLines (lines ++ [line]) (.indexes (tokens ++ [token])) []
  | flags {lines : List (List Char)} {bytes : List UInt8} {line : List Char} {byte : UInt8} :
      BodyLines lines (.flags bytes) [] → NumberLine line byte.toNat →
      BodyLines (lines ++ [line]) (.flags (bytes ++ [byte])) []
  | comment {lines : List (List Char)} {symbols : List Announced} {pending : List UInt32}
      {line : List Char} {token : UInt32} :
      BodyLines lines (.funcs symbols) pending → TokenLine line token →
      BodyLines (lines ++ [line]) (.funcs symbols) (pending ++ [token])
  | symbol {lines : List (List Char)} {symbols : List Announced} {pending : List UInt32}
      {line symbol : List Char} :
      BodyLines lines (.funcs symbols) pending → ItemLine line symbol →
      BodyLines (lines ++ [line]) (.funcs (symbols ++ [⟨pending, String.ofList symbol⟩])) []

/-- The line that ends an array. -/
def closingLine : List Char := "\x7d;".toList

/-- The lines of a part. -/
inductive PartLines : List (List Char) → Part → Prop where
  | declaration {line assembly : List Char} : DeclarationLine line assembly →
      PartLines [line] (.declaration (String.ofList assembly))
  | block {line assembly : List Char} {lines : List (List Char)} {body : Body}
      {pending : List UInt32} :
      OpeningLine line assembly body.array → BodyLines lines body pending →
      PartLines (line :: lines ++ [closingLine]) (.block (String.ofList assembly) body)
  | prototype {line ret symbol params : List Char} {s : Signature} :
      PrototypeLine line ret symbol params → ReturnKind.ofCName? (String.ofList ret) = some s.ret →
      ParamsMean params s.params → PartLines [line] (.prototype (String.ofList symbol) s)
  | ignored {line : List Char} : CommentLine line → (∀ assembly, ¬DeclarationLine line assembly) →
      PartLines [line] .ignored

/-- The lines are those of the parts, one after the other. -/
inductive Spells : List (List Char) → List Part → Prop where
  | nil : Spells [] []
  | snoc {front lines : List (List Char)} {parts : List Part} {part : Part} :
      Spells front parts → PartLines lines part → Spells (front ++ lines) (parts ++ [part])

theorem Spells.append {front rest : List (List Char)} {parts more : List Part}
    (hf : Spells front parts) (hr : Spells rest more) : Spells (front ++ rest) (parts ++ more) := by
  induction hr with
  | nil => rwa [List.append_nil, List.append_nil]
  | snoc _ hp ih =>
      rw [← List.append_assoc, ← List.append_assoc]
      exact ih.snoc hp

theorem Spells.single {lines : List (List Char)} {part : Part} (h : PartLines lines part) :
    Spells lines [part] :=
  Spells.nil.snoc h

/-- The trimmed lines of a text that are not blank. -/
def content (text : List Char) : List (List Char) :=
  ((lines text).map trim).filter fun line => !line.isEmpty

/-! ## What the parts amount to -/

/-- The assembly that the part mentions. -/
def Part.assembly? : Part → Option String
  | declaration assembly => some assembly
  | block assembly _ => some assembly
  | _ => none

/-- The array that the part gives. -/
def Part.array? : Part → Option (String × ArrayKind)
  | block assembly body => some (assembly, body.array)
  | _ => none

/-- The prototype that the part gives. -/
def Part.prototype? : Part → Option (String × Signature)
  | prototype symbol signature => some (symbol, signature)
  | _ => none

/-- The items that the part gives for the assembly, of the kind that `f` finds in a body. -/
def Part.items {α : Type} (f : Body → List α) (assembly : String) : Part → List α
  | block name body => if name = assembly then f body else []
  | _ => []

section Parts

variable (parts : List Part)

/-- The assemblies, in the order of their first mention. -/
def mentioned : List String := (parts.filterMap Part.assembly?).eraseDups

/-- The arrays that are given. -/
def arrays : List (String × ArrayKind) := parts.filterMap Part.array?

/-- The items of the assembly, of the kind that `f` finds in a body. -/
def itemsOf {α : Type} (f : Body → List α) (assembly : String) : List α :=
  parts.flatMap (Part.items f assembly)

/-- The tokens of the assembly. -/
def tokensOf (assembly : String) : List UInt32 := itemsOf parts Body.tokens assembly

/-- The symbols of the assembly. -/
def symbolsOf (assembly : String) : List Announced := itemsOf parts Body.symbols assembly

/-- The flag bytes of the assembly. -/
def flagsOf (assembly : String) : List UInt8 := itemsOf parts Body.bytes assembly

/-- The last prototype of the symbol, wherever it stands. -/
def prototypeOf (symbol : String) : Option Signature :=
  (parts.filterMap Part.prototype?).reverse.lookup symbol

/-- The entry that a token, a symbol and a flag byte at one position make. -/
def entryOf : UInt32 × Announced × UInt8 → TableEntry
  | (token, s, flags) => ⟨token, s.symbol, prototypeOf parts s.symbol, flags⟩

/-- The table of the assembly, put together position by position. -/
def tableOf (assembly : String) : AssemblyTable :=
  let items := (tokensOf parts assembly).zip
    ((symbolsOf parts assembly).zip (flagsOf parts assembly))
  ⟨assembly, (items.map (entryOf parts)).toArray⟩

/-- The header that the parts amount to. -/
def ofParts : Header := ⟨(mentioned parts).map (tableOf parts)⟩

/-- The arrays of the assembly make a table. -/
structure Whole (assembly : String) : Prop where
  /-- All three arrays are given. -/
  complete : ∀ array, (assembly, array) ∈ arrays parts
  /-- They are equally long. -/
  balanced : (tokensOf parts assembly).length = (symbolsOf parts assembly).length ∧
    (tokensOf parts assembly).length = (flagsOf parts assembly).length
  /-- The last token announced for a symbol stands at the symbol's position. -/
  announced : ∀ (position : Nat) (s : Announced) (comment : UInt32),
    (symbolsOf parts assembly)[position]? = some s → s.comments.getLast? = some comment →
      (tokensOf parts assembly)[position]? = some comment

/-- The parts make a header: no array is given twice, and each assembly has its table. -/
structure Consistent : Prop where
  /-- No array is given twice. -/
  once : (arrays parts).Nodup
  /-- Every assembly has a table. -/
  whole : ∀ assembly ∈ mentioned parts, Whole parts assembly

end Parts

/-! ## The same arrays -/

/-- Both sequences of parts give the assembly the same arrays. -/
structure SameArrays (parts parts' : List Part) (a : String) : Prop where
  /-- The same arrays are there. -/
  given : ∀ array, (a, array) ∈ arrays parts ↔ (a, array) ∈ arrays parts'
  /-- They hold the same tokens. -/
  tokens : tokensOf parts a = tokensOf parts' a
  /-- They hold the same symbols. -/
  symbols : symbolsOf parts a = symbolsOf parts' a
  /-- They hold the same flag bytes. -/
  flags : flagsOf parts a = flagsOf parts' a

namespace SameArrays

variable {parts parts' : List Part} {a : String} (h : SameArrays parts parts' a)
include h

theorem whole (hw : Whole parts a) : Whole parts' a := by
  refine ⟨fun array => (h.given array).mp (hw.complete array), ?_, ?_⟩
  · rw [← h.tokens, ← h.symbols, ← h.flags]
    exact hw.balanced
  · rw [← h.tokens, ← h.symbols]
    exact hw.announced

/-- The table is the same if its symbols have the same prototypes. -/
theorem tableOf_eq (hp : ∀ e ∈ (tableOf parts a).entries.toList,
    prototypeOf parts e.symbol = prototypeOf parts' e.symbol) :
    tableOf parts a = tableOf parts' a := by
  have hentries : ∀ item ∈ (tokensOf parts a).zip ((symbolsOf parts a).zip (flagsOf parts a)),
      entryOf parts item = entryOf parts' item := by
    intro item hi
    have he := hp (entryOf parts item) (List.mem_map_of_mem hi)
    obtain ⟨token, s, flags⟩ := item
    exact congrArg (TableEntry.mk token s.symbol · flags) he
  rw [tableOf, tableOf, ← h.tokens, ← h.symbols, ← h.flags]
  exact congrArg (fun entries => AssemblyTable.mk a entries.toArray) (List.map_congr_left hentries)

end SameArrays

end InternalCall.Header
