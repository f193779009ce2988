import SfcCheck.Document
import SfcCheck.Table

/-!
# A bounded cache of what is derived from documents

Entries are kept by address. An entry serves as long as the version and the language of the document
are the same. Every access first drops the entries that were not used for a while; a new entry in a
full cache takes the place of the one that was used least recently, the older one if two were used
at the same time. A document that cannot be parsed takes nobody's place.

Time is any type with a difference and an order.
-/

namespace SfcCheck

/-- A model and the document that it was derived from. -/
structure ModelCache.Entry (τ α : Type) where
  version : Int
  languageId : String
  lastUse : τ
  model : α

/-- A cache. -/
structure ModelCache (τ α : Type) where
  /-- The number of entries at which the cache is full. -/
  maxEntries : Int
  /-- How long an entry is kept without being used. -/
  interval : τ
  entries : Table (ModelCache.Entry τ α)
  disposed : Bool

/-- Why a cache gives no model. -/
inductive ModelCache.Failure (ε : Type) where
  | disposed
  /-- The cache is full without holding an entry to drop. -/
  | nothingToDrop
  | unparsable (e : ε)

/-- The failure in words, given those for documents that cannot be parsed. -/
def ModelCache.Failure.message {ε : Type} (parseMessage : ε → String) :
    ModelCache.Failure ε → String
  | disposed => "language model cache has been disposed"
  | nothingToDrop => "min() arg is an empty sequence"
  | unparsable e => parseMessage e

namespace ModelCache

variable {τ α ε : Type}

/-- A new cache. -/
def empty (maxEntries : Int) (interval : τ) : ModelCache τ α := ⟨maxEntries, interval, [], false⟩

/-- The number of entries. -/
def size (c : ModelCache τ α) : Nat := c.entries.length

/-- The addresses of the documents in the cache. -/
def uris (c : ModelCache τ α) : List String := c.entries.keys

/-- Whether an entry serves for a document. -/
def Entry.serves (e : Entry τ α) (d : Document) : Bool :=
  e.version == d.version && e.languageId == d.languageId

/-- Drops the entries that were last used before a time. -/
def dropBefore [LT τ] [DecidableLT τ] (cutoff : τ) (t : Table (Entry τ α)) : Table (Entry τ α) :=
  t.filter fun e => !decide (e.2.lastUse < cutoff)

/-- The address of the entry that was used least recently, the first of several. -/
def oldest? [LT τ] [DecidableLT τ] : Table (Entry τ α) → Option String
  | [] => none
  | e :: t => some (t.foldl (fun o x => if x.2.lastUse < o.2.lastUse then x else o) e).1

/-- Makes room for one more entry, if the cache is full. -/
def makeRoom [LT τ] [DecidableLT τ] (maxEntries : Int) (t : Table (Entry τ α)) :
    Option (Table (Entry τ α)) :=
  if maxEntries ≤ t.length then (oldest? t).map t.erase else some t

/-- Gives the model of a document at a time, parsing it if no entry serves. -/
def get [Sub τ] [LT τ] [DecidableLT τ] (parse : Document → Except ε α) (now : τ) (d : Document)
    (c : ModelCache τ α) : Except (Failure ε) α × ModelCache τ α :=
  if c.disposed then (.error .disposed, c)
  else
    let kept := dropBefore (now - c.interval) c.entries
    let known := (kept.get? d.uri).isSome
    match (kept.get? d.uri).filter (·.serves d) with
    | some e => (.ok e.model, { c with entries := kept.put d.uri { e with lastUse := now } })
    | none =>
      match parse d with
      | .error e => (.error (.unparsable e), { c with entries := kept })
      | .ok model =>
        match if known then some kept else makeRoom c.maxEntries kept with
        | none => (.error .nothingToDrop, { c with entries := kept })
        | some room =>
          (.ok model,
            { c with entries := room.put d.uri ⟨d.version, d.languageId, now, model⟩ })

/-- Drops all entries and serves no more. -/
def dispose (c : ModelCache τ α) : ModelCache τ α := { c with entries := [], disposed := true }

end ModelCache

end SfcCheck
