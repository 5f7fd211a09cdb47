import ScriptShell.Completion.Candidate

/-! # The completion cache

Lists of items are kept for a while under the document, text and caret they were computed for. A
request goes in steps, each of which sees and leaves a whole cache: it looks its key up, removes an
expired entry, asks the source, and puts the new list in. Requests may take turns between any two
steps. -/

namespace ScriptShell

/-- What a list was computed for. -/
structure CacheKey where
  document : String
  text : String
  caret : Nat
  deriving DecidableEq, Repr, Inhabited

/-- A list of items, with the number of the computation it came from. -/
structure Listing where
  serial : Nat
  items : List Suggestion
  deriving DecidableEq, Repr, Inhabited

/-- A list that is kept, and since when, in milliseconds. -/
structure CacheEntry where
  key : CacheKey
  listing : Listing
  inserted : Nat
  deriving DecidableEq, Repr, Inhabited

/-- Kept lists, at most one for a key, and how many lists were computed. -/
structure CompletionCache where
  entries : List CacheEntry := []
  computed : Nat := 0
  deriving DecidableEq, Repr, Inhabited

/-- How long lists are kept, in milliseconds, and how they are shown. -/
structure CacheSettings where
  ttl : Nat := 60000
  rich : Bool := false
  deriving DecidableEq, Repr, Inhabited

namespace CacheEntry

/-- Whether an entry has been kept for its time. -/
def isExpired (e : CacheEntry) (ttl now : Nat) : Bool :=
  ttl ≤ now - e.inserted

end CacheEntry

/-- What looking a key up finds. -/
inductive CacheLookup where
  | hit (listing : Listing)
  | expired
  | absent
  deriving DecidableEq, Repr, Inhabited

namespace CompletionCache

/-- The number of kept lists, expired ones included. -/
def size (c : CompletionCache) : Nat :=
  c.entries.length

/-- The entry of a key. -/
def find? (c : CompletionCache) (key : CacheKey) : Option CacheEntry :=
  c.entries.find? (·.key = key)

/-! ## Steps -/

/-- Looks a key up. -/
def lookup (c : CompletionCache) (ttl now : Nat) (key : CacheKey) : CacheLookup :=
  match c.find? key with
  | none => .absent
  | some e => if e.isExpired ttl now then .expired else .hit e.listing

/-- Removes the entry of a key if it is expired now. -/
def reap (c : CompletionCache) (ttl now : Nat) (key : CacheKey) : CompletionCache :=
  { c with entries := c.entries.filter fun e => !(e.key = key && e.isExpired ttl now) }

/-- Takes up a computed list under a new number. -/
def number (c : CompletionCache) (items : List Suggestion) : Listing × CompletionCache :=
  (⟨c.computed, items⟩, { c with computed := c.computed + 1 })

/-- Keeps a list under a key, in the place of the one kept there. -/
def insert (c : CompletionCache) (now : Nat) (key : CacheKey) (listing : Listing) :
    CompletionCache :=
  { c with entries := ⟨key, listing, now⟩ :: c.entries.filter (·.key ≠ key) }

/-- A list that was put in is found under its key. -/
@[simp] theorem find?_insert_self (c : CompletionCache) (now : Nat) (key : CacheKey)
    (listing : Listing) : (c.insert now key listing).find? key = some ⟨key, listing, now⟩ := by
  simp [find?, insert]

/-- A list that was put in leaves the entries of other keys. -/
theorem find?_insert_of_ne (c : CompletionCache) (now : Nat) {key other : CacheKey}
    (listing : Listing) (h : other ≠ key) :
    (c.insert now key listing).find? other = c.find? other := by
  have hk : ¬ key = other := fun e => h e.symm
  simp only [find?, insert, List.find?_cons, hk, decide_false, List.find?_filter]
  congr 1
  funext e
  by_cases he : e.key = other <;> simp [he, h]

/-! ## Requests -/

/-- An answered request: the list or an error, the cache after it, and whether the source was asked.
-/
structure Completed where
  result : Except CompletionError Listing
  cache : CompletionCache
  asked : Bool

/-- Asks the source and keeps what it answers. Without candidates the list is empty, and nothing is
kept. -/
def compute (c : CompletionCache) (settings : CacheSettings) (now : Nat) (key : CacheKey)
    (reply : Except CompletionError (Option (List Candidate))) : Completed :=
  match reply with
  | .ok (some candidates) =>
    let (listing, c) := c.number (offeredItems settings.rich candidates)
    ⟨.ok listing, c.insert now key listing, true⟩
  | .ok none | .error (.inconsistent _) =>
    let (listing, c) := c.number []
    ⟨.ok listing, c, true⟩
  | .error e => ⟨.error e, c, true⟩

/-- Answers a request from the cache if it can, and from the source otherwise. An empty text is
never looked up. -/
def complete (c : CompletionCache) (settings : CacheSettings) (source : CompletionSource)
    (now : Nat) (document : Document) (text : String) (caret : Nat) : Completed :=
  let key : CacheKey := ⟨document.name, text, caret⟩
  if text.isEmpty then c.compute settings now key (source document text caret)
  else
    match c.lookup settings.ttl now key with
    | .hit listing => ⟨.ok listing, c, false⟩
    | .expired =>
      (c.reap settings.ttl now key).compute settings now key (source document text caret)
    | .absent => c.compute settings now key (source document text caret)

end CompletionCache

/-! ## Descriptions

The description of an item is computed when it is first asked for. -/

/-- The lists whose descriptions were computed, by number, and how many descriptions that were. -/
structure DescriptionLog where
  described : List Nat := []
  count : Nat := 0
  deriving DecidableEq, Repr, Inhabited

/-- The descriptions of a list, and the log after asking for them. -/
def DescriptionLog.describe (log : DescriptionLog) (listing : Listing) :
    List String × DescriptionLog :=
  (listing.items.map (·.description),
   if listing.serial ∈ log.described then log
   else ⟨listing.serial :: log.described, log.count + listing.items.length⟩)

end ScriptShell
