import ScriptShell.Completion.Cache

/-! # Calls that share a cache

A call of `CompletionCache.complete` goes in steps, each of which has the cache to itself: it looks
its key up, removes an expired entry, asks the source and keeps the list that it computes. Between
two steps of one call others may take theirs, and time may pass. `SharedCache` is the cache with its
clock, all calls that were begun and a record of every step, and `SharedCache.run` follows any
sequence of turns, in which sources may answer whatever they like.

* **`complete_eq_steps`**: a call whose steps nobody comes between is `CompletionCache.complete`.
* **`Sound.turn`**: what one turn keeps, and **`fresh_run`**: what therefore holds after all turns.
  Lists answered from the cache are fresh and were computed for the same key, expired entries are
  all that is removed, and only shown items are answered. -/

namespace ScriptShell

/-- What a source answers. -/
abbrev SourceReply := Except CompletionError (Option (List Candidate))

namespace SourceReply

/-- Whether there are candidates, as there may be none and the source may fail. -/
def hasCandidates : SourceReply → Bool
  | .ok (some _) => true
  | .ok none | .error _ => false

/-- What a call answers that gets a reply from its source. -/
def Gives (settings : CacheSettings) (result : Except CompletionError Listing) :
    SourceReply → Prop
  | .ok (some candidates) =>
    ∃ listing, result = .ok listing ∧ listing.items = offeredItems settings.rich candidates
  | .ok none | .error (.inconsistent _) => ∃ listing, result = .ok listing ∧ listing.items = []
  | .error e => result = .error e

end SourceReply

/-! ## Steps of a call -/

/-- Where a call stands between two of its steps. -/
inductive CallStage where
  /-- About to look its key up. -/
  | looking
  /-- About to remove the entry that it found expired. -/
  | reaping
  /-- About to ask the source. -/
  | asking
  /-- About to keep the list that it has computed. -/
  | keeping (listing : Listing)
  | answered (result : Except CompletionError Listing)

/-- A call for a key. -/
structure CompletionCall where
  key : CacheKey
  stage : CallStage

/-- What a call has done in a step. -/
inductive CallAct where
  /-- Answered a list from the cache. -/
  | found (listing : Listing)
  /-- Found no list that it could answer. -/
  | missed
  | reaped (removed : List CacheEntry)
  | asked (reply : SourceReply)
  | kept (listing : Listing)

/-- What a step leaves: the cache, where the call stands, and what it did, if it still had anything
to do. -/
structure CallStep where
  cache : CompletionCache
  stage : CallStage
  act : Option CallAct

namespace CompletionCall

/-- A call at its start. An empty text is never looked up. -/
def start (key : CacheKey) : CompletionCall :=
  ⟨key, if key.text.isEmpty then .asking else .looking⟩

/-- The entries that a call removes: that of its key, if it has been kept for its time. -/
def expired (settings : CacheSettings) (now : Nat) (key : CacheKey) (c : CompletionCache) :
    List CacheEntry :=
  c.entries.filter fun e => e.key = key && e.isExpired settings.ttl now

/-- Takes up what the source answers. -/
def takeUp (settings : CacheSettings) (c : CompletionCache) :
    SourceReply → CompletionCache × CallStage
  | .ok (some candidates) =>
    let (listing, c) := c.number (offeredItems settings.rich candidates)
    (c, .keeping listing)
  | .ok none | .error (.inconsistent _) =>
    let (listing, c) := c.number []
    (c, .answered (.ok listing))
  | .error e => (c, .answered (.error e))

/-- The next step of a call; `reply` is what the source answers, if this is the step that asks. -/
def step (settings : CacheSettings) (now : Nat) (reply : SourceReply) (c : CompletionCache)
    (call : CompletionCall) : CallStep :=
  match call.stage with
  | .looking =>
    match c.lookup settings.ttl now call.key with
    | .hit listing => ⟨c, .answered (.ok listing), some (.found listing)⟩
    | .expired => ⟨c, .reaping, some .missed⟩
    | .absent => ⟨c, .asking, some .missed⟩
  | .reaping =>
    ⟨c.reap settings.ttl now call.key, .asking, some (.reaped (expired settings now call.key c))⟩
  | .asking =>
    let (c, stage) := takeUp settings c reply
    ⟨c, stage, some (.asked reply)⟩
  | .keeping listing =>
    ⟨c.insert now call.key listing, .answered (.ok listing), some (.kept listing)⟩
  | .answered result => ⟨c, .answered result, none⟩

/-- Steps of a call in a row, with nobody in between and no time passing. -/
def steps (settings : CacheSettings) (now : Nat) (reply : SourceReply) :
    Nat → CompletionCache → CompletionCall → CompletionCache × CallStage
  | 0, c, call => (c, call.stage)
  | n + 1, c, call =>
    let after := call.step settings now reply c
    steps settings now reply n after.cache ⟨call.key, after.stage⟩

/-- Asking the source and keeping what it answers are the last steps of a call. -/
theorem steps_asking (settings : CacheSettings) (now : Nat) (reply : SourceReply)
    (c : CompletionCache) (key : CacheKey) (n : Nat) :
    steps settings now reply (n + 2) c ⟨key, .asking⟩ =
      ((c.compute settings now key reply).cache,
        .answered (c.compute settings now key reply).result) := by
  have rests : ∀ n c result, steps settings now reply n c ⟨key, .answered result⟩ =
      (c, .answered result) := by
    intro n
    induction n with
    | zero => exact fun _ _ => rfl
    | succ n ih => exact fun c result => ih c result
  rcases reply with (_ | _ | _) | _ | _ <;> exact rests _ _ _

/-- **A call that nobody comes between** is a request answered at once. -/
theorem complete_eq_steps (settings : CacheSettings) (source : CompletionSource) (now : Nat)
    (c : CompletionCache) (document : Document) (text : String) (caret : Nat) :
    let completed := c.complete settings source now document text caret
    steps settings now (source document text caret) 4 c (start ⟨document.name, text, caret⟩) =
      (completed.cache, .answered completed.result) := by
  unfold CompletionCache.complete start
  by_cases isEmpty : text.isEmpty = true
  · simp only [isEmpty, if_true]
    exact steps_asking settings now _ c _ 2
  · simp only [isEmpty]
    -- The first step is the look-up, and what it finds decides about the others.
    rw [steps, step]
    simp only [Bool.false_eq_true, if_false]
    cases found : c.lookup settings.ttl now ⟨document.name, text, caret⟩ with
    | hit listing => rfl
    | expired => exact steps_asking settings now _ _ _ 0
    | absent => exact steps_asking settings now _ c _ 1

end CompletionCall

/-! ## Turns -/

/-- A step that was taken: by which call, for which key and when. Calls are numbered in the order in
which they were begun. -/
structure CallRecord where
  call : Nat
  key : CacheKey
  time : Nat
  act : CallAct

/-- A cache that calls share, its clock, the calls that were begun, and the record of their steps,
the last one first. -/
structure SharedCache where
  cache : CompletionCache := {}
  now : Nat := 0
  calls : List CompletionCall := []
  log : List CallRecord := []

/-- What may happen next. -/
inductive CacheTurn where
  /-- Time passes. -/
  | wait (ms : Nat)
  /-- A call is begun. -/
  | begin (key : CacheKey)
  /-- A call takes its next step, with what the source answers if it asks. -/
  | step (call : Nat) (reply : SourceReply)

namespace SharedCache

/-- What is recorded of a step. -/
def recordsOf (i : Nat) (key : CacheKey) (now : Nat) (act : Option CallAct) : List CallRecord :=
  act.toList.map (⟨i, key, now, ·⟩)

/-- One turn. -/
def turn (settings : CacheSettings) (s : SharedCache) : CacheTurn → SharedCache
  | .wait ms => { s with now := s.now + ms }
  | .begin key => { s with calls := s.calls ++ [.start key] }
  | .step i reply =>
    match s.calls[i]? with
    | none => s
    | some call =>
      let after := call.step settings s.now reply s.cache
      { s with
        cache := after.cache
        calls := s.calls.set i ⟨call.key, after.stage⟩
        log := recordsOf i call.key s.now after.act ++ s.log }

/-- Turns one after the other, from an empty cache on. -/
def run (settings : CacheSettings) (turns : List CacheTurn) : SharedCache :=
  turns.foldl (turn settings) {}

/-- The entries that recorded steps leave in an empty cache: what is kept replaces what was there
for its key, and what is removed is gone. -/
def replay : List CallRecord → List CacheEntry
  | [] => []
  | r :: earlier =>
    match r.act with
    | .kept listing => ⟨r.key, listing, r.time⟩ :: (replay earlier).filter (·.key ≠ r.key)
    | .reaped removed => (replay earlier).filter (· ∉ removed)
    | .found _ | .missed | .asked _ => replay earlier

/-- What a call has done, the last step first. -/
def actsOf (i : Nat) (log : List CallRecord) : List CallAct :=
  (log.filter (·.call = i)).map (·.act)

/-- The acts of a call are those that its records tell of. -/
theorem mem_actsOf {i : Nat} {log : List CallRecord} {act : CallAct} :
    act ∈ actsOf i log ↔ ∃ r ∈ log, r.call = i ∧ r.act = act := by
  simp [actsOf, and_assoc]

/-- Every entry that is left was kept by a call. -/
theorem mem_replay {log : List CallRecord} {e : CacheEntry} (member : e ∈ replay log) :
    ∃ i, ⟨i, e.key, e.inserted, .kept e.listing⟩ ∈ log := by
  induction log with
  | nil => cases member
  | cons r earlier ih =>
      obtain ⟨i, key, time, act⟩ := r
      have before : e ∈ replay earlier → ∃ j, ⟨j, e.key, e.inserted, .kept e.listing⟩ ∈
          (⟨i, key, time, act⟩ :: earlier : List CallRecord) := by
        intro member
        obtain ⟨j, kept⟩ := ih member
        exact ⟨j, List.mem_cons_of_mem _ kept⟩
      cases act with
      | kept listing =>
          rcases List.mem_cons.mp member with rfl | member
          · exact ⟨i, List.mem_cons_self⟩
          · exact before (List.mem_filter.mp member).1
      | reaped removed => exact before (List.mem_filter.mp member).1
      | found | missed | asked => exact before member

end SharedCache

/-! ## What one call has done -/

/-- What a call may have done before it asks the source: an empty text is not looked up, and any
other is, without success. -/
def Unasked (key : CacheKey) (acts : List CallAct) : Prop :=
  (key.text = "" ∧ acts = []) ∨
    (key.text ≠ "" ∧ (acts = [.missed] ∨ ∃ removed, acts = [.reaped removed, .missed]))

/-- What a call has done, the last step first, when it is at a stage. -/
def CallStage.Fits (settings : CacheSettings) (key : CacheKey) (acts : List CallAct) :
    CallStage → Prop
  | .looking => key.text ≠ "" ∧ acts = []
  | .reaping => key.text ≠ "" ∧ acts = [.missed]
  | .asking => Unasked key acts
  | .keeping listing => ∃ candidates before, Unasked key before ∧
      acts = .asked (.ok (some candidates)) :: before ∧
      listing.items = offeredItems settings.rich candidates
  | .answered result =>
    (∃ listing, key.text ≠ "" ∧ acts = [.found listing] ∧ result = .ok listing) ∨
    (∃ reply before, Unasked key before ∧ acts = .asked reply :: before ∧
      reply.hasCandidates = false ∧ reply.Gives settings result) ∨
    (∃ listing candidates before, Unasked key before ∧
      acts = .kept listing :: .asked (.ok (some candidates)) :: before ∧
      result = .ok listing ∧ listing.items = offeredItems settings.rich candidates)

/-- A call that has just started has left no records. -/
theorem CompletionCall.fits_start (settings : CacheSettings) (key : CacheKey) :
    (CompletionCall.start key).stage.Fits settings key [] := by
  unfold CompletionCall.start
  by_cases isEmpty : key.text.isEmpty = true
  · rw [if_pos isEmpty]
    exact .inl ⟨String.isEmpty_iff.mp isEmpty, rfl⟩
  · rw [if_neg isEmpty]
    exact ⟨fun h => isEmpty (String.isEmpty_iff.mpr h), rfl⟩

/-- What a call has done fits where it stands, after each of its steps. -/
theorem CompletionCall.fits_step {settings : CacheSettings} {call : CompletionCall}
    {acts : List CallAct} (fits : call.stage.Fits settings call.key acts) (now : Nat)
    (reply : SourceReply) (c : CompletionCache) :
    (call.step settings now reply c).stage.Fits settings call.key
      ((call.step settings now reply c).act.toList ++ acts) := by
  obtain ⟨key, stage⟩ := call
  cases stage with
  | looking =>
      obtain ⟨nonempty, rfl⟩ := fits
      unfold CompletionCall.step
      cases found : c.lookup settings.ttl now key with
      | hit listing =>
          simp only
          exact .inl ⟨listing, nonempty, rfl, rfl⟩
      | expired =>
          simp only
          exact ⟨nonempty, rfl⟩
      | absent =>
          simp only
          exact .inr ⟨nonempty, .inl rfl⟩
  | reaping =>
      obtain ⟨nonempty, rfl⟩ := fits
      exact .inr ⟨nonempty, .inr ⟨_, rfl⟩⟩
  | asking =>
      rcases reply with (reason | _ | _) | _ | candidates
      · exact .inr (.inl ⟨_, acts, fits, rfl, rfl, _, rfl, rfl⟩)
      · exact .inr (.inl ⟨_, acts, fits, rfl, rfl, rfl⟩)
      · exact .inr (.inl ⟨_, acts, fits, rfl, rfl, rfl⟩)
      · exact .inr (.inl ⟨_, acts, fits, rfl, rfl, _, rfl, rfl⟩)
      · exact ⟨candidates, acts, fits, rfl, rfl⟩
  | keeping listing =>
      obtain ⟨candidates, before, unasked, rfl, items⟩ := fits
      exact .inr (.inr ⟨listing, candidates, before, unasked, rfl, rfl, items⟩)
  | answered result => exact fits

namespace CallStage.Fits

variable {settings : CacheSettings} {key : CacheKey} {acts : List CallAct} {stage : CallStage}

/-- A call gets ready, may then ask, and may then keep what it computes of candidates, unless it
answers from the cache at once. -/
theorem shape (fits : stage.Fits settings key acts) :
    (∃ before, (∀ act ∈ before, act = .missed ∨ ∃ removed, act = .reaped removed) ∧
      (acts = before ∨ (∃ reply, acts = .asked reply :: before) ∨
        ∃ listing candidates, acts = .kept listing :: .asked (.ok (some candidates)) :: before ∧
          listing.items = offeredItems settings.rich candidates)) ∨
    (key.text ≠ "" ∧ ∃ listing, acts = [.found listing]) := by
  have ready : ∀ {before}, Unasked key before →
      ∀ act ∈ before, act = .missed ∨ ∃ removed, act = .reaped removed := by
    rintro before (⟨-, rfl⟩ | ⟨-, rfl | ⟨removed, rfl⟩⟩) <;> simp
  cases stage with
  | looking | reaping =>
      obtain ⟨-, rfl⟩ := fits
      exact .inl ⟨_, by simp, .inl rfl⟩
  | asking => exact .inl ⟨acts, ready fits, .inl rfl⟩
  | keeping listing =>
      obtain ⟨candidates, before, unasked, rfl, -⟩ := fits
      exact .inl ⟨before, ready unasked, .inr (.inl ⟨_, rfl⟩)⟩
  | answered result =>
      rcases fits with ⟨listing, nonempty, rfl, -⟩ | ⟨reply, before, unasked, rfl, -, -⟩ |
        ⟨listing, candidates, before, unasked, rfl, -, items⟩
      · exact .inr ⟨nonempty, listing, rfl⟩
      · exact .inl ⟨before, ready unasked, .inr (.inl ⟨reply, rfl⟩)⟩
      · exact .inl ⟨before, ready unasked, .inr (.inr ⟨listing, candidates, rfl, items⟩)⟩

/-- A call keeps only what it has computed, of candidates. -/
theorem asked_of_kept (fits : stage.Fits settings key acts) {listing : Listing}
    (kept : .kept listing ∈ acts) :
    ∃ candidates, .asked (.ok (some candidates)) ∈ acts ∧
      listing.items = offeredItems settings.rich candidates := by
  rcases fits.shape with ⟨before, ready, rfl | ⟨reply, rfl⟩ | ⟨_, candidates, rfl, items⟩⟩ |
    ⟨-, _, rfl⟩ <;> grind

/-- A call asks the source at most once. -/
theorem asked_unique (fits : stage.Fits settings key acts) {reply other : SourceReply}
    (asked : .asked reply ∈ acts) (again : .asked other ∈ acts) : reply = other := by
  rcases fits.shape with ⟨before, ready, rfl | ⟨_, rfl⟩ | ⟨_, _, rfl, -⟩⟩ | ⟨-, _, rfl⟩ <;> grind

/-- A list is answered from the cache for no empty text. -/
theorem nonempty_of_found (fits : stage.Fits settings key acts) {listing : Listing}
    (found : .found listing ∈ acts) : key.text ≠ "" := by
  rcases fits.shape with ⟨before, ready, rfl | ⟨_, rfl⟩ | ⟨_, _, rfl, -⟩⟩ | ⟨nonempty, -⟩ <;> grind

/-- A call that was answered has the answer from the cache, for a text that is not empty, or from
what it asked. -/
theorem of_answered {result : Except CompletionError Listing}
    (fits : (CallStage.answered result).Fits settings key acts) :
    (∃ listing, key.text ≠ "" ∧ acts = [.found listing] ∧ result = .ok listing) ∨
      ∃ reply, .asked reply ∈ acts ∧ reply.Gives settings result := by
  rcases fits with found | ⟨reply, before, -, rfl, -, gives⟩ |
    ⟨listing, candidates, before, -, rfl, rfl, items⟩
  · exact .inl found
  · exact .inr ⟨reply, by simp, gives⟩
  · exact .inr ⟨.ok (some candidates), by simp, listing, rfl, items⟩

end CallStage.Fits

/-! ## What turns keep -/

namespace SharedCache

/-- What makes a recorded step right, after those before it: a list is found that another call had
computed for the same key and kept for less than its time, and the entries that are removed are
those of the key that were kept for their time. -/
def Justified (settings : CacheSettings) (earlier : List CallRecord) (r : CallRecord) : Prop :=
  match r.act with
  | .found listing => ∃ other candidates computed kept, other ≠ r.call ∧
      ⟨other, r.key, computed, .asked (.ok (some candidates))⟩ ∈ earlier ∧
      listing.items = offeredItems settings.rich candidates ∧
      ⟨other, r.key, kept, .kept listing⟩ ∈ earlier ∧
      kept ≤ r.time ∧ r.time < kept + settings.ttl
  | .reaped removed => ∀ e, e ∈ removed ↔
      e ∈ replay earlier ∧ e.key = r.key ∧ e.inserted + settings.ttl ≤ r.time
  | .missed | .asked _ | .kept _ => True

/-- What holds between any two turns. -/
structure Sound (settings : CacheSettings) (s : SharedCache) : Prop where
  entries : s.cache.entries = replay s.log
  known : ∀ r ∈ s.log, ∃ call, s.calls[r.call]? = some call ∧ call.key = r.key
  past : ∀ r ∈ s.log, r.time ≤ s.now
  fits : ∀ i (call : CompletionCall), s.calls[i]? = some call →
    call.stage.Fits settings call.key (actsOf i s.log)
  justified : ∀ later r earlier, s.log = later ++ r :: earlier → Justified settings earlier r

namespace Sound

variable {settings : CacheSettings} {s : SharedCache}

/-- What is recorded of a call is recorded under its key. -/
theorem mem_log (sound : Sound settings s) {i : Nat} {call : CompletionCall}
    (begun : s.calls[i]? = some call) {act : CallAct} (member : act ∈ actsOf i s.log) :
    ∃ time, ⟨i, call.key, time, act⟩ ∈ s.log := by
  obtain ⟨⟨_, key, time, _⟩, recorded, rfl, rfl⟩ := mem_actsOf.mp member
  obtain ⟨call', begun', same⟩ := sound.known _ recorded
  rw [begun] at begun'
  obtain rfl := Option.some.inj begun'
  rw [same]
  exact ⟨time, recorded⟩

/-- Kept entries are no younger than the clock. -/
theorem inserted_le (sound : Sound settings s) {e : CacheEntry} (member : e ∈ replay s.log) :
    e.inserted ≤ s.now := by
  obtain ⟨i, kept⟩ := mem_replay member
  exact sound.past _ kept

/-- Every kept entry was computed and kept by a call for its key. -/
theorem computed_of_mem (sound : Sound settings s) {e : CacheEntry} (member : e ∈ replay s.log) :
    ∃ i candidates computed, ⟨i, e.key, computed, .asked (.ok (some candidates))⟩ ∈ s.log ∧
      e.listing.items = offeredItems settings.rich candidates ∧
      ⟨i, e.key, e.inserted, .kept e.listing⟩ ∈ s.log := by
  obtain ⟨i, kept⟩ := mem_replay member
  obtain ⟨call, begun, same⟩ := sound.known _ kept
  obtain ⟨candidates, asked, items⟩ :=
    (sound.fits i call begun).asked_of_kept (mem_actsOf.mpr ⟨_, kept, rfl, rfl⟩)
  obtain ⟨computed, asked⟩ := sound.mem_log begun asked
  rw [show call.key = e.key from same] at asked
  exact ⟨i, candidates, computed, asked, items, kept⟩

/-- An entry is expired by the clock when it has been kept for its time. -/
theorem isExpired_iff (sound : Sound settings s) {e : CacheEntry} (member : e ∈ replay s.log) :
    e.isExpired settings.ttl s.now = true ↔ e.inserted + settings.ttl ≤ s.now := by
  have := sound.inserted_le member
  simp only [CacheEntry.isExpired, decide_eq_true_eq]
  omega

/-- What a call would remove now are the entries of its key that were kept for their time. -/
theorem mem_expired (sound : Sound settings s) {key : CacheKey} {e : CacheEntry} :
    e ∈ CompletionCall.expired settings s.now key s.cache ↔
      e ∈ replay s.log ∧ e.key = key ∧ e.inserted + settings.ttl ≤ s.now := by
  rw [CompletionCall.expired, List.mem_filter, sound.entries]
  constructor
  · rintro ⟨member, isOut⟩
    rw [Bool.and_eq_true, decide_eq_true_eq, sound.isExpired_iff member] at isOut
    exact ⟨member, isOut⟩
  · rintro ⟨member, isOut⟩
    rw [← sound.isExpired_iff member] at isOut
    exact ⟨member, by simp [isOut]⟩

end Sound

/-- A record of a call adds its act to the acts of that call. -/
theorem actsOf_recordsOf_self (i : Nat) (key : CacheKey) (now : Nat) (act : Option CallAct)
    (log : List CallRecord) :
    actsOf i (recordsOf i key now act ++ log) = act.toList ++ actsOf i log := by
  cases act <;> simp [actsOf, recordsOf]

/-- A record of a call adds nothing to the acts of another one. -/
theorem actsOf_recordsOf_of_ne {i j : Nat} (other : i ≠ j) (key : CacheKey) (now : Nat)
    (act : Option CallAct) (log : List CallRecord) :
    actsOf j (recordsOf i key now act ++ log) = actsOf j log := by
  cases act <;> simp [actsOf, recordsOf, other]

/-- A call leaves a record for what it does, and no other. -/
theorem mem_recordsOf {i : Nat} {key : CacheKey} {now : Nat} {act : Option CallAct}
    {r : CallRecord} : r ∈ recordsOf i key now act ↔ ∃ done, act = some done ∧
      r = ⟨i, key, now, done⟩ := by
  cases act <;> simp [recordsOf]

namespace Sound

variable {settings : CacheSettings} {s : SharedCache}

/-- The record of a step says what it did to the entries. -/
theorem entries_step (sound : Sound settings s) (i : Nat) (call : CompletionCall)
    (reply : SourceReply) :
    (call.step settings s.now reply s.cache).cache.entries =
      replay (recordsOf i call.key s.now (call.step settings s.now reply s.cache).act ++
        s.log) := by
  obtain ⟨key, stage⟩ := call
  cases stage with
  | looking =>
      unfold CompletionCall.step
      cases s.cache.lookup settings.ttl s.now key <;> exact sound.entries
  | reaping =>
      show (s.cache.reap settings.ttl s.now key).entries =
        (replay s.log).filter (· ∉ CompletionCall.expired settings s.now key s.cache)
      rw [← sound.entries]
      refine List.filter_congr fun e member => ?_
      simp [CompletionCall.expired, member]
  | asking => rcases reply with (_ | _ | _) | _ | _ <;> exact sound.entries
  | keeping listing =>
      show (s.cache.insert s.now key listing).entries =
        ⟨key, listing, s.now⟩ :: (replay s.log).filter (·.key ≠ key)
      rw [← sound.entries]
      rfl
  | answered result => exact sound.entries

/-- A list that a call finds was kept by another call, and not for its time yet. -/
theorem justified_found (sound : Sound settings s) {i : Nat} {key : CacheKey}
    (begun : s.calls[i]? = some ⟨key, .looking⟩) {listing : Listing}
    (found : s.cache.lookup settings.ttl s.now key = .hit listing) :
    Justified settings s.log ⟨i, key, s.now, .found listing⟩ := by
  unfold CompletionCache.lookup at found
  cases entry : s.cache.find? key with
  | none => simp [entry] at found
  | some e =>
      obtain ⟨fresh, rfl⟩ : e.isExpired settings.ttl s.now = false ∧ e.listing = listing := by
        cases isOut : e.isExpired settings.ttl s.now <;> simp_all
      have member : e ∈ replay s.log := by
        rw [← sound.entries]
        exact List.mem_of_find?_eq_some entry
      have same : e.key = key := by simpa using List.find?_some entry
      obtain ⟨other, candidates, computed, asked, items, kept⟩ := sound.computed_of_mem member
      have unexpired : ¬ e.inserted + settings.ttl ≤ s.now := by
        rw [← sound.isExpired_iff member, fresh]
        simp
      rw [same] at asked kept
      refine ⟨other, candidates, computed, e.inserted, ?_, asked, items, kept,
        sound.inserted_le member, by simpa using unexpired⟩
      -- A call that is about to look has done nothing, so it is not the one that kept the list.
      rintro rfl
      have none := (sound.fits other _ begun).2
      have some : CallAct.kept e.listing ∈ actsOf other s.log := mem_actsOf.mpr ⟨_, kept, rfl, rfl⟩
      rw [none] at some
      cases some

/-- Every step of a call is right when it is taken. -/
theorem justified_step (sound : Sound settings s) {i : Nat} {call : CompletionCall}
    (begun : s.calls[i]? = some call) {reply : SourceReply} {act : CallAct}
    (done : (call.step settings s.now reply s.cache).act = some act) :
    Justified settings s.log ⟨i, call.key, s.now, act⟩ := by
  obtain ⟨key, stage⟩ := call
  cases stage with
  | looking =>
      unfold CompletionCall.step at done
      cases found : s.cache.lookup settings.ttl s.now key with
      | hit listing =>
          simp only [found, Option.some.injEq] at done
          subst done
          exact sound.justified_found begun found
      | expired | absent =>
          simp only [found, Option.some.injEq] at done
          subst done
          trivial
  | reaping =>
      obtain rfl := Option.some.inj done
      exact fun e => sound.mem_expired
  | asking =>
      obtain rfl : CallAct.asked reply = act := Option.some.inj done
      trivial
  | keeping listing =>
      obtain rfl := Option.some.inj done
      trivial
  | answered result => cases done

/-- Calls that were not begun have done nothing. -/
theorem actsOf_of_none (sound : Sound settings s) {i : Nat} (unknown : s.calls[i]? = none) :
    actsOf i s.log = [] := by
  rw [List.eq_nil_iff_forall_not_mem]
  intro act member
  obtain ⟨r, recorded, rfl, -⟩ := mem_actsOf.mp member
  obtain ⟨call, begun, -⟩ := sound.known r recorded
  rw [unknown] at begun
  cases begun

/-- A call that is begun leaves everything in order. -/
theorem begin_call (sound : Sound settings s) (key : CacheKey) :
    Sound settings (s.turn settings (.begin key)) := by
  refine { sound with known := fun r member => ?_, fits := fun i call begun => ?_ }
  · obtain ⟨call, begun, same⟩ := sound.known r member
    refine ⟨call, ?_, same⟩
    exact (List.getElem?_append_left (List.getElem?_eq_some_iff.mp begun).1).trans begun
  · replace begun : (s.calls ++ [CompletionCall.start key])[i]? = some call := begun
    show call.stage.Fits settings call.key (actsOf i s.log)
    by_cases early : i < s.calls.length
    · rw [List.getElem?_append_left early] at begun
      exact sound.fits i call begun
    · rw [Nat.not_lt] at early
      rw [List.getElem?_append_right early, List.getElem?_singleton] at begun
      obtain rfl := Option.some.inj (Option.ite_none_right_eq_some.mp begun).2
      rw [sound.actsOf_of_none (List.getElem?_eq_none early)]
      exact CompletionCall.fits_start settings key

/-- A step of a call leaves everything in order. -/
theorem step_call (sound : Sound settings s) {i : Nat} {call : CompletionCall}
    (begun : s.calls[i]? = some call) (reply : SourceReply) :
    let after := call.step settings s.now reply s.cache
    Sound settings { s with
      cache := after.cache
      calls := s.calls.set i ⟨call.key, after.stage⟩
      log := recordsOf i call.key s.now after.act ++ s.log } := by
  intro after
  have here : i < s.calls.length := (List.getElem?_eq_some_iff.mp begun).1
  constructor
  case entries => exact sound.entries_step i call reply
  case known =>
    intro r member
    rcases List.mem_append.mp member with new | old
    · obtain ⟨act, -, rfl⟩ := mem_recordsOf.mp new
      exact ⟨_, List.getElem?_set_self here, rfl⟩
    · obtain ⟨call', begun', same⟩ := sound.known r old
      by_cases own : i = r.call
      · subst own
        obtain rfl := Option.some.inj (begun.symm.trans begun')
        exact ⟨_, List.getElem?_set_self here, same⟩
      · exact ⟨call', (List.getElem?_set_ne own).trans begun', same⟩
  case past =>
    intro r member
    rcases List.mem_append.mp member with new | old
    · obtain ⟨act, -, rfl⟩ := mem_recordsOf.mp new
      exact Nat.le_refl _
    · exact sound.past r old
  case fits =>
    intro j call' begun'
    by_cases own : i = j
    · subst own
      obtain rfl : CompletionCall.mk call.key after.stage = call' :=
        Option.some.inj ((List.getElem?_set_self here).symm.trans begun')
      rw [actsOf_recordsOf_self]
      exact CompletionCall.fits_step (sound.fits i call begun) s.now reply s.cache
    · rw [actsOf_recordsOf_of_ne own]
      exact sound.fits j call' ((List.getElem?_set_ne own).symm.trans begun')
  case justified =>
    intro later r earlier split
    cases done : after.act with
    | none =>
        rw [done] at split
        exact sound.justified later r earlier split
    | some act =>
        rw [done] at split
        rcases List.cons_eq_append_iff.mp split with ⟨rfl, same⟩ | ⟨rest, rfl, same⟩
        · obtain ⟨rfl, rfl⟩ := List.cons.inj same
          exact sound.justified_step begun done
        · exact sound.justified rest r earlier same

/-- **A turn** leaves everything in order. -/
theorem turn (sound : Sound settings s) (next : CacheTurn) :
    Sound settings (s.turn settings next) := by
  cases next with
  | wait ms =>
      exact { sound with past := fun r member => Nat.le_add_right_of_le (sound.past r member) }
  | begin key => exact sound.begin_call key
  | step i reply =>
      unfold SharedCache.turn
      cases begun : s.calls[i]? with
      | none => simpa [begun] using sound
      | some call =>
          simp only [begun]
          exact sound.step_call begun reply

end Sound

/-- Everything is in order **after any turns**. -/
theorem sound_run (settings : CacheSettings) (turns : List CacheTurn) :
    Sound settings (run settings turns) := by
  have followed : ∀ s, Sound settings s → Sound settings (turns.foldl (turn settings) s) := by
    induction turns with
    | nil => exact fun s sound => sound
    | cons next turns ih => exact fun s sound => ih _ (sound.turn next)
  refine followed {} ?_
  constructor <;> simp [replay]

/-- The candidates whose lists may be answered are those that are shown. -/
theorem shown_of_mem_offeredItems {rich : Bool} {candidates : List Candidate} {item : Suggestion}
    (offered : item ∈ offeredItems rich candidates) :
    ∃ candidate ∈ candidates, item = candidate.toItem rich ∧
      ¬ ['_', '_'] <+: item.label.toList ∧ ¬ (candidate.isComplex ∧ candidate.inline ≠ "") := by
  obtain ⟨candidate, member, rfl⟩ := List.mem_map.mp offered
  obtain ⟨member, shown⟩ := List.mem_filter.mp member
  refine ⟨candidate, member, rfl, ?_⟩
  simp only [Candidate.isShown, Bool.and_eq_true, Bool.not_eq_true', Bool.and_eq_false_iff,
    Bool.not_eq_false', String.isEmpty_iff] at shown
  constructor
  · rw [← List.isPrefixOf_iff_prefix]
    exact Bool.eq_false_iff.mp shown.1
  · rintro ⟨isComplex, inline⟩
    rcases shown.2 with isSimple | noInline
    · exact Bool.false_ne_true (isSimple.symm.trans isComplex)
    · exact inline noInline

/-- What can be said of calls that share a cache, and of what they answer. -/
structure Fresh (settings : CacheSettings) (s : SharedCache) : Prop where
  /-- The cache has what the recorded steps leave in it. -/
  entries : s.cache.entries = replay s.log
  /-- A call answers what it finds in the cache or what it makes of the source's reply. -/
  answered : ∀ (i : Nat) (call : CompletionCall) result, s.calls[i]? = some call →
    call.stage = .answered result →
    (∃ time listing, ⟨i, call.key, time, .found listing⟩ ∈ s.log ∧ result = .ok listing) ∨
    ∃ time reply, ⟨i, call.key, time, .asked reply⟩ ∈ s.log ∧ reply.Gives settings result
  /-- A list that is found was computed by another call for the same key, and kept for less than its
  time. -/
  found : ∀ later i key time listing earlier,
    s.log = later ++ ⟨i, key, time, .found listing⟩ :: earlier →
    ∃ other candidates computed kept, other ≠ i ∧
      ⟨other, key, computed, .asked (.ok (some candidates))⟩ ∈ earlier ∧
      listing.items = offeredItems settings.rich candidates ∧
      ⟨other, key, kept, .kept listing⟩ ∈ earlier ∧ kept ≤ time ∧ time < kept + settings.ttl
  /-- What a call removes are the entries of its key that were kept for their time. -/
  reaped : ∀ later i key time removed earlier,
    s.log = later ++ ⟨i, key, time, .reaped removed⟩ :: earlier →
    ∀ e, e ∈ removed ↔ e ∈ replay earlier ∧ e.key = key ∧ e.inserted + settings.ttl ≤ time
  /-- What others have kept in the meantime, since the call looked, is not removed before its
  time. -/
  spared : ∀ later i key time removed earlier,
    s.log = later ++ ⟨i, key, time, .reaped removed⟩ :: earlier →
    ∀ other kept listing, ⟨other, key, kept, .kept listing⟩ ∈ earlier →
      time < kept + settings.ttl → ⟨key, listing, kept⟩ ∉ removed
  /-- For an empty text nothing is found. -/
  recomputed : ∀ i key time listing, key.text = "" → ⟨i, key, time, .found listing⟩ ∉ s.log
  /-- Without candidates nothing is kept. -/
  unkept : ∀ i key time reply, ⟨i, key, time, .asked reply⟩ ∈ s.log →
    reply.hasCandidates = false → ∀ r ∈ s.log, r.call = i → ∀ listing, r.act ≠ .kept listing
  /-- Every answered item comes from a candidate that is shown, of a reply for the same key. -/
  shown : ∀ (i : Nat) (call : CompletionCall) listing, s.calls[i]? = some call →
    call.stage = .answered (.ok listing) → ∀ item ∈ listing.items,
      ∃ other time candidates, ⟨other, call.key, time, .asked (.ok (some candidates))⟩ ∈ s.log ∧
        ∃ candidate ∈ candidates, item = candidate.toItem settings.rich ∧
          ¬ ['_', '_'] <+: item.label.toList ∧ ¬ (candidate.isComplex ∧ candidate.inline ≠ "")

namespace Sound

variable {settings : CacheSettings} {s : SharedCache}

/-- An answer comes from a listing that was found, or from a reply to this call. -/
theorem answered (sound : Sound settings s) {i : Nat} {call : CompletionCall}
    {result : Except CompletionError Listing} (begun : s.calls[i]? = some call)
    (done : call.stage = .answered result) :
    (∃ time listing, ⟨i, call.key, time, .found listing⟩ ∈ s.log ∧ result = .ok listing) ∨
    ∃ time reply, ⟨i, call.key, time, .asked reply⟩ ∈ s.log ∧ reply.Gives settings result := by
  have fits := sound.fits i call begun
  rw [done] at fits
  rcases fits.of_answered with ⟨listing, -, acts, rfl⟩ | ⟨reply, asked, gives⟩
  · have found : CallAct.found listing ∈ actsOf i s.log := by
      rw [acts]
      exact List.mem_singleton_self _
    obtain ⟨time, found⟩ := sound.mem_log begun found
    exact .inl ⟨time, listing, found, rfl⟩
  · obtain ⟨time, asked⟩ := sound.mem_log begun asked
    exact .inr ⟨time, reply, asked, gives⟩

/-- Lists that are answered were computed of a source's candidates for the same key, if they are
not empty. -/
theorem offered_of_answered (sound : Sound settings s) {i : Nat} {call : CompletionCall}
    {listing : Listing} (begun : s.calls[i]? = some call)
    (done : call.stage = .answered (.ok listing)) :
    listing.items = [] ∨ ∃ other time candidates,
      ⟨other, call.key, time, .asked (.ok (some candidates))⟩ ∈ s.log ∧
        listing.items = offeredItems settings.rich candidates := by
  rcases sound.answered begun done with ⟨time, listing', found, same⟩ | ⟨time, reply, asked, gives⟩
  · obtain rfl := Except.ok.inj same
    obtain ⟨later, earlier, split⟩ := List.append_of_mem found
    obtain ⟨other, candidates, computed, kept, -, asked, items, -⟩ :=
      sound.justified later _ earlier split
    refine .inr ⟨other, computed, candidates, ?_, items⟩
    rw [split]
    exact List.mem_append_right _ (List.mem_cons_of_mem _ asked)
  · rcases reply with (_ | _ | _) | _ | candidates
    · obtain ⟨_, same, items⟩ := gives
      cases same
      exact .inl items
    · cases gives
    · cases gives
    · obtain ⟨_, same, items⟩ := gives
      cases same
      exact .inl items
    · obtain ⟨_, same, items⟩ := gives
      cases same
      exact .inr ⟨i, time, candidates, asked, items⟩

/-- What is recorded of a call fits where it stands. -/
theorem fits_of_mem (sound : Sound settings s) {r : CallRecord} (member : r ∈ s.log) :
    ∃ stage : CallStage, stage.Fits settings r.key (actsOf r.call s.log) ∧
      r.act ∈ actsOf r.call s.log := by
  obtain ⟨call, begun, same⟩ := sound.known r member
  have fits := sound.fits _ call begun
  rw [same] at fits
  exact ⟨call.stage, fits, mem_actsOf.mpr ⟨r, member, rfl, rfl⟩⟩

end Sound

/-- **Calls that share a cache**, in whatever order they take their steps and whatever their source
answers, get fresh lists for the place they ask about, with nothing in them that is not shown. -/
theorem fresh_run (settings : CacheSettings) (turns : List CacheTurn) :
    Fresh settings (run settings turns) := by
  have sound := sound_run settings turns
  constructor
  case entries => exact sound.entries
  case answered => exact fun i call result begun done => sound.answered begun done
  case found => exact fun later i key time _ earlier split => sound.justified later _ earlier split
  case reaped => exact fun later i key time _ earlier split => sound.justified later _ earlier split
  case spared =>
    intro later i key time removed earlier split other kept listing _ fresh member
    have old := ((sound.justified later _ earlier split _).mp member).2.2
    exact absurd fresh (Nat.not_lt.mpr old)
  case recomputed =>
    intro i key time listing isEmpty member
    obtain ⟨stage, fits, found⟩ := sound.fits_of_mem member
    exact fits.nonempty_of_found found isEmpty
  case unkept =>
    rintro i key time reply asked without r member rfl listing kept
    obtain ⟨stage, fits, done⟩ := sound.fits_of_mem member
    rw [kept] at done
    obtain ⟨candidates, computed, -⟩ := fits.asked_of_kept done
    have same := fits.asked_unique (mem_actsOf.mpr ⟨_, asked, rfl, rfl⟩) computed
    rw [same] at without
    cases without
  case shown =>
    intro i call listing begun done item member
    rcases sound.offered_of_answered begun done with none | ⟨other, time, candidates, asked, items⟩
    · rw [none] at member
      cases member
    · rw [items] at member
      exact ⟨other, time, candidates, asked, shown_of_mem_offeredItems member⟩

end SharedCache

end ScriptShell
