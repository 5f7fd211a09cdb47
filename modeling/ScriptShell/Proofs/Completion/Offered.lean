import Mathlib.Data.List.Nodup
import ScriptShell.Module.Standard
import ScriptShell.Proofs.Completion.CaretPlaces
import ScriptShell.Proofs.Dict
import ScriptShell.Proofs.Module.Closure
import ScriptShell.Proofs.Typing.Meanings

/-! # What is offered

The candidates for a word on its own are those of six sources, of each label the first one
(`mem_firstOfLabel`), in the order of their classifications and labels (`pairwise_sortCandidates`).
**`candidates_placed_ordered_complete`**: an answer is for a place between characters, strictly
ordered, and has every name that the checker knows and that starts like the word. -/

namespace ScriptShell

/-! ## The first of each label -/

/-- Among candidates of different labels, that of a label is found by it. -/
theorem find?_label_eq_some_iff {l : List Candidate} (apart : (l.map (·.label)).Nodup)
    {a : Candidate} : l.find? (·.label == a.label) = some a ↔ a ∈ l := by
  refine ⟨List.mem_of_find?_eq_some, fun member => ?_⟩
  have isSome : (l.find? (·.label == a.label)).isSome :=
    List.find?_isSome.mpr ⟨a, member, beq_self_eq_true _⟩
  obtain ⟨b, found⟩ := Option.isSome_iff_exists.mp isSome
  have same : b.label = a.label := by simpa using List.find?_some found
  rw [found, List.inj_on_of_nodup_map apart (List.mem_of_find?_eq_some found) member same]

/-- What is kept has different labels. -/
theorem nodup_firstOfLabel {kept : List Candidate} (apart : (kept.map (·.label)).Nodup)
    (l : List Candidate) : ((firstOfLabel kept l).map (·.label)).Nodup := by
  induction l generalizing kept with
  | nil => exact apart
  | cons c l ih =>
      rw [firstOfLabel]
      by_cases isOld : kept.any (·.label == c.label) = true
      · rw [if_pos isOld]
        exact ih apart
      · rw [if_neg isOld]
        refine ih ?_
        rw [List.map_append, List.nodup_append]
        refine ⟨apart, List.nodup_singleton _, ?_⟩
        rintro label isKept _ isNew rfl
        rw [List.map_singleton, List.mem_singleton] at isNew
        obtain ⟨b, member, isLabel⟩ := List.mem_map.mp isKept
        exact isOld (List.any_eq_true.mpr ⟨b, member, beq_iff_eq.mpr (isLabel.trans isNew)⟩)

/-- What is kept is the first of its label. -/
theorem mem_firstOfLabel_of_nodup {kept : List Candidate} (apart : (kept.map (·.label)).Nodup)
    {l : List Candidate} {a : Candidate} :
    a ∈ firstOfLabel kept l ↔ (kept ++ l).find? (·.label == a.label) = some a := by
  induction l generalizing kept with
  | nil => rw [firstOfLabel, List.append_nil, find?_label_eq_some_iff apart]
  | cons c l ih =>
      have step := nodup_firstOfLabel apart [c]
      rw [firstOfLabel, firstOfLabel] at step
      rw [firstOfLabel, ih step]
      by_cases isOld : kept.any (·.label == c.label) = true
      · -- If the candidate has the label in question, one that is kept has it, too.
        rw [if_pos isOld, List.find?_append, List.find?_append, List.find?_cons]
        by_cases same : (c.label == a.label) = true
        · rw [beq_iff_eq] at same
          obtain ⟨b, member, isLabel⟩ := List.any_eq_true.mp (same ▸ isOld)
          have isSome : (kept.find? (·.label == a.label)).isSome :=
            List.find?_isSome.mpr ⟨b, member, isLabel⟩
          rw [Option.or_of_isSome isSome, Option.or_of_isSome isSome]
        · rw [Bool.not_eq_true] at same
          rw [same]
      · rw [if_neg isOld, List.append_assoc, List.singleton_append]

/-- **What is kept is the first of its label.** -/
theorem mem_firstOfLabel {l : List Candidate} {a : Candidate} :
    a ∈ firstOfLabel [] l ↔ l.find? (·.label == a.label) = some a :=
  @mem_firstOfLabel_of_nodup [] List.nodup_nil l a

/-- No label is lost. -/
theorem mem_labels_firstOfLabel {l : List Candidate} {name : String}
    (found : (l.find? (·.label == name)).isSome) :
    name ∈ (firstOfLabel [] l).map (·.label) := by
  obtain ⟨a, isFirst⟩ := Option.isSome_iff_exists.mp found
  have isLabel : a.label = name := by simpa using List.find?_some isFirst
  subst isLabel
  exact List.mem_map_of_mem (mem_firstOfLabel.mpr isFirst)

/-! ## Order -/

/-- A candidate stands before another one: by classification, then by label. -/
def Candidate.Before (a b : Candidate) : Prop :=
  a.kind.rank < b.kind.rank ∨ a.kind.rank = b.kind.rank ∧ a.label < b.label

namespace Candidate

/-- Candidates are ordered by the rank of their kind, and by their label within one rank. -/
theorem le_iff {a b : Candidate} :
    a.le b = true ↔ a.kind.rank < b.kind.rank ∨ a.kind.rank = b.kind.rank ∧ a.label ≤ b.label := by
  rw [le, Bool.or_eq_true, Bool.and_eq_true, decide_eq_true_eq, beq_iff_eq, Bool.not_eq_true',
    decide_eq_false_iff_not, String.not_lt]

/-- The order of candidates is transitive. -/
theorem le_trans {a b c : Candidate} (first : a.le b = true) (second : b.le c = true) :
    a.le c = true := by
  rw [le_iff] at first second ⊢
  rcases first with isLess | ⟨same, isLess⟩
  · rcases second with isLess' | ⟨same', -⟩
    · exact .inl (isLess.trans isLess')
    · exact .inl (same' ▸ isLess)
  · rcases second with isLess' | ⟨same', isLess'⟩
    · exact .inl (same ▸ isLess')
    · exact .inr ⟨same.trans same', String.le_trans isLess isLess'⟩

/-- Of two candidates, one comes before the other. -/
theorem le_of_not_le {a b : Candidate} (notLe : ¬a.le b = true) : b.le a = true := by
  rw [le_iff] at notLe ⊢
  rcases Nat.lt_trichotomy a.kind.rank b.kind.rank with isLess | same | isMore
  · exact absurd (.inl isLess) notLe
  · refine .inr ⟨same.symm, (String.le_total _ _).resolve_left ?_⟩
    exact fun isLess => notLe (.inr ⟨same, isLess⟩)
  · exact .inl isMore

/-- Candidates of different labels are never at one place. -/
theorem before_of_le {a b : Candidate} (isLe : a.le b = true) (apart : a.label ≠ b.label) :
    a.Before b := by
  rcases le_iff.mp isLe with isLess | ⟨same, isLess⟩
  · exact .inl isLess
  · refine .inr ⟨same, String.not_le.mp ?_⟩
    exact fun isMore => apart (String.le_antisymm isLess isMore)

end Candidate

/-- Putting a candidate in adds that one and loses none. -/
theorem insertCandidate_perm (c : Candidate) (l : List Candidate) :
    (insertCandidate c l).Perm (c :: l) := by
  induction l with
  | nil => exact .refl _
  | cons other rest ih =>
      rw [insertCandidate]
      by_cases isLe : c.le other = true
      · rw [if_pos isLe]
      · rw [if_neg isLe]
        exact (ih.cons other).trans (.swap c other rest)

/-- Putting a candidate into an ordered list keeps it ordered. -/
theorem pairwise_insertCandidate {c : Candidate} {l : List Candidate}
    (ordered : l.Pairwise fun a b => a.le b = true) :
    (insertCandidate c l).Pairwise fun a b => a.le b = true := by
  induction l with
  | nil => exact List.pairwise_singleton _ _
  | cons other rest ih =>
      obtain ⟨least, others⟩ := List.pairwise_cons.mp ordered
      rw [insertCandidate]
      by_cases isLe : c.le other = true
      · rw [if_pos isLe, List.pairwise_cons]
        refine ⟨?_, ordered⟩
        intro a member
        rcases List.mem_cons.mp member with rfl | member
        · exact isLe
        · exact Candidate.le_trans isLe (least a member)
      · rw [if_neg isLe, List.pairwise_cons]
        refine ⟨?_, ih others⟩
        intro a member
        rcases List.mem_cons.mp ((insertCandidate_perm c rest).mem_iff.mp member) with rfl | member
        · exact Candidate.le_of_not_le isLe
        · exact least a member

/-- Sorting keeps the candidates. -/
theorem sortCandidates_perm (l : List Candidate) : (sortCandidates l).Perm l := by
  induction l with
  | nil => exact .refl _
  | cons c l ih => exact (insertCandidate_perm c _).trans (ih.cons c)

/-- **Candidates of different labels are ordered strictly.** -/
theorem pairwise_sortCandidates {l : List Candidate} (apart : (l.map (·.label)).Nodup) :
    (sortCandidates l).Pairwise Candidate.Before := by
  have ordered : (sortCandidates l).Pairwise fun a b => a.le b = true := by
    induction l with
    | nil => exact List.Pairwise.nil
    | cons c l ih => exact pairwise_insertCandidate (ih (List.nodup_cons.mp apart).2)
  have labels : (sortCandidates l).Pairwise fun a b => a.label ≠ b.label :=
    List.pairwise_map.mp (((sortCandidates_perm l).map _).nodup_iff.mpr apart)
  exact (ordered.and labels).imp fun both => Candidate.before_of_le both.1 both.2

/-! ## The scope at a place -/

/-- The names after some were added are the old ones and the new ones. -/
theorem mem_addNames {found more : List String} {name : String} :
    name ∈ addNames found more ↔ name ∈ found ∨ name ∈ more := by
  unfold addNames
  induction more generalizing found with
  | nil => simp
  | cons other more ih =>
      rw [List.foldl_cons, ih, List.mem_cons]
      by_cases isOld : other ∈ found
      · rw [if_pos isOld]
        refine or_congr_right' ?_
        intro notFound
        refine ⟨.inr, ?_⟩
        rintro (rfl | isMore)
        · exact absurd isOld notFound
        · exact isMore
      · rw [if_neg isOld, List.mem_append, List.mem_singleton, or_assoc]

/-- Where a catalog has the prelude, it has all modules that a text may use. -/
theorem contains_of_mem_editingModules {c : Catalog} (prelude : c.contains preludeName = true)
    {document : Document} {text module : String}
    (member : module ∈ c.editingModules document text) : c.contains module = true := by
  have closed : ∀ (targets found : List String),
      (∀ m ∈ found, c.contains m = true) → module ∈ targets.foldl
        (fun found target => addNames found ((c.closure target).map (·.name))) found →
      c.contains module = true := by
    intro targets
    induction targets with
    | nil => exact fun found has member => has module member
    | cons target targets ih =>
        intro found has member
        refine ih _ ?_ member
        intro m isIn
        rcases mem_addNames.mp isIn with isFound | isNew
        · exact has m isFound
        · obtain ⟨ref, isRef, rfl⟩ := List.mem_map.mp isNew
          exact Catalog.contains_of_owns (Catalog.owns_of_mem_closure isRef)
  refine closed _ _ ?_ member
  intro m isIn
  rcases mem_addNames.mp isIn with isPrelude | isVisible
  · rw [List.mem_singleton.mp isPrelude]
    exact prelude
  · obtain ⟨ref, isRef, rfl⟩ := List.mem_map.mp isVisible
    exact Catalog.contains_of_owns (Catalog.owns_of_mem_visible isRef)

/-- The lines above a place matter to the declared names only. -/
theorem editingScope_eq (c : Catalog) (document : Document) (text : String) (above : List Char) :
    ∃ bindings, c.editingScope document text above =
      { catalog := c, modules := c.editingModules document text,
        imports := editingImports document text, bindings } := by
  unfold Catalog.editingScope
  cases parseChars above with
  | error => exact ⟨_, rfl⟩
  | ok stmts =>
      dsimp only
      split
      · exact ⟨_, rfl⟩
      · exact ⟨_, rfl⟩

/-! ## Sources -/

/-- To search in what is found for a list is to search through the list. -/
theorem findSome?_filterMap {α β γ : Type} (f : α → Option β) (g : β → Option γ) (l : List α) :
    (l.filterMap f).findSome? g = l.findSome? fun x => (f x).bind g := by
  induction l with
  | nil => rfl
  | cons x l ih =>
      rw [List.findSome?_cons, ← ih, List.filterMap_cons]
      cases isResult : f x with
      | none => rfl
      | some y => rw [List.findSome?_cons, Option.bind_some]

namespace ScriptModule

variable (m : ScriptModule) (name : String)

/-- The member of a name, as a candidate. -/
def candidate? : Option Candidate :=
  m.candidates.find? (·.label == name)

/-- Functions come before constants. -/
theorem candidate?_eq : m.candidate? name =
    ((m.function? name).map fun f =>
      { label := f.name, kind := if f.isAsync then .asyncFunction else .function,
        description := m.memberDescription f.name }).or
    ((m.constant? name).map fun k =>
      { label := k.name, kind := .constant, description := m.memberDescription k.name }) := by
  rw [candidate?, candidates, List.find?_append, List.find?_map, List.find?_map]
  rfl

/-- A member has a candidate where it has a type. -/
theorem isSome_candidate? : (m.candidate? name).isSome = (m.typeOf? name).isSome := by
  rw [candidate?_eq, typeOf?]
  cases m.function? name with
  | some f => rfl
  | none => simp

end ScriptModule

namespace Catalog

/-- The member of a name of a module, as a candidate. -/
def candidate? (c : Catalog) (module name : String) : Option Candidate :=
  (c.get? module).bind (·.candidate? name)

/-- A module has a candidate of a name exactly if it offers that name. -/
theorem isSome_candidate? (c : Catalog) (module name : String) :
    (c.candidate? module name).isSome = c.offers module name := by
  rw [candidate?, offers]
  cases c.get? module with
  | none => rfl
  | some m => exact m.isSome_candidate? name

/-- Of some modules that are looked up, the one of a name is the catalog's, if it is among them. -/
theorem find?_modules (c : Catalog) (modules : List String) (name : String) :
    (modules.filterMap c.get?).find? (·.name == name) =
      if name ∈ modules then c.get? name else none := by
  induction modules with
  | nil => rfl
  | cons other modules ih =>
      rw [List.filterMap_cons]
      by_cases same : other = name
      · subst same
        rw [if_pos List.mem_cons_self]
        cases known : c.get? other with
        | none =>
            rw [known, ite_self] at ih
            exact ih
        | some m =>
            rw [List.find?_cons, name_of_get? known, beq_self_eq_true]
      · have member : name ∈ other :: modules ↔ name ∈ modules := by
          simp [Ne.symm same]
        rw [if_congr member rfl rfl, ← ih]
        cases known : c.get? other with
        | none => rfl
        | some m =>
            rw [List.find?_cons, name_of_get? known, beq_eq_false_iff_ne.mpr same]

end Catalog

namespace Scope

/-- All that can be offered, the first source first. -/
def sources (s : Scope) (atLineStart : Bool) : List Candidate :=
  s.bindingCandidates ++ builtinCandidates ++ s.importCandidates ++ s.moduleCandidates
    ++ keywordCandidates ++ (if atLineStart then [loadSnippet] else []) ++ [branchSnippet]

variable (s : Scope) (name : String)

/-- The candidate of a declared name. -/
theorem find?_bindingCandidates : s.bindingCandidates.find? (·.label == name) =
    (s.bindings.get? name).map fun type =>
      { label := name, kind := type.kind, description := name ++ ": " ++ type.display } := by
  rw [bindingCandidates, Dict.get?]
  induction s.bindings.entries with
  | nil => rfl
  | cons entry entries ih =>
      obtain ⟨other, type⟩ := entry
      rw [List.map_cons, List.find?_cons, List.lookup_cons]
      by_cases same : other = name
      · subst same
        simp
      · rw [beq_eq_false_iff_ne.mpr same, beq_eq_false_iff_ne.mpr (Ne.symm same)]
        exact ih

/-- Imports count whether they are loaded or not. -/
theorem find?_importCandidates : s.importCandidates.find? (·.label == name) =
    (s.imports.find? (s.catalog.offers · name)).bind (s.catalog.candidate? · name) := by
  rw [← findSome?_eq_find?_bind fun m => (s.catalog.isSome_candidate? m name).symm,
    importCandidates, List.find?_flatMap, findSome?_filterMap]
  rfl

/-- The candidate of a module that is loaded. -/
theorem find?_moduleCandidates : s.moduleCandidates.find? (·.label == name) =
    if name ∈ s.modules then (s.catalog.get? name).map (·.toCandidate) else none := by
  have found := congrArg (Option.map ScriptModule.toCandidate)
    (s.catalog.find?_modules s.modules name)
  rw [moduleCandidates, List.find?_map]
  refine found.trans ?_
  by_cases loaded : name ∈ s.modules
  · rw [if_pos loaded, if_pos loaded]
  · rw [if_neg loaded, if_neg loaded]
    rfl

/-- The candidate of a label is that of the first source that has one. -/
theorem find?_sources (atLineStart : Bool) : (s.sources atLineStart).find? (·.label == name) =
    (((s.bindings.get? name).map fun type =>
      { label := name, kind := type.kind, description := name ++ ": " ++ type.display }).or <|
    (builtinCandidates.find? (·.label == name)).or <|
    ((s.imports.find? (s.catalog.offers · name)).bind (s.catalog.candidate? · name)).or <|
    (if name ∈ s.modules then (s.catalog.get? name).map (·.toCandidate) else none).or <|
    (keywordCandidates ++ (if atLineStart then [loadSnippet] else []) ++ [branchSnippet]).find?
      (·.label == name)) := by
  rw [← find?_bindingCandidates, ← find?_importCandidates, ← find?_moduleCandidates]
  simp only [sources, List.find?_append, Option.or_assoc]

/-- **Every name that the checker knows has a source**, where there are no parameters and the
catalog has the modules that may be used. -/
theorem isSome_find?_sources {s : Scope} {name : String} (noLocals : s.locals = {})
    (has : ∀ m ∈ s.modules, s.catalog.contains m = true) (typed : (s.typeOf? name).isSome)
    (atLineStart : Bool) : ((s.sources atLineStart).find? (·.label == name)).isSome := by
  rw [typeOf?, noLocals] at typed
  simp only [Option.isSome_or, Bool.or_eq_true] at typed
  simp only [find?_sources, Option.isSome_or, Bool.or_eq_true, Option.isSome_map]
  rcases typed with isLocal | isDeclared | isBuiltin | isModule | isMember
  · cases isLocal
  · exact .inl isDeclared
  · refine .inr (.inl ?_)
    rw [builtin?] at isBuiltin
    by_cases isArgs : name = argsName
    · rw [isArgs]
      rfl
    · rw [if_neg isArgs] at isBuiltin
      by_cases isRuntime : name = runtimeName
      · rw [isRuntime]
        rfl
      · rw [if_neg isRuntime] at isBuiltin
        cases isBuiltin
  · refine .inr (.inr (.inr (.inl ?_)))
    rw [module?] at isModule
    by_cases loaded : name ∈ s.modules
    · rw [if_pos loaded, Option.isSome_map]
      exact has name loaded
    · rw [if_neg loaded] at isModule
      cases isModule
  · refine .inr (.inr (.inl ?_))
    rw [imported?_eq] at isMember
    obtain ⟨m, first⟩ := Option.isSome_iff_exists.mp (Option.isSome_of_isSome_bind isMember)
    obtain ⟨m', isFirst⟩ := exists_first_offering first
    rw [isFirst, Option.bind_some, Catalog.isSome_candidate?]
    simpa using List.find?_some isFirst

end Scope

/-! ## Answers -/

/-- What is typed of a name: the word, and the sign of a directive before it. -/
def CaretPlace.typed (p : CaretPlace) : List Char :=
  if p.isDirective then '#' :: p.word else p.word

/-- What is offered for a name at a place. -/
def Scope.offered (s : Scope) (p : CaretPlace) : List Candidate :=
  (s.nameCandidates (p.isFirst || p.isDirective)).filter fun a => p.typed.isPrefixOf a.label.toList

/-- The answer in code, but not after a period. -/
theorem candidates_of_code {c : Catalog} {document : Document} {text before after : String}
    (whole : text = before ++ after) (inCode : linePlace (CaretPlace.of before.toList).line = .code)
    (noDot : ¬['.'] <:+ (CaretPlace.of before.toList).above ++ (CaretPlace.of before.toList).head) :
    c.candidates document text before.utf8ByteSize = .ok (some (sortCandidates
      ((c.editingScope document text (CaretPlace.of before.toList).above).offered
        (.of before.toList)))) := by
  rw [candidates_of_append whole, Catalog.candidatesFor, inCode]
  simp only [Scope.codeCandidates, CaretPlace.receiver?_eq_none noDot]
  rfl

/-- No label is offered twice. -/
theorem nodup_labels_offered (s : Scope) (p : CaretPlace) : ((s.offered p).map (·.label)).Nodup :=
  (List.filter_sublist.map _).nodup (@nodup_firstOfLabel [] List.nodup_nil _)

/-- **Answers are well placed, ordered and complete.** Take a catalog that has the prelude, any
document, any text and any caret.

A caret past the end and a caret inside a character are errors, and there are no others. At every
other caret the text before it is divided at the start of its line and at the start of its word.
Where that place is in code and the text before the word does not end in a period, there is an
answer: it is strictly ordered by classification and label, its labels are different and start with
what is typed, and it has all names that start with it and that the checker knows. -/
theorem candidates_placed_ordered_complete {c : Catalog} (prelude : c.contains preludeName = true)
    (document : Document) (text : String) (caret : Nat) :
    (∀ e, c.candidates document text caret = .error e ↔
      text.utf8ByteSize < caret ∧ e = .caretOutOfRange caret text.utf8ByteSize ∨
      caret ≤ text.utf8ByteSize ∧ ¬OnBoundary text caret ∧ e = .caretInsideCharacter caret) ∧
    ∀ before after : String, text = before ++ after → before.utf8ByteSize = caret →
      let p := CaretPlace.of before.toList
      p.Divides before.toList ∧
      (linePlace p.line = .code → ¬['.'] <:+ p.above ++ p.head →
        ∃ answer, c.candidates document text caret = .ok (some answer) ∧
          answer.Pairwise Candidate.Before ∧ (answer.map (·.label)).Nodup ∧
          (∀ a ∈ answer, p.typed <+: a.label.toList) ∧
          ∀ name, p.typed <+: name.toList →
            ((c.editingScope document text p.above).typeOf? name).isSome →
            name ∈ answer.map (·.label)) := by
  refine ⟨fun e => candidates_eq_error_iff, ?_⟩
  rintro before after whole rfl p
  refine ⟨CaretPlace.divides_of before.toList, fun inCode noDot => ?_⟩
  obtain ⟨bindings, isScope⟩ := editingScope_eq c document text p.above
  generalize isS : c.editingScope document text p.above = s at isScope
  have apart := nodup_labels_offered s p
  have same := sortCandidates_perm (s.offered p)
  refine ⟨_, isS ▸ candidates_of_code whole inCode noDot, pairwise_sortCandidates apart,
    (same.map _).nodup_iff.mpr apart, ?_, ?_⟩
  · intro a member
    exact List.isPrefixOf_iff_prefix.mp (List.mem_filter.mp (same.mem_iff.mp member)).2
  · intro name isTyped known
    have has : ∀ m ∈ s.modules, s.catalog.contains m = true := by
      rw [isScope]
      exact fun m => contains_of_mem_editingModules prelude
    have isSource := Scope.isSome_find?_sources (by rw [isScope]) has known
      (p.isFirst || p.isDirective)
    obtain ⟨a, isFirst, rfl⟩ := List.mem_map.mp (mem_labels_firstOfLabel isSource)
    refine List.mem_map_of_mem (same.mem_iff.mpr (List.mem_filter.mpr ⟨isFirst, ?_⟩))
    exact List.isPrefixOf_iff_prefix.mpr isTyped

/-- Byte 35 of this text is inside a character. At its end both the name of the line above and the
member of the module that it loads are offered. -/
theorem candidates_placed_ordered_complete_accented :
    let text := "#load \"math\"\nuse math\nlet flag = \"é\"\nfl"
    Catalog.standard.contains preludeName = true ∧
    Catalog.standard.candidates ⟨"", none, {}⟩ text 35 = .error (.caretInsideCharacter 35) ∧
    ¬OnBoundary text 35 ∧ text.utf8ByteSize = 40 ∧
    ∃ answer, Catalog.standard.candidates ⟨"", none, {}⟩ text 40 = .ok (some answer) ∧
      answer.Pairwise Candidate.Before ∧ "flag" ∈ answer.map (·.label) ∧
      "floor" ∈ answer.map (·.label) := by
  intro text
  have prelude : Catalog.standard.contains preludeName = true := by decide +kernel
  have isError : Catalog.standard.candidates ⟨"", none, {}⟩ text 35 =
      .error (.caretInsideCharacter 35) := by decide +kernel
  have size : text.utf8ByteSize = 40 := by decide +kernel
  have inside := candidates_placed_ordered_complete prelude ⟨"", none, {}⟩ text 35
  have atEnd := candidates_placed_ordered_complete prelude ⟨"", none, {}⟩ text 40
  obtain ⟨-, answered⟩ := atEnd.2 text "" (String.append_empty).symm size
  obtain ⟨answer, isAnswer, ordered, -, -, complete⟩ :=
    answered (by decide +kernel) (by decide +kernel)
  refine ⟨prelude, isError, ?_, size, answer, isAnswer, ordered, ?_, ?_⟩
  · rcases (inside.1 _).mp isError with ⟨-, other⟩ | ⟨-, off, -⟩
    · cases other
    · exact off
  · exact complete "flag" (by decide +kernel) (by decide +kernel)
  · exact complete "floor" (by decide +kernel) (by decide +kernel)

end ScriptShell
