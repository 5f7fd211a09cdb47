import ScriptShell.Proofs.Completion.Offered

/-! # Names that are wrongly offered

What is offered for a word on its own and what the checker makes of it mostly agree: declared names,
the names that are always there and modules are accepted, and are what they are offered as. Members
of imported modules can be wrong, since they are offered before modules and whether or not their
module is loaded, while the checker takes names for modules first and passes over imports that are
not loaded. **`candidate_right_iff`** says which candidates are wrong: exactly those that are
`Misoffered`. -/

namespace ScriptShell

/-- Constants and properties are values, as variables are. -/
def CandidateKind.plain : CandidateKind → CandidateKind
  | .constant | .property => .variable
  | kind => kind

/-- The kind of a type is neither constant nor property. -/
theorem Ty.plain_kind (type : Ty) : type.kind.plain = type.kind := by
  unfold Ty.kind
  split <;> rfl

/-- Keywords and snippets are offered as such. -/
theorem kind_of_mem_others {atLineStart : Bool} {a : Candidate}
    (member : a ∈ keywordCandidates ++ (if atLineStart then [loadSnippet] else []) ++
      [branchSnippet]) : a.kind = .keyword ∨ a.kind = .snippet := by
  rw [List.mem_append, List.mem_append, List.mem_singleton] at member
  rcases member with (isKeyword | isLoad) | rfl
  · obtain ⟨entry, -, rfl⟩ := List.mem_map.mp isKeyword
    exact .inl rfl
  · cases atLineStart with
    | false => cases isLoad
    | true =>
        rw [List.mem_singleton.mp isLoad]
        exact .inr rfl
  · exact .inr rfl

/-- A member is not offered as a module. -/
theorem plain_kind_of_candidate? {c : Catalog} {module name : String} {a : Candidate}
    (isMember : c.candidate? module name = some a) : a.kind.plain ≠ .module := by
  obtain ⟨m, -, found⟩ := Option.bind_eq_some_iff.mp isMember
  rw [ScriptModule.candidate?_eq] at found
  cases isFunction : m.function? name with
  | some f =>
      rw [isFunction, Option.map_some, Option.some_or] at found
      rw [← Option.some.inj found]
      cases f.isAsync <;> simp [CandidateKind.plain]
  | none =>
      rw [isFunction, Option.map_none, Option.none_or] at found
      obtain ⟨k, -, rfl⟩ := Option.map_eq_some_iff.mp found
      nofun

namespace Scope

/-- How a candidate for a member of an imported module can be wrong. -/
inductive Mistaken (s : Scope) (a : Candidate) : Prop where
  /-- A module that may be used has its name. -/
  | module (loaded : a.label ∈ s.modules)
  /-- No import that has such a member is loaded. -/
  | unloaded (none : ∀ m ∈ s.imports, m ∈ s.modules → s.catalog.offers m a.label = false)
  /-- The first import that is loaded and has such a member has it as something else. -/
  | other {m : String} {type : Ty}
      (first : (s.imports.find? fun m => m ∈ s.modules && s.catalog.offers m a.label) = some m)
      (typed : s.typeAs? a.label (.member m) = some type) (differs : a.kind.plain ≠ type.kind)

/-- A candidate is for a member of an imported module, and is wrong. -/
structure Misoffered (s : Scope) (a : Candidate) : Prop where
  undeclared : s.bindings.contains a.label = false
  notArgs : a.label ≠ argsName
  notRuntime : a.label ≠ runtimeName
  imported : ∃ m ∈ s.imports, s.catalog.offers m a.label = true
  mistaken : s.Mistaken a

variable {s : Scope} {a : Candidate}

/-- The checker accepts a candidate, and as what it is offered. -/
def Accepts (s : Scope) (a : Candidate) : Prop :=
  ∃ type, s.typeOf? a.label = some type ∧ a.kind.plain = type.kind

/-- A name with a type is offered rightly exactly if it is offered as the kind of that type. -/
theorem accepts_iff {type : Ty} (typed : s.typeOf? a.label = some type) :
    s.Accepts a ↔ a.kind.plain = type.kind := by
  rw [Accepts, typed]
  exact ⟨fun ⟨_, same, isKind⟩ => Option.some.inj same ▸ isKind, fun isKind => ⟨type, rfl, isKind⟩⟩

/-- A member of an imported module is accepted unless it is mistaken. -/
theorem accepts_member_iff {m : String} (isMember : s.catalog.candidate? m a.label = some a)
    (typed : s.typeOf? a.label = (s.module? a.label).or (s.imported? a.label)) :
    s.Accepts a ↔ ¬s.Mistaken a := by
  rw [module?] at typed
  by_cases loaded : a.label ∈ s.modules
  · rw [if_pos loaded, Option.some_or] at typed
    rw [accepts_iff typed]
    exact ⟨fun isModule => absurd isModule (plain_kind_of_candidate? isMember),
      fun right => absurd (.module loaded) right⟩
  · rw [if_neg loaded, Option.none_or, imported?_eq] at typed
    cases first : s.imports.find? fun m => m ∈ s.modules && s.catalog.offers m a.label with
    | none =>
        rw [first, Option.bind_none] at typed
        have unloaded : s.Mistaken a := by
          refine .unloaded fun m imported isLoaded => ?_
          simpa [isLoaded] using List.find?_eq_none.mp first m imported
        constructor
        · rintro ⟨type, isType, -⟩
          rw [typed] at isType
          cases isType
        · exact fun right => absurd unloaded right
    | some m' =>
        have holds := List.find?_some first
        simp only [Bool.and_eq_true, decide_eq_true_eq] at holds
        obtain ⟨type, isType⟩ := Option.isSome_iff_exists.mp holds.2
        rw [first, Option.bind_some] at typed
        rw [accepts_iff (typed.trans isType)]
        constructor
        · rintro same (isModule | none | ⟨isFirst, isOther, differs⟩)
          · exact loaded isModule
          · rw [none m' (List.mem_of_find?_eq_some first) holds.1] at holds
            cases holds.2
          · rw [first] at isFirst
            cases isFirst
            exact differs (Option.some.inj (isType.symm.trans isOther) ▸ same)
        · intro right
          by_contra differs
          exact right (.other first isType differs)

/-- A candidate that comes from no other source is for a module, and is accepted as one. -/
theorem accepts_module {atLineStart : Bool}
    (isFirst : (if a.label ∈ s.modules then (s.catalog.get? a.label).map (·.toCandidate)
      else none).or ((keywordCandidates ++ (if atLineStart then [loadSnippet] else []) ++
        [branchSnippet]).find? (·.label == a.label)) = some a)
    (typed : s.typeOf? a.label = (s.module? a.label).or (s.imported? a.label))
    (notKeyword : a.kind ≠ .keyword) (notSnippet : a.kind ≠ .snippet) : s.Accepts a := by
  rcases Option.or_eq_some_iff.mp isFirst with isModule | ⟨-, isOther⟩
  · by_cases loaded : a.label ∈ s.modules
    · rw [if_pos loaded] at isModule
      obtain ⟨m, -, same⟩ := Option.map_eq_some_iff.mp isModule
      have isKind : a.kind = .module := congrArg Candidate.kind same.symm
      rw [module?, if_pos loaded, Option.some_or] at typed
      rw [accepts_iff typed, isKind]
      rfl
    · rw [if_neg loaded] at isModule
      cases isModule
  · rcases kind_of_mem_others (List.mem_of_find?_eq_some isOther) with isKind | isKind
    · exact absurd isKind notKeyword
    · exact absurd isKind notSnippet

/-- **A name that is offered is right unless it is misoffered.** -/
theorem accepts_iff_not_misoffered (noLocals : s.locals = {}) {atLineStart : Bool}
    (isFirst : (s.sources atLineStart).find? (·.label == a.label) = some a)
    (notKeyword : a.kind ≠ .keyword) (notSnippet : a.kind ≠ .snippet) :
    s.Accepts a ↔ ¬s.Misoffered a := by
  have typed : s.typeOf? a.label = (s.bindings.get? a.label).or ((builtin? a.label).or
      ((s.module? a.label).or (s.imported? a.label))) := by
    rw [typeOf?, noLocals]
    rfl
  rw [find?_sources] at isFirst
  cases declared : s.bindings.get? a.label with
  | some type =>
      rw [declared, Option.map_some, Option.some_or] at isFirst
      rw [declared, Option.some_or] at typed
      have isKind : a.kind = type.kind := congrArg Candidate.kind (Option.some.inj isFirst).symm
      refine iff_of_true ⟨type, typed, by rw [isKind, Ty.plain_kind]⟩ ?_
      intro wrong
      have undeclared := wrong.undeclared
      rw [Dict.contains, declared] at undeclared
      cases undeclared
  | none =>
      rw [declared, Option.map_none, Option.none_or] at isFirst
      rw [declared, Option.none_or] at typed
      by_cases isArgs : a.label = argsName
      · rw [isArgs] at isFirst typed
        have isKind : a.kind = .variable := congrArg Candidate.kind (Option.some.inj isFirst).symm
        exact iff_of_true ⟨.list .str, isArgs ▸ typed, by rw [isKind]; rfl⟩
          fun wrong => wrong.notArgs isArgs
      · by_cases isRuntime : a.label = runtimeName
        · rw [isRuntime] at isFirst typed
          have isKind : a.kind = .variable := congrArg Candidate.kind (Option.some.inj isFirst).symm
          exact iff_of_true ⟨.any, isRuntime ▸ typed, by rw [isKind]; rfl⟩
            fun wrong => wrong.notRuntime isRuntime
        · have noBuiltin : builtinCandidates.find? (·.label == a.label) = none := by
            simp [builtinCandidates, Ne.symm isArgs, Ne.symm isRuntime]
          rw [noBuiltin, Option.none_or] at isFirst
          rw [builtin?, if_neg isArgs, if_neg isRuntime, Option.none_or] at typed
          cases first : s.imports.find? (s.catalog.offers · a.label) with
          | some m =>
              have offers : s.catalog.offers m a.label = true := by
                simpa using List.find?_some first
              rw [first, Option.bind_some, Option.or_of_isSome
                (by rw [Catalog.isSome_candidate?]; exact offers)] at isFirst
              rw [accepts_member_iff isFirst typed, not_iff_not]
              refine ⟨fun mistaken => ?_, Misoffered.mistaken⟩
              exact ⟨by rw [Dict.contains, declared]; rfl, isArgs, isRuntime,
                ⟨m, List.mem_of_find?_eq_some first, offers⟩, mistaken⟩
          | none =>
              have notImported : ¬s.Misoffered a := by
                intro wrong
                obtain ⟨m, imported, offers⟩ := wrong.imported
                exact List.find?_eq_none.mp first m imported offers
              rw [first, Option.bind_none, Option.none_or] at isFirst
              exact iff_of_true (accepts_module isFirst typed notKeyword notSnippet) notImported

end Scope

/-- **Which names are wrongly offered.** Take any catalog, document and text, a caret in code that
does not follow a period, and a candidate of the answer that is neither a keyword nor a snippet. The
checker accepts its label in the scope at that place, as what it is offered as, exactly if the
candidate is not for a member of an imported module under a name that a module has, or that no
loaded import has, or that the first loaded import has as something else. -/
theorem candidate_right_iff (c : Catalog) (document : Document) {text before after : String}
    (whole : text = before ++ after) (inCode : linePlace (CaretPlace.of before.toList).line = .code)
    (noDot : ¬['.'] <:+ (CaretPlace.of before.toList).above ++ (CaretPlace.of before.toList).head)
    {answer : List Candidate}
    (answered : c.candidates document text before.utf8ByteSize = .ok (some answer))
    {a : Candidate} (member : a ∈ answer) (notKeyword : a.kind ≠ .keyword)
    (notSnippet : a.kind ≠ .snippet) :
    let s := c.editingScope document text (CaretPlace.of before.toList).above
    (∃ type, s.typeOf? a.label = some type ∧ a.kind.plain = type.kind) ↔ ¬s.Misoffered a := by
  intro s
  rw [candidates_of_code whole inCode noDot] at answered
  have isAnswer := Option.some.inj (Except.ok.inj answered)
  rw [← isAnswer, (sortCandidates_perm _).mem_iff] at member
  have isFirst := mem_firstOfLabel.mp (List.mem_filter.mp member).1
  obtain ⟨bindings, isScope⟩ :=
    editingScope_eq c document text (CaretPlace.of before.toList).above
  have noLocals : s.locals = {} := congrArg Scope.locals isScope
  exact Scope.accepts_iff_not_misoffered noLocals isFirst notKeyword notSnippet

/-- The text imports a module that is not loaded. Its member is offered as a function, and the
checker does not know it. -/
theorem candidate_right_iff_unloaded :
    let text := "use math\nfl"
    let s := Catalog.standard.editingScope ⟨"", none, {}⟩ text (CaretPlace.of text.toList).above
    ∃ answer a, Catalog.standard.candidates ⟨"", none, {}⟩ text text.utf8ByteSize =
        .ok (some answer) ∧
      a ∈ answer ∧ a.label = "floor" ∧ a.kind = .function ∧
      s.typeOf? "floor" = none ∧ s.Misoffered a := by
  intro text s
  have inCode : linePlace (CaretPlace.of text.toList).line = .code := by decide +kernel
  have noDot : ¬['.'] <:+
      (CaretPlace.of text.toList).above ++ (CaretPlace.of text.toList).head := by decide +kernel
  have whole : text = text ++ "" := String.append_empty.symm
  have answered : Catalog.standard.candidates ⟨"", none, {}⟩ text text.utf8ByteSize = _ :=
    candidates_of_code whole inCode noDot
  have isFloor : (sortCandidates (s.offered (.of text.toList))).any fun a =>
      a.label == "floor" && a.kind == .function := by decide +kernel
  have untyped : s.typeOf? "floor" = none := by decide +kernel
  obtain ⟨a, member, isA⟩ := List.any_eq_true.mp isFloor
  rw [Bool.and_eq_true, beq_iff_eq, beq_iff_eq] at isA
  have right := candidate_right_iff Catalog.standard ⟨"", none, {}⟩ whole inCode noDot answered
    member (by rw [isA.2]; nofun) (by rw [isA.2]; nofun)
  refine ⟨_, a, answered, member, isA.1, isA.2, untyped, ?_⟩
  by_contra notWrong
  obtain ⟨type, typed, -⟩ := right.mpr notWrong
  rw [isA.1, untyped] at typed
  cases typed

end ScriptShell
