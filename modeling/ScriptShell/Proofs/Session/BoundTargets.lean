import ScriptShell.Proofs.Session.BoundModules
import ScriptShell.Proofs.Session.Chain

/-! # Loading what is bound

A target needs no resolution once it was resolved, or once a module of that name is bound. A
fragment that loads only such targets gets everything that it loads for nothing: no resolver is
asked, and no module comes in. The last part rests on all the fragments before: whatever a fragment
sees was bound when the last one was committed, whatever the resolvers answered then.

* **`visible_commit`**: after a commit the next fragment sees what the committed one saw.
* **`complete_commit`**: the written forms of all of this are bound.
* **`evaluate_bound`**: a fragment whose targets are bound, and what becomes of targets later. -/

namespace ScriptShell

namespace References

variable {s : References} {target : String}

/-! ## Targets -/

/-- A target is bound if it was resolved or if it names a bound module. -/
theorem isBound_iff :
    s.isBound target = true ↔ target ∈ s.targets ∨ ∃ m ∈ s.modules, m.name = target := by
  simp [isBound, hasModule]

/-- Merging unbinds no target. -/
theorem isBound_merge (other : References) (bound : s.isBound target = true) :
    (s.merge other).isBound target = true := by
  rw [isBound_iff] at bound ⊢
  rcases bound with resolved | ⟨m, there, named⟩
  · exact .inl (mem_targets_merge.mpr (.inl resolved))
  · exact .inr ⟨m, (within_merge s other).modules m there, named⟩

/-! ## Modules that add nothing -/

/-- Modules whose written forms are there add nothing. -/
theorem newModules_eq_nil {ms : List Reference}
    (there : ∀ m ∈ ms, m.isGenerated = false → ∃ entry ∈ s.modules, entry.display = m.display) :
    s.newModules ms = [] := by
  have same : (s.addModules ms).modules = s.modules := by
    rw [modules_addModules_eq]
    refine pushAll_eq_self fun m member kept => List.mem_map.mpr (there m member ?_)
    simpa [Reference.isKept] using kept
  rw [modules_addModules] at same
  exact List.append_right_eq_self.mp same

/-- The written form of everything that a fragment would see is bound. -/
def Complete (c : Catalog) (s : References) : Prop :=
  ∀ ref ∈ c.visible s, ref.isGenerated = false → ∃ entry ∈ s.modules, entry.display = ref.display

end References

/-- What is visible depends on the modules only. -/
theorem Catalog.visible_congr (c : Catalog) {s other : References}
    (same : s.modules = other.modules) : c.visible s = c.visible other := by
  rw [visible, visible, same]

/-- Bound targets are not resolved, and nobody is asked. -/
theorem Resolvers.resolveText_of_isBound (r : Resolvers) {s : References} {text : String}
    (bound : ∀ target ∈ loadTargets text, s.isBound target = true) :
    r.resolveText s text = ⟨.ok [], []⟩ := by
  unfold resolveText
  generalize loadTargets text = targets at bound
  induction targets with
  | nil => rfl
  | cons target rest ih =>
      rw [resolveEach, if_pos (bound target List.mem_cons_self)]
      exact ih fun target member => bound target (List.mem_cons_of_mem _ member)

/-- A host of a catalog, with whatever resolvers. -/
def Host.Of (c : Catalog) (h : Host) : Prop :=
  h.catalog = c

namespace Session

variable {c : Catalog} {h : Host} {s : Session} {text : String} {resolved : List Reference}
  {unit : ScriptUnit}

/-! ## What a commit leaves visible -/

/-- The references of a compiled fragment are modules that it sees, a generated unit apart. -/
theorem mem_visible_of_mem_references
    (compiled : compile c (s.context text resolved) s.newestUnit? s.nextUnit text = .ok unit)
    {m : Reference} (listed : m ∈ unit.references) (unmarked : m.isGenerated = false) :
    m ∈ c.visible (s.context text resolved) := by
  obtain ⟨stmts, -, -, isUnit⟩ := compile_ok compiled
  rw [isUnit] at listed
  rcases List.mem_append.mp listed with seen | previous
  · exact seen
  · obtain ⟨newest, -, rfl⟩ := Option.map_eq_some_iff.mp (Option.mem_toList.mp previous)
    cases unmarked.symm.trans (isGenerated_unit newest)

/-- The modules after a commit: those with which the fragment was compiled, and what its unit lists
beyond what its directives resolved to. -/
theorem modules_commit (s : Session) (text : String) (resolved : List Reference)
    (unit : ScriptUnit) (env : Environment) (value : Option Value) :
    (s.commit (incoming text resolved) unit env value).1.references.modules =
      ((s.references.addModules (incoming text resolved).modules).merge
        { modules := (incoming text resolved).newModules unit.references }).modules := by
  show (s.references.merge ((incoming text resolved).addModules unit.references)).modules = _
  rw [References.modules_merge, References.modules_merge, ← References.modules_addModules,
    ← References.modules_addModules, References.modules_addModules (incoming text resolved),
    References.addModules_append]

/-- **After a commit the next fragment sees what the committed one saw.** -/
theorem visible_commit
    (compiled : compile c (s.context text resolved) s.newestUnit? s.nextUnit text = .ok unit)
    (env : Environment) (value : Option Value) :
    c.visible (s.commit (incoming text resolved) unit env value).1.references =
      c.visible (s.context text resolved) := by
  have context : c.visible (s.references.addModules (incoming text resolved).modules) =
      c.visible (s.context text resolved) := by
    refine c.visible_congr ?_
    rw [Session.context, References.modules_merge, References.modules_addModules]
  rw [c.visible_congr (modules_commit s text resolved unit env value), ← context]
  refine c.visible_merge fun m member unmarked => ?_
  rw [context]
  exact mem_visible_of_mem_references compiled (References.mem_newModules member).1 unmarked

/-- **After a commit everything that the next fragment sees is bound**, whatever was bound before
and whatever the directives resolved to. -/
theorem complete_commit
    (compiled : compile c (s.context text resolved) s.newestUnit? s.nextUnit text = .ok unit)
    (env : Environment) (value : Option Value) :
    (s.commit (incoming text resolved) unit env value).1.references.Complete c := by
  intro ref seen unmarked
  rw [visible_commit compiled] at seen
  -- The unit lists it, so its written form comes in with the references of the unit.
  obtain ⟨stmts, -, -, isUnit⟩ := compile_ok compiled
  have listed : ref ∈ unit.references := by
    rw [isUnit]
    exact List.mem_append_left _ seen
  obtain ⟨entry, there, same⟩ := References.exists_display_addModules
    (s := incoming text resolved) listed unmarked
  have entry_unmarked : entry.isGenerated = false := by
    rwa [Reference.isGenerated, same, ← Reference.isGenerated]
  obtain ⟨final, bound, same'⟩ := References.exists_display_addModules
    (s := s.references) there entry_unmarked
  refine ⟨final, ?_, same'.trans same⟩
  rw [commit, References.modules_merge, ← References.modules_addModules]
  exact bound

/-- The targets after a commit are those before it and those of the fragment. -/
theorem mem_targets_commit {env : Environment} {value : Option Value} {target : String} :
    target ∈ (s.commit (incoming text resolved) unit env value).1.references.targets ↔
      target ∈ s.references.targets ∨ target ∈ loadTargets text := by
  show target ∈ (s.references.merge ((incoming text resolved).addModules unit.references)).targets ↔
    _
  rw [References.mem_targets_merge, References.targets_addModules, incoming,
    References.targets_addImports, References.targets_addModules,
    References.mem_targets_addTargets]
  simp

/-! ## Whole sessions -/

/-- Sessions that are reached over one catalog have everything that their entries need. -/
theorem ReachableBy.complete (reachable : ReachableBy (Host.Of c) s) :
    s.references.Complete c := by
  refine @ReachableBy.induction _ (·.references.Complete c) ?_ ?_ s reachable
  · intro ref none
    cases none
  · rintro h s text args resolved unit env result started ended rfl _ compiles _ value _
    exact complete_commit compiles.compiles env value

/-- The targets that a session resolved are those of its committed fragments. -/
theorem ReachableBy.mem_targets {allowed : Host → Prop} (reachable : ReachableBy allowed s)
    {target : String} :
    target ∈ s.references.targets ↔ ∃ source ∈ s.sources, target ∈ loadTargets source := by
  refine @ReachableBy.induction _ (fun s => target ∈ s.references.targets ↔
    ∃ source ∈ s.sources, target ∈ loadTargets source) ?_ ?_ s reachable
  · simp [sources]
  · intro h s text args resolved unit env result started ended _ marked compiles _ value _
    obtain ⟨stmts, -, -, isUnit⟩ := compile_ok compiles.compiles
    have source : unit.source = text := by rw [isUnit]
    rw [mem_targets_commit, marked]
    simp [sources, source, or_comm]

/-- One evaluation, on one of some hosts, leads from a session to another. -/
def Leads (allowed : Host → Prop) (s later : Session) : Prop :=
  ∃ h text args world, allowed h ∧ later = (s.evaluate h text args world).session

/-- A target that is bound stays so in every later session. -/
theorem Leads.isBound {allowed : Host → Prop} {later : Session} (leads : Leads allowed s later)
    {target : String} (bound : s.references.isBound target = true) :
    later.references.isBound target = true := by
  obtain ⟨h, text, args, world, -, rfl⟩ := leads
  rcases evaluate_advances h s text args world with ⟨-, same⟩ | advances
  · rwa [same]
  · obtain ⟨value, loaded, resolved, unit, env, result, ended, -, -, -, committed⟩ := advances
    have session : (s.evaluate h text args world).session =
        (s.commit (incoming text resolved) unit env value).1 := by rw [committed]
    rw [session]
    exact References.isBound_merge _ bound

/-- The targets of a fragment that is committed are bound after it. -/
theorem isBound_of_isSuccess {args : List String} {world : World}
    (success : (s.evaluate h text args world).outcome.isSuccess = true) {target : String}
    (loads : target ∈ loadTargets text) :
    (s.evaluate h text args world).session.references.isBound target = true := by
  obtain ⟨value, loaded, success⟩ := Outcome.eq_success_of_isSuccess success
  obtain ⟨resolved, unit, env, result, ended, -, -, -, committed⟩ := evaluate_success success
  have session : (s.evaluate h text args world).session =
      (s.commit (incoming text resolved) unit env value).1 := by rw [committed]
  rw [session, References.isBound_iff, mem_targets_commit]
  exact .inl (.inr loads)

/-! ## Fragments that load what is bound -/

/-- Where all targets are bound, compiling starts at once and with no modules but the bound ones. -/
theorem evaluate_of_isBound
    (bound : ∀ target ∈ loadTargets text, s.references.isBound target = true) (h : Host)
    (args : List String) (world : World) :
    s.evaluate h text args world =
      if world.token.look.1 then { outcome := .cancelled, session := s, world := world.looked }
      else
        let ran := s.compileAndRun h text args [] world.looked
        { outcome := ran.1, session := ran.2.1, world := ran.2.2 } := by
  unfold evaluate
  simp only [h.resolvers.resolveText_of_isBound bound]
  rfl

/-- Where nothing is resolved, a fragment sees what was visible, and all of that is bound. -/
theorem newModules_of_complete (complete : s.references.Complete c)
    (compiled : compile c (s.context text []) s.newestUnit? s.nextUnit text = .ok unit) :
    s.references.newModules ((incoming text []).addModules unit.references).modules = [] := by
  have nothing : (incoming text []).modules = [] := by
    rw [incoming, References.modules_addImports, References.addModules_nil,
      References.modules_addTargets]
  have context : c.visible (s.context text []) = c.visible s.references := by
    refine c.visible_congr ?_
    rw [Session.context, References.modules_merge, nothing]
    exact List.append_nil _
  refine References.newModules_eq_nil fun m member unmarked => complete m ?_ unmarked
  rcases References.mem_addModules member with none | listed
  · rw [nothing] at none
    cases none
  · rw [← context]
    exact mem_visible_of_mem_references compiled listed unmarked

/-- After resolution a fragment fails for other reasons. -/
theorem compileAndRun_ne_resolve (h : Host) (s : Session) (text : String) (args : List String)
    (resolved : List Reference) (world : World) (e : ResolutionError) :
    (s.compileAndRun h text args resolved world).1 ≠ .fault (.resolve e) := by
  unfold compileAndRun
  dsimp only
  split
  · exact fun same => by cases same
  · split
    · exact fun same => by cases same
    · unfold runAndCommit
      dsimp only
      split
      · rename_i stop _ _
        cases stop with
        | failed error =>
            rw [Stop.outcome]
            split <;> exact fun same => by cases same
        | cancelled | broken | unfinished => exact fun same => by cases same
      · exact fun same => by cases same

/-- **Loading what is bound is free.** In a session over a catalog, whatever its resolvers, a target
is bound if a committed fragment loads it or a bound module has its name. A fragment whose targets
are all bound is evaluated without the resolvers: with any others it comes to the same, nobody is
asked, and it does not fail for want of a module. If it is committed, it loads nothing. And the
targets of any fragment that is committed are bound ever after. -/
theorem evaluate_bound (reachable : ReachableBy (Host.Of c) s) (ofCatalog : h.Of c)
    (bound : ∀ target ∈ loadTargets text, s.references.isBound target = true) (args : List String)
    (world : World) :
    let after := s.evaluate h text args world
    (∀ target, s.references.isBound target = true ↔
      (∃ source ∈ s.sources, target ∈ loadTargets source) ∨
        ∃ m ∈ s.references.modules, m.name = target) ∧
    (∀ resolvers, s.evaluate { h with resolvers := resolvers } text args world = after) ∧
    after.trail = [] ∧
    (∀ e, after.outcome ≠ .fault (.resolve e)) ∧
    (∀ value loaded, after.outcome = .success value loaded →
      loaded = [] ∧ after.session.references.modules = s.references.modules) ∧
    ∀ fragment args world later,
      (s.evaluate h fragment args world).outcome.isSuccess = true →
      Relation.ReflTransGen (Leads (Host.Of c)) (s.evaluate h fragment args world).session later →
      ∀ target ∈ loadTargets fragment, later.references.isBound target = true := by
  intro after
  have isAfter := evaluate_of_isBound bound h args world
  refine ⟨fun target => ?_, fun resolvers => ?_, ?_, fun e => ?_, ?_, ?_⟩
  · rw [References.isBound_iff, reachable.mem_targets]
  · rw [evaluate_of_isBound bound, show after = _ from isAfter]
    rfl
  · rw [show after = _ from isAfter]
    split <;> rfl
  · rw [show after = _ from isAfter]
    split
    · exact fun same => by cases same
    · exact compileAndRun_ne_resolve h s text args [] world.looked e
  · intro value loaded success
    obtain ⟨resolved, unit, env, result, ended, compiles, -, -, committed⟩ :=
      evaluate_success success
    -- Nothing was resolved, so the unit lists only what was visible before.
    have none := compiles.resolves
    rw [h.resolvers.resolveText_of_isBound bound] at none
    cases none
    have nothing := newModules_of_complete reachable.complete (ofCatalog ▸ compiles.compiles)
    have isLoaded : s.references.newModules _ = loaded := congrArg Prod.snd committed
    have session : (s.commit (incoming text []) unit env value).1 = after.session :=
      congrArg Prod.fst committed
    refine ⟨isLoaded.symm.trans nothing, ?_⟩
    rw [← session]
    show (s.references.merge _).modules = _
    rw [References.modules_merge, nothing, List.append_nil]
  · intro fragment args world later success leads target loads
    induction leads with
    | refl => exact isBound_of_isSuccess success loads
    | tail _ next ih => exact next.isBound ih

/-- A manifest that was loaded, and a module that came in with it: to load both again asks nobody
and binds nothing. -/
theorem evaluate_bound_manifest :
    let c := Catalog.standard
    let manifest := ("app.toml", "[project]\nreferences = [\"stats\"]")
    let h : Host := ⟨c, ⟨.ofCatalog c, [.ofManifests (.ofList [manifest]) [] (.ofCatalog c)]⟩, 0⟩
    let s := (({} : Session).evaluate h "#load app.toml" [] {}).session
    let text := "#load app.toml\n#load math\nuse stats"
    let after := s.evaluate h text [] {}
    ReachableBy (Host.Of c) s ∧ h.Of c ∧ loadTargets text = ["app.toml", "math"] ∧
      (∀ target ∈ loadTargets text, s.references.isBound target = true) ∧
      after.outcome.isSuccess = true ∧ after.trail = [] ∧
      after.session.references.modules = s.references.modules ∧
      after.session.references.isBound "app.toml" = true := by
  intro c manifest h s text
  -- The evaluation stays in its place: a name for it would make the kernel run it.
  dsimp only
  have ofCatalog : h.Of c := rfl
  have reachable : ReachableBy (Host.Of c) s := .evaluate .new ofCatalog _ _ _
  have targets : loadTargets text = ["app.toml", "math"] := by decide +kernel
  have bound : ∀ target ∈ loadTargets text, s.references.isBound target = true := by
    rw [targets]
    decide +kernel
  have success : (s.evaluate h text [] {}).outcome.isSuccess = true := by decide +kernel
  obtain ⟨-, -, noTrail, -, nothing, stays⟩ := evaluate_bound reachable ofCatalog bound [] {}
  obtain ⟨value, loaded, isSuccess⟩ := Outcome.eq_success_of_isSuccess success
  have stillBound := stays text [] {} _ success .refl "app.toml" (by rw [targets]; decide)
  exact ⟨reachable, ofCatalog, targets, bound, success, noTrail, (nothing value loaded isSuccess).2,
    stillBound⟩

end Session

end ScriptShell
