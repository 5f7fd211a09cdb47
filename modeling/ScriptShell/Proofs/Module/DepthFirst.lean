import Mathlib.Data.Finset.Card
import Mathlib.Data.Finset.SDiff
import ScriptShell.Proofs.Module.Closure

/-! # The order of a closure

`Catalog.closure` walks through what a module needs with a list of pending names, which may grow at
each step and hold names twice. This file compares it with the recursive search that the walk stands
for, on every catalog, whatever its modules need:

* **`Catalog.explore`** visits a module before what it needs, and what it needs in the order in
  which the module lists it. Modules that were found already are passed over, so that the modules
  not found yet go down at each visit, and no bound on the search is needed.
* **`Walks.eq_exploreAll`**: a walk to the end finds what exploring the pending names finds, and in
  the same order.
* **`closure_eq_preorder`**: the walk comes to its end, and the closure is the search. -/

namespace ScriptShell

namespace Catalog

variable {c : Catalog} {found : List Reference} {name : String} {m : ScriptModule}

/-! ## Searching depth first -/

/-- How many names of modules were not found yet. -/
def unfound (c : Catalog) (found : List Reference) : Nat :=
  (c.names.toFinset \ (found.map (·.name)).toFinset).card

/-- Finding more leaves no more to find. -/
theorem unfound_le {after : List Reference} (grows : found <+: after) :
    c.unfound after ≤ c.unfound found := by
  refine Finset.card_le_card (Finset.sdiff_subset_sdiff (Finset.Subset.refl _) ?_)
  intro name member
  rw [List.mem_toFinset] at member ⊢
  exact (grows.map _).subset member

/-- A module that was not found is one less to find. -/
theorem unfound_lt (isNew : name ∉ found.map (·.name)) (known : c.get? name = some m) :
    c.unfound (found ++ [m.ref]) < c.unfound found := by
  have same : m.name = name := name_of_get? known
  have has : name ∈ c.names := List.mem_map.mpr ⟨m, mem_of_get? known, same⟩
  refine Finset.card_lt_card (Finset.ssubset_iff_subset_ne.mpr ⟨?_, fun equal => ?_⟩)
  · refine Finset.sdiff_subset_sdiff (Finset.Subset.refl _) fun other member => ?_
    rw [List.mem_toFinset] at member ⊢
    rw [List.map_append]
    exact List.mem_append_left _ member
  · have isLeft : name ∈ c.names.toFinset \ (found.map (·.name)).toFinset := by
      simpa [has] using isNew
    rw [← equal] at isLeft
    simp [ScriptModule.ref, same] at isLeft

mutual

/-- Visits a module, unless it was found or the catalog lacks it, and then all that it needs. -/
def explore (c : Catalog) (found : List Reference) (name : String) :
    { after : List Reference // found <+: after } :=
  if _ : name ∈ found.map (·.name) then ⟨found, List.prefix_rfl⟩
  else
    match _ : c.get? name with
    | none => ⟨found, List.prefix_rfl⟩
    | some m =>
      let needed := exploreAll c (found ++ [m.ref]) m.dependencies
      ⟨needed.1, (List.prefix_append _ _).trans needed.2⟩
termination_by (c.unfound found, 0)
decreasing_by exact .left _ _ (unfound_lt ‹_› ‹_›)

/-- Visits modules one after the other. -/
def exploreAll (c : Catalog) (found : List Reference) :
    List String → { after : List Reference // found <+: after }
  | [] => ⟨found, List.prefix_rfl⟩
  | name :: rest =>
    match explore c found name with
    | ⟨first, grows⟩ =>
      let others := exploreAll c first rest
      ⟨others.1, grows.trans others.2⟩
termination_by names => (c.unfound found, names.length)
decreasing_by
  · exact .right _ (Nat.succ_pos _)
  · rcases Nat.lt_or_eq_of_le (unfound_le grows) with less | same
    · exact .left _ _ less
    · rw [same]
      exact .right _ (Nat.lt_succ_self _)

end

/-- A module and everything it needs, in the order of a recursive search. -/
def preorder (c : Catalog) (name : String) : List Reference :=
  (c.explore [] name).1

/-- What was found already adds nothing. -/
theorem explore_of_found (isOld : name ∈ found.map (·.name)) :
    (c.explore found name).1 = found := by
  rw [explore, dif_pos isOld]

/-- What the catalog lacks adds nothing. -/
theorem explore_of_lacks (unknown : c.get? name = none) : (c.explore found name).1 = found := by
  rw [explore]
  split
  · rfl
  · split
    · rfl
    · rename_i known
      rw [unknown] at known
      cases known

/-- A module that is new comes before all that it needs. -/
theorem explore_of_new (isNew : name ∉ found.map (·.name)) (known : c.get? name = some m) :
    (c.explore found name).1 = (c.exploreAll (found ++ [m.ref]) m.dependencies).1 := by
  rw [explore, dif_neg isNew]
  split
  · rename_i unknown
    rw [known] at unknown
    cases unknown
  · rename_i other known'
    rw [known] at known'
    cases known'
    rfl

@[simp] theorem exploreAll_nil (found : List Reference) : (c.exploreAll found []).1 = found := by
  rw [exploreAll]

@[simp] theorem exploreAll_cons (found : List Reference) (name : String) (rest : List String) :
    (c.exploreAll found (name :: rest)).1 =
      (c.exploreAll (c.explore found name).1 rest).1 := by
  rw [exploreAll]

/-- Names after others start from what those found. -/
theorem exploreAll_append (found : List Reference) (first second : List String) :
    (c.exploreAll found (first ++ second)).1 =
      (c.exploreAll (c.exploreAll found first).1 second).1 := by
  induction first generalizing found with
  | nil => rw [List.nil_append, exploreAll_nil]
  | cons name rest ih => rw [List.cons_append, exploreAll_cons, ih, exploreAll_cons]

/-! ## Walking -/

/-- A walk to its end, without a bound on its steps: from pending names and what was found so far to
what is found when no name is pending any longer. -/
inductive Walks (c : Catalog) : List String → List Reference → List Reference → Prop where
  | done (found : List Reference) : Walks c [] found found
  | seen {next pending before out} : next ∈ before.map (·.name) → Walks c pending before out →
      Walks c (next :: pending) before out
  | missing {next pending before out} : c.get? next = none → Walks c pending before out →
      Walks c (next :: pending) before out
  | visited {next needing pending before out} : next ∉ before.map (·.name) →
      c.get? next = some needing →
      Walks c (needing.dependencies ++ pending) (before ++ [needing.ref]) out →
      Walks c (next :: pending) before out

/-- With steps enough, visiting is a walk to its end. -/
theorem walks_visit {steps : Nat} {pending : List String}
    (enough : pending.length + c.unseen found ≤ steps) :
    c.Walks pending found (c.visit steps pending found) := by
  induction steps generalizing pending found with
  | zero =>
      have nothing : pending = [] := List.length_eq_zero_iff.mp (by omega)
      subst nothing
      exact .done _
  | succ steps ih =>
      cases pending with
      | nil => exact .done _
      | cons next pending =>
          rw [List.length_cons] at enough
          rw [visit]
          split
          · rename_i old
            exact .seen (any_name_iff.mp old) (ih (by omega))
          · rename_i isNew
            split
            · rename_i unknown
              exact .missing unknown (ih (by omega))
            · rename_i m known
              have same : m.name = next := name_of_get? known
              have less := unseen_append (mem_of_get? known) (by simpa [same] using isNew)
              refine .visited (fun old => isNew (any_name_iff.mpr old)) known (ih ?_)
              rw [List.length_append]
              omega

/-- **A walk finds what a search of the pending names finds**, in the same order. -/
theorem Walks.eq_exploreAll {pending : List String} {out : List Reference}
    (walks : c.Walks pending found out) : out = (c.exploreAll found pending).1 := by
  induction walks with
  | done => rw [exploreAll_nil]
  | seen old _ ih => rw [exploreAll_cons, explore_of_found old, ih]
  | missing unknown _ ih => rw [exploreAll_cons, explore_of_lacks unknown, ih]
  -- What a module needs goes before what was pending, as if its search came to an end first.
  | visited isNew known _ ih =>
      rw [exploreAll_cons, explore_of_new isNew known, ← exploreAll_append, ih]

/-- A walk finds no name twice. -/
theorem Walks.nodup {pending : List String} {out : List Reference}
    (walks : c.Walks pending found out) (distinct : (found.map (·.name)).Nodup) :
    (out.map (·.name)).Nodup := by
  induction walks with
  | done => exact distinct
  | seen _ _ ih => exact ih distinct
  | missing _ _ ih => exact ih distinct
  | visited isNew known _ ih =>
      refine ih ?_
      rw [List.map_append, List.map_singleton]
      refine List.nodup_append.mpr ⟨distinct, List.nodup_singleton _, ?_⟩
      intro name member other isLast
      have isNext : other = _ := (List.mem_singleton.mp isLast).trans (name_of_get? known)
      rintro rfl
      exact isNew (isNext ▸ member)

/-! ## The closure of a module -/

/-- The closure of a module is a walk from its name. -/
theorem walks_closure (c : Catalog) (name : String) : c.Walks [name] [] (c.closure name) :=
  walks_visit (by rw [c.visitSteps_eq, List.length_singleton])

/-- The references of a closure: the catalog's own of the modules that following what modules need
leads to. -/
theorem mem_closure_iff {start : String} {ref : Reference} :
    ref ∈ c.closure start ↔
      c.Owns ref ∧ Relation.ReflTransGen c.Needs start ref.name := by
  constructor
  · intro member
    exact ⟨owns_of_mem_closure member, (mem_closure.mp (List.mem_map.mpr ⟨ref, member, rfl⟩)).1⟩
  · rintro ⟨owned, leads⟩
    obtain ⟨found, member, same⟩ :=
      List.mem_map.mp (mem_closure.mpr ⟨leads, contains_of_owns owned⟩)
    have found_owned := owns_of_mem_closure member
    rw [Owns, same, owned] at found_owned
    cases found_owned
    exact member

/-- A closure is empty only for want of the module. -/
theorem closure_eq_nil_iff : c.closure name = [] ↔ c.contains name = false := by
  rw [← Bool.not_eq_true, ← List.map_eq_nil_iff (f := (·.name))]
  constructor
  · intro nothing has
    have member := mem_closure.mpr ⟨.refl, has⟩
    rw [nothing] at member
    cases member
  · intro lacks
    refine List.eq_nil_iff_forall_not_mem.mpr fun other member => lacks ?_
    -- A way from a module starts in the catalog, be it without a step or with one.
    obtain ⟨leads, has⟩ := mem_closure.mp member
    rcases leads.cases_head with rfl | ⟨_, ⟨m, known, -⟩, -⟩
    · exact has
    · rw [contains, known]
      rfl

/-- **A closure is found depth first.** On every catalog, whatever its modules need, the walk from a
module comes to an end, and to one only. It gives what the recursive search gives, in the same
order: the references of exactly the modules that following what modules need leads to, each once,
and none if the catalog lacks the module. -/
theorem closure_eq_preorder (c : Catalog) (name : String) :
    (∀ out, c.Walks [name] [] out ↔ out = c.closure name) ∧
    c.closure name = c.preorder name ∧
    (∀ ref, ref ∈ c.closure name ↔
      c.Owns ref ∧ Relation.ReflTransGen c.Needs name ref.name) ∧
    ((c.closure name).map (·.name)).Nodup ∧
    (c.closure name = [] ↔ c.contains name = false) := by
  have walks := c.walks_closure name
  refine ⟨fun out => ⟨fun other => ?_, ?_⟩, ?_, fun ref => mem_closure_iff,
    walks.nodup List.nodup_nil, closure_eq_nil_iff⟩
  · rw [other.eq_exploreAll, walks.eq_exploreAll]
  · rintro rfl
    exact walks
  · rw [walks.eq_exploreAll, exploreAll_cons, exploreAll_nil, preorder]

/-- Modules that need themselves, each other, one twice and one that is missing. -/
example :
    let c : Catalog := ⟨[{ name := "a", dependencies := ["b", "a", "none", "c", "b"] },
      { name := "b", dependencies := ["d", "a"] }, { name := "c" },
      { name := "d", dependencies := ["c", "c"] }]⟩
    (c.closure "a").map (·.name) = ["a", "b", "d", "c"] := by
  decide +kernel

end Catalog

end ScriptShell
