import Mathlib.Algebra.Order.BigOperators.Group.List
import Mathlib.Algebra.Order.Ring.Nat
import Mathlib.Logic.Relation
import ScriptShell.Session.Compile

/-! # Which modules a fragment may use

A fragment may use the module that is always there and, for every module that is bound, that module
with everything it needs. `Catalog.visit` finds what a module needs by a walk whose steps are
counted; **`visit_complete`** says that they suffice, and **`mem_closure`** that the walk finds what
following dependencies leads to. `Catalog.usable` adds such walks up, reference after reference; the
last lemmas say what is in the outcome. -/

namespace ScriptShell

/-- A module of a name was found exactly if the name is among those found. -/
theorem any_name_iff {found : List Reference} {name : String} :
    found.any (·.name == name) = true ↔ name ∈ found.map (·.name) := by
  rw [List.any_eq_true, List.mem_map]
  simp only [beq_iff_eq]

/-- Adding modules whose names are new gives all names of both. -/
theorem mem_names_addByName {found more : List Reference} {name : String} :
    name ∈ (addByName found more).map (·.name) ↔
      name ∈ found.map (·.name) ∨ name ∈ more.map (·.name) := by
  unfold addByName
  induction more generalizing found with
  | nil => simp
  | cons m rest ih =>
      rw [List.foldl_cons, ih]
      -- A name that is there already adds nothing, and nothing is lost by that.
      split
      · rename_i there
        have there := any_name_iff.mp there
        simp only [List.map_cons, List.mem_cons]
        constructor
        · rintro (before | after)
          · exact .inl before
          · exact .inr (.inr after)
        · rintro (before | rfl | after)
          · exact .inl before
          · exact .inl there
          · exact .inr after
      · simp [or_assoc]

/-- Adding modules whose names are new gives no others than those of both. -/
theorem mem_of_mem_addByName {found more : List Reference} {ref : Reference}
    (member : ref ∈ addByName found more) : ref ∈ found ∨ ref ∈ more := by
  unfold addByName at member
  induction more generalizing found with
  | nil => exact .inl member
  | cons m rest ih =>
      rw [List.foldl_cons] at member
      rcases ih member with before | later
      · split at before
        · exact .inl before
        · rcases List.mem_append.mp before with before | added
          · exact .inl before
          · exact .inr (List.mem_cons.mpr (.inl (List.mem_singleton.mp added)))
      · exact .inr (List.mem_cons_of_mem _ later)

namespace Catalog

variable {c : Catalog}

/-- A reference is the catalog's own one of its name. -/
def Owns (c : Catalog) (ref : Reference) : Prop :=
  (c.get? ref.name).map (·.ref) = some ref

/-- What a catalog finds is its own. -/
theorem owns_of_get? {name : String} {m : ScriptModule} (known : c.get? name = some m) :
    c.Owns m.ref := by
  have same : m.ref.name = name := name_of_get? known
  rw [Owns, same, known]
  rfl

/-- A catalog has a module of the name of each reference of its own. -/
theorem contains_of_owns {ref : Reference} (owned : c.Owns ref) : c.contains ref.name = true := by
  rw [contains]
  rw [Owns] at owned
  cases known : c.get? ref.name with
  | none =>
      rw [known] at owned
      cases owned
  | some m => rfl

/-- A module of the catalog that needs another one; the catalog may lack that one. -/
def Needs (c : Catalog) (name other : String) : Prop :=
  ∃ m, c.get? name = some m ∧ other ∈ m.dependencies

/-! ## Visiting modules -/

/-- What visiting finds is good, if every module that is wanted is good and makes only others wanted
by which this goes on. -/
theorem visit_induction (good : Reference → Prop) (wanted : String → Prop)
    (found_good : ∀ name m, wanted name → c.get? name = some m → good m.ref)
    (needed : ∀ name other, wanted name → c.Needs name other → wanted other)
    {steps : Nat} {pending : List String} {found : List Reference}
    (pending_wanted : ∀ name ∈ pending, wanted name) (before : ∀ ref ∈ found, good ref) :
    ∀ ref ∈ c.visit steps pending found, good ref := by
  induction steps generalizing pending found with
  | zero => exact before
  | succ steps ih =>
      cases pending with
      | nil => exact before
      | cons next pending =>
          have rest : ∀ name ∈ pending, wanted name :=
            fun name member => pending_wanted name (List.mem_cons_of_mem _ member)
          have first : wanted next := pending_wanted next List.mem_cons_self
          rw [visit]
          split
          · exact ih rest before
          · split
            · exact ih rest before
            · rename_i m known
              refine ih (fun name member => ?_) (fun ref member => ?_)
              · rcases List.mem_append.mp member with member | member
                · exact needed next name first ⟨m, known, member⟩
                · exact rest name member
              · rcases List.mem_append.mp member with member | member
                · exact before ref member
                · rw [List.mem_singleton.mp member]
                  exact found_good next m first known

/-- How many dependencies a module has, if it was not found yet. -/
def unseenOf (found : List Reference) (m : ScriptModule) : Nat :=
  if found.any (·.name == m.name) then 0 else m.dependencies.length

/-- How many dependencies the modules have that were not found yet. -/
def unseen (c : Catalog) (found : List Reference) : Nat :=
  (c.modules.map (unseenOf found)).sum

/-- Finding a module takes its dependencies off those of the modules not found yet. -/
theorem unseen_append {found : List Reference} {m : ScriptModule} (member : m ∈ c.modules)
    (isNew : found.any (·.name == m.name) = false) :
    m.dependencies.length + c.unseen (found ++ [m.ref]) ≤ c.unseen found := by
  -- No module counts more than before, and this one counted before and does not now.
  have fewer : ∀ other, unseenOf (found ++ [m.ref]) other ≤ unseenOf found other := by
    intro other
    unfold unseenOf
    rw [List.any_append]
    by_cases seen : found.any (·.name == other.name) = true
    · simp [seen]
    · rw [if_neg seen]
      split
      · exact Nat.zero_le _
      · exact Nat.le_refl _
  have before : unseenOf found m = m.dependencies.length := by simp [unseenOf, isNew]
  have after : unseenOf (found ++ [m.ref]) m = 0 := by simp [unseenOf, ScriptModule.ref]
  have taken : ∀ modules : List ScriptModule, m ∈ modules →
      unseenOf found m + (modules.map (unseenOf (found ++ [m.ref]))).sum ≤
        (modules.map (unseenOf found)).sum := by
    intro modules
    induction modules with
    | nil =>
        intro member
        cases member
    | cons first rest ih =>
        intro member
        simp only [List.map_cons, List.sum_cons]
        rcases List.mem_cons.mp member with rfl | member
        · rw [after, Nat.zero_add]
          have le : (rest.map (unseenOf (found ++ [m.ref]))).sum ≤
              (rest.map (unseenOf found)).sum := List.sum_le_sum fun other _ => fewer other
          omega
        · have others := ih member
          have first := fewer first
          omega
  rw [← before]
  exact taken c.modules member

/-- A name is of a module that was found, or of one that the catalog has and that is pending. -/
def Awaited (c : Catalog) (found : List Reference) (pending : List String) (name : String) : Prop :=
  name ∈ found.map (·.name) ∨ (name ∈ pending ∧ c.contains name = true)

/-- The next name is not awaited any longer once it is known to be found or not in the catalog. -/
theorem Awaited.tail {found : List Reference} {next : String} {pending : List String}
    (settled : c.contains next = true → next ∈ found.map (·.name)) {name : String}
    (awaited : c.Awaited found (next :: pending) name) : c.Awaited found pending name := by
  rcases awaited with there | ⟨isPending, has⟩
  · exact .inl there
  · rcases List.mem_cons.mp isPending with rfl | isPending
    · exact .inl (settled has)
    · exact .inr ⟨isPending, has⟩

/-- Finding the next module and what it needs leaves nothing out. -/
theorem Awaited.visited {found : List Reference} {next : String} {pending : List String}
    {m : ScriptModule} (known : c.get? next = some m) {name : String}
    (awaited : c.Awaited found (next :: pending) name) :
    c.Awaited (found ++ [m.ref]) (m.dependencies ++ pending) name := by
  have same : m.ref.name = next := name_of_get? known
  rcases awaited with there | ⟨isPending, has⟩
  · left
    rw [List.map_append]
    exact List.mem_append_left _ there
  · rcases List.mem_cons.mp isPending with rfl | isPending
    · left
      rw [List.map_append, List.map_singleton, same]
      exact List.mem_append_right _ List.mem_cons_self
    · exact .inr ⟨List.mem_append_right _ isPending, has⟩

/-- **Visiting with enough steps misses nothing.** If everything that the modules found so far need
is awaited, if the catalog has it, then all that is awaited is found in the end, and everything that
was found needs only what is found or what the catalog lacks. -/
theorem visit_complete {steps : Nat} {pending : List String} {found : List Reference}
    (enough : pending.length + c.unseen found ≤ steps)
    (covered : ∀ name ∈ found.map (·.name), ∀ other, c.Needs name other →
      c.contains other = true → c.Awaited found pending other) :
    (∀ name, c.Awaited found pending name → name ∈ (c.visit steps pending found).map (·.name)) ∧
    ∀ name ∈ (c.visit steps pending found).map (·.name), ∀ other, c.Needs name other →
      c.contains other = true → other ∈ (c.visit steps pending found).map (·.name) := by
  induction steps generalizing pending found with
  | zero =>
      have nothing : pending = [] := List.length_eq_zero_iff.mp (by omega)
      subst nothing
      simpa [visit, Awaited] using covered
  | succ steps ih =>
      cases pending with
      | nil => simpa [visit, Awaited] using covered
      | cons next pending =>
          rw [List.length_cons] at enough
          rw [visit]
          split
          · rename_i seen
            have there := any_name_iff.mp seen
            have rest := @ih pending found (by omega)
              fun name member other needs has =>
                (covered name member other needs has).tail fun _ => there
            exact ⟨fun name awaited => rest.1 name (awaited.tail fun _ => there), rest.2⟩
          · rename_i isNew
            split
            · rename_i unknown
              have lacks : c.contains next = true → next ∈ found.map (·.name) := by
                intro has
                rw [contains, unknown] at has
                cases has
              have rest := @ih pending found (by omega)
                fun name member other needs has => (covered name member other needs has).tail lacks
              exact ⟨fun name awaited => rest.1 name (awaited.tail lacks), rest.2⟩
            · rename_i m known
              have same : m.name = next := name_of_get? known
              have isNew : found.any (·.name == m.name) = false := by simpa [same] using isNew
              have less := unseen_append (mem_of_get? known) isNew
              have rest := @ih (m.dependencies ++ pending) (found ++ [m.ref])
                (by rw [List.length_append]; omega) ?covered
              · exact ⟨fun name awaited => rest.1 name (awaited.visited known), rest.2⟩
              -- What was found before needs nothing new, and what this module needs is pending now.
              intro name member other needs has
              rw [List.map_append, List.mem_append] at member
              rcases member with member | member
              · exact (covered name member other needs has).visited known
              · have isNext : name = next := (List.mem_singleton.mp member).trans same
                obtain ⟨m', known', needed⟩ := needs
                rw [isNext, known] at known'
                cases known'
                exact .inr ⟨List.mem_append_left _ needed, has⟩

/-! ## The closure of a module -/

/-- The steps that are given are enough from the start. -/
theorem visitSteps_eq (c : Catalog) : c.visitSteps = 1 + c.unseen [] := by
  have added : ∀ (modules : List ScriptModule) (steps : Nat),
      modules.foldl (fun steps m => steps + m.dependencies.length) steps =
        steps + (modules.map (unseenOf [])).sum := by
    intro modules
    induction modules with
    | nil =>
        intro steps
        rfl
    | cons m rest ih =>
        intro steps
        rw [List.foldl_cons, ih, List.map_cons, List.sum_cons, Nat.add_assoc]
        rfl
  exact added c.modules 1

/-- The references of a closure are the catalog's own. -/
theorem owns_of_mem_closure {name : String} {ref : Reference} (member : ref ∈ c.closure name) :
    c.Owns ref := by
  refine visit_induction c.Owns (fun _ => True) ?_ (fun _ _ _ _ => trivial)
    (fun _ _ => trivial) (fun _ none => by cases none) ref member
  intro name m _ known
  exact owns_of_get? known

/-- **A closure is what a module leads to.** A name is in the closure of a module exactly when
following what modules need leads to it and the catalog has it. -/
theorem mem_closure {start name : String} :
    name ∈ (c.closure start).map (·.name) ↔
      Relation.ReflTransGen c.Needs start name ∧ c.contains name = true := by
  constructor
  · intro isName
    obtain ⟨ref, member, rfl⟩ := List.mem_map.mp isName
    refine ⟨?_, contains_of_owns (owns_of_mem_closure member)⟩
    refine visit_induction (fun ref => Relation.ReflTransGen c.Needs start ref.name)
      (Relation.ReflTransGen c.Needs start) ?_ (fun _ _ leads needs => leads.tail needs) ?_
      (fun _ none => by cases none) ref member
    · intro name m leads known
      have same : m.ref.name = name := name_of_get? known
      rwa [same]
    · intro name isPending
      rw [List.mem_singleton.mp isPending]
  · rintro ⟨leads, has⟩
    have visited := @visit_complete c c.visitSteps [start] [] (by rw [c.visitSteps_eq]; rfl)
      (fun _ none => by cases none)
    -- Along the way to the name, every module has a successor and is therefore in the catalog.
    induction leads with
    | refl => exact visited.1 start (.inr ⟨List.mem_cons_self, has⟩)
    | @tail middle last _ needs ih =>
        have has' : c.contains middle = true := by
          obtain ⟨m, known, -⟩ := needs
          rw [contains, known]
          rfl
        exact visited.2 middle (ih has') last needs has

/-- A module is visible exactly when a bound module is or needs it. -/
theorem mem_visible {references : References} {name : String} :
    name ∈ (c.visible references).map (·.name) ↔
      ∃ m ∈ references.modules, name ∈ (c.closure m.name).map (·.name) := by
  have folded : ∀ (modules found : List Reference),
      name ∈ (modules.foldl (fun found m => addByName found (c.closure m.name)) found).map
          (·.name) ↔
        name ∈ found.map (·.name) ∨ ∃ m ∈ modules, name ∈ (c.closure m.name).map (·.name) := by
    intro modules
    induction modules with
    | nil => simp
    | cons m rest ih =>
        intro found
        rw [List.foldl_cons, ih, mem_names_addByName]
        simp [or_assoc]
  unfold visible
  rw [folded]
  simp

/-- The references that a fragment sees are the catalog's own. -/
theorem owns_of_mem_visible {references : References} {ref : Reference}
    (member : ref ∈ c.visible references) : c.Owns ref := by
  have folded : ∀ modules found : List Reference, (∀ ref ∈ found, c.Owns ref) →
      ∀ ref ∈ modules.foldl (fun found m => addByName found (c.closure m.name)) found,
        c.Owns ref := by
    intro modules
    induction modules with
    | nil => exact fun _ before => before
    | cons m rest ih =>
        intro found before
        refine ih _ fun ref added => ?_
        rcases mem_of_mem_addByName added with member | member
        · exact before ref member
        · exact owns_of_mem_closure member
  exact folded references.modules [] (fun _ none => by cases none) ref member

/-- The modules that a fragment may use are there, provided that the one of every fragment is. -/
theorem get?_of_mem_usable (prelude : ∃ m, c.get? preludeName = some m) {references : References}
    {name : String} (member : name ∈ c.usable references) : ∃ m, c.get? name = some m := by
  rcases List.mem_cons.mp member with rfl | member
  · exact prelude
  · obtain ⟨bound, -, member⟩ := mem_visible.mp member
    exact Option.isSome_iff_exists.mp (mem_closure.mp member).2

end Catalog

end ScriptShell
