import Mathlib.Data.List.Nodup
import ScriptShell.Reference.Set

/-! # Lists in which the first of a key wins

Items are put into a list one after the other, and one whose key is there already, or that is not
allowed, is passed over. Putting such lists one after the other is associative
(**`pushAll_assoc`**), and a second time changes nothing.

A reference set is three such lists: modules by their written form, imports and targets by
themselves. -/

namespace ScriptShell

/-! ## Lists in which the first of a key wins -/

section

variable {α κ : Type} [DecidableEq κ] (key : α → κ) (allowed : α → Bool)

/-- Puts an item last, if it is allowed and no item has its key. -/
def pushNew (xs : List α) (x : α) : List α :=
  if allowed x = true ∧ key x ∉ xs.map key then xs ++ [x] else xs

/-- Puts items last, one after the other. -/
def pushAll (xs ys : List α) : List α :=
  ys.foldl (pushNew key allowed) xs

/-- All items are allowed, and no two have the same key. -/
structure Tidy (xs : List α) : Prop where
  allowed : ∀ x ∈ xs, allowed x = true
  keys : (xs.map key).Nodup

variable {key allowed} {xs ys : List α}

omit [DecidableEq κ] in
/-- The empty list is tidy. -/
theorem Tidy.nil : Tidy key allowed [] :=
  ⟨by simp, by simp⟩

/-- One more item keeps a list tidy. -/
theorem Tidy.pushNew (tidy : Tidy key allowed xs) (x : α) :
    Tidy key allowed (pushNew key allowed xs x) := by
  unfold ScriptShell.pushNew
  split
  · rename_i admitted
    refine ⟨?_, ?_⟩
    · intro y member
      rcases List.mem_append.mp member with before | added
      · exact tidy.allowed y before
      · exact List.mem_singleton.mp added ▸ admitted.1
    · rw [List.map_append, List.map_singleton]
      exact List.nodup_append.mpr
        ⟨tidy.keys, List.nodup_singleton _, fun k there k' added same =>
          admitted.2 (List.mem_singleton.mp added ▸ same ▸ there)⟩
  · exact tidy

/-- More items keep a list tidy. -/
theorem Tidy.pushAll (tidy : Tidy key allowed xs) (ys : List α) :
    Tidy key allowed (pushAll key allowed xs ys) := by
  induction ys generalizing xs with
  | nil => exact tidy
  | cons y ys ih => exact ih (tidy.pushNew y)

/-- Items of two lists are added one list after the other. -/
theorem pushAll_append (xs ys zs : List α) :
    pushAll key allowed xs (ys ++ zs) = pushAll key allowed (pushAll key allowed xs ys) zs :=
  List.foldl_append

/-- The keys after one more item: its own, unless it is not allowed, and those from before. -/
theorem mem_keys_pushNew {x : α} {k : κ} :
    k ∈ (pushNew key allowed xs x).map key ↔
      k ∈ xs.map key ∨ allowed x = true ∧ key x = k := by
  unfold pushNew
  split
  · rename_i admitted
    simp [admitted.1, eq_comm]
  · rename_i refused
    refine ⟨.inl, ?_⟩
    rintro (before | ⟨isAllowed, rfl⟩)
    · exact before
    · exact Decidable.not_not.mp fun isNew => refused ⟨isAllowed, isNew⟩

/-- The keys after items were added: the old ones and those of the allowed new ones. -/
theorem mem_keys_pushAll {k : κ} :
    k ∈ (pushAll key allowed xs ys).map key ↔
      k ∈ xs.map key ∨ ∃ y ∈ ys, allowed y = true ∧ key y = k := by
  induction ys generalizing xs with
  | nil => simp [pushAll]
  | cons y ys ih =>
      show k ∈ (pushAll key allowed (pushNew key allowed xs y) ys).map key ↔ _
      rw [ih, mem_keys_pushNew, or_assoc, List.exists_mem_cons_iff]

/-- Where items are their own keys and all are allowed, those of both lists are there. -/
theorem mem_pushAll_id {xs ys : List κ} {k : κ} :
    k ∈ pushAll id (fun _ => true) xs ys ↔ k ∈ xs ∨ k ∈ ys := by
  simpa using @mem_keys_pushAll κ κ _ id (fun _ => true) xs ys k

/-- What was there stays in front. -/
theorem prefix_pushAll (xs ys : List α) : xs <+: pushAll key allowed xs ys := by
  induction ys generalizing xs with
  | nil => exact List.prefix_rfl
  | cons y ys ih =>
      have step : xs <+: pushNew key allowed xs y := by
        unfold pushNew
        split
        · exact List.prefix_append xs [y]
        · exact List.prefix_rfl
      exact step.trans (ih _)

/-- Items that are not allowed, or whose keys are there, change nothing. -/
theorem pushAll_eq_self (known : ∀ y ∈ ys, allowed y = true → key y ∈ xs.map key) :
    pushAll key allowed xs ys = xs := by
  induction ys with
  | nil => rfl
  | cons y ys ih =>
      rw [List.forall_mem_cons] at known
      have refused : pushNew key allowed xs y = xs :=
        if_neg fun admitted => admitted.2 (known.1 admitted.1)
      show pushAll key allowed (pushNew key allowed xs y) ys = xs
      rw [refused, ih known.2]

/-- A second time changes nothing. -/
theorem pushAll_pushAll_self (xs ys : List α) :
    pushAll key allowed (pushAll key allowed xs ys) ys = pushAll key allowed xs ys :=
  pushAll_eq_self fun y member isAllowed =>
    mem_keys_pushAll.mpr (.inr ⟨y, member, isAllowed, rfl⟩)

/-- Putting one more item into the second list puts it last after both. -/
theorem pushAll_pushNew (tidy : Tidy key allowed ys) (xs : List α) (y : α) :
    pushAll key allowed xs (pushNew key allowed ys y) =
      pushNew key allowed (pushAll key allowed xs ys) y := by
  by_cases admitted : allowed y = true ∧ key y ∉ ys.map key
  · rw [pushNew, if_pos admitted, pushAll_append]
    rfl
  · -- What the second list refuses for a key of its own is refused after it, too.
    have refused : ¬ (allowed y = true ∧ key y ∉ (pushAll key allowed xs ys).map key) := by
      rintro ⟨isAllowed, isNew⟩
      obtain ⟨held, member, same⟩ : ∃ held ∈ ys, key held = key y := by
        simpa [isAllowed] using admitted
      exact isNew (mem_keys_pushAll.mpr (.inr ⟨held, member, tidy.allowed held member, same⟩))
    rw [pushNew, if_neg admitted, pushNew, if_neg refused]

/-- **Putting lists one after the other is associative.** -/
theorem pushAll_assoc (tidy : Tidy key allowed ys) (xs zs : List α) :
    pushAll key allowed (pushAll key allowed xs ys) zs =
      pushAll key allowed xs (pushAll key allowed ys zs) := by
  induction zs generalizing ys with
  | nil => rfl
  | cons z zs ih =>
      show pushAll key allowed (pushNew key allowed (pushAll key allowed xs ys) z) zs =
        pushAll key allowed xs (pushAll key allowed (pushNew key allowed ys z) zs)
      rw [← ih (tidy.pushNew z), pushAll_pushNew tidy]

/-- A tidy list after nothing is the list. -/
theorem nil_pushAll (tidy : Tidy key allowed ys) : pushAll key allowed [] ys = ys := by
  have grows : ∀ (rest front : List α), Tidy key allowed (front ++ rest) →
      pushAll key allowed front rest = front ++ rest := by
    intro rest
    induction rest with
    | nil => simp [pushAll]
    | cons x rest ih =>
        intro front tidy
        have isNew : key x ∉ front.map key := by
          have keys := tidy.keys
          rw [List.map_append, List.nodup_append] at keys
          exact fun there => keys.2.2 _ there _ List.mem_cons_self rfl
        have admitted : pushNew key allowed front x = front ++ [x] :=
          if_pos ⟨tidy.allowed x (by simp), isNew⟩
        rw [List.append_cons] at tidy ⊢
        rw [← ih (front ++ [x]) tidy, ← admitted]
        rfl
  exact grows ys [] tidy

end

/-! ## Reference sets as three lists -/

/-- Whether a reference is to a module and not to a generated unit. -/
def Reference.isKept (m : Reference) : Bool :=
  !m.isGenerated

namespace References

variable (s other : References)

/-- Adding modules is adding items that are told apart by their written form. -/
theorem modules_addModules_eq (ms : List Reference) :
    (s.addModules ms).modules = pushAll Reference.display Reference.isKept s.modules ms := by
  induction ms generalizing s with
  | nil => rfl
  | cons m ms ih =>
      have step : (s.addModule m).modules =
          pushNew Reference.display Reference.isKept s.modules m := by
        have admits_iff : s.admits m = true ↔
            m.isKept = true ∧ m.display ∉ s.modules.map (·.display) := by
          simp [admits, Reference.isKept]
        by_cases admitted : s.admits m = true
        · rw [addModule, if_pos admitted, pushNew, if_pos (admits_iff.mp admitted)]
        · rw [addModule, if_neg admitted, pushNew, if_neg (mt admits_iff.mpr admitted)]
      rw [addModules_cons, ih, step]
      rfl

/-- Adding imports is adding items that are told apart by themselves. -/
theorem imports_addImports_eq (names : List String) :
    (s.addImports names).imports = pushAll id (fun _ => true) s.imports names := by
  unfold addImports
  induction names generalizing s with
  | nil => rfl
  | cons name names ih =>
      have step : (s.addImport name).imports = pushNew id (fun _ => true) s.imports name := by
        by_cases there : name ∈ s.imports <;> simp [addImport, pushNew, there]
      rw [List.foldl_cons, ih, step]
      rfl

/-- Adding targets is adding items that are told apart by themselves. -/
theorem targets_addTargets_eq (targets : List String) :
    (s.addTargets targets).targets = pushAll id (fun _ => true) s.targets targets := by
  unfold addTargets
  induction targets generalizing s with
  | nil => rfl
  | cons target targets ih =>
      have step : (s.addTarget target).targets = pushNew id (fun _ => true) s.targets target := by
        by_cases there : target ∈ s.targets <;> simp [addTarget, pushNew, there]
      rw [List.foldl_cons, ih, step]
      rfl

end References

end ScriptShell
