import ScriptShell.Module.Standard
import ScriptShell.Proofs.Typing.Inhabits

/-! # The standard modules keep to their signatures

**`Catalog.standard_honest`**: the functions of the standard modules answer what their signatures
say, whatever they are called with. A function first requires its number of arguments and then reads
them one by one, so each is followed reader by reader; `Read.Ensures` says what one comes to. -/

namespace ScriptShell

namespace Arguments

variable {α β : Type}

/-- What is read has the one property; the error, if reading fails, has the other. -/
def Read.Ensures (x : Read α) (value : α → Prop) (error : RunError → Prop) : Prop :=
  match x with
  | .ok a => value a
  | .error e => error e

namespace Read.Ensures

variable {x : Read α} {f : α → Read β} {value : α → Prop} {next : β → Prop}
  {error : RunError → Prop}

/-- To return. -/
theorem pure {a : α} (holds : value a) : Read.Ensures (Pure.pure a) value error :=
  holds

/-- To refuse. -/
theorem throw {e : RunError} (holds : error e) :
    Read.Ensures (MonadExcept.throw e : Read α) value error :=
  holds

/-- One reader after another. -/
theorem bind (first : x.Ensures value error) (second : ∀ a, value a → (f a).Ensures next error) :
    Read.Ensures (x >>= f) next error := by
  cases x with
  | ok a => exact second a first
  | error e => exact first

end Read.Ensures

/-! ## Readers -/

variable {loose : Prop} {function : String} {args : List Value}

/-- Errors other than those of shape need no excuse. -/
theorem excused_of_eq_false {e : RunError} (scope : e.code.isScopeError = false)
    (shape : e.code.isShapeError = false) : e.Excused loose :=
  ⟨scope, fun isShape => by simp [shape] at isShape⟩

/-- Requiring a number of arguments fails only if there is another number of them. -/
theorem expect_ensures (function : String) (count : Nat) (args : List Value) :
    (expect function count args).Ensures (fun _ => args.length = count)
      (RunError.Excused (args.length ≠ count)) := by
  unfold expect
  split
  · rename_i fits
    exact fits
  · rename_i wrong
    exact ⟨rfl, fun _ => wrong⟩

/-- An argument that is there is a number, or of the wrong kind. -/
theorem number_ensures {index : Nat} (there : index < args.length) :
    (number function args index).Ensures (fun _ => True) (RunError.Excused loose) := by
  unfold number
  rw [List.getElem?_eq_getElem there]
  split
  · trivial
  · exact excused_of_eq_false rfl rfl
  · rename_i missing
    cases missing

/-- An argument that is there is a text, or of the wrong kind. -/
theorem text_ensures {index : Nat} (there : index < args.length) :
    (text function args index).Ensures (fun _ => True) (RunError.Excused loose) := by
  unfold text
  rw [List.getElem?_eq_getElem there]
  split
  · trivial
  · exact excused_of_eq_false rfl rfl
  · rename_i missing
    cases missing

/-- The items of a list are numbers, or of the wrong kind. -/
theorem mapM_numberItem_ensures (items : List Value) :
    Read.Ensures (items.mapM (numberItem function)) (fun _ => True) (RunError.Excused loose) := by
  induction items with
  | nil => exact .pure trivial
  | cons item rest ih =>
      rw [List.mapM_cons]
      have first : (numberItem function item).Ensures (fun _ => True) (RunError.Excused loose) := by
        unfold numberItem
        split
        · trivial
        · exact excused_of_eq_false rfl rfl
      exact .bind first fun _ _ => .bind ih fun _ _ => .pure trivial

/-- An argument that is there is a list of numbers, or of the wrong kind. -/
theorem numbers_ensures {index : Nat} (there : index < args.length) :
    (numbers function args index).Ensures (fun _ => True) (RunError.Excused loose) := by
  unfold numbers
  rw [List.getElem?_eq_getElem there]
  split
  · exact mapM_numberItem_ensures _
  · exact excused_of_eq_false rfl rfl
  · rename_i missing
    cases missing

end Arguments

namespace Standard

open Arguments

variable {c : Catalog}

/-! ## Functions that read their arguments -/

/-- The value of a call is what was read. -/
theorem read_of_value {body : List Value → Read Value} {args : List Value} {v : Value}
    (result : (native body args).result = .value v) : body args = .ok v := by
  unfold native NativeReply.ofExcept at result
  split at result
  · rename_i read
    cases result
    exact read
  · cases result

/-- The error of a call is what reading failed with. -/
theorem read_of_failure {body : List Value → Read Value} {args : List Value} {e : RunError}
    (result : (native body args).result = .failure e) : body args = .error e := by
  unfold native NativeReply.ofExcept at result
  split at result
  · cases result
  · rename_i read
    cases result
    exact read

/-- A function with a fixed number of parameters keeps to its signature if what it reads does. -/
theorem honest_of_reads {f : NativeFunction} {body : List Value → Read Value}
    (isNative : f.body = native body) (fixed : f.variadic = false)
    (reads : ∀ args, (body args).Ensures
      (fun v => v.Inhabits c f.answers ∧
        ((∀ a ∈ args, a.All (Value.Known c)) → v.All (Value.Known c)))
      (RunError.Excused (args.length ≠ f.params.length))) : f.Honest c := by
  refine ⟨fun {args v} result => ?_, fun {args v} known result => ?_, fun {args e} result => ?_⟩
  · have read := reads args
    rw [isNative] at result
    rw [read_of_value result] at read
    exact read.1
  · have read := reads args
    rw [isNative] at result
    rw [read_of_value result] at read
    exact read.2 known
  · have read := reads args
    rw [isNative] at result
    rw [read_of_failure result] at read
    -- With the right number of arguments the excuse is gone.
    have excused : e.Excused (args.length ≠ f.params.length) := read
    exact excused.mono fun wrong takes => wrong (by simpa [NativeFunction.Takes, fixed] using takes)

/-- What a function answers without taking it from its arguments. -/
theorem data_answer {args : List Value} {v : Value} {type : Ty} (inhabits : v.Inhabits c type)
    (alone : v.parts = [v]) (known : v.Known c) :
    v.Inhabits c type ∧ ((∀ a ∈ args, a.All (Value.Known c)) → v.All (Value.Known c)) :=
  ⟨inhabits, fun _ => Value.all_of_parts_eq alone known⟩

/-! ## The functions of each module -/

/-- Printing answers null, whatever it is given. -/
theorem print_honest : print.Honest c where
  answers result := by
    cases result
    rfl
  known _ result := by
    cases result
    exact Value.all_of_parts_eq rfl trivial
  fails result := by cases result

/-- Lengths are numbers. -/
theorem len_honest : len.Honest c := by
  refine honest_of_reads rfl rfl fun args => ?_
  refine .bind (expect_ensures "len" 1 args) fun _ _ => ?_
  have measured : (lengthOf (args.headD .null)).Ensures (fun _ => True)
      (RunError.Excused (args.length ≠ 1)) := by
    unfold lengthOf
    split
    · trivial
    · trivial
    · trivial
    · exact excused_of_eq_false rfl rfl
  exact .bind measured fun _ _ => .pure (data_answer ⟨_, rfl⟩ rfl trivial)

/-- Written forms are strings. -/
theorem str_honest : str.Honest c := by
  refine honest_of_reads rfl rfl fun args => ?_
  refine .bind (expect_ensures "str" 1 args) fun _ _ => ?_
  exact .pure (data_answer ⟨_, rfl⟩ rfl trivial)

/-- Failing only fails. -/
theorem fail_honest : fail.Honest c := by
  refine honest_of_reads rfl rfl fun args => ?_
  refine .bind (expect_ensures "fail" 1 args) fun _ length => ?_
  refine .bind (text_ensures (by omega)) fun message _ => ?_
  exact .throw (excused_of_eq_false rfl rfl)

/-- Functions of one number answer numbers. -/
theorem unary_honest (name : String) (op : Float → Float) : (unary name op).Honest c := by
  refine honest_of_reads rfl rfl fun args => ?_
  refine .bind (expect_ensures name 1 args) fun _ length => ?_
  exact .bind (number_ensures (by omega)) fun _ _ => .pure (data_answer ⟨_, rfl⟩ rfl trivial)

/-- Square roots are numbers, and negative operands are refused. -/
theorem sqrt_honest : sqrt.Honest c := by
  refine honest_of_reads rfl rfl fun args => ?_
  refine .bind (expect_ensures "sqrt" 1 args) fun _ length => ?_
  refine .bind (number_ensures (by omega)) fun x _ => ?_
  split
  · exact .throw (excused_of_eq_false rfl rfl)
  · exact .pure (data_answer ⟨_, rfl⟩ rfl trivial)

/-- Functions of two numbers answer numbers. -/
theorem binary_honest (name doc : String) (op : Float → Float → Float) :
    (binary name doc op).Honest c := by
  refine honest_of_reads rfl rfl fun args => ?_
  refine .bind (expect_ensures name 2 args) fun _ length => ?_
  refine .bind (number_ensures (by omega)) fun _ _ => ?_
  exact .bind (number_ensures (by omega)) fun _ _ => .pure (data_answer ⟨_, rfl⟩ rfl trivial)

/-- Functions of one text answer texts. -/
theorem mapText_honest (name doc : String) (op : String → String) :
    (mapText name doc op).Honest c := by
  refine honest_of_reads rfl rfl fun args => ?_
  refine .bind (expect_ensures name 1 args) fun _ length => ?_
  exact .bind (text_ensures (by omega)) fun _ _ => .pure (data_answer ⟨_, rfl⟩ rfl trivial)

/-- Whether a text is in another is a truth value. -/
theorem contains_honest : contains.Honest c := by
  refine honest_of_reads rfl rfl fun args => ?_
  refine .bind (expect_ensures "contains" 2 args) fun _ length => ?_
  refine .bind (text_ensures (by omega)) fun _ _ => ?_
  exact .bind (text_ensures (by omega)) fun _ _ => .pure (data_answer ⟨_, rfl⟩ rfl trivial)

/-- A duration is read, or is none; what was known of the arguments stays so. -/
theorem expectDuration_ensures {loose known : Prop} {name : String} {args : List Value}
    (there : 0 < args.length) (holds : known) :
    (expectDuration name args).Ensures (fun _ => known) (RunError.Excused loose) := by
  refine .bind (number_ensures there) fun ms _ => ?_
  split
  · exact .throw (excused_of_eq_false rfl rfl)
  · exact .pure holds

/-- The arguments of a timer are as many as it needs and start with a duration, or are refused. -/
theorem expectTimer_ensures (name : String) {count : Nat} (some : 0 < count) (args : List Value) :
    (expectTimer name count args).Ensures (fun _ => args.length = count)
      (RunError.Excused (args.length ≠ count)) := by
  refine .bind (expect_ensures name count args) fun _ length => ?_
  exact expectDuration_ensures (by omega) length

/-- Waiting answers null. -/
theorem sleep_honest : sleep.Honest c := by
  refine honest_of_reads rfl rfl fun args => ?_
  exact .bind (expectTimer_ensures "sleep" Nat.one_pos args) fun _ _ =>
    .pure (data_answer rfl rfl trivial)

/-- The only function that answers one of its arguments. -/
theorem delay_honest : delay.Honest c := by
  refine honest_of_reads rfl rfl fun args => ?_
  refine .bind (expectTimer_ensures "delay" Nat.two_pos args) fun _ length =>
    .pure ⟨trivial, fun known => ?_⟩
  -- Two arguments were required, so there is a last one.
  have some : args ≠ [] := by
    rintro rfl
    cases length
  rw [List.getLastD_eq_getLast?, List.getLast?_eq_some_getLast some]
  exact known _ (List.getLast_mem some)

/-- Sums are numbers. -/
theorem sum_honest : sum.Honest c := by
  refine honest_of_reads rfl rfl fun args => ?_
  refine .bind (expect_ensures "sum" 1 args) fun _ length => ?_
  exact .bind (numbers_ensures (by omega)) fun _ _ => .pure (data_answer ⟨_, rfl⟩ rfl trivial)

/-- Means are numbers, and empty lists are refused. -/
theorem mean_honest : mean.Honest c := by
  refine honest_of_reads rfl rfl fun args => ?_
  refine .bind (expect_ensures "mean" 1 args) fun _ length => ?_
  refine .bind (numbers_ensures (by omega)) fun values _ => ?_
  split
  · exact .throw (excused_of_eq_false rfl rfl)
  · exact .pure (data_answer ⟨_, rfl⟩ rfl trivial)

/-- Every function of the standard modules keeps to its signature. -/
theorem functions_honest :
    ∀ m ∈ [core, math, texts, time, stats], ∀ f ∈ m.functions, f.Honest c := by
  simp only [List.mem_cons, List.not_mem_nil, or_false, forall_eq_or_imp, forall_eq, core, math,
    texts, time, stats]
  exact ⟨⟨print_honest, len_honest, str_honest, fail_honest⟩,
    ⟨unary_honest _ _, unary_honest _ _, unary_honest _ _, unary_honest _ _, sqrt_honest,
      binary_honest _ _ _, binary_honest _ _ _⟩,
    ⟨mapText_honest _ _ _, mapText_honest _ _ _, mapText_honest _ _ _, contains_honest⟩,
    ⟨sleep_honest, delay_honest⟩, ⟨sum_honest, mean_honest⟩⟩

/-- Every constant of the standard modules has its type. -/
theorem constants_honest :
    ∀ m ∈ [core, math, texts, time, stats], ∀ constant ∈ m.constants,
      constant.value.Inhabits c constant.type ∧ constant.value.All (Value.Known c) := by
  simp only [List.mem_cons, List.not_mem_nil, or_false, forall_eq_or_imp, forall_eq, core, math,
    texts, time, stats]
  have pi : (Value.num 3.141592653589793).All (Value.Known c) :=
    Value.all_of_parts_eq rfl trivial
  exact ⟨by simp, ⟨⟨_, rfl⟩, pi⟩, by simp, by simp, by simp⟩

/-- No two standard modules have members of one name. -/
theorem names_distinct :
    ∀ m ∈ [core, math, texts, time, stats], ∀ m' ∈ [core, math, texts, time, stats],
      ∀ name ∈ m.names, name ∈ m'.names → m.name = m'.name := by
  decide +kernel

end Standard

/-! ## The catalog -/

namespace Catalog

/-- Placing a module brings in no other one. -/
theorem mem_placeModule {m other : ScriptModule} {modules : List ScriptModule}
    (member : m ∈ placeModule other modules) : m = other ∨ m ∈ modules := by
  induction modules with
  | nil => exact .inl (List.mem_singleton.mp member)
  | cons first rest ih =>
      unfold placeModule at member
      -- Placed before the first, in the place of the first, or further back.
      split at member
      · exact List.mem_cons.mp member
      · split at member
        · rcases List.mem_cons.mp member with same | inside
          · exact .inl same
          · exact .inr (List.mem_cons_of_mem _ inside)
        · rcases List.mem_cons.mp member with same | inside
          · exact .inr (by simp [same])
          · rcases ih inside with same | inside
            · exact .inl same
            · exact .inr (List.mem_cons_of_mem _ inside)

/-- Registering modules brings in no others. -/
theorem mem_registerAll {m : ScriptModule} {c : Catalog} {modules : List ScriptModule}
    (member : m ∈ (c.registerAll modules).modules) : m ∈ c.modules ∨ m ∈ modules := by
  unfold registerAll at member
  induction modules generalizing c with
  | nil => exact .inl member
  | cons first rest ih =>
      rcases ih member with inside | inside
      · rcases mem_placeModule inside with same | inside
        · exact .inr (by simp [same])
        · exact .inl inside
      · exact .inr (List.mem_cons_of_mem _ inside)

/-- A module of the standard catalog is one of the standard modules. -/
theorem mem_of_get?_standard {name : String} {m : ScriptModule}
    (found : standard.get? name = some m) :
    m ∈ [Standard.core, Standard.math, Standard.texts, Standard.time, Standard.stats] := by
  rcases mem_registerAll (mem_of_get? found) with inside | inside
  · cases inside
  · exact inside

/-- **The standard catalog is honest.** -/
theorem standard_honest : standard.Honest where
  prelude := ⟨Standard.core, rfl⟩
  functions {ref f} found := by
    obtain ⟨m, isModule, isFunction⟩ := Option.bind_eq_some_iff.mp found
    exact Standard.functions_honest m (mem_of_get?_standard isModule) f
      (ScriptModule.function?_mem isFunction).1
  constants found member :=
    Standard.constants_honest _ (mem_of_get?_standard found) _ member
  distinct {a b m m' name} first second inFirst inSecond := by
    rw [← name_of_get? first, ← name_of_get? second]
    exact Standard.names_distinct m (mem_of_get?_standard first) m' (mem_of_get?_standard second)
      name inFirst inSecond

end Catalog

end ScriptShell
