/-! # Static types

The types that the checker gives to expressions. `Ty.accepts` says when a value of one type may flow
to where another is expected and `Ty.join` is the type of a name that got values of two types. -/

namespace ScriptShell

/-- The types of expressions. `any` is the type of what is only known at run time. -/
inductive Ty where
  | num
  | str
  | bool
  | null
  | void
  | list (item : Ty)
  | future (item : Ty)
  | fn (params : List Ty) (returns : Ty) (variadic : Bool)
  | module (name : String)
  | any
  deriving Inhabited, Repr

namespace Ty

/-! ## Equality -/

mutual

/-- Whether two types are the same. -/
def same : Ty → Ty → Bool
  | .num, .num | .str, .str | .bool, .bool | .null, .null | .void, .void | .any, .any => true
  | .list a, .list b => same a b
  | .future a, .future b => same a b
  | .fn params returns variadic, .fn params' returns' variadic' =>
    sameAll params params' && same returns returns' && variadic == variadic'
  | .module a, .module b => a == b
  | _, _ => false

/-- Whether two lists of types are the same. -/
def sameAll : List Ty → List Ty → Bool
  | [], [] => true
  | a :: as, b :: bs => same a b && sameAll as bs
  | _, _ => false

end

mutual

/-- A type is the same as itself. -/
theorem same_refl : (t : Ty) → same t t = true
  | .num | .str | .bool | .null | .void | .any => rfl
  | .list item => by simp [same, same_refl item]
  | .future item => by simp [same, same_refl item]
  | .fn params returns variadic => by simp [same, sameAll_refl params, same_refl returns]
  | .module name => by simp [same]

/-- Several types are the same as themselves. -/
theorem sameAll_refl : (ts : List Ty) → sameAll ts ts = true
  | [] => rfl
  | t :: ts => by simp [sameAll, same_refl t, sameAll_refl ts]

end

mutual

/-- Types that are the same are equal. -/
theorem eq_of_same : (a b : Ty) → same a b = true → a = b
  | .list a, .list b, h => by
    have := eq_of_same a b (by simpa [same] using h)
    simp [this]
  | .future a, .future b, h => by
    have := eq_of_same a b (by simpa [same] using h)
    simp [this]
  | .fn params returns variadic, .fn params' returns' variadic', h => by
    simp only [same, Bool.and_eq_true, beq_iff_eq] at h
    have first := eq_of_sameAll params params' h.1.1
    have second := eq_of_same returns returns' h.1.2
    simp [first, second, h.2]
  | .module a, .module b, h => by simpa [same] using h
  | .num, b, h | .str, b, h | .bool, b, h | .null, b, h | .void, b, h | .any, b, h => by
    cases b <;> simp_all [same]
  | .list a, .num, h | .list a, .str, h | .list a, .bool, h | .list a, .null, h | .list a, .void, h
  | .list a, .any, h | .list a, .module _, h | .list a, .fn .., h | .list a, .future _, h => by
    simp [same] at h
  | .future a, .num, h | .future a, .str, h | .future a, .bool, h | .future a, .null, h
  | .future a, .void, h | .future a, .any, h | .future a, .module _, h | .future a, .fn .., h
  | .future a, .list _, h => by simp [same] at h
  | .module a, .num, h | .module a, .str, h | .module a, .bool, h | .module a, .null, h
  | .module a, .void, h | .module a, .any, h | .module a, .future _, h | .module a, .fn .., h
  | .module a, .list _, h => by simp [same] at h
  | .fn .., .num, h | .fn .., .str, h | .fn .., .bool, h | .fn .., .null, h
  | .fn .., .void, h | .fn .., .any, h | .fn .., .future _, h | .fn .., .module _, h
  | .fn .., .list _, h => by simp [same] at h

/-- Lists of types that are the same are equal. -/
theorem eq_of_sameAll : (as bs : List Ty) → sameAll as bs = true → as = bs
  | [], [], _ => rfl
  | a :: as, b :: bs, h => by
    simp only [sameAll, Bool.and_eq_true] at h
    rw [eq_of_same a b h.1, eq_of_sameAll as bs h.2]
  | [], _ :: _, h | _ :: _, [], h => by simp [sameAll] at h

end

instance : DecidableEq Ty := fun a b =>
  if h : same a b = true then .isTrue (eq_of_same a b h)
  else .isFalse fun equal => h (equal ▸ same_refl a)

/-! ## Operations -/

/-- Whether this is the type of what has no value. -/
def isVoid (t : Ty) : Bool :=
  t = .void

/-- Whether a value of type `other` may flow to where `expected` is expected. `any` flows both ways,
lists and futures flow as their items do, and every function flows to every function. -/
def accepts : (expected other : Ty) → Bool
  | .any, _ | _, .any => true
  | .list a, .list b => accepts a b
  | .future a, .future b => accepts a b
  | .fn .., .fn .. => true
  | a, b => a = b

/-- The type of a name that got values of both types: their common type, or `any`. -/
def join (a b : Ty) : Ty :=
  if a = b then a else .any

mutual

/-- The written form of a type. -/
def display : Ty → String
  | .num => "num"
  | .str => "str"
  | .bool => "bool"
  | .null => "null"
  | .void => "void"
  | .list item => "list<" ++ display item ++ ">"
  | .future item => "future<" ++ display item ++ ">"
  | .fn params returns variadic =>
    "fn(" ++ ", ".intercalate (displayAll params ++ if variadic then [".."] else [])
      ++ ") -> " ++ display returns
  | .module name => "module " ++ name
  | .any => "any"

/-- The written forms of types. -/
def displayAll : List Ty → List String
  | [] => []
  | t :: ts => display t :: displayAll ts

end

end Ty

end ScriptShell
