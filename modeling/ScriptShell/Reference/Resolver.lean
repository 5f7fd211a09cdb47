import ScriptShell.Reference.Set
import ScriptShell.Reference.Directive
import ScriptShell.Module.Catalog

/-! # Resolving references

A resolver answers which modules a target stands for. A session has one primary resolver, whose
errors count, and alternatives, whose errors are passed over. Every answer comes with a trail: which
source was asked for which target. -/

namespace ScriptShell

/-- A source that was asked for a target. -/
structure Consultation where
  source : String
  target : String
  deriving DecidableEq, Repr, Inhabited

/-- What resolving gives: modules or an error, and the trail. -/
structure Resolution where
  result : Except ResolutionError (List Reference)
  trail : List Consultation := []

/-- A way to resolve targets. No modules means that the target is not known there. -/
abbrev Resolver := String → Resolution

namespace Resolver

/-- Resolves the names of the modules of a catalog. -/
def ofCatalog (c : Catalog) : Resolver := fun target =>
  ⟨.ok ((c.get? target).map (·.ref)).toList, [⟨"catalog", target⟩]⟩

end Resolver

/-- A primary resolver and alternatives to it. -/
structure Resolvers where
  primary : Resolver
  alternatives : List Resolver := []

namespace Resolvers

/-- What the alternatives know of a target, all together; their errors are passed over. -/
def askAlternatives (target : String) : List Resolver → List Reference × List Consultation
  | [] => ([], [])
  | r :: rest =>
    let answer := r target
    let (modules, trail) := askAlternatives target rest
    (answer.result.toOption.getD [] ++ modules, answer.trail ++ trail)

/-- Resolves one target. The primary's error ends it; a target that nothing knows is unresolved. -/
def resolve (r : Resolvers) (target : String) : Resolution :=
  let first := r.primary target
  match first.result with
  | .error e => ⟨.error e, first.trail⟩
  | .ok modules =>
    let (more, trail) := askAlternatives target r.alternatives
    let all := modules ++ more
    ⟨if all.isEmpty then .error (.unresolved target) else .ok all, first.trail ++ trail⟩

/-- Resolves those of some targets that a set has not bound, up to the first error. -/
def resolveEach (r : Resolvers) (bound : References) : List String → Resolution
  | [] => ⟨.ok [], []⟩
  | target :: rest =>
    if bound.isBound target then r.resolveEach bound rest
    else
      let first := r.resolve target
      match first.result with
      | .error e => ⟨.error e, first.trail⟩
      | .ok modules =>
        let others := r.resolveEach bound rest
        ⟨others.result.map (modules ++ ·), first.trail ++ others.trail⟩

/-- Resolves the load directives of a text. -/
def resolveText (r : Resolvers) (bound : References) (text : String) : Resolution :=
  r.resolveEach bound (loadTargets text)

end Resolvers

end ScriptShell
