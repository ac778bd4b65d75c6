import RoutePriority.Log
import RoutePriority.Priority.Model
import RoutePriority.Rule.Specification

/-!
# Compiling specifications

Compilation resolves the names of a specification against a registry, attribute by attribute and
rule by rule in the order of declaration, and stops at the first fault: an unknown attribute comes
before anything in its table, and in a rule the pattern comes before the factor.

Along the way it keeps an account, `Compilation.log`, of the tables that were compiled and, if all
were, of the whole model.
-/

namespace RoutePriority

namespace Handle

/-- The test that a pattern stands for. -/
def matcher (handle : Handle) : Pattern → Except PatternFault Matcher
  | .wildcard => .ok .any
  | .literal value =>
    if handle.kind.acceptsLiterals then
      match handle.parse? value with
      | some (.category ordinal) => .ok (.category ordinal)
      | some (.flag flag) => .ok (.flag flag)
      | _ => .error (.notAmong handle.values)
    else .error (.namesKind handle.kind)
  | .relational comparison threshold =>
    if handle.kind.acceptsRelations then .ok (.compare comparison threshold)
    else .error (.comparesKind handle.kind)

/-- The pattern and the test that a pattern text stands for. -/
def readPattern (handle : Handle) (text : String) : Except PatternFault (Pattern × Matcher) :=
  match Pattern.parse text with
  | .ok pattern => (handle.matcher pattern).map (pattern, ·)
  | .error _ =>
    if handle.kind.acceptsRelations then .error .thresholdNotFinite
    else .error (.comparesKind handle.kind)

/-- The number of a factor, which must lie between zero and one. -/
def checkFactor (handle : Handle) (pattern : String) (factor : Factor) :
    Except CompileError Binary64 :=
  match factor.toBinary64?.filter (!·.isNan) with
  | none => .error (.invalidFactor handle.name pattern factor.display)
  | some value =>
    if Binary64.zero.le value && value.le .one then .ok value
    else .error (.outOfRangeFactor handle.name value)

/-- The rule of an attribute that a pattern text and a factor declare. -/
def compileRule (handle : Handle) (text : String) (factor : Factor) :
    Except CompileError Rule := do
  let (pattern, matcher) ←
    (handle.readPattern text).mapError (.unsupportedPattern handle.name text)
  return ⟨pattern, matcher, ← handle.checkFactor text factor⟩

/-- The compiled rules of an attribute. -/
def compileTable (handle : Handle) (table : RuleTable) : Except CompileError CompiledTable :=
  (table.entries.mapM fun (text, factor) => handle.compileRule text factor).map (⟨handle, ·⟩)

end Handle

/-- The compiled rules of the attribute of the given name. -/
def Registry.compileTable (registry : Registry) (name : String) (table : RuleTable) :
    Except CompileError CompiledTable :=
  match registry.resolve? name with
  | none => .error (.unknownAttribute name)
  | some handle => handle.compileTable table

/-- The outcome of a compilation and the account of it. -/
structure Compilation where
  result : Except CompileError Model
  log : List LogEvent

namespace Compilation

/-- Compiles further tables after those of a model. -/
def extend (registry : Registry) (model : Model) : List (String × RuleTable) → Compilation
  | [] => ⟨.ok model, [.modelCompiled model.size model.ruleCount]⟩
  | (name, table) :: rest =>
    match registry.compileTable name table with
    | .error error => ⟨.error error, []⟩
    | .ok compiled =>
      let { result, log } := extend registry ⟨model.tables ++ [compiled]⟩ rest
      ⟨result, .tableCompiled name compiled.handle.kind compiled.rules.length :: log⟩

/-- Compiles a specification. -/
def run (specification : Specification) (registry : Registry) : Compilation :=
  extend registry ⟨[]⟩ specification.entries

end Compilation

/-- The model of a specification, or the first error in it. -/
def Model.compile (specification : Specification) (registry : Registry) :
    Except CompileError Model :=
  (Compilation.run specification registry).result

end RoutePriority
