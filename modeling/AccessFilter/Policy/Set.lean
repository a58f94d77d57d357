import AccessFilter.Filter.Compile

/-!
# Rule sets and the rules of a request

A rule applies to a request when one of its actions is the requested one or `manage`, and one of
its subjects is the requested one or `all`.

* `PolicySet`            rules in order of declaration;
* `PolicySet.rulesFor`   the rules that apply to a request, in order;
* `Adapter`              a schema with its operators, compiling for requests.
-/

namespace AccessFilter

def anyAction : String := "manage"

def anySubject : String := "all"

/-- Whether a rule applies to an action on a subject. -/
def Rule.applies (r : Rule) (action subject : String) : Bool :=
  r.actions.any (fun a => a == action || a == anyAction) &&
    r.subjects.any (fun s => s == subject || s == anySubject)

/-- Rules in order of declaration. -/
structure PolicySet where
  rules : List Rule

namespace PolicySet

def empty : PolicySet := ⟨[]⟩

def push (p : PolicySet) (r : Rule) : PolicySet := ⟨p.rules ++ [r]⟩

def extend (p : PolicySet) (rs : List Rule) : PolicySet := ⟨p.rules ++ rs⟩

def rulesFor (p : PolicySet) (action subject : String) : List Rule :=
  p.rules.filter fun r => r.applies action subject

end PolicySet

/-- Where the rules of a request come from. -/
abbrev RuleSource := String → String → List Rule

/-- A schema with the operators its conditions may use. -/
structure Adapter where
  schema : Schema
  operators : Registry

namespace Adapter

def standard (schema : Schema) : Adapter := ⟨schema, .standard⟩

/-- The standard operators with others over them. -/
def withOperators (schema : Schema) (ops : Registry) : Adapter :=
  ⟨schema, Registry.standard.overlay ops⟩

def filterRules (a : Adapter) (rules : List Rule) : Compilation := compile a.schema a.operators rules

/-- Compile the rules a source gives for a request. -/
def filterSource (a : Adapter) (source : RuleSource) (action subject : String) : Compilation :=
  a.filterRules (source action subject)

end Adapter

def Inspect.adapter (schema : String) (ops : Registry) : String :=
  "RowFilterAdapter \x7b schema: " ++ schema ++ ", operators: " ++ ops.inspect ++ " \x7d"

end AccessFilter
