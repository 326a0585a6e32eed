import QuotePress.Context
import QuotePress.Template.Node

/-! # Rendering

A template is rendered in one pass over its tree. Values go into the text as they are and are
never read as template text again. -/
namespace QuotePress

namespace Node

mutual

/-- The text of one node. The body of a loop sees the fields of its record and nothing else. -/
def render (scope : Scope) : Node → String
  | .text run => run
  | .variable name => ((scope.value? name).map Value.toText).getD ""
  | .block .conditional name body => if scope.isTruthy name then renderAll scope body else ""
  | .block .loop name body =>
    String.join (((scope.list? name).getD []).map fun record => renderAll (.record record) body)

def renderAll (scope : Scope) : List Node → String
  | [] => ""
  | node :: rest => render scope node ++ renderAll scope rest

end

mutual

/-- The names of one node whose value or truth is asked for. -/
def valueNames : Node → List String
  | .text _ => []
  | .variable name => [name]
  | .block .conditional name body => name :: valueNamesAll body
  | .block .loop _ body => valueNamesAll body

def valueNamesAll : List Node → List String
  | [] => []
  | node :: rest => valueNames node ++ valueNamesAll rest

end

mutual

def listNames : Node → List String
  | .text _ => []
  | .variable _ => []
  | .block .conditional _ body => listNamesAll body
  | .block .loop name body => name :: listNamesAll body

def listNamesAll : List Node → List String
  | [] => []
  | node :: rest => listNames node ++ listNamesAll rest

end

end Node

/-- Names in ascending order, each once. -/
def sortedNames (names : List String) : List String :=
  (NameMap.ofList (names.map fun name => (name, ()))).names

namespace Template

def render (t : Template) (scope : Scope) : String :=
  Node.renderAll scope t.nodes

/-- The names that stand in a substitution or a conditional, ascending. -/
def variableNames (t : Template) : List String :=
  sortedNames (Node.valueNamesAll t.nodes)

def sectionNames (t : Template) : List String :=
  sortedNames (Node.listNamesAll t.nodes)

def compile (source : String) (c : Context) : String :=
  (parse source).render (.document c)

end Template

end QuotePress
