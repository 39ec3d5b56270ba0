/-!
# Expressions in a template

A template's strings are texts, except that one in square brackets is an
expression.  A text that happens to have that shape is written with its opening
bracket doubled.  Inside an expression a text stands in single quotes, with each
of its own doubled.

## Main definitions

* `literal`: a text that is not to be evaluated.
* `quoted`: a text inside an expression.
* `parameterReference`, `resourceReference`: the two expressions that refer to
  another part of the template.
* `parameterScope`, `parameterName`: what the parameters of an element are
  called.
-/

namespace CloudCanvas

/-- The expression for where a resource is deployed. -/
def locationExpression : String := "[resourceGroup().location]"

/-- Whether a text has the shape of an expression. -/
def isBracketed (s : String) : Bool :=
  s.toList.head? == some '[' && s.toList.getLast? == some ']'

/-- A text as it is written where an expression could stand. -/
def literal (s : String) : String :=
  if isBracketed s then "[" ++ s else s

/-- The characters of a text with each single quote doubled. -/
def doubleQuotes (cs : List Char) : List Char :=
  cs.flatMap (fun c => if c = '\'' then ['\'', '\''] else [c])

/-- A text as it is written inside an expression. -/
def quoted (s : String) : String :=
  String.ofList ('\'' :: (doubleQuotes s.toList ++ ['\'']))

/-- The part of a parameter's name that says which element it belongs to.
Different ids can have the same. -/
def parameterScope (id : String) : String :=
  String.ofList (id.toList.map (fun c => if c.isAlphanum then c else '_'))

/-- The name of an element's parameter. -/
def parameterName (id suffix : String) : String :=
  parameterScope id ++ "_" ++ suffix

/-- The expression for the value of a parameter. -/
def parameterReference (name : String) : String :=
  "[parameters(" ++ quoted name ++ ")]"

/-- The expression for the id of a resource of a type, which one or more names
tell apart. -/
def resourceReference (type : String) (names : List String) : String :=
  "[resourceId(" ++ quoted type ++ ", " ++ ", ".intercalate (names.map quoted) ++ ")]"

end CloudCanvas
