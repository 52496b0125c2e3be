import DateRules.Rule.Basic
import DateRules.Yaml.Document

/-!
# Settings and rule sets from documents

A document holds a mapping, and an empty one counts as an empty mapping. The
settings are the mapping under the key `settings`, or the whole mapping where
there is no such key.
-/

namespace DateRules

/-- The ways in which loading a document fails. -/
inductive LoadFault where
  /-- The bytes are no UTF-8. -/
  | notUnicode
  | document (fault : Yaml.Fault)
  /-- The document holds a value of another kind. -/
  | notMapping (kind : String)
  | invalid (issues : List Issue)
deriving DecidableEq, Repr

/-- The message about a document that holds a value of another kind. -/
def notMappingMessage (kind : String) : String := "Expected a YAML mapping, got " ++ kind

/-- The mapping that a document holds. -/
def readMapping (text : String) : Except LoadFault (List (Value × Value)) :=
  match Yaml.readDocument text with
  | .ok .null => .ok []
  | .ok (.map entries) => .ok entries
  | .ok other => .error (.notMapping other.kindName)
  | .error fault => .error (.document fault)

/-- A check as the last step of loading. -/
def Checked.toLoad {α : Type} : Checked α → Except LoadFault α
  | .ok a => .ok a
  | .error issues => .error (.invalid issues)

/-- Characters with every line break as a line feed. -/
def unifyBreaks : List Char → List Char
  | '\r' :: '\n' :: cs => '\n' :: unifyBreaks cs
  | '\r' :: cs => '\n' :: unifyBreaks cs
  | c :: cs => c :: unifyBreaks cs
  | [] => []

/-- The text of a file. -/
def textOfBytes (bytes : ByteArray) : Except LoadFault String :=
  match String.fromUTF8? bytes with
  | some text => .ok (String.ofList (unifyBreaks text.toList))
  | none => .error .notUnicode

/-- The settings in a document. -/
def Settings.ofDocument (text : String) : Except LoadFault Settings := do
  let entries ← readMapping text
  let data := (Value.field? entries "settings").getD (.map entries)
  (Settings.ofValue data).toLoad

/-- The rule set in a document. -/
def RuleSet.ofDocument (stack : CallStack) (text : String) : Except LoadFault RuleSet := do
  let entries ← readMapping text
  (RuleSet.ofValue stack (.map entries)).toLoad

end DateRules
