import SmtQuery.Term
import SmtQuery.Text.Lines

/-!
# Commands and scripts

The commands a query consists of, and a script as a sequence of them, one after
another on lines of their own.  A comment has no form: it is written line by
line, each line behind a semicolon, and an empty comment is an empty line.
-/

namespace SmtQuery

/-- A command of a script. -/
inductive Command where
  | setLogic (logic : String)
  | setOption (key value : String)
  | declareSort (name : String) (arity : Nat)
  /-- A sort with the given elements and no others. -/
  | declareEnum (name : String) (elements : List String)
  | declareFun (name : String) (parameters : List SmtSort) (result : SmtSort)
  | defineFun (name : String) (parameters : List (String × SmtSort)) (result : SmtSort)
      (body : Term)
  | assert (term : Term)
  | checkSat
  | getValue (terms : List Term)
  | maximize (term : Term)
  | minimize (term : Term)
  | getObjectives
  | comment (text : String)

namespace Command

/-- The written form of a command, or `none` for a comment. -/
def form? : Command → Option Form
  | setLogic logic => some (.group [Form.word "set-logic", Form.word logic])
  | setOption key value =>
    some (.group [Form.word "set-option", .lexeme (':' :: key.toList), Form.word value])
  | declareSort name arity =>
    some (.group [Form.word "declare-sort", Symbol.form name, Form.nat arity])
  | declareEnum name elements =>
    some (.group [Form.word "declare-datatypes", .group [.group [Symbol.form name, Form.nat 0]],
      .group [.group (elements.map fun e => .group [Symbol.form e])]])
  | declareFun name parameters result =>
    some (.group [Form.word "declare-fun", Symbol.form name, .group (parameters.map SmtSort.form),
      result.form])
  | defineFun name parameters result body =>
    some (.group [Form.word "define-fun", Symbol.form name, Term.sortedVariables parameters,
      result.form, body.form])
  | assert term => some (.group [Form.word "assert", term.form])
  | checkSat => some (.group [Form.word "check-sat"])
  | getValue terms => some (.group [Form.word "get-value", .group (terms.map Term.form)])
  | maximize term => some (.group [Form.word "maximize", term.form])
  | minimize term => some (.group [Form.word "minimize", term.form])
  | getObjectives => some (.group [Form.word "get-objectives"])
  | comment _ => none

/-- The text of a comment: its lines, each behind a semicolon and a blank. -/
def commentText (text : List Char) : List Char :=
  ['\n'].intercalate ((Text.lines text).map fun line => ';' :: ' ' :: line)

/-- The text of a command. -/
def text (command : Command) : List Char :=
  match command with
  | comment t => commentText t.toList
  | _ => (command.form?.map Form.text).getD []

instance : ToString Command := ⟨fun command => String.ofList command.text⟩

end Command

/-- A sequence of commands. -/
structure Script where
  commands : List Command := []

namespace Script

/-- The script without commands. -/
def empty : Script := {}

/-- Adds a command at the end. -/
def push (script : Script) (command : Command) : Script :=
  { commands := script.commands ++ [command] }

/-- Adds several commands at the end. -/
def append (script : Script) (commands : List Command) : Script :=
  { commands := script.commands ++ commands }

/-- The number of commands. -/
def size (script : Script) : Nat := script.commands.length

/-- Whether the script has no commands. -/
def isEmpty (script : Script) : Bool := script.commands.isEmpty

/-- The text of a script: its commands, separated by line feeds. -/
def text (script : Script) : List Char :=
  ['\n'].intercalate (script.commands.map Command.text)

instance : ToString Script := ⟨fun script => String.ofList script.text⟩

end Script
end SmtQuery
