import QueryBook.Text.Quoted

/-!
# Formatters

Generated code goes through a formatter before it is written. A formatter may be missing, and it may
refuse the code; both are told apart, because a missing one does not stop the generator.
-/

namespace QueryBook

/-- Why code could not be formatted. -/
inductive FormatError where
  /-- The formatter could not be run. -/
  | unavailable (command reason : String)
  /-- The formatter refused the code. -/
  | rejected (reason : String)
  deriving DecidableEq

namespace FormatError

/-- The name of the failure in reports. -/
def name : FormatError → String
  | unavailable .. => "unavailable"
  | rejected _ => "rejected"

/-- The wording of the failure. -/
def text : FormatError → String
  | unavailable command reason => s!"run {Text.quoted command}: {reason}"
  | rejected reason => reason

end FormatError

/-- A formatter of source text. -/
abbrev Formatter := String → Except FormatError String

namespace Formatter

/-- The formatter that leaves text unchanged. -/
def verbatim : Formatter := .ok

/-- The formatter that refuses every text. -/
def refusing (reason : String) : Formatter := fun _ => .error (.rejected reason)

/-- The words of a command, between blanks. -/
def words (command : String) : List String :=
  let step (c : Char) (words : List (List Char)) : List (List Char) :=
    match words with
    | word :: rest => if Text.isBlank c then [] :: word :: rest else (c :: word) :: rest
    | [] => if Text.isBlank c then [[]] else [[c]]
  ((command.toList.foldr step [[]]).filter fun word => !word.isEmpty).map String.ofList

/-- A program that changes text: what it does with its arguments and its input. -/
abbrev Program := List String → String → Except String String

/-- The formatter that runs a command, given the programs there are. -/
def ofCommand (programs : String → Option Program) (command : String) : Formatter := fun source =>
  match words command with
  | [] => .error (.unavailable command "empty formatter command")
  | name :: arguments =>
    match programs name with
    | none => .error (.unavailable command "No such file or directory (os error 2)")
    | some program => (program arguments source).mapError .rejected

end Formatter

end QueryBook
