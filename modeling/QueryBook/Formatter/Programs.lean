import QueryBook.Formatter
import QueryBook.Formatter.OctetSet

/-!
# Programs for formatters

The text filters that a formatter command can name: copying, refusing, and replacing or deleting
characters octet by octet.
-/

namespace QueryBook.Formatter

/-! ## Copying and refusing -/

/-- Copies its input once for every operand; there are no files to name. -/
def copyProgram : Program := fun arguments input =>
  match arguments.find? fun a => a ≠ "-" && a ≠ "-u" && a ≠ "--" with
  | some name => .error s!"cat: {name}: No such file or directory"
  | none => .ok input

/-- Refuses without a word. -/
def refuseProgram : Program := fun _ _ => .error ""

/-! ## Replacing characters -/

/-- What is done with the characters of the sets. -/
structure Replacement where
  /-- The first set stands for all octets outside it. -/
  complement : Bool := false
  /-- The octets of the first set are deleted. -/
  delete : Bool := false
  /-- Repeated octets of the last set are written once. -/
  squeeze : Bool := false
  /-- Octets of the first set beyond the length of the second stay. -/
  truncate : Bool := false

namespace Replacement

/-- The replacement with the option of a letter. -/
def withLetter? (r : Replacement) (letter : Char) : Option Replacement :=
  match letter with
  | 'c' => some { r with complement := true }
  | 'C' => some { r with complement := true }
  | 'd' => some { r with delete := true }
  | 's' => some { r with squeeze := true }
  | 't' => some { r with truncate := true }
  | _ => none

/-- How a faulty command line ends its message. -/
def seeHelp (text : String) : String := s!"tr: {text}\nTry 'tr --help' for more information."

/-- Reads options up to the first operand. -/
def readOptions (r : Replacement) : List String → Except String (Replacement × List String)
  | [] => .ok (r, [])
  | argument :: rest =>
    match argument.toList with
    | ['-', '-'] => .ok (r, rest)
    | '-' :: '-' :: name =>
      match String.ofList name with
      | "complement" => readOptions { r with complement := true } rest
      | "delete" => readOptions { r with delete := true } rest
      | "squeeze-repeats" => readOptions { r with squeeze := true } rest
      | "truncate-set1" => readOptions { r with truncate := true } rest
      | _ => .error (seeHelp s!"unrecognized option '{argument}'")
    | '-' :: first :: more =>
      match (first :: more).find? fun c => (withLetter? {} c).isNone with
      | some letter => .error (seeHelp s!"invalid option -- '{letter}'")
      | none =>
        readOptions ((first :: more).foldl (fun r c => (r.withLetter? c).getD r) r) rest
    | _ => .ok (r, argument :: rest)

/-- The octets of a set. -/
def octetsOf (text : String) : Except String (List Nat) :=
  (OctetSet.expand (OctetSet.piecesOf text)).mapError fun (low, high) =>
    let written := String.ofList [Char.ofNat low, '-', Char.ofNat high]
    s!"tr: range-endpoints of '{written}' are in reverse collating sequence order"

/-- Writes repeated octets of a set once. -/
def squeezed (set : List Nat) : List Nat → List Nat
  | a :: b :: rest =>
    if a = b && set.contains a then squeezed set (b :: rest) else a :: squeezed set (b :: rest)
  | os => os

/-- The set that octets of another are replaced by: its last octet is repeated as needed. -/
def padded (length : Nat) (set : List Nat) : List Nat :=
  set ++ List.replicate (length - set.length) (set.getLast?.getD 0)

/-- What an octet is replaced by; the last occurrence in the first set counts. -/
def replaceOctet (fromSet toSet : List Nat) (octet : Nat) : Nat :=
  ((fromSet.zip toSet).reverse.lookup octet).getD octet

/-- Carries out a replacement with its sets. -/
def run (r : Replacement) (operands : List String) (input : List Nat) :
    Except String (List Nat) := do
  let complemented (set : List Nat) : List Nat :=
    if r.complement then OctetSet.members fun n => !set.contains n else set
  match operands with
  | [] => .error (seeHelp "missing operand")
  | [first] =>
    let set := complemented (← octetsOf first)
    if r.delete && !r.squeeze then .ok (input.filter fun n => !set.contains n)
    else if r.squeeze && !r.delete then .ok (squeezed set input)
    else
      let purpose := if r.delete then "deleting and squeezing repeats" else "translating"
      .error (seeHelp (s!"missing operand after '{first}'\n" ++
        s!"Two strings must be given when {purpose}."))
  | [first, second] =>
    if r.delete && !r.squeeze then
      .error (seeHelp (s!"extra operand '{second}'\n" ++
        "Only one string may be given when deleting without squeezing repeats."))
    else
      let set := complemented (← octetsOf first)
      let last ← octetsOf second
      if r.delete then .ok (squeezed last (input.filter fun n => !set.contains n))
      else if last.isEmpty && !r.truncate && !set.isEmpty then
        .error "tr: when not truncating set1, string2 must be non-empty"
      else
        let target := if r.truncate then last else padded set.length last
        let output := input.map (replaceOctet set target)
        .ok (if r.squeeze then squeezed target output else output)
  | _ :: _ :: third :: _ => .error (seeHelp s!"extra operand '{third}'")

end Replacement

/-- Replaces or deletes characters, octet by octet; what it writes has to be text. -/
def replaceProgram : Program := fun arguments input => do
  let (replacement, operands) ← Replacement.readOptions {} arguments
  let output ← replacement.run operands (Text.octets input)
  (Text.ofOctets output).mapError (·.text)

/-! ## Names -/

/-- The programs there are, by name. -/
def standardPrograms (name : String) : Option Program :=
  match name with
  | "cat" => some copyProgram
  | "tr" => some replaceProgram
  | "false" => some refuseProgram
  | _ => none

end QueryBook.Formatter
