import QueryBook.Text.Octets

/-!
# Sets of octets

The sets in which octets are replaced or deleted: single characters, escapes, ranges, named classes
and repetitions.
-/

namespace QueryBook.Formatter.OctetSet

/-- A piece of a set. -/
inductive Piece where
  /-- An octet, and whether it was written with an escape. -/
  | octet (value : Nat) (escaped : Bool)
  /-- A named class. -/
  | named (name : String)
  deriving DecidableEq

/-- Whether an octet is the code of an octal digit. -/
def isOctal (n : Nat) : Bool := 48 ≤ n && n ≤ 55

/-- The octet of an escape letter. -/
def escapeValue (letter : Nat) : Nat :=
  match Char.ofNat letter with
  | 'a' => 7
  | 'b' => 8
  | 't' => 9
  | 'n' => 10
  | 'v' => 11
  | 'f' => 12
  | 'r' => 13
  | _ => letter

/-- The value of octal digits. -/
def octalValue (digits : List Nat) : Nat := digits.foldl (fun n d => n * 8 + (d - 48)) 0

/-- The octal digits at the start of octets that make up one octet: at most three, less than
256. -/
def octalDigits (os : List Nat) : List Nat :=
  let three := (os.take 3).takeWhile isOctal
  if octalValue three < 256 then three else three.take 2

/-- The classes, by name, and their members. -/
def classes : List (String × (Nat → Bool)) :=
  let upper (n : Nat) := 65 ≤ n && n ≤ 90
  let lower (n : Nat) := 97 ≤ n && n ≤ 122
  let digit (n : Nat) := 48 ≤ n && n ≤ 57
  let graph (n : Nat) := 33 ≤ n && n ≤ 126
  [("alnum", fun n => upper n || lower n || digit n),
    ("alpha", fun n => upper n || lower n),
    ("blank", fun n => n == 9 || n == 32),
    ("cntrl", fun n => n < 32 || n == 127),
    ("digit", digit),
    ("graph", graph),
    ("lower", lower),
    ("print", fun n => 32 ≤ n && n ≤ 126),
    ("punct", fun n => graph n && !(upper n || lower n || digit n)),
    ("space", fun n => (9 ≤ n && n ≤ 13) || n == 32),
    ("upper", upper),
    ("xdigit", fun n => digit n || (65 ≤ n && n ≤ 70) || (97 ≤ n && n ≤ 102))]

/-- All octets that a test accepts, ascending. -/
def members (p : Nat → Bool) : List Nat := (List.range 256).filter p

/-- The named class at the start of octets, as in `[:alpha:]`, and the number of octets it takes. -/
def classAt? (os : List Nat) : Option (String × Nat) :=
  (classes.find? fun c => (Text.octets s!"[:{c.1}:]").isPrefixOf os).map fun c =>
    (c.1, c.1.length + 4)

/-- The pieces of a set; fuel counts the octets. -/
def pieces : Nat → List Nat → List Piece
  | 0, _ => []
  | _ + 1, [] => []
  | fuel + 1, first :: rest =>
    match classAt? (first :: rest) with
    | some (name, length) => .named name :: pieces fuel (rest.drop (length - 1))
    | none =>
      if first = 92 then
        match rest with
        | [] => [.octet 92 true]
        | next :: after =>
          let digits := octalDigits rest
          if digits.isEmpty then .octet (escapeValue next) true :: pieces fuel after
          else .octet (octalValue digits) true :: pieces fuel (rest.drop digits.length)
      else .octet first false :: pieces fuel rest

/-- The octets of pieces in order; a minus sign that was not escaped joins its neighbours to a
range. Fails where a range descends. -/
def expand : List Piece → Except (Nat × Nat) (List Nat)
  | .octet low _ :: .octet 45 false :: .octet high _ :: rest =>
    if high < low then .error (low, high)
    else (expand rest).map (List.range' low (high - low + 1) ++ ·)
  | .octet value _ :: rest => (expand rest).map (value :: ·)
  | .named name :: rest =>
    (expand rest).map (members ((classes.lookup name).getD fun _ => false) ++ ·)
  | [] => .ok []

/-- The pieces of a written set. -/
def piecesOf (text : String) : List Piece :=
  let os := Text.octets text
  pieces os.length os

end QueryBook.Formatter.OctetSet
