/-!
# Texts as octets

The UTF-8 encoding of a text, and reading octets back as a text. Reading tells where octets stop
being well-formed.
-/

namespace QueryBook.Text

/-- Where octets stop being well-formed. -/
structure EncodingError where
  /-- The number of octets before the fault. -/
  index : Nat
  /-- The number of faulty octets; `none` if the octets end inside a character. -/
  length : Option Nat
  deriving DecidableEq

/-- The wording of the fault. -/
def EncodingError.text (e : EncodingError) : String :=
  match e.length with
  | some n => s!"invalid utf-8 sequence of {n} bytes from index {e.index}"
  | none => s!"incomplete utf-8 byte sequence from index {e.index}"

/-- The octets of a text. -/
def octets (text : String) : List Nat :=
  text.toList.flatMap fun c => (String.utf8EncodeChar c).map (·.toNat)

/-- The number of octets of a character and the least and the greatest second octet, by the first
octet. -/
def octetPlan? (first : Nat) : Option (Nat × Nat × Nat) :=
  if first < 0x80 then some (1, 0, 0)
  else if first < 0xC2 then none
  else if first < 0xE0 then some (2, 0x80, 0xBF)
  else if first = 0xE0 then some (3, 0xA0, 0xBF)
  else if first = 0xED then some (3, 0x80, 0x9F)
  else if first < 0xF0 then some (3, 0x80, 0xBF)
  else if first = 0xF0 then some (4, 0x90, 0xBF)
  else if first < 0xF4 then some (4, 0x80, 0xBF)
  else if first = 0xF4 then some (4, 0x80, 0x8F)
  else none

/-- Reads the octets of a character after the first: how many are still missing, the bounds of the
next, the number read and the code so far. The fault is the number of octets up to it, or `none` if
they end. -/
def laterOctets (missing low high read code : Nat) :
    List Nat → Except (Option Nat) (Nat × List Nat) := fun rest =>
  match missing, rest with
  | 0, rest => .ok (code, rest)
  | _ + 1, [] => .error none
  | missing + 1, octet :: rest =>
    if low ≤ octet && octet ≤ high then
      laterOctets missing 0x80 0xBF (read + 1) (code * 64 + octet % 64) rest
    else .error (some read)

/-- The code in the first octet of a character of a number of octets. -/
def firstCode (first count : Nat) : Nat :=
  if count = 1 then first else first % Nat.pow 2 (7 - count)

/-- Reads octets as characters, `index` octets having been read; fuel counts the octets. -/
def charsFrom : Nat → Nat → List Nat → Except EncodingError (List Char)
  | 0, _, _ => .ok []
  | _ + 1, _, [] => .ok []
  | fuel + 1, index, first :: rest =>
    match octetPlan? first with
    | none => .error ⟨index, some 1⟩
    | some (count, low, high) =>
      match laterOctets (count - 1) low high 1 (firstCode first count) rest with
      | .error length => .error ⟨index, length⟩
      | .ok (code, rest) => (charsFrom fuel (index + count) rest).map (Char.ofNat code :: ·)

/-- The text of octets. -/
def ofOctets (os : List Nat) : Except EncodingError String :=
  (charsFrom os.length 0 os).map String.ofList

end QueryBook.Text
