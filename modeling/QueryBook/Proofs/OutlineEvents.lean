import QueryBook.Proofs.OutlineTokens
import QueryBook.Yaml.Event.Reader

/-!
# The events of an outline

The tokens of an outline are read to its events, each mapping up to the end of its block. Anchors
are numbered in the order in which they are met; an alias to a name that no anchor before it defines
makes the document unreadable.
-/

namespace QueryBook

open Yaml

namespace Outline

/-! ## Tokens by blocks -/

/-- Where an outline starts, `next` lying behind it. -/
def start (k line : Nat) (next : Position) : Outline → Position
  | done => next
  | leaf h .. | nested h .. => h.keyPosition k line

/-- Where the first `:` of an outline is. -/
def colon (k line : Nat) : Outline → Position
  | done => .unknown
  | leaf h .. | nested h .. => h.colonPosition k line

/-- The tokens of an outline, every block inside it with its end. -/
def blockTokens (k line : Nat) (next : Position) (after : Nat) : Outline → List Token
  | done => []
  | leaf h v rest =>
    h.tokens k line 0 false ++ v.token k (h.valuePosition k line) (rest.gap after) ::
      rest.blockTokens k (line + h.height + 1 + v.height) next after
  | nested h anchor inner rest =>
    h.tokens k line 0 false ++ (anchorTokens (h.valuePosition k line) anchor ++
      ⟨.blockMappingStart, inner.colon (k + 2) (line + h.height + 1)⟩ ::
        (inner.blockTokens (k + 2) (line + h.height + 1)
            (rest.start k (line + h.height + 1 + inner.height) next) (rest.gap after) ++
          ⟨.blockEnd, rest.start k (line + h.height + 1 + inner.height) next⟩ ::
            rest.blockTokens k (line + h.height + 1 + inner.height) next after))

variable {k line closing after : Nat} {next : Position}

/-- The ends of blocks before an outline stand before its first key. -/
theorem tokens_closing (o : Outline) (k line closing : Nat) (next : Position) (after : Nat) :
    o.tokens k line closing false after ++
        List.replicate (o.depth closing) ⟨.blockEnd, next⟩ =
      List.replicate closing ⟨.blockEnd, o.start k line next⟩ ++
        (o.tokens k line 0 false after ++ List.replicate (o.depth 0) ⟨.blockEnd, next⟩) := by
  cases o with
  | done => simp [tokens, depth, start]
  | leaf h v rest => simp [tokens, depth, start, Heading.tokens]
  | nested h anchor inner rest => simp [tokens, depth, start, Heading.tokens]

/-- The token that opens a block stands before the first key of its outline. -/
theorem tokens_starts {o : Outline} (hne : o ≠ done) (k line after : Nat) :
    o.tokens k line 0 true after =
      ⟨.blockMappingStart, o.colon k line⟩ :: o.tokens k line 0 false after := by
  cases o with
  | done => exact absurd rfl hne
  | leaf h v rest => simp [tokens, colon, Heading.tokens]
  | nested h anchor inner rest => simp [tokens, colon, Heading.tokens]

/-- Together with the ends of the blocks that it leaves open the tokens of an outline are those by
blocks. -/
theorem tokens_eq_blockTokens {o : Outline} (ho : o.Legible k) (line : Nat) (next : Position)
    (after : Nat) :
    o.tokens k line 0 false after ++ List.replicate (o.depth 0) ⟨.blockEnd, next⟩ =
      o.blockTokens k line next after := by
  induction o generalizing k line next after with
  | done => rfl
  | leaf h v rest ih =>
    obtain ⟨-, -, hrest⟩ := ho
    rw [tokens, blockTokens, depth, ← ih hrest, List.append_assoc]
    rfl
  | nested h anchor inner rest ihi ihr =>
    obtain ⟨-, -, hinner, hi, hrest⟩ := ho
    rw [tokens, blockTokens, depth, List.append_assoc, List.append_assoc, List.append_assoc,
      tokens_closing rest, tokens_starts hinner, ← ihi hi, ← ihr hrest, List.replicate_succ']
    simp

end Outline

/-! ## Events -/

/-- Names of anchors, newest first, with their numbers. -/
def numbered : List String → List (String × Nat)
  | [] => []
  | name :: seen => (name, seen.length + 1) :: numbered seen

/-- The event of a value, after the anchors seen so far. -/
def Leaf.event (k : Nat) (position : Position) (blanks : Nat) (seen : List String) :
    Leaf → Option Event
  | text t => some ⟨.scalar t (styleOf t) none, position⟩
  | literal t =>
    some ⟨.scalar (read t blanks) .literal none, blockPosition t k position.line⟩
  | reference name => ((numbered seen).lookup name).map fun number => ⟨.reference number, position⟩

/-- The event of a key. -/
def Heading.event (h : Heading) (k line : Nat) : Event :=
  ⟨.scalar h.key (styleOf h.key) none, h.keyPosition k line⟩

/-- The number of an anchor, if there is one, after those seen so far. -/
def anchorNumber (seen : List String) (anchor : Option String) : Option Nat :=
  anchor.map fun _ => seen.length + 1

namespace Outline

/-- The names of the anchors in an outline. -/
def anchors : Outline → List String
  | done => []
  | leaf _ _ rest => rest.anchors
  | nested _ anchor inner rest => anchor.toList ++ (inner.anchors ++ rest.anchors)

/-- The anchors seen behind the anchor of a mapping and those inside it. -/
def seenBehind (seen : List String) (anchor : Option String) (inner : Outline) : List String :=
  inner.anchors.reverse ++ (anchor.toList ++ seen)

/-- The events of an outline after the anchors seen so far. -/
def events (k line : Nat) (next : Position) (after : Nat) (seen : List String) :
    Outline → Option (List Event)
  | done => some []
  | leaf h v rest =>
    (v.event k (h.valuePosition k line) (rest.gap after) seen).bind fun e =>
      (rest.events k (line + h.height + 1 + v.height) next after seen).bind fun es =>
        some (h.event k line :: e :: es)
  | nested h anchor inner rest =>
    (inner.events (k + 2) (line + h.height + 1)
        (rest.start k (line + h.height + 1 + inner.height) next) (rest.gap after)
        (anchor.toList ++ seen)).bind fun es =>
      (rest.events k (line + h.height + 1 + inner.height) next after
          (seenBehind seen anchor inner)).bind fun es' =>
        some (h.event k line ::
          ⟨.mappingStart (anchorNumber seen anchor), inner.colon (k + 2) (line + h.height + 1)⟩ ::
            (es ++ ⟨.mappingEnd, rest.start k (line + h.height + 1 + inner.height) next⟩ :: es'))

/-! ## Reading events -/

/-- The state of the reader before tokens, after the anchors seen so far. -/
def progress (seen : List String) (tokens : List Token) : Progress where
  tokens := tokens
  nextAnchor := seen.length + 1
  anchors := numbered seen

open EventReader

/-- A key and its value are read, and then the pairs behind them. -/
theorem blockPairs_key (h : Heading) (k line n : Nat) (seen : List String) (rest : List Token) :
    blockPairs (n + 2) (progress seen (h.tokens k line 0 false ++ rest)) =
      (missingOr [.key, .value, .blockEnd] (node n true true) (progress seen rest)).bind
        fun r => (blockPairs (n + 1) r.2).bind fun r' => some (h.event k line :: (r.1 ++ r'.1), r'.2) :=
  rfl

/-- A value that is no mapping is read. -/
theorem node_leaf (v : Leaf) (k : Nat) (position : Position) (blanks n : Nat) (seen : List String)
    (rest : List Token) :
    missingOr [.key, .value, .blockEnd] (node (n + 1) true true)
        (progress seen (v.token k position blanks :: rest)) =
      (v.event k position blanks seen).bind fun e => some ([e], progress seen rest) := by
  cases v with
  | text t => rfl
  | literal t => rfl
  | reference name =>
    rw [Leaf.event]
    -- What is read is decided by what the anchors say about the name.
    conv_lhs => whnf
    dsimp only [progress]
    cases (numbered seen).lookup name <;> rfl

/-- A mapping is read with its anchor. -/
theorem node_mapping (anchor : Option String) (position position' : Position) (n : Nat)
    (seen : List String) (rest : List Token) :
    missingOr [.key, .value, .blockEnd] (node (n + 1) true true)
        (progress seen (anchorTokens position anchor ++ ⟨.blockMappingStart, position'⟩ :: rest)) =
      (blockPairs n (progress (anchor.toList ++ seen) rest)).bind fun r =>
        some (⟨.mappingStart (anchorNumber seen anchor), position'⟩ :: r.1, r.2) := by
  cases anchor <;> rfl

/-- The pairs of an outline are read up to the end of its block. -/
theorem blockPairs_eq (o : Outline) {k line n after : Nat} {next : Position}
    (hn : (o.blockTokens k line next after).length < n) (seen : List String) (more : List Token) :
    blockPairs n
        (progress seen (o.blockTokens k line next after ++ ⟨.blockEnd, next⟩ :: more)) =
      (o.events k line next after seen).bind fun es =>
        some (es ++ [⟨.mappingEnd, next⟩], progress (o.anchors.reverse ++ seen) more) := by
  induction o generalizing k line n next after seen more with
  | done =>
    cases n with
    | zero => cases hn
    | succ n => rfl
  | leaf h v rest ih =>
    rw [blockTokens, List.length_append, List.length_cons] at hn
    have hlength : (h.tokens k line 0 false).length = 3 := rfl
    -- a key takes three steps of the fuel, one for each of its tokens
    obtain ⟨m, rfl⟩ : ∃ m, n = m + 3 := ⟨n - 3, by omega⟩
    rw [blockTokens, List.append_assoc, List.cons_append, blockPairs_key, node_leaf, events]
    cases v.event k (h.valuePosition k line) (rest.gap after) seen with
    | none => rfl
    | some e =>
      rw [Option.bind_some, Option.bind_some, Option.bind_some, ih (by omega)]
      cases rest.events k (line + h.height + 1 + v.height) next after seen <;> simp [anchors]
  | nested h anchor inner rest ihi ihr =>
    rw [blockTokens, List.length_append, List.length_append, List.length_cons, List.length_append,
      List.length_cons] at hn
    have hlength : (h.tokens k line 0 false).length = 3 := rfl
    obtain ⟨m, rfl⟩ : ∃ m, n = m + 3 := ⟨n - 3, by omega⟩
    have htokens : (nested h anchor inner rest).blockTokens k line next after ++
        ⟨.blockEnd, next⟩ :: more = h.tokens k line 0 false ++
          (anchorTokens (h.valuePosition k line) anchor ++
            ⟨.blockMappingStart, inner.colon (k + 2) (line + h.height + 1)⟩ ::
              (inner.blockTokens (k + 2) (line + h.height + 1)
                  (rest.start k (line + h.height + 1 + inner.height) next) (rest.gap after) ++
                ⟨.blockEnd, rest.start k (line + h.height + 1 + inner.height) next⟩ ::
                  (rest.blockTokens k (line + h.height + 1 + inner.height) next after ++
                    ⟨.blockEnd, next⟩ :: more))) := by
      rw [blockTokens]
      simp
    rw [htokens, blockPairs_key, node_mapping, ihi (by omega), events]
    cases inner.events (k + 2) (line + h.height + 1)
      (rest.start k (line + h.height + 1 + inner.height) next) (rest.gap after)
      (anchor.toList ++ seen) with
    | none => rfl
    | some es =>
      have hseen : (nested h anchor inner rest).anchors.reverse ++ seen =
          rest.anchors.reverse ++ seenBehind seen anchor inner := by
        cases anchor <;> simp [anchors, seenBehind]
      rw [Option.bind_some, Option.bind_some, Option.bind_some, Option.bind_some, ihr (by omega), hseen]
      unfold seenBehind
      cases rest.events k (line + h.height + 1 + inner.height) next after
        (inner.anchors.reverse ++ (anchor.toList ++ seen)) <;> simp

/-- A document that is a block mapping is read, with the end of the source behind it. -/
theorem document_mapping (n : Nat) (position : Position) (rest : List Token) :
    (document (n + 1)).run { tokens := ⟨.blockMappingStart, position⟩ :: rest } =
      ((blockPairs n (progress [] rest)).bind fun r =>
          some (⟨.mappingStart none, position⟩ :: r.1, r.2)).bind fun r =>
        (documentEnd r.2).bind fun r' => some (some r.1, r'.2) :=
  rfl

/-- Where the document of an outline ends. -/
def finish (o : Outline) : Position := ⟨1 + o.height, 1⟩

/-- The document of a legible outline is read to its events, up to the end of the source. -/
theorem document_tokens {o : Outline} (ho : o.Legible 0) (hne : o ≠ done) :
    (document (4 * (Yaml.tokens (Text.unlines (o.lines 0))).length + 8)).run
        { tokens := Yaml.tokens (Text.unlines (o.lines 0)) } =
      (o.events 0 1 o.finish 0 []).map fun es =>
        (some (⟨.mappingStart none, o.colon 0 1⟩ :: (es ++ [⟨.mappingEnd, o.finish⟩])),
          progress (o.anchors.reverse ++ []) [⟨.streamEnd, o.finish⟩]) := by
  have htokens : Yaml.tokens (Text.unlines (o.lines 0)) = ⟨.blockMappingStart, o.colon 0 1⟩ ::
      (o.blockTokens 0 1 o.finish 0 ++
        ⟨.blockEnd, o.finish⟩ :: [⟨.streamEnd, o.finish⟩]) := by
    rw [tokens_lines ho hne, tokens_starts hne, List.cons_append, List.replicate_succ',
      ← tokens_eq_blockTokens ho]
    simp [finish]
  rw [htokens, document_mapping, blockPairs_eq o (by simp; omega)]
  cases o.events 0 1 o.finish 0 [] with
  | none => rfl
  | some r => rfl

/-- These are the events of the document. -/
theorem events?_tokens {o : Outline} (ho : o.Legible 0) (hne : o ≠ done) :
    events? (Yaml.tokens (Text.unlines (o.lines 0))) =
      (o.events 0 1 o.finish 0 []).map fun es =>
        some (⟨.mappingStart none, o.colon 0 1⟩ :: (es ++ [⟨.mappingEnd, o.finish⟩])) := by
  have hrun := congrArg (Option.map Prod.fst) (document_tokens ho hne)
  rw [Option.map_map] at hrun
  exact hrun

end Outline

end QueryBook
