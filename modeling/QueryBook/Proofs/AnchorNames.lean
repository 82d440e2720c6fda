import QueryBook.Proofs.LexerInvariant
import QueryBook.Proofs.OutlineTokens

/-!
# Names of anchors

The anchors of a source have names: they are not empty and hold nothing that would end them. What
carries this through the lexer is that the rest of the source is a part of it that ends before any
NUL character.
-/

namespace QueryBook.Yaml

/-- Whether a kind of token, if it is an anchor, has a name. -/
def TokenKind.IsNamed : TokenKind → Prop
  | .anchor name => IsName name
  | _ => True

/-- What is no anchor needs no name. -/
theorem TokenKind.IsBare.isNamed {kind : TokenKind} (h : kind.IsBare) : kind.IsNamed := by
  cases kind with
  | anchor name => cases h
  | _ => trivial

/-- Whether the anchors among tokens have names. -/
def Named (tokens : List Token) : Prop := ∀ t ∈ tokens, t.kind.IsNamed

/-- Where no NUL character is left, anchors have names. -/
theorem Lexer.isInvariant_isNamed :
    IsInvariant (fun _ c => ∀ ch ∈ c.rest, ch ≠ '\x00') fun t => t.kind.IsNamed where
  passes := fun hc hpassed ch hch => hc ch (hpassed.crosses.suffix.subset hch)
  scalar := fun hc _ hr => ⟨fun ch hch => hc ch (hr.crosses.suffix.subset hch), trivial⟩
  bare := fun _ _ hkind => hkind.isNamed
  anchor := by
    rintro rs c name hc - rfl hne
    refine ⟨by rwa [String.toList_ofList], fun ch hch => ?_⟩
    rw [String.toList_ofList] at hch
    refine ⟨List.mem_takeWhile_imp hch, hc ch ?_⟩
    exact (List.drop_suffix 1 c.rest).subset ((List.takeWhile_prefix _).subset hch)
  margin := fun _ hkind => hkind.isNamed
  pair := fun _ => trivial

/-- The anchors of a source have names. -/
theorem named_tokens (source : List Char) : Named (tokens source) := by
  refine ((Lexer.keeps_ofSource ?_).run Lexer.isInvariant_isNamed).1
  intro ch hch
  simpa using List.mem_takeWhile_imp hch

end QueryBook.Yaml
