import QueryBook.Proofs.ScalarReadings
import QueryBook.Yaml.Event.Reader

/-!
# The events of scalars and aliases

Every scalar among the tokens that are read for a document becomes an event of the document, with
its text, style and position. Scalars and aliases among the events stand where a token stands; a
missing value stands where the next token does. No such place is the start of a mapping: mappings
without braces begin at the place behind their first colon, where a comment can begin.
-/

namespace QueryBook.Yaml

/-- Whether an event is a scalar or an alias. -/
def Event.IsContent (e : Event) : Prop :=
  match e.kind with
  | .scalar .. | .reference _ => True
  | _ => False

/-- Whether an event, if it is a scalar, has the text of a token, or that of a value that is not
written. -/
def Event.HasTextOf (t : Token) (e : Event) : Prop :=
  match e.kind with
  | .scalar text style _ => text = "" ∨ text = "~" ∨ t.kind = .scalar style text
  | _ => True

/-- Whether an event stands where one of some tokens stands that starts no mapping, and has its text.
-/
def Event.IsPlaced (tokens : List Token) (e : Event) : Prop :=
  ∃ t ∈ tokens, e.position = t.position ∧ t.kind ≠ .flowMappingStart ∧ e.HasTextOf t

/-- Whether no mapping starts at the first of some tokens. -/
def StartsNoMapping (tokens : List Token) : Prop := ∀ t ∈ tokens.head?, t.kind ≠ .flowMappingStart

/-- Whether the scalars that are read up to a rest of the tokens are among some events. -/
def ScalarsRead (tokens : List Token) (events : List Event) (rest : List Token) : Prop :=
  ∃ read, tokens = read ++ rest ∧ ∀ t ∈ read, ∀ style text, t.kind = .scalar style text →
    ∃ anchor, ⟨.scalar text style anchor, t.position⟩ ∈ events

/-- Whether some events can be read from tokens up to a rest of them, as far as scalars and aliases
are concerned. -/
structure Reads (tokens : List Token) (events : List Event) (rest : List Token) : Prop where
  scalars : ScalarsRead tokens events rest
  placed : ∀ e ∈ events, e.IsContent → e.IsPlaced tokens

/-- The same, but a value may be missing at the token behind. -/
structure ReadsBefore (tokens : List Token) (events : List Event) (rest : List Token) : Prop where
  scalars : ScalarsRead tokens events rest
  placed : ∀ e ∈ events, e.IsContent →
    e.IsPlaced tokens ∨ ∃ t ∈ rest.head?, e.position = t.position ∧ e.HasTextOf t

variable {tokens rest rest' : List Token} {events events' : List Event} {t : Token}

/-! ## Readings of tokens -/

theorem Reads.refl (tokens : List Token) : Reads tokens [] tokens :=
  ⟨⟨[], rfl, nofun⟩, nofun⟩

/-- What is read is a part of the tokens. -/
theorem ScalarsRead.suffix (h : ScalarsRead tokens events rest) : rest <:+ tokens := by
  obtain ⟨read, rfl, -⟩ := h
  exact List.suffix_append _ _

theorem ScalarsRead.append (h : ScalarsRead tokens events rest)
    (h' : ScalarsRead rest events' rest') : ScalarsRead tokens (events ++ events') rest' := by
  obtain ⟨read, rfl, hread⟩ := h
  obtain ⟨read', rfl, hread'⟩ := h'
  refine ⟨read ++ read', by rw [List.append_assoc], fun t ht style text hkind => ?_⟩
  rcases List.mem_append.mp ht with ht | ht
  · exact (hread t ht style text hkind).imp fun _ hmem => List.mem_append_left _ hmem
  · exact (hread' t ht style text hkind).imp fun _ hmem => List.mem_append_right _ hmem

theorem Event.IsPlaced.mono {e : Event} (h : e.IsPlaced rest) (hrest : rest <:+ tokens) :
    e.IsPlaced tokens := by
  obtain ⟨t, ht, hplaced⟩ := h
  exact ⟨t, hrest.subset ht, hplaced⟩

theorem Reads.append (h : Reads tokens events rest) (h' : Reads rest events' rest') :
    Reads tokens (events ++ events') rest' where
  scalars := h.scalars.append h'.scalars
  placed := fun e he hcontent => by
    rcases List.mem_append.mp he with he | he
    · exact h.placed e he hcontent
    · exact (h'.placed e he hcontent).mono h.scalars.suffix

theorem Reads.cons (h : Reads tokens events rest) {e : Event} (he : ¬ e.IsContent) :
    Reads tokens (e :: events) rest where
  scalars := by
    obtain ⟨read, htokens, hread⟩ := h.scalars
    exact ⟨read, htokens, fun t ht style text hkind =>
      (hread t ht style text hkind).imp fun _ hmem => List.mem_cons_of_mem _ hmem⟩
  placed := fun e' he' hcontent => by
    rcases List.mem_cons.mp he' with rfl | he'
    · exact absurd hcontent he
    · exact h.placed e' he' hcontent

/-- A token that is no scalar is read. -/
theorem reads_skip (h : t.isScalar = false) : Reads (t :: rest) [] rest where
  scalars := by
    refine ⟨[t], rfl, fun t' ht' style text hkind => ?_⟩
    rw [List.mem_singleton.mp ht'] at hkind
    rw [Token.isScalar, hkind] at h
    cases h
  placed := nofun

/-- A token that is no scalar is read before others. -/
theorem Reads.skip (h : Reads rest events rest') (ht : t.isScalar = false) :
    Reads (t :: rest) events rest' :=
  (reads_skip ht).append h

/-- A scalar is read. -/
theorem reads_scalar {style : Style} {text : String} {anchor : Option Nat}
    (h : t.kind = .scalar style text) :
    Reads (t :: rest) [⟨.scalar text style anchor, t.position⟩] rest where
  scalars := by
    refine ⟨[t], rfl, fun t' ht' style' text' hkind => ?_⟩
    rw [List.mem_singleton.mp ht'] at hkind ⊢
    rw [h] at hkind
    cases hkind
    exact ⟨anchor, List.mem_cons_self⟩
  placed := by
    intro e he _
    rw [List.mem_singleton.mp he]
    exact ⟨t, List.mem_cons_self, rfl, by rw [h]; nofun, .inr (.inr h)⟩

/-- An event that has no text of its own is read at the next token. -/
theorem reads_at {kind : EventKind} (h : t.kind ≠ .flowMappingStart)
    (htext : Event.HasTextOf t ⟨kind, t.position⟩) :
    Reads (t :: rest) [⟨kind, t.position⟩] (t :: rest) where
  scalars := ⟨[], rfl, nofun⟩
  placed := by
    intro e he _
    rw [List.mem_singleton.mp he]
    exact ⟨t, List.mem_cons_self, rfl, h, htext⟩

/-- A value is missing at the next token. -/
theorem reads_missing (h : t.kind ≠ .flowMappingStart) :
    Reads (t :: rest) [.missing t.position] (t :: rest) :=
  reads_at h (.inr (.inl rfl))

/-- What is read is read before the next token. -/
theorem Reads.before (h : Reads tokens events rest) : ReadsBefore tokens events rest :=
  ⟨h.scalars, fun e he hcontent => .inl (h.placed e he hcontent)⟩

/-- If no mapping starts at the next token, a value may be missing there. -/
theorem ReadsBefore.reads (h : ReadsBefore tokens events rest) (hrest : StartsNoMapping rest) :
    Reads tokens events rest where
  scalars := h.scalars
  placed := fun e he hcontent => by
    rcases h.placed e he hcontent with hplaced | ⟨t, ht, hposition, htext⟩
    · exact hplaced
    · exact ⟨t, h.scalars.suffix.subset (List.mem_of_mem_head? ht), hposition, hrest t ht, htext⟩

/-- A value may be missing at any token. -/
theorem readsBefore_missing : ReadsBefore (t :: rest) [.missing t.position] (t :: rest) :=
  ⟨⟨[], rfl, nofun⟩, fun e he _ => by
    rw [List.mem_singleton.mp he]
    exact .inr ⟨t, rfl, rfl, .inr (.inl rfl)⟩⟩

/-- What comes before is read before the next token. -/
theorem Reads.appendBefore (h : Reads tokens events rest) (h' : ReadsBefore rest events' rest') :
    ReadsBefore tokens (events ++ events') rest' where
  scalars := h.scalars.append h'.scalars
  placed := fun e he hcontent => by
    rcases List.mem_append.mp he with he | he
    · exact .inl (h.placed e he hcontent)
    · exact (h'.placed e he hcontent).imp_left fun hplaced => hplaced.mono h.scalars.suffix

/-- An event that is no content comes last. -/
theorem ReadsBefore.concat (h : ReadsBefore tokens events rest) {e : Event} (he : ¬ e.IsContent) :
    ReadsBefore tokens (events ++ [e]) rest where
  scalars := by
    obtain ⟨read, htokens, hread⟩ := h.scalars
    exact ⟨read, htokens, fun t ht style text hkind =>
      (hread t ht style text hkind).imp fun _ hmem => List.mem_append_left _ hmem⟩
  placed := fun e' he' hcontent => by
    rcases List.mem_append.mp he' with he' | he'
    · exact h.placed e' he' hcontent
    · rw [List.mem_singleton.mp he'] at hcontent
      exact absurd hcontent he

/-! ## Runs -/

namespace EventReader

variable {α β : Type} {x : EventReader α} {f : α → EventReader β} {p : Progress}
  {Q : β → Progress → Prop}

/-- Whether every successful run from a state leads to a result and a state with a property. -/
def Ensures (x : EventReader β) (p : Progress) (Q : β → Progress → Prop) : Prop :=
  ∀ b p', x.run p = some (b, p') → Q b p'

theorem ensures_pure {b : β} (h : Q b p) : Ensures (pure b) p Q := by
  intro b' p' hrun
  cases hrun
  exact h

theorem ensures_failure : Ensures failure p Q := nofun

theorem Ensures.bind {P : α → Progress → Prop} (hx : Ensures x p P)
    (hf : ∀ a p', P a p' → Ensures (f a) p' Q) : Ensures (x >>= f) p Q := by
  intro b p'' hrun
  obtain ⟨⟨a, p'⟩, ha, hb⟩ := Option.bind_eq_some_iff.mp hrun
  exact hf a p' (hx a p' ha) b p'' hb

theorem Ensures.imp {P : β → Progress → Prop} {x : EventReader β} (h : Ensures x p P)
    (himp : ∀ b p', P b p' → Q b p') : Ensures x p Q :=
  fun b p' hrun => himp b p' (h b p' hrun)

/-- Asking for the state. -/
theorem ensures_get {f : Progress → EventReader β} (h : Ensures (f p) p Q) :
    Ensures (get >>= f) p Q := by
  refine Ensures.bind (P := fun q p' => q = p ∧ p' = p) ?_ ?_
  · intro q p' hrun
    cases hrun
    exact ⟨rfl, rfl⟩
  · rintro _ _ ⟨rfl, rfl⟩
    exact h

/-- Looking at the next token. -/
theorem ensures_peek {f : Token → EventReader β}
    (h : ∀ t rest, p.tokens = t :: rest → Ensures (f t) p Q) : Ensures (peek >>= f) p Q := by
  unfold peek
  rw [bind_assoc]
  refine ensures_get ?_
  split
  · next t rest htokens =>
    rw [pure_bind]
    exact h t rest htokens
  · exact nofun

/-- Changing the state. -/
theorem ensures_modify {g : Progress → Progress} {f : Unit → EventReader β}
    (h : Ensures (f ()) (g p) Q) : Ensures (modify g >>= f) p Q := by
  refine Ensures.bind (P := fun _ p' => p' = g p) ?_ ?_
  · intro _ p' hrun
    cases hrun
    rfl
  · rintro _ _ rfl
    exact h

/-- Passing over the next token. -/
theorem ensures_skip {f : Unit → EventReader β} (htokens : p.tokens = t :: rest)
    (h : ∀ p', p'.tokens = rest → Ensures (f ()) p' Q) : Ensures (skip >>= f) p Q :=
  ensures_modify (h _ (by rw [htokens]; rfl))

/-- Passing over the next token if it is of a kind. -/
theorem ensures_skipIf {kind : TokenKind} {f : Bool → EventReader β}
    (hyes : ∀ t p', p.tokens = t :: p'.tokens → t.kind = kind → Ensures (f true) p' Q)
    (hno : Ensures (f false) p Q) : Ensures (skipIf kind >>= f) p Q := by
  unfold skipIf
  rw [bind_assoc]
  refine ensures_peek fun t rest htokens => ?_
  split
  · next hkind =>
    rw [bind_assoc]
    refine ensures_skip htokens fun p' hp' => ?_
    rw [pure_bind]
    exact hyes t p' (by rw [htokens, hp']) hkind
  · rw [pure_bind]
    exact hno

/-- Numbering an anchor reads no token. -/
theorem ensures_define {name : String} {f : Nat → EventReader β}
    (h : ∀ n p', p'.tokens = p.tokens → Ensures (f n) p' Q) : Ensures (define name >>= f) p Q := by
  refine Ensures.bind (P := fun _ p' => p'.tokens = p.tokens) ?_ h
  intro n p' hrun
  cases hrun
  rfl

/-- So does checking a handle. -/
theorem ensures_checkHandle {handle : String} {f : Unit → EventReader β}
    (h : Ensures (f ()) p Q) : Ensures (checkHandle handle >>= f) p Q := by
  unfold checkHandle
  rw [bind_assoc]
  refine ensures_get ?_
  split
  · exact nofun
  · rw [pure_bind]
    exact h

/-! ## Nodes -/

/-- Properties hold no scalars. -/
theorem ensures_properties (p : Progress) :
    Ensures properties p fun _ p' => Reads p.tokens [] p'.tokens := by
  unfold properties
  refine ensures_peek fun t rest htokens => ?_
  rw [htokens]
  -- an anchor may come before the tag or behind it
  split
  · next name hkind =>
    have hanchor : t.isScalar = false := by rw [Token.isScalar, hkind]
    refine ensures_skip htokens fun p₁ h₁ => ensures_define fun n p₂ h₂ => ?_
    refine ensures_peek fun t' rest' htokens' => ?_
    rw [← h₁, ← h₂]
    split
    · next handle hkind' =>
      have htag : t'.isScalar = false := by rw [Token.isScalar, hkind']
      refine ensures_skip htokens' fun p₃ h₃ => ensures_checkHandle (ensures_pure ?_)
      rw [htokens', h₃]
      exact (reads_skip htag).skip hanchor
    · exact ensures_pure (reads_skip hanchor)
  · next handle hkind =>
    have htag : t.isScalar = false := by rw [Token.isScalar, hkind]
    refine ensures_skip htokens fun p₁ h₁ => ensures_checkHandle ?_
    refine ensures_peek fun t' rest' htokens' => ?_
    rw [← h₁]
    split
    · next name hkind' =>
      have hanchor : t'.isScalar = false := by rw [Token.isScalar, hkind']
      refine ensures_skip htokens' fun p₂ h₂ => ensures_define fun n p₃ h₃ => ensures_pure ?_
      rw [htokens', h₃, h₂]
      exact (reads_skip hanchor).skip htag
    · exact ensures_pure (reads_skip htag)
  · refine ensures_pure ?_
    rw [htokens]
    exact .refl _

/-- Where a value is missing, it is placed at the next token. -/
theorem ensures_missingOr {kinds : List TokenKind} (hkinds : .flowMappingStart ∉ kinds)
    {read : EventReader (List Event)}
    (h : Ensures read p fun es p' => Reads p.tokens es p'.tokens) :
    Ensures (missingOr kinds read) p fun es p' => Reads p.tokens es p'.tokens := by
  unfold missingOr
  refine ensures_peek fun t rest htokens => ?_
  split
  · next hmem =>
    refine ensures_pure ?_
    rw [htokens]
    refine reads_missing fun hkind => hkinds ?_
    rw [← hkind]
    simpa using hmem
  · exact h

/-- The rest of a flow mapping that is not at its end, behind the comma. -/
def flowPairsBehind (fuel : Nat) (ending : Token) : EventReader (List Event) := do
  let token ← peek
  match token.kind with
  | .key =>
    skip
    let key ← missingOr [.value, .flowEntry, .flowMappingEnd] (node fuel false false)
    let value ← flowValue fuel
    return key ++ value ++ (← flowPairs fuel false)
  | .value =>
    let value ← flowValue fuel
    return .missing token.position :: value ++ (← flowPairs fuel false)
  | .flowMappingEnd =>
    skip
    pure [⟨.mappingEnd, ending.position⟩]
  | _ =>
    let key ← node fuel false false
    let next ← peek
    return key ++ .missing next.position :: (← flowPairs fuel false)

/-- The rest of a flow sequence that is not at its end, behind the comma. -/
def flowItemsBehind (fuel : Nat) : EventReader (List Event) := do
  let token ← peek
  match token.kind with
  | .flowSequenceEnd =>
    skip
    pure [⟨.sequenceEnd, token.position⟩]
  | .key =>
    skip
    let pair ← singlePair fuel
    return ⟨.mappingStart none, token.position⟩ :: pair ++ (← flowItems fuel false)
  | _ =>
    let item ← node fuel false false
    return item ++ (← flowItems fuel false)

/-- The value and the end of a mapping of one pair, behind its key. -/
def singlePairBehind (fuel : Nat) (key : List Event) : EventReader (List Event) := do
  let token ← peek
  let value ←
    if token.kind = .value then do
      skip
      missingOr [.flowEntry, .flowSequenceEnd] (node fuel false false)
    else pure [Event.missing token.position]
  let next ← peek
  return key ++ value ++ [⟨.mappingEnd, next.position⟩]

/-- A collection is read behind the token that it begins with. -/
theorem ensures_collection {entries : EventReader (List Event)} {e : Event}
    (htokens : p.tokens = t :: rest) (hscalar : t.isScalar = false) (he : ¬ e.IsContent)
    (h : ∀ p, Ensures entries p fun es p' => Reads p.tokens es p'.tokens) :
    Ensures (skip >>= fun _ => entries >>= fun es => pure (e :: es)) p fun es p' =>
      Reads p.tokens es p'.tokens := by
  refine ensures_skip htokens fun p₁ h₁ => (h p₁).bind fun es p₂ h₂ => ensures_pure ?_
  rw [htokens, ← h₁]
  exact (h₂.skip hscalar).cons he

/-- The end of a collection is read. -/
theorem ensures_end {e : Event} (htokens : p.tokens = t :: rest) (hscalar : t.isScalar = false)
    (he : ¬ e.IsContent) :
    Ensures (skip >>= fun _ => pure [e]) p fun es p' => Reads p.tokens es p'.tokens := by
  refine ensures_skip htokens fun p₁ h₁ => ensures_pure ?_
  rw [htokens, h₁]
  exact (reads_skip hscalar).cons he

/-- What is known of the readers of nodes and of their parts. -/
structure AllRead (fuel : Nat) : Prop where
  node (block indentless : Bool) (p : Progress) :
    Ensures (node fuel block indentless) p fun es p' => Reads p.tokens es p'.tokens
  blockItems (p : Progress) :
    Ensures (blockItems fuel) p fun es p' => Reads p.tokens es p'.tokens
  indentlessItems (p : Progress) :
    Ensures (indentlessItems fuel) p fun es p' => Reads p.tokens es p'.tokens
  blockPairs (p : Progress) : Ensures (blockPairs fuel) p fun es p' =>
    Reads p.tokens es p'.tokens ∧ StartsNoMapping p.tokens
  blockValue (p : Progress) :
    Ensures (blockValue fuel) p fun es p' => ReadsBefore p.tokens es p'.tokens
  flowPairs (first : Bool) (p : Progress) : Ensures (flowPairs fuel first) p fun es p' =>
    Reads p.tokens es p'.tokens ∧ (first = false → StartsNoMapping p.tokens)
  flowValue (p : Progress) :
    Ensures (flowValue fuel) p fun es p' => ReadsBefore p.tokens es p'.tokens
  flowItems (first : Bool) (p : Progress) : Ensures (flowItems fuel first) p fun es p' =>
    Reads p.tokens es p'.tokens ∧ (first = false → StartsNoMapping p.tokens)
  singlePair (p : Progress) :
    Ensures (singlePair fuel) p fun es p' => ReadsBefore p.tokens es p'.tokens

namespace AllRead

variable {fuel : Nat}

theorem node_succ (ih : AllRead fuel) (block indentless : Bool) (p : Progress) :
    Ensures (EventReader.node (fuel + 1) block indentless) p fun es p' =>
      Reads p.tokens es p'.tokens := by
  rw [EventReader.node]
  refine ensures_peek fun t rest htokens => ?_
  split
  · next name hkind =>
    refine ensures_skip htokens fun p₁ h₁ => ensures_get ?_
    split
    · refine ensures_pure ?_
      rw [htokens, h₁]
      exact (reads_at (by rw [hkind]; nofun) (by trivial)).append
        (reads_skip (by rw [Token.isScalar, hkind]))
    · exact ensures_failure
  · refine Ensures.bind (ensures_properties p) ?_
    rintro ⟨anchor, tagged⟩ p₁ hproperties
    -- what the node is shows behind its properties
    suffices h : Ensures _ p₁ fun es p' => Reads p₁.tokens es p'.tokens from
      h.imp fun es p' hreads => hproperties.append hreads
    refine ensures_peek fun t rest htokens => ?_
    split
    · next style text hkind =>
      refine ensures_skip htokens fun p₂ h₂ => ensures_pure ?_
      rw [htokens, h₂]
      exact reads_scalar hkind
    · next hkind =>
      have hscalar : t.isScalar = false := by rw [Token.isScalar, hkind]
      exact ensures_collection htokens hscalar id fun p =>
        (ih.flowItems true p).imp fun _ _ h => h.1
    · next hkind =>
      have hscalar : t.isScalar = false := by rw [Token.isScalar, hkind]
      exact ensures_collection htokens hscalar id fun p =>
        (ih.flowPairs true p).imp fun _ _ h => h.1
    · next hmapping =>
      split
      · exact (ih.indentlessItems p₁).bind fun items p₂ h₂ => ensures_pure (h₂.cons id)
      · split
        · next hkind =>
          rw [Bool.and_eq_true, decide_eq_true_eq] at hkind
          have hscalar : t.isScalar = false := by rw [Token.isScalar, hkind.1]
          exact ensures_collection htokens hscalar id ih.blockItems
        · split
          · next hkind =>
            rw [Bool.and_eq_true, decide_eq_true_eq] at hkind
            have hscalar : t.isScalar = false := by rw [Token.isScalar, hkind.1]
            exact ensures_collection htokens hscalar id fun p =>
              (ih.blockPairs p).imp fun _ _ h => h.1
          · split
            · refine ensures_pure ?_
              rw [htokens]
              exact reads_at hmapping (.inl rfl)
            · exact ensures_failure

theorem blockItems_succ (ih : AllRead fuel) (p : Progress) :
    Ensures (EventReader.blockItems (fuel + 1)) p fun es p' => Reads p.tokens es p'.tokens := by
  rw [EventReader.blockItems]
  refine ensures_peek fun t rest htokens => ?_
  split
  · next hkind =>
    refine ensures_skip htokens fun p₁ h₁ => ?_
    refine (ensures_missingOr (by decide) (ih.node true false p₁)).bind fun item p₂ h₂ => ?_
    refine (ih.blockItems p₂).bind fun items p₃ h₃ => ensures_pure ?_
    rw [htokens, ← h₁]
    exact (h₂.append h₃).skip (by rw [Token.isScalar, hkind])
  · next hkind => exact ensures_end htokens (by rw [Token.isScalar, hkind]) id
  · exact ensures_failure

theorem indentlessItems_succ (ih : AllRead fuel) (p : Progress) :
    Ensures (EventReader.indentlessItems (fuel + 1)) p fun es p' =>
      Reads p.tokens es p'.tokens := by
  rw [EventReader.indentlessItems]
  refine ensures_peek fun t rest htokens => ?_
  split
  · next hkind =>
    refine ensures_skip htokens fun p₁ h₁ => ?_
    refine (ensures_missingOr (by decide) (ih.node true false p₁)).bind fun item p₂ h₂ => ?_
    refine (ih.indentlessItems p₂).bind fun items p₃ h₃ => ensures_pure ?_
    rw [htokens, ← h₁]
    exact (h₂.append h₃).skip (by rw [Token.isScalar, hkind])
  · exact ensures_pure ((Reads.refl _).cons id)

theorem blockPairs_succ (ih : AllRead fuel) (p : Progress) :
    Ensures (EventReader.blockPairs (fuel + 1)) p fun es p' =>
      Reads p.tokens es p'.tokens ∧ StartsNoMapping p.tokens := by
  have hstarts {t : Token} {rest : List Token} (hkind : t.kind ≠ .flowMappingStart) :
      StartsNoMapping (t :: rest) := by
    rintro _ ⟨⟩
    exact hkind
  rw [EventReader.blockPairs]
  refine ensures_peek fun t rest htokens => ?_
  rw [htokens]
  -- a pair begins with its key, or with the value if the key is missing
  split
  · next hkind =>
    refine ensures_skip htokens fun p₁ h₁ => ?_
    refine (ensures_missingOr (by decide) (ih.node true true p₁)).bind fun key p₂ h₂ => ?_
    refine (ih.blockValue p₂).bind fun value p₃ h₃ => (ih.blockPairs p₃).bind fun pairs p₄ h₄ => ?_
    refine ensures_pure ⟨?_, hstarts (by rw [hkind]; nofun)⟩
    rw [← h₁]
    exact ((h₂.append (h₃.reads h₄.2)).append h₄.1).skip (by rw [Token.isScalar, hkind])
  · next hkind =>
    refine (ih.blockValue p).bind fun value p₁ h₁ => (ih.blockPairs p₁).bind fun pairs p₂ h₂ => ?_
    have hmapping : t.kind ≠ .flowMappingStart := by rw [hkind]; nofun
    refine ensures_pure ⟨?_, hstarts hmapping⟩
    rw [htokens] at h₁
    exact ((reads_missing hmapping).append (h₁.reads h₂.2)).append h₂.1
  · next hkind =>
    rw [← htokens]
    refine (ensures_end htokens (by rw [Token.isScalar, hkind]) id).imp fun es p' h => ⟨h, ?_⟩
    rw [htokens]
    exact hstarts (by rw [hkind]; nofun)
  · exact ensures_failure

theorem blockValue_succ (ih : AllRead fuel) (p : Progress) :
    Ensures (EventReader.blockValue (fuel + 1)) p fun es p' =>
      ReadsBefore p.tokens es p'.tokens := by
  rw [EventReader.blockValue]
  refine ensures_peek fun t rest htokens => ?_
  split
  · next hkind =>
    refine ensures_skip htokens fun p₁ h₁ => ?_
    refine (ensures_missingOr (by decide) (ih.node true true p₁)).imp fun es p' h => ?_
    rw [htokens, ← h₁]
    exact (h.skip (by rw [Token.isScalar, hkind])).before
  · refine ensures_pure ?_
    rw [htokens]
    exact readsBefore_missing

theorem flowPairsBehind (ih : AllRead fuel) (ending : Token) (p : Progress) :
    Ensures (EventReader.flowPairsBehind fuel ending) p fun es p' =>
      Reads p.tokens es p'.tokens := by
  unfold EventReader.flowPairsBehind
  refine ensures_peek fun t rest htokens => ?_
  split
  · next hkind =>
    refine ensures_skip htokens fun p₁ h₁ => ?_
    refine (ensures_missingOr (by decide) (ih.node false false p₁)).bind fun key p₂ h₂ => ?_
    refine (ih.flowValue p₂).bind fun value p₃ h₃ => ?_
    refine (ih.flowPairs false p₃).bind fun pairs p₄ h₄ => ensures_pure ?_
    rw [htokens, ← h₁]
    exact ((h₂.append (h₃.reads (h₄.2 rfl))).append h₄.1).skip (by rw [Token.isScalar, hkind])
  · next hkind =>
    refine (ih.flowValue p).bind fun value p₁ h₁ => ?_
    refine (ih.flowPairs false p₁).bind fun pairs p₂ h₂ => ensures_pure ?_
    rw [htokens] at h₁ ⊢
    exact ((reads_missing (by rw [hkind]; nofun)).append (h₁.reads (h₂.2 rfl))).append h₂.1
  · next hkind => exact ensures_end htokens (by rw [Token.isScalar, hkind]) id
  · refine (ih.node false false p).bind fun key p₁ h₁ => ensures_peek fun next rest' htokens' => ?_
    refine (ih.flowPairs false p₁).bind fun pairs p₂ h₂ => ensures_pure ?_
    rw [htokens] at h₁ ⊢
    -- the value is missing where the mapping goes on or ends
    have hnext : next.kind ≠ .flowMappingStart := h₂.2 rfl next (by rw [htokens']; rfl)
    rw [htokens'] at h₁ h₂
    exact h₁.append ((reads_missing hnext).append h₂.1)

/-- Behind the first entry of a flow collection a comma has to come. -/
theorem behind {first : Bool} {p : Progress} {x : EventReader (List Event)}
    (h : ∀ p, Ensures x p fun es p' => Reads p.tokens es p'.tokens) :
    Ensures (if !first then
        skipIf .flowEntry >>= fun comma => if !comma then failure >>= fun _ : Unit => x else x
      else x) p fun es p' =>
        Reads p.tokens es p'.tokens ∧ (first = false → StartsNoMapping p.tokens) := by
  split
  · refine ensures_skipIf (fun t p₁ htokens hkind => ?_) nofun
    refine (h p₁).imp fun es p' hreads => ⟨?_, fun _ => ?_⟩
    · rw [htokens]
      exact hreads.skip (by rw [Token.isScalar, hkind])
    · rw [htokens]
      rintro _ ⟨⟩
      rw [hkind]
      nofun
  · next hfirst =>
    refine (h p).imp fun es p' hreads => ⟨hreads, fun hfalse => ?_⟩
    rw [hfalse] at hfirst
    exact absurd rfl hfirst

/-- The end of a flow collection is read. -/
theorem ends {kind : EventKind} {t : Token} {rest : List Token} {p : Progress} {first : Bool}
    (htokens : p.tokens = t :: rest) (hscalar : t.isScalar = false)
    (hmapping : t.kind ≠ .flowMappingStart)
    (hkind : ∀ position, ¬ (Event.mk kind position).IsContent) :
    Ensures (skip >>= fun _ => pure [⟨kind, t.position⟩]) p fun es p' =>
      Reads p.tokens es p'.tokens ∧ (first = false → StartsNoMapping p.tokens) := by
  refine (ensures_end htokens hscalar (hkind _)).imp fun es p' h => ⟨h, fun _ => ?_⟩
  rw [htokens]
  rintro _ ⟨⟩
  exact hmapping

theorem flowPairs_succ (ih : AllRead fuel) (first : Bool) (p : Progress) :
    Ensures (EventReader.flowPairs (fuel + 1) first) p fun es p' =>
      Reads p.tokens es p'.tokens ∧ (first = false → StartsNoMapping p.tokens) := by
  rw [EventReader.flowPairs]
  refine ensures_peek fun t rest htokens => ?_
  split
  · next hkind =>
    exact ends htokens (by rw [Token.isScalar, hkind]) (by rw [hkind]; nofun) fun _ => id
  · exact behind (ih.flowPairsBehind t)

theorem flowValue_succ (ih : AllRead fuel) (p : Progress) :
    Ensures (EventReader.flowValue (fuel + 1)) p fun es p' =>
      ReadsBefore p.tokens es p'.tokens := by
  rw [EventReader.flowValue]
  refine ensures_peek fun t rest htokens => ?_
  rw [htokens]
  split
  · next hkind =>
    have hscalar : t.isScalar = false := by rw [Token.isScalar, hkind]
    refine ensures_skip htokens fun p₁ h₁ => ensures_peek fun next rest' htokens' => ?_
    split
    · refine ensures_pure ?_
      rw [h₁]
      exact ((reads_missing (by rw [hkind]; nofun)).append (reads_skip hscalar)).before
    · refine (ih.node false false p₁).imp fun es p' h => ?_
      rw [← h₁]
      exact (h.skip hscalar).before
  · refine ensures_pure ?_
    rw [htokens]
    exact readsBefore_missing

theorem flowItemsBehind (ih : AllRead fuel) (p : Progress) :
    Ensures (EventReader.flowItemsBehind fuel) p fun es p' => Reads p.tokens es p'.tokens := by
  unfold EventReader.flowItemsBehind
  refine ensures_peek fun t rest htokens => ?_
  split
  · next hkind => exact ensures_end htokens (by rw [Token.isScalar, hkind]) id
  · next hkind =>
    refine ensures_skip htokens fun p₁ h₁ => (ih.singlePair p₁).bind fun pair p₂ h₂ => ?_
    refine (ih.flowItems false p₂).bind fun items p₃ h₃ => ensures_pure ?_
    rw [htokens, ← h₁]
    exact (((h₂.reads (h₃.2 rfl)).append h₃.1).skip (by rw [Token.isScalar, hkind])).cons id
  · refine (ih.node false false p).bind fun item p₁ h₁ => ?_
    exact (ih.flowItems false p₁).bind fun items p₂ h₂ => ensures_pure (h₁.append h₂.1)

theorem flowItems_succ (ih : AllRead fuel) (first : Bool) (p : Progress) :
    Ensures (EventReader.flowItems (fuel + 1) first) p fun es p' =>
      Reads p.tokens es p'.tokens ∧ (first = false → StartsNoMapping p.tokens) := by
  rw [EventReader.flowItems]
  refine ensures_peek fun t rest htokens => ?_
  split
  · next hkind =>
    exact ends htokens (by rw [Token.isScalar, hkind]) (by rw [hkind]; nofun) fun _ => id
  · exact behind ih.flowItemsBehind

theorem singlePairBehind (ih : AllRead fuel) {key : List Event} {tokens : List Token}
    {p : Progress} (hkey : Reads tokens key p.tokens) :
    Ensures (EventReader.singlePairBehind fuel key) p fun es p' =>
      ReadsBefore tokens es p'.tokens := by
  unfold EventReader.singlePairBehind
  refine ensures_peek fun t rest htokens => ?_
  rw [htokens] at hkey
  split
  · next hkind =>
    dsimp only
    refine ensures_skip htokens fun p₁ h₁ => ?_
    refine (ensures_missingOr (by decide) (ih.node false false p₁)).bind fun value p₂ h₂ => ?_
    refine ensures_peek fun next rest' htokens' => ensures_pure ?_
    have hscalar : t.isScalar = false := by rw [Token.isScalar, hkind]
    rw [h₁] at h₂
    exact (hkey.append (h₂.skip hscalar)).before.concat id
  · dsimp only
    rw [pure_bind]
    refine ensures_peek fun next rest' htokens' => ensures_pure ?_
    rw [htokens]
    exact (hkey.appendBefore readsBefore_missing).concat id

theorem singlePair_succ (ih : AllRead fuel) (p : Progress) :
    Ensures (EventReader.singlePair (fuel + 1)) p fun es p' =>
      ReadsBefore p.tokens es p'.tokens := by
  rw [EventReader.singlePair]
  refine ensures_peek fun t rest htokens => ?_
  rw [htokens]
  split
  · next hkind =>
    simp only [Bool.or_eq_true, decide_eq_true_eq] at hkind
    have hskipped : t.isScalar = false ∧ t.kind ≠ .flowMappingStart := by
      rcases hkind with (hkind | hkind) | hkind
      all_goals exact ⟨by rw [Token.isScalar, hkind], by rw [hkind]; nofun⟩
    refine ensures_skip htokens fun p₁ h₁ => ?_
    rw [pure_bind]
    refine ih.singlePairBehind ?_
    rw [h₁]
    exact (reads_missing hskipped.2).append (reads_skip hskipped.1)
  · refine (ih.node false false p).bind fun key p₁ h₁ => ?_
    rw [htokens] at h₁
    exact ih.singlePairBehind h₁

/-- Without fuel nothing is read. -/
theorem zero : AllRead 0 := by
  constructor
  all_goals
    intros
    simp only [EventReader.node, EventReader.blockItems, EventReader.indentlessItems,
      EventReader.blockPairs, EventReader.blockValue, EventReader.flowPairs, EventReader.flowValue,
      EventReader.flowItems, EventReader.singlePair]
    exact ensures_failure

end AllRead

/-- Nodes and their parts are read so. -/
theorem allRead (fuel : Nat) : AllRead fuel := by
  induction fuel with
  | zero => exact .zero
  | succ fuel ih =>
    exact ⟨ih.node_succ, ih.blockItems_succ, ih.indentlessItems_succ, ih.blockPairs_succ,
      ih.blockValue_succ, ih.flowPairs_succ, ih.flowValue_succ, ih.flowItems_succ,
      ih.singlePair_succ⟩

/-! ## Documents -/

/-- Document ends hold no scalars. -/
theorem ensures_skipDocumentEnds {tokens : List Token} {p : Progress} (h : p.tokens = tokens) :
    Ensures (skipDocumentEnds tokens) p fun _ p' => Reads tokens [] p'.tokens := by
  induction tokens generalizing p with
  | nil => exact ensures_failure
  | cons t rest ih =>
    rw [skipDocumentEnds]
    split
    · next hkind =>
      refine ensures_modify ((ih rfl).imp fun _ p' hreads => ?_)
      exact hreads.skip (by rw [Token.isScalar, hkind])
    · refine ensures_pure ?_
      rw [h]
      exact .refl _

/-- Nor do directives. -/
theorem ensures_directives {versioned : Bool} {tokens : List Token} {p : Progress}
    (h : p.tokens = tokens) :
    Ensures (directives versioned tokens) p fun _ p' => Reads tokens [] p'.tokens := by
  induction tokens generalizing p versioned with
  | nil => exact ensures_failure
  | cons t rest ih =>
    rw [directives]
    split
    · next hkind =>
      have hscalar : t.isScalar = false := by rw [Token.isScalar, hkind]
      split
      · exact nofun
      · exact ensures_modify ((ih rfl).imp fun _ p' hreads => hreads.skip hscalar)
    · next handle hkind =>
      have hscalar : t.isScalar = false := by rw [Token.isScalar, hkind]
      exact ensures_modify ((ih rfl).imp fun _ p' hreads => hreads.skip hscalar)
    · refine ensures_pure ?_
      rw [h]
      exact .refl _

/-- Behind a document nothing is read. -/
theorem ensures_documentEnd {f : Unit → EventReader β} (h : Ensures (f ()) p Q) :
    Ensures (documentEnd >>= f) p Q := by
  unfold documentEnd
  rw [bind_assoc]
  refine ensures_peek fun t rest _ => ?_
  split
  · exact nofun
  · exact nofun
  · rw [pure_bind]
    exact h

/-- The content of a document behind its start. -/
theorem ensures_explicitContent (fuel : Nat) (p : Progress) :
    Ensures (explicitContent fuel) p fun es p' => Reads p.tokens es p'.tokens := by
  unfold explicitContent
  refine ensures_peek fun t rest htokens => ?_
  have hmissing (hkind : t.kind ≠ .flowMappingStart) :
      Ensures (pure [Event.missing t.position]) p fun es p' => Reads p.tokens es p'.tokens := by
    refine ensures_pure ?_
    rw [htokens]
    exact reads_missing hkind
  split
  · next hkind => exact hmissing (by rw [hkind]; nofun)
  · next hkind => exact hmissing (by rw [hkind]; nofun)
  · next hkind => exact hmissing (by rw [hkind]; nofun)
  · next hkind => exact hmissing (by rw [hkind]; nofun)
  · next hkind => exact hmissing (by rw [hkind]; nofun)
  · exact (allRead fuel).node true false p

/-- The first document of a source. -/
theorem ensures_document (fuel : Nat) (p : Progress) :
    Ensures (document fuel) p fun es? p' => ∀ es ∈ es?, Reads p.tokens es p'.tokens := by
  unfold document
  refine ensures_get ?_
  refine (ensures_skipDocumentEnds rfl).bind fun _ p₁ h₁ => ?_
  refine ensures_peek fun t rest htokens => ?_
  dsimp only
  -- a directive or the mark of a start makes the document explicit
  have hexplicit : Ensures (β := Option (List Event)) (do
      directives false (← get).tokens
      if !(← skipIf .documentStart) then failure
      let content ← explicitContent fuel
      documentEnd
      pure (some content)) p₁ fun es? p' => ∀ es ∈ es?, Reads p.tokens es p'.tokens := by
    refine ensures_get ((ensures_directives rfl).bind fun _ p₂ h₂ => ?_)
    refine ensures_skipIf (fun t p₃ htokens hkind => ?_) nofun
    refine (ensures_explicitContent fuel p₃).bind fun content p₄ h₄ => ?_
    refine ensures_documentEnd (ensures_pure ?_)
    rintro _ ⟨⟩
    have hstart : Reads p₂.tokens [] p₃.tokens := by
      rw [htokens]
      exact reads_skip (by rw [Token.isScalar, hkind])
    exact ((h₁.append h₂).append hstart).append h₄
  split
  · exact ensures_pure nofun
  · exact hexplicit
  · exact hexplicit
  · exact hexplicit
  · refine ((allRead fuel).node true false p₁).bind fun content p₂ h₂ => ?_
    refine ensures_documentEnd (ensures_pure ?_)
    rintro _ ⟨⟩
    exact h₁.append h₂

end EventReader

end QueryBook.Yaml
