import QueryBook.Proofs.Location
import Mathlib.Data.List.Lex

/-!
# Spellings of paths

Paths with the same components are spellings of one path. They differ in pieces that stand for no
component, and such a piece only asks for a directory where it stands. So all spellings lead to the
same directory, or none of them to any; and all spellings that end in the name of a file lead to the
same file. The order of paths is that of their components, so it does not see the spelling.
-/

namespace QueryBook

/-! ## Order -/

namespace PathComponent

/-- The piece that a component is spelled with inside of a path. -/
def piece : PathComponent → String
  | root => ""
  | here => "."
  | up => ".."
  | name text => text

/-- Components are ordered by their kind, and those of one kind by their text. -/
theorem before_iff {a b : PathComponent} :
    a.before b ↔ a.rank < b.rank ∨ a.rank = b.rank ∧ a.piece < b.piece := by
  cases a <;> cases b <;> simp [before, rank, piece]

/-- A component is told by its kind and its text. -/
theorem ext_rank_piece {a b : PathComponent} (hrank : a.rank = b.rank) (hpiece : a.piece = b.piece) :
    a = b := by
  cases a <;> cases b <;> simp_all [rank, piece]

/-- Components are strictly and totally ordered. -/
instance : IsStrictTotalOrder PathComponent fun a b => a.before b where
  irrefl a := by
    rw [before_iff]
    rintro (h | ⟨-, h⟩)
    · exact lt_irrefl _ h
    · exact String.lt_irrefl _ h
  trans a b c := by
    rw [before_iff, before_iff, before_iff]
    rintro (h | ⟨h, hlt⟩) (h' | ⟨h', hlt'⟩)
    · exact .inl (h.trans h')
    · exact .inl (h' ▸ h)
    · exact .inl (h ▸ h')
    · exact .inr ⟨h.trans h', String.lt_trans hlt hlt'⟩
  trichotomous a b := by
    rw [before_iff, before_iff]
    intro hab hba
    obtain ⟨hrank, hpiece⟩ := not_or.mp hab
    obtain ⟨hrank', hpiece'⟩ := not_or.mp hba
    have heq : a.rank = b.rank := by omega
    rcases Std.lt_trichotomy a.piece b.piece with h | h | h
    · exact absurd ⟨heq, h⟩ hpiece
    · exact ext_rank_piece heq h
    · exact absurd ⟨heq.symm, h⟩ hpiece'

end PathComponent

namespace Path

/-- Lists of components are ordered by their first difference. -/
theorem componentsBefore_iff_lex {as bs : List PathComponent} :
    componentsBefore as bs ↔ List.Lex (fun a b => a.before b) as bs := by
  induction as generalizing bs with
  | nil => cases bs <;> simp [componentsBefore]
  | cons a as ih =>
    cases bs with
    | nil => simp [componentsBefore]
    | cons b bs =>
      rw [componentsBefore, Bool.or_eq_true, Bool.and_eq_true, decide_eq_true_eq, ih]
      constructor
      · rintro (h | ⟨rfl, h⟩)
        · exact .rel h
        · exact .cons h
      · rintro (_ | h | h)
        · exact .inl h
        · exact .inr ⟨rfl, h⟩

/-- So lists of components are strictly and totally ordered too. -/
instance : IsStrictTotalOrder (List PathComponent) fun as bs => componentsBefore as bs := by
  have hlex : IsStrictTotalOrder (List PathComponent) (List.Lex fun a b => a.before b) :=
    { isStrictWeakOrder_of_isOrderConnected with }
  have heq : (fun as bs => (componentsBefore as bs : Prop)) = List.Lex fun a b => a.before b := by
    funext as bs
    exact propext componentsBefore_iff_lex
  rw [heq]
  exact hlex

/-! ## Spellings -/

variable {p q : Path}

/-- Whether two paths are the same is told by their components. -/
@[simp] theorem same_iff : p.same q ↔ p.components = q.components := by
  simp [same]

/-- A piece that stands for a component spells it. -/
theorem piece_of_componentOf {piece : String} {c : PathComponent} (h : componentOf? piece = some c) :
    c.piece = piece := by
  unfold componentOf? at h
  split at h
  · cases h
  · split at h
    · next hup =>
      cases h
      exact hup.symm
    · cases h
      rfl

/-- What pieces stand for is neither the root nor the directory that a path starts from. -/
theorem ne_of_mem_filterMap {pieces : List String} {c : PathComponent}
    (h : c ∈ pieces.filterMap componentOf?) : c ≠ .root ∧ c ≠ .here := by
  obtain ⟨piece, -, hc⟩ := List.mem_filterMap.mp h
  unfold componentOf? at hc
  split at hc
  · cases hc
  · split at hc <;> cases hc <;> simp

/-- The components that the pieces of a path stand for. -/
def inner (p : Path) : List PathComponent := p.pieces.filterMap componentOf?

/-- The components of a path tell what its pieces stand for. -/
theorem inner_eq_filter (p : Path) :
    p.inner = p.components.filter fun c => c ≠ .root && c ≠ .here := by
  have hall : p.inner.filter (fun c => c ≠ .root && c ≠ .here) = p.inner :=
    List.filter_eq_self.mpr fun c hc => by simpa using ne_of_mem_filterMap hc
  unfold components
  dsimp only
  split
  · rw [List.filter_cons_of_neg (by simp)]
    exact hall.symm
  · split
    · rw [List.filter_cons_of_neg (by simp)]
      exact hall.symm
    · exact hall.symm

/-- The components of a path tell whether it is absolute. -/
theorem isAbsolute_iff : p.isAbsolute = true ↔ .root ∈ p.components := by
  have hnot : .root ∉ p.pieces.filterMap componentOf? := fun h => (ne_of_mem_filterMap h).1 rfl
  unfold components
  dsimp only
  split
  · next h => simp [h]
  · next h =>
    split
    · simp [h, hnot]
    · simp [h, hnot]

/-- Only the empty text has no components. -/
theorem components_eq_nil_iff : p.components = [] ↔ p = "" := by
  constructor
  · intro h
    by_contra hne
    obtain ⟨c, rest, hc⟩ := List.exists_cons_of_ne_nil fun hnil => hne (String.toList_eq_nil_iff.mp hnil)
    unfold components at h
    dsimp only at h
    split at h
    · cases h
    · next habsolute =>
      split at h
      · cases h
      · next hhere =>
        -- the first piece is neither empty nor a dot, so it stands for a component
        have hslash : c ≠ '/' := by
          rintro rfl
          exact habsolute (by simp [isAbsolute, hc])
        obtain ⟨piece, pieces, hp⟩ :=
          List.exists_cons_of_ne_nil (Text.splitOnChar_ne_nil '/' rest)
        have hpieces : p.pieces = String.ofList (c :: piece) :: pieces.map String.ofList := by
          rw [Path.pieces, hc, Text.splitOnChar, if_neg hslash, hp]
          rfl
        rw [hpieces] at h hhere
        have hfirst := List.filterMap_eq_nil_iff.mp h _ List.mem_cons_self
        unfold componentOf? at hfirst
        split at hfirst
        · next hdot =>
          simp only [Bool.or_eq_true, decide_eq_true_eq] at hdot
          rcases hdot with hempty | hdot
          · rw [← String.toList_inj, String.toList_ofList] at hempty
            cases hempty
          · exact hhere (by rw [hdot]; rfl)
        · split at hfirst <;> cases hfirst
  · rintro rfl
    rfl

/-- What the pieces of a path stand for is the same in all its spellings. -/
theorem inner_eq_of_same (h : p.same q) : p.inner = q.inner := by
  rw [inner_eq_filter, inner_eq_filter, same_iff.mp h]

/-- All spellings of a path are absolute or none. -/
theorem isAbsolute_eq_of_same (h : p.same q) : p.isAbsolute = q.isAbsolute := by
  rw [Bool.eq_iff_iff, isAbsolute_iff, isAbsolute_iff, same_iff.mp h]

/-- All spellings of a path are empty or none. -/
theorem eq_empty_iff_of_same (h : p.same q) : p = "" ↔ q = "" := by
  rw [← components_eq_nil_iff, ← components_eq_nil_iff, same_iff.mp h]

/-- All spellings of a path have the same name at their end, if any. -/
theorem fileName?_eq_of_same (h : p.same q) : p.fileName? = q.fileName? := by
  rw [fileName?, fileName?, same_iff.mp h]

/-! ## Names behind directories -/

/-- What comes behind the pieces of a path comes behind its components. -/
theorem components_eq_append {more : List PathComponent} (habsolute : q.isAbsolute = p.isAbsolute)
    (hhead : q.pieces.head? = p.pieces.head?) (hinner : q.inner = p.inner ++ more) :
    q.components = p.components ++ more := by
  have hcomponents : ∀ r : Path, r.components = if r.isAbsolute then .root :: r.inner
      else if r.pieces.head? = some "." then .here :: r.inner else r.inner := fun _ => rfl
  rw [hcomponents q, hcomponents p, habsolute, hhead, hinner]
  split
  · rfl
  · split <;> rfl

/-- A relative path behind a directory comes behind its components. -/
theorem components_join (hp : p ≠ "") {name : Path} (hname : name.isAbsolute = false) :
    (p.join name).components = p.components ++ name.inner := by
  have hnil : p.toList ≠ [] := fun h => hp (String.toList_eq_nil_iff.mp h)
  have hhead : ∀ text : List Char, ((p.toList ++ text).head? = some '/') = (p.toList.head? = some '/') :=
    fun text => by rw [List.head?_append_of_ne_nil _ hnil]
  have hne : ¬ (name.isAbsolute = true ∨ p = "") := by simp [hname, hp]
  unfold join
  rw [if_neg (by simpa using hne)]
  split
  · next hlast =>
    -- the slash is there, and the empty piece behind it makes room for the name
    obtain ⟨text, htext⟩ := List.getLast?_eq_some_iff.mp hlast
    obtain ⟨first, rest, hsplit⟩ := List.exists_cons_of_ne_nil (Text.splitOnChar_ne_nil '/' text)
    have hpieces : p.pieces = (Text.splitOnChar '/' text).map String.ofList ++ [""] := by
      rw [pieces, htext, Text.splitOnChar_append, List.map_append]
      rfl
    have hjoin : (p ++ name).pieces = (Text.splitOnChar '/' text).map String.ofList ++ name.pieces := by
      rw [pieces, String.toList_append, htext, List.append_assoc, List.singleton_append,
        Text.splitOnChar_append, List.map_append]
      rfl
    refine components_eq_append ?_ ?_ ?_
    · simp only [isAbsolute, String.toList_append, hhead]
    · rw [hjoin, hpieces, hsplit]
      rfl
    · rw [inner, inner, inner, hjoin, hpieces, List.filterMap_append, List.filterMap_append]
      simp [componentOf?]
  · have hjoin : (p ++ "/" ++ name).pieces = p.pieces ++ name.pieces := by
      rw [pieces, String.toList_append, String.toList_append, List.append_assoc]
      exact (congrArg (List.map String.ofList) (Text.splitOnChar_append p.toList name.toList)).trans
        List.map_append
    obtain ⟨first, rest, hsplit⟩ := List.exists_cons_of_ne_nil (Text.splitOnChar_ne_nil '/' p.toList)
    refine components_eq_append ?_ ?_ ?_
    · simp only [isAbsolute, String.toList_append, List.append_assoc, hhead]
    · rw [hjoin, pieces, hsplit]
      rfl
    · rw [inner, inner, inner, hjoin, List.filterMap_append]

/-- A name behind all spellings of a directory gives spellings of one path. -/
theorem same_join (h : p.same q) (name : Path) : (p.join name).same (q.join name) := by
  rw [same_iff]
  by_cases hname : name.isAbsolute = true ∨ p = ""
  · have hname' : name.isAbsolute = true ∨ q = "" := by rwa [← eq_empty_iff_of_same h]
    rw [join, join, if_pos (by simpa using hname), if_pos (by simpa using hname')]
  · obtain ⟨hrelative, hp⟩ := not_or.mp hname
    rw [Bool.not_eq_true] at hrelative
    have hq : q ≠ "" := fun hq => hp ((eq_empty_iff_of_same h).mpr hq)
    rw [components_join hp hrelative, components_join hq hrelative, same_iff.mp h]

/-! ## Paths that end in a name -/

/-- Whether a path ends in the name of a file, and not in a slash or a dot behind it. -/
def EndsInName (p : Path) : Prop := ∃ name, p.fileName? = some name ∧ p.pieces.getLast? = some name

/-- The pieces of a path that ends in a name. -/
theorem EndsInName.exists_pieces (h : p.EndsInName) : ∃ name before, p.fileName? = some name ∧
    p.pieces = before ++ [name] ∧ componentOf? name = some (.name name) := by
  obtain ⟨name, hname, hlast⟩ := h
  obtain ⟨before, hpieces⟩ := List.getLast?_eq_some_iff.mp hlast
  refine ⟨name, before, hname, hpieces, ?_⟩
  have hmem : PathComponent.name name ∈ p.inner := by
    rw [inner_eq_filter, List.mem_filter]
    refine ⟨?_, by simp⟩
    unfold fileName? at hname
    split at hname
    · next text hl =>
      cases hname
      exact List.mem_of_getLast? hl
    · cases hname
  obtain ⟨piece, -, hpiece⟩ := List.mem_filterMap.mp hmem
  obtain rfl := piece_of_componentOf hpiece
  exact hpiece

end Path

/-! ## Where spellings lead -/

namespace FileTree

variable {t : FileTree} {p q : Path} {start location : Location} {text : String}

/-- Whether pieces lead to a directory. -/
def Enters (t : FileTree) (start : Location) (pieces : List String) (location : Location) : Prop :=
  t.follow start pieces = .ok location ∧ t.find? location = some .directory

/-- Pieces that lead to a directory start from one. -/
theorem Enters.find?_start {pieces : List String} (h : t.Enters start pieces location) :
    t.find? start = some .directory := by
  cases pieces with
  | nil =>
    obtain ⟨hfollow, hdirectory⟩ := h
    cases hfollow
    exact hdirectory
  | cons piece rest => exact (follow_cons_eq_ok.mp h.1).1

/-- Pieces lead to a directory as the components do that they stand for. -/
theorem enters_iff (pieces : List String) : t.Enters start pieces location ↔
    t.Enters start ((pieces.filterMap Path.componentOf?).map PathComponent.piece) location := by
  induction pieces generalizing start with
  | nil => rfl
  | cons piece rest ih =>
    cases hc : Path.componentOf? piece with
    | none =>
      have htrivial : piece = "" ∨ piece = "." := by
        unfold Path.componentOf? at hc
        split at hc
        · next h => simpa using h
        · split at hc <;> cases hc
      rw [List.filterMap_cons_none hc, ← ih, Enters, follow_cons_eq_ok, if_pos htrivial]
      exact ⟨fun h => ⟨h.1.2, h.2⟩, fun h => ⟨⟨Enters.find?_start h, h.1⟩, h.2⟩⟩
    | some c =>
      rw [List.filterMap_cons_some hc, List.map_cons, Path.piece_of_componentOf hc]
      simp only [Enters, follow_cons_eq_ok] at ih ⊢
      rw [and_assoc, and_assoc, ih]

/-- Where a path starts from. -/
def base (t : FileTree) (p : Path) : Location := if p.isAbsolute then [] else t.workingDirectory

/-- All spellings of a path lead to the same directory, or none to any. -/
theorem directory_iff_of_same (h : p.same q) :
    (t.locate p = .ok location ∧ t.find? location = some .directory) ↔
      (t.locate q = .ok location ∧ t.find? location = some .directory) := by
  have hpath : ∀ r : Path, r ≠ "" → ((t.locate r = .ok location ∧
      t.find? location = some .directory) ↔
        t.Enters (t.base r) (r.inner.map PathComponent.piece) location) := by
    intro r hr
    rw [locate, if_neg hr]
    exact enters_iff r.pieces
  by_cases hp : p = ""
  · rw [hp, (Path.eq_empty_iff_of_same h).mp hp]
  · have hq : q ≠ "" := fun hq => hp ((Path.eq_empty_iff_of_same h).mpr hq)
    rw [hpath p hp, hpath q hq, base, base, Path.inner_eq_of_same h, Path.isAbsolute_eq_of_same h]

/-- A path is a directory if it leads to one. -/
theorem isDirectory_iff : t.isDirectory p = true ↔
    ∃ location, t.locate p = .ok location ∧ t.find? location = some .directory := by
  unfold isDirectory entry
  cases t.locate p with
  | error e => simp [bind, Except.bind]
  | ok location =>
    rcases h : t.find? location with - | ⟨text | _⟩ <;> simp [bind, Except.bind, h]

/-- All spellings of a path are directories or none. -/
theorem isDirectory_eq_of_same (h : p.same q) : t.isDirectory p = t.isDirectory q := by
  rw [Bool.eq_iff_iff, isDirectory_iff, isDirectory_iff]
  simp only [directory_iff_of_same h]

/-- A name leads on from a directory. -/
theorem follow_append_eq_ok {before : List String} {name : String}
    (hname : Path.componentOf? name = some (.name name)) :
    t.follow start (before ++ [name]) = .ok location ↔
      ∃ directory, t.Enters start before directory ∧ location = directory ++ [name] := by
  have hne : ¬ (name = "" ∨ name = ".") ∧ name ≠ ".." := by
    unfold Path.componentOf? at hname
    split at hname
    · cases hname
    · next h =>
      split at hname
      · cases hname
      · next hup => exact ⟨by simpa using h, hup⟩
  induction before generalizing start with
  | nil =>
    rw [List.nil_append, follow_cons_eq_ok, if_neg hne.1, if_neg hne.2, follow, Except.ok.injEq]
    constructor
    · rintro ⟨hdirectory, rfl⟩
      exact ⟨start, ⟨rfl, hdirectory⟩, rfl⟩
    · rintro ⟨directory, ⟨hfollow, hdirectory⟩, rfl⟩
      cases hfollow
      exact ⟨hdirectory, rfl⟩
  | cons piece rest ih =>
    rw [List.cons_append, follow_cons_eq_ok]
    simp only [ih, Enters, follow_cons_eq_ok, and_assoc, exists_and_left]

/-- All spellings of a path that end in a name lead to the same place, or none to any. -/
theorem locate_eq_ok_of_same (h : p.same q) (hp : p.EndsInName) (hq : q.EndsInName) :
    t.locate p = .ok location ↔ t.locate q = .ok location := by
  obtain ⟨name, before, hname, hpieces, hcomponent⟩ := hp.exists_pieces
  obtain ⟨name', before', hname', hpieces', -⟩ := hq.exists_pieces
  obtain rfl : name = name' := by
    rw [Path.fileName?_eq_of_same h, hname'] at hname
    exact (Option.some.inj hname).symm
  have hinner := Path.inner_eq_of_same h
  rw [Path.inner, Path.inner, hpieces, hpieces', List.filterMap_append, List.filterMap_append] at hinner
  have hpe : p ≠ "" := by
    rintro rfl
    cases hname
  have hqe : q ≠ "" := fun hqe => hpe ((Path.eq_empty_iff_of_same h).mpr hqe)
  rw [locate, locate, if_neg hpe, if_neg hqe, hpieces, hpieces', follow_append_eq_ok hcomponent,
    follow_append_eq_ok hcomponent, Path.isAbsolute_eq_of_same h]
  simp only [enters_iff before, enters_iff before', List.append_cancel_right hinner]

/-- So they read the same. -/
theorem read_eq_ok_of_same (h : p.same q) (hp : p.EndsInName) (hq : q.EndsInName) :
    t.read p = .ok text ↔ t.read q = .ok text := by
  rw [read_eq_ok, read_eq_ok]
  simp only [locate_eq_ok_of_same h hp hq]

end FileTree

end QueryBook
