import Mathlib.Data.List.Induction
import Mathlib.Data.List.Nodup
import Mathlib.Data.List.Perm.Subperm
import QueryBook.Proofs.Identifiers
import QueryBook.Proofs.SharedStructs

/-!
# Views of fields

The fields of a block are named one after the other, each under two names, and no name is given twice
in a block: one that is taken is numbered. No number is passed over, so the search for a free name
ends. What is passed with the SQL of a query are its parameters under these names.
-/

namespace QueryBook

namespace FieldView

variable {naming : Naming} {taken taken' : List String} {name made : String}

/-! ## Free names -/

/-- A numbered name, but for the first, has its number behind it. -/
theorem numbered_eq (name : String) {n : Nat} (h : n ≠ 1) :
    numbered name n = name ++ toString n := by
  rw [numbered, if_neg h]
  rfl

/-- The first numbered name is the name. -/
theorem numbered_one (name : String) : numbered name 1 = name := if_pos rfl

/-- Different numbers give different names. -/
theorem numbered_injective (name : String) : Function.Injective (numbered name) := by
  -- A name that has a number behind it is not the name alone.
  have longer (n : Nat) : name ++ toString n ≠ name := by
    intro h
    have hlength := congrArg String.length h
    have hempty : toString n = "" := by
      rw [← String.length_eq_zero_iff]
      rw [String.length_append] at hlength
      omega
    exact Nat.repr_ne_empty hempty
  intro m n h
  by_cases hm : m = 1
  · by_cases hn : n = 1
    · rw [hm, hn]
    · rw [hm, numbered_one, numbered_eq name hn] at h
      exact absurd h.symm (longer n)
  · rw [numbered_eq name hm] at h
    by_cases hn : n = 1
    · rw [hn, numbered_one] at h
      exact absurd h (longer m)
    · rw [numbered_eq name hn] at h
      have hrepr : m.repr = n.repr := (String.append_right_inj name).mp h
      have hdigits : Nat.toDigits 10 m = Nat.toDigits 10 n := by
        rw [← Nat.toList_repr, ← Nat.toList_repr, hrepr]
      rw [← Nat.ofDigitChars_ten_toDigits (n := m), hdigits, Nat.ofDigitChars_ten_toDigits]

/-- There is a number that makes a name free, and the least one is taken. -/
theorem exists_freeName (taken : List String) (name : String) :
    ∃ n, 1 ≤ n ∧ freeName taken name = numbered name n ∧ numbered name n ∉ taken ∧
      ∀ m, 1 ≤ m → m < n → numbered name m ∈ taken := by
  have hmap : freeName taken name =
      (((List.range' 1 (taken.length + 1)).find?
        fun n => !taken.contains (numbered name n)).map (numbered name)).getD name := by
    rw [freeName, List.find?_map]
    rfl
  cases hfind : (List.range' 1 (taken.length + 1)).find?
      fun n => !taken.contains (numbered name n) with
  | none =>
    -- There are more candidates than names taken, and no two of them are the same.
    have all : (List.range' 1 (taken.length + 1)).map (numbered name) ⊆ taken := by
      intro c hc
      obtain ⟨n, hn, rfl⟩ := List.mem_map.mp hc
      simpa using List.find?_eq_none.mp hfind n hn
    have distinct : ((List.range' 1 (taken.length + 1)).map (numbered name)).Nodup :=
      (List.nodup_range' 1).map (numbered_injective name)
    have hle := (List.subperm_of_subset distinct all).length_le
    rw [List.length_map, List.length_range'] at hle
    omega
  | some n =>
    obtain ⟨hfree, hmem, hleast⟩ := List.find?_range'_eq_some.mp hfind
    refine ⟨n, (List.mem_range'_1.mp hmem).1, by rw [hmap, hfind]; rfl, by simpa using hfree, ?_⟩
    intro m hm hlt
    simpa using hleast m hm hlt

/-- How a name is kept apart from those taken: it stays as it is if it is free, else it gets the least
number from 2 on that makes it free. -/
def IsApart (taken : List String) (name made : String) : Prop :=
  (name ∉ taken ∧ made = name) ∨
    name ∈ taken ∧ ∃ n, 2 ≤ n ∧ made = name ++ toString n ∧ made ∉ taken ∧
      ∀ m, 2 ≤ m → m < n → name ++ toString m ∈ taken

/-- Free names are kept apart in this way. -/
theorem isApart_freeName (taken : List String) (name : String) :
    IsApart taken name (freeName taken name) := by
  obtain ⟨n, hn, hmade, hfree, hleast⟩ := exists_freeName taken name
  by_cases h : n = 1
  · rw [h, numbered_one] at hmade hfree
    exact .inl ⟨hfree, hmade⟩
  · have hfirst : name ∈ taken := by
      have := hleast 1 (Nat.le_refl 1) (by omega)
      rwa [numbered_one] at this
    refine .inr ⟨hfirst, n, by omega, ?_, ?_, ?_⟩
    · rw [hmade, numbered_eq name h]
    · rwa [hmade]
    · intro m hm hlt
      have := hleast m (by omega) hlt
      rwa [numbered_eq name (by omega)] at this

/-- A name that is kept apart is not taken. -/
theorem IsApart.not_mem (h : IsApart taken name made) : made ∉ taken := by
  rcases h with ⟨hfree, rfl⟩ | ⟨-, n, -, -, hfree, -⟩
  · exact hfree
  · exact hfree

/-- The order of the names taken does not matter. -/
theorem IsApart.congr (h : ∀ x, x ∈ taken ↔ x ∈ taken') (ha : IsApart taken name made) :
    IsApart taken' name made := by
  simpa only [IsApart, h] using ha

/-- Whether a name ends in a digit. -/
def EndsInDigit (name : String) : Prop := ∃ c, c.isDigit = true ∧ name.toList.getLast? = some c

instance (name : String) : Decidable (EndsInDigit name) :=
  decidable_of_iff (name.toList.getLast?.any Char.isDigit = true) <| by
    rw [Option.any_eq_true]
    exact exists_congr fun _ => and_comm

/-- A number ends in a digit. -/
theorem endsInDigit_append (name : String) (n : Nat) : EndsInDigit (name ++ toString n) := by
  have hdigits : (toString n).toList = Nat.toDigits 10 n := Nat.toList_repr
  have hne : Nat.toDigits 10 n ≠ [] := Nat.toDigits_ne_nil
  have hdigit : ((Nat.toDigits 10 n).getLast hne).isDigit = true :=
    Nat.isDigit_of_mem_toDigits (by decide) (by decide) (List.getLast_mem hne)
  refine ⟨_, hdigit, ?_⟩
  rw [String.toList_append, hdigits, List.getLast?_append, List.getLast?_eq_some_getLast hne]
  rfl

/-- So a name that does not end in a digit was not numbered. -/
theorem IsApart.eq (h : IsApart taken name made) (hd : ¬ EndsInDigit made) : made = name := by
  rcases h with ⟨-, rfl⟩ | ⟨-, n, -, rfl, -, -⟩
  · rfl
  · exact absurd (endsInDigit_append name n) hd

/-! ## The views of a block -/

/-- What is said of the views of fields that come behind others, whose names are taken. -/
theorem ofFields_eq_append {fields : List Field} {names params : List String}
    {before after : List FieldView} {v : FieldView}
    (h : ofFields naming names params fields = before ++ v :: after) :
    ∃ f, fields[before.length]? = some f ∧
      IsApart (before.map (·.name) ++ names) (naming.exported f.name) v.name ∧
      IsApart (before.map (·.param) ++ params) (naming.param f.name) v.param := by
  induction before generalizing fields names params with
  | nil =>
    cases fields with
    | nil => cases h
    | cons f rest =>
      cases h
      exact ⟨f, rfl, isApart_freeName _ _, isApart_freeName _ _⟩
  | cons first before ih =>
    cases fields with
    | nil => cases h
    | cons f rest =>
      rw [ofFields, List.cons_append, List.cons.injEq] at h
      obtain ⟨hfirst, hrest⟩ := h
      obtain ⟨g, hg, hname, hparam⟩ := ih hrest
      rw [← hfirst]
      exact ⟨g, hg, hname.congr (by simp [or_left_comm]), hparam.congr (by simp [or_left_comm])⟩

/-- The types of views are those of the fields. -/
theorem map_type_ofFields (naming : Naming) (names params : List String) (fields : List Field) :
    (ofFields naming names params fields).map (·.type) = fields.map (·.type) := by
  induction fields generalizing names params with
  | nil => rfl
  | cons f rest ih => rw [ofFields, List.map_cons, ih, List.map_cons]

/-- A list whose every item is new has distinct items. -/
theorem nodup_of_split {views : List FieldView} {g : FieldView → String}
    (h : ∀ before v after, views = before ++ v :: after → g v ∉ before.map g) :
    (views.map g).Nodup := by
  induction views using List.reverseRecOn with
  | nil => exact List.nodup_nil
  | append_singleton views v ih =>
    rw [List.map_append, List.map_singleton, ← List.concat_eq_append, List.nodup_concat]
    refine ⟨h views v [] rfl, ih fun before w after hviews => ?_⟩
    exact h before w (after ++ [v]) (by rw [hviews, List.append_assoc, List.cons_append])

/-- What the views of a block are: one for each field, in order, with its type and its comment, under
two names that are made of the field's name and kept apart from those of the views before. -/
structure AreViews (naming : Naming) (fields : List Field) (views : List FieldView) : Prop where
  types : views.map (·.type) = fields.map (·.type)
  comments : views.map (·.comment) = fields.map (·.comment.lines)
  names : (views.map (·.name)).Nodup
  params : (views.map (·.param)).Nodup
  named : ∀ before v after, views = before ++ v :: after → ∃ f, fields[before.length]? = some f ∧
    IsApart (before.map (·.name)) (naming.exported f.name) v.name ∧
      IsApart (before.map (·.param)) (naming.param f.name) v.param

/-- The views of a block are such. -/
theorem areViews_ofFields (naming : Naming) (fields : List Field) :
    AreViews naming fields (ofFields naming [] [] fields) := by
  have named : ∀ before v after, ofFields naming [] [] fields = before ++ v :: after →
      ∃ f, fields[before.length]? = some f ∧
        IsApart (before.map (·.name)) (naming.exported f.name) v.name ∧
          IsApart (before.map (·.param)) (naming.param f.name) v.param := by
    intro before v after h
    have := ofFields_eq_append h
    rwa [List.append_nil, List.append_nil] at this
  refine ⟨map_type_ofFields naming [] [] fields, map_comment_ofFields naming [] [] fields, ?_, ?_,
    named⟩
  · refine nodup_of_split fun before v after h => ?_
    obtain ⟨f, -, hname, -⟩ := named before v after h
    exact hname.not_mem
  · refine nodup_of_split fun before v after h => ?_
    obtain ⟨f, -, -, hparam⟩ := named before v after h
    exact hparam.not_mem

/-- The names of a view are those of a field, kept apart from some others. -/
theorem exists_isApart_of_mem {fields : List Field} {v : FieldView}
    (h : v ∈ ofFields naming [] [] fields) : ∃ f ∈ fields, ∃ taken taken',
      IsApart taken (naming.exported f.name) v.name ∧
        IsApart taken' (naming.param f.name) v.param := by
  obtain ⟨before, after, hviews⟩ := List.append_of_mem h
  obtain ⟨f, hf, hname, hparam⟩ := (areViews_ofFields naming fields).named before v after hviews
  exact ⟨f, List.mem_of_getElem? hf, _, _, hname, hparam⟩

end FieldView

/-! ## Names that are avoided -/

namespace Naming

/-- A name is kept apart from reserved ones, if none of these is another one with an underscore. -/
theorem avoiding_not_mem {reserved : List String} (h : ∀ r ∈ reserved, r ++ "_" ∉ reserved)
    (name : String) : avoiding reserved name ∉ reserved := by
  unfold avoiding
  split
  · next hname => exact h name (List.contains_iff_mem.mp hname)
  · next hname => exact fun hmem => hname (List.contains_iff_mem.mpr hmem)

/-- No exported name is reserved. -/
theorem exported_not_mem_reserved (name : String) : standard.exported name ∉ reservedExports :=
  avoiding_not_mem (by decide) _

/-- No parameter name is reserved. -/
theorem param_not_mem_reserved (name : String) : standard.param name ∉ reservedLocals :=
  avoiding_not_mem (by decide) _

/-- No parameter name is a keyword. -/
theorem param_not_mem_keywords (name : String) : standard.param name ∉ Identifier.keywords := by
  have avoided : ∀ r ∈ reservedLocals, r ++ "_" ∉ Identifier.keywords := by decide
  show avoiding reservedLocals (Identifier.ofName name false) ∉ Identifier.keywords
  unfold avoiding
  split
  · next hname => exact avoided _ (List.contains_iff_mem.mp hname)
  · exact Identifier.ofName_not_mem_keywords name

/-- Reserved names and keywords do not end in digits, so they are not numbered names. -/
theorem not_endsInDigit_of_mem :
    ∀ r ∈ reservedExports ++ reservedLocals ++ Identifier.keywords, ¬ FieldView.EndsInDigit r := by
  decide

end Naming

/-- The views of fields use no keyword and no name that the code uses itself. -/
theorem FieldView.not_mem_avoided {fields : List Field} {v : FieldView}
    (h : v ∈ ofFields .standard [] [] fields) : v.param ∉ Identifier.keywords ∧
      v.param ∉ Naming.reservedLocals ∧ v.name ∉ Naming.reservedExports := by
  obtain ⟨f, -, taken, taken', hname, hparam⟩ := exists_isApart_of_mem h
  refine ⟨fun hmem => ?_, fun hmem => ?_, fun hmem => ?_⟩
  · rw [hparam.eq (Naming.not_endsInDigit_of_mem _ (List.mem_append_right _ hmem))] at hmem
    exact Naming.param_not_mem_keywords _ hmem
  · rw [hparam.eq (Naming.not_endsInDigit_of_mem _ (by simp [hmem]))] at hmem
    exact Naming.param_not_mem_reserved _ hmem
  · rw [hname.eq (Naming.not_endsInDigit_of_mem _ (by simp [hmem]))] at hmem
    exact Naming.exported_not_mem_reserved _ hmem

/-! ## What is passed with the SQL -/

namespace QueryView

/-- How a view passes the parameters of a query: each of them once, in order, under the names of their
views, either one by one or, if the block is shared or has more than three fields, as the fields of a
struct. -/
structure PassesParams (naming : Naming) (q : Query) (v : QueryView) : Prop where
  args : v.args = if q.params.sharedName.isSome ∨ 3 < q.params.size
    then (FieldView.ofFields naming [] [] q.params.list).map fun f => "args." ++ f.name
    else (FieldView.ofFields naming [] [] q.params.list).map (·.param)
  inline : v.params = if q.params.sharedName.isSome ∨ 3 < q.params.size then []
    else FieldView.ofFields naming [] [] q.params.list
  bundle : v.bundle.map (·.fields) = if q.params.sharedName.isSome ∨ 3 < q.params.size
    then some (FieldView.ofFields naming [] [] q.params.list) else none
  length : v.args.length = q.params.size
  distinct : v.args.Nodup

/-- The parameters of a query are bundled if they are shared or more than three. -/
theorem isBundled_iff {q : Query} :
    isBundled q = true ↔ q.params.sharedName.isSome ∨ 3 < q.params.size := by
  rw [isBundled, Bool.or_eq_true, decide_eq_true_eq]
  rfl

/-- What is passed with the SQL are the fields of the struct, if there is one, else the
parameters. -/
theorem args_ofQuery (naming : Naming) (declared : List String) (q : Query) :
    (ofQuery naming declared q).args =
      ((ofQuery naming declared q).bundle.map fun s => s.fields.map fun f => "args." ++ f.name).getD
        ((ofQuery naming declared q).params.map (·.param)) := by
  unfold ofQuery
  dsimp only
  cases bundleOf naming (declaring declared (outOf naming declared q)) q with
  | none => rfl
  | some s => rfl

/-- The struct of the parameters has the views of their fields. -/
theorem map_fields_bundle (naming : Naming) (declared : List String) (q : Query) :
    (ofQuery naming declared q).bundle.map (·.fields) =
      if isBundled q then some (FieldView.ofFields naming [] [] q.params.list) else none := by
  show (bundleOf naming (declaring declared (outOf naming declared q)) q).map (·.fields) = _
  unfold bundleOf
  split <;> rfl

/-- What is passed with the SQL are the views of the parameters, in order. -/
theorem args_eq (naming : Naming) (declared : List String) (q : Query) :
    (ofQuery naming declared q).args =
      if isBundled q then (FieldView.ofFields naming [] [] q.params.list).map fun f => "args." ++ f.name
      else (FieldView.ofFields naming [] [] q.params.list).map (·.param) := by
  have hbundle := map_fields_bundle naming declared q
  have hparams : (ofQuery naming declared q).params =
      if isBundled q then [] else FieldView.ofFields naming [] [] q.params.list := rfl
  rw [args_ofQuery, hparams]
  by_cases h : isBundled q = true
  · rw [if_pos h, Option.map_eq_some_iff] at hbundle
    obtain ⟨s, hs, hfields⟩ := hbundle
    rw [hs, if_pos h, if_pos h, ← hfields]
    rfl
  · rw [if_neg h, Option.map_eq_none_iff] at hbundle
    rw [hbundle, if_neg h, if_neg h]
    rfl

/-- Every view passes the parameters of its query. -/
theorem passesParams_ofQuery (naming : Naming) (declared : List String) (q : Query) :
    PassesParams naming q (ofQuery naming declared q) := by
  have views := FieldView.areViews_ofFields naming q.params.list
  have hlength : (FieldView.ofFields naming [] [] q.params.list).length = q.params.size := by
    have := congrArg List.length views.types
    rwa [List.length_map, List.length_map] at this
  have hbundled {α : Type} (x y : α) :
      (if isBundled q then x else y) = if q.params.sharedName.isSome ∨ 3 < q.params.size then x else y :=
    if_congr isBundled_iff rfl rfl
  have hargs := args_eq naming declared q
  refine ⟨hargs.trans (hbundled _ _), hbundled _ _,
    (map_fields_bundle naming declared q).trans (hbundled _ _), ?_, ?_⟩
  · rw [hargs]
    split <;> rw [List.length_map, hlength]
  · rw [hargs]
    split
    · -- Names in front of which the struct is named are as distinct as without it.
      have distinct := views.names.map fun _ _ => (String.append_right_inj "args.").mp
      rwa [List.map_map] at distinct
    · exact views.params

end QueryView

/-- **Views of fields lose and merge nothing.** The views of a block are one for each field, in order,
with its type and its comment. Each has the two names that the naming gives the field, numbered as
far as needed to keep them apart from those before. Under the rules of generated code no parameter is
a keyword or a name that methods use, and no struct field has a name of the library. The view of a
query passes these parameters, once each and in order. -/
theorem field_views_exact (naming : Naming) :
    (∀ fields : Fields, FieldView.AreViews naming fields.list
        (FieldView.ofFields naming [] [] fields.list)) ∧
      (∀ fields : Fields, ∀ v ∈ FieldView.ofFields .standard [] [] fields.list,
        v.param ∉ Identifier.keywords ∧ v.param ∉ Naming.reservedLocals ∧
          v.name ∉ Naming.reservedExports) ∧
      ∀ (declared : List String) (q : Query),
        (∀ s ∈ (QueryView.ofQuery naming declared q).out,
          s.fields = FieldView.ofFields naming [] [] q.out.list) ∧
        QueryView.PassesParams naming q (QueryView.ofQuery naming declared q) := by
  refine ⟨fun fields => FieldView.areViews_ofFields naming fields.list,
    fun fields v hv => FieldView.not_mem_avoided hv, fun declared q => ⟨?_, ?_⟩⟩
  · intro s hs
    replace hs : s ∈ QueryView.outOf naming declared q := hs
    unfold QueryView.outOf at hs
    split at hs
    · cases hs
    · cases hs
      rfl
  · exact QueryView.passesParams_ofQuery naming declared q

end QueryBook
