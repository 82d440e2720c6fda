import QueryBook.Accessor.Code
import QueryBook.Proofs.Grammar
import QueryBook.Proofs.Identifiers
import QueryBook.Proofs.SqlLiterals
import Mathlib.Data.List.Nodup

/-!
# Exported names and methods

An exported name is made of the words of a name, its stretches of letters and digits: each begins in
upper case, and they are run together. What is not a letter or a digit is lost, and so is the
difference between an initial in lower and in upper case. So distinct queries can have one method;
`methods_distinct_iff` says exactly when.
-/

namespace QueryBook

/-! ## Names that meet -/

namespace Identifier

/-- Whether two names become one exported name: both begin with a letter or neither does, and their
words are run together to the same text, a final `Id` read as `ID`. -/
def Meet (a b : String) : Prop :=
  startsWithLetter a.toList = startsWithLetter b.toList ∧
    raised (capitals a.toList) = raised (capitals b.toList)

instance (a b : String) : Decidable (Meet a b) := inferInstanceAs (Decidable (_ ∧ _))

/-- Names have one exported identifier exactly if they meet. -/
theorem ofName_eq_iff {a b : String} : ofName a true = ofName b true ↔ Meet a b := by
  have hplain (name : String) : plain true name.toList = raised (capitals name.toList) := by
    rw [plain, joinWords_body, (joinWords_eq _).1]
  rw [ofName_true, ofName_true, String.ofList_inj, unescaped_eq_iff, hplain, hplain]
  rfl

end Identifier

/-! ## Reserved names -/

namespace Naming

/-- Names that do not look like avoided ones are kept apart. -/
theorem avoiding_eq_iff {reserved : List String} {a b : String}
    (ha : ∀ r ∈ reserved, a ≠ r ++ "_") (hb : ∀ r ∈ reserved, b ≠ r ++ "_") :
    avoiding reserved a = avoiding reserved b ↔ a = b := by
  constructor
  · intro h
    unfold avoiding at h
    split at h
    · next hra =>
      split at h
      · exact (String.append_left_inj _).mp h
      · exact absurd h.symm (hb a (List.contains_iff_mem.mp hra))
    · split at h
      · next hrb => exact absurd h (ha b (List.contains_iff_mem.mp hrb))
      · exact h
  · intro h
    rw [h]

/-- An exported identifier does not look like an avoided name. -/
theorem ofName_ne_avoided (name : String) :
    ∀ r ∈ reservedExports, Identifier.ofName name true ≠ r ++ "_" := by
  intro r hr
  apply Identifier.ofName_ne_append_underscore
  exact head?_reserved r (List.mem_append_left _ hr)

/-- Exported names are the same exactly if the names meet. -/
theorem exported_eq_iff {a b : String} :
    standard.exported a = standard.exported b ↔ Identifier.Meet a b :=
  (avoiding_eq_iff (ofName_ne_avoided a) (ofName_ne_avoided b)).trans Identifier.ofName_eq_iff

end Naming

/-! ## Methods -/

/-- The methods of queries are named for them, in order. -/
theorem QueryView.map_method_ofQueries (naming : Naming) (declared : List String)
    (queries : List Query) : (ofQueries naming declared queries).map (·.method) =
      (queries.map (·.name)).map naming.exported := by
  induction queries generalizing declared with
  | nil => rfl
  | cons q rest ih =>
    rw [ofQueries, List.map_cons, ih]
    rfl

/-- The beginning of the declaration of a method. -/
def Code.methodHead (name : String) : String := "func (q Queries) " ++ name ++ "("

/-- The section of a query declares its method. -/
theorem Code.exists_methodHead (v : QueryView) :
    ∃ before after, querySection v = before ++ methodHead v.method ++ after := by
  have head := lines_cons
    ("func (q Queries) " ++ v.method ++ "(" ++ signature v ++ ") " ++ returns v ++ " \x7b") []
  rw [querySection, head]
  unfold methodHead
  exact ⟨lines ["", "// *** " ++ v.label ++ " ***"] ++ declared v.out ++ declared v.bundle ++
    "\n" ++ commentLines "// " v.comment, signature v ++ ") " ++ returns v ++ " \x7b" ++ "\n" ++
      lines [] ++ (lines (body v) ++ lines ["\x7d"]), by simp only [String.append_assoc]⟩

/-- **When methods are distinct.** The code for a document declares one method for each query, named
for it. The methods have distinct names exactly if no two queries have names that meet. -/
theorem methods_distinct_iff [Diagnosis] {source : String} {queries : Queries}
    (h : Queries.parse source = .ok queries) (m : Metadata) (file : String) (imports : ImportSet) :
    let views := QueryView.ofQueries .standard [] queries.list
    views.map (·.method) = queries.names.map Naming.standard.exported ∧
      (∀ v ∈ views, ∃ before after, Code.ofQueries m .standard file imports queries.list =
        before ++ Code.methodHead v.method ++ after) ∧
      ((views.map (·.method)).Nodup ↔ ∀ q ∈ queries.list, ∀ q' ∈ queries.list,
        q.name ≠ q'.name → ¬ Identifier.Meet q.name q'.name) := by
  have methods := QueryView.map_method_ofQueries .standard [] queries.list
  refine ⟨methods, ?_, ?_⟩
  · intro v hv
    obtain ⟨before, after, hfile⟩ := Code.exists_ofQueries m .standard file imports hv
    obtain ⟨before', after', hsection⟩ := Code.exists_methodHead v
    refine ⟨before ++ before', after' ++ after, ?_⟩
    rw [hfile, hsection]
    simp only [String.append_assoc]
  · have names : (queries.list.map (·.name)).Nodup := Grammar.nodup_names_of_parse h
    rw [methods, List.nodup_map_iff_inj_on names]
    simp only [List.forall_mem_map, Naming.exported_eq_iff]
    exact forall₄_congr fun q _ q' _ => not_imp_not.symm

/-- Queries whose names differ in a separator, in an underscore in front or in a capital, one of them
named like a function of the library. -/
def distinctNames : String :=
  "new:\n  type: exec\n  sql: x\n_new:\n  type: exec\n  sql: x\n" ++
    "list_users:\n  type: exec\n  sql: x\nlistusers:\n  type: exec\n  sql: x\n"

/-- Their methods are distinct. -/
theorem methods_distinct_of_distinct_names :
    Queries.parse distinctNames = .ok ((Queries.parse distinctNames).toOption.getD .empty) ∧
      ((QueryView.ofQueries .standard [] ((Queries.parse distinctNames).toOption.getD .empty).list).map
        (·.method)).Nodup := by
  have h : Queries.parse distinctNames =
      .ok ((Queries.parse distinctNames).toOption.getD .empty) :=
    Grammar.parse_eq_ok (by decide +kernel)
  obtain ⟨-, -, distinct⟩ := methods_distinct_iff h { package := "db" } "a.yaml" .empty
  exact ⟨h, distinct.mpr (by decide +kernel)⟩

/-- Two queries whose names differ in a separator and a capital. -/
def meetingNames : String :=
  "get_user:\n  type: exec\n  sql: x\ngetUser:\n  type: exec\n  sql: y\n"

/-- Both queries are accepted and have one method. -/
theorem methods_not_distinct_of_meeting_names :
    ¬ ∀ (source : String) (queries : Queries), Queries.parse source = .ok queries →
      ((QueryView.ofQueries .standard [] queries.list).map (·.method)).Nodup := by
  intro distinct
  have h : Queries.parse meetingNames = .ok ((Queries.parse meetingNames).toOption.getD .empty) :=
    Grammar.parse_eq_ok (by decide +kernel)
  have := distinct _ _ h
  revert this
  decide +kernel

end QueryBook
