import FamilyPlanner.Foundation.Splitting
import FamilyPlanner.Widget.Providers

/-!
# Filter expressions of a calendar

Commas separate the alternatives of a filter and white space the terms of one
alternative.  Terms without a value and alternatives without a term are dropped;
a filter of which nothing is left matches every event.
-/

namespace FamilyPlanner.Widget

open FamilyPlanner.Foundation

structure FilterTerm where
  prop : String
  val : String
  deriving DecidableEq, Repr

abbrev FilterClause := List FilterTerm

abbrev Filter := List FilterClause

/-- `strings.Fields`. -/
def fields (s : List Char) : List (List Char) := (s.splitOnP isSpace).filter (· ≠ [])

/-- `strings.Contains`. -/
def contains (s sub : String) : Bool := sub.toList <:+: s.toList

section Model

variable (lower : Char → Char)

def toLower (s : List Char) : String := mapRunes lower (String.ofList s)

def parseTerm (tok : List Char) : FilterTerm :=
  match tok.idxOf? ':' with
  | some (i + 1) => ⟨toLower lower (tok.take (i + 1)), toLower lower (tok.drop (i + 2))⟩
  | some 0 | none => ⟨"", toLower lower tok⟩

def parseClause (clauseStr : List Char) : FilterClause :=
  ((fields clauseStr).map (parseTerm lower)).filter fun t => t.val ≠ ""

def parseFilter (s : String) : Filter :=
  ((s.toList.splitOn ',').map (parseClause lower)).filter (· ≠ [])

def filterMatch (f : Filter) (get : String → String) : Bool :=
  if f.length = 0 then true
  else f.any fun clause =>
    clause.all fun t => contains (mapRunes lower (get t.prop)) t.val

end Model

/-! ## What a filter means -/

namespace Filter

def Clause (s : String) (c : List Char) : Prop := Piece (· == ',') s.toList c

def Token (c tok : List Char) : Prop := tok ≠ [] ∧ Piece isSpace c tok

/-- A token before whose first colon something stands tests that property, any
other token the summary and the categories. -/
inductive Reads : List Char → List Char → List Char → Prop
  | property (prop val : List Char) :
      prop ≠ [] → ':' ∉ prop → Reads (prop ++ ':' :: val) prop val
  | bare (tok : List Char) :
      (∀ prop val, tok = prop ++ ':' :: val → ':' ∉ prop → prop = []) → Reads tok [] tok

def Effective (tok : List Char) : Prop := ∃ prop val, Reads tok prop val ∧ val ≠ []

def HasEffective (s : String) : Prop :=
  ∃ c tok, Clause s c ∧ Token c tok ∧ Effective tok

/-- Containment regardless of case. -/
def Satisfied (lower : Char → Char) (get : String → String) (tok : List Char) : Prop :=
  ∃ prop val, Reads tok prop val ∧
    val.map lower <:+: (get (toLower lower prop)).toList.map lower

def Meaning (lower : Char → Char) (s : String) (get : String → String) : Prop :=
  ¬ HasEffective s ∨
    ∃ c, Clause s c ∧ (∃ tok, Token c tok ∧ Effective tok) ∧
      ∀ tok, Token c tok → Effective tok → Satisfied lower get tok

theorem idxOf?_eq_some_iff_append {l : List Char} {a : Char} {i : Nat} :
    l.idxOf? a = some i ↔
      ∃ pre post, l = pre ++ a :: post ∧ a ∉ pre ∧ pre.length = i := by
  rw [List.idxOf?_eq_some_iff]
  constructor
  · rintro ⟨hi, rfl, hbefore⟩
    refine ⟨l.take i, l.drop (i + 1), ?_, ?_, by simp; omega⟩
    · rw [← List.drop_eq_getElem_cons hi, List.take_append_drop]
    · intro hmem
      obtain ⟨j, hj, heq⟩ := List.mem_take_iff_getElem.mp hmem
      exact hbefore j (by omega) heq
  · rintro ⟨pre, post, rfl, hpre, rfl⟩
    refine ⟨by simp, by simp, ?_⟩
    intro j hj heq
    rw [List.getElem_append_left hj] at heq
    exact hpre (heq ▸ List.getElem_mem hj)

theorem mem_fields_iff {c tok : List Char} : tok ∈ fields c ↔ Token c tok := by
  rw [fields, List.mem_filter, mem_splitOnP_iff, Token, and_comm]
  simp

theorem mem_clauses_iff {s : String} {c : List Char} :
    c ∈ s.toList.splitOn ',' ↔ Clause s c := by
  rw [List.splitOn_eq_splitOnP, mem_splitOnP_iff, Clause]

theorem Reads.exists (tok : List Char) : ∃ prop val, Reads tok prop val := by
  by_cases h : ∀ prop val, tok = prop ++ ':' :: val → ':' ∉ prop → prop = []
  · exact ⟨[], tok, .bare tok h⟩
  · push Not at h
    obtain ⟨prop, val, rfl, hcolon, hne⟩ := h
    exact ⟨prop, val, .property prop val hne hcolon⟩

variable {lower : Char → Char}

theorem toList_toLower (s : List Char) : (toLower lower s).toList = s.map lower := by
  rw [toLower, mapRunes, String.toList_ofList, String.toList_ofList]

theorem toLower_eq_empty_iff {s : List Char} : toLower lower s = "" ↔ s = [] := by
  rw [← String.toList_eq_nil_iff, toList_toLower, List.map_eq_nil_iff]

theorem Reads.parseTerm_eq {tok prop val : List Char} (h : Reads tok prop val) :
    parseTerm lower tok = ⟨toLower lower prop, toLower lower val⟩ := by
  cases h with
  | property prop val hne hcolon =>
      have hidx : (prop ++ ':' :: val).idxOf? ':' = some (prop.length - 1 + 1) := by
        rw [Nat.sub_add_cancel (List.length_pos_iff.mpr hne)]
        exact idxOf?_eq_some_iff_append.mpr ⟨prop, val, rfl, hcolon, rfl⟩
      have hlen : prop.length - 1 + 1 = prop.length :=
        Nat.sub_add_cancel (List.length_pos_iff.mpr hne)
      have hdrop : (prop ++ ':' :: val).drop (prop.length + 1) = val := by
        rw [← List.drop_drop, List.drop_left]
        rfl
      rw [parseTerm, hidx]
      simp only [hlen, List.take_left]
      rw [show prop.length - 1 + 2 = prop.length + 1 by omega, hdrop]
  | bare _ hbare =>
      rw [parseTerm]
      split
      · rename_i i hidx
        obtain ⟨pre, post, htok, hpre, hlen⟩ := idxOf?_eq_some_iff_append.mp hidx
        rw [hbare pre post htok hpre] at hlen
        cases hlen
      all_goals rfl

theorem Reads.unique {tok prop val prop' val' : List Char} (h : Reads tok prop val)
    (h' : Reads tok prop' val') : prop' = prop ∧ val' = val := by
  have hsame := (@Reads.parseTerm_eq id _ _ _ h').symm.trans (@Reads.parseTerm_eq id _ _ _ h)
  rw [FilterTerm.mk.injEq] at hsame
  have hid : ∀ s : List Char, (toLower id s).toList = s := by
    intro s
    rw [toList_toLower, List.map_id]
  exact ⟨by rw [← hid prop', hsame.1, hid], by rw [← hid val', hsame.2, hid]⟩

theorem effective_iff (tok : List Char) :
    Effective tok ↔ (parseTerm lower tok).val ≠ "" := by
  obtain ⟨prop, val, hreads⟩ := Reads.exists tok
  rw [hreads.parseTerm_eq, ne_eq, toLower_eq_empty_iff]
  constructor
  · rintro ⟨prop', val', hreads', hne⟩
    rwa [(hreads.unique hreads').2] at hne
  · intro hne
    exact ⟨prop, val, hreads, hne⟩

theorem satisfied_iff (get : String → String) (tok : List Char) :
    Satisfied lower get tok ↔
      contains (mapRunes lower (get (parseTerm lower tok).prop)) (parseTerm lower tok).val := by
  obtain ⟨prop, val, hreads⟩ := Reads.exists tok
  rw [hreads.parseTerm_eq, contains, decide_eq_true_iff, toList_toLower, mapRunes,
    String.toList_ofList]
  constructor
  · rintro ⟨prop', val', hreads', hin⟩
    obtain ⟨rfl, rfl⟩ := hreads.unique hreads'
    exact hin
  · intro hin
    exact ⟨prop, val, hreads, hin⟩

theorem mem_parseClause_iff {c : List Char} {t : FilterTerm} :
    t ∈ parseClause lower c ↔
      ∃ tok, Token c tok ∧ Effective tok ∧ parseTerm lower tok = t := by
  rw [parseClause, List.mem_filter, List.mem_map]
  constructor
  · rintro ⟨⟨tok, htok, rfl⟩, hval⟩
    exact ⟨tok, mem_fields_iff.mp htok,
      (effective_iff tok).mpr (of_decide_eq_true hval), rfl⟩
  · rintro ⟨tok, htok, heff, rfl⟩
    exact ⟨⟨tok, mem_fields_iff.mpr htok, rfl⟩,
      decide_eq_true ((effective_iff tok).mp heff)⟩

theorem parseClause_ne_nil_iff {c : List Char} :
    parseClause lower c ≠ [] ↔ ∃ tok, Token c tok ∧ Effective tok := by
  constructor
  · intro hne
    obtain ⟨t, ht⟩ := List.exists_mem_of_ne_nil _ hne
    obtain ⟨tok, htok, heff, -⟩ := mem_parseClause_iff.mp ht
    exact ⟨tok, htok, heff⟩
  · rintro ⟨tok, htok, heff⟩
    exact List.ne_nil_of_mem (mem_parseClause_iff.mpr ⟨tok, htok, heff, rfl⟩)

theorem mem_parseFilter_iff {s : String} {clause : FilterClause} :
    clause ∈ parseFilter lower s ↔
      ∃ c, Clause s c ∧ (∃ tok, Token c tok ∧ Effective tok) ∧
        parseClause lower c = clause := by
  rw [parseFilter, List.mem_filter, List.mem_map]
  constructor
  · rintro ⟨⟨c, hc, rfl⟩, hne⟩
    exact ⟨c, mem_clauses_iff.mp hc,
      parseClause_ne_nil_iff.mp (of_decide_eq_true hne), rfl⟩
  · rintro ⟨c, hc, hterm, rfl⟩
    exact ⟨⟨c, mem_clauses_iff.mpr hc, rfl⟩,
      decide_eq_true (parseClause_ne_nil_iff.mpr hterm)⟩

theorem parseFilter_eq_nil_iff {s : String} :
    parseFilter lower s = [] ↔ ¬ HasEffective s := by
  rw [List.eq_nil_iff_forall_not_mem]
  constructor
  · rintro hnone ⟨c, tok, hc, htok, heff⟩
    exact hnone _ (mem_parseFilter_iff.mpr ⟨c, hc, ⟨tok, htok, heff⟩, rfl⟩)
  · rintro hnone clause hclause
    obtain ⟨c, hc, ⟨tok, htok, heff⟩, -⟩ := mem_parseFilter_iff.mp hclause
    exact hnone ⟨c, tok, hc, htok, heff⟩

theorem all_parseClause_iff {c : List Char} {get : String → String} :
    ((parseClause lower c).all fun t => contains (mapRunes lower (get t.prop)) t.val) ↔
      ∀ tok, Token c tok → Effective tok → Satisfied lower get tok := by
  rw [List.all_eq_true]
  constructor
  · intro hall tok htok heff
    exact (satisfied_iff get tok).mpr
      (hall _ (mem_parseClause_iff.mpr ⟨tok, htok, heff, rfl⟩))
  · intro hall t ht
    obtain ⟨tok, htok, heff, rfl⟩ := mem_parseClause_iff.mp ht
    exact (satisfied_iff get tok).mp (hall tok htok heff)

theorem filterMatch_of_effective {s : String} (h : HasEffective s)
    (get : String → String) :
    filterMatch lower (parseFilter lower s) get =
      (parseFilter lower s).any fun clause =>
        clause.all fun t => contains (mapRunes lower (get t.prop)) t.val := by
  have hne : (parseFilter lower s).length ≠ 0 := by
    rw [ne_eq, List.length_eq_zero_iff, parseFilter_eq_nil_iff]
    exact not_not_intro h
  rw [filterMatch, if_neg hne]

theorem filterMatch_iff (s : String) (get : String → String) :
    filterMatch lower (parseFilter lower s) get ↔ Meaning lower s get := by
  by_cases h : HasEffective s
  · rw [filterMatch_of_effective h, List.any_eq_true, Meaning, or_iff_right (not_not_intro h)]
    constructor
    · rintro ⟨clause, hclause, hall⟩
      obtain ⟨c, hc, hterm, rfl⟩ := mem_parseFilter_iff.mp hclause
      exact ⟨c, hc, hterm, all_parseClause_iff.mp hall⟩
    · rintro ⟨c, hc, hterm, hall⟩
      exact ⟨_, mem_parseFilter_iff.mpr ⟨c, hc, hterm, rfl⟩, all_parseClause_iff.mpr hall⟩
  · have hnil : parseFilter lower s = [] := parseFilter_eq_nil_iff.mpr h
    rw [hnil]
    exact iff_of_true rfl (.inl h)

theorem parseFilter_comma (s t : String) :
    parseFilter lower (s ++ "," ++ t) = parseFilter lower s ++ parseFilter lower t := by
  have hsplit : (s ++ "," ++ t).toList.splitOn ',' =
      s.toList.splitOn ',' ++ t.toList.splitOn ',' := by
    have hlist : (s ++ "," ++ t).toList = s.toList ++ ',' :: t.toList := by simp
    rw [hlist, List.splitOn_append_cons_self]
  rw [parseFilter, hsplit, List.map_append, List.filter_append, parseFilter, parseFilter]

theorem HasEffective.comma {s : String} (h : HasEffective s) (t : String) :
    HasEffective (s ++ "," ++ t) := by
  have hs : parseFilter id s ≠ [] := by
    rw [ne_eq, parseFilter_eq_nil_iff]
    exact not_not_intro h
  have hst : ¬ parseFilter id (s ++ "," ++ t) = [] := by
    rw [parseFilter_comma, List.append_eq_nil_iff]
    exact fun hnil => hs hnil.1
  rw [parseFilter_eq_nil_iff] at hst
  exact Classical.not_not.mp hst

/-- A filter means what its text says, and a comma joins the events of the two
filters it stands between. -/
theorem filter_meaning (lower : Char → Char) (s : String) :
    (∀ get, filterMatch lower (parseFilter lower s) get ↔ Meaning lower s get) ∧
      ∀ t, HasEffective s → HasEffective t → ∀ get,
        (filterMatch lower (parseFilter lower (s ++ "," ++ t)) get ↔
          filterMatch lower (parseFilter lower s) get ∨
            filterMatch lower (parseFilter lower t) get) := by
  refine ⟨filterMatch_iff s, ?_⟩
  intro t hs ht get
  rw [filterMatch_of_effective (hs.comma t), filterMatch_of_effective hs,
    filterMatch_of_effective ht, parseFilter_comma, List.any_append, Bool.or_eq_true]

/-- The filter of the documentation, on an event at a school. -/
theorem filter_meaning_school :
    filterMatch Char.toLower (parseFilter Char.toLower "location:school,sport")
      (fun prop => if prop = "location" then "Basisschool X" else "") := by
  have hschool : HasEffective "location:school" := Classical.not_not.mp
    ((@parseFilter_eq_nil_iff id _).not.mp (by decide +kernel))
  have hsport : HasEffective "sport" := Classical.not_not.mp
    ((@parseFilter_eq_nil_iff id _).not.mp (by decide +kernel))
  exact ((filter_meaning Char.toLower "location:school").2 "sport" hschool hsport _).mpr
    (.inl (by decide +kernel))

end Filter

end FamilyPlanner.Widget
