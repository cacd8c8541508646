import Mathlib.Data.List.Infix

/-!
# The pieces of a split list

A list is cut at the entries that satisfy a predicate.  A piece is a stretch
without such an entry that reaches from a cut, or the start, to a cut, or the
end; `List.splitOnP` yields the pieces and nothing else.
-/

namespace FamilyPlanner.Foundation

variable {α : Type*} (p : α → Bool)

/-- The rest after a piece: the end or a cut. -/
def AtCut : List α → Prop
  | [] => True
  | a :: _ => p a = true

def LaterPiece (l x : List α) : Prop :=
  (∀ a ∈ x, p a = false) ∧
    ∃ pre c post, l = pre ++ c :: (x ++ post) ∧ p c = true ∧ AtCut p post

def Piece (l x : List α) : Prop :=
  (∀ a ∈ x, p a = false) ∧
    ∃ pre post, l = pre ++ (x ++ post) ∧ AtCut p pre.reverse ∧ AtCut p post

variable {p}

theorem atCut_dropWhile (l : List α) : AtCut p (l.dropWhile fun a => !p a) := by
  induction l with
  | nil => trivial
  | cons a l ih =>
      by_cases ha : p a = true
      · rw [List.dropWhile_cons_of_neg (by simp [ha])]
        exact ha
      · rw [List.dropWhile_cons_of_pos (by simp [ha])]
        exact ih

theorem takeWhile_of_atCut {l : List α} (h : AtCut p l) :
    l.takeWhile (fun a => !p a) = [] := by
  cases l with
  | nil => rfl
  | cons a l =>
      have ha : p a = true := h
      rw [List.takeWhile_cons_of_neg (by simp [ha])]

theorem takeWhile_eq_iff {l x : List α} :
    l.takeWhile (fun a => !p a) = x ↔
      (∀ a ∈ x, p a = false) ∧ ∃ post, l = x ++ post ∧ AtCut p post := by
  constructor
  · rintro rfl
    refine ⟨?_, l.dropWhile fun a => !p a, ?_, atCut_dropWhile l⟩
    · intro a ha
      simpa using List.all_eq_true.mp List.all_takeWhile a ha
    · exact List.takeWhile_append_dropWhile.symm
  · rintro ⟨hx, post, rfl, hcut⟩
    have hall : ∀ a ∈ x, (!p a) = true := by
      intro a ha
      rw [hx a ha]
      rfl
    rw [List.takeWhile_append_of_pos hall, takeWhile_of_atCut hcut, List.append_nil]

theorem laterPiece_cons {a : α} {l x : List α} :
    LaterPiece p (a :: l) x ↔
      (p a = true ∧ l.takeWhile (fun b => !p b) = x) ∨ LaterPiece p l x := by
  constructor
  · rintro ⟨hx, pre, c, post, hl, hc, hcut⟩
    cases pre with
    | nil =>
        cases hl
        exact .inl ⟨hc, takeWhile_eq_iff.mpr ⟨hx, post, rfl, hcut⟩⟩
    | cons b pre =>
        cases hl
        exact .inr ⟨hx, pre, c, post, rfl, hc, hcut⟩
  · rintro (⟨ha, htake⟩ | ⟨hx, pre, c, post, rfl, hc, hcut⟩)
    · obtain ⟨hx, post, rfl, hcut⟩ := takeWhile_eq_iff.mp htake
      exact ⟨hx, [], a, post, rfl, ha, hcut⟩
    · exact ⟨hx, a :: pre, c, post, rfl, hc, hcut⟩

theorem piece_iff {l x : List α} :
    Piece p l x ↔ l.takeWhile (fun a => !p a) = x ∨ LaterPiece p l x := by
  constructor
  · rintro ⟨hx, pre, post, hl, hpre, hcut⟩
    rcases List.eq_nil_or_concat pre with rfl | ⟨pre', c, rfl⟩
    · exact .inl (takeWhile_eq_iff.mpr ⟨hx, post, hl, hcut⟩)
    · rw [List.concat_eq_append, List.reverse_append] at hpre
      right
      refine ⟨hx, pre', c, post, ?_, hpre, hcut⟩
      rw [hl, List.concat_eq_append, List.append_assoc]
      rfl
  · rintro (htake | ⟨hx, pre, c, post, rfl, hc, hcut⟩)
    · obtain ⟨hx, post, rfl, hcut⟩ := takeWhile_eq_iff.mp htake
      exact ⟨hx, [], post, rfl, trivial, hcut⟩
    · refine ⟨hx, pre ++ [c], post, by simp, ?_, hcut⟩
      rw [List.reverse_append]
      exact hc

theorem splitOnP_eq (l : List α) :
    ∃ later, l.splitOnP p = l.takeWhile (fun a => !p a) :: later ∧
      ∀ x, x ∈ later ↔ LaterPiece p l x := by
  induction l with
  | nil => exact ⟨[], rfl, by simp [LaterPiece]⟩
  | cons a l ih =>
      obtain ⟨later, hsplit, hlater⟩ := ih
      rw [List.splitOnP_cons_eq_if_modifyHead, hsplit]
      by_cases ha : p a = true
      · rw [if_pos ha, List.takeWhile_cons_of_neg (by simp [ha])]
        refine ⟨_, rfl, fun x => ?_⟩
        rw [laterPiece_cons, List.mem_cons, hlater, eq_comm]
        simp [ha]
      · rw [if_neg ha, List.takeWhile_cons_of_pos (by simp [ha])]
        refine ⟨later, rfl, fun x => ?_⟩
        rw [laterPiece_cons, hlater]
        simp [ha]

theorem mem_splitOnP_iff {l x : List α} : x ∈ l.splitOnP p ↔ Piece p l x := by
  obtain ⟨later, hsplit, hlater⟩ := splitOnP_eq (p := p) l
  rw [hsplit, List.mem_cons, hlater, piece_iff, eq_comm]

end FamilyPlanner.Foundation
