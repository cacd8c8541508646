import FamilyPlanner.Foundation.Regex
import FamilyPlanner.Widget.Filter
import Mathlib.Data.List.Chain

/-!
# Wikitext

The markup of a line of wikitext is taken out by one replacement after the other;
a link leaves its label behind.
-/

namespace FamilyPlanner.Widget.Wikitext

open FamilyPlanner.Foundation Regex

/-! ## The expressions -/

def reWikiComment : Regex :=
  .seq (.lit ['<', '!', '-', '-']) (.seq (.rep (fun _ => true) 0 none false)
    (.lit ['-', '-', '>']))

/-- `[^>]*` -/
def attributes (r : Regex) : Regex := .seq (.rep (· ≠ '>') 0 none true) r

def reWikiRef : Regex :=
  .alt (.seq (.lit ['<', 'r', 'e', 'f']) (attributes (.lit ['/', '>'])))
    (.seq (.lit ['<', 'r', 'e', 'f']) (attributes (.seq (.lit ['>'])
      (.seq (.rep (fun _ => true) 0 none false) (.lit ['<', '/', 'r', 'e', 'f', '>'])))))

def reWikiTemplate : Regex :=
  .seq (.lit ['\x7b', '\x7b']) (.seq (.rep (fun c => c ≠ '\x7b' && c ≠ '\x7d') 0 none true)
    (.lit ['\x7d', '\x7d']))

def reWikiTag : Regex :=
  .seq (.lit ['<']) (.seq (.rep (· ≠ '>') 1 none true) (.lit ['>']))

def reWikiLinkAlt : Regex :=
  .seq (.lit ['[', '[']) (.seq (.rep (fun c => c ≠ ']' && c ≠ '|') 0 none true)
    (.seq (.lit ['|']) (.seq (.group (.rep (· ≠ ']') 0 none true)) (.lit [']', ']']))))

def reWikiLink : Regex :=
  .seq (.lit ['[', '[']) (.seq (.group (.rep (· ≠ ']') 0 none true)) (.lit [']', ']']))

def reWikiBold : Regex := .rep (· = '\x27') 2 none true

/-- `\s` -/
def space (c : Char) : Bool :=
  c = '\t' || c = '\n' || c = '\x0c' || c = '\r' || c = ' '

def reWikiWS : Regex := .rep space 1 none true

/-! ## Taking out the markup -/

/-- `strings.TrimSpace`. -/
def trim (l : List Char) : List Char :=
  ((l.dropWhile isSpace).reverse.dropWhile isSpace).reverse

def cleanWiki (s : List Char) : List Char :=
  let s := reWikiComment.replaceAll (fun _ => []) s
  let s := reWikiRef.replaceAll (fun _ => []) s
  let s := reWikiTemplate.replaceAll (fun _ => []) s
  let s := reWikiLinkAlt.replaceAll (fun gs => gs.headD []) s
  let s := reWikiLink.replaceAll (fun gs => gs.headD []) s
  let s := reWikiTag.replaceAll (fun _ => []) s
  let s := reWikiBold.replaceAll (fun _ => []) s
  trim (reWikiWS.replaceAll (fun _ => [' ']) s)

/-! ## Markup -/

/-- The markup that is read; a link stands for its label, or for its target. -/
inductive Inline where
  | text (t : List Char)
  | bold (n : Nat)
  | comment (body : List Char)
  | refTag (attrs : List Char)
  | ref (attrs body : List Char)
  | template (body : List Char)
  | link (target label : List Char)
  | page (target : List Char)
  | tag (attrs : List Char)

def Without (cs t : List Char) : Prop := ∀ c ∈ t, c ∉ cs

variable {f : List (List Char) → List Char} {t x : List Char} {cs : List Char} {c : Char}

namespace Inline

/-- What is left of it after `k` of the replacements. -/
def after (k : Nat) : Inline → List Char
  | text t => t
  | bold n => if k < 7 then List.replicate n '\x27' else []
  | comment body => if k < 1 then ['<', '!', '-', '-'] ++ (body ++ ['-', '-', '>']) else []
  | refTag attrs => if k < 2 then ['<', 'r', 'e', 'f'] ++ (attrs ++ ['/', '>']) else []
  | ref attrs body =>
      if k < 2 then
        ['<', 'r', 'e', 'f'] ++ (attrs ++ '>' :: (body ++ ['<', '/', 'r', 'e', 'f', '>']))
      else []
  | template body => if k < 3 then ['\x7b', '\x7b'] ++ (body ++ ['\x7d', '\x7d']) else []
  | link target label =>
      if k < 4 then ['[', '['] ++ (target ++ '|' :: (label ++ [']', ']'])) else label
  | page target => if k < 5 then ['[', '['] ++ (target ++ [']', ']']) else target
  | tag attrs => if k < 6 then '<' :: (attrs ++ ['>']) else []

def written : Inline → List Char := after 0

def plain : Inline → List Char := after 7

def Proper : Inline → Prop
  | text t => Without ['<', '\x7b', '['] t
  | bold n => 2 ≤ n
  | comment body => ¬ ['-', '-', '>'] <:+: body ++ ['-', '-']
  | refTag attrs => Without ['<', '>'] attrs
  | ref attrs body =>
      Without ['<', '>'] attrs ∧ attrs.getLast? ≠ some '/' ∧ Without ['<'] body
  | template body => Without ['<', '\x7b', '\x7d'] body
  | link target label =>
      Without ['<', '\x7b', '[', ']', '|'] target ∧ Without ['<', '\x7b', '[', ']'] label
  | page target => Without ['<', '\x7b', '[', ']', '|'] target
  | tag attrs =>
      attrs ≠ [] ∧ Without ['<', '>', '\x7b', '['] attrs ∧ attrs.head? ≠ some '!' ∧
        ¬ ['r', 'e', 'f'] <+: attrs

instance : Decidable (Without cs t) := List.decidableBAll (· ∉ cs) t

instance : DecidablePred Inline.Proper
  | text t => inferInstanceAs (Decidable (Without ['<', '\x7b', '['] t))
  | bold n => inferInstanceAs (Decidable (2 ≤ n))
  | comment body => inferInstanceAs (Decidable (¬ ['-', '-', '>'] <:+: body ++ ['-', '-']))
  | refTag attrs => inferInstanceAs (Decidable (Without ['<', '>'] attrs))
  | ref attrs body =>
      inferInstanceAs (Decidable (Without ['<', '>'] attrs ∧ attrs.getLast? ≠ some '/' ∧
        Without ['<'] body))
  | template body => inferInstanceAs (Decidable (Without ['<', '\x7b', '\x7d'] body))
  | link target label =>
      inferInstanceAs (Decidable (Without ['<', '\x7b', '[', ']', '|'] target ∧
        Without ['<', '\x7b', '[', ']'] label))
  | page target =>
      inferInstanceAs (Decidable (Without ['<', '\x7b', '[', ']', '|'] target))
  | tag attrs =>
      inferInstanceAs (Decidable (attrs ≠ [] ∧ Without ['<', '>', '\x7b', '['] attrs ∧
        attrs.head? ≠ some '!' ∧ ¬ ['r', 'e', 'f'] <+: attrs))

/-- The characters it leaves; of bold type, the number of apostrophes. -/
def marks : Inline → List (Char ⊕ Nat)
  | bold n => [.inr n]
  | i => i.plain.map .inl

end Inline

/-- Neither two characters nor a character and a mark make a mark. -/
def Apart : Char ⊕ Nat → Char ⊕ Nat → Prop
  | .inl c, .inl d => ¬ (c = '\x27' ∧ d = '\x27')
  | .inl c, .inr _ => c ≠ '\x27'
  | .inr _, .inl d => d ≠ '\x27'
  | .inr _, .inr _ => True

instance : DecidableRel Apart
  | .inl c, .inl d => inferInstanceAs (Decidable (¬ (c = '\x27' ∧ d = '\x27')))
  | .inl c, .inr _ => inferInstanceAs (Decidable (c ≠ '\x27'))
  | .inr _, .inl d => inferInstanceAs (Decidable (d ≠ '\x27'))
  | .inr _, .inr _ => .isTrue trivial

/-- No apostrophe of the text stands next to another one. -/
def Spaced (is : List Inline) : Prop := (is.flatMap Inline.marks).IsChain Apart

instance (is : List Inline) : Decidable (Spaced is) :=
  inferInstanceAs (Decidable ((is.flatMap Inline.marks).IsChain Apart))

/-! ### One replacement after the other -/

theorem Without.ne (h : Without cs t) (hc : c ∈ cs) : ∀ d ∈ t, d ≠ c := by
  rintro d hd rfl
  exact h d hd hc

theorem ne_of_mem_replicate {n : Nat} {a : Char} (h : a ≠ c) :
    ∀ d ∈ List.replicate n a, d ≠ c := by
  intro d hd
  rwa [List.eq_of_mem_replicate hd]

theorem forall_ne_append {y : List Char} (hx : ∀ d ∈ x, d ≠ c) (hy : ∀ d ∈ y, d ≠ c) :
    ∀ d ∈ x ++ y, d ≠ c := by
  intro d hd
  rcases List.mem_append.mp hd with hd | hd
  · exact hx d hd
  · exact hy d hd

theorem forall_ne_cons {y : List Char} {a : Char} (ha : a ≠ c) (hy : ∀ d ∈ y, d ≠ c) :
    ∀ d ∈ a :: y, d ≠ c := by
  intro d hd
  rcases List.mem_cons.mp hd with rfl | hd
  · exact ha
  · exact hy d hd

namespace Inline

def angled : Inline → Bool
  | comment _ | refTag _ | ref _ _ | tag _ => true
  | _ => false

theorem ne_angle {i : Inline} (hi : i.Proper) (k : Nat) (h : i.angled = false) :
    ∀ d ∈ i.after k, d ≠ '<' := by
  cases i with
  | text t => exact hi.ne (by simp)
  | bold n =>
      simp only [after]
      split
      · exact ne_of_mem_replicate (by decide)
      · simp
  | template body =>
      simp only [after]
      split
      · exact forall_ne_append (by simp) (forall_ne_append (hi.ne (by simp)) (by simp))
      · simp
  | link target label =>
      obtain ⟨htarget, hlabel⟩ := hi
      simp only [after]
      split
      · exact forall_ne_append (by simp) (forall_ne_append (htarget.ne (by simp))
          (forall_ne_cons (by decide) (forall_ne_append (hlabel.ne (by simp)) (by simp))))
      · exact hlabel.ne (by simp)
  | page target =>
      simp only [after]
      split
      · exact forall_ne_append (by simp) (forall_ne_append (hi.ne (by simp)) (by simp))
      · exact hi.ne (by simp)
  | comment | refTag | ref | tag => simp [angled] at h

end Inline

theorem turns_angle {r : Regex} {d : Char} (hr : ∀ pos d l, d ≠ '<' → r.run pos (d :: l) = [])
    (h : ∀ pos rest, r.run pos ('<' :: (d :: t ++ rest)) = []) (hd : d ≠ '<')
    (ht : ∀ e ∈ t, e ≠ '<') : r.Turns f ('<' :: d :: t) ('<' :: d :: t) :=
  Turns.skipCons h (Turns.without hr (forall_ne_cons hd ht))

/-! #### Comments -/

theorem run_comment_of_ne (pos : Nat) (d : Char) (l : List Char) (h : d ≠ '<') :
    reWikiComment.run pos (d :: l) = [] := run_seq_lit_of_ne h

theorem run_comment_of_not {d : Char} (h : d ≠ '!') (pos : Nat) (rest : List Char) :
    reWikiComment.run pos ('<' :: (d :: t ++ rest)) = [] := by
  apply run_seq_lit_of_not
  intro hprefix
  exact h (List.cons_prefix_cons.mp (List.cons_prefix_cons.mp hprefix).2).1.symm

theorem turns_comment {i : Inline} (hi : i.Proper) :
    reWikiComment.Turns (fun _ => []) (i.after 0) (i.after 1) := by
  cases i with
  | comment body =>
      apply Turns.hit (u := []) (by simp [Inline.after])
      intro pos rest
      have hmatch : ∀ k, ((Regex.lit ['-', '-', '>']).run (k + body.length)
          (['-', '-', '>'] ++ rest)).head? = some ⟨[], k + body.length + 3, rest⟩ := by
        intro k
        rw [run_lit]
        rfl
      simp only [Inline.after, Nat.zero_lt_one, if_true, List.append_assoc]
      rw [reWikiComment, run_seq_lit, head?_run_lazy (fun _ _ => rfl) _ (hmatch _)]
      · simp only [List.length_append, List.length_cons, List.length_nil]
        congr 2
        omega
      · intro n hn
        exact run_lit_of_not (not_prefix_early hi hn)
  | refTag attrs =>
      apply turns_angle (d := 'r') run_comment_of_ne (run_comment_of_not (by decide)) (by decide)
      exact forall_ne_append (by simp) (forall_ne_append (hi.ne (by simp)) (by simp))
  | ref attrs body =>
      obtain ⟨hattrs, -, hbody⟩ := hi
      have hopen := turns_angle (f := fun _ => []) (t := 'e' :: 'f' :: (attrs ++ '>' :: body))
        run_comment_of_ne (run_comment_of_not (d := 'r') (by decide)) (by decide)
        (forall_ne_append (y := attrs ++ '>' :: body) (x := ['e', 'f']) (by simp)
          (forall_ne_append (hattrs.ne (by simp))
            (forall_ne_cons (by decide) (hbody.ne (by simp)))))
      have hclose := turns_angle (f := fun _ => []) (t := ['r', 'e', 'f', '>']) run_comment_of_ne
        (run_comment_of_not (d := '/') (by decide)) (by decide) (by simp)
      simpa [Inline.after] using hopen.append hclose
  | tag attrs =>
      obtain ⟨hne, hattrs, hhead, -⟩ := hi
      obtain ⟨d, attrs, rfl⟩ := List.exists_cons_of_ne_nil hne
      have hd : d ≠ '!' := by simpa using hhead
      apply turns_angle run_comment_of_ne (run_comment_of_not hd)
      · exact hattrs.ne (by simp) d List.mem_cons_self
      · refine forall_ne_append ?_ (by simp)
        exact fun e he => hattrs.ne (by simp) e (List.mem_cons_of_mem d he)
  | text | bold | template | link | page =>
      exact Turns.without run_comment_of_ne (Inline.ne_angle hi 0 rfl)

/-! #### References -/

theorem run_ref_of_not {l : List Char} (h : ¬ ['<', 'r', 'e', 'f'] <+: l) (pos : Nat) :
    reWikiRef.run pos l = [] :=
  (run_alt_right (run_seq_lit_of_not h)).trans (run_seq_lit_of_not h)

theorem run_ref_of_ne (pos : Nat) (d : Char) (l : List Char) (h : d ≠ '<') :
    reWikiRef.run pos (d :: l) = [] := by
  apply run_ref_of_not
  intro hprefix
  exact h (List.cons_prefix_cons.mp hprefix).1.symm

theorem head?_ref_tag {attrs : List Char} (h : Without ['<', '>'] attrs) (pos : Nat)
    (rest : List Char) :
    (reWikiRef.run pos (['<', 'r', 'e', 'f'] ++ (attrs ++ ['/', '>'] ++ rest))).head? =
      some ⟨[], pos + 4 + attrs.length + 2, rest⟩ := by
  apply head?_run_alt_left
  have hmatch : ((Regex.lit ['/', '>']).run (pos + 4 + attrs.length)
      (['/'] ++ '>' :: rest)).head? = some ⟨[], pos + 4 + attrs.length + 2, rest⟩ := by
    rw [show ['/'] ++ '>' :: rest = ['/', '>'] ++ rest from rfl, run_lit]
    rfl
  have hgreedy := head?_run_greedy (p := (· ≠ '>')) (x := attrs) (z := ['/'])
    (y := '>' :: rest) (q := 0) (o := pos + 4) ?_ (by simp) (Nat.zero_le _) ?_ hmatch
  · rw [run_seq_lit, attributes, ← hgreedy]
    simp
  · intro d hd
    simpa using forall_ne_append (h.ne (by simp)) (c := '>') (by simp) d hd
  · intro n hlt hle
    obtain rfl : n = (attrs ++ ['/']).length := by
      simp only [List.length_append, List.length_singleton] at hle ⊢
      omega
    rw [List.drop_left]
    exact run_lit_of_ne (by decide)

theorem head?_ref {attrs body : List Char} (hattrs : Without ['<', '>'] attrs)
    (hlast : attrs.getLast? ≠ some '/') (hbody : Without ['<'] body) (pos : Nat)
    (rest : List Char) :
    (reWikiRef.run pos (['<', 'r', 'e', 'f'] ++
        (attrs ++ ('>' :: (body ++ (['<', '/', 'r', 'e', 'f', '>'] ++ rest)))))).head? =
      some ⟨[], pos + 4 + attrs.length + 1 + body.length + 6, rest⟩ := by
  have hclass : ∀ a ∈ attrs, decide (a ≠ '>') = true := by
    intro a ha
    simpa using hattrs.ne (by simp) a ha
  -- The tag is not closed at once: what stands before its `>` is no slash.
  have htag : ∀ y, (Regex.seq (.lit ['<', 'r', 'e', 'f']) (attributes (.lit ['/', '>']))).run pos
      (['<', 'r', 'e', 'f'] ++ (attrs ++ '>' :: y)) = [] := by
    intro y
    rw [run_seq_lit, attributes, (run_rep_seq hclass (by simp) (Nat.zero_le _) (by simp) ?_).1]
    · exact run_lit_of_ne (by decide)
    · intro n hn
      apply run_lit_of_not
      intro hprefix
      rw [← List.cons_getElem_drop_succ (h := hn), List.cons_append,
        List.cons_prefix_cons] at hprefix
      obtain ⟨hslash, hprefix⟩ := hprefix
      cases hdrop : attrs.drop (n + 1) with
      | nil =>
          apply hlast
          have hlen : attrs.length ≤ n + 1 := List.drop_eq_nil_iff.mp hdrop
          rw [List.getLast?_eq_getElem?, show attrs.length - 1 = n by omega,
            List.getElem?_eq_getElem hn, ← hslash]
      | cons d l =>
          rw [hdrop, List.cons_append, List.cons_prefix_cons] at hprefix
          have hd : d ∈ attrs := List.mem_of_mem_drop (hdrop ▸ List.mem_cons_self)
          exact hattrs.ne (by simp) d hd hprefix.1.symm
  have hmatch : ∀ k, ((Regex.lit ['<', '/', 'r', 'e', 'f', '>']).run (k + body.length)
      (['<', '/', 'r', 'e', 'f', '>'] ++ rest)).head? = some ⟨[], k + body.length + 6, rest⟩ := by
    intro k
    rw [run_lit]
    rfl
  rw [reWikiRef, run_alt_right (htag _), run_seq_lit, attributes,
    (run_rep_seq hclass (by simp) (Nat.zero_le _) (by simp) ?_).1]
  · have hgt := run_seq_lit (o := pos + 4 + attrs.length) (w := ['>'])
      (s := .seq (.rep (fun _ => true) 0 none false) (.lit ['<', '/', 'r', 'e', 'f', '>']))
      (l := body ++ (['<', '/', 'r', 'e', 'f', '>'] ++ rest))
    rw [List.singleton_append] at hgt
    exact (congrArg List.head? hgt).trans
      (head?_run_lazy (fun _ _ => rfl) (fun n hn => run_drop_append
        (fun d hd pos l => run_lit_of_ne (hbody.ne (by simp) d hd)) hn) (hmatch _))
  · intro n hn
    exact run_drop_append
      (fun d hd pos l => run_seq_lit_of_ne (hattrs.ne (by simp) d hd)) hn

theorem turns_ref {i : Inline} (hi : i.Proper) :
    reWikiRef.Turns (fun _ => []) (i.after 1) (i.after 2) := by
  cases i with
  | comment body => exact Turns.nil
  | refTag attrs =>
      have hafter : (Inline.refTag attrs).after 1 =
          ['<', 'r', 'e', 'f'] ++ (attrs ++ ['/', '>']) := rfl
      rw [hafter]
      apply Turns.hit (u := []) (by simp)
      intro pos rest
      rw [List.append_assoc, head?_ref_tag hi]
      simp only [List.length_append, List.length_cons, List.length_nil]
      congr 2
      omega
  | ref attrs body =>
      obtain ⟨hattrs, hlast, hbody⟩ := hi
      have hafter : (Inline.ref attrs body).after 1 = ['<', 'r', 'e', 'f'] ++
          (attrs ++ '>' :: (body ++ ['<', '/', 'r', 'e', 'f', '>'])) := rfl
      rw [hafter]
      apply Turns.hit (u := []) (by simp)
      intro pos rest
      have hassoc : ['<', 'r', 'e', 'f'] ++
          (attrs ++ '>' :: (body ++ ['<', '/', 'r', 'e', 'f', '>'])) ++ rest =
          ['<', 'r', 'e', 'f'] ++
            (attrs ++ ('>' :: (body ++ (['<', '/', 'r', 'e', 'f', '>'] ++ rest)))) := by simp
      rw [hassoc, head?_ref hattrs hlast hbody]
      simp only [List.length_append, List.length_cons, List.length_nil]
      congr 2
      omega
  | tag attrs =>
      obtain ⟨hne, hattrs, -, href⟩ := hi
      apply Turns.skipCons
      · intro pos rest
        apply run_ref_of_not
        intro hprefix
        apply href
        have hprefix := (List.cons_prefix_cons.mp hprefix).2
        rw [List.append_assoc] at hprefix
        exact prefix_of_prefix_append hprefix (by decide)
      · exact Turns.without run_ref_of_ne
          (forall_ne_append (hattrs.ne (by simp)) (by simp))
  | text | bold | template | link | page =>
      exact Turns.without run_ref_of_ne (Inline.ne_angle hi 1 rfl)

/-! #### Templates -/

theorem run_template_of_ne (pos : Nat) (d : Char) (l : List Char) (h : d ≠ '\x7b') :
    reWikiTemplate.run pos (d :: l) = [] := run_seq_lit_of_ne h

theorem turns_template {i : Inline} (hi : i.Proper) :
    reWikiTemplate.Turns (fun _ => []) (i.after 2) (i.after 3) := by
  cases i with
  | comment | refTag | ref => exact Turns.nil
  | text t => exact Turns.without run_template_of_ne (hi.ne (by simp))
  | bold n => exact Turns.without run_template_of_ne (ne_of_mem_replicate (by decide))
  | template body =>
      have hafter : (Inline.template body).after 2 =
          ['\x7b', '\x7b'] ++ (body ++ ['\x7d', '\x7d']) := rfl
      rw [hafter]
      apply Turns.hit (u := []) (by simp)
      intro pos rest
      have hopen := hi.ne (c := '\x7b') (by simp)
      have hclose := hi.ne (c := '\x7d') (by simp)
      rw [List.append_assoc, List.append_assoc, reWikiTemplate, run_seq_lit,
        (run_rep_seq _ (by simp) (Nat.zero_le _) (by simp) _).1, run_lit]
      · simp only [List.length_append, List.length_cons, List.length_nil, List.head?_cons]
        congr 2
        omega
      · intro d hd
        simp [hopen d hd, hclose d hd]
      · intro n hn
        exact run_drop_append (fun d hd pos l => run_lit_of_ne (hclose d hd)) hn
  | link target label =>
      obtain ⟨htarget, hlabel⟩ := hi
      exact Turns.without run_template_of_ne
        (forall_ne_append (by simp) (forall_ne_append (htarget.ne (by simp))
          (forall_ne_cons (by decide) (forall_ne_append (hlabel.ne (by simp)) (by simp)))))
  | page target =>
      exact Turns.without run_template_of_ne
        (forall_ne_append (by simp) (forall_ne_append (hi.ne (by simp)) (by simp)))
  | tag attrs =>
      exact Turns.without run_template_of_ne
        (forall_ne_cons (by decide) (forall_ne_append (hi.2.1.ne (by simp)) (by simp)))

/-! #### Links -/

theorem run_linkAlt_of_ne (pos : Nat) (d : Char) (l : List Char) (h : d ≠ '[') :
    reWikiLinkAlt.run pos (d :: l) = [] := run_seq_lit_of_ne h

theorem run_link_of_ne (pos : Nat) (d : Char) (l : List Char) (h : d ≠ '[') :
    reWikiLink.run pos (d :: l) = [] := run_seq_lit_of_ne h

theorem run_label (h : ∀ d ∈ t, d ≠ ']') (pos : Nat) (rest : List Char) :
    (Regex.seq (.group (.rep (· ≠ ']') 0 none true)) (.lit [']', ']'])).run pos
      (t ++ ([']', ']'] ++ rest)) = [⟨[t], pos + t.length + 2, rest⟩] := by
  rw [(run_rep_seq _ (by simp) (Nat.zero_le _) (by simp) _).2, run_lit]
  · rfl
  · intro d hd
    simpa using h d hd
  · intro n hn
    exact run_drop_append (fun d hd pos l => run_lit_of_ne (h d hd)) hn

theorem run_linkAlt_link {target label : List Char}
    (htarget : Without ['<', '\x7b', '[', ']', '|'] target)
    (hlabel : Without ['<', '\x7b', '[', ']'] label) (pos : Nat) (rest : List Char) :
    reWikiLinkAlt.run pos
        (['[', '['] ++ (target ++ ('|' :: (label ++ ([']', ']'] ++ rest))))) =
      [⟨[label], pos + 2 + target.length + 1 + label.length + 2, rest⟩] := by
  have hbar := htarget.ne (c := '|') (by simp)
  have hclose := htarget.ne (c := ']') (by simp)
  rw [reWikiLinkAlt, run_seq_lit, (run_rep_seq _ (by simp) (Nat.zero_le _) (by simp) _).1]
  · have hlit := run_seq_lit (o := pos + 2 + target.length) (w := ['|'])
      (s := .seq (.group (.rep (· ≠ ']') 0 none true)) (.lit [']', ']']))
      (l := label ++ ([']', ']'] ++ rest))
    rw [run_label (hlabel.ne (by simp))] at hlit
    exact hlit
  · intro d hd
    simp [hbar d hd, hclose d hd]
  · intro n hn
    exact run_drop_append (fun d hd pos l => run_seq_lit_of_ne (hbar d hd)) hn

theorem run_linkAlt_page {target : List Char}
    (htarget : Without ['<', '\x7b', '[', ']', '|'] target) (pos : Nat) (rest : List Char) :
    reWikiLinkAlt.run pos (['[', '['] ++ (target ++ ([']', ']'] ++ rest))) = [] := by
  have hbar := htarget.ne (c := '|') (by simp)
  have hclose := htarget.ne (c := ']') (by simp)
  rw [reWikiLinkAlt, run_seq_lit, (run_rep_seq _ (by simp) (Nat.zero_le _) (by simp) _).1]
  · exact run_seq_lit_of_ne (by decide)
  · intro d hd
    simp [hbar d hd, hclose d hd]
  · intro n hn
    exact run_drop_append (fun d hd pos l => run_seq_lit_of_ne (hbar d hd)) hn

theorem run_linkAlt_of_not {d : Char} (h : d ≠ '[') (pos : Nat) (l : List Char) :
    reWikiLinkAlt.run pos ('[' :: d :: l) = [] := by
  apply run_seq_lit_of_not
  intro hprefix
  exact h (List.cons_prefix_cons.mp (List.cons_prefix_cons.mp hprefix).2).1.symm

theorem turns_linkAlt {i : Inline} (hi : i.Proper) :
    reWikiLinkAlt.Turns (fun gs => gs.headD []) (i.after 3) (i.after 4) := by
  cases i with
  | comment | refTag | ref | template => exact Turns.nil
  | text t => exact Turns.without run_linkAlt_of_ne (hi.ne (by simp))
  | bold n => exact Turns.without run_linkAlt_of_ne (ne_of_mem_replicate (by decide))
  | link target label =>
      obtain ⟨htarget, hlabel⟩ := hi
      have hafter : (Inline.link target label).after 3 =
          ['[', '['] ++ (target ++ '|' :: (label ++ [']', ']'])) := rfl
      rw [hafter]
      apply Turns.hit (u := [label]) (by simp)
      intro pos rest
      have hassoc : ['[', '['] ++ (target ++ '|' :: (label ++ [']', ']'])) ++ rest =
          ['[', '['] ++ (target ++ ('|' :: (label ++ ([']', ']'] ++ rest)))) := by simp
      rw [hassoc, run_linkAlt_link htarget hlabel]
      simp only [List.length_append, List.length_cons, List.length_nil, List.head?_cons]
      congr 2
      omega
  | page target =>
      have htarget := hi.ne (c := '[') (by simp)
      apply Turns.skipCons
      · intro pos rest
        have hnone := run_linkAlt_page hi pos rest
        simpa using hnone
      · apply Turns.skipCons
        · intro pos rest
          cases target with
          | nil => exact run_linkAlt_of_not (by decide) pos _
          | cons d target => exact run_linkAlt_of_not (htarget d List.mem_cons_self) pos _
        · exact Turns.without run_linkAlt_of_ne
            (forall_ne_append (x := target) (y := [']', ']']) htarget (by simp))
  | tag attrs =>
      exact Turns.without run_linkAlt_of_ne
        (forall_ne_cons (by decide) (forall_ne_append (hi.2.1.ne (by simp)) (by simp)))

theorem turns_link {i : Inline} (hi : i.Proper) :
    reWikiLink.Turns (fun gs => gs.headD []) (i.after 4) (i.after 5) := by
  cases i with
  | comment | refTag | ref | template => exact Turns.nil
  | text t => exact Turns.without run_link_of_ne (hi.ne (by simp))
  | bold n => exact Turns.without run_link_of_ne (ne_of_mem_replicate (by decide))
  | link target label => exact Turns.without run_link_of_ne (hi.2.ne (by simp))
  | page target =>
      have hafter : (Inline.page target).after 4 = ['[', '['] ++ (target ++ [']', ']']) := rfl
      rw [hafter]
      apply Turns.hit (u := [target]) (by simp)
      intro pos rest
      rw [List.append_assoc, List.append_assoc, reWikiLink, run_seq_lit,
        run_label (hi.ne (by simp))]
      simp only [List.length_append, List.length_cons, List.length_nil, List.head?_cons]
      congr 2
      omega
  | tag attrs =>
      exact Turns.without run_link_of_ne
        (forall_ne_cons (by decide) (forall_ne_append (hi.2.1.ne (by simp)) (by simp)))

/-! #### Tags -/

theorem run_tag_of_ne (pos : Nat) (d : Char) (l : List Char) (h : d ≠ '<') :
    reWikiTag.run pos (d :: l) = [] := run_seq_lit_of_ne h

theorem turns_tag {i : Inline} (hi : i.Proper) :
    reWikiTag.Turns (fun _ => []) (i.after 5) (i.after 6) := by
  cases i with
  | comment | refTag | ref => exact Turns.nil
  | tag attrs =>
      obtain ⟨hne, hattrs, -, -⟩ := hi
      have hclose := hattrs.ne (c := '>') (by simp)
      have hafter : (Inline.tag attrs).after 5 = ['<'] ++ (attrs ++ ['>']) := rfl
      rw [hafter]
      apply Turns.hit (u := []) (by simp)
      intro pos rest
      rw [List.append_assoc, List.append_assoc, reWikiTag, run_seq_lit,
        (run_rep_seq _ (by simp) (List.length_pos_of_ne_nil hne) (by simp) _).1, run_lit]
      · simp only [List.length_append, List.length_cons, List.length_nil, List.head?_cons]
        congr 2
        omega
      · intro d hd
        simpa using hclose d hd
      · intro n hn
        exact run_drop_append (fun d hd pos l => run_lit_of_ne (hclose d hd)) hn
  | text | bold | template | link | page =>
      exact Turns.without run_tag_of_ne (Inline.ne_angle hi 5 rfl)


/-! #### Bold and italics -/

theorem run_bold_of_ne (pos : Nat) (d : Char) (l : List Char) (h : d ≠ '\x27') :
    reWikiBold.run pos (d :: l) = [] := by
  apply run_rep_eq_nil
  rw [List.takeWhile_cons_of_neg (by simpa using h)]
  simp

theorem replaceFrom_bold_append {n : Nat} {y : List Char} (hn : n ≠ 1)
    (hy : y.head? ≠ some '\x27') (pos : Nat) :
    reWikiBold.replaceFrom (fun _ => []) pos (List.replicate n '\x27' ++ y) =
      reWikiBold.replaceFrom (fun _ => []) (pos + n) y := by
  cases n with
  | zero => rfl
  | succ n =>
      have hhit := replaceFrom_match (r := reWikiBold) (f := fun _ => []) (o := pos)
        (m := ⟨[], pos + (n + 1), y⟩) (l := List.replicate (n + 1) '\x27' ++ y) ?_ (by simp)
      · exact hhit
      · have hrun := head?_run_rep (p := (· = '\x27')) (x := List.replicate (n + 1) '\x27')
          (y := y) (q := 2) (o := pos) (by simp) ?_ (by simp; omega)
        · rwa [List.length_replicate] at hrun
        · intro c hc
          simp only [decide_eq_false_iff_not]
          rintro rfl
          exact hy hc

/-- What is written for a mark, and what is left of it. -/
def written (m : Char ⊕ Nat) : List Char := m.elim (fun c => [c]) fun n => List.replicate n '\x27'

def kept (m : Char ⊕ Nat) : List Char := m.elim (fun c => [c]) fun _ => []

theorem flatMap_written_inl (t : List Char) : (t.map Sum.inl).flatMap written = t := by
  rw [List.flatMap_map]
  exact List.flatMap_singleton' t

theorem flatMap_kept_inl (t : List Char) : (t.map Sum.inl).flatMap kept = t := by
  rw [List.flatMap_map]
  exact List.flatMap_singleton' t

theorem Inline.marks_eq (i : Inline) :
    i.marks.flatMap Wikitext.written = i.after 6 ∧ i.marks.flatMap kept = i.plain := by
  cases i with
  | bold n => exact ⟨List.append_nil _, rfl⟩
  | text | link | page | comment | refTag | ref | template | tag =>
      exact ⟨flatMap_written_inl _, flatMap_kept_inl _⟩

/-- A character is no mark, not even an apostrophe: what comes after it is none. -/
theorem run_bold_of_apart {c : Char} {ms : List (Char ⊕ Nat)}
    (hnext : ∀ m ∈ ms.head?, Apart (.inl c) m) (pos : Nat) :
    reWikiBold.run pos (c :: ms.flatMap written) = [] := by
  by_cases hc : c = '\x27'
  · apply run_rep_eq_nil
    rw [hc, List.takeWhile_cons_of_pos (by simp)]
    cases ms with
    | nil => simp
    | cons m ms =>
        have hnext := hnext m rfl
        cases m with
        | inr k => exact absurd hc hnext
        | inl d =>
            have hd : d ≠ '\x27' := fun hd => hnext ⟨hc, hd⟩
            simp [written, hd]
  · exact run_bold_of_ne pos c _ hc

/-- A single apostrophe is left, and as many as a mark has are taken out: after
`n` of them, of a mark or of none. -/
theorem replaceFrom_bold {ms : List (Char ⊕ Nat)} (hbold : ∀ n, Sum.inr n ∈ ms → 2 ≤ n) {n : Nat}
    (hn : n ≠ 1) (hms : ms.IsChain Apart)
    (hfirst : n ≠ 0 → ∀ m ∈ ms.head?, Apart (.inr n) m) (pos : Nat) :
    reWikiBold.replaceFrom (fun _ => []) pos
        (List.replicate n '\x27' ++ ms.flatMap written) = ms.flatMap kept := by
  induction ms generalizing n pos with
  | nil => exact replaceFrom_bold_append hn (by simp) pos
  | cons m ms ih =>
      have hbold' : ∀ k, Sum.inr k ∈ ms → 2 ≤ k := fun k hk => hbold k (List.mem_cons_of_mem m hk)
      have hms' : ms.IsChain Apart := hms.tail
      have hnext : ∀ m' ∈ ms.head?, Apart m m' := by
        intro m' hm'
        exact hms.rel_head? hm'
      rw [List.flatMap_cons, List.flatMap_cons]
      cases m with
      | inr k =>
          have hk := hbold k List.mem_cons_self
          have hmerge : List.replicate n '\x27' ++ (written (.inr k) ++ ms.flatMap written) =
              List.replicate (n + k) '\x27' ++ ms.flatMap written := by
            rw [← List.append_assoc]
            exact congrArg (· ++ _) List.replicate_append_replicate
          rw [hmerge]
          refine ih hbold' (by omega) hms' ?_ pos
          intro _ m' hm'
          cases m' with
          | inl d => exact hnext _ hm'
          | inr _ => trivial
      | inl c =>
          have hrest : ∀ pos, reWikiBold.replaceFrom (fun _ => []) pos (ms.flatMap written) =
              ms.flatMap kept := fun pos => ih hbold' (n := 0) (by decide) hms' (by simp) pos
          have hkeep : ∀ pos, reWikiBold.replaceFrom (fun _ => []) pos (c :: ms.flatMap written) =
              c :: ms.flatMap kept := by
            intro pos
            rw [replaceFrom_skip (run_bold_of_apart hnext pos), hrest]
          by_cases hzero : n = 0
          · rw [hzero]
            exact hkeep pos
          · have hc : c ≠ '\x27' := hfirst hzero _ rfl
            rw [replaceFrom_bold_append hn (by simpa [written] using hc)]
            exact hkeep _

theorem replaceAll_bold {is : List Inline} (his : ∀ i ∈ is, i.Proper) (hspaced : Spaced is) :
    reWikiBold.replaceAll (fun _ => []) (is.flatMap (Inline.after 6)) =
      is.flatMap Inline.plain := by
  have hbold : ∀ n, Sum.inr n ∈ is.flatMap Inline.marks → 2 ≤ n := by
    intro n hn
    obtain ⟨i, hi, hn⟩ := List.mem_flatMap.mp hn
    cases i with
    | bold k =>
        obtain rfl : n = k := by simpa [Inline.marks] using hn
        exact his _ hi
    | text | link | page | comment | refTag | ref | template | tag =>
        simp [Inline.marks] at hn
  have hall := replaceFrom_bold hbold (n := 0) (by decide) hspaced (by simp) 0
  simp only [List.flatMap_assoc, Inline.marks_eq, List.replicate_zero, List.nil_append] at hall
  exact hall

/-! ### White space -/

def squeeze (l : List Char) : List Char := [' '].intercalate (fields l)

theorem fields_spaces {g : List Char} (hg : ∀ c ∈ g, isSpace c = true) :
    fields (g ++ x) = fields x := by
  induction g with
  | nil => rfl
  | cons c g ih =>
      have hnil : ∀ d ∈ ([] : List Char), isSpace d = false := by simp
      have hcut := List.splitOnP_append_cons_of_forall_mem hnil c (hg c List.mem_cons_self)
        (g ++ x)
      have hsplit : fields (c :: (g ++ x)) = fields (g ++ x) := by
        unfold fields
        rw [show c :: (g ++ x) = [] ++ c :: (g ++ x) from rfl, hcut]
        simp
      rw [List.cons_append, hsplit]
      exact ih fun d hd => hg d (List.mem_cons_of_mem c hd)

theorem fields_word {w : List Char} (hw : ∀ c ∈ w, isSpace c = false) (hne : w ≠ []) :
    fields w = [w] := by
  rw [fields, List.splitOnP_eq_singleton hw]
  simp [hne]

theorem fields_cons {w : List Char} {s : Char} (hw : ∀ c ∈ w, isSpace c = false) (hne : w ≠ [])
    (hs : isSpace s = true) : fields (w ++ s :: x) = w :: fields x := by
  rw [fields, List.splitOnP_append_cons_of_forall_mem hw s hs]
  simp [fields, hne]

def Trimmed (l : List Char) : Prop :=
  (∀ c ∈ l.head?, isSpace c = false) ∧ ∀ c ∈ l.getLast?, isSpace c = false

instance (l : List Char) : Decidable (Trimmed l) :=
  decidable_of_iff ((l.head?.all (!isSpace ·)) = true ∧ (l.getLast?.all (!isSpace ·)) = true)
    (by unfold Trimmed; cases l.head? <;> cases l.getLast? <;> simp)

theorem dropWhile_spaces {g : List Char} (hg : ∀ c ∈ g, isSpace c = true)
    (hx : ∀ c ∈ x.head?, isSpace c = false) : (g ++ x).dropWhile isSpace = x := by
  induction g with
  | nil =>
      cases x with
      | nil => rfl
      | cons c x => exact List.dropWhile_cons_of_neg (by simp [hx c rfl])
  | cons c g ih =>
      rw [List.cons_append, List.dropWhile_cons_of_pos (hg c List.mem_cons_self)]
      exact ih fun d hd => hg d (List.mem_cons_of_mem c hd)

theorem trim_spaces {g g' : List Char} (hg : ∀ c ∈ g, isSpace c = true)
    (hg' : ∀ c ∈ g', isSpace c = true) (hx : Trimmed x) : trim (g ++ (x ++ g')) = x := by
  unfold trim
  by_cases hnil : x = []
  · subst hnil
    rw [List.nil_append]
    have hall : ∀ c ∈ g ++ g', isSpace c = true := by
      intro c hc
      exact (List.mem_append.mp hc).elim (hg c) (hg' c)
    have hdrop := dropWhile_spaces hall (x := []) (by simp)
    rw [List.append_nil] at hdrop
    rw [hdrop]
    rfl
  · have hhead : ∀ c ∈ (x ++ g').head?, isSpace c = false := by
      rw [List.head?_append_of_ne_nil _ hnil]
      exact hx.1
    have hlast : ∀ c ∈ x.reverse.head?, isSpace c = false := by
      rw [List.head?_reverse]
      exact hx.2
    have hspaces : ∀ c ∈ g'.reverse, isSpace c = true :=
      fun c hc => hg' c (List.mem_reverse.mp hc)
    rw [dropWhile_spaces hg hhead, List.reverse_append, dropWhile_spaces hspaces hlast,
      List.reverse_reverse]

theorem trim_trimmed (hx : Trimmed x) : trim x = x := by
  have hnil : ∀ c ∈ ([] : List Char), isSpace c = true := by simp
  simpa using trim_spaces hnil hnil hx

theorem trimmed_intercalate {ws : List (List Char)}
    (h : ∀ w ∈ ws, w ≠ [] ∧ ∀ c ∈ w, isSpace c = false) : Trimmed ([' '].intercalate ws) := by
  have hword : ∀ w ∈ ws, Trimmed w := fun w hw =>
    ⟨fun c hc => (h w hw).2 c (List.mem_of_head? hc),
      fun c hc => (h w hw).2 c (List.mem_of_getLast? hc)⟩
  induction ws with
  | nil => exact ⟨by simp, by simp⟩
  | cons w ws ih =>
      have hne := (h w List.mem_cons_self).1
      have hw := hword w List.mem_cons_self
      cases ws with
      | nil => simpa using hw
      | cons w' ws =>
          have hws := ih (fun v hv => h v (List.mem_cons_of_mem w hv))
            fun v hv => hword v (List.mem_cons_of_mem w hv)
          have hne' : [' '].intercalate (w' :: ws) ≠ [] := by
            have := (h w' (by simp)).1
            cases ws <;> simp [this]
          rw [List.intercalate_cons_cons]
          constructor
          · rw [List.append_assoc, List.head?_append_of_ne_nil _ hne]
            exact hw.1
          · rw [List.getLast?_append_of_ne_nil _ hne']
            exact hws.2

theorem trimmed_squeeze (l : List Char) : Trimmed (squeeze l) := by
  apply trimmed_intercalate
  intro w hw
  obtain ⟨hne, hpiece, -⟩ := Filter.mem_fields_iff.mp hw
  exact ⟨hne, hpiece⟩

theorem mem_intercalate {ws : List (List Char)} (hc : c ∈ [' '].intercalate ws) :
    c = ' ' ∨ ∃ w ∈ ws, c ∈ w := by
  induction ws with
  | nil => simp at hc
  | cons w ws ih =>
      cases ws with
      | nil => exact .inr ⟨w, by simp, by simpa using hc⟩
      | cons v ws =>
          rw [List.intercalate_cons_cons, List.mem_append, List.mem_append,
            List.mem_singleton] at hc
          rcases hc with (hc | hc) | hc
          · exact .inr ⟨w, by simp, hc⟩
          · exact .inl hc
          · rcases ih hc with hc | ⟨u, hu, hc⟩
            · exact .inl hc
            · exact .inr ⟨u, List.mem_cons_of_mem w hu, hc⟩

theorem eq_blank_of_mem_squeeze {l : List Char} (hc : c ∈ squeeze l) (hspace : isSpace c = true) :
    c = ' ' := by
  rcases mem_intercalate hc with rfl | ⟨w, hw, hcw⟩
  · rfl
  · obtain ⟨-, hpiece, -⟩ := Filter.mem_fields_iff.mp hw
    rw [hpiece c hcw] at hspace
    contradiction

theorem isSpace_of_space (h : space c = true) : isSpace c = true := by
  simp only [space, Bool.or_eq_true, decide_eq_true_eq] at h
  rcases h with (((rfl | rfl) | rfl) | rfl) | rfl <;> rfl

theorem space_eq_false (h : isSpace c = false) : space c = false := by
  by_contra hc
  simp [isSpace_of_space (by simpa using hc)] at h

theorem exists_span (p : Char → Bool) (l : List Char) :
    ∃ g y, l = g ++ y ∧ (∀ c ∈ g, p c = true) ∧ ∀ c ∈ y.head?, p c = false := by
  induction l with
  | nil => exact ⟨[], [], rfl, by simp, by simp⟩
  | cons c l ih =>
      obtain ⟨g, y, rfl, hg, hy⟩ := ih
      cases hc : p c with
      | false => exact ⟨[], c :: (g ++ y), rfl, by simp, by simp [hc]⟩
      | true =>
          refine ⟨c :: g, y, rfl, ?_, hy⟩
          intro d hd
          rcases List.mem_cons.mp hd with rfl | hd
          · exact hc
          · exact hg d hd

theorem run_ws_of_not (h : space c = false) (pos : Nat) (l : List Char) :
    reWikiWS.run pos (c :: l) = [] := by
  apply run_rep_eq_nil
  rw [List.takeWhile_cons_of_neg (by simp [h])]
  simp

theorem replaceFrom_spaces {g y : List Char} (hg : ∀ c ∈ g, space c = true) (hne : g ≠ [])
    (hy : ∀ c ∈ y.head?, space c = false) (pos : Nat) :
    reWikiWS.replaceFrom (fun _ => [' ']) pos (g ++ y) =
      ' ' :: reWikiWS.replaceFrom (fun _ => [' ']) (pos + g.length) y := by
  have hpos := List.length_pos_of_ne_nil hne
  apply replaceFrom_match (m := ⟨[], pos + g.length, y⟩) (head?_run_rep hg hy hpos)
  rw [List.length_append]
  dsimp only
  omega

theorem replaceFrom_ws {n : Nat} (hn : x.length ≤ n)
    (hx : ∀ c ∈ x, isSpace c = true → space c = true)
    (hhead : ∀ c ∈ x.head?, isSpace c = false) (pos : Nat) :
    ∃ tail, (∀ c ∈ tail, isSpace c = true) ∧
      reWikiWS.replaceFrom (fun _ => [' ']) pos x = squeeze x ++ tail := by
  induction n generalizing x pos with
  | zero =>
      obtain rfl : x = [] := List.length_eq_zero_iff.mp (by omega)
      exact ⟨[], by simp, rfl⟩
  | succ n ih =>
      obtain ⟨w, r, rfl, hw, hr⟩ := exists_span (fun c => !isSpace c) x
      have hw : ∀ c ∈ w, isSpace c = false := fun c hc => by simpa using hw c hc
      have hr : ∀ c ∈ r.head?, isSpace c = true := fun c hc => by simpa using hr c hc
      by_cases hne : w = []
      · subst hne
        have hnil : r = [] := by
          cases r with
          | nil => rfl
          | cons s r => exact absurd (hr s rfl) (by simp [hhead s rfl])
        subst hnil
        exact ⟨[], by simp, rfl⟩
      have hword : reWikiWS.Turns (fun _ => [' ']) w w := by
        apply Turns.skipChars
        intro c hc
        exact run_ws_of_not (space_eq_false (hw c hc))
      rw [hword]
      cases r with
      | nil =>
          refine ⟨[], by simp, ?_⟩
          rw [List.append_nil w, List.append_nil, squeeze, fields_word hw hne]
          simp [replaceFrom, replaceLoop]
      | cons s r =>
          obtain ⟨g, y, hsplit, hg, hy⟩ := exists_span space r
          subst hsplit
          have hs := hr s rfl
          have hs' : space s = true := hx s (by simp) hs
          have hy' : ∀ c ∈ y.head?, isSpace c = false := by
            intro c hc
            have hmem : c ∈ w ++ s :: (g ++ y) := by
              have := List.mem_of_head? hc
              simp [this]
            by_contra hspace
            have := hx c hmem (by simpa using hspace)
            simp [hy c hc] at this
          have hlen : y.length ≤ n := by
            simp only [List.length_append, List.length_cons] at hn
            omega
          obtain ⟨tail, htail, heq⟩ := ih hlen
            (fun c hc => hx c (by simp [hc])) hy' (pos + w.length + (s :: g).length)
          have hgap : ∀ c ∈ s :: g, space c = true := by
            intro c hc
            rcases List.mem_cons.mp hc with rfl | hc
            · exact hs'
            · exact hg c hc
          have hfields : fields (w ++ s :: (g ++ y)) = w :: fields y := by
            rw [fields_cons hw hne hs, fields_spaces fun c hc => isSpace_of_space (hg c hc)]
          rw [← List.cons_append, replaceFrom_spaces hgap (by simp) hy, heq, List.cons_append,
            squeeze, squeeze, hfields]
          cases hys : fields y with
          | nil =>
              refine ⟨' ' :: tail, ?_, by simp⟩
              intro c hc
              rcases List.mem_cons.mp hc with rfl | hc
              · rfl
              · exact htail c hc
          | cons v vs => exact ⟨tail, htail, by simp⟩

theorem trim_replaceAll_ws (hx : ∀ c ∈ x, isSpace c = true → space c = true) :
    trim (reWikiWS.replaceAll (fun _ => [' ']) x) = squeeze x := by
  obtain ⟨g, y, rfl, hg, hy⟩ := exists_span space x
  have hy' : ∀ c ∈ y.head?, isSpace c = false := by
    intro c hc
    by_contra hspace
    have := hx c (List.mem_append_right g (List.mem_of_head? hc)) (by simpa using hspace)
    simp [hy c hc] at this
  obtain ⟨tail, htail, heq⟩ := replaceFrom_ws (Nat.le_refl y.length)
    (fun c hc => hx c (List.mem_append_right g hc)) hy' g.length
  have hsqueeze : squeeze (g ++ y) = squeeze y := by
    rw [squeeze, fields_spaces fun c hc => isSpace_of_space (hg c hc), squeeze]
  rw [hsqueeze]
  by_cases hne : g = []
  · subst hne
    have hlead := trim_spaces (g := []) (by simp) htail (trimmed_squeeze y)
    have heq : reWikiWS.replaceFrom (fun _ => [' ']) 0 y = squeeze y ++ tail := heq
    rw [replaceAll, List.nil_append, heq]
    exact hlead
  · have hlead := trim_spaces (g := [' ']) (by simp [isSpace]) htail (trimmed_squeeze y)
    rw [replaceAll, replaceFrom_spaces hg hne hy, Nat.zero_add, heq]
    exact hlead

/-! ### The whole line -/

theorem cleanWiki_eq {is : List Inline} (his : ∀ i ∈ is, i.Proper) (hspaced : Spaced is)
    (hspace : ∀ c ∈ is.flatMap Inline.plain, isSpace c = true → space c = true) :
    cleanWiki (is.flatMap Inline.written) = squeeze (is.flatMap Inline.plain) := by
  have hcomment := (Turns.flatMap fun i hi => turns_comment (his i hi)).replaceAll
  have href := (Turns.flatMap fun i hi => turns_ref (his i hi)).replaceAll
  have htemplate := (Turns.flatMap fun i hi => turns_template (his i hi)).replaceAll
  have hlinkAlt := (Turns.flatMap fun i hi => turns_linkAlt (his i hi)).replaceAll
  have hlink := (Turns.flatMap fun i hi => turns_link (his i hi)).replaceAll
  have htag := (Turns.flatMap fun i hi => turns_tag (his i hi)).replaceAll
  unfold cleanWiki Inline.written
  dsimp only
  rw [hcomment, href, htemplate, hlinkAlt, hlink, htag, replaceAll_bold his hspaced]
  exact trim_replaceAll_ws hspace

end FamilyPlanner.Widget.Wikitext
