import Mathlib.Data.List.Nodup

/-!
# Tables that give out their ids once

A new row gets an id that no row has had before, so that an id means one row
for good, and nothing once that row is gone.  Rows of one table may refer to
rows of another, with which they are deleted.
-/

namespace FamilyPlanner.Foundation

/-- `seq` is the last id that was given out. -/
structure Table (α : Type*) where
  seq : Int := 0
  rows : List (Int × α) := []

namespace Table

variable {α β κ : Type*}

def has (t : Table α) (id : Int) : Prop := ∃ a, (id, a) ∈ t.rows

def get (t : Table α) (id : Int) : Option α := (t.rows.find? (·.1 = id)).map Prod.snd

def insert (t : Table α) (a : α) : Table α := ⟨t.seq + 1, t.rows ++ [(t.seq + 1, a)]⟩

def modify (t : Table α) (p : Int → Bool) (f : α → α) : Table α :=
  { t with rows := t.rows.map fun r => if p r.1 then (r.1, f r.2) else r }

def delete (t : Table α) (p : Int → α → Bool) : Table α :=
  { t with rows := t.rows.filter fun r => !p r.1 r.2 }

def deleteId (t : Table α) (id : Int) : Table α := t.delete fun i _ => i = id

/-- Delete the rows that refer to `id`. -/
def cascade (t : Table α) (ref : α → Int) (id : Int) : Table α :=
  t.delete fun _ a => ref a = id

structure Sound (t : Table α) : Prop where
  nodup : (t.rows.map Prod.fst).Nodup
  le_seq : ∀ r ∈ t.rows, r.1 ≤ t.seq

/-- `t'` comes after `t`: the rows with the ids of before are those of before,
and what `fixed` reads off a row has stayed. -/
structure Follows (fixed : α → κ) (t t' : Table α) : Prop where
  seq : t.seq ≤ t'.seq
  old : ∀ r' ∈ t'.rows, r'.1 ≤ t.seq → ∃ r ∈ t.rows, r.1 = r'.1 ∧ fixed r.2 = fixed r'.2

/-- Every row of `t` refers to a row of `u`. -/
def Refers (ref : α → Int) (t : Table α) (u : Table β) : Prop :=
  ∀ r ∈ t.rows, u.has (ref r.2)

variable {t t' t'' : Table α} {u : Table β} {fixed : α → κ} {f : α → α} {g : β → β} {a : α}
  {b : β} {p : Int → Bool} {q : Int → α → Bool} {id i : Int} {ref : α → Int}

/-! ## What is in a table -/

instance [DecidableEq α] (t : Table α) (id : Int) : Decidable (t.has id) :=
  decidable_of_iff (id ∈ t.rows.map Prod.fst) (by simp [has])

theorem has_iff : t.has id ↔ id ∈ t.rows.map Prod.fst := by
  simp [has]

theorem mem_insert {r : Int × α} :
    r ∈ (t.insert a).rows ↔ r ∈ t.rows ∨ r = (t.seq + 1, a) := by
  simp [insert]

theorem mem_delete {r : Int × α} :
    r ∈ (t.delete q).rows ↔ r ∈ t.rows ∧ q r.1 r.2 = false := by
  simp [delete]

theorem mem_modify {r : Int × α} (h : r ∈ (t.modify p f).rows) :
    ∃ r₀ ∈ t.rows, r₀.1 = r.1 ∧ (r.2 = r₀.2 ∨ r.2 = f r₀.2) := by
  obtain ⟨r₀, hr₀, rfl⟩ := List.mem_map.mp h
  refine ⟨r₀, hr₀, ?_⟩
  split
  · exact ⟨rfl, .inr rfl⟩
  · exact ⟨rfl, .inl rfl⟩

theorem mem_modify_of_mem (key : α → κ) (h : (id, a) ∈ t.rows)
    (hkeep : ∀ a, key (f a) = key a) :
    ∃ a', (id, a') ∈ (t.modify p f).rows ∧ key a' = key a := by
  cases hp : p id with
  | true => exact ⟨f a, List.mem_map.mpr ⟨_, h, by simp [hp]⟩, hkeep a⟩
  | false => exact ⟨a, List.mem_map.mpr ⟨_, h, by simp [hp]⟩, rfl⟩

theorem map_fst_modify : (t.modify p f).rows.map Prod.fst = t.rows.map Prod.fst := by
  rw [modify, List.map_map]
  apply List.map_congr_left
  intro r _
  dsimp only [Function.comp_apply]
  split
  · rfl
  · rfl

theorem mem_of_get (h : t.get id = some a) : (id, a) ∈ t.rows := by
  obtain ⟨r, hr, rfl⟩ := Option.map_eq_some_iff.mp h
  have hid : r.1 = id := by simpa using List.find?_some hr
  rw [← hid]
  exact List.mem_of_find?_eq_some hr

/-! ## Ids are given out once -/

theorem Sound.empty : (⟨0, []⟩ : Table α).Sound := ⟨List.nodup_nil, by simp⟩

theorem Sound.insert (h : t.Sound) : (t.insert a).Sound where
  nodup := by
    have hnew : t.seq + 1 ∉ t.rows.map Prod.fst := by
      intro hmem
      obtain ⟨r, hr, hid⟩ := List.mem_map.mp hmem
      have := h.le_seq r hr
      omega
    rw [Table.insert, List.map_append, List.nodup_append]
    refine ⟨h.nodup, by simp, ?_⟩
    rintro i hi j hj rfl
    obtain rfl : i = t.seq + 1 := by simpa using hj
    exact hnew hi
  le_seq r hr := by
    rcases mem_insert.mp hr with hr | rfl
    · have hle := h.le_seq r hr
      simp only [Table.insert]
      omega
    · exact Int.le_refl _

theorem Sound.modify (h : t.Sound) : (t.modify p f).Sound where
  nodup := by
    rw [map_fst_modify]
    exact h.nodup
  le_seq r hr := by
    obtain ⟨r₀, hr₀, hid, -⟩ := mem_modify hr
    exact hid ▸ h.le_seq r₀ hr₀

theorem Sound.delete (h : t.Sound) : (t.delete q).Sound where
  nodup := h.nodup.sublist (List.filter_sublist.map _)
  le_seq r hr := h.le_seq r (mem_delete.mp hr).1

theorem Sound.deleteId (h : t.Sound) : (t.deleteId id).Sound := h.delete

theorem Sound.cascade (h : t.Sound) : (t.cascade ref id).Sound := h.delete

theorem Follows.refl (t : Table α) : Follows fixed t t :=
  ⟨Int.le_refl _, fun r hr _ => ⟨r, hr, rfl, rfl⟩⟩

theorem Follows.trans (h : Follows fixed t t') (h' : Follows fixed t' t'') :
    Follows fixed t t'' where
  seq := Int.le_trans h.seq h'.seq
  old r'' hr'' hid := by
    obtain ⟨r', hr', hid', hfixed'⟩ := h'.old r'' hr'' (Int.le_trans hid h.seq)
    obtain ⟨r, hr, hid₀, hfixed⟩ := h.old r' hr' (hid'.symm ▸ hid)
    exact ⟨r, hr, hid₀.trans hid', hfixed.trans hfixed'⟩

theorem Follows.insert : Follows fixed t (t.insert a) where
  seq := by
    simp only [Table.insert]
    omega
  old r hr hid := by
    rcases mem_insert.mp hr with hr | rfl
    · exact ⟨r, hr, rfl, rfl⟩
    · dsimp only at hid
      omega

theorem Follows.modify (h : ∀ a, fixed (f a) = fixed a) : Follows fixed t (t.modify p f) where
  seq := Int.le_refl _
  old r hr _ := by
    obtain ⟨r₀, hr₀, hid, heq | heq⟩ := mem_modify hr
    · exact ⟨r₀, hr₀, hid, congrArg fixed heq.symm⟩
    · exact ⟨r₀, hr₀, hid, by rw [heq, h]⟩

theorem Follows.delete : Follows fixed t (t.delete q) where
  seq := Int.le_refl _
  old r hr _ := ⟨r, (mem_delete.mp hr).1, rfl, rfl⟩

theorem Follows.deleteId : Follows fixed t (t.deleteId id) := Follows.delete

theorem Follows.cascade : Follows fixed t (t.cascade ref id) := Follows.delete

theorem Follows.fixed_eq {a a' : α} (h : Follows fixed t t') (ht : t.Sound)
    (ha : (id, a) ∈ t.rows) (ha' : (id, a') ∈ t'.rows) : fixed a = fixed a' := by
  obtain ⟨r, hr, hid, hfixed⟩ := h.old _ ha' (ht.le_seq (id, a) ha)
  obtain rfl : r = (id, a) := List.inj_on_of_nodup_map ht.nodup hr ha hid
  exact hfixed

/-- Whoever still refers to a row that is gone refers to nothing. -/
theorem Follows.not_has (h : Follows fixed t t') (hid : id ≤ t.seq) (hnone : ¬ t.has id) :
    ¬ t'.has id := by
  rintro ⟨a, ha⟩
  obtain ⟨r, hr, hrid, -⟩ := h.old _ ha hid
  have hmem : (id, r.2) ∈ t.rows := by
    rw [← show r.1 = id from hrid]
    exact hr
  exact hnone ⟨r.2, hmem⟩

/-! ## References -/

theorem has_modify : (t.modify p f).has id ↔ t.has id := by
  rw [has_iff, has_iff, map_fst_modify]

theorem has_insert (h : t.has id) : (t.insert a).has id := by
  obtain ⟨a', ha'⟩ := h
  exact ⟨a', mem_insert.mpr (.inl ha')⟩

theorem has_deleteId (h : t.has i) (hne : i ≠ id) : (t.deleteId id).has i := by
  obtain ⟨a, ha⟩ := h
  exact ⟨a, mem_delete.mpr ⟨ha, decide_eq_false hne⟩⟩

theorem Refers.empty : Refers ref ⟨0, []⟩ u := by
  intro r hr
  cases hr

theorem Refers.insert (h : Refers ref t u) (hnew : u.has (ref a)) : Refers ref (t.insert a) u := by
  intro r hr
  rcases mem_insert.mp hr with hr | rfl
  · exact h r hr
  · exact hnew

theorem Refers.modify (h : Refers ref t u) (hkeep : ∀ a, ref (f a) = ref a) :
    Refers ref (t.modify p f) u := by
  intro r hr
  obtain ⟨r₀, hr₀, -, heq | heq⟩ := mem_modify hr
  · rw [heq]
    exact h r₀ hr₀
  · rw [heq, hkeep]
    exact h r₀ hr₀

theorem Refers.delete (h : Refers ref t u) : Refers ref (t.delete q) u :=
  fun r hr => h r (mem_delete.mp hr).1

theorem Refers.deleteId (h : Refers ref t u) : Refers ref (t.deleteId id) u := h.delete

theorem Refers.cascade_other {ref' : α → Int} (h : Refers ref t u) :
    Refers ref (t.cascade ref' id) u := h.delete

theorem Refers.insert_target (h : Refers ref t u) : Refers ref t (u.insert b) :=
  fun r hr => has_insert (h r hr)

theorem Refers.modify_target (h : Refers ref t u) : Refers ref t (u.modify p g) :=
  fun r hr => has_modify.mpr (h r hr)

theorem Refers.cascade (h : Refers ref t u) : Refers ref (t.cascade ref id) (u.deleteId id) := by
  intro r hr
  obtain ⟨hmem, hne⟩ := mem_delete.mp hr
  exact has_deleteId (h r hmem) (of_decide_eq_false hne)

end Table

end FamilyPlanner.Foundation
