import FamilyPlanner.Foundation.Interleaving
import FamilyPlanner.Foundation.Run

/-!
# Services

A service answers each request by a program of operations on one shared
object.  Any number of requests are in progress at once, and between two
operations of one any other may proceed.  What an operation returns, a failure
included, is up to the environment.
-/

namespace FamilyPlanner.Foundation

/-- The text and the status of an error, or the status of a success. -/
abbrev Answer := Except (String × Nat) Nat

/-- `note` is history: what the operations so far tell of the request. -/
structure Job (Req Op : Type) (Res : Op → Type) (α κ : Type) where
  request : Req
  rest : Prog Op Res α
  note : κ

def Job.answer? {Req Op : Type} {Res : Op → Type} {α κ : Type}
    (j : Job Req Op Res α κ) : Option α :=
  match j.rest with
  | .ret a => some a
  | .call _ _ => none

structure Service (Req Op : Type) (Res : Op → Type) (α Object Env κ : Type) where
  handle : Req → Prog Op Res α
  exec : Env → (o : Op) → Object → Res o × Object
  fresh : κ
  record : (o : Op) → Object → Res o × Object → κ → κ

namespace Service

variable {Req Op : Type} {Res : Op → Type} {α Object Env κ : Type}

structure State (Req Op : Type) (Res : Op → Type) (α Object κ : Type) where
  object : Object
  jobs : List (Job Req Op Res α κ) := []

inductive Act (Req Env : Type) where
  | start (r : Req)
  | resume (i : Nat) (env : Env)
  deriving DecidableEq, Repr

variable (M : Service Req Op Res α Object Env κ)

def started (r : Req) : Job Req Op Res α κ := ⟨r, M.handle r, M.fresh⟩

def resumed (env : Env) (x : Object) (j : Job Req Op Res α κ) (o : Op)
    (next : Res o → Prog Op Res α) : Job Req Op Res α κ where
  request := j.request
  rest := next (M.exec env o x).1
  note := M.record o x (M.exec env o x) j.note

def acts : System (State Req Op Res α Object κ) (Act Req Env) where
  step s
    | .start r => some { s with jobs := s.jobs ++ [M.started r] }
    | .resume i env =>
        match s.jobs[i]? with
        | none => none
        | some j =>
            match j.rest with
            | .ret _ => none
            | .call o next =>
                some {
                  object := (M.exec env o s.object).2
                  jobs := s.jobs.set i (M.resumed env s.object j o next) }

variable {M}

theorem resume_cases {s s' : State Req Op Res α Object κ} {i : Nat} {env : Env}
    (h : M.acts.step s (.resume i env) = some s') :
    ∃ j o next, s.jobs[i]? = some j ∧ j.rest = .call o next ∧
      s' = {
        object := (M.exec env o s.object).2
        jobs := s.jobs.set i (M.resumed env s.object j o next) } := by
  simp only [acts] at h
  cases hj : s.jobs[i]? with
  | none => simp [hj] at h
  | some j =>
      cases hrest : j.rest with
      | ret a => simp [hj, hrest] at h
      | call o next =>
          simp only [hj, hrest, Option.some.injEq] at h
          exact ⟨j, o, next, rfl, hrest, h.symm⟩

/-! ## Conditions and invariants -/

def Meets (P : State Req Op Res α Object κ → Job Req Op Res α κ → Env → Op → Prop)
    (s : State Req Op Res α Object κ) (env : Env) (j : Job Req Op Res α κ) : Prop :=
  match j.rest with
  | .ret _ => True
  | .call o _ => P s j env o

/-- `P` holds of each operation that is executed, in the state before it. -/
def Guard (P : State Req Op Res α Object κ → Job Req Op Res α κ → Env → Op → Prop)
    (s : State Req Op Res α Object κ) : Act Req Env → Prop
  | .start _ => True
  | .resume i env => ∀ j ∈ s.jobs[i]?, Meets P s env j

variable {P : State Req Op Res α Object κ → Job Req Op Res α κ → Env → Op → Prop}

instance [∀ s j env o, Decidable (P s j env o)] (s : State Req Op Res α Object κ)
    (env : Env) (j : Job Req Op Res α κ) : Decidable (Meets P s env j) :=
  match h : j.rest with
  | .ret _ => .isTrue (by simp [Meets, h])
  | .call o _ => decidable_of_iff (P s j env o) (by simp [Meets, h])

instance [∀ s j env o, Decidable (P s j env o)] (s : State Req Op Res α Object κ) :
    ∀ a : Act Req Env, Decidable (Guard P s a)
  | .start _ => .isTrue trivial
  | .resume i env => inferInstanceAs (Decidable (∀ j ∈ s.jobs[i]?, Meets P s env j))

theorem guard_resume {s : State Req Op Res α Object κ} {i : Nat} {env : Env}
    {j : Job Req Op Res α κ} {o : Op} {next : Res o → Prog Op Res α}
    (hj : s.jobs[i]? = some j) (hrest : j.rest = .call o next) :
    Guard P s (.resume i env) ↔ P s j env o := by
  simp [Guard, Meets, hj, hrest]

/--
The induction rule of a service: an invariant holds along a run if it survives
a new request and every operation that meets the condition of the run.
-/
theorem run_invariant {I : State Req Op Res α Object κ → Prop}
    (hstart : ∀ s r, I s → I { s with jobs := s.jobs ++ [M.started r] })
    (hresume : ∀ s i env j o next, I s → P s j env o → s.jobs[i]? = some j →
      j.rest = .call o next →
      I {
        object := (M.exec env o s.object).2
        jobs := s.jobs.set i (M.resumed env s.object j o next) })
    {s t : State Req Op Res α Object κ} {acts : List (Act Req Env)} (hs : I s)
    (hguard : M.acts.Along (Guard P) s acts) (hrun : M.acts.run s acts = some t) : I t := by
  refine System.run_invariant_along ?_ hs hguard hrun
  intro s a s' hs hP hstep
  cases a with
  | start r =>
      cases hstep
      exact hstart s r hs
  | resume i env =>
      obtain ⟨j, o, next, hj, hrest, rfl⟩ := resume_cases hstep
      exact hresume s i env j o next hs ((guard_resume hj hrest).mp hP) hj hrest

/-! ## Answers -/

def answers {β : Type} (f : Req → α → Option β) (jobs : List (Job Req Op Res α κ)) : List β :=
  jobs.filterMap fun j => (j.answer?).bind (f j.request)

def Idle (s : State Req Op Res α Object κ) : Prop :=
  ∀ j ∈ s.jobs, (j.answer?).isSome

instance (s : State Req Op Res α Object κ) : Decidable (Idle s) :=
  inferInstanceAs (Decidable (∀ j ∈ s.jobs, j.answer?.isSome = true))

theorem answers_append {β : Type} {f : Req → α → Option β}
    (jobs : List (Job Req Op Res α κ)) (j : Job Req Op Res α κ) :
    answers f (jobs ++ [j]) = answers f jobs ++ ((j.answer?).bind (f j.request)).toList := by
  cases h : (j.answer?).bind (f j.request) <;> simp [answers, h]

theorem answers_set {β : Type} {f : Req → α → Option β}
    {jobs : List (Job Req Op Res α κ)} {i : Nat} {j j' : Job Req Op Res α κ}
    (hj : jobs[i]? = some j) (hnone : j.answer? = none) :
    (answers f (jobs.set i j')).Perm
      (answers f jobs ++ ((j'.answer?).bind (f j'.request)).toList) := by
  obtain ⟨hlt, hget⟩ := List.getElem?_eq_some_iff.mp hj
  have hsplit : jobs = jobs.take i ++ j :: jobs.drop (i + 1) := by
    rw [← hget, ← List.drop_eq_getElem_cons hlt, List.take_append_drop]
  rw [List.set_eq_take_cons_drop _ hlt]
  conv =>
    rhs
    rw [hsplit]
  simp only [answers, List.filterMap_append, List.filterMap_cons, hnone, Option.bind_none]
  cases (j'.answer?).bind (f j'.request) with
  | none => simp
  | some b =>
      simp only [Option.toList_some, List.append_assoc]
      exact List.Perm.append_left _ (List.perm_append_singleton _ _).symm

/-! ## Critical sections -/

section Exclusive

variable {jobs : List (Job Req Op Res α κ)} {i : Nat} {j j' : Job Req Op Res α κ}
  {Critical : Job Req Op Res α κ → Prop} {calm calm' : Prop}
  {busy busy' : Job Req Op Res α κ → Prop}

/-- At most one request is in its critical section: `calm` holds when none is,
and `busy` of the one that is. -/
def Exclusive (Critical : Job Req Op Res α κ → Prop) (jobs : List (Job Req Op Res α κ))
    (calm : Prop) (busy : Job Req Op Res α κ → Prop) : Prop :=
  ((∀ k ∈ jobs, ¬ Critical k) ∧ calm) ∨
    ∃ (i : Nat) (k : Job Req Op Res α κ), jobs[i]? = some k ∧ Critical k ∧
      (∀ (i' : Nat) k', jobs[i']? = some k' → Critical k' → i' = i) ∧ busy k

theorem getElem?_set_iff (hj : jobs[i]? = some j) {i' : Nat} {k : Job Req Op Res α κ} :
    (jobs.set i j')[i']? = some k ↔ if i' = i then k = j' else jobs[i']? = some k := by
  have hlt : i < jobs.length := (List.getElem?_eq_some_iff.mp hj).1
  rw [List.getElem?_set]
  by_cases hi : i' = i
  · subst hi
    simp [hlt, eq_comm]
  · simp [hi, Ne.symm hi]

theorem forall_not_of_set (hj : jobs[i]? = some j) (hold : ¬ Critical j)
    (h : ∀ k ∈ jobs.set i j', ¬ Critical k) : ∀ k ∈ jobs, ¬ Critical k := by
  intro k hk
  obtain ⟨i', hi'⟩ := List.mem_iff_getElem?.mp hk
  by_cases hi : i' = i
  · subst hi
    cases hj.symm.trans hi'
    exact hold
  · apply h k
    apply List.mem_of_getElem? (i := i')
    rw [getElem?_set_iff hj, if_neg hi]
    exact hi'

theorem Exclusive.of_none (h : Exclusive Critical jobs calm busy)
    (hnone : ∀ k ∈ jobs, ¬ Critical k) : calm := by
  rcases h with ⟨-, hcalm⟩ | ⟨i, k, hk, hcritical, -⟩
  · exact hcalm
  · exact absurd hcritical (hnone k (List.mem_of_getElem? hk))

theorem Exclusive.start (h : Exclusive Critical jobs calm busy) (hj' : ¬ Critical j') :
    Exclusive Critical (jobs ++ [j']) calm busy := by
  rcases h with ⟨hnone, hcalm⟩ | ⟨i, k, hk, hcritical, honly, hbusy⟩
  · exact .inl ⟨forall_started hnone hj', hcalm⟩
  · refine .inr ⟨i, k, ?_, hcritical, ?_, hbusy⟩
    · rw [List.getElem?_append_left (List.getElem?_eq_some_iff.mp hk).1]
      exact hk
    · intro i' k' hk' hcritical'
      apply honly i' k' _ hcritical'
      rw [List.getElem?_append] at hk'
      split at hk'
      · exact hk'
      · rw [List.getElem?_singleton] at hk'
        split at hk'
        · cases hk'
          exact absurd hcritical' hj'
        · cases hk'

theorem Exclusive.pass (h : Exclusive Critical jobs calm busy) (hj : jobs[i]? = some j)
    (hold : ¬ Critical j) (hnew : ¬ Critical j') (hcalm : calm → calm')
    (hbusy : ∀ k, Critical k → busy k → busy' k) :
    Exclusive Critical (jobs.set i j') calm' busy' := by
  rcases h with ⟨hnone, hc⟩ | ⟨i₀, k, hk, hcritical, honly, hb⟩
  · exact .inl ⟨forall_resumed hnone i hnew, hcalm hc⟩
  · have hne : i₀ ≠ i := by
      rintro rfl
      exact hold (Option.some.inj (hj.symm.trans hk) ▸ hcritical)
    refine .inr ⟨i₀, k, ?_, hcritical, ?_, hbusy k hcritical hb⟩
    · rw [getElem?_set_iff hj, if_neg hne]
      exact hk
    · intro i' k' hk' hcritical'
      rw [getElem?_set_iff hj] at hk'
      split at hk'
      · exact absurd (hk' ▸ hcritical') hnew
      · exact honly i' k' hk' hcritical'

theorem Exclusive.hold
    (honly : ∀ (i' : Nat) k, jobs[i']? = some k → Critical k → i' = i) (hj : jobs[i]? = some j)
    (hnew : Critical j') (hbusy : busy j') :
    Exclusive Critical (jobs.set i j') calm busy := by
  refine .inr ⟨i, j', ?_, hnew, ?_, hbusy⟩
  · rw [getElem?_set_iff hj, if_pos rfl]
  · intro i' k' hk' hcritical'
    rw [getElem?_set_iff hj] at hk'
    split at hk'
    · assumption
    · exact honly i' k' hk' hcritical'

theorem Exclusive.enter (hnone : ∀ k ∈ jobs, ¬ Critical k) (hj : jobs[i]? = some j)
    (hnew : Critical j') (hbusy : busy j') :
    Exclusive Critical (jobs.set i j') calm busy :=
  .hold (fun _ k hk hcritical => absurd hcritical (hnone k (List.mem_of_getElem? hk)))
    hj hnew hbusy

theorem Exclusive.of_critical (h : Exclusive Critical jobs calm busy) (hj : jobs[i]? = some j)
    (hold : Critical j) :
    busy j ∧ ∀ (i' : Nat) k, jobs[i']? = some k → Critical k → i' = i := by
  rcases h with ⟨hnone, -⟩ | ⟨i₀, k, hk, -, honly, hbusy⟩
  · exact absurd hold (hnone j (List.mem_of_getElem? hj))
  · have hi := honly i j hj hold
    subst hi
    cases hj.symm.trans hk
    exact ⟨hbusy, honly⟩

theorem Exclusive.leave (h : Exclusive Critical jobs calm busy) (hj : jobs[i]? = some j)
    (hold : Critical j) (hnew : ¬ Critical j') (hcalm : calm') :
    Exclusive Critical (jobs.set i j') calm' busy' := by
  obtain ⟨-, honly⟩ := h.of_critical hj hold
  refine .inl ⟨?_, hcalm⟩
  intro k hk hcritical
  obtain ⟨i', hi'⟩ := List.mem_iff_getElem?.mp hk
  rw [getElem?_set_iff hj] at hi'
  split at hi'
  · exact hnew (hi' ▸ hcritical)
  · exact absurd (honly i' k hi' hcritical) ‹_›

end Exclusive

/-! ## What a request does and answers -/

section Honours

variable {update : (o : Op) → Res o → κ → κ} {Asks : Req → κ → Op → Prop}
  {Promises : Req → κ → α → Prop}

/-- Every request goes on as it may, and answers what its results have told. -/
def Honest (update : (o : Op) → Res o → κ → κ) (Asks : Req → κ → Op → Prop)
    (Promises : Req → κ → α → Prop) (jobs : List (Job Req Op Res α κ)) : Prop :=
  ∀ j ∈ jobs, j.rest.Honours update (Asks j.request) (Promises j.request) j.note

theorem Honest.answered {jobs : List (Job Req Op Res α κ)}
    (h : Honest update Asks Promises jobs) {j : Job Req Op Res α κ} (hj : j ∈ jobs) {a : α}
    (ha : j.answer? = some a) : Promises j.request j.note a := by
  have hj := h j hj
  cases hrest : j.rest with
  | call o next => simp [Job.answer?, hrest] at ha
  | ret b =>
      simp only [Job.answer?, hrest, Option.some.injEq] at ha
      simpa [hrest, ha] using hj

theorem Honest.asked {jobs : List (Job Req Op Res α κ)}
    (h : Honest update Asks Promises jobs) {j : Job Req Op Res α κ} (hj : j ∈ jobs) {o : Op}
    {next : Res o → Prog Op Res α} (hrest : j.rest = .call o next) :
    Asks j.request j.note o ∧
      ∀ r, (next r).Honours update (Asks j.request) (Promises j.request) (update o r j.note) := by
  have hj := h j hj
  rw [hrest] at hj
  exact hj

/--
The induction rule when the notes follow the results: every operation is one
that its request may ask for by then.
-/
theorem run_invariant_honest {I : State Req Op Res α Object κ → Prop}
    (hrecord : ∀ o x r k, M.record o x r k = update o r.1 k)
    (hhandle : ∀ r, (M.handle r).Honours update (Asks r) (Promises r) M.fresh)
    (hstart : ∀ s r, I s → I { s with jobs := s.jobs ++ [M.started r] })
    (hresume : ∀ s i env j o next, Honest update Asks Promises s.jobs → I s →
      s.jobs[i]? = some j → j.rest = .call o next → Asks j.request j.note o →
      I {
        object := (M.exec env o s.object).2
        jobs := s.jobs.set i (M.resumed env s.object j o next) })
    {s t : State Req Op Res α Object κ} {acts : List (Act Req Env)}
    (hs : Honest update Asks Promises s.jobs ∧ I s) (hrun : M.acts.run s acts = some t) :
    Honest update Asks Promises t.jobs ∧ I t := by
  apply System.run_invariant (I := fun s => Honest update Asks Promises s.jobs ∧ I s) _ hs hrun
  rintro s a s' ⟨hjobs, hI⟩ hstep
  cases a with
  | start r =>
      cases hstep
      exact ⟨forall_started hjobs (hhandle r), hstart s r hI⟩
  | resume i env =>
      obtain ⟨j, o, next, hj, hrest, rfl⟩ := resume_cases hstep
      obtain ⟨hasks, hnext⟩ := hjobs.asked (List.mem_of_getElem? hj) hrest
      refine ⟨?_, hresume s i env j o next hjobs hI hj hrest hasks⟩
      apply forall_resumed hjobs
      simp only [resumed, hrecord]
      exact hnext _

end Honours

end Service

end FamilyPlanner.Foundation
