import FamilyPlanner.Foundation.Base64
import FamilyPlanner.Server.Pairing
import FamilyPlanner.Widget.Providers

/-!
# The stored passphrase

A passphrase is kept as a text of six fields: how its key was derived, the salt
and the key.  To check a passphrase the text is taken apart again and the key is
derived with what it says.
-/

namespace FamilyPlanner.Server.Passphrase

open FamilyPlanner.Foundation FamilyPlanner.Widget Pairing

abbrev Bytes := List UInt8

/-- The key derivation: of a passphrase, a salt, the time, the memory, the
threads and the length of the key. -/
structure Argon where
  IDKey : String → Bytes → Nat → Nat → Nat → Nat → Bytes
  length_key : ∀ passphrase salt time memory threads keyLen,
    (IDKey passphrase salt time memory threads keyLen).length = keyLen

def argonVersion : Nat := 0x13

def argonTime : Nat := 1

def argonMemory : Nat := 64 * 1024

def argonThreads : Nat := 4

def argonKeyLen : Nat := 32

def encode (bytes : Bytes) : String := String.ofList (Base64.RawStdEncoding.encode bytes)

variable (argon : Argon)

/-- `salt` is what `rand.Read` yields. -/
def HashPassphrase (passphrase : String) (salt : Option Bytes) : Option String :=
  salt.map fun salt =>
    let hash := argon.IDKey passphrase salt argonTime argonMemory argonThreads argonKeyLen
    "$argon2id$v=" ++ argonVersion.repr ++ "$m=" ++ argonMemory.repr ++ ",t=" ++
      argonTime.repr ++ ",p=" ++ argonThreads.repr ++ "$" ++ encode salt ++ "$" ++ encode hash

/-! ## Sscanf -/

def literal (t l : List Char) : Option (List Char) :=
  if t.isPrefixOf l then some (l.drop t.length) else none

/-- A newline is no space here. -/
def skipSpace : List Char → Option (List Char)
  | [] => some []
  | c :: l => if c = '\n' then none else if isSpace c then skipSpace l else some (c :: l)

def scanNumber (l : List Char) : Option (Nat × List Char) :=
  if l.takeWhile Char.isDigit = [] then none
  else
    some ((l.takeWhile Char.isDigit).foldl (fun n c => 10 * n + (c.toNat - '0'.toNat)) 0,
      l.dropWhile Char.isDigit)

/-- `%d` into a `uint` of that many bits. -/
def scanUint (bits : Nat) (l : List Char) : Option (Nat × List Char) := do
  let (n, l) ← scanNumber (← skipSpace l)
  if n < 1 <<< bits then some (n, l) else none

def scanInt (l : List Char) : Option (Int × List Char) := do
  match ← skipSpace l with
  | '-' :: l =>
      let (n, l) ← scanNumber l
      if n ≤ 0x8000000000000000 then some (-n, l) else none
  | '+' :: l =>
      let (n, l) ← scanNumber l
      if n < 0x8000000000000000 then some (n, l) else none
  | l =>
      let (n, l) ← scanNumber l
      if n < 0x8000000000000000 then some (n, l) else none

/-- `v=%d`; what follows is not read. -/
def scanVersion (l : List Char) : Option Int := do
  let (version, _) ← scanInt (← literal "v=".toList l)
  some version

structure Params where
  memory : Nat
  time : Nat
  threads : Nat
  deriving DecidableEq, Repr

/-- `m=%d,t=%d,p=%d`; what follows is not read. -/
def scanParams (l : List Char) : Option Params := do
  let (memory, l) ← scanUint 32 (← literal "m=".toList l)
  let (time, l) ← scanUint 32 (← literal ",t=".toList l)
  let (threads, _) ← scanUint 8 (← literal ",p=".toList l)
  some { memory, time, threads }

/-! ## The check -/

/-- The first field and the version are not checked. -/
def verifyParts (passphrase : String) (kind version params salt key : List Char) :
    Option Bool := do
  if kind ≠ "argon2id".toList then none
  else
    let _ ← scanVersion version
    let p ← scanParams params
    let salt ← Base64.RawStdEncoding.decode salt
    let want ← Base64.RawStdEncoding.decode key
    let got := argon.IDKey passphrase salt p.time p.memory p.threads (want.length % 0x100000000)
    some (got = want)

/-- `none` is an error. -/
def VerifyPassphrase (passphrase encoded : String) : Option Bool :=
  match encoded.toList.splitOn '$' with
  | [_, kind, version, params, salt, key] =>
      verifyParts argon passphrase kind version params salt key
  | _ => none

def hashes (hashToken : String → String) : Hashes where
  hashToken
  verify := VerifyPassphrase argon

def Argon.key (passphrase : String) (salt : Bytes) : Bytes :=
  argon.IDKey passphrase salt argonTime argonMemory argonThreads argonKeyLen

variable {argon} {passphrase hash : String} {salt : Bytes}

theorem dollar_not_mem_encode (bytes : Bytes) :
    '$' ∉ Base64.RawStdEncoding.encode bytes := by
  have hnone : ∀ c ∈ Base64.RawStdEncoding.encode bytes, c ≠ '$' := by
    apply Base64.forall_encode
    · decide +kernel
    · exact fun _ hc => nomatch hc
  exact fun hmem => hnone '$' hmem rfl

theorem splitOn_hash (h : HashPassphrase argon passphrase (some salt) = some hash) :
    hash.toList.splitOn '$' =
      [[], "argon2id".toList, "v=19".toList, "m=65536,t=1,p=4".toList,
        Base64.RawStdEncoding.encode salt,
        Base64.RawStdEncoding.encode (argon.key passphrase salt)] := by
  have htext : hash.toList =
      [] ++ '$' :: ("argon2id".toList ++ '$' :: ("v=19".toList ++ '$' ::
        ("m=65536,t=1,p=4".toList ++ '$' :: (Base64.RawStdEncoding.encode salt ++ '$' ::
          Base64.RawStdEncoding.encode (argon.key passphrase salt))))) := by
    have hhead : ("$argon2id$v=" ++ argonVersion.repr ++ "$m=" ++ argonMemory.repr ++ ",t=" ++
        argonTime.repr ++ ",p=" ++ argonThreads.repr ++ "$").toList =
          '$' :: ("argon2id".toList ++ '$' :: ("v=19".toList ++ '$' ::
            ("m=65536,t=1,p=4".toList ++ ['$']))) := by
      decide +kernel
    have hdollar : "$".toList = ['$'] := by decide
    cases h
    rw [String.toList_append, String.toList_append, String.toList_append, hhead, hdollar]
    simp only [encode, String.toList_ofList, Argon.key, List.append_assoc, List.cons_append,
      List.nil_append]
  have hlast : (Base64.RawStdEncoding.encode (argon.key passphrase salt)).splitOn '$' =
      [Base64.RawStdEncoding.encode (argon.key passphrase salt)] :=
    List.splitOn_eq_singleton (dollar_not_mem_encode _)
  rw [htext, List.splitOn_append_cons_self_of_not_mem List.not_mem_nil,
    List.splitOn_append_cons_self_of_not_mem (by decide),
    List.splitOn_append_cons_self_of_not_mem (by decide),
    List.splitOn_append_cons_self_of_not_mem (by decide),
    List.splitOn_append_cons_self_of_not_mem (dollar_not_mem_encode salt), hlast]

theorem verify_hash (h : HashPassphrase argon passphrase (some salt) = some hash) (q : String) :
    VerifyPassphrase argon q hash = some (decide (argon.key q salt = argon.key passphrase salt)) := by
  have hversion : scanVersion "v=19".toList = some 19 := by decide +kernel
  have hparams : scanParams "m=65536,t=1,p=4".toList =
      some { memory := argonMemory, time := argonTime, threads := argonThreads } := by
    decide +kernel
  have hlength : (argon.key passphrase salt).length % 0x100000000 = argonKeyLen := by
    rw [Argon.key, argon.length_key]
    rfl
  rw [VerifyPassphrase, splitOn_hash h]
  simp only [verifyParts, ne_eq, not_true_eq_false, if_false, hversion, hparams,
    Base64.decode_encode, Option.bind_eq_bind, Option.bind_some, hlength]
  rfl

theorem accepted_hash (h : HashPassphrase argon passphrase (some salt) = some hash)
    (hashToken : String → String) (q : String) :
    accepted (hashes argon hashToken) q (some hash) ↔
      argon.key q salt = argon.key passphrase salt := by
  have hne : hash ≠ "" := by
    intro hempty
    have hsplit := splitOn_hash h
    rw [hempty] at hsplit
    cases hsplit
  simp [accepted, hashes, verify_hash h, hne]

/-! ## The pairing page -/

def Refuses (H : Hashes) (r : DeviceRequest) (k : Told) (a : Reply) : Prop :=
  ∀ f, r = .pair f → a = .error "login.error" 401 → ¬ accepted H f.passphrase k.stored

theorem refuses_pairDevice {H : Hashes} {r : DeviceRequest} (k : Told) (f : PairForm)
    (token : Option String) :
    (pairDevice H f token).Honours Told.after (fun _ _ => True) (Refuses H r) k := by
  have hother : ∀ {k : Told} {a : Reply}, a ≠ .error "login.error" 401 → Refuses H r k a :=
    fun hne _ _ heq => absurd heq hne
  cases token with
  | none => exact hother (by decide)
  | some token =>
      have hpip : ∀ k dev,
          (pairPip f token dev).Honours Told.after (fun _ _ => True) (Refuses H r) k := by
        intro k dev
        unfold pairPip
        dsimp only
        split
        · exact ⟨trivial, fun _ => hother nofun⟩
        · exact hother nofun
      refine ⟨trivial, ?_⟩
      intro dev
      cases dev with
      | none => exact hother (by decide)
      | some dev =>
          simp only [pairPlaylist]
          split
          · exact ⟨trivial, fun _ => hpip _ dev⟩
          · exact hpip _ dev

theorem refuses_handle (H : Hashes) (r : DeviceRequest) :
    (r.handle H).Honours Told.after (fun _ _ => True) (Refuses H r) {} := by
  by_cases hpair : ∃ f, r = .pair f
  · obtain ⟨f, rfl⟩ := hpair
    refine ⟨trivial, ?_⟩
    intro hash
    dsimp only
    split
    · exact ⟨trivial, fun token => refuses_pairDevice _ f token⟩
    · rename_i hrefused
      intro f' hf' _
      cases hf'
      exact hrefused
  · apply Prog.Honours.of_forall
    · exact fun _ _ => trivial
    · exact fun _ _ f hf => absurd ⟨f, hf⟩ hpair

section Run

variable {s : Site} {acts : List (Service.Act DeviceRequest Env)} {hashToken : String → String}

/--
In every run of the pairing page with a passphrase stored at the first start,
overlapping requests and failing calls included: a request is paired only with
a passphrase of the stored key, and one that has read the stored text is
refused only with another.  Every device comes from a request of the first kind.
-/
theorem paired_by_passphrase
    (h : HashPassphrase argon passphrase (some salt) = some hash)
    (hrun : (pairing (hashes argon hashToken)).acts.run
      { object := { passphraseHash := some hash } } acts = some s) :
    (∀ j ∈ s.jobs, ∀ f, j.request = .pair f →
      (∀ token, j.answer? = some (.paired token) →
        argon.key f.passphrase salt = argon.key passphrase salt) ∧
      (j.answer? = some (.error "login.error" 401) → j.note.stored = some hash →
        argon.key f.passphrase salt ≠ argon.key passphrase salt)) ∧
      ∀ e ∈ s.object.issued, ∃ j ∈ s.jobs, ∃ f, j.request = .pair f ∧
        j.note.created = some e ∧
          argon.key f.passphrase salt = argon.key passphrase salt := by
  obtain ⟨hhonest, hs⟩ := Site.sound_run (hashes argon hashToken) (some hash) hrun
  obtain ⟨hrefuses, -⟩ := Service.run_invariant_honest
    (I := fun _ => True) (fun _ _ _ _ => rfl) (refuses_handle (hashes argon hashToken))
    (fun _ _ _ => trivial) (fun _ _ _ _ _ _ _ _ _ _ _ => trivial)
    ⟨by simp [Service.Honest], trivial⟩ hrun
  have hcreated : ∀ j ∈ s.jobs, ∀ e, j.note.created = some e → ∃ f, j.request = .pair f ∧
      argon.key f.passphrase salt = argon.key passphrase salt := by
    intro j hj e he
    obtain ⟨⟨f, hf, haccepted⟩, -⟩ := hs.admitted j hj e he
    exact ⟨f, hf, (accepted_hash h hashToken f.passphrase).mp haccepted⟩
  constructor
  · intro j hj f hf
    constructor
    · intro token hanswer
      obtain ⟨-, id, hid⟩ := hhonest.answered hj hanswer
      obtain ⟨f', hf', hkey⟩ := hcreated j hj _ hid
      rw [hf] at hf'
      cases hf'
      exact hkey
    · intro hanswer hstored hkey
      have hrefused := hrefuses.answered hj hanswer f hf rfl
      rw [hstored] at hrefused
      exact hrefused ((accepted_hash h hashToken f.passphrase).mpr hkey)
  · intro e he
    obtain ⟨j, hj, hnote⟩ := List.mem_filterMap.mp ((hs.created.mem_iff).mp he)
    obtain ⟨f, hf, hkey⟩ := hcreated j hj e hnote
    exact ⟨j, hj, f, hf, hnote, hkey⟩

private def sixteen : Bytes := [1, 2, 3, 4, 5, 6, 7, 8, 9, 10, 11, 12, 13, 14, 15, 16]

private def familie : Bytes :=
  [253, 60, 69, 15, 131, 23, 216, 51, 173, 60, 24, 39, 198, 18, 33, 231, 249, 241, 140, 199,
    175, 118, 184, 30, 96, 71, 156, 56, 5, 58, 226, 162]

private def gezin : Bytes :=
  [217, 198, 72, 57, 199, 142, 147, 18, 168, 252, 181, 74, 84, 36, 23, 178, 184, 239, 153, 234,
    201, 203, 239, 99, 64, 207, 218, 15, 185, 22, 54, 115]

private def argon2 : Argon where
  IDKey passphrase salt time memory threads keyLen :=
    if salt = sixteen ∧ (time, memory, threads, keyLen) = (1, 65536, 4, 32) then
      if passphrase = "familie" then familie
      else if passphrase = "gezin" then gezin
      else List.replicate keyLen 0
    else List.replicate keyLen 0
  length_key passphrase salt time memory threads keyLen := by
    split_ifs with h
    · cases h.2
      rfl
    · cases h.2
      rfl
    · exact List.length_replicate
    · exact List.length_replicate

private def kept : String :=
  "$argon2id$v=19$m=65536,t=1,p=4$AQIDBAUGBwgJCgsMDQ4PEA$" ++
    "/TxFD4MX2DOtPBgnxhIh5/nxjMevdrgeYEecOAU64qI"

private def drawn : String := "JTA7RlFcZ3J9iJOeqbS_ytXg6_YBDBciLThDTllkb3o"

private def digest (token : String) : String :=
  if token = drawn then "41cb42d1a32d56951c3bb9188999d5df45b8acf6181d6c21f049abe2414bab62" else ""

private def attempts : List (Service.Act DeviceRequest Env) :=
  [.start (.pair { passphrase := "familie" }), .start (.pair { passphrase := "gezin" }),
    .resume 0 {}, .resume 1 {}, .resume 0 { token := some drawn }, .resume 0 {}]

theorem paired_by_passphrase_overlapping :
    ∃ s, (pairing (hashes argon2 digest)).acts.run
        { object := { passphraseHash := some kept } } attempts = some s ∧
      s.jobs.map Job.answer? = [some (.paired drawn), some (.error "login.error" 401)] ∧
      s.object.issued = [(digest drawn, 1)] ∧
      ∀ e ∈ s.object.issued, ∃ j ∈ s.jobs, ∃ f, j.request = .pair f ∧
        j.note.created = some e ∧
          argon2.key f.passphrase sixteen = argon2.key "familie" sixteen := by
  have hkept : HashPassphrase argon2 "familie" (some sixteen) = some kept := by
    decide +kernel
  obtain ⟨s, hrun⟩ : ∃ s, (pairing (hashes argon2 digest)).acts.run
      { object := { passphraseHash := some kept } } attempts = some s := by
    apply Option.isSome_iff_exists.mp
    decide +kernel
  have hread : ((pairing (hashes argon2 digest)).acts.run
      { object := { passphraseHash := some kept } } attempts).map
        (fun s => (s.jobs.map Job.answer?, s.object.issued)) =
      some ([some (.paired drawn), some (.error "login.error" 401)], [(digest drawn, 1)]) := by
    decide +kernel
  rw [hrun] at hread
  obtain ⟨hanswers, hissued⟩ := Prod.mk.inj (Option.some.inj hread)
  exact ⟨s, hrun, hanswers, hissued, (paired_by_passphrase hkept hrun).2⟩

end Run

end FamilyPlanner.Server.Passphrase
