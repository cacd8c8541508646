import Mathlib.Data.List.Basic

/-!
# Base64

Three bytes are written as four characters of six bits each.  An encoding may
pad the last group, and a newline in a text is passed over.
-/

namespace FamilyPlanner.Foundation

/-- The alphabet and the padding, neither of them with a newline. -/
structure Base64 where
  char : Nat → Char
  value : Char → Option Nat
  padChar : Option Char
  value_char : ∀ n < 64, value (char n) = some n
  value_newline : value '\n' = none ∧ value '\r' = none
  value_padChar : ∀ c ∈ padChar, value c = none ∧ c ≠ '\n' ∧ c ≠ '\r'

namespace Base64

/-- The 24 bits of a group of bytes. -/
def group (a b c : UInt8) : Nat := a.toNat * 65536 + b.toNat * 256 + c.toNat

/-- The 24 bits of four characters. -/
def quantum (a b c d : Nat) : Nat := a * 262144 + b * 4096 + c * 64 + d

def bytes (n : Nat) : List UInt8 :=
  [UInt8.ofNat (n / 65536), UInt8.ofNat (n / 256), UInt8.ofNat n]

variable (e : Base64)

def chars (n : Nat) : List Char :=
  [e.char (n / 262144 % 64), e.char (n / 4096 % 64), e.char (n / 64 % 64), e.char (n % 64)]

def padding (n : Nat) : List Char :=
  match e.padChar with
  | none => []
  | some c => List.replicate n c

def encode : List UInt8 → List Char
  | a :: b :: c :: l => e.chars (group a b c) ++ encode l
  | [a, b] => (e.chars (group a b 0)).take 3 ++ e.padding 1
  | [a] => (e.chars (group a 0 0)).take 2 ++ e.padding 2
  | [] => []

/-- A text without newlines.  What the bits of a last, shorter group leave over is not checked. -/
def decodeQuanta : List Char → Option (List UInt8)
  | a :: b :: c :: d :: l =>
      match e.value a, e.value b, e.value c, e.value d with
      | some a, some b, some c, some d =>
          (decodeQuanta l).map fun rest => bytes (quantum a b c d) ++ rest
      | some a, some b, some c, none =>
          if some d = e.padChar ∧ l = [] then some ((bytes (quantum a b c 0)).take 2) else none
      | some a, some b, none, none =>
          if some c = e.padChar ∧ some d = e.padChar ∧ l = [] then
            some ((bytes (quantum a b 0 0)).take 1)
          else none
      | _, _, _, _ => none
  | [a, b, c] =>
      match e.padChar, e.value a, e.value b, e.value c with
      | none, some a, some b, some c => some ((bytes (quantum a b c 0)).take 2)
      | _, _, _, _ => none
  | [a, b] =>
      match e.padChar, e.value a, e.value b with
      | none, some a, some b => some ((bytes (quantum a b 0 0)).take 1)
      | _, _, _ => none
  | [_] => none
  | [] => some []

def decode (text : List Char) : Option (List UInt8) :=
  e.decodeQuanta (text.filter fun c => c ≠ '\n' && c ≠ '\r')

theorem group_lt (a b c : UInt8) : group a b c < 16777216 := by
  have ha := a.toNat_lt
  have hb := b.toNat_lt
  have hc := c.toNat_lt
  unfold group
  omega

theorem bytes_group (a b c : UInt8) : bytes (group a b c) = [a, b, c] := by
  have ha := a.toNat_lt
  have hb := b.toNat_lt
  have hc := c.toNat_lt
  have hfirst : UInt8.ofNat (group a b c / 65536) = a := by
    apply UInt8.toNat_inj.mp
    rw [UInt8.toNat_ofNat', group]
    omega
  have hsecond : UInt8.ofNat (group a b c / 256) = b := by
    apply UInt8.toNat_inj.mp
    rw [UInt8.toNat_ofNat', group]
    omega
  have hthird : UInt8.ofNat (group a b c) = c := by
    apply UInt8.toNat_inj.mp
    rw [UInt8.toNat_ofNat', group]
    omega
  rw [bytes, hfirst, hsecond, hthird]

theorem quantum_chars {n : Nat} (h : n < 16777216) :
    quantum (n / 262144 % 64) (n / 4096 % 64) (n / 64 % 64) (n % 64) = n := by
  unfold quantum
  omega

theorem quantum_two (a b : UInt8) :
    quantum (group a b 0 / 262144 % 64) (group a b 0 / 4096 % 64) (group a b 0 / 64 % 64) 0 =
      group a b 0 := by
  have hlt := group_lt a b 0
  have hlast : group a b 0 % 64 = 0 := by
    simp only [group, UInt8.toNat_zero]
    omega
  unfold quantum
  omega

theorem quantum_one (a : UInt8) :
    quantum (group a 0 0 / 262144 % 64) (group a 0 0 / 4096 % 64) 0 0 = group a 0 0 := by
  have hlt := group_lt a 0 0
  have hlast : group a 0 0 % 4096 = 0 := by
    simp only [group, UInt8.toNat_zero]
    omega
  unfold quantum
  omega

theorem value_digit (n : Nat) : e.value (e.char (n % 64)) = some (n % 64) :=
  e.value_char _ (Nat.mod_lt n (by decide))

theorem decodeQuanta_encode (l : List UInt8) : e.decodeQuanta (e.encode l) = some l := by
  induction l using encode.induct with
  | case1 a b c l ih =>
      rw [encode, chars]
      simp only [List.cons_append, List.nil_append, decodeQuanta, value_digit, ih, Option.map_some,
        quantum_chars (group_lt a b c), bytes_group]
  | case2 a b =>
      rw [encode, chars, padding]
      cases hpad : e.padChar with
      | none =>
          simp only [List.take_succ_cons, List.take_zero, List.append_nil, decodeQuanta, hpad,
            value_digit, quantum_two, bytes_group]
      | some c =>
          have hc := (e.value_padChar c hpad).1
          simp only [List.take_succ_cons, List.take_zero, List.cons_append, List.nil_append,
            List.replicate_one, decodeQuanta, hpad, hc, value_digit, quantum_two, bytes_group,
            and_self, if_true]
  | case3 a =>
      rw [encode, chars, padding]
      cases hpad : e.padChar with
      | none =>
          simp only [List.take_succ_cons, List.take_zero, List.append_nil, decodeQuanta, hpad,
            value_digit, quantum_one, bytes_group]
      | some c =>
          have hc := (e.value_padChar c hpad).1
          simp only [List.take_succ_cons, List.take_zero, List.cons_append, List.nil_append,
            List.replicate_succ, List.replicate_zero, decodeQuanta, hpad, hc, value_digit,
            quantum_one, bytes_group, and_self, if_true]
  | case4 => rfl

theorem forall_encode {P : Char → Prop} (hchar : ∀ n < 64, P (e.char n))
    (hpad : ∀ c ∈ e.padChar, P c) (l : List UInt8) : ∀ c ∈ e.encode l, P c := by
  have hchars : ∀ n, ∀ c ∈ e.chars n, P c := by
    intro n c hc
    simp only [chars, List.mem_cons, List.not_mem_nil, or_false] at hc
    rcases hc with rfl | rfl | rfl | rfl <;> exact hchar _ (Nat.mod_lt _ (by decide))
  have hpadding : ∀ n, ∀ c ∈ e.padding n, P c := by
    intro n c hc
    unfold padding at hc
    split at hc
    · cases hc
    · rw [List.eq_of_mem_replicate hc]
      exact hpad _ ‹_›
  induction l using encode.induct with
  | case1 a b c l ih =>
      rw [encode, List.forall_mem_append]
      exact ⟨hchars _, ih⟩
  | case2 a b =>
      rw [encode, List.forall_mem_append]
      exact ⟨fun c hc => hchars _ c (List.mem_of_mem_take hc), hpadding 1⟩
  | case3 a =>
      rw [encode, List.forall_mem_append]
      exact ⟨fun c hc => hchars _ c (List.mem_of_mem_take hc), hpadding 2⟩
  | case4 => exact fun c hc => absurd hc List.not_mem_nil

theorem decode_encode (l : List UInt8) : e.decode (e.encode l) = some l := by
  have hkept : ∀ c ∈ e.encode l, (c ≠ '\n' && c ≠ '\r') = true := by
    apply forall_encode
    · intro n hn
      have hvalue := e.value_char n hn
      have hlf : e.char n ≠ '\n' := by
        intro heq
        rw [heq, e.value_newline.1] at hvalue
        cases hvalue
      have hcr : e.char n ≠ '\r' := by
        intro heq
        rw [heq, e.value_newline.2] at hvalue
        cases hvalue
      simp [hlf, hcr]
    · intro c hc
      obtain ⟨-, hlf, hcr⟩ := e.value_padChar c hc
      simp [hlf, hcr]
  rw [decode, List.filter_eq_self.mpr hkept]
  exact e.decodeQuanta_encode l

/-! ## The standard alphabet -/

def alphabet : List Char :=
  "ABCDEFGHIJKLMNOPQRSTUVWXYZabcdefghijklmnopqrstuvwxyz0123456789+/".toList

def RawStdEncoding : Base64 where
  char n := alphabet.getD n 'A'
  value c := alphabet.idxOf? c
  padChar := none
  value_char := by decide +kernel
  value_newline := by decide +kernel
  value_padChar := fun _ hc => nomatch hc

def StdEncoding : Base64 where
  char := RawStdEncoding.char
  value := RawStdEncoding.value
  padChar := some '='
  value_char := RawStdEncoding.value_char
  value_newline := RawStdEncoding.value_newline
  value_padChar c hc := by
    cases hc
    decide +kernel

end Base64

end FamilyPlanner.Foundation
