import Mathlib.Data.List.DropRight
import Mathlib.Tactic.Linarith
/-!
# Base64 — the URL-safe alphabet, padded and not

`encode` writes groups of four characters, the last one filled with `=`.  `decode` is the lenient reader: it passes over
what is not in the alphabet, takes `+` and `/` as well, and stops at the padding that closes a group.
-/
namespace Base64

def alphabet : List Char := "ABCDEFGHIJKLMNOPQRSTUVWXYZabcdefghijklmnopqrstuvwxyz0123456789-_".toList

def digit (n : Nat) : Char := alphabet.getD n 'A'

def value (c : Char) : Option Nat :=
  if c = '+' then some 62 else if c = '/' then some 63 else alphabet.findIdx? (fun d => decide (d = c))

def encode : List UInt8 → List Char
  | a :: b :: c :: rest =>
    digit (a.toNat / 4) :: digit (a.toNat % 4 * 16 + b.toNat / 16) :: digit (b.toNat % 16 * 4 + c.toNat / 64) ::
      digit (c.toNat % 64) :: encode rest
  | [a, b] => [digit (a.toNat / 4), digit (a.toNat % 4 * 16 + b.toNat / 16), digit (b.toNat % 16 * 4), '=']
  | [a]    => [digit (a.toNat / 4), digit (a.toNat % 4 * 16), '=', '=']
  | []     => []

/-- Reads from the `quad`th character of a group, with the bits that are `left` of the one before and the `=` seen. -/
def decodeFrom : Nat → Nat → Nat → List Char → Option (List UInt8)
  | quad, _, _, [] => if quad = 0 then some [] else none
  | quad, left, pads, c :: cs =>
    if c = '=' then
      if 2 ≤ quad then (if 4 ≤ quad + (pads + 1) then some [] else decodeFrom quad left (pads + 1) cs)
      else decodeFrom quad left pads cs
    else
      match value c with
      | none   => decodeFrom quad left pads cs
      | some v =>
        match quad with
        | 0 => decodeFrom 1 v 0 cs
        | 1 => (decodeFrom 2 (v % 16) 0 cs).map (UInt8.ofNat (left * 4 + v / 16) :: ·)
        | 2 => (decodeFrom 3 (v % 4) 0 cs).map (UInt8.ofNat (left * 16 + v / 4) :: ·)
        | _ => (decodeFrom 0 0 0 cs).map (UInt8.ofNat (left * 64 + v) :: ·)

def decode (s : List Char) : Option (List UInt8) := decodeFrom 0 0 0 s

/-- `s.rstrip("=")`. -/
def unpad (s : List Char) : List Char := s.rdropWhile (fun c => decide (c = '='))

/-- `s + "=" * (-len(s) % 4)`. -/
def pad (s : List Char) : List Char := s ++ List.replicate ((4 - s.length % 4) % 4) '='

theorem digit_ne_pad {n : Nat} (h : n < 64) : digit n ≠ '=' := by
  have hall : ∀ i : Fin 64, digit i.val ≠ '=' := by decide +kernel
  exact hall ⟨n, h⟩

theorem value_digit {n : Nat} (h : n < 64) : value (digit n) = some n := by
  have hall : ∀ i : Fin 64, value (digit i.val) = some i.val := by decide +kernel
  exact hall ⟨n, h⟩

theorem digit_ascii {n : Nat} (h : n < 64) : (digit n).toNat < 128 := by
  have hall : ∀ i : Fin 64, (digit i.val).toNat < 128 := by decide +kernel
  exact hall ⟨n, h⟩

section Reads

variable {left pads v : Nat} {cs : List Char}

theorem decodeFrom_first (h : v < 64) : decodeFrom 0 left pads (digit v :: cs) = decodeFrom 1 v 0 cs := by
  rw [decodeFrom, if_neg (digit_ne_pad h), value_digit h]
  rfl

theorem decodeFrom_second (h : v < 64) : decodeFrom 1 left pads (digit v :: cs) =
    (decodeFrom 2 (v % 16) 0 cs).map (UInt8.ofNat (left * 4 + v / 16) :: ·) := by
  rw [decodeFrom, if_neg (digit_ne_pad h), value_digit h]
  rfl

theorem decodeFrom_third (h : v < 64) : decodeFrom 2 left pads (digit v :: cs) =
    (decodeFrom 3 (v % 4) 0 cs).map (UInt8.ofNat (left * 16 + v / 4) :: ·) := by
  rw [decodeFrom, if_neg (digit_ne_pad h), value_digit h]
  rfl

theorem decodeFrom_fourth (h : v < 64) : decodeFrom 3 left pads (digit v :: cs) =
    (decodeFrom 0 0 0 cs).map (UInt8.ofNat (left * 64 + v) :: ·) := by
  rw [decodeFrom, if_neg (digit_ne_pad h), value_digit h]
  rfl

end Reads

/-- **What `encode` writes, `decode` reads back.** -/
theorem decode_encode : ∀ bytes : List UInt8, decode (encode bytes) = some bytes
  | [] => rfl
  | [a] => by
    have ha := a.toNat_lt
    have first : UInt8.ofNat (a.toNat / 4 * 4 + a.toNat % 4 * 16 / 16) = a := by
      rw [show a.toNat / 4 * 4 + a.toNat % 4 * 16 / 16 = a.toNat by omega, UInt8.ofNat_toNat]
    rw [decode, encode, decodeFrom_first (by omega), decodeFrom_second (by omega), first]
    rfl
  | [a, b] => by
    have ha := a.toNat_lt
    have hb := b.toNat_lt
    have first : UInt8.ofNat (a.toNat / 4 * 4 + (a.toNat % 4 * 16 + b.toNat / 16) / 16) = a := by
      rw [show a.toNat / 4 * 4 + (a.toNat % 4 * 16 + b.toNat / 16) / 16 = a.toNat by omega, UInt8.ofNat_toNat]
    have second : UInt8.ofNat ((a.toNat % 4 * 16 + b.toNat / 16) % 16 * 16 + b.toNat % 16 * 4 / 4) = b := by
      rw [show (a.toNat % 4 * 16 + b.toNat / 16) % 16 * 16 + b.toNat % 16 * 4 / 4 = b.toNat by omega,
        UInt8.ofNat_toNat]
    rw [decode, encode, decodeFrom_first (by omega), decodeFrom_second (by omega), decodeFrom_third (by omega), first,
      second]
    rfl
  | a :: b :: c :: rest => by
    have ha := a.toNat_lt
    have hb := b.toNat_lt
    have hc := c.toNat_lt
    have ih : decodeFrom 0 0 0 (encode rest) = some rest := decode_encode rest
    have first : UInt8.ofNat (a.toNat / 4 * 4 + (a.toNat % 4 * 16 + b.toNat / 16) / 16) = a := by
      rw [show a.toNat / 4 * 4 + (a.toNat % 4 * 16 + b.toNat / 16) / 16 = a.toNat by omega, UInt8.ofNat_toNat]
    have second : UInt8.ofNat
        ((a.toNat % 4 * 16 + b.toNat / 16) % 16 * 16 + (b.toNat % 16 * 4 + c.toNat / 64) / 4) = b := by
      rw [show (a.toNat % 4 * 16 + b.toNat / 16) % 16 * 16 + (b.toNat % 16 * 4 + c.toNat / 64) / 4 = b.toNat by omega,
        UInt8.ofNat_toNat]
    have third : UInt8.ofNat ((b.toNat % 16 * 4 + c.toNat / 64) % 4 * 64 + c.toNat % 64) = c := by
      rw [show (b.toNat % 16 * 4 + c.toNat / 64) % 4 * 64 + c.toNat % 64 = c.toNat by omega, UInt8.ofNat_toNat]
    rw [decode, encode, decodeFrom_first (by omega), decodeFrom_second (by omega), decodeFrom_third (by omega),
      decodeFrom_fourth (by omega), ih, first, second, third]
    rfl

/-- A character of an encoding. -/
def IsDigit (c : Char) : Prop := ∃ n < 64, c = digit n

/-- An encoding is digits, filled to a multiple of four. -/
theorem encode_eq_pad : ∀ bytes : List UInt8, ∃ body : List Char, (∀ c ∈ body, IsDigit c) ∧ encode bytes = pad body
  | [] => ⟨[], by simp, rfl⟩
  | [a] => by
    have ha := a.toNat_lt
    refine ⟨[digit (a.toNat / 4), digit (a.toNat % 4 * 16)], ?_, rfl⟩
    intro c hc
    rcases List.mem_pair.1 hc with rfl | rfl
    · exact ⟨_, by omega, rfl⟩
    · exact ⟨_, by omega, rfl⟩
  | [a, b] => by
    have ha := a.toNat_lt
    have hb := b.toNat_lt
    refine ⟨[digit (a.toNat / 4), digit (a.toNat % 4 * 16 + b.toNat / 16), digit (b.toNat % 16 * 4)], ?_, rfl⟩
    intro c hc
    simp only [List.mem_cons, List.not_mem_nil, or_false] at hc
    rcases hc with rfl | rfl | rfl
    · exact ⟨_, by omega, rfl⟩
    · exact ⟨_, by omega, rfl⟩
    · exact ⟨_, by omega, rfl⟩
  | a :: b :: c :: rest => by
    have ha := a.toNat_lt
    have hb := b.toNat_lt
    have hc := c.toNat_lt
    obtain ⟨body, hbody, heq⟩ := encode_eq_pad rest
    refine ⟨digit (a.toNat / 4) :: digit (a.toNat % 4 * 16 + b.toNat / 16) :: digit (b.toNat % 16 * 4 + c.toNat / 64) ::
      digit (c.toNat % 64) :: body, ?_, ?_⟩
    · intro d hd
      simp only [List.mem_cons] at hd
      rcases hd with rfl | rfl | rfl | rfl | hd
      · exact ⟨_, by omega, rfl⟩
      · exact ⟨_, by omega, rfl⟩
      · exact ⟨_, by omega, rfl⟩
      · exact ⟨_, by omega, rfl⟩
      · exact hbody d hd
    · have hlen : (body.length + 1 + 1 + 1 + 1) % 4 = body.length % 4 := by omega
      simp only [encode, heq, pad, List.cons_append, List.length_cons, hlen]

theorem unpad_pad {body : List Char} (h : ∀ c ∈ body, IsDigit c) : unpad (pad body) = body := by
  have hfill : ∀ n, unpad (body ++ List.replicate n '=') = body := by
    intro n
    induction n with
    | zero =>
      rw [List.replicate_zero, List.append_nil, unpad, List.rdropWhile_eq_self_iff]
      intro hne
      obtain ⟨n, hn, hc⟩ := h _ (List.getLast_mem hne)
      rw [hc]
      simpa using digit_ne_pad hn
    | succ n ih =>
      rw [List.replicate_succ', ← List.append_assoc, unpad, List.rdropWhile_concat_pos _ _ _ (by simp)]
      exact ih
  exact hfill _

/-- **The padding that was stripped comes back.** -/
theorem pad_unpad_encode (bytes : List UInt8) : pad (unpad (encode bytes)) = encode bytes := by
  obtain ⟨body, hbody, heq⟩ := encode_eq_pad bytes
  rw [heq, unpad_pad hbody]

theorem unpad_encode_ascii {bytes : List UInt8} {c : Char} (h : c ∈ unpad (encode bytes)) : c.toNat < 128 := by
  obtain ⟨body, hbody, heq⟩ := encode_eq_pad bytes
  rw [heq, unpad_pad hbody] at h
  obtain ⟨n, hn, rfl⟩ := hbody c h
  exact digit_ascii hn

theorem unpad_encode_ne_nil {bytes : List UInt8} (h : bytes ≠ []) : unpad (encode bytes) ≠ [] := by
  intro he
  have hpad := pad_unpad_encode bytes
  have hdecode := decode_encode bytes
  rw [he] at hpad
  rw [← hpad] at hdecode
  exact h (Option.some.inj hdecode).symm

end Base64
