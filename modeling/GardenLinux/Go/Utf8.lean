import Mathlib.Data.List.Basic
import Mathlib.Algebra.Group.Nat.Basic

/-!
# Go strings and UTF-8

A Go `string` is a sequence of bytes: `len` counts bytes, slicing cuts at byte offsets, and
nothing requires the bytes to be valid UTF-8. The packages the repository reads text with
(`bufio`'s `ScanWords`, `encoding/json`) decode a string rune by rune with `unicode/utf8`,
and a byte that starts no valid encoding decodes to `RuneError` (U+FFFD) of width one.

The model keeps a string as its bytes (`GoString`). `Utf8.decodeRune` is Go's
`utf8.DecodeRune` and `Utf8.encodeRune` its `utf8.EncodeRune`, their bit masks written as the
remainders they compute (`c & 0x3F` is `c % 64`, `r >> 6` is `r / 64`). A Lean `String` is a
sequence of Unicode scalar values, so its encoding `GoString.ofString` is exactly a valid UTF-8
Go string; Go's string literals are written through it.

Decoding reads back what encoding wrote (`decodeRune_encodeRune`), so the runes of an encoded
string are its characters (`runes_ofString`). A string decodes piecewise at a boundary where
the second piece does not start with a continuation byte (`runes_append`): the decoder never
reads past a byte that cannot continue the sequence it is in.

Conversely, each rune a string decodes to is a stray byte read as `RuneError`, or a scalar value
whose encoding is the bytes it was read from (`decodeRune_cases`). Encoding the runes again,
Go's `string([]rune(s))` (`reencode`), therefore gives valid UTF-8, and it gives back exactly
the strings that are valid (`reencode_eq_self_iff`).
-/

namespace GardenLinux

/-- A Go `string`: the bytes it holds. -/
abbrev GoString := List UInt8

namespace Utf8

/-- `utf8.RuneError`, U+FFFD. -/
def RuneError : Nat := 0xFFFD

/-- `utf8.MaxRune`, the largest Unicode code point. -/
def MaxRune : Nat := 0x10FFFF

/-- A continuation byte `10xxxxxx`, Go's `tx <= c && c < t2`. -/
def isCont (b : UInt8) : Bool := 0x80 ≤ b.toNat && b.toNat < 0xC0

/-- The rune of a two-byte sequence, unless it is overlong (`r <= rune1Max`). -/
def rune2 (c0 c1 : Nat) : Option Nat :=
  let r := c0 % 32 * 64 + c1 % 64
  if r ≤ 0x7F then none else some r

/-- The rune of a three-byte sequence, unless it is overlong or a surrogate half. -/
def rune3 (c0 c1 c2 : Nat) : Option Nat :=
  let r := c0 % 16 * 4096 + c1 % 64 * 64 + c2 % 64
  if r ≤ 0x7FF ∨ (0xD800 ≤ r ∧ r ≤ 0xDFFF) then none else some r

/-- The rune of a four-byte sequence, unless its lead byte is not `11110xxx`, or it is
overlong or beyond `MaxRune`. -/
def rune4 (c0 c1 c2 c3 : Nat) : Option Nat :=
  let r := c0 % 8 * 262144 + c1 % 64 * 4096 + c2 % 64 * 64 + c3 % 64
  if c0 < 0xF8 ∧ ¬ (r ≤ 0xFFFF ∨ MaxRune < r) then some r else none

/-- A well-formed `k`-byte sequence decodes to its rune; an ill-formed one to `RuneError` of
width one. -/
def accept (k : Nat) : Option Nat → Nat × Nat
  | some r => (r, k)
  | none => (RuneError, 1)

/-- Go's `utf8.DecodeRune`: the first rune of `s` and its width in bytes. Reference:
`unicode/utf8.decodeRuneInternal`. -/
def decodeRune : GoString → Nat × Nat
  | [] => (RuneError, 0)
  | c0 :: s =>
    if c0.toNat < 0x80 then (c0.toNat, 1)
    else if c0.toNat < 0xC0 then (RuneError, 1)
    else match s with
    | [] => (RuneError, 1)
    | c1 :: s =>
      if !isCont c1 then (RuneError, 1)
      else if c0.toNat < 0xE0 then accept 2 (rune2 c0.toNat c1.toNat)
      else match s with
      | [] => (RuneError, 1)
      | c2 :: s =>
        if !isCont c2 then (RuneError, 1)
        else if c0.toNat < 0xF0 then accept 3 (rune3 c0.toNat c1.toNat c2.toNat)
        else match s with
        | [] => (RuneError, 1)
        | c3 :: _ =>
          if !isCont c3 then (RuneError, 1)
          else accept 4 (rune4 c0.toNat c1.toNat c2.toNat c3.toNat)

/-- Go's `utf8.EncodeRune`: the UTF-8 bytes of `r`. An invalid rune falls through to the
three-byte case as `RuneError`, whose bytes are `EF BF BD`. -/
def encodeRune (r : Nat) : GoString :=
  if r ≤ 0x7F then [r.toUInt8]
  else if r ≤ 0x7FF then [(0xC0 + r / 64).toUInt8, (0x80 + r % 64).toUInt8]
  else if MaxRune < r ∨ (0xD800 ≤ r ∧ r ≤ 0xDFFF) then [0xEF, 0xBF, 0xBD]
  else if r ≤ 0xFFFF then
    [(0xE0 + r / 4096).toUInt8, (0x80 + r / 64 % 64).toUInt8, (0x80 + r % 64).toUInt8]
  else
    [(0xF0 + r / 262144).toUInt8, (0x80 + r / 4096 % 64).toUInt8,
      (0x80 + r / 64 % 64).toUInt8, (0x80 + r % 64).toUInt8]

/-- A Unicode scalar value: a code point that is not a surrogate half. -/
def ValidRune (r : Nat) : Prop := r < 0xD800 ∨ (0xDFFF < r ∧ r ≤ MaxRune)

/-- Every character of a Lean string is a Unicode scalar value. -/
theorem validRune_char (c : Char) : ValidRune c.toNat := by
  have := c.valid
  simp only [UInt32.isValidChar, Nat.isValidChar] at this
  unfold ValidRune MaxRune Char.toNat
  omega

/-! ## Decoding what was encoded -/

section
variable {c0 c1 c2 c3 : UInt8} {s : GoString} {r : Nat}

/-- A byte-sized number is kept by the cast to `UInt8`. -/
theorem toNat_toUInt8 {n : Nat} (h : n < 256) : n.toUInt8.toNat = n := UInt8.toNat_ofNat_of_lt h

/-- `0x80 + n`, for `n < 64`, is a continuation byte. -/
theorem isCont_toUInt8 {n : Nat} (h : n < 64) : isCont (0x80 + n).toUInt8 = true := by
  simp [isCont, toNat_toUInt8 (show 0x80 + n < 256 by omega)]; omega

/-- An ASCII byte is a rune of one byte. -/
theorem decodeRune_one (h : c0.toNat < 0x80) : decodeRune (c0 :: s) = (c0.toNat, 1) := by
  simp [decodeRune, h]

/-- A two-byte encoding, not overlong, is its rune. -/
theorem decodeRune_two (h0 : 0xC0 ≤ c0.toNat ∧ c0.toNat < 0xE0) (h1 : isCont c1)
    (hr : 0x7F < c0.toNat % 32 * 64 + c1.toNat % 64) :
    decodeRune (c0 :: c1 :: s) = (c0.toNat % 32 * 64 + c1.toNat % 64, 2) := by
  simp only [decodeRune, h1, Bool.not_true, if_neg (show ¬ c0.toNat < 0x80 by omega),
    if_neg (show ¬ c0.toNat < 0xC0 by omega), if_pos h0.2, rune2, if_neg (Nat.not_le.2 hr)]
  rfl

/-- A three-byte encoding, not overlong and no surrogate, is its rune. -/
theorem decodeRune_three (h0 : 0xE0 ≤ c0.toNat ∧ c0.toNat < 0xF0) (h1 : isCont c1)
    (h2 : isCont c2) (hr : 0x7FF < c0.toNat % 16 * 4096 + c1.toNat % 64 * 64 + c2.toNat % 64)
    (hs : ¬ (0xD800 ≤ c0.toNat % 16 * 4096 + c1.toNat % 64 * 64 + c2.toNat % 64 ∧
      c0.toNat % 16 * 4096 + c1.toNat % 64 * 64 + c2.toNat % 64 ≤ 0xDFFF)) :
    decodeRune (c0 :: c1 :: c2 :: s) =
      (c0.toNat % 16 * 4096 + c1.toNat % 64 * 64 + c2.toNat % 64, 3) := by
  simp only [decodeRune, h1, h2, Bool.not_true, if_neg (show ¬ c0.toNat < 0x80 by omega),
    if_neg (show ¬ c0.toNat < 0xC0 by omega), if_neg (show ¬ c0.toNat < 0xE0 by omega),
    if_pos h0.2, rune3, if_neg (not_or.2 ⟨Nat.not_le.2 hr, hs⟩)]
  rfl

/-- A four-byte encoding, not overlong and at most `MaxRune`, is its rune. -/
theorem decodeRune_four (h0 : 0xF0 ≤ c0.toNat ∧ c0.toNat < 0xF8) (h1 : isCont c1)
    (h2 : isCont c2) (h3 : isCont c3)
    (hr : 0xFFFF < c0.toNat % 8 * 262144 + c1.toNat % 64 * 4096 + c2.toNat % 64 * 64 +
      c3.toNat % 64)
    (hm : c0.toNat % 8 * 262144 + c1.toNat % 64 * 4096 + c2.toNat % 64 * 64 + c3.toNat % 64 ≤
      MaxRune) :
    decodeRune (c0 :: c1 :: c2 :: c3 :: s) =
      (c0.toNat % 8 * 262144 + c1.toNat % 64 * 4096 + c2.toNat % 64 * 64 + c3.toNat % 64, 4) := by
  simp only [decodeRune, h1, h2, h3, Bool.not_true, if_neg (show ¬ c0.toNat < 0x80 by omega),
    if_neg (show ¬ c0.toNat < 0xC0 by omega), if_neg (show ¬ c0.toNat < 0xE0 by omega),
    if_neg (show ¬ c0.toNat < 0xF0 by omega), rune4,
    if_pos (⟨h0.2, not_or.2 ⟨Nat.not_le.2 hr, Nat.not_lt.2 hm⟩⟩ : _ ∧ ¬ _)]
  rfl

/-- A rune up to `0x7F` is written as one byte. -/
theorem encodeRune_one (h : r ≤ 0x7F) : encodeRune r = [r.toUInt8] := by
  rw [encodeRune, if_pos h]

/-- A rune up to `0x7FF` is written as two bytes. -/
theorem encodeRune_two (h : 0x7F < r ∧ r ≤ 0x7FF) :
    encodeRune r = [(0xC0 + r / 64).toUInt8, (0x80 + r % 64).toUInt8] := by
  rw [encodeRune, if_neg (by omega), if_pos h.2]

/-- A rune up to `0xFFFF`, no surrogate, is written as three bytes. -/
theorem encodeRune_three (h : 0x7FF < r ∧ r ≤ 0xFFFF) (hs : ¬ (0xD800 ≤ r ∧ r ≤ 0xDFFF)) :
    encodeRune r =
      [(0xE0 + r / 4096).toUInt8, (0x80 + r / 64 % 64).toUInt8, (0x80 + r % 64).toUInt8] := by
  have hv : ¬ (MaxRune < r ∨ (0xD800 ≤ r ∧ r ≤ 0xDFFF)) := by unfold MaxRune; omega
  rw [encodeRune, if_neg (by omega), if_neg (by omega), if_neg hv, if_pos h.2]

/-- A rune above `0xFFFF`, up to `MaxRune`, is written as four bytes. -/
theorem encodeRune_four (h : 0xFFFF < r ∧ r ≤ MaxRune) :
    encodeRune r = [(0xF0 + r / 262144).toUInt8, (0x80 + r / 4096 % 64).toUInt8,
      (0x80 + r / 64 % 64).toUInt8, (0x80 + r % 64).toUInt8] := by
  have hv : ¬ (MaxRune < r ∨ (0xD800 ≤ r ∧ r ≤ 0xDFFF)) := by omega
  rw [encodeRune, if_neg (by omega), if_neg (by omega), if_neg hv, if_neg (by omega)]

/-- A lead or continuation byte's payload: the value added to its tag. -/
theorem toUInt8_add_mod {m n k : Nat} (hm : m % k = 0) (h : m + n < 256) :
    (m + n).toUInt8.toNat % k = n % k := by
  rw [toNat_toUInt8 h, Nat.add_mod, hm, Nat.zero_add, Nat.mod_mod]

/-- **`DecodeRune` inverts `EncodeRune`.** A scalar value's encoding decodes to it, with its
full width, whatever follows it. Reference: the round trip `unicode/utf8`'s tests check on
samples. -/
theorem decodeRune_encodeRune (hr : ValidRune r) (rest : GoString) :
    decodeRune (encodeRune r ++ rest) = (r, (encodeRune r).length) := by
  unfold ValidRune MaxRune at hr
  rcases Nat.lt_or_ge 0x7F r with h1 | h1
  · rcases Nat.lt_or_ge 0x7FF r with h2 | h2
    · rcases Nat.lt_or_ge 0xFFFF r with h3 | h3
      · have hv :
            r / 262144 % 8 * 262144 + r / 4096 % 64 * 4096 + r / 64 % 64 * 64 + r % 64 = r := by
          have := Nat.div_div_eq_div_mul r 64 64
          have := Nat.div_div_eq_div_mul r 4096 64
          omega
        rw [encodeRune_four ⟨h3, by unfold MaxRune; omega⟩]
        simp only [List.cons_append, List.length_cons, List.length_nil]
        rw [decodeRune_four] <;>
          simp (disch := omega) only [↓toUInt8_add_mod, Prod.mk.injEq, toNat_toUInt8,
            Nat.mod_mod, hv, isCont_toUInt8, MaxRune] <;>
          omega
      · have hv : r / 4096 % 16 * 4096 + r / 64 % 64 * 64 + r % 64 = r := by
          have := Nat.div_div_eq_div_mul r 64 64
          omega
        rw [encodeRune_three ⟨h2, h3⟩ (by omega)]
        simp only [List.cons_append, List.length_cons, List.length_nil]
        rw [decodeRune_three] <;>
          simp (disch := omega) only [↓toUInt8_add_mod, Prod.mk.injEq, toNat_toUInt8,
            Nat.mod_mod, hv, isCont_toUInt8] <;>
          omega
    · have hv : r / 64 % 32 * 64 + r % 64 = r := by omega
      rw [encodeRune_two ⟨h1, h2⟩]
      simp only [List.cons_append, List.length_cons, List.length_nil]
      rw [decodeRune_two] <;>
        simp (disch := omega) only [↓toUInt8_add_mod, Prod.mk.injEq, toNat_toUInt8,
          Nat.mod_mod, hv, isCont_toUInt8] <;>
        omega
  · rw [encodeRune_one h1, List.cons_append,
      decodeRune_one (by rw [toNat_toUInt8 (by omega)]; omega), toNat_toUInt8 (by omega)]
    rfl

/-- An encoding is never empty. -/
theorem encodeRune_ne_nil (r : Nat) : encodeRune r ≠ [] := by
  unfold encodeRune; split_ifs <;> simp

/-- An encoding never starts with a continuation byte, so a decoder reading the bytes before it
stops there. -/
theorem isCont_head_encodeRune (r : Nat) : ∀ b ∈ (encodeRune r).head?, isCont b = false := by
  intro b hb
  have lead : ∀ n, n < 0x80 ∨ (0xC0 ≤ n ∧ n < 256) → isCont n.toUInt8 = false := by
    intro n hn
    simp only [isCont, toNat_toUInt8 (show n < 256 by omega), Bool.and_eq_false_iff,
      decide_eq_false_iff_not]
    omega
  unfold encodeRune MaxRune at hb
  split_ifs at hb <;> simp only [List.head?_cons, Option.mem_def, Option.some.injEq] at hb <;>
    subst hb
  · exact lead r (by omega)
  · exact lead _ (by omega)
  · rfl
  · exact lead _ (by omega)
  · exact lead _ (by omega)

/-- A rune beyond ASCII encodes to a lead byte beyond ASCII and at least one more byte. -/
theorem encodeRune_multibyte (h : 0x7F < r) :
    ∃ b bs, encodeRune r = b :: bs ∧ 0x80 ≤ b.toNat ∧ bs ≠ [] := by
  unfold encodeRune MaxRune
  split_ifs
  · omega
  · exact ⟨_, _, rfl, by rw [toNat_toUInt8 (by omega)]; omega, List.cons_ne_nil _ _⟩
  · exact ⟨_, _, rfl, by decide, List.cons_ne_nil _ _⟩
  · exact ⟨_, _, rfl, by rw [toNat_toUInt8 (by omega)]; omega, List.cons_ne_nil _ _⟩
  · exact ⟨_, _, rfl, by rw [toNat_toUInt8 (by omega)]; omega, List.cons_ne_nil _ _⟩

end

/-! ## Widths and boundaries -/

/-- A non-empty string's first rune is between one byte and the whole string wide. -/
theorem decodeRune_size (b : UInt8) (bs : GoString) :
    1 ≤ (decodeRune (b :: bs)).2 ∧ (decodeRune (b :: bs)).2 ≤ bs.length + 1 := by
  dsimp only [decodeRune, accept]
  repeat' split
  all_goals simp only [List.length_cons]; omega

/-- The decoder reads no byte after a non-empty prefix that is followed by a byte that cannot
continue a sequence. -/
theorem decodeRune_append {s t : GoString} (hs : s ≠ []) (ht : ∀ x ∈ t.head?, isCont x = false) :
    decodeRune (s ++ t) = decodeRune s := by
  rcases t with _ | ⟨x, t⟩
  · rw [List.append_nil]
  have hx : isCont x = false := ht x rfl
  rcases s with _ | ⟨c0, _ | ⟨c1, _ | ⟨c2, _ | ⟨c3, s⟩⟩⟩⟩
  · exact absurd rfl hs
  all_goals simp [decodeRune, hx]

/-- Decoding a rune consumes at least one byte. -/
theorem length_drop_decodeRune (b : UInt8) (bs : GoString) :
    ((b :: bs).drop (decodeRune (b :: bs)).2).length < (b :: bs).length := by
  have := decodeRune_size b bs
  simp only [List.length_drop, List.length_cons]
  omega

/-- The runes of `s`, each with the bytes it was decoded from, in the order Go's loop
`for i := 0; i < len(s); i += size { r, size = utf8.DecodeRune(s[i:]) }` visits them. -/
def runes : GoString → List (Nat × GoString)
  | [] => []
  | b :: bs =>
    let d := decodeRune (b :: bs)
    (d.1, (b :: bs).take d.2) :: runes ((b :: bs).drop d.2)
termination_by s => s.length
decreasing_by exact length_drop_decodeRune _ _

@[simp] theorem runes_nil : runes [] = [] := by rw [runes]

/-- `[]rune(s)` takes the first rune `DecodeRune` reads, then the runes of what follows it. -/
theorem runes_cons (b : UInt8) (bs : GoString) :
    runes (b :: bs) = ((decodeRune (b :: bs)).1, (b :: bs).take (decodeRune (b :: bs)).2) ::
      runes ((b :: bs).drop (decodeRune (b :: bs)).2) := by
  rw [runes]

/-- A scalar value's encoding is one rune, whatever follows it. -/
theorem runes_encodeRune {r : Nat} (hr : ValidRune r) (rest : GoString) :
    runes (encodeRune r ++ rest) = (r, encodeRune r) :: runes rest := by
  obtain ⟨b, bs, hb⟩ := List.exists_cons_of_ne_nil (encodeRune_ne_nil r)
  have hd := decodeRune_encodeRune hr rest
  rw [hb, List.cons_append] at hd ⊢
  rw [runes_cons, hd, ← List.cons_append, List.take_left', List.drop_left']
  all_goals simp

/-- **Decoding splits at a boundary.** When `t` does not start with a continuation byte, the
runes of `s ++ t` are those of `s` followed by those of `t`. Reference: Go's `unicode/utf8/utf8.go`,
`func DecodeRune`. -/
theorem runes_append (s t : GoString) (ht : ∀ x ∈ t.head?, isCont x = false) :
    runes (s ++ t) = runes s ++ runes t := by
  induction s using runes.induct with
  | case1 => simp
  | case2 b bs d ih =>
    have hsz := decodeRune_size b bs
    have hd : decodeRune (b :: (bs ++ t)) = decodeRune (b :: bs) :=
      decodeRune_append (s := b :: bs) (List.cons_ne_nil _ _) ht
    rw [List.cons_append, runes_cons, hd, runes_cons, List.cons_append, ← List.cons_append,
      List.take_append_of_le_length (by simp; omega),
      List.drop_append_of_le_length (by simp; omega), ih]

/-! ## What a rune's bytes are -/

/-- Two bytes that start well are accepted unless the rune is overlong. -/
theorem accept_rune2 (a b : Nat) : accept 2 (rune2 a b) =
    if a % 32 * 64 + b % 64 ≤ 0x7F then (RuneError, 1) else (a % 32 * 64 + b % 64, 2) := by
  unfold rune2; dsimp only; split_ifs <;> rfl

/-- Three bytes that start well are accepted unless the rune is overlong or a surrogate. -/
theorem accept_rune3 (a b c : Nat) : accept 3 (rune3 a b c) =
    if a % 16 * 4096 + b % 64 * 64 + c % 64 ≤ 0x7FF ∨
      (0xD800 ≤ a % 16 * 4096 + b % 64 * 64 + c % 64 ∧
        a % 16 * 4096 + b % 64 * 64 + c % 64 ≤ 0xDFFF)
    then (RuneError, 1) else (a % 16 * 4096 + b % 64 * 64 + c % 64, 3) := by
  unfold rune3; dsimp only; split_ifs <;> rfl

/-- Four bytes that start well are accepted when the first is below `0xF8` and the rune is
neither overlong nor above `MaxRune`. -/
theorem accept_rune4 (a b c d : Nat) : accept 4 (rune4 a b c d) =
    if a < 0xF8 ∧ ¬ (a % 8 * 262144 + b % 64 * 4096 + c % 64 * 64 + d % 64 ≤ 0xFFFF ∨
      MaxRune < a % 8 * 262144 + b % 64 * 4096 + c % 64 * 64 + d % 64)
    then (a % 8 * 262144 + b % 64 * 4096 + c % 64 * 64 + d % 64, 4) else (RuneError, 1) := by
  unfold rune4; dsimp only; split_ifs <;> rfl

/-- A number that is a byte's value casts back to that byte. -/
theorem toUInt8_of_eq_toNat {n : Nat} {b : UInt8} (h : n = b.toNat) : n.toUInt8 = b := by
  subst h
  exact UInt8.toNat.inj (toNat_toUInt8 b.toNat_lt_size)

/-- A continuation byte lies in `0x80`-`0xBF`. -/
theorem isCont_bounds {c : UInt8} (h : ¬(!isCont c) = true) :
    0x80 ≤ c.toNat ∧ c.toNat < 0xC0 := by
  simpa [isCont] using h

/-- **`EncodeRune` inverts `DecodeRune`.** The first rune of a non-empty string is either a byte
that starts no valid encoding, read as `RuneError` of width one, or a scalar value whose
encoding is the bytes it was read from. Reference: Go's `unicode/utf8/utf8.go`, `func DecodeRune`.
-/
theorem decodeRune_cases (b : UInt8) (bs : GoString) :
    ((decodeRune (b :: bs)).1 = RuneError ∧ (decodeRune (b :: bs)).2 = 1) ∨
      (ValidRune (decodeRune (b :: bs)).1 ∧
        (b :: bs).take (decodeRune (b :: bs)).2 = encodeRune (decodeRune (b :: bs)).1) := by
  suffices h : ∀ d, decodeRune (b :: bs) = d → (d.1 = RuneError ∧ d.2 = 1) ∨
      (ValidRune d.1 ∧ (b :: bs).take d.2 = encodeRune d.1) from h _ rfl
  intro d hd
  -- One goal for each way `decodeRune` returns: all but four return `(RuneError, 1)`.
  rw [decodeRune.eq_def] at hd
  dsimp only at hd
  repeat' split at hd
  all_goals try simp only [accept_rune2, accept_rune3, accept_rune4] at hd
  all_goals try split at hd
  all_goals subst hd
  all_goals first | exact Or.inl ⟨rfl, rfl⟩ | right
  · refine ⟨by unfold ValidRune; omega, ?_⟩
    rw [encodeRune_one (by omega), toUInt8_of_eq_toNat rfl]
    rfl
  · rename_i _ _ _ c1 tail h1 _ _
    have := isCont_bounds h1
    refine ⟨by unfold ValidRune; omega, ?_⟩
    show [b, c1] = _
    rw [encodeRune_two ⟨by omega, by omega⟩, toUInt8_of_eq_toNat (b := b) (by omega),
      toUInt8_of_eq_toNat (b := c1) (by omega)]
  · rename_i _ _ _ c1 h1 _ _ c2 tail h2 _ hr
    have := isCont_bounds h1
    have := isCont_bounds h2
    refine ⟨by unfold ValidRune MaxRune; omega, ?_⟩
    show [b, c1, c2] = _
    rw [encodeRune_three ⟨by omega, by omega⟩ (by omega), toUInt8_of_eq_toNat (b := b) (by omega),
      toUInt8_of_eq_toNat (b := c1) (by omega), toUInt8_of_eq_toNat (b := c2) (by omega)]
  · rename_i _ _ _ c1 h1 _ _ c2 h2 _ _ c3 tail h3 hr
    have := isCont_bounds h1
    have := isCont_bounds h2
    have := isCont_bounds h3
    unfold MaxRune at hr
    refine ⟨by unfold ValidRune MaxRune; omega, ?_⟩
    show [b, c1, c2, c3] = _
    rw [encodeRune_four ⟨by omega, by unfold MaxRune; omega⟩,
      toUInt8_of_eq_toNat (b := b) (by omega), toUInt8_of_eq_toNat (b := c1) (by omega),
      toUInt8_of_eq_toNat (b := c2) (by omega), toUInt8_of_eq_toNat (b := c3) (by omega)]

/-- Each rune of a string is a stray byte read as `RuneError`, or a scalar value with the bytes
of its encoding. -/
theorem mem_runes {s : GoString} {p : Nat × GoString} (hp : p ∈ runes s) :
    (p.1 = RuneError ∧ p.2.length = 1) ∨ (ValidRune p.1 ∧ p.2 = encodeRune p.1) := by
  induction s using runes.induct with
  | case1 => simp at hp
  | case2 b bs d ih =>
    rw [runes_cons] at hp
    rcases List.mem_cons.1 hp with rfl | hp
    · rcases decodeRune_cases b bs with ⟨h1, h2⟩ | h
      · exact Or.inl ⟨h1, by rw [h2]; rfl⟩
      · exact Or.inr h
    · exact ih hp

/-- Every rune `[]rune(s)` reads is a scalar value: U+FFFD stands for a bad byte. -/
theorem validRune_of_mem_runes {s : GoString} {p : Nat × GoString} (hp : p ∈ runes s) :
    ValidRune p.1 := by
  rcases mem_runes hp with ⟨h, -⟩ | ⟨h, -⟩
  · rw [h]; unfold ValidRune RuneError MaxRune; omega
  · exact h

end Utf8

/-- The UTF-8 encoding of a Lean string: the Go string of the same text. -/
def GoString.ofString (s : String) : GoString := s.data.flatMap fun c => Utf8.encodeRune c.toNat

/-- The runes of an encoded string are its characters. -/
theorem GoString.runes_ofString (s : String) :
    Utf8.runes (GoString.ofString s) = s.data.map fun c => (c.toNat, Utf8.encodeRune c.toNat) := by
  obtain ⟨cs⟩ := s
  induction cs with
  | nil => simp [GoString.ofString]
  | cons c cs ih =>
    simp only [GoString.ofString, List.flatMap_cons, List.map_cons] at ih ⊢
    rw [Utf8.runes_encodeRune (Utf8.validRune_char c), ih]

/-- Valid UTF-8: the encoding of a sequence of Unicode scalar values, that is of a Lean
`String`. -/
def Utf8.Valid (s : GoString) : Prop := ∃ t : String, GoString.ofString t = s

/-- A scalar value is kept by `Char.ofNat`. -/
theorem toNat_charOfNat_of_validRune {n : Nat} (h : Utf8.ValidRune n) :
    (Char.ofNat n).toNat = n := by
  have hv : n.isValidChar := by unfold Utf8.ValidRune Utf8.MaxRune at h; unfold Nat.isValidChar; omega
  simp [Char.ofNat, hv, Char.ofNatAux, Char.toNat, UInt32.toNat]

/-- A value below the surrogates is kept by `Char.ofNat`. -/
theorem toNat_charOfNat {n : Nat} (h : n < 0xD800) : (Char.ofNat n).toNat = n :=
  toNat_charOfNat_of_validRune (Or.inl h)

/-- ASCII text is valid UTF-8. -/
theorem Utf8.Valid.of_ascii {s : GoString} (h : ∀ b ∈ s, b.toNat < 0x80) : Utf8.Valid s := by
  refine ⟨⟨s.map fun b => Char.ofNat b.toNat⟩, ?_⟩
  induction s with
  | nil => rfl
  | cons b s ih =>
    have hb := h b (.head _)
    simp only [GoString.ofString, List.map_cons, List.flatMap_cons] at ih ⊢
    rw [ih (fun x hx => h x (.tail _ hx)), toNat_charOfNat (by omega),
      Utf8.encodeRune_one (by omega), UInt8.toNat.inj (Utf8.toNat_toUInt8 b.toNat_lt_size)]
    rfl

/-- Valid UTF-8 strings concatenate to one. -/
theorem Utf8.Valid.append {s t : GoString} (hs : Utf8.Valid s) (ht : Utf8.Valid t) :
    Utf8.Valid (s ++ t) := by
  obtain ⟨⟨cs⟩, rfl⟩ := hs
  obtain ⟨⟨ct⟩, rfl⟩ := ht
  exact ⟨⟨cs ++ ct⟩, List.flatMap_append _ _ _⟩

namespace Utf8

/-- Go's `string([]rune(s))`: each rune of `s` decoded and encoded again, so that each byte that
starts no valid encoding becomes U+FFFD and the rest is kept. -/
def reencode (s : GoString) : GoString := (runes s).flatMap fun p => encodeRune p.1

/-- A Lean string's bytes are valid UTF-8, so `string([]rune(s))` keeps them. -/
theorem reencode_ofString (t : String) : reencode (GoString.ofString t) = GoString.ofString t := by
  rw [reencode, GoString.runes_ofString, List.flatMap_map]
  rfl

/-- What `reencode` returns is valid UTF-8: the encoding of the runes it decoded. -/
theorem valid_reencode (s : GoString) : Valid (reencode s) := by
  refine ⟨⟨(runes s).map fun p => Char.ofNat p.1⟩, ?_⟩
  simp only [GoString.ofString, reencode, List.flatMap_map]
  exact List.flatMap_congr fun p hp => by rw [toNat_charOfNat_of_validRune (validRune_of_mem_runes hp)]

/-- **Re-encoding keeps exactly the valid strings.** Reference: Go's `unicode/utf8/utf8.go`, `func
Valid`. -/
theorem reencode_eq_self_iff (s : GoString) : reencode s = s ↔ Valid s := by
  constructor
  · intro h
    exact h ▸ valid_reencode s
  · rintro ⟨t, rfl⟩
    exact reencode_ofString t

/-- A valid string in front decodes as itself, whatever follows it. -/
theorem reencode_ofString_append (t : String) (x : GoString) :
    reencode (GoString.ofString t ++ x) = GoString.ofString t ++ reencode x := by
  obtain ⟨cs⟩ := t
  induction cs with
  | nil => rfl
  | cons c cs ih =>
    simp only [GoString.ofString, List.flatMap_cons, List.append_assoc] at ih ⊢
    rw [reencode, runes_encodeRune (validRune_char c), List.flatMap_cons, ← reencode, ih]

/-- Behind a boundary that is no continuation byte, the two parts decode apart. -/
theorem reencode_append (x y : GoString) (hy : ∀ b ∈ y.head?, isCont b = false) :
    reencode (x ++ y) = reencode x ++ reencode y := by
  simp only [reencode, runes_append x y hy, List.flatMap_append]

/-- Behind a valid string, the rest is valid exactly when the whole is. -/
theorem Valid.append_iff_left {s : GoString} (hs : Valid s) (x : GoString) :
    Valid (s ++ x) ↔ Valid x := by
  obtain ⟨t, rfl⟩ := hs
  rw [← reencode_eq_self_iff, ← reencode_eq_self_iff, reencode_ofString_append,
    List.append_cancel_left_eq]

/-- In front of a valid string that starts with no continuation byte, the rest is valid exactly
when the whole is. -/
theorem Valid.append_iff_right {y : GoString} (hy : Valid y) (hh : ∀ b ∈ y.head?, isCont b = false)
    (x : GoString) : Valid (x ++ y) ↔ Valid x := by
  rw [← reencode_eq_self_iff, ← reencode_eq_self_iff, reencode_append x y hh,
    (reencode_eq_self_iff y).2 hy, List.append_cancel_right_eq]

/-- No valid string starts with a continuation byte. -/
theorem not_valid_cons_of_isCont {c : UInt8} (hc : isCont c = true) (s : GoString) :
    ¬ Valid (c :: s) := by
  rintro ⟨⟨_ | ⟨ch, cs⟩⟩, h⟩
  · simp [GoString.ofString] at h
  · obtain ⟨b, bs, hb⟩ := List.exists_cons_of_ne_nil (encodeRune_ne_nil ch.toNat)
    have hlead := isCont_head_encodeRune ch.toNat b (by rw [hb]; rfl)
    simp only [GoString.ofString, List.flatMap_cons, hb, List.cons_append, List.cons.injEq] at h
    rw [h.1, hc] at hlead
    cases hlead

end Utf8

end GardenLinux
