import GardenLinux.Go.Strconv

/-!
# `fmt.Fscanf` with `%d`

`wshdPid` reads the daemon's PID with `fmt.Fscanf(pidFile, "%d", &pid)`. For that one verb the
scan skips white space, a newline excepted, takes an optional sign and the decimal digits after
it, and parses them with `strconv.ParseInt` into an `int` of 64 bits. `fscanfInt` is that scan
over the file's bytes, rune by rune as `fmt` reads them, and `parseInt` is `ParseInt` in base ten.

Every number below `2^63` written in decimal reads back, whatever follows it that is not a digit
(`fscanfInt_formatUint`).
-/

namespace GardenLinux

namespace Fmt

open Strconv Utf8

/-- `fmt`'s `isSpace`: the white space of its table. -/
def isSpace (r : Nat) : Bool :=
  (0x09 ≤ r && r ≤ 0x0d) || r = 0x20 || r = 0x85 || r = 0xa0 || r = 0x1680 ||
    (0x2000 ≤ r && r ≤ 0x200a) || r = 0x2028 || r = 0x2029 || r = 0x202f || r = 0x205f ||
    r = 0x3000

/-- `\r`. -/
def carriageReturn : Nat := 0x0D

/-- `\n`. -/
def lineFeed : Nat := 0x0A

/-- `io.EOF`, which `notEOF` panics with when no input is left. -/
def eofError : GoError := .text (GoString.ofString "EOF")

/-- `ss.SkipSpace` under `Fscanf`, over the runes `fmt` reads: it drops white space and a `\r`
before a `\n`, fails at a newline (`nlIsSpace` is false), and stops before any other rune. -/
def skipSpace : List (Nat × GoString) → Except GoError (List (Nat × GoString))
  | [] => .ok []
  | (r, bytes) :: rs =>
    if r = carriageReturn ∧ rs.head?.map Prod.fst = some lineFeed then skipSpace rs
    else if r = lineFeed then .error (.text (GoString.ofString "unexpected newline"))
    else if isSpace r then skipSpace rs
    else .ok ((r, bytes) :: rs)

/-- `+`. -/
def plus : UInt8 := 0x2B

/-- `-`. -/
def minus : UInt8 := 0x2D

/-- `strconv.ParseInt(s, 10, 64)`: an optional sign, then `ParseUint` of the rest, within
`-2^63 .. 2^63 - 1`. -/
def parseInt (s : GoString) : Except GoError Int :=
  if s = [] then .error (.numError "ParseInt" s .errSyntax)
  else
    let (neg, t) := match s with
      | b :: t => if b = plus then (false, t) else if b = minus then (true, t) else (false, s)
      | [] => (false, [])
    match parseUint t with
    | .error e => .error (.numError "ParseInt" s e)
    | .ok un =>
      if !neg && 2 ^ 63 ≤ un.toNat then .error (.numError "ParseInt" s .errRange)
      else if neg && 2 ^ 63 < un.toNat then .error (.numError "ParseInt" s .errRange)
      else .ok (if neg then -(un.toNat : Int) else un.toNat)

/-- A decimal digit as a rune. -/
def isDigitRune (r : Nat) : Bool := 0x30 ≤ r && r ≤ 0x39

/-- `Fscanf(r, "%d", &i)` on what `r` holds: `SkipSpace`, `notEOF`, `accept(sign)`, then
`scanNumber` (which asks for input and one digit at least) and `ParseInt` of the token, the bytes
of the runes it accepted. The overflow check for a 64-bit `int` cannot fail. -/
def fscanfInt (input : GoString) : Except GoError Int := do
  let rest ← skipSpace (runes input)
  if rest = [] then throw eofError
  let (sign, rest) := match rest with
    | (r, bytes) :: t =>
      if r = plus.toNat ∨ r = minus.toNat then (bytes, t) else ([], (r, bytes) :: t)
    | [] => ([], [])
  if rest = [] then throw eofError
  let digits := rest.takeWhile fun d => isDigitRune d.1
  if digits = [] then throw (.text (GoString.ofString "expected integer"))
  parseInt (sign ++ digits.flatMap Prod.snd)

/-- An ASCII text decodes byte by byte, whatever follows it. -/
theorem runes_ascii_append {s : GoString} (h : ∀ b ∈ s, b.toNat < 0x80) (t : GoString) :
    runes (s ++ t) = s.map (fun b => (b.toNat, [b])) ++ runes t := by
  induction s with
  | nil => rfl
  | cons b s ih =>
    rw [List.cons_append, runes_cons, decodeRune_one (h b (.head _)), List.take_one,
      List.drop_one, List.tail_cons, ih fun c hc => h c (.tail _ hc)]
    rfl

/-- `strconv.ParseInt` reads back the decimal of any `int64` that is not negative. -/
theorem parseInt_formatUint {v : Nat} (hv : v < 2 ^ 63) : parseInt (formatUint v) = .ok v := by
  obtain ⟨hne, hdig, -⟩ := formatUint_spec v
  obtain ⟨b, t, hbt⟩ := List.exists_cons_of_ne_nil hne
  have hb : isDigit b := hdig b (hbt ▸ List.mem_cons_self _ _)
  have hs : b ≠ plus ∧ b ≠ minus :=
    ⟨fun h => absurd (h ▸ hb) (by decide), fun h => absurd (h ▸ hb) (by decide)⟩
  have hu := parseUint_formatUint (v := v) (by omega)
  unfold parseInt
  simp only [if_neg hne, hbt, if_neg hs.1, if_neg hs.2]
  rw [← hbt, hu]
  simp [UInt64.toNat_ofNat_of_lt (show v < UInt64.size by unfold UInt64.size; omega), hne,
    Nat.not_le.2 hv]
  exact hv

/-- On an ASCII byte, the rune test for a digit is the byte test. -/
theorem isDigitRune_toNat (b : UInt8) : isDigitRune b.toNat = isDigit b := rfl

@[simp] theorem flatMap_snd_ascii (s : GoString) :
    (s.map fun b => (b.toNat, [b])).flatMap Prod.snd = s := by
  induction s <;> simp [*]

/-- `Fscanf` skips no white space before a digit. -/
theorem skipSpace_digit {r : Nat} (hr : isDigitRune r) (bytes : GoString)
    (rs : List (Nat × GoString)) : skipSpace ((r, bytes) :: rs) = .ok ((r, bytes) :: rs) := by
  simp only [isDigitRune, Bool.and_eq_true, decide_eq_true_eq] at hr
  have h0 : r ≠ carriageReturn ∧ r ≠ lineFeed ∧ isSpace r = false := by
    simp only [carriageReturn, lineFeed, isSpace, Bool.or_eq_false_iff, Bool.and_eq_false_iff,
      decide_eq_false_iff_not]
    omega
  simp [skipSpace, h0.1, h0.2.1, h0.2.2]

/-- `Fscanf` takes a leading run of ASCII digits, with no sign, up to the first rune that is not
one, and parses it. -/
theorem fscanfInt_digits {input ds : GoString} {rs : List (Nat × GoString)}
    (hin : runes input = ds.map (fun b => (b.toNat, [b])) ++ rs) (hne : ds ≠ [])
    (hd : ∀ b ∈ ds, isDigit b) (hrs : ∀ x ∈ rs.head?, isDigitRune x.1 = false) :
    fscanfInt input = parseInt ds := by
  have htake : (ds.map (fun b => (b.toNat, [b])) ++ rs).takeWhile (fun d => isDigitRune d.1) =
      ds.map (fun b => (b.toNat, [b])) := by
    rw [List.takeWhile_append_of_pos (by simpa using hd)]
    cases rs with
    | nil => simp
    | cons x xs => simp [hrs x rfl]
  obtain ⟨b, t, rfl⟩ := List.exists_cons_of_ne_nil hne
  have hb : isDigitRune b.toNat := hd b (List.mem_cons_self _ _)
  have hs : ¬(b.toNat = plus.toNat ∨ b.toNat = minus.toNat) := by
    simp only [isDigitRune, Bool.and_eq_true, decide_eq_true_eq] at hb
    rw [show plus.toNat = 0x2B from rfl, show minus.toNat = 0x2D from rfl]
    omega
  simp only [List.map_cons, List.cons_append] at htake
  rw [fscanfInt, hin, List.map_cons, List.cons_append, skipSpace_digit hb]
  simp [bind, Except.bind, pure, Except.pure, hs, htake]

/-- **`Fscanf` reads back a number written in decimal**: every value below `2^63` in decimal,
followed by nothing or by an ASCII byte that is not a digit, scans as `%d` to itself. Reference:
Go's `fmt/scan.go`, `func (s *ss) scanInt`. -/
theorem fscanfInt_formatUint {v : Nat} (hv : v < 2 ^ 63) {rest : GoString}
    (hr : ∀ b ∈ rest.head?, b.toNat < 0x80 ∧ isDigit b = false) :
    fscanfInt (formatUint v ++ rest) = .ok v := by
  obtain ⟨hne, hdig, -⟩ := formatUint_spec v
  have hascii : ∀ b ∈ formatUint v, b.toNat < 0x80 := fun b hb => by
    have := hdig b hb
    simp only [isDigit, Bool.and_eq_true, decide_eq_true_eq] at this
    omega
  have hrs : ∀ x ∈ (runes rest).head?, isDigitRune x.1 = false := by
    cases rest with
    | nil => simp
    | cons c cs =>
      rw [runes_cons, decodeRune_one (hr c rfl).1]
      simpa [isDigitRune_toNat] using (hr c rfl).2
  rw [fscanfInt_digits (runes_ascii_append hascii rest) hne hdig hrs]
  exact parseInt_formatUint hv

end Fmt

end GardenLinux
