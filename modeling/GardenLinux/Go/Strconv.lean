import GardenLinux.Go.Utf8

/-!
# Decimal numbers and the `strings` helpers

The repository writes numbers in decimal in three places, all with Go's one algorithm: the cgroup
limits with `fmt.Sprintf("%d", …)`, the CIDR prefix length and the octets of an IPv4 address with
the `net` package's `uitoa`/`itod`. `formatUint` is that algorithm, `uitoa`'s loop over the
remaining value. It reads numbers back with `strconv.ParseUint(s, 10, 0)` (the stat parsers, the
current limits) and with `net`'s `dtoi` (addresses and prefix lengths), modelled as `parseUint`
and `dtoi`.

`formatUint` writes a non-empty run of digits whose value is the number (`formatUint_spec`), so
`parseUint` reads back every value below `2^64` (`parseUint_formatUint`) and `dtoi` every value
below its bound `big`, when no digit follows (`dtoi_formatUint_append`).
-/

namespace GardenLinux

namespace Strconv

/-- An ASCII decimal digit, Go's `'0' <= c && c <= '9'`. -/
def isDigit (b : UInt8) : Bool := 0x30 ≤ b.toNat && b.toNat ≤ 0x39

/-- The value of a digit, Go's `c - '0'`. -/
def digitVal (b : UInt8) : Nat := b.toNat - 0x30

/-- The digit of a value below ten, Go's `byte('0' + d)`. -/
def digit (d : Nat) : UInt8 := (0x30 + d).toUInt8

/-- The value of a run of digits, most significant first, on top of `acc`. -/
def digitsValue (acc : Nat) (ds : GoString) : Nat := ds.foldl (fun n d => n * 10 + digitVal d) acc

/-- The loop of Go's `uitoa`: while `val >= 10` it writes `val % 10` in front of what it has
written and goes on with `val / 10`. `fuel` bounds the iterations; `val` of them always
suffice. -/
def formatUintLoop : Nat → Nat → GoString → GoString
  | 0, val, buf => digit val :: buf
  | fuel + 1, val, buf =>
    if val < 10 then digit val :: buf else formatUintLoop fuel (val / 10) (digit (val % 10) :: buf)

/-- The decimal text of `val`: `fmt.Sprintf("%d", val)`, `strconv.FormatUint(val, 10)` and the
`net` package's `uitoa`/`itod`. -/
def formatUint (val : Nat) : GoString := formatUintLoop val val []

/-- `strconv.Itoa`: an `int` in decimal, behind a `-` when it is negative. -/
def itoa (i : Int) : GoString := if i < 0 then 0x2D :: formatUint i.natAbs else formatUint i.toNat

/-- A PID, or any other `int` that is not negative, is written as its decimal. -/
theorem itoa_ofNat (n : Nat) : itoa n = formatUint n := by
  rw [itoa, if_neg (Int.not_lt.2 (Int.ofNat_nonneg n)), Int.toNat_ofNat]

/-- `strconv.ParseUint`'s errors. -/
inductive NumError
  /-- `strconv.ErrSyntax`. -/
  | errSyntax
  /-- `strconv.ErrRange`. -/
  | errRange
  deriving DecidableEq, Repr

/-- The largest `uint64`, `1<<64 - 1`. -/
def maxUint64 : Nat := 2 ^ 64 - 1

/-- The loop of `strconv.ParseUint(s, 10, 64)`: each digit multiplies the value so far by ten,
after the check `n >= cutoff` that this cannot overflow, and adds the digit, after the check
`n1 > maxVal`. Any other byte is a syntax error. -/
def parseUintLoop : GoString → Nat → Except NumError Nat
  | [], n => .ok n
  | d :: s, n =>
    if !isDigit d then .error .errSyntax
    else if maxUint64 / 10 + 1 ≤ n then .error .errRange
    else
      let n1 := n * 10 + digitVal d
      if maxUint64 < n1 then .error .errRange else parseUintLoop s n1

/-- `strconv.ParseUint(s, 10, 0)` on a 64-bit platform: an empty string is a syntax error. -/
def parseUint (s : GoString) : Except NumError UInt64 :=
  if s = [] then .error .errSyntax else (parseUintLoop s 0).map UInt64.ofNat

/-- The `net` package's bound on a decimal field, `big = 0xFFFFFF`. -/
def big : Nat := 0xFFFFFF

/-- The loop of `net`'s `dtoi`: digits from the front, failing once the value reaches `big`;
it stops at the first byte that is not a digit and returns the value and what is left. -/
def dtoiLoop (n : Nat) : GoString → Option (Nat × GoString)
  | [] => some (n, [])
  | d :: s =>
    if isDigit d then
      let n := n * 10 + digitVal d
      if big ≤ n then none else dtoiLoop n s
    else some (n, d :: s)

/-- `net`'s `dtoi(s, i0)` on the text from `i0`: a run of at least one digit and the text after
it. -/
def dtoi (s : GoString) : Option (Nat × GoString) :=
  match s with
  | d :: _ => if isDigit d then dtoiLoop 0 s else none
  | [] => none

/-! ## Printing -/

/-- The byte `uitoa` writes for a digit `d` is the ASCII code `0x30 + d`. -/
theorem toNat_digit {d : Nat} (h : d < 10) : (digit d).toNat = 0x30 + d :=
  Utf8.toNat_toUInt8 (by omega)

/-- The byte written for a digit is a digit. -/
theorem isDigit_digit {d : Nat} (h : d < 10) : isDigit (digit d) = true := by
  simp [isDigit, toNat_digit h]; omega

/-- The byte written for a digit has that digit's value. -/
theorem digitVal_digit {d : Nat} (h : d < 10) : digitVal (digit d) = d := by
  simp [digitVal, toNat_digit h]

/-- The value of digits with one more at the end: ten times as much, and the new digit. -/
theorem digitsValue_append_singleton (acc : Nat) (ds : GoString) (d : UInt8) :
    digitsValue acc (ds ++ [d]) = digitsValue acc ds * 10 + digitVal d := by
  simp [digitsValue, List.foldl_append]

/-- What `uitoa`'s loop writes in front of its buffer: a non-empty run of digits whose value is
the number. -/
theorem formatUintLoop_spec : ∀ (fuel val : Nat) (buf : GoString), val ≤ fuel →
    ∃ ds, formatUintLoop fuel val buf = ds ++ buf ∧ ds ≠ [] ∧ (∀ b ∈ ds, isDigit b) ∧
      digitsValue 0 ds = val
  | 0, val, buf, h => ⟨[digit val], rfl, by simp, by simp [isDigit_digit (show val < 10 by omega)],
      by simp [digitsValue, digitVal_digit (show val < 10 by omega)]⟩
  | fuel + 1, val, buf, h => by
    rw [formatUintLoop]
    split_ifs with hv
    · exact ⟨[digit val], rfl, by simp, by simp [isDigit_digit hv],
        by simp [digitsValue, digitVal_digit hv]⟩
    · obtain ⟨ds, hds, hne, hdig, hval⟩ :=
        formatUintLoop_spec fuel (val / 10) (digit (val % 10) :: buf) (by omega)
      refine ⟨ds ++ [digit (val % 10)], by rw [hds, List.append_assoc]; rfl, by simp, ?_, ?_⟩
      · intro b hb
        rcases List.mem_append.1 hb with hb | hb
        · exact hdig b hb
        · rw [List.mem_singleton.1 hb]; exact isDigit_digit (Nat.mod_lt _ (by omega))
      · rw [digitsValue_append_singleton, hval, digitVal_digit (Nat.mod_lt _ (by omega))]
        omega

/-- **`formatUint` writes the number.** The decimal text of `v` is a non-empty run of digits
whose value is `v`. Reference: `strconv.FormatUint`, `net.uitoa`. -/
theorem formatUint_spec (v : Nat) :
    formatUint v ≠ [] ∧ (∀ b ∈ formatUint v, isDigit b) ∧ digitsValue 0 (formatUint v) = v := by
  obtain ⟨ds, h, hne, hdig, hval⟩ := formatUintLoop_spec v v [] le_rfl
  rw [formatUint, h, List.append_nil]
  exact ⟨hne, hdig, hval⟩

/-! ## Reading back -/

/-- Reading more digits never lowers the value. -/
theorem le_digitsValue (acc : Nat) (ds : GoString) : acc ≤ digitsValue acc ds := by
  induction ds generalizing acc with
  | nil => exact le_rfl
  | cons d ds ih => exact le_trans (by omega) (ih (acc * 10 + digitVal d))

/-- `ParseUint`'s loop reads a run of digits whose value fits in 64 bits: neither range check
fires before the end. -/
theorem parseUintLoop_digits (ds : GoString) (acc : Nat) (hd : ∀ b ∈ ds, isDigit b)
    (hv : digitsValue acc ds ≤ maxUint64) : parseUintLoop ds acc = .ok (digitsValue acc ds) := by
  induction ds generalizing acc with
  | nil => rfl
  | cons d ds ih =>
    have hle := le_digitsValue (acc * 10 + digitVal d) ds
    simp only [digitsValue, List.foldl_cons] at hv hle ⊢
    rw [parseUintLoop, if_neg (by simp [hd d (.head _)]),
      if_neg (by unfold maxUint64 at hv ⊢; omega), if_neg (by omega)]
    exact ih _ (fun b hb => hd b (.tail _ hb)) hv

/-- **`ParseUint` reads back `formatUint`.** Every value below `2^64` written in decimal parses
to itself. Reference: Go's `strconv/atoi.go`, `func ParseUint`. -/
theorem parseUint_formatUint {v : Nat} (hv : v < 2 ^ 64) :
    parseUint (formatUint v) = .ok (UInt64.ofNat v) := by
  obtain ⟨hne, hdig, hval⟩ := formatUint_spec v
  rw [parseUint, if_neg hne, parseUintLoop_digits _ _ hdig (by unfold maxUint64; omega), hval]
  rfl

/-- `ParseUint` reads back a `uint64` printed in decimal. -/
theorem parseUint_formatUint_toNat (n : UInt64) : parseUint (formatUint n.toNat) = .ok n := by
  rw [parseUint_formatUint n.toNat_lt_size,
    UInt64.toNat.inj (UInt64.toNat_ofNat_of_lt n.toNat_lt_size)]

/-- `dtoi`'s loop reads a run of digits whose value stays below `big`, up to the first byte that
is not a digit. -/
theorem dtoiLoop_digits (ds rest : GoString) (acc : Nat) (hd : ∀ b ∈ ds, isDigit b)
    (hr : ∀ b ∈ rest.head?, isDigit b = false) (hv : digitsValue acc ds < big) :
    dtoiLoop acc (ds ++ rest) = some (digitsValue acc ds, rest) := by
  induction ds generalizing acc with
  | nil =>
    rcases rest with _ | ⟨b, rest⟩
    · rfl
    · simp [dtoiLoop, hr b rfl, digitsValue]
  | cons d ds ih =>
    have hle := le_digitsValue (acc * 10 + digitVal d) ds
    simp only [digitsValue, List.foldl_cons] at hv hle ⊢
    rw [List.cons_append, dtoiLoop, if_pos (hd d (.head _)), if_neg (by omega)]
    exact ih _ (fun b hb => hd b (.tail _ hb)) hv

/-- **`dtoi` reads back `formatUint`.** A value below `big` written in decimal and followed by a
byte that is not a digit is read back, with the text after it. Reference: Go's `net/parse.go`, `func
dtoi`. -/
theorem dtoi_formatUint_append {v : Nat} (hv : v < big) (rest : GoString)
    (hr : ∀ b ∈ rest.head?, isDigit b = false) :
    dtoi (formatUint v ++ rest) = some (v, rest) := by
  obtain ⟨hne, hdig, hval⟩ := formatUint_spec v
  obtain ⟨d, ds, hds⟩ := List.exists_cons_of_ne_nil hne
  have := dtoiLoop_digits _ rest 0 hdig hr (by omega)
  rw [hval] at this
  rw [hds, List.cons_append, dtoi, if_pos (hdig d (by simp [hds])), ← List.cons_append, ← hds,
    this]

end Strconv

/-- A Go `error` value. An error the modelled code makes with `errors.New` or `fmt.Errorf`, and
the error of a collaborator whose code is not modelled, are known by the text `Error()` returns;
`strconv`'s errors keep their fields. -/
inductive GoError
  | text (s : GoString)
  /-- `*strconv.NumError{Func, Num, Err}`. -/
  | numError (func : String) (num : GoString) (err : Strconv.NumError)
  deriving DecidableEq, Repr


namespace Strings

/-- `strings.SplitN(s, sep, 2)` for a one-byte separator: the text before the first `sep` and the
text after it, or `s` alone when it holds no `sep`. -/
def splitN (s : GoString) (sep : UInt8) : List GoString :=
  match s.dropWhile (· ≠ sep) with
  | [] => [s]
  | _ :: after => [s.takeWhile (· ≠ sep), after]

/-- `SplitN` splits in two exactly the texts that hold the separator. -/
theorem length_splitN (s : GoString) (sep : UInt8) : (splitN s sep).length = 2 ↔ sep ∈ s := by
  unfold splitN
  split
  · next h => simpa using List.dropWhile_eq_nil_iff.1 h sep
  · next h =>
    have hs : ¬ ∀ x ∈ s, decide (x ≠ sep) := fun hall => by
      rw [List.dropWhile_eq_nil_iff.2 hall] at h
      cases h
    simpa using hs

/-- The first part of `SplitN`'s result is the text before the first separator. -/
theorem headD_splitN (s : GoString) (sep : UInt8) :
    (splitN s sep).headD [] = s.takeWhile (· ≠ sep) := by
  unfold splitN
  split
  · next h => exact (List.takeWhile_eq_self_iff.2 (List.dropWhile_eq_nil_iff.1 h)).symm
  · rfl

/-- `strings.Trim(s, cutset)` for a one-byte cutset: `s` without the bytes `c` at either end. -/
def trim (s : GoString) (c : UInt8) : GoString :=
  ((s.dropWhile (· = c)).reverse.dropWhile (· = c)).reverse

/-- `strings.Contains(s, sep)` for a one-byte `sep`. -/
def contains (s : GoString) (sep : UInt8) : Bool := s.any (· = sep)

end Strings

namespace Hex

/-- A lower-case hexadecimal digit, `encoding/hex`'s `hextable[v]`. -/
def hexDigit (v : Nat) : UInt8 := if v < 10 then (0x30 + v).toUInt8 else (0x57 + v).toUInt8

/-- `hex.EncodeToString`: two lower-case digits per byte. -/
def encodeToString (src : GoString) : GoString :=
  src.flatMap fun b => [hexDigit (b.toNat / 16), hexDigit (b.toNat % 16)]

/-- The byte `hextable[v]`: `0`-`9`, then `a`-`f`. -/
theorem toNat_hexDigit {v : Nat} (hv : v < 16) :
    (hexDigit v).toNat = if v < 10 then 0x30 + v else 0x57 + v := by
  unfold hexDigit
  split_ifs <;> exact Utf8.toNat_toUInt8 (by omega)

/-- The sixteen digits are distinct: `0`–`9` and `a`–`f` do not overlap. -/
theorem hexDigit_inj {v w : Nat} (hv : v < 16) (hw : w < 16) (h : hexDigit v = hexDigit w) :
    v = w := by
  have h' := congrArg UInt8.toNat h
  rw [toNat_hexDigit hv, toNat_hexDigit hw] at h'
  split_ifs at h' <;> omega

/-- Two bytes with the same two digits are the same byte. -/
theorem eq_of_hexDigits {b c : UInt8}
    (h : [hexDigit (b.toNat / 16), hexDigit (b.toNat % 16)] =
      [hexDigit (c.toNat / 16), hexDigit (c.toNat % 16)]) : b = c := by
  have hb := b.toNat_lt_size
  have hc := c.toNat_lt_size
  simp only [List.cons.injEq, and_true] at h
  have hhi := hexDigit_inj (by unfold UInt8.size at hb; omega) (by unfold UInt8.size at hc; omega) h.1
  have hlo := hexDigit_inj (Nat.mod_lt _ (by decide)) (Nat.mod_lt _ (by decide)) h.2
  exact UInt8.toNat.inj (by omega)

/-- Hexadecimal text is ASCII. -/
theorem toNat_lt_of_mem_encodeToString {src : GoString} {b : UInt8}
    (hb : b ∈ encodeToString src) : b.toNat < 0x80 := by
  simp only [encodeToString, List.mem_flatMap, List.mem_cons, List.mem_singleton,
    List.not_mem_nil, or_false] at hb
  obtain ⟨x, -, hb⟩ := hb
  have hx := x.toNat_lt_size
  unfold UInt8.size at hx
  rcases hb with rfl | rfl
  · rw [toNat_hexDigit (by omega)]; split_ifs <;> omega
  · rw [toNat_hexDigit (Nat.mod_lt _ (by decide))]; split_ifs <;> omega

/-- **`EncodeToString` loses nothing**: different bytes are written as different text. Reference:
Go's `encoding/hex/hex.go`, `func EncodeToString`. -/
theorem encodeToString_injective : Function.Injective encodeToString := by
  intro s
  induction s with
  | nil =>
    intro t h
    cases t with
    | nil => rfl
    | cons c t => simp [encodeToString] at h
  | cons b s ih =>
    intro t h
    cases t with
    | nil => simp [encodeToString] at h
    | cons c t =>
      simp only [encodeToString, List.flatMap_cons] at h
      obtain ⟨hbc, hst⟩ := List.append_inj h rfl
      rw [eq_of_hexDigits hbc, ih hst]

end Hex

end GardenLinux
