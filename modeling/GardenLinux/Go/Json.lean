import GardenLinux.Go.Strconv

/-!
# JSON as the network fence writes and reads it

`Allocation.MarshalJSON` writes a fence with `json.Marshal` of a `FlatFence`, a struct of five
strings and a bool, and `Rebuild` reads it back with `json.Unmarshal`. This module models the
parts of Go's `encoding/json` those two calls run, on bytes:

* the encoder's `encodeState.string`, rune by rune (`escapeRune`): printable ASCII is copied
  except `\`, `"`, `<`, `>` and `&`; `\n` and `\r` get their short escapes, the other control
  bytes and the three HTML characters `\u00XX`; a byte that is not UTF-8 becomes `�`, and
  U+2028 and U+2029 are escaped; the struct encoder writes `"Name":value` per field
  (`encodeStruct`);
* the decoder: Go checks the whole input with its scanner before it decodes, so a syntax error
  anywhere wins over a type error. `parse` is the scanner and the first pass in one: a
  recursive-descent parser (`parseValue`, with fuel) that returns the document's `Value` or
  fails, and `unquote` is `unquoteBytes`, which turns invalid UTF-8 into U+FFFD and decodes
  surrogate pairs;
* storing a value into a field of kind string or bool (`storeString`, `storeBool`) and finding
  the field a key names: an exact match first, else the first name equal to the key under
  `foldFunc`'s case folding.

The round trip the fence rests on is `unquote_escapeString`: the escaped text of a valid UTF-8
string, closed by a quote, unquotes to the string. For any bytes, the escaped text unquotes to
the string's runes encoded again, U+FFFD in place of each stray byte (`unquote_escapeRunes`).
`parse_encodeStruct` lifts these to a struct of such fields.
-/

namespace GardenLinux

namespace Json

open Utf8

/-! ## Bytes the grammar names -/

def quote : UInt8 := 0x22
def backslash : UInt8 := 0x5C
def colon : UInt8 := 0x3A
def comma : UInt8 := 0x2C
def lbrace : UInt8 := 0x7B
def rbrace : UInt8 := 0x7D
def lbracket : UInt8 := 0x5B
def rbracket : UInt8 := 0x5D

/-! ## Encoding -/

/-- What `encodeState.string` writes for one rune `r` of its input, decoded from the bytes
`bs`. Reference: `encoding/json/encode.go`, `func (e *encodeState) string`. -/
def escapeRune (r : Nat) (bs : GoString) : GoString :=
  if r < 0x80 then
    if 0x20 ≤ r ∧ r ≠ 0x5C ∧ r ≠ 0x22 ∧ r ≠ 0x3C ∧ r ≠ 0x3E ∧ r ≠ 0x26 then bs
    else if r = 0x5C ∨ r = 0x22 then [backslash, r.toUInt8]
    else if r = 0x0A then [backslash, 0x6E]
    else if r = 0x0D then [backslash, 0x72]
    else [backslash, 0x75, 0x30, 0x30, Hex.hexDigit (r / 16), Hex.hexDigit (r % 16)]
  else if r = RuneError ∧ bs.length = 1 then [backslash, 0x75, 0x66, 0x66, 0x66, 0x64]
  else if r = 0x2028 ∨ r = 0x2029 then [backslash, 0x75, 0x32, 0x30, 0x32, Hex.hexDigit (r % 16)]
  else bs

/-- `e.string(s)`: the escaped runes of `s` between quotes. -/
def encodeString (s : GoString) : GoString :=
  quote :: (runes s).flatMap (fun p => escapeRune p.1 p.2) ++ [quote]

/-- The encoder of a bool: `true` or `false`. -/
def encodeBool (b : Bool) : GoString :=
  GoString.ofString (if b then "true" else "false")

/-- The loop of the struct encoder over the fields, each a name and its encoded value: a comma
unless the field is the first, then `"Name":value`. -/
def encodeFields : Bool → List (GoString × GoString) → GoString
  | _, [] => []
  | first, f :: fs =>
    (if first then [] else [comma]) ++ encodeString f.1 ++ colon :: f.2 ++ encodeFields false fs

/-- The struct encoder: `{`, the fields, `}`. Reference: `encoding/json/encode.go`,
`func (se *structEncoder) encode`. -/
def encodeStruct (fields : List (GoString × GoString)) : GoString :=
  lbrace :: encodeFields true fields ++ [rbrace]

/-! ## Scanning strings -/

/-- The scanner's white space: space, tab, newline and carriage return. -/
def isSpace (b : UInt8) : Bool := b = 0x20 || b = 0x09 || b = 0x0A || b = 0x0D

def skipSpace (s : GoString) : GoString := s.dropWhile isSpace

/-- A hexadecimal digit, as `strconv.ParseUint(…, 16, 64)` reads it. -/
def hexVal (b : UInt8) : Option Nat :=
  if 0x30 ≤ b.toNat ∧ b.toNat ≤ 0x39 then some (b.toNat - 0x30)
  else if 0x61 ≤ b.toNat ∧ b.toNat ≤ 0x66 then some (b.toNat - 0x57)
  else if 0x41 ≤ b.toNat ∧ b.toNat ≤ 0x46 then some (b.toNat - 0x37)
  else none

/-- `getu4`: the value of a `\uXXXX` escape at the front of `s`. -/
def getu4 : GoString → Option Nat
  | b0 :: b1 :: h0 :: h1 :: h2 :: h3 :: _ =>
    if b0 = backslash ∧ b1 = 0x75 then do
      let d0 ← hexVal h0
      let d1 ← hexVal h1
      let d2 ← hexVal h2
      let d3 ← hexVal h3
      some (((d0 * 16 + d1) * 16 + d2) * 16 + d3)
    else none
  | _ => none

/-- The byte a one-letter escape stands for. These are the scanner's escapes; `unquoteBytes`
also takes `\'`, which the scanner has refused before it runs. -/
def unescape (e : UInt8) : Option UInt8 :=
  if e = quote ∨ e = backslash ∨ e = 0x2F then some e
  else if e = 0x62 then some 0x08
  else if e = 0x66 then some 0x0C
  else if e = 0x6E then some 0x0A
  else if e = 0x72 then some 0x0D
  else if e = 0x74 then some 0x09
  else none

/-- `utf16.IsSurrogate`. -/
def isSurrogate (r : Nat) : Bool := 0xD800 ≤ r && r < 0xE000

/-- `utf16.DecodeRune(r1, r2)`: the rune of a surrogate pair, or U+FFFD. Go computes
`(r1-surr1)<<10 | (r2-surr2) + 0x10000`, the sum written here. -/
def decodeSurrogates (r1 r2 : Nat) : Nat :=
  if 0xD800 ≤ r1 ∧ r1 < 0xDC00 ∧ 0xDC00 ≤ r2 ∧ r2 < 0xE000 then
    (r1 - 0xD800) * 0x400 + (r2 - 0xDC00) + 0x10000
  else RuneError

/-- Bytes written in front of what the rest of a string unquotes to. -/
def prepend (u : GoString) (r : Option (GoString × GoString)) : Option (GoString × GoString) :=
  r.map fun p => (u ++ p.1, p.2)

/-- A string literal after its opening quote: its unquoted bytes and the text after the closing
quote. This is `unquoteBytes` on the literal the scanner delimits, taking its loop for every
literal: the fast path it takes for a literal with no escape and no invalid UTF-8 returns the
same bytes. Reference: `encoding/json/decode.go`, `func unquoteBytes`. -/
def unquote : GoString → Option (GoString × GoString)
  | [] => none
  | b :: s =>
    if b = quote then some ([], s)
    else if b = backslash then
      match s with
      | [] => none
      | e :: t =>
        match unescape e with
        | some c => prepend [c] (unquote t)
        | none =>
          match getu4 (b :: s) with
          | none => none
          | some rr =>
            if isSurrogate rr then
              let dec := ((getu4 (t.drop 4)).map (decodeSurrogates rr)).getD RuneError
              if dec ≠ RuneError then prepend (encodeRune dec) (unquote (t.drop 10))
              else prepend (encodeRune RuneError) (unquote (t.drop 4))
            else prepend (encodeRune rr) (unquote (t.drop 4))
    else if b.toNat < 0x20 then none
    else if b.toNat < 0x80 then prepend [b] (unquote s)
    else
      let d := decodeRune (b :: s)
      prepend (encodeRune d.1) (unquote ((b :: s).drop d.2))
termination_by s => s.length
decreasing_by
  all_goals first | exact length_drop_decodeRune _ _ | (simp_wf <;> omega)

/-! ## Scanning values -/

/-- The rest of a literal (`rue`, `alse`, `ull`), byte by byte. -/
def expectText : GoString → GoString → Option GoString
  | [], s => some s
  | c :: lit, b :: s => if b = c then expectText lit s else none
  | _ :: _, [] => none

/-- A byte, after white space. -/
def expect (c : UInt8) (s : GoString) : Option GoString :=
  match skipSpace s with
  | b :: s => if b = c then some s else none
  | [] => none

def dropDigits (s : GoString) : GoString := s.dropWhile Strconv.isDigit

/-- One digit, then any more. -/
def digits : GoString → Option GoString
  | d :: s => if Strconv.isDigit d then some (dropDigits s) else none
  | [] => none

/-- An optional exponent: `e` or `E`, an optional sign, digits. -/
def scanExp : GoString → Option GoString
  | e :: s =>
    if e = 0x65 ∨ e = 0x45 then
      match s with
      | c :: t => digits (if c = 0x2B ∨ c = 0x2D then t else c :: t)
      | [] => none
    else some (e :: s)
  | [] => some []

/-- An optional fraction, `.` and digits, then an optional exponent. -/
def scanFrac : GoString → Option GoString
  | b :: s => if b = 0x2E then (digits s).bind scanExp else scanExp (b :: s)
  | [] => some []

/-- A number: an optional `-`, then `0` or a digit `1`–`9` and more digits, then a fraction and
an exponent, each optional. -/
def scanNumber (s : GoString) : Option GoString :=
  match (match s with | b :: t => if b = 0x2D then t else b :: t | [] => []) with
  | d :: t =>
    if d = 0x30 then scanFrac t
    else if Strconv.isDigit d then scanFrac (dropDigits t)
    else none
  | [] => none

/-- A JSON value, with what decoding into the fence's structs reads of it: a string's bytes,
a bool, and an object's members in order. -/
inductive Value
  | null
  | bool (b : Bool)
  | number
  | string (s : GoString)
  | array
  | object (members : List (GoString × Value))

mutual
/-- One value after white space, and the text after it. Each level of nesting takes one unit
of fuel; `parse` gives more than the input can nest. -/
def parseValue : Nat → GoString → Option (Value × GoString)
  | 0, _ => none
  | fuel + 1, s =>
    match skipSpace s with
    | [] => none
    | b :: s =>
      if b = lbrace then
        match skipSpace s with
        | c :: t =>
          if c = rbrace then some (.object [], t)
          else (parseMembers fuel s).map fun p => (.object p.1, p.2)
        | [] => none
      else if b = lbracket then
        match skipSpace s with
        | c :: t =>
          if c = rbracket then some (.array, t) else (parseElements fuel s).map (.array, ·)
        | [] => none
      else if b = quote then (unquote s).map fun p => (.string p.1, p.2)
      else if b = 0x74 then (expectText (GoString.ofString "rue") s).map (.bool true, ·)
      else if b = 0x66 then (expectText (GoString.ofString "alse") s).map (.bool false, ·)
      else if b = 0x6E then (expectText (GoString.ofString "ull") s).map (.null, ·)
      else (scanNumber (b :: s)).map (.number, ·)

/-- The members of a non-empty object: `"key" : value`, then `,` and more or `}`. -/
def parseMembers : Nat → GoString → Option (List (GoString × Value) × GoString)
  | 0, _ => none
  | fuel + 1, s => do
    let s ← expect quote s
    let (key, s) ← unquote s
    let s ← expect colon s
    let (v, s) ← parseValue fuel s
    match skipSpace s with
    | b :: s =>
      if b = comma then (parseMembers fuel s).map fun p => ((key, v) :: p.1, p.2)
      else if b = rbrace then some ([(key, v)], s)
      else none
    | [] => none

/-- The elements of a non-empty array: a value, then `,` and more or `]`. -/
def parseElements : Nat → GoString → Option GoString
  | 0, _ => none
  | fuel + 1, s => do
    let (_, s) ← parseValue fuel s
    match skipSpace s with
    | b :: s =>
      if b = comma then parseElements fuel s
      else if b = rbracket then some s
      else none
    | [] => none
end

/-- `checkValid` and the value it checks: one value, then only white space. -/
def parse (data : GoString) : Option Value := do
  let (v, rest) ← parseValue (data.length + 1) data
  if skipSpace rest = [] then some v else none

/-! ## Decoding into fields -/

/-- `Unmarshal`'s errors: a `SyntaxError` (its message and offset are not modelled), or an
`UnmarshalTypeError` naming the JSON value and the Go type it could not be stored in. -/
inductive Error
  | syntaxError
  | unmarshalType (value type : String)
  deriving DecidableEq, Repr

/-- The `Value` text of an `UnmarshalTypeError`. -/
def Value.kind : Value → String
  | .null => "null"
  | .bool _ => "bool"
  | .number => "number"
  | .string _ => "string"
  | .array => "array"
  | .object _ => "object"

/-- Storing a value into a string field: a string is stored, `null` leaves the field, anything
else is a type error that leaves it. -/
def storeString (cur : GoString) : Value → GoString × Option Error
  | .string s => (s, none)
  | .null => (cur, none)
  | v => (cur, some (.unmarshalType v.kind "string"))

/-- Storing a value into a bool field. -/
def storeBool (cur : Bool) : Value → Bool × Option Error
  | .bool b => (b, none)
  | .null => (cur, none)
  | v => (cur, some (.unmarshalType v.kind "bool"))

/-- `b & caseMask`, an ASCII letter's upper case. -/
def upper (b : UInt8) : UInt8 := b &&& 0xDF

def isAsciiLetter (b : UInt8) : Bool := 0x41 ≤ (upper b).toNat && (upper b).toNat ≤ 0x5A

/-- `simpleLetterEqualFold`, for names of letters only. -/
def simpleLetterEqualFold (s t : GoString) : Bool :=
  s.length == t.length && (s.zip t).all fun p => upper p.1 == upper p.2

/-- `asciiEqualFold`, for ASCII names with a byte that is not a letter. -/
def asciiEqualFold (s t : GoString) : Bool :=
  s.length == t.length &&
    (s.zip t).all fun p => p.1 == p.2 || (isAsciiLetter p.1 && upper p.1 == upper p.2)

/-- `equalFoldRight`, for names with a `k` or an `s`: the key may spell these with the Kelvin
sign U+212A or the long s U+017F. -/
def equalFoldRight : GoString → GoString → Bool
  | [], t => t.isEmpty
  | _ :: _, [] => false
  | sb :: s, tb :: t =>
    if tb.toNat < 0x80 then
      (sb == tb || (isAsciiLetter sb && upper sb == upper tb)) && equalFoldRight s t
    else
      let d := decodeRune (tb :: t)
      (if upper sb = 0x53 then d.1 == 0x17F else if upper sb = 0x4B then d.1 == 0x212A else false)
        && equalFoldRight s ((tb :: t).drop d.2)

/-- `foldFunc(name)` for an ASCII name: every struct field name the repository decodes is one.
Reference: `encoding/json/fold.go`. -/
def foldFunc (name : GoString) : GoString → Bool :=
  if name.any fun b => upper b = 0x4B ∨ upper b = 0x53 then equalFoldRight name
  else if name.any fun b => !isAsciiLetter b then asciiEqualFold name
  else simpleLetterEqualFold name

/-- The field a key names: the first with exactly that name, else the first whose name equals
the key under `foldFunc`. Reference: `func (d *decodeState) object`. -/
def findField {α : Type} (fields : List (α × GoString)) (key : GoString) : Option α :=
  match fields.find? (fun f => f.2 == key) with
  | some f => some f.1
  | none => (fields.find? fun f => foldFunc f.2 key).map Prod.fst

/-! ## Unquoting, one step at a time -/

section Unquote

variable {b e c : UInt8} {s : GoString}

/-- The closing quote ends the string, the rest left. -/
theorem unquote_quote (s : GoString) : unquote (quote :: s) = some ([], s) := by
  rw [unquote.eq_def]; rfl

/-- A printable ASCII byte other than the quote and the backslash is copied. -/
theorem unquote_ascii (hq : b ≠ quote) (hb : b ≠ backslash) (h : 0x20 ≤ b.toNat ∧ b.toNat < 0x80) :
    unquote (b :: s) = prepend [b] (unquote s) := by
  rw [unquote.eq_def]
  dsimp only
  rw [if_neg hq, if_neg hb, if_neg (by omega), if_pos h.2]

/-- A two-byte escape such as `\n` gives its byte. -/
theorem unquote_unescape (h : unescape e = some c) :
    unquote (backslash :: e :: s) = prepend [c] (unquote s) := by
  rw [unquote.eq_3, if_neg (by decide), if_pos rfl]
  simp only [h]

/-- A `\uXXXX` escape of a rune that is no surrogate gives that rune's encoding. -/
theorem unquote_u4 {rr : Nat} (h : getu4 (backslash :: 0x75 :: s) = some rr)
    (hs : isSurrogate rr = false) :
    unquote (backslash :: 0x75 :: s) = prepend (encodeRune rr) (unquote (s.drop 4)) := by
  rw [unquote.eq_3, if_neg (by decide), if_pos rfl]
  simp only [show unescape 0x75 = none by decide, h, hs, Bool.false_eq_true, if_false]

/-- A byte from `0x80` on starts a rune as `utf8.DecodeRune` reads it, and its encoding is
copied: the byte's own when it starts a valid encoding, U+FFFD's when it does not. -/
theorem unquote_multibyte (hb : 0x80 ≤ b.toNat) :
    unquote (b :: s) = prepend (encodeRune (decodeRune (b :: s)).1)
      (unquote ((b :: s).drop (decodeRune (b :: s)).2)) := by
  rw [unquote.eq_def]
  dsimp only
  rw [if_neg (by rintro rfl; exact absurd hb (by decide)),
    if_neg (by rintro rfl; exact absurd hb (by decide)), if_neg (by omega), if_neg (by omega)]

/-- A scalar value beyond ASCII, written raw, unquotes to itself. -/
theorem unquote_encodeRune {r : Nat} (hr : ValidRune r) (h : 0x7F < r) (s : GoString) :
    unquote (encodeRune r ++ s) = prepend (encodeRune r) (unquote s) := by
  obtain ⟨b, bs, hb, hlead, -⟩ := encodeRune_multibyte h
  have hd := decodeRune_encodeRune hr s
  rw [hb, List.cons_append] at hd
  rw [hb, List.cons_append, unquote_multibyte hlead, hd, ← List.cons_append, List.drop_left, ← hb]

end Unquote

/-- The hex digits `hextable` writes are read back as their values. -/
theorem hexVal_hexDigit : ∀ d, d < 16 → hexVal (Hex.hexDigit d) = some d := by decide

/-- A rune below `0x10000` written as `\uXXXX` with its four hexadecimal digits. -/
theorem getu4_hexDigits (d0 d1 d2 d3 : Nat) (h0 : d0 < 16) (h1 : d1 < 16) (h2 : d2 < 16)
    (h3 : d3 < 16) (s : GoString) :
    getu4 (backslash :: 0x75 :: Hex.hexDigit d0 :: Hex.hexDigit d1 :: Hex.hexDigit d2 ::
      Hex.hexDigit d3 :: s) = some (((d0 * 16 + d1) * 16 + d2) * 16 + d3) := by
  simp only [getu4, and_self, if_true, hexVal_hexDigit _ h0, hexVal_hexDigit _ h1,
    hexVal_hexDigit _ h2, hexVal_hexDigit _ h3]
  rfl

/-- The escaped text of one character of a valid string. -/
def escapeChar (c : Char) : GoString := escapeRune c.toNat (encodeRune c.toNat)

/-- **One escaped rune unquotes to the rune's encoding.** Whichever way the encoder wrote a rune
of its input (raw, a short escape, `\u00XX`, `\u202X`, or `\ufffd` for a byte that starts no
valid encoding), the decoder reads back the UTF-8 encoding of the rune. Reference: Go's
`encoding/json/decode.go`, `func unquoteBytes`. -/
theorem unquote_escapeRune {r : Nat} {bs : GoString}
    (h : (r = RuneError ∧ bs.length = 1) ∨ (ValidRune r ∧ bs = encodeRune r)) (s : GoString) :
    unquote (escapeRune r bs ++ s) = prepend (encodeRune r) (unquote s) := by
  rcases h with ⟨rfl, hl⟩ | ⟨hr, rfl⟩
  · -- a stray byte, written `\ufffd`
    have hu := getu4_hexDigits 15 15 15 13 (by decide) (by decide) (by decide) (by decide) s
    rw [show Hex.hexDigit 15 = 0x66 by decide, show Hex.hexDigit 13 = 0x64 by decide] at hu
    rw [escapeRune, if_neg (by decide), if_pos ⟨rfl, hl⟩]
    simp only [List.cons_append, List.nil_append]
    rw [unquote_u4 hu (by decide)]
    rfl
  -- a scalar value, written by the case of `escapeRune` it falls in
  unfold escapeRune
  split_ifs with h1 h2 h3 h4 h5 h6 h7
  · have ht := toNat_toUInt8 (show r < 256 by omega)
    rw [encodeRune_one (by omega), List.singleton_append,
      unquote_ascii (fun h => h2.2.2.1 (by rw [← ht, h]; rfl))
        (fun h => h2.2.1 (by rw [← ht, h]; rfl)) (by omega)]
  · rw [encodeRune_one (by omega), List.cons_append, List.singleton_append, unquote_unescape]
    rcases h3 with rfl | rfl <;> rfl
  · subst h4; rw [List.cons_append, List.singleton_append, unquote_unescape] <;> rfl
  · subst h5; rw [List.cons_append, List.singleton_append, unquote_unescape] <;> rfl
  · have hu := getu4_hexDigits 0 0 (r / 16) (r % 16) (by omega) (by omega) (by omega)
      (Nat.mod_lt _ (by omega)) s
    rw [show Hex.hexDigit 0 = 0x30 by decide,
      show ((0 * 16 + 0) * 16 + r / 16) * 16 + r % 16 = r by omega] at hu
    simp only [List.cons_append, List.nil_append]
    rw [unquote_u4 hu (by simp [isSurrogate]; omega), encodeRune_one (by omega)]
    rfl
  · obtain ⟨b, bs, hb, -, hne⟩ := encodeRune_multibyte (r := r) (by omega)
    rw [hb] at h6
    exact absurd h6.2 (by simpa using hne)
  · have hu := getu4_hexDigits 2 0 2 (r % 16) (by omega) (by omega) (by omega)
      (Nat.mod_lt _ (by omega)) s
    rw [show Hex.hexDigit 0 = 0x30 by decide, show Hex.hexDigit 2 = 0x32 by decide,
      show ((2 * 16 + 0) * 16 + 2) * 16 + r % 16 = r by omega] at hu
    simp only [List.cons_append, List.nil_append]
    rw [unquote_u4 hu (by simp [isSurrogate]; omega)]
    rfl
  · exact unquote_encodeRune hr (by omega) s


/-- **Any string's escaped text unquotes to its runes encoded again**: to the string when it is
valid UTF-8, and otherwise with U+FFFD for each byte that starts no valid encoding. Reference: Go's
`encoding/json/decode.go`, `func unquoteBytes`. -/
theorem unquote_escapeRunes (s rest : GoString) :
    unquote ((runes s).flatMap (fun p => escapeRune p.1 p.2) ++ quote :: rest) =
      some (reencode s, rest) := by
  unfold reencode
  have h : ∀ p ∈ runes s, _ := fun p hp => mem_runes hp
  generalize runes s = ps at h ⊢
  induction ps with
  | nil => exact unquote_quote rest
  | cons p ps ih =>
    simp only [List.flatMap_cons, List.append_assoc]
    rw [unquote_escapeRune (h p (.head _)), ih fun q hq => h q (.tail _ hq)]
    rfl

/-- **A valid UTF-8 string's escaped text unquotes to the string**, whatever follows its
closing quote. Reference: Go's `encoding/json/encode.go`, `func (e *encodeState) string`. -/
theorem unquote_escapeString (t : String) (rest : GoString) :
    unquote (t.data.flatMap escapeChar ++ quote :: rest) = some (GoString.ofString t, rest) := by
  have h := unquote_escapeRunes (GoString.ofString t) rest
  rwa [GoString.runes_ofString, List.flatMap_map, reencode_ofString] at h

/-- The encoder escapes a valid string one character at a time. -/
theorem encodeString_ofString (t : String) :
    encodeString (GoString.ofString t) = quote :: t.data.flatMap escapeChar ++ [quote] := by
  rw [encodeString, GoString.runes_ofString, List.flatMap_map]
  rfl

/-! ## Parsing what was encoded -/

/-- Nothing is skipped before a byte that is no white space. -/
theorem skipSpace_cons {b : UInt8} (h : isSpace b = false) (s : GoString) :
    skipSpace (b :: s) = b :: s :=
  List.dropWhile_cons_of_neg (by simp [h])

/-- A string value: the encoded text of any string parses to its runes encoded again, to the
string itself when it is valid UTF-8. -/
theorem parseValue_encodeString (fuel : Nat) (s rest : GoString) :
    parseValue (fuel + 1) (encodeString s ++ rest) = some (.string (reencode s), rest) := by
  simp only [encodeString, List.cons_append, List.append_assoc, List.singleton_append]
  rw [parseValue, skipSpace_cons (by decide)]
  dsimp only
  rw [if_neg (by decide), if_neg (by decide), if_pos rfl, unquote_escapeRunes]
  rfl

/-- A bool value: `true` and `false` parse to themselves. -/
theorem parseValue_encodeBool (fuel : Nat) (b : Bool) (rest : GoString) :
    parseValue (fuel + 1) (encodeBool b ++ rest) = some (.bool b, rest) := by
  cases b
  · rw [show encodeBool false = [0x66, 0x61, 0x6C, 0x73, 0x65] by decide, parseValue,
      show GoString.ofString "alse" = [0x61, 0x6C, 0x73, 0x65] by decide]
    rfl
  · rw [show encodeBool true = [0x74, 0x72, 0x75, 0x65] by decide, parseValue,
      show GoString.ofString "rue" = [0x72, 0x75, 0x65] by decide]
    rfl

section Members

variable {fuel : Nat} (key : String) {v : GoString} {val : Value}

/-- One member: its key and value, and what follows decides whether the object goes on. -/
theorem parseMembers_member (hv : ∀ s, parseValue fuel (v ++ s) = some (val, s)) (s : GoString) :
    parseMembers (fuel + 1) (encodeString (GoString.ofString key) ++ colon :: (v ++ s)) =
      match skipSpace s with
      | b :: s =>
        if b = comma then
          (parseMembers fuel s).map fun p => ((GoString.ofString key, val) :: p.1, p.2)
        else if b = rbrace then some ([(GoString.ofString key, val)], s)
        else none
      | [] => none := by
  rw [encodeString_ofString, parseMembers]
  simp only [expect, List.cons_append, List.append_assoc, List.singleton_append, List.nil_append,
    skipSpace_cons (show isSpace quote = false by decide), if_pos, Option.bind_eq_bind,
    Option.some_bind, unquote_escapeString, skipSpace_cons (show isSpace colon = false by decide),
    hv]

/-- The last member of an object, a key and a value that parses, then `}`. -/
theorem parseMembers_last (hv : ∀ s, parseValue fuel (v ++ s) = some (val, s)) (rest : GoString) :
    parseMembers (fuel + 1)
        (encodeString (GoString.ofString key) ++ colon :: (v ++ rbrace :: rest)) =
      some ([(GoString.ofString key, val)], rest) := by
  rw [parseMembers_member key hv, skipSpace_cons (by decide)]
  rfl

/-- A member followed by `,`: its key and value, then the members after it. -/
theorem parseMembers_next (hv : ∀ s, parseValue fuel (v ++ s) = some (val, s)) (s : GoString) :
    parseMembers (fuel + 1) (encodeString (GoString.ofString key) ++ colon :: (v ++ comma :: s)) =
      (parseMembers fuel s).map fun p => ((GoString.ofString key, val) :: p.1, p.2) := by
  rw [parseMembers_member key hv, skipSpace_cons (by decide)]
  rfl

end Members

/-- A field of a struct being encoded: its name, its encoded value, and the value that text
parses to. -/
structure Field where
  name : String
  text : GoString
  value : Value

/-- The name and encoded value the struct encoder is given. -/
def Field.encoded (f : Field) : GoString × GoString := (GoString.ofString f.name, f.text)

/-- The member the parser reads back. -/
def Field.member (f : Field) : GoString × Value := (GoString.ofString f.name, f.value)

/-- A field whose encoded value parses to its value, whatever follows. -/
def Field.Parses (f : Field) : Prop :=
  ∀ fuel s, parseValue (fuel + 1) (f.text ++ s) = some (f.value, s)

/-- The fields after the first, each behind its comma, parse as the members that follow. -/
theorem parseMembers_encodeFields (rest : GoString) :
    ∀ (fs : List Field) (f : Field) (fuel : Nat), (∀ g ∈ f :: fs, g.Parses) → fs.length + 1 < fuel →
      parseMembers fuel (encodeFields true [f.encoded] ++
        encodeFields false (fs.map Field.encoded) ++ rbrace :: rest) =
        some ((f :: fs).map Field.member, rest)
  | [], f, fuel + 2, hv, _ => by
    simpa [encodeFields, Field.encoded, Field.member] using
      parseMembers_last f.name (hv f (.head _) fuel) rest
  | g :: gs, f, fuel + 2, hv, hlen => by
    have ih := parseMembers_encodeFields rest gs g (fuel + 1) (fun h hh => hv h (.tail _ hh))
      (by simp only [List.length_cons] at hlen; omega)
    simp only [encodeFields, Field.encoded, List.map_cons, if_true, Bool.false_eq_true, if_false,
      List.nil_append, List.append_nil, List.append_assoc, List.singleton_append,
      List.cons_append] at ih ⊢
    rw [parseMembers_next f.name (hv f (.head _) fuel), ih]
    rfl

/-- Each field takes at least three bytes: the key's two quotes and the `:`. A bound on the
fuel `parse` is given. -/
theorem length_encodeFields (first : Bool) (fs : List (GoString × GoString)) :
    3 * fs.length ≤ (encodeFields first fs).length := by
  induction fs generalizing first with
  | nil => simp [encodeFields]
  | cons f fs ih =>
    have := ih false
    simp only [encodeFields, encodeString, List.length_append, List.length_cons,
      List.length_singleton] at this ⊢
    omega

/-- **A struct of fields that parse back parses back**: the object of the fields' names and
values, in order. Reference: Go's `encoding/json/decode.go`, `func (d *decodeState) object`. -/
theorem parse_encodeStruct (f : Field) (fs : List Field) (hv : ∀ g ∈ f :: fs, g.Parses) :
    parse (encodeStruct ((f :: fs).map Field.encoded)) =
      some (.object ((f :: fs).map Field.member)) := by
  have hsplit : encodeFields true ((f :: fs).map Field.encoded) =
      encodeFields true [f.encoded] ++ encodeFields false (fs.map Field.encoded) := by
    simp [encodeFields]
  have hlen := length_encodeFields true ((f :: fs).map Field.encoded)
  obtain ⟨X, hX⟩ : ∃ X, encodeFields true ((f :: fs).map Field.encoded) ++ [rbrace] = quote :: X :=
    ⟨_, by simp only [encodeFields, encodeString, List.map_cons, if_true, List.nil_append,
      List.cons_append]; rfl⟩
  have hm := parseMembers_encodeFields [] fs f (lbrace :: quote :: X).length hv
    (by rw [← hX]; simp only [List.length_cons, List.length_append, List.length_map,
      List.length_singleton] at hlen ⊢; omega)
  rw [← hsplit, hX] at hm
  rw [parse, encodeStruct, List.cons_append, parseValue, skipSpace_cons (by decide)]
  dsimp only
  rw [if_pos rfl, hX, skipSpace_cons (by decide)]
  dsimp only
  rw [if_neg (by decide), hm]
  rfl

end Json

end GardenLinux
