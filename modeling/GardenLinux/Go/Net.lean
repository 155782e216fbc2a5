import GardenLinux.Go.Strconv

/-!
# IPv4 addresses and networks

The network fence stores a container's subnet as a `*net.IPNet` and its address as a `net.IP`,
writes both as text with `String()` and reads them back with `net.ParseCIDR` and `net.ParseIP`.
The fence is IPv4-only, and so is the model: an address is its four bytes (`IP`), and a network
is an address with a contiguous mask, kept as the mask's length (`IPNet.ones`, at most 32 by
construction). Go's sixteen-byte form of an IPv4 address is the same `IP` here; `ParseIP` and
`ParseCIDR` of IPv6 text are outside the model and fail.

`IP.String` writes the four octets in decimal, `IPNet.String` the address, a slash and the mask
length. Both are read back exactly (`parseIP_ipString`, `parseCIDR_toGoString`), except that
`ParseCIDR` clears the host bits of the network it returns: the text of a network is read back as
the same network, and a network whose address has host bits set as its masked form.
-/

namespace GardenLinux

namespace Net

open Strconv

/-- An IPv4 address, a `net.IP` in its four-byte form. -/
structure IP where
  b0 : UInt8
  b1 : UInt8
  b2 : UInt8
  b3 : UInt8
  deriving DecidableEq, Repr

/-- Byte `i` of `CIDRMask(ones, 32)`: `0xff` while eight or more mask bits remain, then
`^byte(0xff >> n)` for the `n` bits left. -/
def cidrMaskByte (ones i : Nat) : UInt8 :=
  let n := ones - 8 * i
  if 8 ≤ n then 0xFF else (0xFF - 0xFF / 2 ^ n).toUInt8

/-- `ip.Mask(CIDRMask(ones, 32))`: each byte of the address with the mask's byte. -/
def IP.mask (ip : IP) (ones : Nat) : IP :=
  ⟨ip.b0 &&& cidrMaskByte ones 0, ip.b1 &&& cidrMaskByte ones 1, ip.b2 &&& cidrMaskByte ones 2,
    ip.b3 &&& cidrMaskByte ones 3⟩

/-- An IPv4 network with a contiguous mask, a `net.IPNet` whose mask is `CIDRMask(ones, 32)`.
Its address may have host bits set; `ParseCIDR` returns networks whose address has none. -/
structure IPNet where
  ip : IP
  ones : Nat
  ones_le : ones ≤ 32
  deriving DecidableEq

/-- The network's address with its host bits cleared. -/
def IPNet.networkIP (n : IPNet) : IP := n.ip.mask n.ones

/-- The same network with its address masked, as `ParseCIDR` returns networks. -/
def IPNet.masked (n : IPNet) : IPNet := ⟨n.networkIP, n.ones, n.ones_le⟩

/-- `'.'`, `'/'` and `':'`. -/
def dot : UInt8 := 0x2E
def slash : UInt8 := 0x2F
def colon : UInt8 := 0x3A

/-- `IP.String()` of an IPv4 address: its octets in decimal, `itod(p4[0]) + "." + …`. -/
def IP.toGoString (ip : IP) : GoString :=
  formatUint ip.b0.toNat ++ dot :: formatUint ip.b1.toNat ++ dot :: formatUint ip.b2.toNat ++
    dot :: formatUint ip.b3.toNat

/-- `IP.String()` of a possibly nil address: a nil `net.IP` prints as `"<nil>"`. -/
def ipString : Option IP → GoString
  | some ip => ip.toGoString
  | none => GoString.ofString "<nil>"

/-- `IPNet.String()` of a network with a contiguous mask: the address, `/`, and the mask length
written by `uitoa`. -/
def IPNet.toGoString (n : IPNet) : GoString := n.ip.toGoString ++ slash :: formatUint n.ones

/-- A `.` in front of the rest, as `parseIPv4` requires between octets. -/
def expectDot : GoString → Option GoString
  | b :: s => if b = dot then some s else none
  | [] => none

/-- One octet of `parseIPv4`: `dtoi`, failing beyond `0xFF`. -/
def octet (s : GoString) : Option (UInt8 × GoString) := do
  let (n, s) ← dtoi s
  if 0xFF < n then none else some (n.toUInt8, s)

/-- The `net` package's `parseIPv4`: four octets separated by dots and nothing after them. -/
def parseIPv4 (s : GoString) : Option IP := do
  let (b0, s) ← octet s
  let (b1, s) ← octet (← expectDot s)
  let (b2, s) ← octet (← expectDot s)
  let (b3, s) ← octet (← expectDot s)
  if s = [] then some ⟨b0, b1, b2, b3⟩ else none

/-- `net.ParseIP`: the first `.` or `:` decides between `parseIPv4` and `parseIPv6`; IPv6 text
is outside the model. Text with neither is not an address (`nil`). -/
def parseIP (s : GoString) : Option IP :=
  match s.find? (fun b => b = dot ∨ b = colon) with
  | some b => if b = dot then parseIPv4 s else none
  | none => none

/-- The error `ParseCIDR` returns, `&ParseError{"CIDR address", s}`. -/
structure ParseError where
  text : GoString
  deriving DecidableEq

/-- `net.ParseCIDR`: the text before the first `/` is an address, the text after it a mask
length that `dtoi` reads to the end and that is at most 32. It returns the address and the
network with the address masked. -/
def parseCIDR (s : GoString) : Except ParseError (IP × IPNet) :=
  match s.findIdx? (· = slash) with
  | none => .error ⟨s⟩
  | some i =>
    match parseIPv4 (s.take i), dtoi (s.drop (i + 1)) with
    | some ip, some (n, []) =>
      if h : n ≤ 32 then .ok (ip, ⟨ip.mask n, n, h⟩) else .error ⟨s⟩
    | _, _ => .error ⟨s⟩

/-- Masking a byte twice is masking it once. -/
theorem and_and_self (x m : UInt8) : (x &&& m) &&& m = x &&& m :=
  congrArg UInt8.mk ((BitVec.and_assoc _ _ _).trans (congrArg _ BitVec.and_self))

/-- Masking an address twice is masking it once: a network's address has no host bits. -/
@[simp] theorem IP.mask_mask (ip : IP) (ones : Nat) : (ip.mask ones).mask ones = ip.mask ones := by
  simp only [IP.mask, and_and_self]

/-- Masking keeps the subnet: its network address and its prefix length. -/
@[simp] theorem IPNet.networkIP_masked (n : IPNet) : n.masked.networkIP = n.networkIP := by
  simp [IPNet.masked, IPNet.networkIP]

@[simp] theorem IPNet.ones_masked (n : IPNet) : n.masked.ones = n.ones := rfl

/-! ## Reading back what was written -/

/-- The `.` between octets is no digit. -/
theorem isDigit_dot : isDigit dot = false := by decide

/-- A text that starts with `.` starts with no digit: `dtoi` stops before it. -/
theorem not_isDigit_head_dot (s : GoString) : ∀ b ∈ (dot :: s).head?, isDigit b = false := by
  simp [isDigit_dot]

/-- An octet in decimal, before a text that does not start with a digit, is read back with the
text left. -/
theorem octet_formatUint (b : UInt8) (rest : GoString) (hr : ∀ x ∈ rest.head?, isDigit x = false) :
    octet (formatUint b.toNat ++ rest) = some (b, rest) := by
  have hb : b.toNat < 256 := b.toNat_lt_size
  rw [octet, dtoi_formatUint_append (by unfold big; omega) rest hr]
  change (if 0xFF < b.toNat then none else some (b.toNat.toUInt8, rest)) = _
  rw [if_neg (by omega), UInt8.toNat.inj (Utf8.toNat_toUInt8 hb)]

/-- The last octet: `formatUint` with nothing after it. -/
theorem octet_formatUint_nil (b : UInt8) : octet (formatUint b.toNat) = some (b, []) := by
  simpa using octet_formatUint b [] (by simp)

/-- **`parseIPv4` reads back `IP.String()`.** Reference: Go's `net/ip.go`, `func parseIPv4` and
`func (ip IP) String`. -/
theorem parseIPv4_toGoString (ip : IP) : parseIPv4 ip.toGoString = some ip := by
  simp only [parseIPv4, IP.toGoString, List.append_assoc, List.cons_append,
    octet_formatUint _ _ (not_isDigit_head_dot _), expectDot, Option.bind_eq_bind,
    Option.some_bind, ↓reduceIte, octet_formatUint_nil]

/-- The text of an address holds only digits and dots. -/
theorem forall_mem_toGoString (ip : IP) : ∀ b ∈ ip.toGoString, isDigit b ∨ b = dot := by
  have hf : ∀ v, ∀ b ∈ formatUint v, isDigit b ∨ b = dot :=
    fun v b hb => Or.inl ((formatUint_spec v).2.1 b hb)
  intro b hb
  simp only [IP.toGoString, List.mem_append, List.mem_cons, or_assoc] at hb
  rcases hb with hb | rfl | hb | rfl | hb | rfl | hb <;> first | exact Or.inr rfl | exact hf _ b hb

/-- Neither a dot, a colon nor a slash is a digit. -/
theorem not_digit_sep {b : UInt8} (h : isDigit b) : b ≠ dot ∧ b ≠ colon ∧ b ≠ slash := by
  refine ⟨?_, ?_, ?_⟩ <;> rintro rfl <;> exact absurd h (by decide)

/-- The first byte of an address's text that is a dot or a colon is a dot. -/
theorem find?_toGoString (ip : IP) :
    ip.toGoString.find? (fun b => b = dot ∨ b = colon) = some dot := by
  have hf : ∀ b ∈ formatUint ip.b0.toNat, ¬ decide (b = dot ∨ b = colon) := by
    intro b hb
    have := not_digit_sep ((formatUint_spec _).2.1 b hb)
    simp [this.1, this.2.1]
  rw [IP.toGoString, List.append_assoc, List.append_assoc, List.cons_append, List.find?_append,
    List.find?_eq_none.2 hf, Option.none_or, List.find?_cons]
  rfl

/-- **`ParseIP` reads back `IP.String()`**, a nil address included: `"<nil>"` is no address.
Reference: Go's `net/ip.go`, `func ParseIP`. -/
theorem parseIP_ipString (ip : Option IP) : parseIP (ipString ip) = ip := by
  cases ip with
  | none => decide
  | some ip =>
    rw [ipString, parseIP, find?_toGoString]
    exact (if_pos rfl).trans (parseIPv4_toGoString ip)

/-- An address's text holds no slash. -/
theorem findIdx?_slash_toGoString (ip : IP) (rest : GoString) :
    (ip.toGoString ++ slash :: rest).findIdx? (· = slash) = some ip.toGoString.length := by
  have hnone : ip.toGoString.findIdx? (· = slash) = none := by
    rw [List.findIdx?_eq_none_iff]
    intro b hb
    rcases forall_mem_toGoString ip b hb with h | h
    · simp [(not_digit_sep h).2.2]
    · subst h; decide
  simp [hnone]

/-- **`ParseCIDR` reads back `IPNet.String()`**, as the address and the masked network. Reference:
Go's `net/ip.go`, `func ParseCIDR` and `func (n *IPNet) String`. -/
theorem parseCIDR_toGoString (n : IPNet) :
    parseCIDR n.toGoString = .ok (n.ip, n.masked) := by
  have hd : dtoi (formatUint n.ones) = some (n.ones, []) := by
    simpa using dtoi_formatUint_append (v := n.ones) (by unfold big; have := n.ones_le; omega) []
      (by simp)
  have hdrop : (n.ip.toGoString ++ slash :: formatUint n.ones).drop (n.ip.toGoString.length + 1) =
      formatUint n.ones := by simp
  rw [parseCIDR, IPNet.toGoString, findIdx?_slash_toGoString]
  simp only [List.take_left', hdrop, parseIPv4_toGoString, hd]
  exact dif_pos n.ones_le

/-- The text of an address, of a possibly nil one, and of a network is ASCII. -/
theorem toNat_lt_of_mem_toGoString {ip : IP} {b : UInt8} (h : b ∈ ip.toGoString) :
    b.toNat < 0x80 := by
  rcases forall_mem_toGoString ip b h with h | rfl
  · simp only [isDigit, Bool.and_eq_true, decide_eq_true_eq] at h; omega
  · decide

/-- `IP.String()` writes ASCII, `<nil>` included. -/
theorem ascii_ipString (ip : Option IP) : ∀ b ∈ ipString ip, b.toNat < 0x80 := by
  cases ip with
  | none => decide
  | some ip => exact fun b => toNat_lt_of_mem_toGoString

/-- `IPNet.String()` writes ASCII. -/
theorem ascii_toGoString (n : IPNet) : ∀ b ∈ n.toGoString, b.toNat < 0x80 := by
  intro b hb
  rcases List.mem_append.1 hb with hb | hb
  · exact toNat_lt_of_mem_toGoString hb
  · rcases List.mem_cons.1 hb with rfl | hb
    · decide
    · have := (formatUint_spec n.ones).2.1 b hb
      simp only [isDigit, Bool.and_eq_true, decide_eq_true_eq] at this; omega

end Net

end GardenLinux
