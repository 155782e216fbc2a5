import GardenLinux.Go.Strconv

/-!
# The memory and CPU stat parsers

`Info` reads the container's `memory.stat` and `cpuacct.stat` and parses them with
`parseMemoryStat` and `parseCPUStat`. Both split the text into words with a `bufio.Scanner`
and `bufio.ScanWords`, and read the words two at a time, a field name and a value: a value that
`ParseUint` rejects is skipped with its name, and a name the `switch` does not know is ignored.

The scanner's buffer grows to `MaxScanTokenSize` bytes and no further. `ScanWords` ends a word
at the first white-space rune after it, so a word is only returned once the word and that
whole rune are in the buffer; a word that is followed by nothing must leave room in the buffer
to see the end of the input. When they do not fit, `Scan` stops with `ErrTooLong`, and the
parsers return what they have read so far (`scanWords_wordsText`). A 65535-byte word is shorter
than `MaxScanTokenSize` but does not fit with a three-byte space after it, such as U+3000: the
parsers then stop before it (`parseMemoryStat_wide_space`).

On a text of names and decimal values whose words fit, each field of the result holds the value
of the last pair with its name, and a field no pair names holds 0 (`parseStats_wordsText`).
-/

namespace GardenLinux

namespace LinuxBackend

open Utf8 Strconv

/-! ## `bufio.ScanWords` -/

namespace Bufio

/-- `bufio.MaxScanTokenSize`, the largest the scanner's buffer grows. -/
def maxScanTokenSize : Nat := 64 * 1024

/-- `bufio`'s `isSpace`: the white space of Unicode 7 (Go 1.4), which has no U+180E. -/
def isSpace (r : Nat) : Bool :=
  if r ≤ 0xFF then r = 0x20 || (0x09 ≤ r && r ≤ 0x0D) || r = 0x85 || r = 0xA0
  else (0x2000 ≤ r && r ≤ 0x200A) || r = 0x1680 || r = 0x2028 || r = 0x2029 || r = 0x202F ||
    r = 0x205F || r = 0x3000

/-- The words `Scan` returns with `ScanWords`, from the runes of the input, `tok` the word read
so far. A word ends at a white-space rune, and is returned if it fits in the buffer with that
rune, or at the end of the input, if it is shorter than the buffer (the buffer must have room
left for the read that finds the end). A word that does not fit stops the scanner
(`ErrTooLong`). White space before a word is consumed as it is skipped, so it never fills the
buffer. -/
def scanWordsLoop : List (Nat × GoString) → GoString → List GoString
  | [], tok => if tok = [] then [] else if tok.length < maxScanTokenSize then [tok] else []
  | (r, bs) :: rs, tok =>
    if isSpace r then
      if tok = [] then scanWordsLoop rs []
      else if tok.length + bs.length ≤ maxScanTokenSize then tok :: scanWordsLoop rs []
      else []
    else scanWordsLoop rs (tok ++ bs)

/-- `bufio.NewScanner(strings.NewReader(s))` split with `ScanWords`: the words `Scan` returns
until it returns false. -/
def scanWords (s : GoString) : List GoString := scanWordsLoop (runes s) []

/-- A run of runes that are not white space joins the word being read. -/
theorem scanWordsLoop_word {l : List (Nat × GoString)} (hl : ∀ p ∈ l, isSpace p.1 = false)
    (rest : List (Nat × GoString)) (tok : GoString) :
    scanWordsLoop (l ++ rest) tok = scanWordsLoop rest (tok ++ l.flatMap Prod.snd) := by
  induction l generalizing tok with
  | nil => simp
  | cons p l ih =>
    obtain ⟨r, bs⟩ := p
    rw [List.cons_append, scanWordsLoop, if_neg (by simpa using hl _ (.head _)),
      ih (fun q hq => hl q (.tail _ hq)), List.flatMap_cons, List.append_assoc]

/-- White space between words is skipped. -/
theorem scanWordsLoop_space {l : List (Nat × GoString)} (hl : ∀ p ∈ l, isSpace p.1 = true)
    (rest : List (Nat × GoString)) : scanWordsLoop (l ++ rest) [] = scanWordsLoop rest [] := by
  induction l with
  | nil => rfl
  | cons p l ih =>
    obtain ⟨r, bs⟩ := p
    rw [List.cons_append, scanWordsLoop, if_pos (hl _ (.head _)), if_pos rfl,
      ih fun q hq => hl q (.tail _ hq)]

end Bufio

open Bufio

/-! ## Texts of words -/

/-- A word of a text and the white space after it, as runes. -/
structure Word where
  token : GoString
  space : List Nat

def Word.text (w : Word) : GoString := w.token ++ w.space.flatMap encodeRune

/-- The text of words, each followed by its white space. -/
def wordsText (ws : List Word) : GoString := ws.flatMap Word.text

/-- A word fits the scanner's buffer: with the first rune of the white space after it, or, at
the end of the text, with room left. -/
def Word.fits (w : Word) : Bool :=
  match w.space with
  | [] => w.token.length < maxScanTokenSize
  | r :: _ => w.token.length + (encodeRune r).length ≤ maxScanTokenSize

/-- A word followed by white space fits when it and the first white-space rune after it do. -/
theorem Word.fits_cons (t : GoString) (r : Nat) (sp : List Nat) :
    Word.fits ⟨t, r :: sp⟩ = decide (t.length + (encodeRune r).length ≤ maxScanTokenSize) := rfl

/-- A token: non-empty, and no rune of it is white space. -/
def Token (t : GoString) : Prop := t ≠ [] ∧ ∀ p ∈ runes t, isSpace p.1 = false

/-- Words make a text of tokens separated by white space: each token followed by white space,
and by some between two tokens. -/
inductive WellSpaced : List Word → Prop
  | nil : WellSpaced []
  | last {w : Word} : Token w.token → (∀ r ∈ w.space, isSpace r) → WellSpaced [w]
  | cons {w w' : Word} {ws : List Word} : Token w.token → (∀ r ∈ w.space, isSpace r) →
      w.space ≠ [] → WellSpaced (w' :: ws) → WellSpaced (w :: w' :: ws)

/-- White space is a scalar value. -/
theorem validRune_of_isSpace {r : Nat} (h : isSpace r) : ValidRune r := by
  left
  unfold isSpace at h
  split_ifs at h <;> simp at h <;> omega

/-- An ASCII text decodes byte by byte. -/
theorem runes_ascii {t : GoString} (h : ∀ b ∈ t, b.toNat < 0x80) :
    runes t = t.map fun b => (b.toNat, [b]) := by
  induction t with
  | nil => simp
  | cons b t ih =>
    rw [runes_cons, decodeRune_one (h b (.head _)), List.take_one, List.drop_one, List.tail_cons,
      ih fun c hc => h c (.tail _ hc)]
    rfl

/-- A non-empty ASCII text with no white space is a token. -/
theorem Token.of_ascii {t : GoString} (hne : t ≠ [])
    (h : ∀ b ∈ t, b.toNat < 0x80 ∧ isSpace b.toNat = false) : Token t := by
  refine ⟨hne, ?_⟩
  rw [runes_ascii fun b hb => (h b hb).1]
  simpa using fun b hb => (h b hb).2

/-- The bytes of the runes of a text are the text. -/
theorem flatMap_runes (s : GoString) : (runes s).flatMap Prod.snd = s := by
  induction s using runes.induct with
  | case1 => simp
  | case2 b bs d ih => rw [runes_cons, List.flatMap_cons, ih, List.take_append_drop]

/-- White space decodes rune by rune, whatever follows it. -/
theorem runes_space {sp : List Nat} (h : ∀ r ∈ sp, isSpace r) (rest : GoString) :
    runes (sp.flatMap encodeRune ++ rest) = sp.map (fun r => (r, encodeRune r)) ++ runes rest := by
  induction sp with
  | nil => rfl
  | cons r sp ih =>
    rw [List.flatMap_cons, List.append_assoc,
      runes_encodeRune (validRune_of_isSpace (h r (.head _))), ih fun r hr => h r (.tail _ hr)]
    rfl

/-- A word followed by white space: the scanner returns it if it fits, and stops otherwise. -/
theorem scanWordsLoop_text {w : Word} (ht : Token w.token) (hs : ∀ r ∈ w.space, isSpace r)
    (hne : w.space ≠ []) (rest : GoString) :
    scanWordsLoop (runes (w.text ++ rest)) [] =
      if w.fits then w.token :: scanWordsLoop (runes rest) [] else [] := by
  obtain ⟨t, _ | ⟨r, sp⟩⟩ := w
  · exact absurd rfl hne
  have hhead : ∀ x ∈ ((r :: sp).flatMap encodeRune ++ rest).head?, isCont x = false := by
    rw [List.flatMap_cons, List.append_assoc]
    exact fun x hx => isCont_head_encodeRune r x (by
      obtain ⟨b, bs, hb⟩ := List.exists_cons_of_ne_nil (encodeRune_ne_nil r)
      simpa [hb] using hx)
  rw [Word.text, List.append_assoc, runes_append _ _ hhead, runes_space hs,
    scanWordsLoop_word ht.2, flatMap_runes, List.nil_append, List.map_cons, List.cons_append,
    scanWordsLoop, if_pos (hs r (.head _)), if_neg ht.1,
    scanWordsLoop_space (by simpa using fun r hr => hs r (.tail _ hr))]
  simp [Word.fits]

/-- **What `ScanWords` returns.** On a text of tokens separated by white space, the scanner
returns the words up to the first that does not fit its buffer. Reference:
`src/unnamed/part_000:897`. -/
theorem scanWords_wordsText {ws : List Word} (hw : WellSpaced ws) :
    scanWords (wordsText ws) = (ws.takeWhile Word.fits).map Word.token := by
  induction hw with
  | nil => simp [scanWords, wordsText, scanWordsLoop]
  | @last w ht hs =>
    rcases hsp : w.space with _ | ⟨r, sp⟩
    · have hl := scanWordsLoop_word ht.2 [] []
      simp only [List.append_nil, List.nil_append, flatMap_runes] at hl
      simp only [scanWords, wordsText, List.flatMap_cons, List.flatMap_nil, List.append_nil,
        Word.text, hsp, List.flatMap_nil, hl, scanWordsLoop, if_neg ht.1, List.takeWhile_cons,
        Word.fits]
      split_ifs <;> simp_all
      omega
    · have h := scanWordsLoop_text ht hs (by simp [hsp]) []
      simp only [List.append_nil] at h
      simp only [scanWords, wordsText, List.flatMap_cons, List.flatMap_nil, List.append_nil, h,
        List.takeWhile_cons]
      split_ifs <;> simp [scanWordsLoop]
  | @cons w w' ws ht hs hne _ ih =>
    rw [scanWords, wordsText, List.flatMap_cons, scanWordsLoop_text ht hs hne, List.takeWhile_cons]
    split_ifs
    · rw [List.map_cons, ← ih]; rfl
    · rfl

/-- **A word that does not fit stops the scanner** (`ErrTooLong`): the scanner returns the words
before it, and none after it. Reference: `src/unnamed/part_000:897`. -/
theorem scanWords_of_not_fits (pre : List Word) {w : Word} {post : List Word}
    (hw : WellSpaced (pre ++ w :: post)) (hpre : ∀ v ∈ pre, v.fits) (hnot : w.fits = false) :
    scanWords (wordsText (pre ++ w :: post)) = pre.map Word.token := by
  rw [scanWords_wordsText hw, List.takeWhile_append_of_pos hpre,
    List.takeWhile_cons_of_neg (by simp [hnot]), List.append_nil]

/-! ## The parsers -/

/-- The loop of `parseMemoryStat` and `parseCPUStat` over the scanned words: a field, then a
value; a value `ParseUint` rejects is skipped with its field, and a field without a value ends
the loop. `set` is the parser's `switch`. -/
def scanStat {σ : Type} (set : σ → GoString → UInt64 → σ) : σ → List GoString → σ
  | stat, field :: value :: rest =>
    match parseUint value with
    | .ok v => scanStat set (set stat field v) rest
    | .error _ => scanStat set stat rest
  | stat, _ => stat

/-- The fields of `api.ContainerMemoryStat`. -/
inductive MemoryStatField
  | cache | rss | mappedFile | pgpgin | pgpgout | swap | pgfault | pgmajfault
  | inactiveAnon | activeAnon | inactiveFile | activeFile | unevictable
  | hierarchicalMemoryLimit | hierarchicalMemswLimit
  | totalCache | totalRss | totalMappedFile | totalPgpgin | totalPgpgout | totalSwap
  | totalPgfault | totalPgmajfault | totalInactiveAnon | totalActiveAnon | totalInactiveFile
  | totalActiveFile | totalUnevictable
  deriving DecidableEq, Repr

/-- The name each field has in `memory.stat`: the cases of `parseMemoryStat`'s `switch`. -/
def MemoryStatField.name : MemoryStatField → GoString
  | .cache => GoString.ofString "cache"
  | .rss => GoString.ofString "rss"
  | .mappedFile => GoString.ofString "mapped_file"
  | .pgpgin => GoString.ofString "pgpgin"
  | .pgpgout => GoString.ofString "pgpgout"
  | .swap => GoString.ofString "swap"
  | .pgfault => GoString.ofString "pgfault"
  | .pgmajfault => GoString.ofString "pgmajfault"
  | .inactiveAnon => GoString.ofString "inactive_anon"
  | .activeAnon => GoString.ofString "active_anon"
  | .inactiveFile => GoString.ofString "inactive_file"
  | .activeFile => GoString.ofString "active_file"
  | .unevictable => GoString.ofString "unevictable"
  | .hierarchicalMemoryLimit => GoString.ofString "hierarchical_memory_limit"
  | .hierarchicalMemswLimit => GoString.ofString "hierarchical_memsw_limit"
  | .totalCache => GoString.ofString "total_cache"
  | .totalRss => GoString.ofString "total_rss"
  | .totalMappedFile => GoString.ofString "total_mapped_file"
  | .totalPgpgin => GoString.ofString "total_pgpgin"
  | .totalPgpgout => GoString.ofString "total_pgpgout"
  | .totalSwap => GoString.ofString "total_swap"
  | .totalPgfault => GoString.ofString "total_pgfault"
  | .totalPgmajfault => GoString.ofString "total_pgmajfault"
  | .totalInactiveAnon => GoString.ofString "total_inactive_anon"
  | .totalActiveAnon => GoString.ofString "total_active_anon"
  | .totalInactiveFile => GoString.ofString "total_inactive_file"
  | .totalActiveFile => GoString.ofString "total_active_file"
  | .totalUnevictable => GoString.ofString "total_unevictable"

/-- The fields in the order of the `switch`. -/
def MemoryStatField.all : List MemoryStatField :=
  [.cache, .rss, .mappedFile, .pgpgin, .pgpgout, .swap, .pgfault, .pgmajfault, .inactiveAnon,
    .activeAnon, .inactiveFile, .activeFile, .unevictable, .hierarchicalMemoryLimit,
    .hierarchicalMemswLimit, .totalCache, .totalRss, .totalMappedFile, .totalPgpgin,
    .totalPgpgout, .totalSwap, .totalPgfault, .totalPgmajfault, .totalInactiveAnon,
    .totalActiveAnon, .totalInactiveFile, .totalActiveFile, .totalUnevictable]

/-- The case of the `switch` a field name selects. -/
def MemoryStatField.ofName (field : GoString) : Option MemoryStatField :=
  MemoryStatField.all.find? (·.name = field)

/-- `api.ContainerMemoryStat`, a `uint64` for each field. -/
abbrev ContainerMemoryStat := MemoryStatField → UInt64

/-- The `switch` of `parseMemoryStat`: the field the name selects takes the value. -/
def setMemoryStatField (stat : ContainerMemoryStat) (field : GoString) (value : UInt64) :
    ContainerMemoryStat :=
  match MemoryStatField.ofName field with
  | some f => Function.update stat f value
  | none => stat

/-- `parseMemoryStat`. -/
def parseMemoryStat (contents : GoString) : ContainerMemoryStat :=
  scanStat setMemoryStatField (fun _ => 0) (scanWords contents)

/-- `api.ContainerCPUStat`. -/
@[ext]
structure ContainerCPUStat where
  usage : UInt64
  user : UInt64
  system : UInt64
  deriving DecidableEq, Repr

/-- The `switch` of `parseCPUStat`. -/
def setCPUStatField (stat : ContainerCPUStat) (field : GoString) (value : UInt64) :
    ContainerCPUStat :=
  if field = GoString.ofString "user" then { stat with user := value }
  else if field = GoString.ofString "system" then { stat with system := value }
  else stat

/-- `\n`. -/
def newline : UInt8 := 0x0A

/-- `parseCPUStat`: the usage, without the newlines around it, then the stat words; a usage
`ParseUint` rejects gives the zero stat. -/
def parseCPUStat (usage statContents : GoString) : ContainerCPUStat :=
  match parseUint (Strings.trim usage newline) with
  | .error _ => ⟨0, 0, 0⟩
  | .ok cpuUsage => scanStat setCPUStatField ⟨cpuUsage, 0, 0⟩ (scanWords statContents)

/-! ## Reading pairs -/

/-- The words of pairs of a name and a value, the value in decimal. -/
def pairTokens (ps : List (GoString × UInt64)) : List GoString :=
  ps.flatMap fun p => [p.1, formatUint p.2.toNat]

/-- The value of the last pair named `name`, if there is one. -/
def lastValue? (ps : List (GoString × UInt64)) (name : GoString) : Option UInt64 :=
  ((ps.filter fun p => p.1 = name).getLast?).map Prod.snd

/-- The value of the last pair named `name`, or 0. -/
def lastValue (ps : List (GoString × UInt64)) (name : GoString) : UInt64 :=
  (lastValue? ps name).getD 0

/-- The last value of a name: one from the later pairs, else the first pair's, if it has the
name. -/
theorem lastValue?_cons (p : GoString × UInt64) (ps : List (GoString × UInt64)) (name : GoString) :
    lastValue? (p :: ps) name =
      (lastValue? ps name).or (if p.1 = name then some p.2 else none) := by
  unfold lastValue?
  by_cases h : p.1 = name
  · rw [List.filter_cons_of_pos (by simpa using h), if_pos h, List.getLast?_cons]
    cases (ps.filter fun p => p.1 = name).getLast? <;> rfl
  · rw [List.filter_cons_of_neg (by simpa using h), if_neg h]
    cases (ps.filter fun p => p.1 = name).getLast? <;> rfl

/-- The loop reads the pairs in order: each value, in decimal, is read back. -/
theorem scanStat_pairTokens {σ : Type} (set : σ → GoString → UInt64 → σ)
    (ps : List (GoString × UInt64)) (stat : σ) :
    scanStat set stat (pairTokens ps) = ps.foldl (fun s p => set s p.1 p.2) stat := by
  induction ps generalizing stat with
  | nil => rfl
  | cons p ps ih =>
    show scanStat set stat (p.1 :: formatUint p.2.toNat :: pairTokens ps) = _
    rw [scanStat, parseUint_formatUint_toNat]
    exact ih _

/-- Setting fields pair after pair: a field the setter writes when it sees `name` ends with the
value of the last pair named `name`, or as it was. -/
theorem foldl_set_eq {σ : Type} (set : σ → GoString → UInt64 → σ) (get : σ → UInt64)
    (name : GoString) (hset : ∀ s n v, get (set s n v) = if n = name then v else get s)
    (ps : List (GoString × UInt64)) (stat : σ) :
    get (ps.foldl (fun s p => set s p.1 p.2) stat) = (lastValue? ps name).getD (get stat) := by
  induction ps generalizing stat with
  | nil => simp [lastValue?]
  | cons p ps ih =>
    rw [List.foldl_cons, ih, hset, lastValue?_cons]
    cases lastValue? ps name <;> split_ifs <;> rfl

/-- Each field of `memory.stat` is found by its name. -/
theorem MemoryStatField.ofName_name (f : MemoryStatField) :
    MemoryStatField.ofName f.name = some f := by
  cases f <;> rfl

/-- The `switch` of `parseMemoryStat` sets the field a name names, and no other. -/
theorem setMemoryStatField_apply (stat : ContainerMemoryStat) (n : GoString) (v : UInt64)
    (f : MemoryStatField) : setMemoryStatField stat n v f = if n = f.name then v else stat f := by
  unfold setMemoryStatField
  rcases h : MemoryStatField.ofName n with _ | g
  · have : n ≠ f.name := fun hn => by rw [hn, MemoryStatField.ofName_name] at h; cases h
    rw [if_neg this]
  · have hg : g.name = n := by simpa using List.find?_some h
    show Function.update stat g v f = _
    by_cases hfg : f = g
    · subst hfg
      rw [Function.update_same, if_pos hg.symm]
    · have : n ≠ f.name := fun hn => hfg (by
        rw [hn, MemoryStatField.ofName_name] at h; exact Option.some_injective _ h)
      rw [Function.update_noteq hfg, if_neg this]

/-- A text of names and values, its words fitting the scanner. -/
theorem parseMemoryStat_wordsText {ws : List Word} {ps : List (GoString × UInt64)}
    (hw : WellSpaced ws) (hfit : ∀ w ∈ ws, w.fits) (hps : ws.map Word.token = pairTokens ps)
    (f : MemoryStatField) : parseMemoryStat (wordsText ws) f = lastValue ps f.name := by
  rw [parseMemoryStat, scanWords_wordsText hw, List.takeWhile_eq_self_iff.2 hfit, hps,
    scanStat_pairTokens]
  exact foldl_set_eq setMemoryStatField (· f) f.name
    (fun s n v => setMemoryStatField_apply s n v f) ps _

/-- Newlines in front of a text that does not start with one are trimmed off. -/
theorem dropWhile_replicate_append {c : UInt8} {d : GoString} (hd : ∀ x ∈ d.head?, x ≠ c)
    (a : Nat) : (List.replicate a c ++ d).dropWhile (· = c) = d := by
  induction a with
  | zero =>
    rcases d with _ | ⟨x, d⟩
    · rfl
    · simp [List.dropWhile_cons, hd x rfl]
  | succ a ih => simp [List.replicate_succ, List.dropWhile_cons, ih]

/-- `strings.Trim` takes off the newlines around a number. -/
theorem trim_formatUint (v a b : Nat) :
    Strings.trim (List.replicate a newline ++ formatUint v ++ List.replicate b newline) newline =
      formatUint v := by
  obtain ⟨hne, hdig, -⟩ := formatUint_spec v
  have hnl : ∀ x ∈ formatUint v, x ≠ newline := fun x hx h => by
    have := hdig x hx
    rw [h] at this
    exact absurd this (by decide)
  have hhead : ∀ x ∈ (formatUint v).head?, x ≠ newline := fun x hx =>
    hnl x (List.mem_of_mem_head? hx)
  have hlast : ∀ x ∈ (formatUint v).reverse.head?, x ≠ newline := fun x hx =>
    hnl x (List.mem_reverse.1 (List.mem_of_mem_head? hx))
  obtain ⟨x, rest, hx⟩ := List.exists_cons_of_ne_nil hne
  rw [Strings.trim, List.append_assoc, dropWhile_replicate_append (by
      rw [hx, List.cons_append]; simpa [hx] using hhead),
    List.reverse_append, List.reverse_replicate, dropWhile_replicate_append hlast,
    List.reverse_reverse]

/-- No pair sets the usage. -/
theorem usage_foldl_setCPUStatField (ps : List (GoString × UInt64)) (stat : ContainerCPUStat) :
    (ps.foldl (fun s p => setCPUStatField s p.1 p.2) stat).usage = stat.usage := by
  induction ps generalizing stat with
  | nil => rfl
  | cons p ps ih =>
    rw [List.foldl_cons, ih]
    unfold setCPUStatField
    split_ifs <;> rfl

/-- A CPU stat text of names and values, its words fitting the scanner, after a usage with
newlines around it. -/
theorem parseCPUStat_wordsText {ws : List Word} {ps : List (GoString × UInt64)}
    (hw : WellSpaced ws) (hfit : ∀ w ∈ ws, w.fits) (hps : ws.map Word.token = pairTokens ps)
    (u : UInt64) (a b : Nat) :
    parseCPUStat (List.replicate a newline ++ formatUint u.toNat ++ List.replicate b newline)
        (wordsText ws) =
      ⟨u, lastValue ps (GoString.ofString "user"), lastValue ps (GoString.ofString "system")⟩ := by
  have hus : GoString.ofString "user" ≠ GoString.ofString "system" := by decide
  rw [parseCPUStat, trim_formatUint, parseUint_formatUint_toNat]
  dsimp only
  rw [scanWords_wordsText hw, List.takeWhile_eq_self_iff.2 hfit, hps, scanStat_pairTokens]
  refine ContainerCPUStat.ext ?_ ?_ ?_
  · exact usage_foldl_setCPUStatField ps _
  · exact foldl_set_eq setCPUStatField ContainerCPUStat.user _
      (fun s n v => by unfold setCPUStatField; split_ifs <;> simp_all) ps _
  · exact foldl_set_eq setCPUStatField ContainerCPUStat.system _
      (fun s n v => by unfold setCPUStatField; split_ifs <;> simp_all) ps _

/-- **The stat parsers read back their pairs.** On a text of names and decimal values
separated by white space, each word fitting the scanner's buffer with the white-space rune after
it: each field of `parseMemoryStat`'s result holds the value of the last pair with its name, or 0;
`parseCPUStat`, given a usage in decimal with newlines around it, returns that usage and the
values of the last `user` and `system` pairs, or 0. Reference: `src/unnamed/part_000:897` and
`:977`. -/
theorem parseStats_wordsText {ws : List Word} {ps : List (GoString × UInt64)}
    (hw : WellSpaced ws) (hfit : ∀ w ∈ ws, w.fits) (hps : ws.map Word.token = pairTokens ps)
    (u : UInt64) (a b : Nat) :
    (∀ f, parseMemoryStat (wordsText ws) f = lastValue ps f.name) ∧
      parseCPUStat (List.replicate a newline ++ formatUint u.toNat ++ List.replicate b newline)
          (wordsText ws) =
        ⟨u, lastValue ps (GoString.ofString "user"), lastValue ps (GoString.ofString "system")⟩ :=
  ⟨parseMemoryStat_wordsText hw hfit hps, parseCPUStat_wordsText hw hfit hps u a b⟩

/-- A `memory.stat` and a `cpuacct.stat` text: `cache 5`, a newline, `user`, an ideographic
space and a space, `7`. -/
def sampleWords : List Word :=
  [⟨GoString.ofString "cache", [0x20]⟩, ⟨formatUint 5, [0x0A]⟩,
    ⟨GoString.ofString "user", [0x3000, 0x20]⟩, ⟨formatUint 7, []⟩]

def samplePairs : List (GoString × UInt64) :=
  [(GoString.ofString "cache", 5), (GoString.ofString "user", 7)]

/-- `sampleWords` are tokens with white space between them. -/
theorem wellSpaced_sampleWords : WellSpaced sampleWords :=
  .cons (Token.of_ascii (by decide) (by decide)) (by decide) (by decide)
    (.cons (Token.of_ascii (by decide) (by decide)) (by decide) (by decide)
      (.cons (Token.of_ascii (by decide) (by decide)) (by decide) (by decide)
        (.last (Token.of_ascii (by decide) (by decide)) (by decide))))

/-- The parsers on `sampleWords`: `cache` 5, `user` 7, and the usage 42. -/
theorem parseStats_sampleWords :
    WellSpaced sampleWords ∧ (∀ w ∈ sampleWords, w.fits) ∧
      sampleWords.map Word.token = pairTokens samplePairs ∧
      (∀ f, parseMemoryStat (wordsText sampleWords) f = lastValue samplePairs f.name) ∧
      parseCPUStat (List.replicate 1 newline ++ formatUint (42 : UInt64).toNat ++ List.replicate 1 newline)
          (wordsText sampleWords) =
        ⟨42, lastValue samplePairs (GoString.ofString "user"),
          lastValue samplePairs (GoString.ofString "system")⟩ :=
  have hfit : ∀ w ∈ sampleWords, w.fits := by decide
  have hps : sampleWords.map Word.token = pairTokens samplePairs := rfl
  ⟨wellSpaced_sampleWords, hfit, hps,
    parseStats_wordsText wellSpaced_sampleWords hfit hps 42 1 1⟩

/-! ## A word that does not fit -/

/-- A 65535-byte name and its value, then `cache 5`, the name followed by U+3000, a three-byte
space. -/
def wideSpaceWords : List Word :=
  [⟨List.replicate 65535 0x78, [0x3000]⟩, ⟨formatUint 7, [0x20]⟩,
    ⟨GoString.ofString "cache", [0x20]⟩, ⟨formatUint 5, []⟩]

def wideSpacePairs : List (GoString × UInt64) :=
  [(List.replicate 65535 0x78, 7), (GoString.ofString "cache", 5)]

/-- `wideSpaceWords` are tokens with white space between them. -/
theorem wellSpaced_wideSpaceWords : WellSpaced wideSpaceWords :=
  .cons (Token.of_ascii (fun h => absurd ((List.replicate_eq_nil_iff _).1 h) (by decide))
      fun b hb => by rw [(List.mem_replicate.1 hb).2]; decide)
    (by decide) (by decide)
    (.cons (Token.of_ascii (by decide) (by decide)) (by decide) (by decide)
      (.cons (Token.of_ascii (by decide) (by decide)) (by decide) (by decide)
        (.last (Token.of_ascii (by decide) (by decide)) (by decide))))

/-- The name does not fit with the three-byte space after it. -/
theorem fits_wideName : Word.fits ⟨List.replicate 65535 0x78, [0x3000]⟩ = false := by
  rw [Word.fits_cons, List.length_replicate]
  decide

/-- The first of `wideSpaceWords` does not fit, so the scanner returns none of them. -/
theorem takeWhile_fits_wideSpaceWords : wideSpaceWords.takeWhile Word.fits = [] := by
  rw [wideSpaceWords, List.takeWhile_cons_of_neg (by rw [fits_wideName]; decide)]

/-- `cache ` before the words above: a word that fits, then one that does not. -/
def cacheThenWideWords : List Word := ⟨GoString.ofString "cache", [0x20]⟩ :: wideSpaceWords

/-- `cacheThenWideWords` are tokens with white space between them. -/
theorem wellSpaced_cacheThenWideWords : WellSpaced cacheThenWideWords :=
  .cons (Token.of_ascii (by decide) (by decide)) (by decide) (by decide) wellSpaced_wideSpaceWords

/-- `cache`, which fits, then the wide name, which does not: the scanner returns `cache`. -/
theorem scanWords_wideSpaceWords :
    WellSpaced cacheThenWideWords ∧ Word.fits ⟨GoString.ofString "cache", [0x20]⟩ ∧
      Word.fits ⟨List.replicate 65535 0x78, [0x3000]⟩ = false ∧
      scanWords (wordsText cacheThenWideWords) = [GoString.ofString "cache"] :=
  have hfit : Word.fits ⟨GoString.ofString "cache", [0x20]⟩ := by decide
  ⟨wellSpaced_cacheThenWideWords, hfit, fits_wideName,
    scanWords_of_not_fits [⟨GoString.ofString "cache", [0x20]⟩] wellSpaced_cacheThenWideWords
      (by simpa only [List.mem_singleton, forall_eq] using hfit) fits_wideName⟩

/-- Every word of the text is shorter than `MaxScanTokenSize`, and the parser still does not
read `cache`: it stops at the name, which does not fit with the space after it. -/
theorem parseMemoryStat_wide_space :
    WellSpaced wideSpaceWords ∧ wideSpaceWords.map Word.token = pairTokens wideSpacePairs ∧
      (∀ w ∈ wideSpaceWords, w.token.length < maxScanTokenSize) ∧
      parseMemoryStat (wordsText wideSpaceWords) .cache = 0 ∧
      lastValue wideSpacePairs MemoryStatField.cache.name = 5 := by
  have hne : List.replicate 65535 (0x78 : UInt8) ≠ MemoryStatField.cache.name := fun h => by
    have h1 := congrArg List.head? h
    rw [List.head?_replicate] at h1
    exact absurd h1 (by decide)
  refine ⟨wellSpaced_wideSpaceWords, rfl, ?_, ?_, ?_⟩
  · simp only [wideSpaceWords, List.forall_mem_cons, List.length_replicate, List.not_mem_nil,
      false_implies, implies_true, and_true]
    decide
  · rw [parseMemoryStat, scanWords_wordsText wellSpaced_wideSpaceWords,
      takeWhile_fits_wideSpaceWords]
    rfl
  · rw [lastValue, wideSpacePairs, lastValue?_cons, lastValue?_cons, if_neg hne]
    decide

end LinuxBackend

end GardenLinux
