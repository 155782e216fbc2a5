import GardenLinux.Go.Utf8

/-!
# `path` and `path/filepath`, on Unix

The repository names every script and binary of a container with `path.Join`, and `StreamOut`
splits the path it is asked for with `filepath.Dir` and `filepath.Base`. All of them rest on
`Clean`, which rewrites a path by purely lexical processing, in one pass over its bytes that
writes its output through `lazybuf`: the output is read off the input while it is a prefix of it,
and copied into a buffer of its own at the first byte that differs.

`clean` is that pass, loop for loop. `LazyBuf.Holds` says what its buffer holds whatever its
write index, and every `LazyBuf` operation keeps it (`Holds.append`, `Holds.index`,
`Holds.string`): the lazy buffer reads and writes as a plain one would. Over it, `cleanSpec` says
what `Clean` is for, element by element: split the path at its `/`s, drop the empty and `.`
elements, let each `..` remove the element before it (or stay at the front of an unrooted path),
and join what is left. The pass computes it (`clean_eq_cleanSpec`): the loop keeps its output in
step with the elements it has kept (`Sim`), and a `..` backs up exactly over the last one.

From the element view, a path cleaned and then extended is the extended path cleaned
(`cleanSpec_cleanSpec_append`), and written out, the elements kept read back as themselves
(`kept_render`), so `Clean` is idempotent (`cleanSpec_idem`, `clean_clean`).
-/

namespace GardenLinux

namespace Path

/-- `'/'`. -/
def slash : UInt8 := 0x2F

/-- `'.'`. -/
def dot : UInt8 := 0x2E

/-- `.` and `/` are different bytes. -/
theorem dot_ne_slash : dot ≠ slash := by decide

/-! ## `lazybuf` -/

/-- `lazybuf`: the output of `Clean` over the input `s`. While `buf` is `nil` the output is the
prefix of `s` of length `w`; `buf` is allocated, `len(s)` bytes, at the first byte written that
differs from the input's. `w` is the next index to write. -/
structure LazyBuf where
  s : GoString
  buf : Option (List UInt8)
  w : Nat

namespace LazyBuf

/-- `index`. -/
def index (b : LazyBuf) (i : Nat) : UInt8 :=
  match b.buf with
  | some buf => buf.getD i 0
  | none => b.s.getD i 0

/-- `append`: a byte equal to the input's at `w` costs nothing; any other allocates `buf`, copies
the output into it, and writes the byte. -/
def append (b : LazyBuf) (c : UInt8) : LazyBuf :=
  match b.buf with
  | none =>
    if b.w < b.s.length ∧ b.s.getD b.w 0 = c then { b with w := b.w + 1 }
    else
      { b with
        buf := some ((b.s.take b.w ++ List.replicate (b.s.length - b.w) 0).set b.w c)
        w := b.w + 1 }
  | some buf => { b with buf := some (buf.set b.w c), w := b.w + 1 }

/-- `string`. -/
def string (b : LazyBuf) : GoString :=
  match b.buf with
  | none => b.s.take b.w
  | some buf => buf.take b.w

/-- The buffer holds `x` from index 0, whatever `w` is: `x` is a prefix of the input while no
buffer is allocated, and of the buffer, `len(s)` bytes, once one is. -/
def Holds (b : LazyBuf) (x : GoString) : Prop :=
  match b.buf with
  | none => x <+: b.s
  | some buf => buf.length = b.s.length ∧ x <+: buf

/-- Below the length of a prefix, the longer text reads as the prefix. -/
theorem getD_of_prefix {x y : GoString} {i : Nat} (h : x <+: y) (hi : i < x.length) :
    y.getD i 0 = x.getD i 0 := by
  obtain ⟨t, rfl⟩ := h
  simp only [List.getD_eq_getElem?_getD, List.getElem?_append_left hi]

@[simp] theorem append_s (b : LazyBuf) (c : UInt8) : (b.append c).s = b.s := by
  obtain ⟨s, _ | buf, w⟩ := b
  · simp only [append]; split <;> rfl
  · rfl

@[simp] theorem append_w (b : LazyBuf) (c : UInt8) : (b.append c).w = b.w + 1 := by
  obtain ⟨s, _ | buf, w⟩ := b
  · simp only [append]; split <;> rfl
  · rfl

/-- What the buffer holds does not depend on `w`. -/
@[simp] theorem holds_setW (b : LazyBuf) (k : Nat) (x : GoString) :
    ({ b with w := k } : LazyBuf).Holds x ↔ b.Holds x := Iff.rfl

/-- A buffer that holds a text holds each prefix of it. -/
theorem Holds.of_prefix {b : LazyBuf} {x y : GoString} (hb : b.Holds y) (h : x <+: y) :
    b.Holds x := by
  obtain ⟨s, _ | buf, w⟩ := b
  · exact h.trans hb
  · exact ⟨hb.1, h.trans hb.2⟩

/-- `index` reads what the buffer holds. -/
theorem Holds.index {b : LazyBuf} {x : GoString} {i : Nat} (hb : b.Holds x) (hi : i < x.length) :
    b.index i = x.getD i 0 := by
  obtain ⟨s, _ | buf, w⟩ := b
  · exact getD_of_prefix hb hi
  · exact getD_of_prefix hb.2 hi

/-- `string` is what the buffer holds up to `w`. -/
theorem Holds.string {b : LazyBuf} {x : GoString} (hb : b.Holds x) (hw : b.w = x.length) :
    b.string = x := by
  obtain ⟨s, _ | buf, w⟩ := b <;> dsimp only at hw <;> subst hw
  · exact (List.prefix_iff_eq_take.1 hb).symm
  · exact (List.prefix_iff_eq_take.1 hb.2).symm

/-- Writing at the end of a prefix, inside the list. -/
theorem set_prefix {l x : GoString} {c : UInt8} (hx : x <+: l) (hl : x.length < l.length) :
    x ++ [c] <+: l.set x.length c := by
  obtain ⟨t, rfl⟩ := hx
  obtain _ | ⟨d, t⟩ := t
  · simp at hl
  · rw [List.set_append_right _ _ le_rfl, Nat.sub_self]
    exact ⟨t, by simp⟩

/-- **The lazy buffer writes as a plain one**: appending `c` below `len(s)` to a buffer holding
its output `x` makes it hold `x` and `c`. Reference: Go's `path/path.go`, `func (b *lazybuf)
append`. -/
theorem Holds.append {b : LazyBuf} {x : GoString} (hb : b.Holds x) (hw : b.w = x.length)
    (hlt : b.w < b.s.length) (c : UInt8) : (b.append c).Holds (x ++ [c]) := by
  obtain ⟨s, _ | buf, w⟩ := b <;> dsimp only at hw hlt <;> subst hw
  · obtain ⟨t, rfl⟩ := hb
    obtain _ | ⟨d, t⟩ := t
    · simp at hlt
    · simp only [LazyBuf.append]
      split
      · rename_i hc
        have hd : d = c := by
          simpa only [List.getD_eq_getElem?_getD, List.getElem?_append_right le_rfl, Nat.sub_self,
            List.getElem?_cons_zero, Option.getD_some] using hc.2
        subst hd
        exact ⟨t, by simp⟩
      · refine ⟨by simp, ?_⟩
        rw [List.take_append_of_le_length le_rfl, List.take_length]
        exact set_prefix (List.prefix_append _ _) (by simp)
  · exact ⟨by simp [hb.1], set_prefix hb.2 (by rw [hb.1]; exact hlt)⟩

end LazyBuf

/-! ## `Clean` -/

/-- The backtracking loop of a `..` element:
`for out.w > dotdot && out.index(out.w) != '/' { out.w-- }`. -/
def backtrack (out : LazyBuf) (dotdot : Nat) : LazyBuf :=
  if _h : dotdot < out.w ∧ out.index out.w ≠ slash then
    backtrack { out with w := out.w - 1 } dotdot
  else out
termination_by out.w
decreasing_by simp_wf; omega

/-- A `..` element: back up over the last element when there is one to remove; else, on an
unrooted path, write the `..` (behind a `/` unless the output is empty), which no later `..`
removes. -/
def dotDotElement (rooted : Bool) (out : LazyBuf) (dotdot : Nat) : LazyBuf × Nat :=
  if out.w > dotdot then (backtrack { out with w := out.w - 1 } dotdot, dotdot)
  else if !rooted then
    let out := if out.w > 0 then out.append slash else out
    let out := (out.append dot).append dot
    (out, out.w)
  else (out, dotdot)

/-- A real element: a `/` unless the output is empty (or just the root), then the element's
bytes. -/
def realElement (rooted : Bool) (out : LazyBuf) (elem : GoString) : LazyBuf :=
  let out := if (rooted && out.w != 1) || (!rooted && out.w != 0) then out.append slash else out
  elem.foldl LazyBuf.append out

/-- Dropping at least one byte shortens the text: the loop of `Clean` terminates. -/
theorem length_dropWhile_cons_lt {p : UInt8 → Bool} {c : UInt8} {t : GoString} (hc : p c = true) :
    ((c :: t).dropWhile p).length < t.length + 1 := by
  rw [List.dropWhile_cons_of_pos hc]
  exact Nat.lt_succ_of_le (List.dropWhile_suffix p).length_le

/-- The loop of `Clean` over the bytes left to read, `path[r:]`: an empty element, a `.`, a `..`
or a real element, which runs to the next `/`. -/
def cleanLoop (rooted : Bool) : GoString → LazyBuf → Nat → LazyBuf
  | [], out, _ => out
  | c :: t, out, dotdot =>
    if c = slash then cleanLoop rooted t out dotdot
    else if c = dot ∧ (t = [] ∨ t.head? = some slash) then cleanLoop rooted t out dotdot
    else if c = dot ∧ t.head? = some dot ∧ (t.tail = [] ∨ t.tail.head? = some slash) then
      cleanLoop rooted t.tail (dotDotElement rooted out dotdot).1 (dotDotElement rooted out dotdot).2
    else
      cleanLoop rooted ((c :: t).dropWhile (· ≠ slash))
        (realElement rooted out ((c :: t).takeWhile (· ≠ slash))) dotdot
termination_by rest => rest.length
decreasing_by
  all_goals simp_wf
  all_goals first
    | omega
    | exact length_dropWhile_cons_lt (by simpa using ‹¬c = slash›)

/-- `path.Clean`, which is `filepath.Clean` on Unix: the shortest path name equivalent to `path`
by purely lexical processing. -/
def clean (path : GoString) : GoString :=
  match path with
  | [] => [dot]
  | c :: t =>
    let out := if c = slash then cleanLoop true t ((LazyBuf.mk (c :: t) none 0).append slash) 1
      else cleanLoop false (c :: t) ⟨c :: t, none, 0⟩ 0
    if out.w = 0 then [dot] else out.string

/-! ## What `Clean` is for -/

/-- `..`. -/
def dotDot : GoString := [dot, dot]

/-- A real element: not empty, no `/`, neither `.` nor `..`. -/
def Normal (e : GoString) : Prop := e ≠ [] ∧ slash ∉ e ∧ e ≠ [dot] ∧ e ≠ dotDot

/-- `Clean`'s rule for the next element, on the elements kept so far: an empty or `.` element
goes; a `..` removes the last element kept when that is a real one, and else stays on an
unrooted path and goes on a rooted one; any other element is kept. -/
def pushElem (rooted : Bool) (st : List GoString) (e : GoString) : List GoString :=
  if e = [] ∨ e = [dot] then st
  else if e = dotDot then
    if st.getLast? = none ∨ st.getLast? = some dotDot then (if rooted then st else st ++ [e])
    else st.dropLast
  else st ++ [e]

/-- The elements kept, written out: behind a `/` when rooted, joined by `/`. -/
def raw (rooted : Bool) (st : List GoString) : GoString :=
  (if rooted then [slash] else []) ++ [slash].intercalate st

/-- The path the elements kept stand for: `.` when there are none on an unrooted path. -/
def render (rooted : Bool) (st : List GoString) : GoString :=
  if !rooted && st.isEmpty then [dot] else raw rooted st

/-- Whether a path is rooted, `path[0] == '/'`. -/
def isRooted (path : GoString) : Bool := path.head? == some slash

/-- The elements `Clean` keeps of a path. -/
def kept (rooted : Bool) (path : GoString) : List GoString :=
  (path.splitOn slash).foldl (pushElem rooted) []

/-- **What `Clean` is for**: the elements it keeps, written out. Reference: Go's `path/path.go`, the
comment on `func Clean`. -/
def cleanSpec (path : GoString) : GoString := render (isRooted path) (kept (isRooted path) path)

/-- What `Clean` keeps: leading `..`s, none on a rooted path, then real elements. -/
def Kept (rooted : Bool) (st : List GoString) : Prop :=
  ∃ k normals, st = List.replicate k dotDot ++ normals ∧ (rooted = true → k = 0) ∧
    ∀ e ∈ normals, Normal e

section Elements

variable {rooted : Bool} {st : List GoString}

@[simp] theorem pushElem_nil (rooted : Bool) (st : List GoString) : pushElem rooted st [] = st := by
  simp [pushElem]

@[simp] theorem pushElem_dot (rooted : Bool) (st : List GoString) :
    pushElem rooted st [dot] = st := by
  simp [pushElem]

/-- A real element is kept as it is, at the end. -/
theorem pushElem_normal {e : GoString} (he : Normal e) : pushElem rooted st e = st ++ [e] := by
  rw [pushElem, if_neg (by rintro (h | h) <;> [exact he.1 h; exact he.2.2.1 h]), if_neg he.2.2.2]

/-- Nothing kept is of the form `Clean` keeps. -/
theorem Kept.nil : Kept rooted [] := ⟨0, [], rfl, fun _ => rfl, by simp⟩

/-- A real element is no `..`. -/
theorem normal_ne_dotDot {e : GoString} (he : Normal e) : e ≠ dotDot := he.2.2.2

/-- A `..` on what `Clean` keeps: it removes the last real element; with none, it stays on an
unrooted path and goes on a rooted one. -/
theorem pushElem_dotDot {k : Nat} {normals : List GoString} (hn : ∀ e ∈ normals, Normal e) :
    pushElem rooted (List.replicate k dotDot ++ normals) dotDot =
      if normals = [] then (if rooted then List.replicate k dotDot else List.replicate (k + 1) dotDot)
      else List.replicate k dotDot ++ normals.dropLast := by
  have hne : dotDot ≠ [] ∧ dotDot ≠ [dot] := ⟨by simp [dotDot], by simp [dotDot]⟩
  rw [pushElem, if_neg (by rintro (h | h) <;> [exact hne.1 h; exact hne.2 h]), if_pos rfl]
  rcases List.eq_nil_or_concat normals with rfl | ⟨L, b, rfl⟩
  · rw [List.append_nil, if_pos rfl]
    rw [if_pos]
    · cases rooted
      · simp [List.replicate_succ']
      · rfl
    · cases k
      · exact .inl rfl
      · exact .inr (by simp [List.replicate_succ'])
  · have hb : b ≠ dotDot := normal_ne_dotDot (hn b (by simp))
    have hlast : (List.replicate k dotDot ++ L.concat b).getLast? = some b := by simp
    rw [hlast, if_neg (by simpa using hb), if_neg (by simp)]
    simp [← List.append_assoc]

/-- `Clean`'s rule for the next element keeps the form: `..`s first, then real elements. -/
theorem Kept.push {e : GoString} (hk : Kept rooted st) (hs : slash ∉ e) :
    Kept rooted (pushElem rooted st e) := by
  obtain ⟨k, normals, rfl, hr, hn⟩ := hk
  by_cases h1 : e = [] ∨ e = [dot]
  · rw [pushElem, if_pos h1]; exact ⟨k, normals, rfl, hr, hn⟩
  by_cases h2 : e = dotDot
  · subst h2
    rw [pushElem_dotDot hn]
    split_ifs with h3 h4
    · exact ⟨k, [], by simp, hr, by simp⟩
    · exact ⟨k + 1, [], by simp, by simp [h4], by simp⟩
    · exact ⟨k, normals.dropLast, rfl, hr, fun e he => hn e ((List.dropLast_sublist _).subset he)⟩
  · have he : Normal e := ⟨fun h => h1 (.inl h), hs, fun h => h1 (.inr h), h2⟩
    rw [pushElem_normal he]
    refine ⟨k, normals ++ [e], by simp, hr, ?_⟩
    simp only [List.mem_append, List.mem_singleton]
    rintro x (hx | rfl)
    · exact hn x hx
    · exact he

/-- The `..`s of what `Clean` keeps are the leading ones. -/
theorem takeWhile_kept {k : Nat} {normals : List GoString} (hn : ∀ e ∈ normals, Normal e) :
    (List.replicate k dotDot ++ normals).takeWhile (· = dotDot) = List.replicate k dotDot := by
  induction k with
  | zero =>
    cases normals with
    | nil => rfl
    | cons e _ => simp [normal_ne_dotDot (hn e (by simp))]
  | succ k ih => simp [List.replicate_succ, ih]

/-- An element that fails the test at the end changes nothing the test takes from the front. -/
theorem takeWhile_snoc {p : GoString → Bool} {e : GoString} (he : p e = false) :
    ∀ l : List GoString, (l ++ [e]).takeWhile p = l.takeWhile p
  | [] => by simp [he]
  | a :: l => by
    rw [List.cons_append, List.takeWhile_cons, List.takeWhile_cons, takeWhile_snoc he l]

/-! ### Writing the elements out -/

/-- Joining one more element by `/`: the join so far, a `/`, the element. -/
theorem intercalate_snoc {st : List GoString} (hst : st ≠ []) (e : GoString) :
    [slash].intercalate (st ++ [e]) = [slash].intercalate st ++ slash :: e := by
  induction st with
  | nil => exact absurd rfl hst
  | cons a st ih =>
    cases st with
    | nil => simp [List.intercalate]
    | cons b st =>
      rw [List.cons_append, List.cons_append]
      simp only [List.intercalate, List.intersperse_cons_cons, List.flatten_cons, List.append_assoc,
        List.cons_append] at ih ⊢
      rw [ih (List.cons_ne_nil _ _)]

/-- One more element written out: behind a `/` unless it is the first. -/
theorem raw_snoc (rooted : Bool) (st : List GoString) (e : GoString) :
    raw rooted (st ++ [e]) = raw rooted st ++ (if st = [] then [] else [slash]) ++ e := by
  by_cases hst : st = []
  · subst hst; simp [raw, List.intercalate]
  · simp only [raw, intercalate_snoc hst, if_neg hst, List.append_assoc, List.singleton_append]

@[simp] theorem raw_nil (rooted : Bool) : raw rooted [] = if rooted then [slash] else [] := by
  cases rooted <;> rfl

/-- Written out, the elements kept are a prefix of those with more after them. -/
theorem raw_prefix_append (rooted : Bool) (st more : List GoString) :
    raw rooted st <+: raw rooted (st ++ more) := by
  induction more using List.reverseRecOn with
  | nil => simp
  | append_singleton more e ih =>
    rw [← List.append_assoc, raw_snoc, List.append_assoc]
    exact ih.trans (List.prefix_append _ _)

/-- No element `Clean` keeps is empty. -/
theorem Kept.ne_nil (hk : Kept rooted st) : ∀ e ∈ st, e ≠ [] := by
  obtain ⟨k, normals, rfl, -, hn⟩ := hk
  intro e he
  rcases List.mem_append.1 he with he | he
  · rw [List.eq_of_mem_replicate he]; simp [dotDot]
  · exact (hn e he).1

/-- No element `Clean` keeps holds a `/`. -/
theorem Kept.slash_not_mem (hk : Kept rooted st) : ∀ e ∈ st, slash ∉ e := by
  obtain ⟨k, normals, rfl, -, hn⟩ := hk
  intro e he
  rcases List.mem_append.1 he with he | he
  · rw [List.eq_of_mem_replicate he]; decide
  · exact (hn e he).2.1

/-- One more element written out makes a longer text. -/
theorem length_raw_lt (rooted : Bool) (st : List GoString) {e : GoString} (he : e ≠ []) :
    (raw rooted st).length < (raw rooted (st ++ [e])).length := by
  rw [raw_snoc]
  simp only [List.length_append]
  have := List.length_pos.2 he
  omega

/-- The elements written out are just the root, or nothing, exactly when there are none. -/
theorem length_raw_eq_iff (rooted : Bool) (hst : ∀ e ∈ st, e ≠ []) :
    (raw rooted st).length = (raw rooted []).length ↔ st = [] := by
  refine ⟨fun h => ?_, fun h => by subst h; rfl⟩
  rcases List.eq_nil_or_concat st with rfl | ⟨L, e, rfl⟩
  · rfl
  · have h1 := length_raw_lt rooted L (hst e (by simp))
    have h2 := (raw_prefix_append rooted [] L).length_le
    rw [List.concat_eq_append] at h
    rw [List.nil_append] at h2
    omega

end Elements

/-! ## The pass keeps the elements -/

namespace LazyBuf

@[simp] theorem foldl_append_s (ys : GoString) (b : LazyBuf) : (ys.foldl append b).s = b.s := by
  induction ys generalizing b <;> simp [*]

@[simp] theorem foldl_append_w (ys : GoString) (b : LazyBuf) :
    (ys.foldl append b).w = b.w + ys.length := by
  induction ys generalizing b with
  | nil => rfl
  | cons c ys ih => simp only [List.foldl_cons, ih, append_w, List.length_cons]; omega

/-- Appending bytes one by one, all below `len(s)`. -/
theorem Holds.appendList {b : LazyBuf} {x : GoString} (hb : b.Holds x) (hw : b.w = x.length)
    (ys : GoString) (hlt : b.w + ys.length ≤ b.s.length) :
    (ys.foldl LazyBuf.append b).Holds (x ++ ys) := by
  induction ys generalizing b x with
  | nil => simpa using hb
  | cons c ys ih =>
    simp only [List.length_cons] at hlt
    rw [List.foldl_cons, ← List.singleton_append, ← List.append_assoc]
    exact ih (hb.append hw (by omega) c) (by simp [hw]) (by simp; omega)

end LazyBuf

/-- A byte read past a prefix is one of what follows it. -/
theorem getD_mem_of_le {pre e : GoString} {i : Nat} (h1 : pre.length ≤ i)
    (h2 : i < (pre ++ e).length) : (pre ++ e).getD i 0 ∈ e := by
  rw [List.length_append] at h2
  rw [List.getD_eq_getElem?_getD, List.getElem?_append_right h1,
    List.getElem?_eq_getElem (by omega), Option.getD_some]
  exact List.getElem_mem _

/-- `backtrack` from `a + m`, over bytes that are not `/`, stops at `a`, where it meets `dotdot`
or a `/`. -/
theorem backtrack_eq {out : LazyBuf} {x : GoString} {dotdot a : Nat} (hx : out.Holds x)
    (hd : dotdot ≤ a) (hstop : a = dotdot ∨ x.getD a 0 = slash)
    (hskip : ∀ i, a < i → i < x.length → x.getD i 0 ≠ slash) :
    ∀ m, a + m < x.length → backtrack { out with w := a + m } dotdot = { out with w := a }
  | 0, hm => by
    rw [backtrack, dif_neg]
    · rfl
    rintro ⟨hlt, hne⟩
    rcases hstop with rfl | hs
    · exact lt_irrefl _ hlt
    · exact hne ((hx.index hm).trans hs)
  | m + 1, hm => by
    rw [backtrack, dif_pos ⟨by dsimp only; omega,
      fun h => hskip _ (by omega) hm ((hx.index hm).symm.trans h)⟩]
    exact backtrack_eq hx hd hstop hskip m (by omega)

/-- Where an element ends: at the end of the path or at a `/`. -/
def AtEnd (d : GoString) : Prop := d = [] ∨ d.head? = some slash

/-- At an element's end, the next byte is a `/`, if there is one. -/
theorem AtEnd.not_cons {d t : GoString} {c : UInt8} (hd : AtEnd d) (h : d = c :: t)
    (hc : c ≠ slash) : False := by
  subst h
  rcases hd with h | h
  · cases h
  · exact hc (by simpa using h)

/-- What follows the bytes up to the first `/` is at an element's end. -/
theorem atEnd_dropWhile (l : GoString) : AtEnd (l.dropWhile (· ≠ slash)) := by
  have h := List.head?_dropWhile_not (· ≠ slash) l
  revert h
  rcases hl : (l.dropWhile (· ≠ slash)).head? with _ | x
  · exact fun _ => .inl (List.head?_eq_none_iff.1 hl)
  · exact fun h => .inr (by rw [hl]; simpa using h)

/-- A text with no byte before its first `/` is at an element's end. -/
theorem atEnd_of_takeWhile_nil {t : GoString} (h : t.takeWhile (· ≠ slash) = []) : AtEnd t := by
  cases t with
  | nil => exact .inl rfl
  | cons a t =>
    by_cases ha : a = slash
    · exact .inr (by simp [ha])
    · simp [List.takeWhile_cons, ha] at h

/-- The real element the loop reads: what runs to the next `/`, when it is neither `.` nor `..`. -/
theorem normal_takeWhile {c : UInt8} {t : GoString} (h1 : c ≠ slash) (h2 : ¬(c = dot ∧ AtEnd t))
    (h3 : ¬(c = dot ∧ t.head? = some dot ∧ AtEnd t.tail)) :
    Normal ((c :: t).takeWhile (· ≠ slash)) := by
  have hcons : (c :: t).takeWhile (· ≠ slash) = c :: t.takeWhile (· ≠ slash) := by
    rw [List.takeWhile_cons, if_pos (by simpa using h1)]
  refine ⟨by rw [hcons]; exact List.cons_ne_nil _ _, fun h => by simpa using List.mem_takeWhile_imp h,
    fun h => ?_, fun h => ?_⟩
  · rw [hcons, List.cons.injEq] at h
    exact h2 ⟨h.1, atEnd_of_takeWhile_nil h.2⟩
  · rw [hcons, dotDot, List.cons.injEq] at h
    obtain ⟨rfl, h⟩ := h
    cases t with
    | nil => cases h
    | cons a t =>
      by_cases ha : a = slash
      · simp [List.takeWhile_cons, ha] at h
      · simp only [List.takeWhile_cons, ha, decide_not, decide_False, Bool.not_false, ite_true,
          List.cons.injEq] at h
        exact h3 ⟨rfl, by simp [h.1], atEnd_of_takeWhile_nil (by simpa using h.2)⟩

/-- Reading an element `e` that ends at `d`: `Clean` sees it next. -/
theorem foldl_splitOn_append {e d : GoString} (he : slash ∉ e) (hd : AtEnd d) (st : List GoString) :
    ((e ++ d).splitOn slash).foldl (pushElem rooted) st =
      (d.splitOn slash).foldl (pushElem rooted) (pushElem rooted st e) := by
  have hx : ∀ x ∈ e, ¬(x == slash) = true := fun x hx h => he (by simpa [(beq_iff_eq).1 h] using hx)
  rcases hd with rfl | hd
  · rw [List.append_nil, List.splitOn, List.splitOnP_eq_single _ _ hx]
    simp
  · obtain ⟨d, rfl⟩ := List.head?_eq_some_iff.1 hd
    rw [List.splitOn, List.splitOnP_first _ _ hx _ (by simp)]
    simp [List.splitOn]

/-- The loop of `Clean` with `rest` left to read, against the elements `st` kept of what it has
read: its output holds them written out, `dotdot` is where their leading `..`s end, and what is
left to read fits in the input behind the output, with a byte to spare for a `/` when a real
element comes next and one is already out. -/
structure Sim (path : GoString) (rooted : Bool) (rest : GoString) (out : LazyBuf) (dotdot : Nat)
    (st : List GoString) : Prop where
  kept : Kept rooted st
  s : out.s = path
  holds : out.Holds (raw rooted st)
  w : out.w = (raw rooted st).length
  dotdot : dotdot = (raw rooted (st.takeWhile (· = dotDot))).length
  room : out.w + rest.length ≤ path.length
  slack : ∀ c t, rest = c :: t → c ≠ slash → st ≠ [] → out.w + rest.length < path.length

section Sim

variable {path : GoString} {rooted : Bool} {out : LazyBuf} {dotdot : Nat} {st : List GoString}

/-- A byte read with nothing written: a `/`, or a `.` element. -/
theorem Sim.tail {c : UInt8} {t : GoString} (hs : Sim path rooted (c :: t) out dotdot st) :
    Sim path rooted t out dotdot st :=
  have h := hs.room
  { hs with
    room := by simp only [List.length_cons] at h; omega
    slack := fun _ _ _ _ _ => by simp only [List.length_cons] at h; omega }

/-- An element written out, behind a `/` unless it is the first. -/
theorem Sim.write {e d : GoString} {dotdot' : Nat} (hs : Sim path rooted (e ++ d) out dotdot st)
    (hk : Kept rooted (st ++ [e])) (hd : AtEnd d)
    (hdd : dotdot' = (raw rooted ((st ++ [e]).takeWhile (· = dotDot))).length) :
    Sim path rooted d (((if st = [] then [] else [slash]) ++ e).foldl LazyBuf.append out) dotdot'
      (st ++ [e]) := by
  have he : e ≠ [] := hk.ne_nil e (by simp)
  have hse : slash ∉ e := hk.slash_not_mem e (by simp)
  have hbound : out.w + ((if st = [] then [] else [slash]) ++ e).length + d.length ≤ path.length := by
    have h := hs.room
    split_ifs with hst
    · simpa [Nat.add_assoc] using h
    · obtain ⟨c, t, hct⟩ := List.exists_cons_of_ne_nil he
      have := hs.slack c (t ++ d) (by simp [hct])
        (fun h => hse (by rw [hct, h]; exact List.mem_cons_self _ _)) hst
      simp only [List.length_append, List.length_singleton] at this ⊢
      omega
  refine ⟨hk, by simp [hs.s], ?_, ?_, hdd, ?_, fun c t h hc _ => (hd.not_cons h hc).elim⟩
  · rw [raw_snoc, List.append_assoc]
    exact hs.holds.appendList hs.w _ (by rw [hs.s]; omega)
  · simp only [LazyBuf.foldl_append_w, raw_snoc, List.length_append, hs.w, Nat.add_assoc]
  · simpa [Nat.add_assoc] using hbound

/-- `Clean` writes a `/` before an element unless the output is still the root, or empty. -/
theorem sep_cond (rooted : Bool) (w : Nat) :
    ((rooted && w != 1) || (!rooted && w != 0)) = !decide (w = (raw rooted []).length) := by
  cases rooted <;> simp only [raw, List.intercalate, bne] <;> exact Bool.eq_iff_iff.2 (by simp)

/-- `Clean`'s writing of a real element, on the elements kept so far: a `/` unless there are
none, then the element's bytes, one by one. -/
theorem realElement_eq (hk : Kept rooted st) (hw : out.w = (raw rooted st).length)
    (e : GoString) :
    realElement rooted out e = ((if st = [] then [] else [slash]) ++ e).foldl LazyBuf.append out := by
  have h := length_raw_eq_iff rooted hk.ne_nil
  rw [← hw] at h
  have h' : decide (out.w = (raw rooted []).length) = decide (st = []) := decide_eq_decide.2 h
  rw [realElement, List.foldl_append, sep_cond, h']
  by_cases hst : st = [] <;> simp [hst]

/-- A real element read: written out, behind a `/` unless it is the first. -/
theorem Sim.real {e d : GoString} (hs : Sim path rooted (e ++ d) out dotdot st) (he : Normal e)
    (hd : AtEnd d) : Sim path rooted d (realElement rooted out e) dotdot (st ++ [e]) := by
  rw [realElement_eq hs.kept hs.w]
  refine hs.write (pushElem_normal he ▸ hs.kept.push he.2.1) hd ?_
  rw [takeWhile_snoc (by simpa using normal_ne_dotDot he), hs.dotdot]

/-- A `..` read after a real element: the loop backs up over it. -/
theorem Sim.dotDot_back {d : GoString} {k : Nat} {L : List GoString} {b : GoString}
    (hs : Sim path rooted (dot :: dot :: d) out dotdot (List.replicate k dotDot ++ (L ++ [b])))
    (hr : rooted = true → k = 0) (hn : ∀ e ∈ L ++ [b], Normal e) (hd : AtEnd d) :
    Sim path rooted d (dotDotElement rooted out dotdot).1 (dotDotElement rooted out dotdot).2
      (List.replicate k dotDot ++ L) := by
  have hb : Normal b := hn b (by simp)
  have hst : List.replicate k dotDot ++ (L ++ [b]) = (List.replicate k dotDot ++ L) ++ [b] :=
    (List.append_assoc _ _ _).symm
  have hdd : dotdot = (raw rooted (List.replicate k dotDot)).length := by
    rw [hs.dotdot, takeWhile_kept hn]
  have hle := (raw_prefix_append rooted (List.replicate k dotDot) L).length_le
  have hlt := length_raw_lt rooted (List.replicate k dotDot ++ L) hb.1
  have hw := hs.w
  rw [hst] at hw
  have hback : backtrack { out with w := out.w - 1 } dotdot =
      { out with w := (raw rooted (List.replicate k dotDot ++ L)).length } := by
    have hx := hs.holds
    rw [hst] at hx
    have := backtrack_eq (a := (raw rooted (List.replicate k dotDot ++ L)).length) hx
      (hdd.trans_le hle)
      ?_ ?_ (out.w - 1 - (raw rooted (List.replicate k dotDot ++ L)).length) (by omega)
    · rwa [show (raw rooted (List.replicate k dotDot ++ L)).length +
        (out.w - 1 - (raw rooted (List.replicate k dotDot ++ L)).length) = out.w - 1 by omega] at this
    · by_cases hA : List.replicate k dotDot ++ L = []
      · left
        obtain ⟨hk, rfl⟩ := List.append_eq_nil.1 hA
        simp [hdd, hk]
      · right
        rw [raw_snoc, if_neg hA, List.append_assoc, List.getD_eq_getElem?_getD,
          List.getElem?_append_right le_rfl, Nat.sub_self]
        simp
    · intro i hi hix
      rw [raw_snoc] at hix ⊢
      refine fun h => hb.2.1 (h ▸ getD_mem_of_le ?_ hix)
      split_ifs <;> simp <;> omega
  rw [dotDotElement, if_pos (by omega), hback]
  refine ⟨⟨k, L, rfl, hr, fun e he => hn e (List.mem_append_left _ he)⟩, hs.s, ?_, rfl, ?_, ?_,
    fun c t h hc _ => (hd.not_cons h hc).elim⟩
  · exact hs.holds.of_prefix (hst ▸ raw_prefix_append rooted _ [b])
  · rw [hdd, takeWhile_kept (fun e he => hn e (List.mem_append_left _ he))]
  · have := hs.room
    simp only [List.length_cons] at this ⊢
    omega

/-- `..`s alone are all leading. -/
theorem takeWhile_replicate_dotDot (k : Nat) :
    (List.replicate k dotDot).takeWhile (· = dotDot) = List.replicate k dotDot := by
  induction k <;> simp [List.replicate_succ, *]

/-- A `..` read with only `..`s kept, on an unrooted path: it is written, behind a `/` unless it
is the first, and no later `..` removes it. -/
theorem Sim.dotDot_write {d : GoString} {k : Nat}
    (hs : Sim path false (dot :: dot :: d) out dotdot (List.replicate k dotDot)) (hd : AtEnd d) :
    Sim path false d (dotDotElement false out dotdot).1 (dotDotElement false out dotdot).2
      (List.replicate (k + 1) dotDot) := by
  have hw : out.w = dotdot := by rw [hs.w, hs.dotdot, takeWhile_replicate_dotDot]
  have h := length_raw_eq_iff false hs.kept.ne_nil
  rw [← hs.w] at h
  have hsep : (if out.w > 0 then out.append slash else out) =
      (if List.replicate k dotDot = [] then [] else [slash]).foldl LazyBuf.append out := by
    by_cases hk : List.replicate k dotDot = []
    · simp [hk, h.2 hk]
    · have : out.w ≠ 0 := mt h.1 hk
      simp [hk, Nat.pos_of_ne_zero this]
  have hout : dotDotElement false out dotdot =
      (((if List.replicate k dotDot = [] then [] else [slash]) ++ dotDot).foldl LazyBuf.append out,
        (((if List.replicate k dotDot = [] then [] else [slash]) ++ dotDot).foldl
          LazyBuf.append out).w) := by
    rw [dotDotElement, if_neg (by omega), Bool.not_false, if_pos rfl]
    simp only [hsep, List.foldl_append]
    rfl
  have hk : Kept false (List.replicate k dotDot ++ [dotDot]) :=
    ⟨k + 1, [], by simp [List.replicate_succ'], by simp, by simp⟩
  rw [hout, List.replicate_succ']
  refine hs.write (e := dotDot) hk hd ?_
  rw [← List.replicate_succ', takeWhile_replicate_dotDot, List.replicate_succ', raw_snoc]
  simp only [LazyBuf.foldl_append_w, List.length_append, hs.w, Nat.add_assoc]

/-- A `..` read with nothing kept, on a rooted path: it is dropped. -/
theorem Sim.dotDot_root {d : GoString} (hs : Sim path true (dot :: dot :: d) out dotdot []) :
    Sim path true d (dotDotElement true out dotdot).1 (dotDotElement true out dotdot).2 [] := by
  have hw : out.w = dotdot := by rw [hs.w, hs.dotdot]; rfl
  rw [dotDotElement, if_neg (by omega), if_neg (by decide)]
  exact hs.tail.tail

/-- A `..` read: it removes the last real element kept; with none, it is written on an unrooted
path and dropped on a rooted one. -/
theorem Sim.dotDot {d : GoString} (hs : Sim path rooted (dot :: dot :: d) out dotdot st)
    (hd : AtEnd d) :
    Sim path rooted d (dotDotElement rooted out dotdot).1 (dotDotElement rooted out dotdot).2
      (pushElem rooted st dotDot) := by
  obtain ⟨k, normals, rfl, hr, hn⟩ := hs.kept
  rw [pushElem_dotDot hn]
  rcases List.eq_nil_or_concat normals with rfl | ⟨L, b, rfl⟩
  · rw [List.append_nil] at hs
    cases rooted
    · exact hs.dotDot_write hd
    · obtain rfl := hr rfl
      exact hs.dotDot_root
  · simp only [List.concat_eq_append] at hs hn ⊢
    rw [if_neg (by simp), List.dropLast_concat]
    exact hs.dotDot_back hr hn hd

/-- Splitting at `/` reads the first element, up to the first `/`, then the rest. -/
theorem foldl_splitOn_takeWhile (l : GoString) (st : List GoString) :
    (l.splitOn slash).foldl (pushElem rooted) st =
      ((l.dropWhile (· ≠ slash)).splitOn slash).foldl (pushElem rooted)
        (pushElem rooted st (l.takeWhile (· ≠ slash))) := by
  conv_lhs => rw [← List.takeWhile_append_dropWhile (· ≠ slash) l]
  exact foldl_splitOn_append (fun h => by simpa using List.mem_takeWhile_imp h)
    (atEnd_dropWhile l) st

/-- **The loop keeps `Sim`**: run to the end from where it stands against `st`, it stands against
the elements kept of all it has read. Reference: Go's `path/path.go`, the loop of `func Clean`. -/
theorem cleanLoop_sim (rest : GoString) (out : LazyBuf) (dotdot : Nat) :
    ∀ {st}, Sim path rooted rest out dotdot st → ∃ dotdot',
      Sim path rooted [] (cleanLoop rooted rest out dotdot) dotdot'
        ((rest.splitOn slash).foldl (pushElem rooted) st) := by
  induction rest, out, dotdot using cleanLoop.induct rooted with
  | case1 out dotdot =>
    intro st hs
    rw [cleanLoop]
    exact ⟨dotdot, by simpa using hs⟩
  | case2 t out dotdot ih =>
    intro st hs
    rw [cleanLoop, if_pos rfl]
    simpa [List.splitOn] using ih hs.tail
  | case3 c t out dotdot h1 h2 ih =>
    intro st hs
    rw [cleanLoop, if_neg h1, if_pos h2]
    obtain ⟨rfl, hd⟩ := h2
    rw [show dot :: t = [dot] ++ t from rfl,
      foldl_splitOn_append (by simpa using dot_ne_slash.symm) hd, pushElem_dot]
    exact ih hs.tail
  | case4 c t out dotdot h1 h2 h3 ih =>
    intro st hs
    rw [cleanLoop, if_neg h1, if_neg h2, if_pos h3]
    obtain ⟨rfl, ht, hd⟩ := h3
    obtain ⟨t, rfl⟩ := List.head?_eq_some_iff.1 ht
    simp only [List.tail_cons] at hd ih ⊢
    rw [show dot :: dot :: t = dotDot ++ t from rfl, foldl_splitOn_append (by decide) hd]
    exact ih (hs.dotDot hd)
  | case5 c t out dotdot h1 h2 h3 ih =>
    intro st hs
    rw [cleanLoop, if_neg h1, if_neg h2, if_neg h3]
    have he := normal_takeWhile h1 h2 h3
    have hs' : Sim path rooted
        ((c :: t).takeWhile (· ≠ slash) ++ (c :: t).dropWhile (· ≠ slash)) out dotdot st := by
      rw [List.takeWhile_append_dropWhile]; exact hs
    rw [foldl_splitOn_takeWhile, pushElem_normal he]
    exact ih (hs'.real he (atEnd_dropWhile _))

end Sim

/-- Where the loop of a rooted path starts: the root written, the rest to read, nothing kept. -/
theorem sim_rooted (t : GoString) :
    Sim (slash :: t) true t ((LazyBuf.mk (slash :: t) none 0).append slash) 1 [] where
  kept := Kept.nil
  s := LazyBuf.append_s _ _
  holds := LazyBuf.Holds.append (b := ⟨slash :: t, none, 0⟩) (x := []) List.nil_prefix rfl
    (by simp) slash
  w := by simp
  dotdot := rfl
  room := by simp [Nat.add_comm]
  slack := fun _ _ _ _ h => absurd rfl h

/-- Where the loop of an unrooted path starts: nothing written, all of it to read. -/
theorem sim_unrooted (path : GoString) : Sim path false path ⟨path, none, 0⟩ 0 [] where
  kept := Kept.nil
  s := rfl
  holds := List.nil_prefix
  w := rfl
  dotdot := rfl
  room := by simp
  slack := fun _ _ _ _ h => absurd rfl h

/-- **`Clean` computes what it is for**: its one pass through the lazy buffer writes out the
elements kept, and `.` when an unrooted path keeps none. Reference: Go's `path/path.go`, `func
Clean`. -/
theorem clean_eq_cleanSpec (path : GoString) : clean path = cleanSpec path := by
  rcases path with _ | ⟨c, t⟩
  · rfl
  · by_cases hc : c = slash
    · subst hc
      obtain ⟨_, hs⟩ := cleanLoop_sim t _ 1 (sim_rooted t)
      have hkept : kept true (slash :: t) = (t.splitOn slash).foldl (pushElem true) [] := by
        simp [kept, List.splitOn]
      have hw : (cleanLoop true t ((LazyBuf.mk (slash :: t) none 0).append slash) 1).w ≠ 0 := by
        rw [hs.w, raw]; simp
      simp only [clean, ↓reduceIte, if_neg hw, cleanSpec, isRooted, List.head?_cons, beq_self_eq_true,
        render, hkept, Bool.not_true, Bool.false_and, Bool.false_eq_true, if_false]
      exact hs.holds.string hs.w
    · obtain ⟨_, hs⟩ := cleanLoop_sim (c :: t) _ 0 (sim_unrooted (c :: t))
      have hr : isRooted (c :: t) = false := by simp [isRooted, hc]
      have h := length_raw_eq_iff false hs.kept.ne_nil
      simp only [clean, if_neg hc, cleanSpec, hr, kept, render, Bool.not_false, Bool.true_and]
      by_cases hst : ((c :: t).splitOn slash).foldl (pushElem false) [] = []
      · rw [if_pos (by rw [hs.w]; simpa using h.2 hst), if_pos (by simp [hst])]
      · rw [if_neg (fun hw => hst (h.1 (by simpa [hs.w] using hw))), if_neg (by simpa using hst)]
        exact hs.holds.string hs.w

/-! ## `Clean` composed -/

section Compose

variable {rooted : Bool} {st : List GoString}

/-- No part of a text split at `/` holds a `/`. -/
theorem slash_not_mem_splitOn : ∀ (l : GoString), ∀ e ∈ l.splitOn slash, slash ∉ e
  | [] => by simp
  | x :: xs => by
    have ih := slash_not_mem_splitOn xs
    simp only [List.splitOn, List.splitOnP_cons] at ih ⊢
    split_ifs with hx
    · simpa using ih
    · obtain ⟨y, ys, hys⟩ := List.exists_cons_of_ne_nil (List.splitOnP_ne_nil (· == slash) xs)
      rw [hys] at ih ⊢
      intro e he
      simp only [List.modifyHead, List.mem_cons] at he
      rcases he with rfl | he
      · simp only [List.mem_cons, not_or]
        exact ⟨fun h => hx (by simp [h]), ih y (List.mem_cons_self _ _)⟩
      · exact ih e (List.mem_cons_of_mem _ he)

/-- A separator splits a text into the parts before it and those after; a `/` splits a path into
the elements before it and those after. -/
theorem splitOn_append_cons (sep : UInt8) : ∀ (a b : GoString),
    (a ++ sep :: b).splitOn sep = a.splitOn sep ++ b.splitOn sep
  | [], b => by simp [List.splitOn]
  | x :: a, b => by
    have ih := splitOn_append_cons sep a b
    simp only [List.splitOn, List.cons_append, List.splitOnP_cons] at ih ⊢
    obtain ⟨y, ys, hys⟩ := List.exists_cons_of_ne_nil (List.splitOnP_ne_nil (· == sep) a)
    split_ifs <;> rw [ih, hys] <;> rfl

/-- What `Clean` keeps of `a/b`: what it keeps of `a`, then `b`'s elements pushed on it. -/
theorem kept_append_slash (a b : GoString) :
    kept rooted (a ++ slash :: b) = (b.splitOn slash).foldl (pushElem rooted) (kept rooted a) := by
  rw [kept, splitOn_append_cons, List.foldl_append]
  rfl

/-- Whether a path is rooted is read from its first byte. -/
theorem isRooted_append {a : GoString} (ha : a ≠ []) (b : GoString) :
    isRooted (a ++ b) = isRooted a := by
  obtain ⟨x, a, rfl⟩ := List.exists_cons_of_ne_nil ha
  rfl

/-- Elements with no `/` pushed one by one keep the form `Clean` keeps. -/
theorem Kept.foldl {l : List GoString} (hk : Kept rooted st) (hl : ∀ e ∈ l, slash ∉ e) :
    Kept rooted (l.foldl (pushElem rooted) st) := by
  induction l generalizing st with
  | nil => exact hk
  | cons e l ih =>
    exact ih (hk.push (hl e (List.mem_cons_self _ _)))
      (fun e' he' => hl e' (List.mem_cons_of_mem _ he'))

/-- What `Clean` keeps is of the form it keeps. -/
theorem kept_kept (rooted : Bool) (path : GoString) : Kept rooted (kept rooted path) :=
  Kept.nil.foldl (slash_not_mem_splitOn path)

/-- Real elements pushed one by one are kept, in order. -/
theorem foldl_pushElem_normals {normals : List GoString} (hn : ∀ e ∈ normals, Normal e)
    (st : List GoString) : normals.foldl (pushElem rooted) st = st ++ normals := by
  induction normals generalizing st with
  | nil => simp
  | cons e normals ih =>
    rw [List.foldl_cons, pushElem_normal (hn e (List.mem_cons_self _ _)),
      ih (fun e' he' => hn e' (List.mem_cons_of_mem _ he'))]
    simp

/-- `..`s pushed on `..`s, on an unrooted path, are all kept. -/
theorem foldl_pushElem_dotDots (j : Nat) :
    ∀ k, (List.replicate k dotDot).foldl (pushElem false) (List.replicate j dotDot) =
      List.replicate (j + k) dotDot
  | 0 => rfl
  | k + 1 => by
    rw [List.replicate_succ', List.foldl_append, foldl_pushElem_dotDots j k, List.foldl_cons,
      List.foldl_nil]
    have h : pushElem false (List.replicate (j + k) dotDot ++ []) dotDot =
        List.replicate (j + k + 1) dotDot := by
      rw [pushElem_dotDot (by simp)]; simp
    simpa [Nat.add_assoc] using h

/-- Pushed one by one, what `Clean` keeps is kept as it is. -/
theorem Kept.foldl_self (hk : Kept rooted st) : st.foldl (pushElem rooted) [] = st := by
  obtain ⟨k, normals, rfl, hr, hn⟩ := hk
  rw [List.foldl_append, foldl_pushElem_normals hn]
  congr 1
  cases rooted
  · simpa using foldl_pushElem_dotDots 0 k
  · rw [hr rfl]; rfl

/-- Joining two or more elements by `/`: the first, a `/`, the rest joined. -/
theorem intercalate_cons_cons (e b : GoString) (st : List GoString) :
    [slash].intercalate (e :: b :: st) = e ++ slash :: [slash].intercalate (b :: st) := by
  simp only [List.intercalate, List.intersperse_cons_cons, List.flatten_cons, List.append_assoc,
    List.singleton_append]

/-- Joined by `/`, elements are rooted as the first is. -/
theorem isRooted_intercalate {e : GoString} (he : e ≠ []) (st : List GoString) :
    isRooted ([slash].intercalate (e :: st)) = isRooted e := by
  cases st with
  | nil => simp [List.intercalate]
  | cons b st => rw [intercalate_cons_cons, isRooted_append he]

/-- Written out, what `Clean` keeps is rooted as the path was. -/
theorem isRooted_render (hk : Kept rooted st) : isRooted (render rooted st) = rooted := by
  cases rooted
  · rcases st with _ | ⟨e, st⟩
    · rfl
    · have he := hk.ne_nil e (List.mem_cons_self _ _)
      have hs := hk.slash_not_mem e (List.mem_cons_self _ _)
      obtain ⟨x, e, rfl⟩ := List.exists_cons_of_ne_nil he
      simp only [render, raw, Bool.not_false, List.isEmpty_cons, Bool.and_false,
        Bool.false_eq_true, if_false, List.nil_append, isRooted_intercalate he]
      have hx : x ≠ slash := fun h => hs (h ▸ List.mem_cons_self _ _)
      simp [isRooted, hx]
  · rfl

/-- What `Clean` writes out is never empty: `.` stands for no element. -/
theorem render_ne_nil (hk : Kept rooted st) : render rooted st ≠ [] := by
  cases rooted
  · by_cases hst : st = []
    · subst hst; simp [render]
    · have h := mt (length_raw_eq_iff false hk.ne_nil).1 hst
      simp only [render, Bool.not_false, Bool.true_and, List.isEmpty_iff, if_neg hst]
      exact fun hr => h (by simp [hr])
  · simp [render, raw]

/-- **Round trip**: read back, what `Clean` writes out is what it kept. Reference: Go's
`path/path.go`, `func Clean`. -/
theorem kept_render (hk : Kept rooted st) : kept rooted (render rooted st) = st := by
  by_cases hst : st = []
  · subst hst; cases rooted <;> rfl
  · have hsplit : ([slash].intercalate st).splitOn slash = st :=
      List.splitOn_intercalate st slash hk.slash_not_mem hst
    cases rooted
    · simp only [render, Bool.not_false, Bool.true_and, List.isEmpty_iff, if_neg hst, raw,
        Bool.false_eq_true, if_false, List.nil_append, kept, hsplit, hk.foldl_self]
    · show kept true ([] ++ slash :: [slash].intercalate st) = st
      rw [kept_append_slash, hsplit]
      exact hk.foldl_self

/-- A path written out from elements `Clean` keeps is clean. -/
theorem cleanSpec_render (hk : Kept rooted st) : cleanSpec (render rooted st) = render rooted st := by
  rw [cleanSpec, isRooted_render hk, kept_render hk]

/-- **`Clean` is idempotent.** Reference: Go's `path/path.go`, `func Clean`. -/
theorem cleanSpec_idem (path : GoString) : cleanSpec (cleanSpec path) = cleanSpec path :=
  cleanSpec_render (kept_kept (isRooted path) path)

/-- **`Clean` is idempotent**, as its pass computes it. Reference: Go's `path/path.go`, `func
Clean`. -/
theorem clean_clean (path : GoString) : clean (clean path) = clean path := by
  rw [clean_eq_cleanSpec, clean_eq_cleanSpec, cleanSpec_idem]

/-- Cleaning a path and then going on from it goes where the path itself would: `Clean` of a
path cleaned, `/` and more, is `Clean` of the path, `/` and the same. -/
theorem cleanSpec_cleanSpec_append {a : GoString} (ha : a ≠ []) (b : GoString) :
    cleanSpec (cleanSpec a ++ slash :: b) = cleanSpec (a ++ slash :: b) := by
  have hk := kept_kept (isRooted a) a
  have hne : cleanSpec a ≠ [] := render_ne_nil hk
  rw [cleanSpec, isRooted_append hne, cleanSpec, isRooted_render hk, kept_append_slash,
    kept_render hk, cleanSpec, isRooted_append ha, kept_append_slash]

end Compose

end Path

end GardenLinux
