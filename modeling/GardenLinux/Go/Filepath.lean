import GardenLinux.Go.Path

/-!
# `Dir`, `Base` and `Join`

`StreamOut` splits the path it is asked for with `filepath.Dir` and `filepath.Base`, and the
repository names files with `path.Join`. On Unix each is `Clean` and a scan back for the last `/`:
`dir` cleans what runs up to the last `/`, `base` keeps what follows it once trailing `/`s are
stripped, and `join` cleans the elements, from the first non-empty one on, joined by `/`.

A path that does not end in `/` is its directory joined with its base, once cleaned
(`join_dir_base`), and the base is one element, with no `/` (`slash_not_mem_base`); joined with
`.`, any path is itself, cleaned (`join_dot`). Both rest on what `Clean` keeps of a path put
together (`cleanSpec_cleanSpec_append` and the lemmas below): a `./` in front, a doubled `/` and a
`/.` at the end are all lost.
-/

namespace GardenLinux

namespace Strings

/-- `strings.HasSuffix`. -/
def hasSuffix (s suffix : GoString) : Bool :=
  s.length ≥ suffix.length && s.drop (s.length - suffix.length) == suffix

end Strings

namespace Path

open Strings

/-- `filepath.Dir`: `Clean` of the path up to its last `/`. -/
def dir (path : GoString) : GoString := clean (path.reverse.dropWhile (· ≠ slash)).reverse

/-- `filepath.Base`: the last element once trailing `/`s are stripped; `.` for the empty path,
`/` for a path of `/`s. -/
def base (path : GoString) : GoString :=
  if path = [] then [dot]
  else
    let path := (path.reverse.dropWhile (· = slash)).reverse
    let path := (path.reverse.takeWhile (· ≠ slash)).reverse
    if path = [] then [slash] else path

/-- `path.Join`, which is `filepath.Join` on Unix: `Clean` of the elements from the first non-empty
one on, joined by `/`; empty when all are. -/
def join (elem : List GoString) : GoString :=
  match elem.dropWhile (· = []) with
  | [] => []
  | elems => clean ([slash].intercalate elems)

/-! ## What `Clean` keeps of a path put together -/

section Compose

/-- What `Clean` renders is never empty: at least `.` or `/`. -/
theorem cleanSpec_ne_nil (path : GoString) : cleanSpec path ≠ [] :=
  render_ne_nil (kept_kept _ path)

/-- `filepath.Clean` never returns the empty path. -/
theorem clean_ne_nil (path : GoString) : clean path ≠ [] := by
  rw [clean_eq_cleanSpec]; exact cleanSpec_ne_nil path

/-- A `./` in front of an unrooted path is lost. -/
theorem cleanSpec_dot_slash {y : GoString} (hy : isRooted y = false) :
    cleanSpec (dot :: slash :: y) = cleanSpec y := by
  rw [cleanSpec, show dot :: slash :: y = [dot] ++ slash :: y from rfl, isRooted_append
    (List.cons_ne_nil _ _), kept_append_slash, show isRooted [dot] = false by decide, cleanSpec, hy]
  rfl

/-- A doubled `/` is one. -/
theorem cleanSpec_slash_slash (a b : GoString) :
    cleanSpec (a ++ slash :: slash :: b) = cleanSpec (a ++ slash :: b) := by
  have hr : isRooted (a ++ slash :: slash :: b) = isRooted (a ++ slash :: b) := by
    cases a <;> rfl
  rw [cleanSpec, hr, kept_append_slash, cleanSpec, kept_append_slash]
  simp [List.splitOn]

/-- A `/.` at the end is lost. -/
theorem cleanSpec_slash_dot {a : GoString} (ha : a ≠ []) :
    cleanSpec (a ++ [slash, dot]) = cleanSpec a := by
  rw [cleanSpec, isRooted_append ha, kept_append_slash]
  simp [List.splitOn, cleanSpec, dot_ne_slash]

end Compose

/-! ## The last element -/

/-- A path is what runs up to its last `/`, and what follows. -/
theorem lastSplit (path : GoString) :
    path = (path.reverse.dropWhile (· ≠ slash)).reverse ++
      (path.reverse.takeWhile (· ≠ slash)).reverse := by
  conv_lhs => rw [← List.reverse_reverse path,
    ← List.takeWhile_append_dropWhile (· ≠ slash) path.reverse]
  rw [List.reverse_append]

/-- What follows a path's last `/` holds no `/`. -/
theorem slash_not_mem_last (path : GoString) :
    slash ∉ (path.reverse.takeWhile (· ≠ slash)).reverse := fun h => by
  simpa using List.mem_takeWhile_imp (List.mem_reverse.1 h)

/-- A non-empty element with no `/` is not rooted. -/
theorem isRooted_of_slash_not_mem {y : GoString} (hy : y ≠ []) (hs : slash ∉ y) :
    isRooted y = false := by
  obtain ⟨c, t, rfl⟩ := List.exists_cons_of_ne_nil hy
  have hc : c ≠ slash := fun hc => hs (hc ▸ List.mem_cons_self _ _)
  simp [isRooted, hc]

/-- A path that does not end in `/` has a last byte other than `/`. -/
theorem getLast_ne_slash {path : GoString} (hp : path ≠ []) (h : hasSuffix path [slash] = false) :
    path.reverse.head? ≠ some slash := by
  obtain ⟨l, x, rfl⟩ := List.eq_nil_or_concat path |>.resolve_left hp
  simp only [hasSuffix, List.concat_eq_append, List.length_append, List.length_singleton,
    ge_iff_le, Nat.le_add_left, decide_True, Nat.add_sub_cancel, List.drop_left, Bool.true_and,
    beq_eq_false_iff_ne, ne_eq, List.cons.injEq, and_true] at h
  simpa using h

/-- `base` of a path that does not end in `/` is what follows its last `/`: not empty. -/
theorem base_eq {path : GoString} (hp : path ≠ []) (h : hasSuffix path [slash] = false) :
    base path = (path.reverse.takeWhile (· ≠ slash)).reverse ∧
      (path.reverse.takeWhile (· ≠ slash)).reverse ≠ [] := by
  have hl := getLast_ne_slash hp h
  obtain ⟨x, r, hr⟩ := List.exists_cons_of_ne_nil (List.reverse_ne_nil_iff.2 hp)
  rw [hr] at hl
  have hx : x ≠ slash := fun hx => hl (by simp [hx])
  have hne : (path.reverse.takeWhile (· ≠ slash)).reverse ≠ [] := by
    rw [hr, List.takeWhile_cons, if_pos (by simpa using hx)]
    simp
  refine ⟨?_, hne⟩
  rw [base, if_neg hp, hr, List.dropWhile_cons_of_neg (by simpa using hx), ← hr,
    List.reverse_reverse]
  exact if_neg hne

/-! ## Putting the parts back together -/

/-- **Directory and base name the path**: joined, the `Dir` and the `Base` of a path that does not
end in `/` are the path cleaned. Reference: Go's `path/filepath/path.go`, `func Join`, `func Dir`,
`func Base`. -/
theorem join_dir_base (path : GoString) (h : hasSuffix path [slash] = false) :
    join [dir path, base path] = clean path := by
  rcases eq_or_ne path [] with rfl | hp
  · show clean (dot :: slash :: [dot]) = [dot]
    rw [clean_eq_cleanSpec, cleanSpec_dot_slash (y := [dot]) rfl]
    rfl
  obtain ⟨hb, hne⟩ := base_eq hp h
  have hjoin : join [dir path, base path] = clean (dir path ++ slash :: base path) := by
    rw [join, List.dropWhile_cons_of_neg (by simpa using clean_ne_nil _)]
    simp [intercalate_cons_cons, List.intercalate]
  have hy := isRooted_of_slash_not_mem hne (slash_not_mem_last path)
  have hsplit := lastSplit path
  rw [hjoin, hb, dir]
  generalize (path.reverse.takeWhile (· ≠ slash)).reverse = y at hsplit hy ⊢
  rcases atEnd_dropWhile path.reverse with hd | hd
  · rw [hd, List.reverse_nil, List.nil_append] at hsplit
    rw [hd, List.reverse_nil]
    show clean (dot :: slash :: y) = clean path
    rw [clean_eq_cleanSpec, clean_eq_cleanSpec, cleanSpec_dot_slash hy, hsplit]
  · obtain ⟨d, hd⟩ := List.head?_eq_some_iff.1 hd
    rw [hd, List.reverse_cons] at hsplit ⊢
    rw [clean_eq_cleanSpec, clean_eq_cleanSpec, clean_eq_cleanSpec,
      cleanSpec_cleanSpec_append (List.append_ne_nil_of_right_ne_nil _ (List.cons_ne_nil _ _)),
      List.append_assoc, List.singleton_append, cleanSpec_slash_slash, hsplit, List.append_assoc,
      List.singleton_append]

/-- The base of a path that does not end in `/` is one element. -/
theorem slash_not_mem_base (path : GoString) (h : hasSuffix path [slash] = false) :
    slash ∉ base path := by
  rcases eq_or_ne path [] with rfl | hp
  · decide
  · rw [(base_eq hp h).1]; exact slash_not_mem_last path

/-- **`.` names the directory**: joined with `.`, a non-empty path is itself, cleaned. Reference:
Go's `path/filepath/path.go`, `func Join`. -/
theorem join_dot {path : GoString} (hp : path ≠ []) : join [path, [dot]] = clean path := by
  rw [join, List.dropWhile_cons_of_neg (by simpa using hp)]
  simp only [intercalate_cons_cons, List.intercalate, List.intersperse_single, List.flatten_cons,
    List.flatten_nil, List.append_nil]
  rw [clean_eq_cleanSpec, clean_eq_cleanSpec, ← cleanSpec_slash_dot hp]
  rfl

end Path

end GardenLinux
