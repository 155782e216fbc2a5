import GardenLinux.Go.Strconv

/-!
# The environment of a process

`Run` starts a process with the container's environment followed by the process spec's,
`c.envvars ++ spec.Env`, after `dedup`: `dedup` walks the entries from the last to the first,
keeps an entry that holds a `=` and whose key (the text before the first `=`) it has not kept
yet, and drops every other entry.

The kept entries are those of `lastByKey`: the entries that hold a `=` and are the
last such entry with their key, in their order (`dedup_eq_lastByKey`). So a key is passed at most
once (`nodup_keys_dedup`), and an entry of the second list overrides every entry of the first
with the same key (`dedup_append`): the process spec's variables override the container's.

The loop's invariant (`foldr_dedupStep`) is that after the entries `xs`, the result is
`lastByKey xs` and the keys seen are its keys.
-/

namespace GardenLinux

namespace LinuxBackend

/-- `=`. -/
def equalsSign : UInt8 := 0x3D

/-! ## `dedup` -/

/-- One turn of `dedup`'s loop, on the entry `envVars[i]`, the entries after it done: keep it if
`SplitN` splits it in two and its key `keyValue[0]` is not in `seenArgs`. `seenArgs` maps keys
to entries and is only asked for its keys; here it is the list of keys. -/
def dedupStep (envVar : GoString) (acc : List GoString × List GoString) :
    List GoString × List GoString :=
  let keyValue := Strings.splitN envVar equalsSign
  let key := keyValue.headD []
  if keyValue.length = 2 ∧ key ∉ acc.1 then (key :: acc.1, envVar :: acc.2) else acc

/-- `dedup`: the loop from the last entry to the first, as a right fold. -/
def dedup (envVars : List GoString) : List GoString := (envVars.foldr dedupStep ([], [])).2

/-! ## What `dedup` keeps -/

/-- The key of an environment entry: the text before its first `=`. -/
def envKey (e : GoString) : GoString := e.takeWhile (· ≠ equalsSign)

/-- The entries of a list that hold a `=` and are the last entry holding a `=` with their key,
in their order. -/
def lastByKey : List GoString → List GoString
  | [] => []
  | x :: xs =>
    if equalsSign ∈ x ∧ ¬ ∃ y ∈ xs, equalsSign ∈ y ∧ envKey y = envKey x then x :: lastByKey xs
    else lastByKey xs

/-- The keys `lastByKey` keeps are the keys of the entries that hold a `=`. -/
theorem mem_keys_lastByKey (xs : List GoString) (k : GoString) :
    k ∈ (lastByKey xs).map envKey ↔ ∃ y ∈ xs, equalsSign ∈ y ∧ envKey y = k := by
  induction xs with
  | nil => simp [lastByKey]
  | cons x xs ih =>
    rw [lastByKey]
    split_ifs with hx
    · rw [List.map_cons, List.mem_cons, ih]
      constructor
      · rintro (rfl | ⟨y, hy, hk⟩)
        · exact ⟨x, List.mem_cons_self _ _, hx.1, rfl⟩
        · exact ⟨y, List.mem_cons_of_mem _ hy, hk⟩
      · rintro ⟨y, hy, hk⟩
        rcases List.mem_cons.1 hy with rfl | hy
        · exact .inl hk.2.symm
        · exact .inr ⟨y, hy, hk⟩
    · rw [ih]
      constructor
      · rintro ⟨y, hy, hk⟩
        exact ⟨y, List.mem_cons_of_mem _ hy, hk⟩
      · rintro ⟨y, hy, hk⟩
        rcases List.mem_cons.1 hy with rfl | hy
        · obtain ⟨z, hz, hzk⟩ := not_and_not_right.1 hx hk.1
          exact ⟨z, hz, hzk.1, hzk.2.trans hk.2⟩
        · exact ⟨y, hy, hk⟩

/-- The loop's invariant: after the entries `xs`, the result is `lastByKey xs` and the keys seen
are its keys. -/
theorem foldr_dedupStep (xs : List GoString) :
    xs.foldr dedupStep ([], []) = ((lastByKey xs).map envKey, lastByKey xs) := by
  induction xs with
  | nil => rfl
  | cons x xs ih =>
    have hk : (Strings.splitN x equalsSign).headD [] = envKey x := Strings.headD_splitN _ _
    rw [List.foldr_cons, ih, dedupStep]
    simp only [hk, Strings.length_splitN, mem_keys_lastByKey, lastByKey]
    split_ifs <;> rfl

/-- **`dedup` keeps the last entry of each key.** Its fold from the right keeps an entry unless one
after it has the same key; entries with no `=` are dropped. Reference: `src/unnamed/part_000:1074`. -/
theorem dedup_eq_lastByKey (envVars : List GoString) : dedup envVars = lastByKey envVars := by
  rw [dedup, foldr_dedupStep]

example : dedup [GoString.ofString "a=1", GoString.ofString "b", GoString.ofString "a=2",
    GoString.ofString "c="] = [GoString.ofString "a=2", GoString.ofString "c="] := by decide

/-! ## Keys and overrides -/

/-- What `dedup` keeps has each key once. -/
theorem nodup_keys_lastByKey (xs : List GoString) : ((lastByKey xs).map envKey).Nodup := by
  induction xs with
  | nil => exact List.nodup_nil
  | cons x xs ih =>
    rw [lastByKey]
    split_ifs with hx
    · rw [List.map_cons, List.nodup_cons, mem_keys_lastByKey]
      exact ⟨hx.2, ih⟩
    · exact ih

/-- `dedup` passes each key at most once. -/
theorem nodup_keys_dedup (envVars : List GoString) : ((dedup envVars).map envKey).Nodup := by
  rw [dedup, foldr_dedupStep]
  exact nodup_keys_lastByKey envVars

/-- `dedup` of two lists: what it keeps of the first, less the keys the second sets, then what it
keeps of the second. -/
theorem lastByKey_append (xs ys : List GoString) :
    lastByKey (xs ++ ys) = (lastByKey xs).filter
      (fun x => ¬ ∃ y ∈ ys, equalsSign ∈ y ∧ envKey y = envKey x) ++ lastByKey ys := by
  induction xs with
  | nil => simp [lastByKey]
  | cons x xs ih =>
    have hab : (∃ y ∈ xs ++ ys, equalsSign ∈ y ∧ envKey y = envKey x) ↔
        (∃ y ∈ xs, equalsSign ∈ y ∧ envKey y = envKey x) ∨
          ∃ y ∈ ys, equalsSign ∈ y ∧ envKey y = envKey x := by
      simp only [List.mem_append, or_and_right, exists_or]
    rw [List.cons_append, lastByKey, lastByKey, ih]
    by_cases hkeep : equalsSign ∈ x ∧ ¬ ∃ y ∈ xs, equalsSign ∈ y ∧ envKey y = envKey x
    · by_cases hys : ∃ y ∈ ys, equalsSign ∈ y ∧ envKey y = envKey x
      · rw [if_neg (fun h => h.2 (hab.2 (.inr hys))), if_pos hkeep, List.filter_cons_of_neg]
        simpa using hys
      · rw [if_pos ⟨hkeep.1, mt hab.1 (not_or.2 ⟨hkeep.2, hys⟩)⟩, if_pos hkeep,
          List.filter_cons_of_pos, List.cons_append]
        simpa using hys
    · rw [if_neg (fun h => hkeep ⟨h.1, fun hxs => h.2 (hab.2 (.inl hxs))⟩), if_neg hkeep]

/-- **Later entries override.** `dedup` of two lists keeps the first list's entries whose key the
second does not set, then the second's. In `Run`, the process spec's variables override the
container's. Reference: `src/unnamed/part_000:1074`. -/
theorem dedup_append (xs ys : List GoString) :
    dedup (xs ++ ys) = (dedup xs).filter (fun x => envKey x ∉ (dedup ys).map envKey) ++ dedup ys := by
  simp only [dedup, foldr_dedupStep, lastByKey_append, mem_keys_lastByKey]

end LinuxBackend

end GardenLinux
