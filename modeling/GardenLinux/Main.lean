import GardenLinux.Go.Strconv
import GardenLinux.Go.Path

/-!
# The daemon's mount point

`main` wires the backend together from its flags; what it computes itself is the mount point of
the depot, which it gives the quota manager. `getMountPoint` runs `df` on the depot path and keeps
the last word of what it prints, split at each space, with the newlines at its ends trimmed; a
failure of `df` is fatal (`logger.Fatal`).

`df` ends what it prints with the mount point and a newline, so `getMountPoint` reads back every
mount point with no space or newline in it, whatever comes before (`getMountPoint_df`). A mount
point with a space is cut to what follows its last space.
-/

namespace GardenLinux

namespace Strings

/-- `strings.Split(s, sep)` for a one-byte separator: the texts between the separators, empty ones
included. -/
def split (s : GoString) (sep : UInt8) : List GoString := s.splitOn sep

end Strings

namespace Main

open Strings

/-- A space. -/
def space : UInt8 := 0x20

/-- A newline. -/
def newline : UInt8 := 0x0A

/-- `getMountPoint`: the last word of what `df depotPath` prints, split at each space, without the
newlines at its ends. `df` is the host's; its error is fatal. -/
def getMountPoint (df : GoString → Except GoError GoString) (depotPath : GoString) :
    Except GoError GoString := do
  let dfOut ← df depotPath
  let dfOutputWords := split dfOut space
  pure (trim (dfOutputWords.getLastD []) newline)

/-- A word with no newline loses nothing to `strings.Trim(_, "\n")` at its front. -/
theorem dropWhile_newline {w : GoString} (hn : newline ∉ w) : w.dropWhile (· = newline) = w := by
  cases w with
  | nil => rfl
  | cons y ys =>
    have hy : y ≠ newline := fun h => hn (h ▸ List.mem_cons_self _ _)
    exact List.dropWhile_cons_of_neg (by simpa using hy)

/-- Trimming newlines leaves a word with a newline after it and none in it as it was. -/
theorem trim_append_newline {w : GoString} (hn : newline ∉ w) :
    trim (w ++ [newline]) newline = w := by
  rcases eq_or_ne w [] with rfl | hw
  · rfl
  · have hr : newline ∉ w.reverse := by simpa using hn
    rw [trim, List.dropWhile_append, dropWhile_newline hn, if_neg (by simpa using hw),
      List.reverse_append, List.reverse_singleton, List.singleton_append,
      List.dropWhile_cons_of_pos (by simp), dropWhile_newline hr, List.reverse_reverse]

/-- **`getMountPoint` reads back the mount point `df` prints**: when `df` ends its output with a
space, a mount point with no space or newline in it, and a newline, that is what `getMountPoint`
returns. Reference: `src/main.go:286`. -/
theorem getMountPoint_df {df : GoString → Except GoError GoString}
    {depotPath pre mountPoint : GoString} (hs : space ∉ mountPoint) (hn : newline ∉ mountPoint)
    (hdf : df depotPath = .ok (pre ++ space :: (mountPoint ++ [newline]))) :
    getMountPoint df depotPath = .ok mountPoint := by
  have hw : ∀ x ∈ mountPoint ++ [newline], ¬(x == space) = true := fun x hx h => by
    rw [beq_iff_eq] at h
    subst h
    rcases List.mem_append.1 hx with hx | hx
    · exact hs hx
    · simp [space, newline] at hx
  have hsplit : split (pre ++ space :: (mountPoint ++ [newline])) space =
      pre.splitOn space ++ [mountPoint ++ [newline]] := by
    rw [split, Path.splitOn_append_cons, List.splitOn, List.splitOn, List.splitOnP_eq_single _ _ hw]
  rw [getMountPoint, hdf]
  show Except.ok (trim ((split _ space).getLastD []) newline) = _
  rw [hsplit, List.getLastD_concat, trim_append_newline hn]

/-- `df` on a depot mounted at `/data`. -/
def sampleDf (_ : GoString) : Except GoError GoString :=
  .ok (GoString.ofString "Filesystem 1K-blocks Used Available Use% Mounted on\n" ++
    GoString.ofString "/dev/sda1 1000 10 990 1%" ++ space :: (GoString.ofString "/data" ++ [newline]))

/-- `sampleDf` for `/data`: the mount point is `/data`. -/
theorem getMountPoint_sampleDf :
    getMountPoint sampleDf (GoString.ofString "/data") = .ok (GoString.ofString "/data") :=
  getMountPoint_df (by decide) (by decide) rfl

end Main

end GardenLinux
