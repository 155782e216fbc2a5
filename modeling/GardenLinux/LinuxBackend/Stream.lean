import GardenLinux.LinuxBackend.Container
import GardenLinux.Go.Filepath
import GardenLinux.Go.Fmt

/-!
# Streaming files in and out

`StreamIn` and `StreamOut` run `nstar`, the container's tar helper, in the container: `bin/nstar`
with the daemon's PID, the user `vcap`, and where to work. `StreamIn` unpacks the tar stream it is
given at the destination path (`streamIn`). `StreamOut` splits the source path into the directory
`nstar` works in and the argument it archives (`streamOutArgs`), and starts `nstar` in the
background with its output as the stream it returns (`streamOut`); the pipe and the start are the
host's.

What `StreamOut` archives is what it is asked for: joined, the directory `nstar` works in and the
argument it archives are the source path cleaned, and the argument is one element
(`streamOutCommand_names`). The branch for a path that ends in `/` is what makes this hold: there
`Dir` and `Base` would both name the last element.

The daemon's PID, which both pass to `nstar` and `Start` erects the fence for, is what
`wshdPid` scans from `run/wshd.pid` with `Fscanf`, the file's contents being the host's
(`Host.readFile`). A PID the daemon wrote in decimal is read back (`wshdPid_formatUint`).
-/

namespace GardenLinux

namespace LinuxBackend

open Strconv Strings Path

/-- `vcap`, the user `nstar` runs as. -/
def vcap : GoString := GoString.ofString "vcap"

/-- `path.Join(c.path, "bin", "nstar")`, by its elements. -/
def nstarPath {Bw Dk : Type} (c : LinuxContainer Bw Dk) : List GoString :=
  [c.path, GoString.ofString "bin", GoString.ofString "nstar"]

/-- `StreamOut`'s split of the source path: the directory `nstar` works in and the argument it
archives, the directory itself and `.` for a path that ends in `/`. -/
def streamOutArgs (srcPath : GoString) : GoString × GoString :=
  let workingDir := dir srcPath
  let compressArg := base srcPath
  if hasSuffix srcPath [slash] then (srcPath, [dot]) else (workingDir, compressArg)

/-- The `nstar` command `StreamOut` starts. -/
def streamOutCommand {Bw Dk : Type} (c : LinuxContainer Bw Dk) (pid : Int) (srcPath : GoString) :
    Command :=
  ⟨nstarPath c, [itoa pid, vcap, (streamOutArgs srcPath).1, (streamOutArgs srcPath).2], []⟩

section Operations

variable {σ Bw Dk : Type} (h : Host σ Bw Dk)

/-- `StreamIn`: run `nstar` with the daemon's PID, `vcap` and the destination path; its input,
the tar stream, is the host's. -/
def streamIn (dstPath : GoString) : M σ Bw Dk Unit := do
  let c ← getC
  let pid ← readE fun s => wshdPid (h.readFile · s) c
  call (h.run ⟨nstarPath c, [itoa pid, vcap, dstPath], []⟩)

/-- `StreamOut` up to the start of `nstar`: read the daemon's PID and give the command that
`runner.Background` starts. -/
def streamOut (srcPath : GoString) : M σ Bw Dk Command := do
  let c ← getC
  let pid ← readE fun s => wshdPid (h.readFile · s) c
  pure (streamOutCommand c pid srcPath)

end Operations

/-- **`wshdPid` reads the PID the daemon wrote**: when the container's `run/wshd.pid` holds a PID
below `2^63` in decimal, followed by nothing or by an ASCII byte that is not a digit (a newline),
`wshdPid` returns that PID. Reference: `src/unnamed/part_000:521`. -/
theorem wshdPid_formatUint {Bw Dk : Type} {readFile : GoString → Except GoError GoString}
    {c : LinuxContainer Bw Dk} {pid : Nat} (hp : pid < 2 ^ 63) {rest : GoString}
    (hr : ∀ b ∈ rest.head?, b.toNat < 0x80 ∧ isDigit b = false)
    (hf : readFile (Path.join [c.path, GoString.ofString "run", GoString.ofString "wshd.pid"]) =
      .ok (formatUint pid ++ rest)) :
    wshdPid readFile c = .ok pid := by
  rw [wshdPid, hf]
  exact Fmt.fscanfInt_formatUint hp hr

/-- `run/wshd.pid` written as `4242` and a newline is read as 4242. -/
theorem wshdPid_newline :
    wshdPid (fun _ => .ok (formatUint 4242 ++ [0x0A]))
      (newLinuxContainer [] [] (GoString.ofString "/depot/c1") [] 0 [] : LinuxContainer Unit Unit) =
      .ok 4242 :=
  wshdPid_formatUint (by decide : 4242 < 2 ^ 63) (by decide) rfl

/-- **`StreamOut` archives the path it is asked for**: `nstar` runs with the daemon's PID, `vcap`,
a directory and an argument of one element, which joined are the source path cleaned. Reference:
`src/unnamed/part_000:564`. -/
theorem streamOutCommand_names {Bw Dk : Type} (c : LinuxContainer Bw Dk) (pid : Int)
    (srcPath : GoString) :
    ∃ workingDir compressArg,
      (streamOutCommand c pid srcPath).args = [itoa pid, vcap, workingDir, compressArg] ∧
      join [workingDir, compressArg] = clean srcPath ∧ slash ∉ compressArg := by
  refine ⟨_, _, rfl, ?_⟩
  unfold streamOutArgs
  cases hs : hasSuffix srcPath [slash] <;> simp only [Bool.false_eq_true, ↓reduceIte]
  · exact ⟨join_dir_base srcPath hs, slash_not_mem_base srcPath hs⟩
  · have hp : srcPath ≠ [] := by rintro rfl; cases hs
    exact ⟨join_dot hp, by decide⟩

end LinuxBackend

end GardenLinux
