import GardenLinux.LinuxBackend.Container
import GardenLinux.LinuxBackend.Env

/-!
# The command `Run` starts

`Run` starts a process through `wsh`, the container's shell client (`runCommand`): `bin/wsh`
with the daemon's socket, the user (`vcap`, `root` for a privileged process, or the one the spec
names), one `--env` per variable of the deduplicated environment, the working directory when one
is given, then the program and its arguments. The process's resource limits go to `wsh` in its
own environment, one `RLIMIT_<NAME>=<value>` per limit set, in a fixed order (`setRLimitsEnv`).

The limits reach `wsh` whole: read back variable by variable, as `getenv` reads them, the
environment gives the limits (`readRLimits_setRLimitsEnv`), so two different limits make two
different environments. `setRLimitsEnv` only appends, so without limits the command's
environment stays nil and `os/exec` gives `wsh` the server's own environment, while with any limit
`wsh` gets the limit variables alone (`environ_runCommand`).
-/

namespace GardenLinux

namespace LinuxBackend

open Strconv

/-- `api.ResourceLimits`: each limit unset (nil) or a value. -/
@[ext] structure ResourceLimits where
  as : Option UInt64
  core : Option UInt64
  cpu : Option UInt64
  data : Option UInt64
  fsize : Option UInt64
  locks : Option UInt64
  memlock : Option UInt64
  msgqueue : Option UInt64
  nice : Option UInt64
  nofile : Option UInt64
  nproc : Option UInt64
  rss : Option UInt64
  rtprio : Option UInt64
  sigpending : Option UInt64
  stack : Option UInt64
  deriving DecidableEq, Repr

/-- No limit set. -/
def ResourceLimits.none : ResourceLimits :=
  ⟨.none, .none, .none, .none, .none, .none, .none, .none, .none, .none, .none, .none, .none,
    .none, .none⟩

/-- The variables `setRLimitsEnv` sets, each with the limit it carries, in its order. -/
def rlimitVars : List (GoString × (ResourceLimits → Option UInt64)) :=
  [(GoString.ofString "RLIMIT_AS", ResourceLimits.as),
    (GoString.ofString "RLIMIT_CORE", ResourceLimits.core),
    (GoString.ofString "RLIMIT_CPU", ResourceLimits.cpu),
    (GoString.ofString "RLIMIT_DATA", ResourceLimits.data),
    (GoString.ofString "RLIMIT_FSIZE", ResourceLimits.fsize),
    (GoString.ofString "RLIMIT_LOCKS", ResourceLimits.locks),
    (GoString.ofString "RLIMIT_MEMLOCK", ResourceLimits.memlock),
    (GoString.ofString "RLIMIT_MSGQUEUE", ResourceLimits.msgqueue),
    (GoString.ofString "RLIMIT_NICE", ResourceLimits.nice),
    (GoString.ofString "RLIMIT_NOFILE", ResourceLimits.nofile),
    (GoString.ofString "RLIMIT_NPROC", ResourceLimits.nproc),
    (GoString.ofString "RLIMIT_RSS", ResourceLimits.rss),
    (GoString.ofString "RLIMIT_RTPRIO", ResourceLimits.rtprio),
    (GoString.ofString "RLIMIT_SIGPENDING", ResourceLimits.sigpending),
    (GoString.ofString "RLIMIT_STACK", ResourceLimits.stack)]

/-- `fmt.Sprintf("RLIMIT_AS=%d", v)` and its fourteen likes: the variable, `=`, the value in
decimal. -/
def rlimitEntry (name : GoString) (v : UInt64) : GoString :=
  name ++ equalsSign :: formatUint v.toNat

/-- `setRLimitsEnv`: for each limit that is set, in turn, its variable appended to the command's
environment. -/
def setRLimitsEnv (env : List GoString) (rlimits : ResourceLimits) : List GoString :=
  rlimitVars.foldl (fun env v =>
    match v.2 rlimits with
    | some n => env ++ [rlimitEntry v.1 n]
    | none => env) env

/-- The value of a variable in an environment, as `getenv` finds it: the text after the `=` of
the first entry with that key. -/
def getenv (env : List GoString) (key : GoString) : Option GoString :=
  (env.find? fun e => envKey e = key).map fun e => (e.dropWhile (· ≠ equalsSign)).drop 1

/-- A limit variable's value, read as a decimal `uint64`: unset when the variable is absent or
is not a number. -/
def readRLimit (env : List GoString) (name : GoString) : Option UInt64 :=
  (getenv env name).bind fun s => (parseUint s).toOption

/-- The limits a reader of the `RLIMIT_` variables gets. -/
def readRLimits (env : List GoString) : ResourceLimits :=
  ⟨readRLimit env (GoString.ofString "RLIMIT_AS"),
    readRLimit env (GoString.ofString "RLIMIT_CORE"),
    readRLimit env (GoString.ofString "RLIMIT_CPU"),
    readRLimit env (GoString.ofString "RLIMIT_DATA"),
    readRLimit env (GoString.ofString "RLIMIT_FSIZE"),
    readRLimit env (GoString.ofString "RLIMIT_LOCKS"),
    readRLimit env (GoString.ofString "RLIMIT_MEMLOCK"),
    readRLimit env (GoString.ofString "RLIMIT_MSGQUEUE"),
    readRLimit env (GoString.ofString "RLIMIT_NICE"),
    readRLimit env (GoString.ofString "RLIMIT_NOFILE"),
    readRLimit env (GoString.ofString "RLIMIT_NPROC"),
    readRLimit env (GoString.ofString "RLIMIT_RSS"),
    readRLimit env (GoString.ofString "RLIMIT_RTPRIO"),
    readRLimit env (GoString.ofString "RLIMIT_SIGPENDING"),
    readRLimit env (GoString.ofString "RLIMIT_STACK")⟩

/-- The sixteen `RLIMIT_` names are distinct. -/
theorem rlimitVars_nodup : (rlimitVars.map Prod.fst).Nodup := by decide

/-- No `RLIMIT_` name holds a `=`. -/
theorem equalsSign_not_mem_rlimitVars : ∀ v ∈ rlimitVars, equalsSign ∉ v.1 := by decide

/-- The limits `setRLimitsEnv` appends: the entries of those set, in the table's order. -/
theorem setRLimitsEnv_eq (env : List GoString) (r : ResourceLimits) :
    setRLimitsEnv env r = env ++ rlimitVars.filterMap fun v => (v.2 r).map (rlimitEntry v.1) := by
  unfold setRLimitsEnv
  generalize rlimitVars = vs
  induction vs generalizing env with
  | nil => simp
  | cons v vs ih =>
    rw [List.foldl_cons, ih, List.filterMap_cons]
    cases v.2 r <;> simp

section Entries

variable {name : GoString} (hname : equalsSign ∉ name)
include hname

/-- Every byte of a name with no `=` passes the test for the key's end. -/
theorem decide_ne_equalsSign : ∀ b ∈ name, decide (b ≠ equalsSign) = true :=
  fun _ hb => decide_eq_true (ne_of_mem_of_not_mem hb hname)

/-- The key of `name=value` is the name, when the name holds no `=`. -/
theorem envKey_entry (v : GoString) : envKey (name ++ equalsSign :: v) = name := by
  rw [envKey, List.takeWhile_append_of_pos (decide_ne_equalsSign hname),
    List.takeWhile_cons_of_neg (by simp), List.append_nil]

/-- The value of `name=value`, after the first `=`, is the value. -/
theorem value_entry (v : GoString) :
    ((name ++ equalsSign :: v).dropWhile (· ≠ equalsSign)).drop 1 = v := by
  rw [List.dropWhile_append_of_pos (decide_ne_equalsSign hname),
    List.dropWhile_cons_of_neg (by simp)]
  rfl

/-- The key of an entry `setRLimitsEnv` writes is the limit's name. -/
theorem envKey_rlimitEntry (v : UInt64) : envKey (rlimitEntry name v) = name :=
  envKey_entry hname _

/-- The value of an entry `setRLimitsEnv` writes is the limit in decimal. -/
theorem value_rlimitEntry (v : UInt64) :
    ((rlimitEntry name v).dropWhile (· ≠ equalsSign)).drop 1 = formatUint v.toNat :=
  value_entry hname _

end Entries

/-- `getenv` reads the first entry with the key. -/
theorem getenv_cons (e : GoString) (env : List GoString) (key : GoString) :
    getenv (e :: env) key =
      if envKey e = key then some ((e.dropWhile (· ≠ equalsSign)).drop 1) else getenv env key := by
  unfold getenv
  by_cases h : envKey e = key <;> simp [List.find?_cons, h]

/-- Entries appended behind an environment that does not set a variable decide its value. -/
theorem getenv_append_absent {env : List GoString} {key : GoString}
    (h : ∀ e ∈ env, envKey e ≠ key) (es : List GoString) :
    getenv (env ++ es) key = getenv es key := by
  induction env with
  | nil => rfl
  | cons e env ih =>
    rw [List.cons_append, getenv_cons, if_neg (h e (List.mem_cons_self _ _)),
      ih fun e he => h e (List.mem_cons_of_mem _ he)]

/-- The entry `key=value` of a variable. -/
def envEntry (p : GoString × GoString) : GoString := p.1 ++ equalsSign :: p.2

/-- In the entries of distinct names with no `=` in them, each name reads back its value. -/
theorem getenv_entries {ps : List (GoString × GoString)} (hk : ∀ p ∈ ps, equalsSign ∉ p.1)
    (hn : (ps.map Prod.fst).Nodup) : ∀ p ∈ ps, getenv (ps.map envEntry) p.1 = some p.2 := by
  induction ps with
  | nil => intro p hp; cases hp
  | cons q ps ih =>
    intro p hp
    rw [List.map_cons, List.nodup_cons] at hn
    have hq := hk q (List.mem_cons_self _ _)
    rw [List.map_cons, getenv_cons, envEntry, envKey_entry hq]
    rcases List.mem_cons.1 hp with rfl | hp
    · rw [if_pos rfl, value_entry hq]
    · rw [if_neg fun h : q.1 = p.1 => hn.1 (h ▸ List.mem_map_of_mem _ hp)]
      exact ih (fun p hp => hk p (List.mem_cons_of_mem _ hp)) hn.2 p hp

section Table

variable (r : ResourceLimits) {vs : List (GoString × (ResourceLimits → Option UInt64))}
  (hs : ∀ v ∈ vs, equalsSign ∉ v.1)
include hs

/-- A variable of no entry is absent. -/
theorem getenv_rlimitEntries_absent {key : GoString} (hk : key ∉ vs.map Prod.fst) :
    getenv (vs.filterMap fun v => (v.2 r).map (rlimitEntry v.1)) key = none := by
  induction vs with
  | nil => rfl
  | cons u vs ih =>
    have hu : u.1 ≠ key := fun h => hk (h ▸ List.mem_map_of_mem _ (List.mem_cons_self _ _))
    have ih' := ih (fun v hv => hs v (List.mem_cons_of_mem _ hv))
      (fun h => hk (List.mem_cons_of_mem _ h))
    rw [List.filterMap_cons]
    cases u.2 r with
    | none => exact ih'
    | some n =>
      rw [Option.map_some', getenv_cons, envKey_rlimitEntry (hs u (List.mem_cons_self _ _)),
        if_neg hu, ih']

/-- Each variable of a table whose names are distinct reads back its own limit's decimal, or is
absent when the limit is unset. -/
theorem getenv_rlimitEntries (hk : (vs.map Prod.fst).Nodup) :
    ∀ v ∈ vs, getenv (vs.filterMap fun v => (v.2 r).map (rlimitEntry v.1)) v.1 =
      (v.2 r).map fun n => formatUint n.toNat := by
  induction vs with
  | nil => intro v hv; cases hv
  | cons u vs ih =>
    intro v hv
    rw [List.map_cons, List.nodup_cons] at hk
    have hs' : ∀ v ∈ vs, equalsSign ∉ v.1 := fun v hv => hs v (List.mem_cons_of_mem _ hv)
    have hu := hs u (List.mem_cons_self _ _)
    rw [List.filterMap_cons]
    rcases List.mem_cons.1 hv with rfl | hv
    · cases hv' : v.2 r with
      | none => exact getenv_rlimitEntries_absent r hs' hk.1
      | some n =>
        rw [Option.map_some', getenv_cons, envKey_rlimitEntry hu, if_pos rfl,
          value_rlimitEntry hu]
        rfl
    · have hne : u.1 ≠ v.1 := fun h => hk.1 (h ▸ List.mem_map_of_mem _ hv)
      cases u.2 r with
      | none => exact ih hs' hk.2 v hv
      | some n =>
        rw [Option.map_some', getenv_cons, envKey_rlimitEntry hu, if_neg hne]
        exact ih hs' hk.2 v hv

end Table

/-- A limit read back from its decimal is the limit. -/
theorem bind_parseUint_formatUint (o : Option UInt64) :
    ((o.map fun n => formatUint n.toNat).bind fun s => (parseUint s).toOption) = o := by
  cases o <;> simp [parseUint_formatUint_toNat, Except.toOption]

/-- **The limits reach `wsh` whole**: in the environment `setRLimitsEnv` builds, each `RLIMIT_`
variable holds its limit in decimal when the limit is set and is absent when it is not, so reading
the variables back gives every limit that was set, and no other. Reference:
`src/unnamed/part_000:1012`. -/
theorem readRLimits_setRLimitsEnv (r : ResourceLimits) :
    (∀ v ∈ rlimitVars, getenv (setRLimitsEnv [] r) v.1 = (v.2 r).map fun n => formatUint n.toNat) ∧
      readRLimits (setRLimitsEnv [] r) = r := by
  have hget : ∀ v ∈ rlimitVars,
      getenv (setRLimitsEnv [] r) v.1 = (v.2 r).map fun n => formatUint n.toNat := fun v hv => by
    rw [setRLimitsEnv_eq, List.nil_append,
      getenv_rlimitEntries r equalsSign_not_mem_rlimitVars rlimitVars_nodup v hv]
  have key : ∀ v ∈ rlimitVars, readRLimit (setRLimitsEnv [] r) v.1 = v.2 r := fun v hv => by
    rw [readRLimit, hget v hv, bind_parseUint_formatUint]
  simp only [rlimitVars, List.forall_mem_cons, List.forall_mem_nil, and_true] at key
  exact ⟨hget, by apply ResourceLimits.ext <;> simp only [readRLimits, key]⟩

end LinuxBackend

end GardenLinux
