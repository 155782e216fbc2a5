import GardenLinux.Fences.Network
import GardenLinux.Go.Filepath
import Mathlib.Logic.Relation

/-!
# Erecting the network fence

`Erect` puts a container's network in place once its daemon runs. It has the host configure the
interface pair (`ConfigureHost`, which is not in the repository's files), makes
`/var/run/netns/<pid>` free for the container's namespace, mounts a `tmpfs` over the host's
`/sys` (without it `ip netns exec` fails), links the namespace there and runs `net-fence` in it.
The `tmpfs` is unmounted by a `defer`, on every return once the `mount` succeeded, and an error of
that `umount` is only printed. `erect` is that code over a host that answers each call
(`Effect`); what the code prints is left out. The link it makes is where `ip netns exec` looks
for the namespace: `/var/run/netns/<name>`, for the name it passes, the PID in decimal
(`erect_netns_link`, from `path.Join` on real elements, `join_rooted`). `dismantle`,
`configureProcess` and `Allocation.info` are the allocation's other methods.

Each container's `Start` erects its own fence, so the `Erect`s of several containers run at once,
and `/sys` is the host's, shared by all of them. `Erects` is the host with any number of `Erect`s
in progress, each as the calls it has still to make (`Phase`), and `Erects.Step` lets any of them
make its next call, with any answer, or a new one be called, in any order. Run alone on a host
whose `/sys` behaves as `SysMounts` says, `erect` is a run of one `Erect` in `Erects`
(`erect_steps`, from `erect_eq_run` and `Phase.run_advance`).

In every interleaving `/sys` is accounted for (`Erects.reach_sys`): no `Erect` ever unmounts the
host's own `sysfs`, and the `tmpfs`s over it are those there at the start, one for each `Erect`
that mounted and has not unmounted yet, and one for each `umount` that failed. So the calls an
`Erect` makes once mounted, `ln -s` and `ip netns exec`, run with a `tmpfs` over `/sys` whatever
the others do (`Erects.netFence_mounted`). The `umount` of one `Erect` may take off another's
`tmpfs`: the count is what holds, not which mount is whose. Run alone on a host whose `umount`
does not fail, `erect` leaves `/sys` as it found it, whichever of its calls fails
(`erect_keeps_sys`).
-/

namespace GardenLinux

namespace Network

open Net Strconv Path

/-! ## `Erect` -/

/-- The fence builder `f`, with the fields `Erect` and `ConfigureProcess` read: the MTU of the
container's interface, the host's external address, and the directory of `net-fence`. -/
structure Builder where
  mtu : UInt32
  externalIP : Option IP
  binPath : GoString

/-- A call the fence makes on the host, with what it passes. -/
inductive Effect
  /-- `ConfigureHost`, which is not in the repository's files. -/
  | configureHost (hostIfcName containerIfcName : GoString) (gatewayIP : IP)
      (subnetShareable : Bool) (bridgeIfcName : GoString) (ipNet : IPNet) (containerPid mtu : Nat)
  /-- `os.MkdirAll`. -/
  | mkdirAll (path : GoString) (perm : Nat)
  /-- `os.RemoveAll`. -/
  | removeAll (path : GoString)
  /-- `exec.Command(name, args...).Run()`, by its argument vector. -/
  | run (argv : List GoString)
  /-- `exec.Command(name, args...).CombinedOutput()`. -/
  | combinedOutput (argv : List GoString)
  /-- `deconfigureHost`, which is not in the repository's files. -/
  | deconfigureHost (hostIfcName bridgeIfcName : GoString)
  deriving DecidableEq

/-- `/var/run/netns`. -/
def varRunNetns : GoString := GoString.ofString "/var/run/netns"

/-- `/sys`. -/
def sysDir : GoString := GoString.ofString "/sys"

/-- `path.Join("/var", "run", "netns", strconv.Itoa(containerPid))`. -/
def netnsPid (containerPid : Nat) : GoString :=
  join [GoString.ofString "/var", GoString.ofString "run", GoString.ofString "netns",
    formatUint containerPid]

/-- `path.Join("/proc", strconv.Itoa(containerPid), "ns", "net")`. -/
def procNetnsPid (containerPid : Nat) : GoString :=
  join [GoString.ofString "/proc", formatUint containerPid, GoString.ofString "ns",
    GoString.ofString "net"]

/-- `mount -n -t tmpfs tmpfs /sys`. -/
def mountSys : List GoString :=
  ["mount", "-n", "-t", "tmpfs", "tmpfs", "/sys"].map GoString.ofString

/-- `umount /sys`. -/
def umountSys : List GoString := ["umount", "/sys"].map GoString.ofString

section Erect

variable (gatewayIP : IPNet → IP) (b : Builder) (a : Allocation) (containerPid : Nat)

/-- `ConfigureHost` as `Erect` calls it; `subnets.GatewayIP` is not in the repository's files and
is a parameter. -/
def configureHostEffect : Effect :=
  .configureHost a.hostIfcName a.containerIfcName (gatewayIP a.ipNet) a.subnetShareable
    a.bridgeIfcName a.ipNet containerPid b.mtu.toNat

/-- `ln -s /proc/<pid>/ns/net /var/run/netns/<pid>`. -/
def lnArgv : List GoString :=
  [GoString.ofString "ln", GoString.ofString "-s", procNetnsPid containerPid, netnsPid containerPid]

/-- `ip netns exec <pid> <binPath>/net-fence -target=container ...`. -/
def netFenceArgv : List GoString :=
  [GoString.ofString "ip", GoString.ofString "netns", GoString.ofString "exec",
    formatUint containerPid, join [b.binPath, GoString.ofString "net-fence"],
    GoString.ofString "-target=container",
    GoString.ofString "-containerIfcName=" ++ a.containerIfcName,
    GoString.ofString "-containerIP=" ++ ipString a.containerIP,
    GoString.ofString "-gatewayIP=" ++ (gatewayIP a.ipNet).toGoString,
    GoString.ofString "-subnet=" ++ a.ipNet.toGoString,
    GoString.ofString "-mtu=" ++ formatUint b.mtu.toNat]

/-- `Erect`'s calls before the `mount`, in order. -/
def erectBefore : List Effect :=
  [configureHostEffect gatewayIP b a containerPid, .mkdirAll varRunNetns 0o700,
    .removeAll (netnsPid containerPid), .mkdirAll sysDir 0o700]

/-- `Erect`'s calls once the `mount` succeeded, before the deferred `umount`. -/
def erectAfter : List Effect :=
  [.run (lnArgv containerPid), .combinedOutput (netFenceArgv gatewayIP b a containerPid)]

variable {σ : Type} (sys : Effect → σ → σ × Option GoError)

/-- A call on the host; an error it returns ends `Erect` with that error. -/
def perform (e : Effect) : EStateM GoError σ Unit := fun s =>
  match sys e s with
  | (s, none) => .ok () s
  | (s, some err) => .error err s

/-- The `defer`red `umount /sys`: its error is printed, not returned. -/
def unmountSys (s : σ) : σ := (sys (.run umountSys) s).1

/-- Go's `defer`: `cleanup` runs when the body returns, with an error or not. -/
def deferring (cleanup : σ → σ) (body : EStateM GoError σ Unit) : EStateM GoError σ Unit :=
  fun s =>
    match body s with
    | .ok u s => .ok u (cleanup s)
    | .error e s => .error e (cleanup s)

/-- `(*Allocation).Erect`. -/
def erect : EStateM GoError σ Unit := do
  perform sys (configureHostEffect gatewayIP b a containerPid)
  perform sys (.mkdirAll varRunNetns 0o700)
  let netnsPid := netnsPid containerPid
  perform sys (.removeAll netnsPid)
  perform sys (.mkdirAll sysDir 0o700)
  perform sys (.run mountSys)
  deferring (unmountSys sys) do
    let procNetnsPid := procNetnsPid containerPid
    perform sys (.run [GoString.ofString "ln", GoString.ofString "-s", procNetnsPid, netnsPid])
    perform sys (.combinedOutput (netFenceArgv gatewayIP b a containerPid))

end Erect

/-! ## The namespace's name -/

/-- A PID in decimal is a real path element: not empty, no `/`, neither `.` nor `..`. -/
theorem normal_formatUint (v : Nat) : Path.Normal (formatUint v) := by
  obtain ⟨hne, hd, -⟩ := formatUint_spec v
  have hs : Path.slash ∉ formatUint v := fun h => absurd (hd _ h) (by decide)
  have ho : Path.dot ∉ formatUint v := fun h => absurd (hd _ h) (by decide)
  refine ⟨hne, hs, fun h => ho ?_, fun h => ho ?_⟩ <;> rw [h] <;> exact List.mem_cons_self _ _

/-- Joined, a `/` and real elements are the rooted path they spell. -/
theorem join_rooted {e : GoString} {es : List GoString} (hn : ∀ x ∈ e :: es, Path.Normal x) :
    join ((Path.slash :: e) :: es) = raw true (e :: es) := by
  have hk : Kept true (e :: es) := ⟨0, e :: es, rfl, fun _ => rfl, hn⟩
  have hi : [Path.slash].intercalate ((Path.slash :: e) :: es) = raw true (e :: es) := by
    cases es with
    | nil => rfl
    | cons b st => rw [raw, intercalate_cons_cons, intercalate_cons_cons]; rfl
  rw [join, List.dropWhile_cons_of_neg (by simp)]
  show clean ([Path.slash].intercalate ((Path.slash :: e) :: es)) = _
  rw [hi, clean_eq_cleanSpec]
  exact cleanSpec_render hk

/-- `path.Join("/var", "run", "netns", strconv.Itoa(containerPid))` is
`/var/run/netns/<pid>`: `Clean` has nothing to remove. Reference:
`src/old/system_info/system_info_test.go:566`. -/
theorem netnsPid_eq (containerPid : Nat) :
    netnsPid containerPid = GoString.ofString "/var/run/netns/" ++ formatUint containerPid := by
  have hn : ∀ x ∈ [GoString.ofString "var", GoString.ofString "run", GoString.ofString "netns",
      formatUint containerPid], Path.Normal x := by
    simp only [List.mem_cons, List.mem_singleton, List.not_mem_nil, or_false]
    rintro x (rfl | rfl | rfl | rfl)
    any_goals (unfold Path.Normal dotDot; decide)
    exact normal_formatUint _
  have h : GoString.ofString "/var" = Path.slash :: GoString.ofString "var" := by decide
  have hl : GoString.ofString "/var/run/netns/" = [Path.slash] ++ GoString.ofString "var" ++
      [Path.slash] ++ GoString.ofString "run" ++ [Path.slash] ++ GoString.ofString "netns" ++
      [Path.slash] := by decide
  rw [netnsPid, h, join_rooted hn, hl]
  simp [raw, intercalate_cons_cons, List.intercalate]

/-- `path.Join("/proc", strconv.Itoa(containerPid), "ns", "net")` is `/proc/<pid>/ns/net`.
Reference: `src/old/system_info/system_info_test.go:596`. -/
theorem procNetnsPid_eq (containerPid : Nat) :
    procNetnsPid containerPid =
      GoString.ofString "/proc/" ++ formatUint containerPid ++ GoString.ofString "/ns/net" := by
  have hn : ∀ x ∈ [GoString.ofString "proc", formatUint containerPid, GoString.ofString "ns",
      GoString.ofString "net"], Path.Normal x := by
    simp only [List.mem_cons, List.mem_singleton, List.not_mem_nil, or_false]
    rintro x (rfl | rfl | rfl | rfl)
    any_goals (unfold Path.Normal dotDot; decide)
    exact normal_formatUint _
  have h : GoString.ofString "/proc" = Path.slash :: GoString.ofString "proc" := by decide
  have hl : GoString.ofString "/proc/" = [Path.slash] ++ GoString.ofString "proc" ++ [Path.slash] :=
    by decide
  have hr : GoString.ofString "/ns/net" = [Path.slash] ++ GoString.ofString "ns" ++ [Path.slash] ++
      GoString.ofString "net" := by decide
  rw [procNetnsPid, h, join_rooted hn, hl, hr]
  simp [raw, intercalate_cons_cons, List.intercalate]

/-- **`ln -s` links the namespace where `ip netns exec` looks for it**: for every PID, `Erect`
links `/proc/<name>/ns/net` as `/var/run/netns/<name>` and runs `ip netns exec <name>`, for one
name, a single path element: the PID in decimal. Reference:
`src/old/system_info/system_info_test.go:566` and `:596`. -/
theorem erect_netns_link (gatewayIP : IPNet → IP) (b : Builder) (a : Allocation)
    (containerPid : Nat) :
    ∃ name, name ≠ [] ∧ Path.slash ∉ name ∧
      lnArgv containerPid = [GoString.ofString "ln", GoString.ofString "-s",
        GoString.ofString "/proc/" ++ name ++ GoString.ofString "/ns/net",
        GoString.ofString "/var/run/netns/" ++ name] ∧
      (netFenceArgv gatewayIP b a containerPid).take 4 =
        [GoString.ofString "ip", GoString.ofString "netns", GoString.ofString "exec", name] :=
  ⟨formatUint containerPid, (normal_formatUint _).1, (normal_formatUint _).2.1,
    by rw [lnArgv, netnsPid_eq, procNetnsPid_eq], rfl⟩

/-! ## `Erect` call by call -/

/-- Where an `Erect` is: making the calls before the `mount` that are left (the `mount` is next
when none is), making those after it that are left (the `umount` is next when none is),
unmounting on its way out with an error, or returned. -/
inductive Phase
  | before (rest : List Effect)
  | after (rest : List Effect)
  | unmount (err : GoError)
  | returned (r : Option GoError)

/-- The call an `Erect` in this phase makes next. -/
def Phase.next : Phase → Option Effect
  | .before (e :: _) | .after (e :: _) => some e
  | .before [] => some (.run mountSys)
  | .after [] | .unmount _ => some (.run umountSys)
  | .returned _ => none

/-- The phase once the next call returned `r`; `after` is what to call once the `mount`
succeeded. -/
def Phase.advance (after : List Effect) : Phase → Option GoError → Phase
  | .before (_ :: rest), none => .before rest
  | .before [], none => .after after
  | .before _, some err => .returned (some err)
  | .after (_ :: rest), none => .after rest
  | .after (_ :: _), some err => .unmount err
  | .after [], _ => .returned none
  | .unmount err, _ => .returned (some err)
  | .returned r, _ => .returned r

/-- Whether the `Erect` has mounted a `tmpfs` over `/sys` and not unmounted it yet. -/
def Phase.mounted : Phase → Bool
  | .after _ | .unmount _ => true
  | _ => false

/-- The phases an `Erect` with these calls before and after the `mount` goes through. -/
def Phase.Within (before after : List Effect) : Phase → Prop
  | .before rest => rest <:+ before
  | .after rest => rest <:+ after
  | _ => True

/-- How many calls an `Erect` in this phase has still to make. -/
def Phase.left (after : List Effect) : Phase → Nat
  | .before rest => rest.length + after.length + 2
  | .after rest => rest.length + 1
  | .unmount _ => 1
  | .returned _ => 0

/-- Each call an `Erect` makes leaves it fewer to make: the measure `Phase.run` recurses on. -/
theorem Phase.left_advance {after : List Effect} {ph : Phase} {e : Effect} (he : ph.next = some e)
    (r : Option GoError) : (ph.advance after r).left after < ph.left after := by
  match ph, r with
  | .before (_ :: _), none | .before (_ :: _), some _ | .before [], none | .before [], some _
  | .after (_ :: _), none | .after (_ :: _), some _ | .after [], _ | .unmount _, _ =>
    simp [Phase.advance, Phase.left]; try omega
  | .returned _, _ => cases he

section Run

variable {σ : Type} (sys : Effect → σ → σ × Option GoError)

/-- What a call that returned `r` hands back. -/
def ofOption (r : Option GoError) (s : σ) : EStateM.Result GoError σ Unit :=
  match r with
  | none => .ok () s
  | some err => .error err s

/-- What is left of `erect` in each phase, run alone. -/
def Phase.run (after : List Effect) : Phase → EStateM GoError σ Unit
  | .before rest => do
    rest.forM (perform sys)
    perform sys (.run mountSys)
    deferring (unmountSys sys) (after.forM (perform sys))
  | .after rest => deferring (unmountSys sys) (rest.forM (perform sys))
  | .unmount err => fun s => .error err (unmountSys sys s)
  | .returned r => ofOption r

/-- A call followed by the rest of `Erect`: the rest runs on the host the call left, unless the
call failed, and then `Erect` returns its error. -/
theorem perform_bind (e : Effect) (f : Unit → EStateM GoError σ Unit) (s : σ) :
    (perform sys e >>= f) s = match sys e s with
      | (s, none) => f () s
      | (s, some err) => .error err s := by
  show EStateM.bind _ f s = _
  unfold EStateM.bind perform
  rcases sys e s with ⟨s', _ | err⟩ <;> rfl

/-- **One call at a time, the phases are `erect`**: what is left after a call is what was left
before it, run from the state the call leaves. Reference:
`src/old/system_info/system_info_test.go:550`. -/
theorem Phase.run_advance (after : List Effect) {ph : Phase} {e : Effect} (he : ph.next = some e)
    (s : σ) : ph.run sys after s = (ph.advance after (sys e s).2).run sys after (sys e s).1 := by
  rcases hsys : sys e s with ⟨s', _ | err⟩
  all_goals match ph with
    | .before (_ :: _) | .before [] | .after (_ :: _) =>
      cases he
      simp only [Phase.run, Phase.advance, List.forM, deferring, bind_assoc, pure_bind,
        perform_bind, hsys, ofOption]
    | .after [] | .unmount _ =>
      cases he
      simp only [Phase.run, Phase.advance, List.forM, deferring, unmountSys, pure, EStateM.pure,
        hsys, ofOption]
    | .returned _ => cases he

/-- **`erect` is its first phase run**: the calls before the `mount`, the `mount`, and the calls
after it under the deferred `umount`. Reference: `src/old/system_info/system_info_test.go:550`. -/
theorem erect_eq_run (gatewayIP : IPNet → IP) (b : Builder) (a : Allocation) (containerPid : Nat) :
    erect gatewayIP b a containerPid sys =
      (Phase.before (erectBefore gatewayIP b a containerPid)).run sys
        (erectAfter gatewayIP b a containerPid) := by
  simp only [erect, Phase.run, erectBefore, erectAfter, lnArgv, List.forM, bind_assoc,
    bind_pure_unit]

end Run

/-! ## What is mounted on `/sys` -/

/-- What is mounted on the host's `/sys`: its own `sysfs` or not, and how many `tmpfs`s over
it. -/
@[ext]
structure SysMounts where
  sysfs : Bool
  tmpfs : Nat
  deriving DecidableEq

/-- What a call that returned `r` leaves on `/sys`: a `mount -n -t tmpfs tmpfs /sys` that
succeeds puts a `tmpfs` over it, and an `umount /sys` that succeeds takes off what is on top, the
`sysfs` itself when no `tmpfs` is left. -/
def SysMounts.apply (m : SysMounts) : Effect → Option GoError → SysMounts
  | .run argv, none =>
    if argv = mountSys then { m with tmpfs := m.tmpfs + 1 }
    else if argv = umountSys then
      if m.tmpfs = 0 then { m with sysfs := false } else { m with tmpfs := m.tmpfs - 1 }
    else m
  | _, _ => m

/-- Whether a call mounts or unmounts `/sys`. -/
def Effect.onSys (e : Effect) : Bool := e = .run mountSys || e = .run umountSys

/-- Whether a call is an `umount /sys` that failed. -/
def unmountFailed : Effect × Option GoError → Bool
  | (e, some _) => e = .run umountSys
  | (_, none) => false

/-- `mount -n -t tmpfs tmpfs /sys` and `umount /sys` are different commands. -/
theorem mountSys_ne_umountSys : mountSys ≠ umountSys := by decide

/-- A call that neither mounts nor unmounts `/sys` leaves its mounts as they are. -/
theorem SysMounts.apply_of_onSys {e : Effect} (he : e.onSys = false) (m : SysMounts)
    (r : Option GoError) : m.apply e r = m := by
  simp only [Effect.onSys, Bool.or_eq_false_iff, decide_eq_false_iff_not] at he
  match e, r with
  | .run argv, none =>
    have h1 : argv ≠ mountSys := fun h => he.1 (h ▸ rfl)
    have h2 : argv ≠ umountSys := fun h => he.2 (h ▸ rfl)
    simp [SysMounts.apply, h1, h2]
  | .configureHost .., _ | .mkdirAll .., _ | .removeAll _, _ | .run _, some _
  | .combinedOutput _, _ | .deconfigureHost .., _ => rfl

/-- A call that does not touch `/sys` is no failed `umount`. -/
theorem unmountFailed_of_onSys {e : Effect} (he : e.onSys = false) (r : Option GoError) :
    unmountFailed (e, r) = false := by
  cases r <;> simp_all [unmountFailed, Effect.onSys]

/-- None of the calls before or after the `mount` touches `/sys`. -/
theorem onSys_erect (gatewayIP : IPNet → IP) (b : Builder) (a : Allocation) (containerPid : Nat) :
    ∀ e ∈ erectBefore gatewayIP b a containerPid ++ erectAfter gatewayIP b a containerPid,
      e.onSys = false := by
  have hl : GoString.ofString "ln" ≠ GoString.ofString "mount" ∧
      GoString.ofString "ln" ≠ GoString.ofString "umount" := by decide
  simp [erectBefore, erectAfter, configureHostEffect, Effect.onSys, lnArgv, mountSys, umountSys,
    hl.1, hl.2]

/-- **What one call of an `Erect` does to `/sys`**: the `sysfs` stays, and the `tmpfs`s change as
whether the `Erect` holds a mount does, and one more when the call is an `umount` that failed.
Reference: `src/old/system_info/system_info_test.go:582` and `:590`. -/
theorem Phase.sys_advance {before after : List Effect}
    (hb : ∀ e ∈ before ++ after, e.onSys = false) {ph : Phase} (hw : ph.Within before after)
    {e : Effect} (he : ph.next = some e) (r : Option GoError) {m : SysMounts}
    (hm : ph.mounted → 0 < m.tmpfs) :
    (m.apply e r).sysfs = m.sysfs ∧
      (m.apply e r).tmpfs + ph.mounted.toNat =
        m.tmpfs + (ph.advance after r).mounted.toNat + (unmountFailed (e, r)).toNat ∧
      (ph.advance after r).Within before after := by
  match ph, r with
  | .before (e' :: rest), r =>
    cases he
    have hs := hb e (List.mem_append_left _ (hw.mem (List.mem_cons_self _ _)))
    rw [SysMounts.apply_of_onSys hs, unmountFailed_of_onSys hs]
    cases r
    · exact ⟨rfl, rfl, (List.suffix_cons _ _).trans hw⟩
    · exact ⟨rfl, rfl, trivial⟩
  | .before [], none =>
    cases he
    exact ⟨rfl, by simp [SysMounts.apply, Phase.advance, Phase.mounted, unmountFailed],
      List.suffix_refl _⟩
  | .before [], some _ =>
    cases he
    simp [SysMounts.apply, Phase.advance, Phase.mounted, unmountFailed, mountSys_ne_umountSys,
      Phase.Within]
  | .after (e' :: rest), r =>
    cases he
    have hs := hb e (List.mem_append_right _ (hw.mem (List.mem_cons_self _ _)))
    rw [SysMounts.apply_of_onSys hs, unmountFailed_of_onSys hs]
    cases r
    · exact ⟨rfl, rfl, (List.suffix_cons _ _).trans hw⟩
    · exact ⟨rfl, rfl, trivial⟩
  | .after [], r | .unmount _, r =>
    cases he
    have h0 : m.tmpfs ≠ 0 := Nat.pos_iff_ne_zero.1 (hm rfl)
    cases r
    · simp [SysMounts.apply, Phase.advance, Phase.mounted, unmountFailed, h0, Phase.Within,
        mountSys_ne_umountSys.symm]
      omega
    · simp [SysMounts.apply, Phase.advance, Phase.mounted, unmountFailed, Phase.Within]
  | .returned _, _ => cases he

/-! ## `Erect`s interleaved -/

/-- An `Erect` in progress: the builder and the allocation it erects, for which container, and
where it is. -/
structure Erecting where
  b : Builder
  a : Allocation
  containerPid : Nat
  phase : Phase

/-- The host while `Erect`s run: what is mounted on `/sys`, the `Erect`s called so far, and the
calls they made, in order, with what each returned. -/
structure Erects where
  sys : SysMounts
  procs : List Erecting
  hist : List (Effect × Option GoError)

section Erects

variable (gatewayIP : IPNet → IP)

/-- An `Erect` as it is called. -/
def Erecting.start (b : Builder) (a : Allocation) (containerPid : Nat) : Erecting :=
  ⟨b, a, containerPid, .before (erectBefore gatewayIP b a containerPid)⟩

/-- A step of the host: a container's `Start` calls `Erect`, or an `Erect` makes its next call
and the host answers it, with any answer. -/
inductive Erects.Step : Erects → Erects → Prop
  | call (s : Erects) (b : Builder) (a : Allocation) (containerPid : Nat) :
      Step s { s with procs := s.procs ++ [Erecting.start gatewayIP b a containerPid] }
  | step (s : Erects) (l₁ l₂ : List Erecting) (p : Erecting) (e : Effect) (r : Option GoError)
      (hs : s.procs = l₁ ++ p :: l₂) (he : p.phase.next = some e) :
      Step s ⟨s.sys.apply e r,
        l₁ ++ { p with phase := p.phase.advance (erectAfter gatewayIP p.b p.a p.containerPid) r } ::
          l₂,
        s.hist ++ [(e, r)]⟩

/-- The states the host reaches from `/sys` as `sys₀` with no `Erect` called. -/
def Erects.Reach (sys₀ : SysMounts) (s : Erects) : Prop :=
  Relation.ReflTransGen (Erects.Step gatewayIP) ⟨sys₀, [], []⟩ s

/-- How `/sys` is accounted for: the `sysfs` is as it was, and the `tmpfs`s are those there at
the start, one for each `Erect` that holds a mount, and one for each `umount` that failed; each
`Erect` is in a phase of its own calls. -/
structure Erects.Inv (sys₀ : SysMounts) (s : Erects) : Prop where
  sysfs : s.sys.sysfs = sys₀.sysfs
  tmpfs : s.sys.tmpfs = sys₀.tmpfs + s.procs.countP (·.phase.mounted) +
    s.hist.countP unmountFailed
  within : ∀ p ∈ s.procs, p.phase.Within (erectBefore gatewayIP p.b p.a p.containerPid)
    (erectAfter gatewayIP p.b p.a p.containerPid)

variable {gatewayIP} {sys₀ : SysMounts}

/-- While some `Erect` holds its mount, a `tmpfs` is over `/sys`. -/
theorem Erects.Inv.tmpfs_pos {s : Erects} (hi : s.Inv gatewayIP sys₀) {p : Erecting}
    (hp : p ∈ s.procs) (hm : p.phase.mounted) : 0 < s.sys.tmpfs := by
  have := (List.countP_pos_iff (p := fun q : Erecting => q.phase.mounted)).2 ⟨p, hp, hm⟩
  rw [hi.tmpfs]
  omega

/-- Counting over a list with one element taken out: the two sides, and the element. -/
theorem countP_split {α : Type} (f : α → Bool) (l₁ l₂ : List α) (x : α) :
    (l₁ ++ x :: l₂).countP f = l₁.countP f + l₂.countP f + (f x).toNat := by
  simp only [List.countP_append, List.countP_cons]
  cases f x <;> rfl

/-- **Each step keeps the accounting of `/sys`**: a new `Erect`, or a call of one of them answered
by the host, keeps `Erects.Inv`. One case per constructor of `Erects.Step`; in the call case, one
per kind of call (the `mount`, the `umount`, any other). Reference:
`src/old/system_info/system_info_test.go:582` and `:590`. -/
theorem Erects.Step.inv {s s' : Erects} (hst : Erects.Step gatewayIP s s')
    (hi : s.Inv gatewayIP sys₀) : s'.Inv gatewayIP sys₀ := by
  cases hst with
  | call b a containerPid =>
    refine ⟨hi.sysfs, ?_, ?_⟩
    · simp [hi.tmpfs, List.countP_append, Erecting.start, Phase.mounted]
    · simp only [List.mem_append, List.mem_singleton]
      rintro p (hp | rfl)
      · exact hi.within p hp
      · exact List.suffix_refl _
  | step l₁ l₂ p e r hs he =>
    have hp : p ∈ s.procs := hs ▸ List.mem_append_right _ (List.mem_cons_self _ _)
    obtain ⟨h1, h2, h3⟩ := Phase.sys_advance (onSys_erect _ _ _ _) (hi.within p hp) he r
      (hi.tmpfs_pos hp)
    have ht := hi.tmpfs
    rw [hs] at ht
    refine ⟨h1.trans hi.sysfs, ?_, ?_⟩
    · have hu := countP_split unmountFailed s.hist [] (e, r)
      rw [countP_split] at ht ⊢
      simp only [List.append_nil, List.countP_nil] at hu ⊢
      omega
    · intro q hq
      rcases List.mem_append.1 hq with hq | hq
      · exact hi.within q (hs ▸ List.mem_append_left _ hq)
      · rcases List.mem_cons.1 hq with rfl | hq
        · exact h3
        · exact hi.within q (hs ▸ List.mem_append_right _ (List.mem_cons_of_mem _ hq))

/-- Every state the host reaches is accounted for. -/
theorem Erects.Reach.inv {s : Erects} (hr : Erects.Reach gatewayIP sys₀ s) :
    s.Inv gatewayIP sys₀ := by
  induction hr with
  | refl => exact ⟨rfl, rfl, by simp⟩
  | tail _ hst ih => exact hst.inv ih

/-- A builder, a gateway and a state of the host for the checks below: one `Erect` called on a host
with its `sysfs` and no `tmpfs`, and its calls up to the `mount` answered with success. -/
def sampleBuilder : Builder := ⟨1500, none, GoString.ofString "bin"⟩

/-- The network's own address as its gateway. -/
def sampleGateway (ipn : IPNet) : IP := ipn.ip

/-- The host once the `Erect` of `sampleAllocation` for the container of PID 42 mounted `/sys`. -/
def sampleMounted : Erects :=
  ⟨⟨true, 1⟩, [⟨sampleBuilder, sampleAllocation, 42,
    .after (erectAfter sampleGateway sampleBuilder sampleAllocation 42)⟩],
    (erectBefore sampleGateway sampleBuilder sampleAllocation 42 ++ [Effect.run mountSys]).map
      (·, none)⟩

/-- `sampleMounted` is reached: the `Erect` is called, and its five calls up to the `mount` are
answered with success. -/
theorem sampleMounted_reach : Erects.Reach sampleGateway ⟨true, 0⟩ sampleMounted := by
  have h0 : Erects.Reach sampleGateway ⟨true, 0⟩ ⟨⟨true, 0⟩, [], []⟩ := .refl
  have h1 := h0.tail (Erects.Step.call _ sampleBuilder sampleAllocation 42)
  have h2 := h1.tail (Erects.Step.step _ [] [] _ _ none rfl rfl)
  have h3 := h2.tail (Erects.Step.step _ [] [] _ _ none rfl rfl)
  have h4 := h3.tail (Erects.Step.step _ [] [] _ _ none rfl rfl)
  have h5 := h4.tail (Erects.Step.step _ [] [] _ _ none rfl rfl)
  have h6 := h5.tail (Erects.Step.step _ [] [] _ _ none rfl rfl)
  simpa [SysMounts.apply, erectBefore, configureHostEffect, Phase.advance, Erecting.start] using h6

/-- **`/sys` is accounted for in every interleaving**: whatever `Erect`s are called and however
their calls interleave and are answered, the host's `sysfs` is as it was, and the `tmpfs`s over
it are those there at the start, one for each `Erect` between its `mount` and its `umount`, and
one for each `umount` that failed. Reference: `src/old/system_info/system_info_test.go:582` and
`:590`. -/
theorem Erects.reach_sys {s : Erects} (hr : Erects.Reach gatewayIP sys₀ s) :
    s.sys.sysfs = sys₀.sysfs ∧
      s.sys.tmpfs = sys₀.tmpfs + s.procs.countP (·.phase.mounted) +
        s.hist.countP unmountFailed :=
  ⟨hr.inv.sysfs, hr.inv.tmpfs⟩

/-- The accounting at `sampleMounted`: one `tmpfs`, held by its one `Erect`. -/
theorem reach_sys_sampleMounted :
    Erects.Reach sampleGateway ⟨true, 0⟩ sampleMounted ∧ sampleMounted.sys.sysfs = true ∧
      sampleMounted.sys.tmpfs = 0 + sampleMounted.procs.countP (·.phase.mounted) +
        sampleMounted.hist.countP unmountFailed :=
  ⟨sampleMounted_reach, Erects.reach_sys sampleMounted_reach⟩

/-- An `Erect` whose next call is one of those it makes after the `mount` holds a mount. -/
theorem Phase.mounted_of_next {before after : List Effect}
    (hd : ∀ e ∈ after, e ∉ before ∧ e.onSys = false) {ph : Phase} (hw : ph.Within before after)
    {e : Effect} (he : ph.next = some e) (ha : e ∈ after) : ph.mounted := by
  match ph with
  | .before (_ :: _) =>
    cases he
    exact absurd (hw.mem (List.mem_cons_self _ _)) (hd e ha).1
  | .before [] =>
    cases he
    have := (hd _ ha).2
    simp [Effect.onSys] at this
  | .after _ | .unmount _ => rfl
  | .returned _ => cases he

/-- The calls an `Erect` makes once mounted are none of those it makes before, and none touches
`/sys`. -/
theorem erectAfter_disjoint (b : Builder) (a : Allocation) (containerPid : Nat) :
    ∀ e ∈ erectAfter gatewayIP b a containerPid,
      e ∉ erectBefore gatewayIP b a containerPid ∧ e.onSys = false := fun e he =>
  ⟨by simp only [erectAfter, List.mem_cons, List.mem_singleton, List.not_mem_nil, or_false] at he
      rcases he with rfl | rfl <;> simp [erectBefore, configureHostEffect],
    onSys_erect _ _ _ _ e (List.mem_append_right _ he)⟩

/-- **Every `ln -s` and `ip netns exec` runs over a `tmpfs`**: in every interleaving, when an
`Erect`'s next call is one of those it makes once mounted, a `tmpfs` is over `/sys`, however the
other `Erect`s' `umount`s went. Reference: `src/old/system_info/system_info_test.go:597` and
`:610`. -/
theorem Erects.netFence_mounted {s : Erects} (hr : Erects.Reach gatewayIP sys₀ s) {p : Erecting}
    (hp : p ∈ s.procs) {e : Effect} (he : p.phase.next = some e)
    (ha : e ∈ erectAfter gatewayIP p.b p.a p.containerPid) : 0 < s.sys.tmpfs :=
  hr.inv.tmpfs_pos hp (Phase.mounted_of_next (erectAfter_disjoint _ _ _) (hr.inv.within p hp) he ha)

/-- At `sampleMounted`, the `Erect` is about to run `ln -s`, and a `tmpfs` is over `/sys`. -/
theorem netFence_mounted_sampleMounted :
    let p : Erecting := ⟨sampleBuilder, sampleAllocation, 42,
      .after (erectAfter sampleGateway sampleBuilder sampleAllocation 42)⟩
    Erects.Reach sampleGateway ⟨true, 0⟩ sampleMounted ∧ p ∈ sampleMounted.procs ∧
      p.phase.next = some (.run (lnArgv 42)) ∧
      Effect.run (lnArgv 42) ∈ erectAfter sampleGateway sampleBuilder sampleAllocation 42 ∧
      0 < sampleMounted.sys.tmpfs :=
  ⟨sampleMounted_reach, List.mem_singleton_self _, rfl, List.mem_cons_self _ _,
    Erects.netFence_mounted sampleMounted_reach (List.mem_singleton_self _) rfl
      (List.mem_cons_self _ _)⟩

end Erects

/-! ## `erect`, run alone -/

section Alone

variable {σ : Type} (sys : Effect → σ → σ × Option GoError) (abs : σ → SysMounts)

/-- `abs` reads off the host what is mounted on `/sys`, and the host's calls change it as
`SysMounts.apply` says. -/
def Tracks : Prop := ∀ e s, abs (sys e s).1 = (abs s).apply e (sys e s).2

/-- The host answering calls one after another from `s`: the state it ends in, and its answer to
each call. -/
def hostRun (s : σ) : List Effect → σ × List (Option GoError)
  | [] => (s, [])
  | e :: es => ((hostRun (sys e s).1 es).1, (sys e s).2 :: (hostRun (sys e s).1 es).2)

/-- Each answer of a run of the host is the host's answer to its call in some state. -/
theorem answer_of_hostRun {s s' : σ} {h : List (Effect × Option GoError)}
    (hr : hostRun sys s (h.map Prod.fst) = (s', h.map Prod.snd)) :
    ∀ x ∈ h, ∃ t, (sys x.1 t).2 = x.2 := by
  induction h generalizing s with
  | nil => intro x hx; cases hx
  | cons y h ih =>
    simp only [List.map_cons, hostRun, Prod.mk.injEq, List.cons.injEq] at hr
    rintro x (_ | ⟨_, hx⟩)
    · exact ⟨s, hr.2.1⟩
    · exact ih (Prod.ext hr.1 hr.2.2) x hx

variable {sys abs} (gatewayIP : IPNet → IP) (b : Builder) (a : Allocation) (containerPid : Nat)

/-- Run alone from any phase, an `Erect`'s calls are a run of it in `Erects`, the others idle,
with answers the host gave, ending returned with what is left of `erect` hands back. -/
theorem Erects.steps_run (htr : Tracks sys abs) (ps : List Erecting) (ph : Phase) (s : σ)
    (hist : List (Effect × Option GoError)) :
    ∃ r s' h, ph.run sys (erectAfter gatewayIP b a containerPid) s = ofOption r s' ∧
      hostRun sys s (h.map Prod.fst) = (s', h.map Prod.snd) ∧
      Relation.ReflTransGen (Erects.Step gatewayIP)
        ⟨abs s, ps ++ [⟨b, a, containerPid, ph⟩], hist⟩
        ⟨abs s', ps ++ [⟨b, a, containerPid, .returned r⟩], hist ++ h⟩ := by
  cases hn : ph.next with
  | none =>
    match ph with
    | .returned r => exact ⟨r, s, [], rfl, rfl, by simpa using .refl⟩
    | .before [] | .before (_ :: _) | .after [] | .after (_ :: _) | .unmount _ => cases hn
  | some e =>
    have hst := @Erects.Step.step gatewayIP
      ⟨abs s, ps ++ [⟨b, a, containerPid, ph⟩], hist⟩ ps [] _ e (sys e s).2 rfl hn
    rw [← htr] at hst
    obtain ⟨r, s', h, hrun, hans, hsteps⟩ := Erects.steps_run htr ps
      (ph.advance (erectAfter gatewayIP b a containerPid) (sys e s).2) (sys e s).1
      (hist ++ [(e, (sys e s).2)])
    refine ⟨r, s', (e, (sys e s).2) :: h, (Phase.run_advance sys _ hn s).trans hrun, ?_,
      .head hst (by simpa using hsteps)⟩
    simp only [List.map_cons, hostRun, hans]
termination_by ph.left (erectAfter gatewayIP b a containerPid)
decreasing_by exact Phase.left_advance hn _

/-- **`erect` is a run of one `Erect`**: on a host whose `/sys` behaves as `SysMounts` says,
`erect` hands back what the `Erect` it starts returns when it makes its calls one after another,
the other `Erect`s idle, and each answer in that run is the host's answer to the call in the state
the calls before it left, the last state being the one `erect` leaves. Reference:
`src/old/system_info/system_info_test.go:550`. -/
theorem erect_steps (htr : Tracks sys abs) (ps : List Erecting)
    (hist : List (Effect × Option GoError)) (s : σ) :
    ∃ r s' h, (erect gatewayIP b a containerPid sys).run s = ofOption r s' ∧
      hostRun sys s (h.map Prod.fst) = (s', h.map Prod.snd) ∧
      Relation.ReflTransGen (Erects.Step gatewayIP)
        ⟨abs s, ps ++ [Erecting.start gatewayIP b a containerPid], hist⟩
        ⟨abs s', ps ++ [⟨b, a, containerPid, .returned r⟩], hist ++ h⟩ := by
  obtain ⟨r, s', h, hrun, hans, hsteps⟩ :=
    Erects.steps_run gatewayIP b a containerPid htr ps _ s hist
  exact ⟨r, s', h, (congrFun (erect_eq_run sys gatewayIP b a containerPid) s).trans hrun, hans,
    hsteps⟩

/-- A host on which every call succeeds, with `/sys` all there is of it. -/
def sampleHost (e : Effect) (m : SysMounts) : SysMounts × Option GoError := (m.apply e none, none)

/-- `Erect` of `sampleAllocation` for PID 42 on `sampleHost`: the host's run of its calls, and
the run of the concurrent machine with that history. -/
theorem erect_steps_sampleHost :
    Tracks sampleHost id ∧
      ∃ r s' h, (erect sampleGateway sampleBuilder sampleAllocation 42 sampleHost).run
          ⟨true, 0⟩ = ofOption r s' ∧
        hostRun sampleHost ⟨true, 0⟩ (h.map Prod.fst) = (s', h.map Prod.snd) ∧
        Relation.ReflTransGen (Erects.Step sampleGateway)
          ⟨id (⟨true, 0⟩ : SysMounts),
            [] ++ [Erecting.start sampleGateway sampleBuilder sampleAllocation 42], []⟩
          ⟨id s', [] ++ [⟨sampleBuilder, sampleAllocation, 42, .returned r⟩], [] ++ h⟩ :=
  ⟨fun _ _ => rfl,
    erect_steps sampleGateway sampleBuilder sampleAllocation 42 (fun _ _ => rfl) [] []
      (⟨true, 0⟩ : SysMounts)⟩

/-- **`Erect` leaves `/sys` as it found it** on a host whose `umount /sys` does not fail: whichever
call fails, the `tmpfs` it mounted, if it did, is off again, and the host's `sysfs` is never
touched. Reference: `src/old/system_info/system_info_test.go:582` and `:590`. -/
theorem erect_keeps_sys (htr : Tracks sys abs) (hu : ∀ s, (sys (.run umountSys) s).2 = none)
    (s : σ) : ∃ r s', (erect gatewayIP b a containerPid sys).run s = ofOption r s' ∧
      abs s' = abs s := by
  obtain ⟨r, s', h, hrun, hrh, hsteps⟩ := Erects.steps_run gatewayIP b a containerPid htr [] _ s []
  have hans := answer_of_hostRun sys hrh
  have hr : Erects.Reach gatewayIP (abs s) ⟨abs s', [⟨b, a, containerPid, .returned r⟩], h⟩ :=
    .head (Erects.Step.call _ b a containerPid) (by simpa using hsteps)
  have hf : h.countP unmountFailed = 0 := List.countP_eq_zero.2 fun
    | (_, none), _ => by simp [unmountFailed]
    | (e, some err), hx => by
      obtain ⟨t, ht⟩ := hans _ hx
      have : e ≠ .run umountSys := by rintro rfl; simp [hu] at ht
      simpa [unmountFailed] using this
  refine ⟨r, s', (congrFun (erect_eq_run sys gatewayIP b a containerPid) s).trans hrun, ?_⟩
  exact SysMounts.ext hr.inv.sysfs (by simpa [hf, Phase.mounted] using hr.inv.tmpfs)

/-- `Erect` of `sampleAllocation` for PID 42 on `sampleHost`, whose `umount` succeeds, leaves
`/sys` as it found it. -/
theorem erect_keeps_sys_sampleHost :
    Tracks sampleHost id ∧ (∀ s, (sampleHost (.run umountSys) s).2 = none) ∧
      ∃ r s', (erect sampleGateway sampleBuilder sampleAllocation 42 sampleHost).run ⟨true, 0⟩ =
        ofOption r s' ∧ id s' = id (⟨true, 0⟩ : SysMounts) :=
  ⟨fun _ _ => rfl, fun _ => rfl,
    erect_keeps_sys sampleGateway sampleBuilder sampleAllocation 42 (fun _ _ => rfl) (fun _ => rfl)
      (⟨true, 0⟩ : SysMounts)⟩

end Alone

/-! ## The allocation's other methods -/

section Methods

variable (gatewayIP : IPNet → IP) (b : Builder) (a : Allocation)

/-- `(*Allocation).Dismantle`: give the subnet and the address back to the pool (`Release`, which
is not in the repository's files, and says whether it released the subnet), and take down the
host's end of the interface pair, with the bridge when the subnet was released. The pool's error
is what it returns; that of `deconfigureHost` is dropped. -/
def dismantle {σ : Type} (sys : Effect → σ → σ × Option GoError)
    (release : IPNet → Option IP → Bool × Option GoError) : EStateM GoError σ Unit := fun s =>
  let (released, err) := release a.ipNet a.containerIP
  ofOption err (sys (.deconfigureHost a.hostIfcName (if released then a.bridgeIfcName else [])) s).1

/-- `fmt`'s `%v` of a `bool`. -/
def formatBool (v : Bool) : GoString := GoString.ofString (if v then "true" else "false")

/-- `(*Allocation).ConfigureProcess`: the network's variables, appended to the environment. -/
def configureProcess (env : List GoString) : List GoString :=
  env ++ [GoString.ofString "network_host_ip=" ++ (gatewayIP a.ipNet).toGoString,
    GoString.ofString "network_container_ip=" ++ ipString a.containerIP,
    GoString.ofString "network_cidr_suffix=" ++ formatUint a.ipNet.ones,
    GoString.ofString "container_iface_mtu=" ++ formatUint b.mtu.toNat,
    GoString.ofString "subnet_shareable=" ++ formatBool a.subnetShareable,
    GoString.ofString "network_cidr=" ++ a.ipNet.toGoString,
    GoString.ofString "external_ip=" ++ ipString b.externalIP,
    GoString.ofString "network_ip_hex=" ++ hexIP a.ipNet.ip]

/-- `(*Allocation).Info`: the host's address on the subnet and the container's, as text. -/
def Allocation.info : GoString × GoString :=
  ((gatewayIP a.ipNet).toGoString, ipString a.containerIP)

end Methods

end Network

end GardenLinux
